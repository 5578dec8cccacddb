/-
A machine only ever answers.

Each received frame lets the library send one packet, or store one that waits for a MAC
address; a packet that waits leaves its slot when it is sent.  So the packets that a machine
has sent and those that wait are never more than the frames it has received.  ARP
requests are the exception: a packet that waits may ask again.
-/
import JudgeDuck.Proofs.DuckNet.Link

namespace JudgeDuck

namespace DuckNet

/-- An ARP request. -/
structure IsQuery (f : List UInt8) : Prop where
  ethertype : (frameMem f).read16 12 = htons ethertypeARP
  op : (frameMem f).read16 20 = htons arpRequest

theorem isQuery_iff {f : List UInt8} : IsQuery f ↔
    (frameMem f).read16 12 = htons ethertypeARP ∧ (frameMem f).read16 20 = htons arpRequest :=
  ⟨fun h => ⟨h.ethertype, h.op⟩, fun h => ⟨h.1, h.2⟩⟩

instance (f : List UInt8) : Decidable (IsQuery f) := decidable_of_iff _ isQuery_iff.symm

/-- The packets that were sent, but for ARP requests. -/
def Net.answers (s : Net) : Nat := s.sent.countP fun c => ¬IsQuery c.2

/-- The slots with a packet that waits. -/
def Net.waiting (s : Net) : Finset Nat :=
  (Finset.range tosendTableSize).filter fun i => ¬slotFree s.tosendFree i = true

/-- No more packets than frames. -/
def Owes (k : Nat) (s : Net) : Prop := s.answers + s.waiting.card ≤ k

variable {cfg : NetConfig} {s s' : Net} {k : Nat}

theorem Owes.congr (h : Owes k s) (hsent : s'.sent = s.sent)
    (hfree : s'.tosendFree = s.tosendFree) : Owes k s' := by
  unfold Owes Net.answers Net.waiting
  rw [hsent, hfree]
  exact h

theorem Owes.sendbuf (h : Owes k s) (m : Mem) : Owes k { s with sendbuf := m } := h.congr rfl rfl

theorem Owes.mono (h : Owes k s) {k' : Nat} (hk : k ≤ k') : Owes k' s := le_trans h hk

/-- One more packet. -/
theorem Owes.phySend (h : Owes k s) (b : Buffer) (len : Nat) :
    Owes (k + 1) (DuckNet.phySend cfg b len s).2 := by
  have hcount : (DuckNet.phySend cfg b len s).2.answers ≤ s.answers + 1 := by
    unfold Net.answers DuckNet.phySend
    rw [List.countP_append]
    exact Nat.add_le_add_left List.countP_le_length _
  have hwaiting : (DuckNet.phySend cfg b len s).2.waiting = s.waiting := rfl
  unfold Owes at h ⊢
  rw [hwaiting]
  omega

/-- An ARP request does not count. -/
theorem Owes.phySend_query (h : Owes k s) (b : Buffer) {len : Nat}
    (hquery : IsQuery ((s.buffer b).bytes 0 len)) : Owes k (DuckNet.phySend cfg b len s).2 := by
  have hcount : (DuckNet.phySend cfg b len s).2.answers = s.answers := by
    unfold Net.answers DuckNet.phySend
    rw [List.countP_append, List.countP_singleton, if_neg (by simpa using hquery), Nat.add_zero]
  have hwaiting : (DuckNet.phySend cfg b len s).2.waiting = s.waiting := rfl
  unfold Owes at h ⊢
  rwa [hwaiting, hcount]

theorem isQuery_arpFrame (dst : MACAddress) (payload : List UInt8) (m : Mem) :
    IsQuery (((arpBuildPacket cfg dst arpRequest payload).exec m).bytes 0 42) := by
  constructor
  · rw [Mem.read16_congr fun x _ _ => frameMem_bytes _ (by omega), exec_arpBuildPacket]
    simp (disch := omega) only [Mem.read16_putBytes_of_disjoint, Mem.read16_write16_of_disjoint,
      Mem.read16_write8_of_disjoint, Mem.read16_write16_self]
  · rw [Mem.read16_congr fun x _ _ => frameMem_bytes _ (by omega), exec_arpBuildPacket]
    simp (disch := omega) only [Mem.read16_putBytes_of_disjoint, Mem.read16_write16_self]

theorem Owes.arpSend (h : Owes k s) (dst : MACAddress) (op : UInt16) (payload : List UInt8) :
    Owes (k + 1) (arpSend cfg dst op payload s).2 := by
  unfold DuckNet.arpSend
  split
  · exact h.mono (Nat.le_succ k)
  · exact (h.sendbuf _).phySend _ _

theorem Owes.arpQuery (h : Owes k s) (dst : UInt32) : Owes k (s.arpQuery cfg dst).2 := by
  unfold Net.arpQuery
  split
  · exact h.congr rfl rfl
  · next arp _ =>
    have hlen := length_arpPayload cfg.mac cfg.ip ⟨0, 0, 0, 0, 0, 0⟩ dst
    have harp : Owes k { s with arp } := h.congr rfl rfl
    unfold DuckNet.arpSend
    split
    · exact harp
    · rw [hlen]
      exact (harp.sendbuf _).phySend_query .sendbuf (isQuery_arpFrame broadcastAddr _ _)

/-- A slot that is given a packet. -/
theorem waiting_clearFree (i : Nat) (h : s'.tosendFree = clearFree s.tosendFree i) :
    s'.waiting ⊆ insert i s.waiting := by
  intro j hj
  obtain ⟨hj, hbusy⟩ := Finset.mem_filter.mp hj
  by_cases heq : j = i
  · rw [heq]
    exact Finset.mem_insert_self _ _
  · refine Finset.mem_insert_of_mem (Finset.mem_filter.mpr ⟨hj, fun hold => hbusy ?_⟩)
    rw [h]
    exact slotFree_clearFree.mpr ⟨Ne.symm heq, hold⟩

/-- A slot that is set free. -/
theorem waiting_setFree {i : Nat} (hi : i < tosendTableSize)
    (hbusy : ¬slotFree s.tosendFree i = true) (h : s'.tosendFree = setFree s.tosendFree i) :
    s'.waiting.card + 1 ≤ s.waiting.card := by
  have hmem : i ∈ s.waiting := Finset.mem_filter.mpr ⟨Finset.mem_range.mpr hi, hbusy⟩
  rw [← Finset.card_erase_add_one hmem]
  refine Nat.add_le_add_right (Finset.card_le_card fun j hj => ?_) 1
  obtain ⟨hj, hbusyj⟩ := Finset.mem_filter.mp hj
  rw [h] at hbusyj
  refine Finset.mem_erase.mpr ⟨fun heq => hbusyj ?_, ?_⟩
  · exact slotFree_setFree.mpr (.inl heq.symm)
  · refine Finset.mem_filter.mpr ⟨hj, fun hold => hbusyj ?_⟩
    exact slotFree_setFree.mpr (.inr hold)

/-- A packet that waits. -/
theorem Owes.store (h : Owes k s) {i : Nat} (hsent : s'.sent = s.sent)
    (hfree : s'.tosendFree = clearFree s.tosendFree i) : Owes (k + 1) s' := by
  have hcard := Finset.card_le_card (waiting_clearFree i hfree)
  have hinsert := Finset.card_insert_le i s.waiting
  have hanswers : s'.answers = s.answers := by
    unfold Net.answers
    rw [hsent]
  unfold Owes at h ⊢
  omega

/-- A packet that does not wait any more. -/
theorem Owes.release (h : Owes k s) {i : Nat} (hi : i < tosendTableSize)
    (hbusy : ¬slotFree s.tosendFree i = true) (hsent : s'.sent = s.sent)
    (hfree : s'.tosendFree = setFree s.tosendFree i) : 1 ≤ k ∧ Owes (k - 1) s' := by
  have hcard := waiting_setFree hi hbusy hfree
  have hanswers : s'.answers = s.answers := by
    unfold Net.answers
    rw [hsent]
  unfold Owes at h ⊢
  omega

theorem Owes.ipv4Send (h : Owes k s) (dst : UInt32) (protocol : UInt8) (payload : Mem)
    (len : Int) : Owes (k + 1) (DuckNet.ipv4Send cfg dst protocol payload len s).2 := by
  unfold DuckNet.ipv4Send
  split
  · split
    · exact h.mono (Nat.le_succ k)
    · exact (h.sendbuf _).phySend _ _
  · have hq : Owes k (s.arpQuery cfg dst).2 := h.arpQuery dst
    dsimp only
    split
    · exact hq.mono (Nat.le_succ k)
    · split
      · exact hq.mono (Nat.le_succ k)
      · exact hq.store rfl rfl

theorem Owes.sends (h : Owes k s) (hs : Sends cfg s s') : Owes (k + 1) s' := by
  cases hs with
  | quiet => exact h.mono (Nat.le_succ k)
  | ipv4 dst protocol payload len => exact h.ipv4Send dst protocol payload len
  | udp dst dport sport payload len =>
      have hbuf : ∀ m, Owes k { s with udpBuf := m } := fun m => h.congr rfl rfl
      unfold udpSend
      split
      · exact h.mono (Nat.le_succ k)
      · split
        · exact h.mono (Nat.le_succ k)
        · exact (hbuf _).ipv4Send _ _ _ _

theorem Owes.reacts (h : Owes k s) {m : Mem} {len : Int} (hs : Reacts cfg m len s s') :
    Owes (k + 1) s' := by
  cases hs with
  | sends hs => exact h.sends hs
  | answers sha spa => exact h.arpSend _ _ _
  | learns ip mac hreply hlen => exact (h.congr rfl rfl).mono (Nat.le_succ k)

theorem Owes.idleSlot (h : Owes k s) {i : Nat} (hi : i < tosendTableSize) :
    Owes k (ipv4IdleSlot cfg s i) := by
  unfold ipv4IdleSlot
  split
  · exact h
  · next hcase =>
    have hbusy := (NetWorld.slotCase_expired hcase).1
    have hfree : 1 ≤ k ∧ Owes (k - 1) { s with tosendFree := setFree s.tosendFree i } :=
      h.release hi hbusy rfl rfl
    exact hfree.2.mono (Nat.sub_le k 1)
  · next dstMac hcase =>
    -- the packet leaves its slot and is sent
    have hbusy := (NetWorld.slotCase_found hcase).1
    have hset : 1 ≤ k ∧ Owes (k - 1) { s with
        tosendFree := setFree s.tosendFree i
        tosend := Function.update s.tosend i
          { s.tosend i with pkt := (s.tosend i).pkt.putBytes 0 dstMac.bytes } } :=
      h.release hi hbusy rfl rfl
    rw [← Nat.sub_add_cancel hset.1]
    exact hset.2.phySend (.tosend i) (s.tosend i).pktLen
  · exact h.arpQuery _

theorem Owes.foldl_idleSlot : ∀ (l : List Nat) {s : Net}, Owes k s →
    (∀ i ∈ l, i < tosendTableSize) → Owes k (l.foldl (ipv4IdleSlot cfg) s) := by
  intro l
  induction l with
  | nil => intro s h _; exact h
  | cons i l ih =>
      intro s h hl
      exact ih (h.idleSlot (hl i List.mem_cons_self)) fun j hj => hl j (List.mem_cons_of_mem _ hj)

theorem Owes.ipv4Idle (h : Owes k s) : Owes k (DuckNet.ipv4Idle cfg s) := by
  unfold DuckNet.ipv4Idle
  split
  · exact Owes.foldl_idleSlot _ (h.congr rfl rfl) fun i hi => List.mem_range.mp hi
  · exact h.congr rfl rfl

variable {σ : Type} (conf : DucknetConfig σ)

/-- Each frame is worth a packet. -/
theorem stages_owes (k : Nat) :
    Stages conf (fun _ => True) (Owes k) (Owes (k + 1)) where
  clock _ _ h := h.congr rfl rfl
  arpIdle _ h := h.congr rfl rfl
  ipv4Idle _ _ _ h := h.ipv4Idle
  handle _ _ _ _ _ _ _ h hs := h.reacts hs

variable {conf}

theorem owes_round (hpolite : conf.Polite) (r : Round σ) {st : Station σ} (h : Owes k st.net) :
    Owes (k + if r.read.isSome then 1 else 0) (r.step conf st).net := by
  cases hread : r.read with
  | none => exact (stages_owes conf k).round_none hpolite r hread h
  | some frame => exact (stages_owes conf k).round_some hpolite r hread trivial h

/-- The frames that are received in some rounds. -/
def received (rounds : List (Round σ)) : Nat := rounds.countP fun r => r.read.isSome

theorem owes_rounds (hpolite : conf.Polite) : ∀ (rounds : List (Round σ)) {st : Station σ}
    {k : Nat}, Owes k st.net →
    Owes (k + received rounds) (rounds.foldl (fun st r => r.step conf st) st).net := by
  intro rounds
  induction rounds with
  | nil => intro st k h; exact h
  | cons r rounds ih =>
      intro st k h
      have hcount : received (r :: rounds) =
          (if r.read.isSome then 1 else 0) + received rounds := by
        rw [received, List.countP_cons, Nat.add_comm]
        rfl
      rw [hcount, ← Nat.add_assoc]
      exact ih (owes_round hpolite r h)

theorem owes_init {tsc : Nat} {user : σ} {st : Station σ}
    (hinit : ducknetInit conf tsc user = some st) : Owes 0 st.net := by
  unfold ducknetInit at hinit
  split at hinit
  · exact nomatch hinit
  · rw [← Option.some.inj hinit]
    have hempty : (Net.init conf.net (gettime tsc)).waiting = ∅ := by
      refine Finset.filter_eq_empty_iff.mpr fun i hi => not_not.mpr ?_
      exact (slotFree_foldl_setFree tosendTableSize).mpr (Finset.mem_range.mp hi)
    unfold Owes
    rw [hempty]
    exact Nat.le_refl 0

end DuckNet

end JudgeDuck
