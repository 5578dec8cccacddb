/-
What the server touches of a datagram.

Every handler begins with `content[len] = 0`, so the strings it reads end there at
the latest; all other reads are of fixed lengths that were compared with `len`.
Together with the handlers of ducknet this bounds the whole receive path.
-/
import JudgeDuck.Proofs.DuckNet.Bounds

namespace JudgeDuck

namespace DuckServer

open DuckNet Trace

variable {σ α β : Type} {L content : Nat} {len : Int} {K K' K'' : Mem → Prop}
variable {server : Server σ} {cfg : NetConfig}

/-! ### Strings -/

/-- A string ends at the first NUL. -/
theorem strlen_le {m : Mem} : ∀ (fuel a k : Nat), m (a + k) = 0 → k < fuel →
    strlen m fuel a ≤ k := by
  intro fuel
  induction fuel with
  | zero => intro a k _ hk; omega
  | succ fuel ih =>
      intro a k hz hk
      rw [strlen]
      split
      · exact Nat.zero_le k
      · next hne =>
        cases k with
        | zero => exact absurd hz hne
        | succ k =>
            have hrec := ih (a + 1) k (by rw [← hz]; congr 1; omega) (by omega)
            omega

/-- `content[len]` is NUL. -/
def Terminated (content : Nat) (len : Int) (m : Mem) : Prop := m (content + len.toNat) = 0

/-- The content is inside a frame that fits the buffer. -/
structure Inside (L content : Nat) (len : Int) : Prop where
  nonneg : 0 ≤ len
  frame : content + len ≤ L
  buffer : L < pktSize

theorem Accesses.bindPlain {x : RecvM σ α} {f : α → RecvM σ β} (hx : Accesses K (Plain L) K' x)
    (hf : ∀ a, Accesses K' (Plain L) K'' (f a)) : Accesses K (Plain L) K'' (x >>= f) :=
  Emits.bind hx hf fun _ _ => Plain.append

theorem plain_pure (a : α) (hK : ∀ m, K m → K' m) : Accesses (σ := σ) K (Plain L) K' (pure a) :=
  Emits.pure a (fun _ => hK _) (by simp [Plain])

theorem plain_terminate (h : Inside L content len) :
    Accesses (σ := σ) Anything (Plain L) (Terminated content len) (terminate content len) := by
  have hframe := h.frame
  have hnonneg := h.nonneg
  refine fun s _ => ⟨Mem.write8_self _ _ _, [.write (content + len.toNat) 1], rfl, ?_⟩
  exact plain_singleton (show content + len.toNat + 1 ≤ L + 1 by omega) id

theorem plain_rdString (h : Inside L content len) :
    Accesses (σ := σ) (Terminated content len) (Plain L) (Terminated content len)
      (onBuf (rdString pktSize content)) := by
  have hframe := h.frame
  have hnonneg := h.nonneg
  have hbuffer := h.buffer
  intro s hs
  have hle : strlen s.buf.mem (pktSize - content) content ≤ len.toNat :=
    strlen_le _ _ _ hs (by omega)
  refine ⟨hs, _, rfl, ?_⟩
  exact Plain.append (l := [.read content _]) (plain_singleton (show _ ≤ L by omega) id)
    (plain_singleton (show _ ≤ L by omega) id)

/-! ### Recognizing commands -/

theorem plain_equalsTo (h : Inside L content len) (s : String) :
    Accesses (σ := σ) K (Plain L) K (equalsTo content len s) := by
  have hframe := h.frame
  refine Emits.ite (fun hlen => ?_) fun _ => plain_pure _ fun _ => id
  exact Accesses.bindPlain (PlainBuf.accesses (plain_rdBytes (by omega))) fun _ =>
    plain_pure _ fun _ => id

theorem plain_startsWith (h : Inside L content len) (s : String) :
    Accesses (σ := σ) K (Plain L) K (startsWith content len s) := by
  have hframe := h.frame
  refine Emits.ite (fun hlen => ?_) fun _ => plain_pure _ fun _ => id
  exact Accesses.bindPlain (PlainBuf.accesses (plain_rdBytes (by omega))) fun _ =>
    plain_pure _ fun _ => id

theorem plain_firstEqual (h : Inside L content len) : ∀ (names : List String),
    Accesses (σ := σ) K (Plain L) K (firstEqual content len names) := by
  intro names
  induction names with
  | nil => exact plain_pure _ fun _ => id
  | cons s names ih =>
      exact Accesses.bindPlain (plain_equalsTo h s) fun same =>
        Emits.ite (fun _ => plain_pure _ fun _ => id) fun _ => ih

theorem plain_firstScan (h : Inside L content len) : ∀ (formats : List String),
    Accesses (Terminated content len) (Plain L) (Terminated content len)
      (firstScan server content formats) := by
  intro formats
  induction formats with
  | nil => exact plain_pure _ fun _ => id
  | cons format formats ih =>
      refine Accesses.bindPlain (plain_rdString h) fun s => ?_
      cases server.sscanf format s with
      | none => exact ih
      | some args => exact plain_pure _ fun _ => id

theorem plain_claim (inPlace : Bool) (request : Request) :
    Accesses K (Plain L) Anything (claim server inPlace request) :=
  fun _ _ => ⟨trivial, [], (List.append_nil _).symm, by simp [Plain]⟩

/-! ### The handlers -/

/-- What a handler may do. -/
def ProcessPlain (L content : Nat) (len : Int)
    (process : Nat → Int → RecvM σ (Option (Option Reply))) : Prop :=
  Accesses Anything (Plain L) Anything (process content len)

theorem plain_processControls (h : Inside L content len) :
    ProcessPlain L content len (processControls server) := by
  refine Accesses.bindPlain (plain_terminate h) fun _ => ?_
  refine Accesses.bindPlain (plain_firstEqual h _) fun name => ?_
  cases name with
  | some name => exact plain_claim _ _
  | none =>
      refine Accesses.bindPlain (plain_firstScan h _) fun scan => ?_
      cases scan with
      | some scan => exact plain_claim _ _
      | none => exact plain_pure _ fun _ _ => trivial

theorem plain_processData (h : Inside L content len) :
    ProcessPlain L content len (processData server) := by
  have hframe := h.frame
  refine Accesses.bindPlain (plain_terminate h) fun _ => ?_
  refine Accesses.bindPlain (plain_firstEqual h _) fun name => ?_
  cases name with
  | some name => exact plain_claim _ _
  | none =>
      refine Accesses.bindPlain (plain_firstScan h _) fun scan => ?_
      cases scan with
      | some scan => exact plain_claim _ _
      | none =>
          refine Accesses.bindPlain (plain_startsWith h _) fun write => Emits.ite
            (fun _ => ?_) fun _ => ?_
          · refine Emits.ite (fun _ => plain_pure _ fun _ _ => trivial) fun hdata => ?_
            refine Accesses.bindPlain (PlainBuf.accesses (plain_rd64 (by omega))) fun off => ?_
            refine Accesses.bindPlain (PlainBuf.accesses (plain_rdBytes (by omega))) fun bs => ?_
            exact plain_claim _ _
          · refine Accesses.bindPlain (plain_firstScan h _) fun scan => ?_
            cases scan with
            | some scan => exact plain_claim _ _
            | none => exact plain_pure _ fun _ _ => trivial

theorem plain_processJudge (h : Inside L content len) :
    ProcessPlain L content len (processJudge server) := by
  refine Accesses.bindPlain (plain_terminate h) fun _ => ?_
  refine Accesses.bindPlain (plain_firstScan h _) fun scan => ?_
  cases scan with
  | some scan => exact plain_claim _ _
  | none => exact plain_pure _ fun _ _ => trivial

theorem plain_infoCache (h : Inside L content len) :
    Accesses (Terminated content len) (Plain L) Anything (do
      let scan ← firstScan server content ["info-cache %s"]
      match scan with
      | some (format, args) => claim server true (.scanned format args)
      | none => pure none) := by
  refine Accesses.bindPlain (plain_firstScan h _) fun scan => ?_
  cases scan with
  | some scan => exact plain_claim _ _
  | none => exact plain_pure _ fun _ _ => trivial

theorem plain_processCache (h : Inside L content len) :
    ProcessPlain L content len (processCache server) := by
  have hframe := h.frame
  refine Accesses.bindPlain (plain_terminate h) fun _ => ?_
  -- only a content of more than 64 bytes has a hash at its end
  by_cases hlong : len > 64
  · rw [if_pos hlong]
    refine Accesses.bindPlain (plain_firstScan h _) fun scan => ?_
    cases scan with
    | some scan =>
        refine Accesses.bindPlain (PlainBuf.accesses (plain_rdBytes (by omega))) fun hash => ?_
        exact plain_claim _ _
    | none => exact plain_infoCache h
  · rw [if_neg hlong, pure_bind]
    exact plain_infoCache h

theorem plain_processSpecial (h : Inside L content len) :
    ProcessPlain L content len (processSpecial server) := by
  refine Accesses.bindPlain (plain_terminate h) fun _ => ?_
  refine Accesses.bindPlain (plain_firstEqual h _) fun name => ?_
  cases name with
  | some name => exact plain_claim _ _
  | none => exact plain_pure _ fun _ _ => trivial

theorem plain_firstClaim : ∀ (l : List (Nat → Int → RecvM σ (Option (Option Reply)))),
    (∀ process ∈ l, ProcessPlain L content len process) →
    Accesses Anything (Plain L) Anything (firstClaim content len l) := by
  intro l
  induction l with
  | nil => intro _; exact plain_pure _ fun _ => id
  | cons process l ih =>
      intro hl
      refine Accesses.bindPlain (hl process List.mem_cons_self) fun claimed => ?_
      cases claimed with
      | some reply => exact plain_pure _ fun _ => id
      | none => exact ih fun p hp => hl p (List.mem_cons_of_mem _ hp)

theorem bounded_duckPacketHandle (h : Inside L content len) (src : UInt32) (sport : UInt16) :
    Accesses Anything (Bounded L len) Anything
      (duckPacketHandle server cfg src sport content len) := by
  refine accesses_layer ((plain_equalsTo h _).bind fun reboot => ?_)
  refine Emits.ite (fun _ => ?_) fun _ => ?_
  · exact Accesses.bind (plain_claim _ _) fun _ => accesses_pure _
  · refine Accesses.bind (plain_firstClaim _ fun process hp => ?_) fun claimed => ?_
    · simp only [List.mem_cons, List.not_mem_nil, or_false] at hp
      rcases hp with rfl | rfl | rfl | rfl | rfl
      · exact plain_processControls h
      · exact plain_processData h
      · exact plain_processJudge h
      · exact plain_processCache h
      · exact plain_processSpecial h
    · cases claimed with
      | none => exact accesses_pure _
      | some reply =>
          cases reply with
          | none => exact accesses_pure _
          | some reply =>
              have hreply : Accesses (σ := σ) Anything (Plain L) Anything
                  (onBuf (replyInPlace content reply.text)) :=
                fun _ _ => ⟨trivial, [.reply content], rfl, plain_singleton trivial id⟩
              have hsend := accesses_onNet (σ := σ) (K := Anything) (L := L)
                (udpSend cfg src sport duckUdpPort (fun i => reply.text.getD i 0) reply.text.length)
              refine Emits.ite (fun _ => Accesses.bind hreply fun _ => ?_) fun _ => ?_
              · exact hsend.bind fun _ => accesses_pure _
              · exact hsend.bind fun _ => accesses_pure _

theorem hookBounded (hL : L < pktSize) : HookBounded L (hooks server cfg) := by
  intro src dst hdr len hnonneg hframe
  have h8 : udpHeaderSize = 8 := rfl
  refine Emits.ite (fun _ => accesses_pure _) fun _ => Emits.ite
    (fun _ => accesses_pure _) fun _ => ?_
  refine (PlainBuf.accesses (plain_rd16 (by omega))).bind fun dport => ?_
  refine Emits.ite (fun _ => ?_) fun _ => accesses_pure _
  refine (PlainBuf.accesses (plain_rd16 (by omega))).bind fun sport => ?_
  exact bounded_duckPacketHandle ⟨hnonneg, by omega, hL⟩ src sport

/-! ### The whole receive path -/

/-- For a frame of `L` bytes, `ducknet_packet_handle` with the server's hooks reads only the frame,
or the NUL that was written behind it, and writes only the frame and that NUL, but for the answers
that are written over a content; and no handler gets more than the one that called it. -/
theorem receive_bounded (server : Server σ) (cfg : NetConfig) (s : RecvState σ) (L : Nat)
    (hL : L ≤ 1500) :
    ∃ l, (packetHandle cfg (hooks server cfg) L s).2.buf.log = s.buf.log ++ l ∧ Bounded L L l := by
  have hlt : L < pktSize := Nat.lt_of_le_of_lt hL (by decide)
  have hnull : NullHooks (hooks server cfg) :=
    ⟨fun _ _ => rfl, fun _ _ => rfl, fun _ _ => rfl, fun _ _ _ _ => rfl⟩
  have hphy : Accesses Anything (Plain L) Anything ((hooks server cfg).phy 0 L) :=
    fun _ _ => ⟨trivial, [], (List.append_nil _).symm, by simp [Plain]⟩
  have hall : Accesses Anything (Bounded L L) Anything (packetHandle cfg (hooks server cfg) L) :=
    hphy.bind fun _ => Emits.ite (fun _ => accesses_pure _) fun _ =>
      bounded_ether hnull (hookBounded hlt) (by omega)
  exact (hall s trivial).2

/-- A server that knows no command, at 10.0.0.1, before it received anything. -/
def idleServer : Server Unit := ⟨0x0a000001, id, fun _ _ => none, fun _ s => (none, s)⟩
def idleConfig : NetConfig := ⟨⟨2, 0, 0, 0, 0, 1⟩, 0x0a000001, 1000000000, fun _ => 0⟩
def idleState : RecvState Unit := ⟨Net.init idleConfig 0, ⟨fun _ => 0, []⟩, ()⟩

/-- A frame of 60 zero bytes. -/
theorem receive_bounded_zeros :
    Bounded 60 60
      (packetHandle idleConfig (hooks idleServer idleConfig) (60 : Nat) idleState).2.buf.log := by
  obtain ⟨l, hl, hb⟩ := receive_bounded idleServer idleConfig idleState 60 (by decide)
  rw [hl]
  exact hb

end DuckServer

end JudgeDuck
