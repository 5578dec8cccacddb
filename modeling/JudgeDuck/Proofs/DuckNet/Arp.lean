/-
What the ARP table stands for: a finite map from addresses to MAC addresses with
an expiry time.

`live` is that map, kept beside the code: an update overwrites an address, a
sweep forgets what has expired.  As long as every update fits the table, the
table is the map in increasing order of the addresses and a lookup reads the
map.  The first update that does not fit puts the address in front of a smaller
one, and from then on the table is out of order.
-/
import JudgeDuck.Proofs.DuckNet.Table

namespace JudgeDuck

namespace DuckNet

/-! ### Runs -/

/-- What changes the ARP table or the clock. -/
inductive ArpEvent where
  | clock (now : UInt64)
  | update (ip : UInt32) (mac : MACAddress)
  | idle

/-- The ARP module with `ducknet_currenttime` and the map its table stands for. -/
structure ArpWorld where
  now : UInt64
  arp : Arp
  live : UInt32 → Option (MACAddress × UInt64)

namespace ArpWorld

def step (tscFreq : UInt64) (w : ArpWorld) : ArpEvent → ArpWorld
  | .clock now => { w with now }
  | .update ip mac =>
    { w with
      arp := (arpUpdate tscFreq w.now ip mac w.arp).2
      live := Function.update w.live ip (some (mac, timeAddMs tscFreq w.now arpExpireTimeoutMs)) }
  | .idle =>
    { w with
      arp := arpIdle w.now w.arp
      live := if arpIdleDue w.now w.arp then
          fun ip => (w.live ip).filter fun p => ¬w.now > p.2
        else w.live }

/-- The events one after the other, from `ducknet_arp_init`. -/
def run (tscFreq now : UInt64) (events : List ArpEvent) : ArpWorld :=
  events.foldl (step tscFreq) ⟨now, arpInit tscFreq now, fun _ => none⟩

/-- At most as many addresses are live as the table has room for. -/
def LiveBound (w : ArpWorld) : Prop := Set.ncard {ip | (w.live ip).isSome} ≤ arpTableSize

/-- The table is in strictly increasing order, and a lookup reads the map. -/
structure Refines (w : ArpWorld) : Prop where
  sorted : KeySorted ArpEntry.ip w.arp.table
  lookup : ∀ ip, arpLookup ip w.arp = (w.live ip).map Prod.fst

/-- No address is live, or one that is live is not below this one. -/
def UpdateFits (w : ArpWorld) (ip : UInt32) : Prop :=
  (∀ a, w.live a = none) ∨ ∃ a, (w.live a).isSome ∧ ip ≤ a

/-! ### The invariant -/

/-- The table holds the live addresses in increasing order, each with its MAC and expiry time. -/
structure Holds (w : ArpWorld) : Prop where
  sorted : KeySorted ArpEntry.ip w.arp.table
  mem_iff : ∀ e, e ∈ w.arp.table ↔ w.live e.ip = some (e.mac, e.expireTime)

variable {tscFreq : UInt64} {w : ArpWorld} {ip : UInt32}

theorem Holds.isSome_iff (h : Holds w) :
    (w.live ip).isSome ↔ ∃ e ∈ w.arp.table, e.ip = ip := by
  rw [Option.isSome_iff_exists]
  constructor
  · rintro ⟨⟨mac, expireTime⟩, hlive⟩
    exact ⟨⟨ip, mac, expireTime⟩, (h.mem_iff _).mpr hlive, rfl⟩
  · rintro ⟨e, he, rfl⟩
    exact ⟨_, (h.mem_iff e).mp he⟩

theorem Holds.refines (h : Holds w) : Refines w := by
  refine ⟨h.sorted, fun ip => ?_⟩
  rw [arpLookup]
  cases hlive : w.live ip with
  | none =>
      have hmiss : tableFind ArpEntry.ip w.arp.table ip = none := by
        rw [← Option.not_isSome_iff_eq_none, h.sorted.tableFind_isSome, ← h.isSome_iff, hlive]
        simp
      simp [hmiss]
  | some p =>
      have hfound : tableFind ArpEntry.ip w.arp.table ip = some ⟨ip, p.1, p.2⟩ :=
        h.sorted.tableFind_iff.mpr ⟨(h.mem_iff _).mpr hlive, rfl⟩
      simp [hfound]

theorem Holds.fits_iff (h : Holds w) : UpdateFits w ip ↔ KeyFits ArpEntry.ip w.arp.table ip := by
  refine or_congr ⟨fun hnone => ?_, fun hnil a => ?_⟩ ⟨?_, ?_⟩
  · refine List.eq_nil_iff_forall_not_mem.mpr fun e he => ?_
    have hlive := (h.mem_iff e).mp he
    rw [hnone] at hlive
    simp at hlive
  · rw [← Option.not_isSome_iff_eq_none, h.isSome_iff, hnil]
    simp
  · rintro ⟨a, ha, hle⟩
    obtain ⟨e, he, rfl⟩ := h.isSome_iff.mp ha
    exact ⟨e, he, hle⟩
  · rintro ⟨e, he, hle⟩
    exact ⟨e.ip, h.isSome_iff.mpr ⟨e, he, rfl⟩, hle⟩

/-- The live addresses are the keys of the table. -/
theorem Holds.ncard_live (h : Holds w) :
    Set.ncard {ip | (w.live ip).isSome} = w.arp.table.length := by
  have hnodup : (w.arp.table.map ArpEntry.ip).Nodup :=
    List.pairwise_map.mpr (h.sorted.imp fun hlt => UInt32.ne_of_lt hlt)
  calc Set.ncard {ip | (w.live ip).isSome}
      = Set.ncard (↑(w.arp.table.map ArpEntry.ip).toFinset : Set UInt32) := by
        congr 1
        ext ip
        simp [h.isSome_iff]
    _ = (w.arp.table.map ArpEntry.ip).toFinset.card := Set.ncard_coe_finset _
    _ = w.arp.table.length := by rw [List.toFinset_card_of_nodup hnodup, List.length_map]

/-- An update that leaves the live addresses within bounds finds room for its entry. -/
theorem Holds.exists_tablePut (h : Holds w) {mac : MACAddress}
    (hlive : LiveBound (w.step tscFreq (.update ip mac))) (e : ArpEntry) :
    ∃ table, tablePut ArpEntry.ip w.arp.table ip e = some table := by
  rw [← Option.isSome_iff_exists, Option.isSome_iff_ne_none, Ne, tablePut_eq_none]
  rintro ⟨hmiss, hfull⟩
  have hnew : ip ∉ {a | (w.live a).isSome} := by
    rw [← Bool.not_eq_true, h.sorted.tableFind_isSome, ← h.isSome_iff] at hmiss
    exact hmiss
  have hset : {a | ((w.step tscFreq (.update ip mac)).live a).isSome} =
      insert ip {a | (w.live a).isSome} := by
    ext a
    by_cases ha : a = ip <;> simp [step, Function.update_apply, ha]
  have hcard := h.ncard_live
  have hfinite : {a | (w.live a).isSome}.Finite := by
    refine Set.finite_of_ncard_ne_zero ?_
    rw [hcard, hfull]
    decide
  rw [LiveBound, hset, Set.ncard_insert_of_notMem hnew hfinite, hcard, hfull] at hlive
  omega

/-! ### One step -/

theorem Holds.update (h : Holds w) {mac : MACAddress} (hfit : UpdateFits w ip)
    (hlive : LiveBound (w.step tscFreq (.update ip mac))) :
    Holds (w.step tscFreq (.update ip mac)) := by
  obtain ⟨table, hput⟩ :=
    h.exists_tablePut hlive ⟨ip, mac, timeAddMs tscFreq w.now arpExpireTimeoutMs⟩
  have hst := h.sorted.stored_tablePut (h.fits_iff.mp hfit) rfl hput
  have htable : (w.step tscFreq (.update ip mac)).arp.table = table := by
    simp [step, arpUpdate, hput]
  refine ⟨htable ▸ hst.sorted, fun e => ?_⟩
  rw [htable, hst.mem_iff, h.mem_iff]
  by_cases he : e.ip = ip
  · subst he
    cases e
    simp [step, eq_comm]
  · have hne : e ≠ ⟨ip, mac, timeAddMs tscFreq w.now arpExpireTimeoutMs⟩ := by
      rintro rfl
      exact he rfl
    simp [step, he, hne]

theorem Holds.idle (h : Holds w) : Holds (w.step tscFreq .idle) := by
  by_cases hdue : arpIdleDue w.now w.arp = true
  · have htable : (w.step tscFreq .idle).arp.table =
        DuckNet.tableSweep ArpEntry.expireTime w.now w.arp.table := by
      simp [step, arpIdle, hdue]
    refine ⟨htable ▸ h.sorted.tableSweep _ _, fun e => ?_⟩
    rw [htable, mem_tableSweep, h.mem_iff]
    simp only [step, hdue, if_true, Option.filter_eq_some_iff, decide_eq_true_eq]
  · have hidle : (w.step tscFreq .idle).arp.table = w.arp.table := by simp [step, arpIdle, hdue]
    refine ⟨hidle ▸ h.sorted, fun e => ?_⟩
    rw [hidle, h.mem_iff]
    simp [step, hdue]

/-- An update that does not fit leaves the table out of order. -/
theorem Holds.not_refines_update (h : Holds w) {mac : MACAddress} (hfit : ¬UpdateFits w ip)
    (hlive : LiveBound (w.step tscFreq (.update ip mac))) :
    ¬Refines (w.step tscFreq (.update ip mac)) := by
  obtain ⟨table, hput⟩ :=
    h.exists_tablePut hlive ⟨ip, mac, timeAddMs tscFreq w.now arpExpireTimeoutMs⟩
  intro hr
  refine h.sorted.not_keySorted_tablePut (h.fits_iff.not.mp hfit) rfl hput ?_
  have hsorted := hr.sorted
  simpa [step, arpUpdate, hput] using hsorted

/-! ### Runs -/

theorem run_append_singleton (now : UInt64) (events : List ArpEvent) (e : ArpEvent) :
    run tscFreq now (events ++ [e]) = (run tscFreq now events).step tscFreq e := by
  simp [run]

theorem run_take_succ {now : UInt64} {events : List ArpEvent} {k : Nat} {e : ArpEvent}
    (he : events[k]? = some e) :
    run tscFreq now (events.take (k + 1)) = (run tscFreq now (events.take k)).step tscFreq e := by
  rw [List.take_add_one, he]
  exact run_append_singleton now _ e

/-- As long as every update so far fitted, the table holds the map. -/
theorem holds_run {now : UInt64} {events : List ArpEvent}
    (hlive : ∀ k, LiveBound (run tscFreq now (events.take k))) :
    ∀ k, (∀ i < k, ∀ ip mac, events[i]? = some (.update ip mac) →
        UpdateFits (run tscFreq now (events.take i)) ip) →
      Holds (run tscFreq now (events.take k)) := by
  intro k
  induction k with
  | zero =>
      intro _
      exact ⟨List.Pairwise.nil, fun e => by simp [run, arpInit]⟩
  | succ k ih =>
      intro hfit
      have hk := ih fun i hi => hfit i (by omega)
      cases he : events[k]? with
      | none =>
          rw [List.take_add_one, he]
          simpa using hk
      | some e =>
          have hbound := hlive (k + 1)
          rw [run_take_succ he] at hbound ⊢
          cases e with
          | clock now => exact ⟨hk.sorted, hk.mem_iff⟩
          | update ip mac => exact hk.update (hfit k (by omega) ip mac he) hbound
          | idle => exact hk.idle

/-- While at most 100 addresses are live, the table refines the map in every state of a run exactly
when each update, in the state before it, is of an address that is not above all live ones. -/
theorem refines_iff_fits (tscFreq now : UInt64) (events : List ArpEvent)
    (hlive : ∀ k, LiveBound (run tscFreq now (events.take k))) :
    (∀ k, Refines (run tscFreq now (events.take k))) ↔
      ∀ k ip mac, events[k]? = some (.update ip mac) →
        UpdateFits (run tscFreq now (events.take k)) ip := by
  constructor
  · intro hr k
    induction k using Nat.strong_induction_on with
    | _ k ih =>
        intro ip mac he
        have hk := holds_run hlive k ih
        by_contra hfit
        have hbound := hlive (k + 1)
        have hnext := hr (k + 1)
        rw [run_take_succ he] at hbound hnext
        exact hk.not_refines_update hfit hbound hnext
  · intro hfit k
    exact (holds_run hlive k fun i _ => hfit i).refines

/-! ### Two hosts -/

/-- Only addresses that were updated are live. -/
theorem live_run_subset {now : UInt64} (events : List ArpEvent) (a : UInt32)
    (ha : ((run tscFreq now events).live a).isSome) :
    ∃ mac, ArpEvent.update a mac ∈ events := by
  induction events using List.reverseRecOn with
  | nil => simp [run] at ha
  | append_singleton events e ih =>
      rw [run_append_singleton] at ha
      have hmono : ((run tscFreq now events).live a).isSome →
          ∃ mac, ArpEvent.update a mac ∈ events ++ [e] :=
        fun h => (ih h).imp fun mac hm => List.mem_append_left _ hm
      cases e with
      | clock now => exact hmono ha
      | update ip mac =>
          by_cases haip : a = ip
          · exact ⟨mac, by simp [haip]⟩
          · exact hmono (by simpa [step, haip] using ha)
      | idle =>
          refine hmono ?_
          simp only [step] at ha
          split at ha
          · exact Option.isSome_of_isSome_filter _ _ ha
          · exact ha

/-- Updates of two addresses, in this order. -/
def twoUpdates (a b : UInt32) : List ArpEvent :=
  [.update a ⟨2, 0, 0, 0, 0, 1⟩, .update b ⟨2, 0, 0, 0, 0, 2⟩]

theorem liveBound_twoUpdates (a b : UInt32) (k : Nat) :
    LiveBound (run tscFreq 0 ((twoUpdates a b).take k)) := by
  have hsub : {x | ((run tscFreq 0 ((twoUpdates a b).take k)).live x).isSome} ⊆ {a, b} := by
    intro x hx
    obtain ⟨mac, hmac⟩ := live_run_subset _ x hx
    have hmem := List.mem_of_mem_take hmac
    simp [twoUpdates] at hmem
    rcases hmem with hx | hx
    · exact .inl hx.1
    · exact .inr hx.1
  calc Set.ncard _ ≤ Set.ncard {a, b} := Set.ncard_le_ncard hsub (Set.toFinite _)
    _ ≤ 2 := Set.ncard_insert_le a {b} |>.trans (by simp)
    _ ≤ arpTableSize := by decide

/-- The larger address first: both updates fit. -/
theorem refines_twoUpdates :
    Refines (run 1000000000 0 ((twoUpdates 0x0a000002 0x0a000001).take 2)) := by
  refine (refines_iff_fits 1000000000 0 (twoUpdates 0x0a000002 0x0a000001)
    (liveBound_twoUpdates _ _)).mpr ?_ 2
  intro k ip mac he
  match k, he with
  | 0, _ => exact .inl fun a => rfl
  | 1, he =>
      simp [twoUpdates] at he
      exact .inr ⟨0x0a000002, by decide, by rw [← he.1]; decide⟩

/-- The smaller address first: 10.0.0.2 lands in front of 10.0.0.1, which is then not found. -/
theorem lookup_loses_the_smaller_address :
    ¬∀ (tscFreq now : UInt64) (events : List ArpEvent),
      (∀ k, LiveBound (run tscFreq now (events.take k))) →
      ∀ k, Refines (run tscFreq now (events.take k)) := by
  intro h
  have hr := h 1000000000 0 (twoUpdates 0x0a000001 0x0a000002) (liveBound_twoUpdates _ _) 2
  have hlookup := hr.lookup 0x0a000001
  revert hlookup
  decide

end ArpWorld

end DuckNet

end JudgeDuck
