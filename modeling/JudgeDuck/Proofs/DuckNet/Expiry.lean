/-
When entries of ducknet's tables expire.

`ducknet_gettime` returns the low 32 bits of the time-stamp counter, and the
expiry time of an entry is computed from it in 64 bits.  Beside the code, every
entry carries the tick at which it was stored.  A sweep then removes an overdue
entry exactly when the truncated clock has passed the expiry time, which at 1 GHz
and more it never does for a timeout of five seconds or longer.
-/
import JudgeDuck.Proofs.DuckNet.Table
import JudgeDuck.Proofs.DuckNet.ToSend

namespace JudgeDuck

namespace DuckNet

/-! ### Ticks -/

/-- An entry stored at tick `t` is past its timeout of `ms` milliseconds at tick `t'`. -/
def Overdue (tscFreq ms : UInt64) (t t' : Nat) : Prop :=
  t * 1000 + ms.toNat * tscFreq.toNat < t' * 1000

/-- The clock that the code reads at tick `t'` is past the expiry time of an entry stored at `t`. -/
def Past (tscFreq ms : UInt64) (t t' : Nat) : Prop :=
  gettime t' > timeAddMs tscFreq (gettime t) ms

/-! ### Runs -/

inductive TimedEvent where
  | advance (ticks : Nat)
  | arpUpdate (ip : UInt32) (mac : MACAddress)
  | arpQuery (ip : UInt32)
  | arpIdle
  | send (dst : UInt32) (protocol : UInt8) (payload : Mem) (len : Int)
  | idle

/-- The library at a tick; the entries of both ARP tables and the slots with the tick at which they
were stored. -/
structure TimedWorld where
  tick : Nat
  net : Net
  entries : List (ArpEntry × Nat)
  queries : List (ArpQuery × Nat)
  slotTick : Nat → Nat

namespace TimedWorld

def query (cfg : NetConfig) (ip : UInt32) (w : TimedWorld) : List (ArpQuery × Nat) :=
  if (tableFind (ArpQuery.ip ∘ Prod.fst) w.queries ip).isSome then w.queries
  else
    let q := { ip, expireTime := timeAddMs cfg.tscFreq w.net.now arpQueryTimeoutMs }
    (tablePut (ArpQuery.ip ∘ Prod.fst) w.queries ip (q, w.tick)).getD w.queries

def update (cfg : NetConfig) (ip : UInt32) (mac : MACAddress) (w : TimedWorld) :
    List (ArpEntry × Nat) :=
  let e := { ip, mac, expireTime := timeAddMs cfg.tscFreq w.net.now arpExpireTimeoutMs }
  (tablePut (ArpEntry.ip ∘ Prod.fst) w.entries ip (e, w.tick)).getD w.entries

def send (cfg : NetConfig) (dst : UInt32) (protocol : UInt8) (payload : Mem) (len : Int)
    (w : TimedWorld) : TimedWorld :=
  let out := ipv4Send cfg dst protocol payload len w.net
  if arpLookup dst w.net.arp = none then
    { w with
      net := out.2
      queries := w.query cfg dst
      slotTick := match findTosendFree w.net.tosendFree with
        | none => w.slotTick
        | some id => if out.1 = 0 then Function.update w.slotTick id w.tick else w.slotTick }
  else { w with net := out.2 }

def idleSlot (cfg : NetConfig) (w : TimedWorld) (i : Nat) : TimedWorld :=
  { w with
    net := ipv4IdleSlot cfg w.net i
    queries := if slotCase w.net i = .unknown then w.query cfg (w.net.tosend i).dstIp
      else w.queries }

def idle (cfg : NetConfig) (w : TimedWorld) : TimedWorld :=
  if ipv4IdleDue w.net then
    (List.range tosendTableSize).foldl (idleSlot cfg)
      { w with net := { w.net with lastIdleTime := w.net.now, cnt := 0 } }
  else { w with net := { w.net with cnt := w.net.cnt + 1 } }

def arpIdle (w : TimedWorld) : TimedWorld :=
  let w' := { w with net := { w.net with arp := DuckNet.arpIdle w.net.now w.net.arp } }
  if arpIdleDue w.net.now w.net.arp then
    { w' with
      entries := tableSweep (ArpEntry.expireTime ∘ Prod.fst) w.net.now w.entries
      queries := tableSweep (ArpQuery.expireTime ∘ Prod.fst) w.net.now w.queries }
  else w'

def step (cfg : NetConfig) (w : TimedWorld) : TimedEvent → TimedWorld
  | .advance ticks =>
    { w with tick := w.tick + ticks, net := { w.net with now := gettime (w.tick + ticks) } }
  | .arpUpdate ip mac =>
    { w with
      net := { w.net with arp := (DuckNet.arpUpdate cfg.tscFreq w.net.now ip mac w.net.arp).2 }
      entries := w.update cfg ip mac }
  | .arpQuery ip => { w with net := (w.net.arpQuery cfg ip).2, queries := w.query cfg ip }
  | .arpIdle => w.arpIdle
  | .send dst protocol payload len => w.send cfg dst protocol payload len
  | .idle => w.idle cfg

/-- The events one after the other, from `ducknet_init` at tick `t`. -/
def run (cfg : NetConfig) (t : Nat) (events : List TimedEvent) : TimedWorld :=
  events.foldl (step cfg) ⟨t, Net.init cfg (gettime t), [], [], fun _ => 0⟩

/-! ### What sweeps should do, and when they do it -/

/-- After a sweep nothing in the swept tables is overdue. -/
def Removes (cfg : NetConfig) (w : TimedWorld) : TimedEvent → Prop
  | .arpIdle => arpIdleDue w.net.now w.net.arp = true →
      (∀ e ∈ w.arpIdle.entries, ¬Overdue cfg.tscFreq arpExpireTimeoutMs e.2 w.arpIdle.tick) ∧
        ∀ q ∈ w.arpIdle.queries, ¬Overdue cfg.tscFreq arpQueryTimeoutMs q.2 w.arpIdle.tick
  | .idle => ipv4IdleDue w.net = true → ∀ i < tosendTableSize,
      ¬slotFree (w.idle cfg).net.tosendFree i = true →
        ¬Overdue cfg.tscFreq tosendTimeoutMs ((w.idle cfg).slotTick i) (w.idle cfg).tick
  | _ => True

/-- Before a sweep, the clock is past the expiry time of everything that is overdue; a packet may
also leave because its destination is known. -/
def ClockPast (cfg : NetConfig) (w : TimedWorld) : TimedEvent → Prop
  | .arpIdle => arpIdleDue w.net.now w.net.arp = true →
      (∀ e ∈ w.entries, Overdue cfg.tscFreq arpExpireTimeoutMs e.2 w.tick →
        Past cfg.tscFreq arpExpireTimeoutMs e.2 w.tick) ∧
      ∀ q ∈ w.queries, Overdue cfg.tscFreq arpQueryTimeoutMs q.2 w.tick →
        Past cfg.tscFreq arpQueryTimeoutMs q.2 w.tick
  | .idle => ipv4IdleDue w.net = true → ∀ i < tosendTableSize,
      ¬slotFree w.net.tosendFree i = true →
      Overdue cfg.tscFreq tosendTimeoutMs (w.slotTick i) w.tick →
        Past cfg.tscFreq tosendTimeoutMs (w.slotTick i) w.tick ∨
          (arpLookup (w.net.tosend i).dstIp w.net.arp).isSome
  | _ => True

/-! ### The invariant -/

/-- The tables with ticks are those of the code, and every expiry time is computed from the tick
at which its entry was stored. -/
structure Ok (cfg : NetConfig) (w : TimedWorld) : Prop where
  now : w.net.now = gettime w.tick
  entries : w.entries.map Prod.fst = w.net.arp.table
  queries : w.queries.map Prod.fst = w.net.arp.queryTable
  entryTime : ∀ e ∈ w.entries,
    e.1.expireTime = timeAddMs cfg.tscFreq (gettime e.2) arpExpireTimeoutMs
  queryTime : ∀ q ∈ w.queries,
    q.1.expireTime = timeAddMs cfg.tscFreq (gettime q.2) arpQueryTimeoutMs
  slotTime : ∀ i < tosendTableSize, ¬slotFree w.net.tosendFree i = true →
    (w.net.tosend i).expireTime = timeAddMs cfg.tscFreq (gettime (w.slotTick i)) tosendTimeoutMs

variable {cfg : NetConfig} {w : TimedWorld} {i : Nat}

theorem arp_arpSend (dst : MACAddress) (op : UInt16) (payload : List UInt8) (s : Net) :
    (arpSend cfg dst op payload s).2.arp = s.arp ∧
      (arpSend cfg dst op payload s).2.now = s.now := by
  unfold arpSend
  split <;> exact ⟨rfl, rfl⟩

variable (cfg) in
theorem arp_arpQuery (ip : UInt32) (s : Net) :
    (s.arpQuery cfg ip).2.arp = (DuckNet.arpQuery cfg.tscFreq s.now ip s.arp).2 ∧
      (s.arpQuery cfg ip).2.now = s.now := by
  unfold Net.arpQuery
  split
  · next h => exact ⟨by rw [h], rfl⟩
  · next h => exact ⟨by rw [(arp_arpSend _ _ _ _).1, h], (arp_arpSend _ _ _ _).2⟩

theorem table_arpQuery (ip : UInt32) (now : UInt64) (s : Arp) :
    (DuckNet.arpQuery cfg.tscFreq now ip s).2.table = s.table := by
  unfold DuckNet.arpQuery
  split
  · rfl
  · dsimp only
    split <;> rfl

/-- The queries with ticks follow those of the code. -/
theorem Ok.query (h : Ok cfg w) (ip : UInt32) :
    (w.query cfg ip).map Prod.fst = (w.net.arpQuery cfg ip).2.arp.queryTable ∧
      ∀ q ∈ w.query cfg ip,
        q.1.expireTime = timeAddMs cfg.tscFreq (gettime q.2) arpQueryTimeoutMs := by
  rw [(arp_arpQuery _ ip w.net).1, DuckNet.arpQuery, ← h.queries, tableFind_map, Option.isSome_map,
    TimedWorld.query]
  split
  · exact ⟨h.queries, h.queryTime⟩
  · have hmap := tablePut_map ArpQuery.ip ip Prod.fst w.queries
      (⟨ip, timeAddMs cfg.tscFreq w.net.now arpQueryTimeoutMs⟩, w.tick)
    dsimp only at hmap ⊢
    rw [hmap]
    cases hput : tablePut (ArpQuery.ip ∘ Prod.fst) w.queries ip
        (⟨ip, timeAddMs cfg.tscFreq w.net.now arpQueryTimeoutMs⟩, w.tick) with
    | none => exact ⟨h.queries, h.queryTime⟩
    | some table =>
        refine ⟨rfl, fun q hq => ?_⟩
        rcases mem_of_tablePut hput hq with rfl | hq
        · rw [← h.now]
        · exact h.queryTime q hq

theorem Ok.update (h : Ok cfg w) (ip : UInt32) (mac : MACAddress) :
    (w.update cfg ip mac).map Prod.fst =
        (DuckNet.arpUpdate cfg.tscFreq w.net.now ip mac w.net.arp).2.table ∧
      ∀ e ∈ w.update cfg ip mac,
        e.1.expireTime = timeAddMs cfg.tscFreq (gettime e.2) arpExpireTimeoutMs := by
  have hmap := tablePut_map ArpEntry.ip ip Prod.fst w.entries
    (⟨ip, mac, timeAddMs cfg.tscFreq w.net.now arpExpireTimeoutMs⟩, w.tick)
  rw [h.entries] at hmap
  rw [DuckNet.arpUpdate, TimedWorld.update]
  dsimp only at hmap ⊢
  rw [hmap]
  cases hput : tablePut (ArpEntry.ip ∘ Prod.fst) w.entries ip
      (⟨ip, mac, timeAddMs cfg.tscFreq w.net.now arpExpireTimeoutMs⟩, w.tick) with
  | none => exact ⟨h.entries, h.entryTime⟩
  | some table =>
      refine ⟨rfl, fun e he => ?_⟩
      rcases mem_of_tablePut hput he with rfl | he
      · rw [← h.now]
      · exact h.entryTime e he

theorem Ok.arpIdle (h : Ok cfg w) : Ok cfg w.arpIdle := by
  rw [TimedWorld.arpIdle]
  have hsub : ∀ {α : Type} {expireTime : α → UInt64} {table : List α} {a : α},
      a ∈ tableSweep expireTime w.net.now table → a ∈ table := fun ha => (mem_tableSweep.mp ha).1
  split
  · next hdue =>
    refine ⟨h.now, ?_, ?_, fun e he => h.entryTime e (hsub he), fun q hq => h.queryTime q (hsub hq),
      h.slotTime⟩
    · simp only [DuckNet.arpIdle, hdue, if_true]
      rw [← h.entries, tableSweep_map]
    · simp only [DuckNet.arpIdle, hdue, if_true]
      rw [← h.queries, tableSweep_map]
  · next hdue =>
    refine ⟨h.now, ?_, ?_, h.entryTime, h.queryTime, h.slotTime⟩
    · simp only [DuckNet.arpIdle, hdue]
      exact h.entries
    · simp only [DuckNet.arpIdle, hdue]
      exact h.queries

/-! ### Sending -/

variable (cfg) in
theorem arp_ipv4Send_some {dst : UInt32} {mac : MACAddress} {s : Net}
    (h : arpLookup dst s.arp = some mac) (protocol : UInt8) (payload : Mem) (len : Int) :
    (ipv4Send cfg dst protocol payload len s).2.arp = s.arp ∧
      (ipv4Send cfg dst protocol payload len s).2.now = s.now := by
  simp only [ipv4Send, h]
  split <;> exact ⟨rfl, rfl⟩

variable (cfg) in
theorem arp_ipv4Send_none {dst : UInt32} {s : Net} (h : arpLookup dst s.arp = none)
    (protocol : UInt8) (payload : Mem) (len : Int) :
    (ipv4Send cfg dst protocol payload len s).2.arp = (s.arpQuery cfg dst).2.arp ∧
      (ipv4Send cfg dst protocol payload len s).2.now = s.now := by
  have hnow := (arp_arpQuery cfg dst s).2
  simp only [ipv4Send, h]
  split
  · exact ⟨rfl, hnow⟩
  · split <;> exact ⟨rfl, hnow⟩

theorem Ok.send (h : Ok cfg w) (dst : UInt32) (protocol : UInt8) (payload : Mem) (len : Int) :
    Ok cfg (w.send cfg dst protocol payload len) := by
  have hcases := ipv4Send_cases cfg dst protocol payload len w.net
  rw [TimedWorld.send]
  cases hlookup : arpLookup dst w.net.arp with
  | some mac =>
      obtain ⟨harp, hnow⟩ := arp_ipv4Send_some cfg hlookup protocol payload len
      obtain ⟨hq, -⟩ := hcases.resolve_right (by simp [hlookup])
      rw [if_neg (by simp)]
      refine ⟨hnow.trans h.now, ?_, ?_, h.entryTime, h.queryTime, fun i hi hfree => ?_⟩
      · rw [harp]; exact h.entries
      · rw [harp]; exact h.queries
      · dsimp only at hfree ⊢
        rw [hq.tosendFree] at hfree
        rw [hq.tosend]
        exact h.slotTime i hi hfree
  | none =>
      obtain ⟨harp, hnow⟩ := arp_ipv4Send_none cfg hlookup protocol payload len
      obtain ⟨hqueries, hqueryTime⟩ := h.query dst
      rw [if_pos rfl]
      refine ⟨hnow.trans h.now, ?_, ?_, h.entryTime, hqueryTime, fun i hi hfree => ?_⟩
      · rw [harp, (arp_arpQuery _ dst w.net).1, table_arpQuery]
        exact h.entries
      · rw [harp]
        exact hqueries
      · rcases hcases with ⟨hq, hne⟩ | ⟨-, hr, id, pkt, s', hfind, hq, hout⟩
        · have htick : (match findTosendFree w.net.tosendFree with
              | none => w.slotTick
              | some id => if (ipv4Send cfg dst protocol payload len w.net).1 = 0 then
                  Function.update w.slotTick id w.tick else w.slotTick) = w.slotTick := by
            split
            · rfl
            · exact if_neg (hne hlookup)
          dsimp only at hfree ⊢
          rw [hq.tosendFree] at hfree
          rw [hq.tosend, htick]
          exact h.slotTime i hi hfree
        · rw [hfind]
          dsimp only at hfree ⊢
          rw [if_pos hr]
          rw [hout] at hnow hfree ⊢
          by_cases heq : i = id
          · subst heq
            simp only [Function.update_self]
            rw [← h.now, ← hnow]
          · simp only [Function.update_of_ne heq]
            rw [hq.tosend]
            refine h.slotTime i hi fun hc => hfree ?_
            rw [slotFree_clearFree, hq.tosendFree]
            exact ⟨Ne.symm heq, hc⟩

/-! ### Sweeping the to-send table -/

/-- A sweep takes the packet of this slot out of the table. -/
def Leaves (s : Net) (i : Nat) : Prop :=
  s.now > (s.tosend i).expireTime ∨ (arpLookup (s.tosend i).dstIp s.arp).isSome

/-- What the sweep of a slot leaves as it is. -/
structure Sweeping (s s' : Net) : Prop where
  now : s'.now = s.now
  table : s'.arp.table = s.arp.table
  expireTime : ∀ j, (s'.tosend j).expireTime = (s.tosend j).expireTime
  dstIp : ∀ j, (s'.tosend j).dstIp = (s.tosend j).dstIp

theorem Sweeping.leaves {s s' : Net} (h : Sweeping s s') (j : Nat) : Leaves s' j ↔ Leaves s j := by
  rw [Leaves, Leaves, h.now, h.expireTime, h.dstIp, arpLookup, arpLookup, h.table]

variable (cfg) in
theorem sweeping_idleSlot (s : Net) (i : Nat) : Sweeping s (ipv4IdleSlot cfg s i) := by
  rw [ipv4IdleSlot]
  split
  · exact ⟨rfl, rfl, fun _ => rfl, fun _ => rfl⟩
  · exact ⟨rfl, rfl, fun _ => rfl, fun _ => rfl⟩
  · refine ⟨rfl, rfl, fun j => ?_, fun j => ?_⟩
    · by_cases hj : j = i <;> simp [phySend, hj]
    · by_cases hj : j = i <;> simp [phySend, hj]
  · have hq := quiet_arpQuery cfg (s.tosend i).dstIp s
    obtain ⟨harp, hnow⟩ := arp_arpQuery cfg (s.tosend i).dstIp s
    exact ⟨hnow, by rw [harp, table_arpQuery], fun j => by rw [hq.tosend],
      fun j => by rw [hq.tosend]⟩

variable (cfg) in
/-- The sweep of slot `i` frees it when its packet leaves, and frees no other slot. -/
theorem slotFree_idleSlot (s : Net) (i j : Nat) :
    slotFree (ipv4IdleSlot cfg s i).tosendFree j = true ↔
      slotFree s.tosendFree j = true ∨ j = i ∧ Leaves s i := by
  cases hcase : slotCase s i with
  | free =>
      have hfree : slotFree s.tosendFree i = true := by
        unfold slotCase at hcase
        split at hcase
        · assumption
        · split at hcase
          · exact SlotCase.noConfusion hcase
          · split at hcase <;> exact SlotCase.noConfusion hcase
      simp only [ipv4IdleSlot, hcase]
      exact ⟨.inl, fun h => h.elim id fun hj => hj.1 ▸ hfree⟩
  | expired =>
      simp only [ipv4IdleSlot, hcase, slotFree_setFree]
      have hl : Leaves s i := .inl (NetWorld.slotCase_expired hcase).2
      rw [or_comm]
      exact or_congr_right ⟨fun hj => ⟨hj.symm, hl⟩, fun hj => hj.1.symm⟩
  | found mac =>
      simp only [ipv4IdleSlot, hcase, phySend, slotFree_setFree]
      have hl : Leaves s i := .inr (by rw [(NetWorld.slotCase_found hcase).2]; rfl)
      rw [or_comm]
      exact or_congr_right ⟨fun hj => ⟨hj.symm, hl⟩, fun hj => hj.1.symm⟩
  | unknown =>
      have hstay : ¬Leaves s i := by
        unfold slotCase at hcase
        split at hcase
        · exact SlotCase.noConfusion hcase
        · split at hcase
          · exact SlotCase.noConfusion hcase
          · next hnow =>
            split at hcase
            · exact SlotCase.noConfusion hcase
            · next hl => exact not_or.mpr ⟨hnow, by simp [hl]⟩
      simp only [ipv4IdleSlot, hcase]
      rw [(quiet_arpQuery cfg _ s).tosendFree]
      exact ⟨.inl, fun h => h.elim id fun hj => absurd hj.2 hstay⟩

theorem Ok.idleSlot (h : Ok cfg w) (i : Nat) : Ok cfg (w.idleSlot cfg i) := by
  have hsw := sweeping_idleSlot cfg w.net i
  rw [TimedWorld.idleSlot]
  have hslot : ∀ j < tosendTableSize, ¬slotFree (ipv4IdleSlot cfg w.net i).tosendFree j = true →
      ((ipv4IdleSlot cfg w.net i).tosend j).expireTime =
        timeAddMs cfg.tscFreq (gettime (w.slotTick j)) tosendTimeoutMs := by
    intro j hj hfree
    rw [hsw.expireTime]
    exact h.slotTime j hj fun hc => hfree ((slotFree_idleSlot cfg w.net i j).mpr (.inl hc))
  split
  · next hcase =>
    obtain ⟨hqueries, hqueryTime⟩ := h.query (w.net.tosend i).dstIp
    have hquery : ipv4IdleSlot cfg w.net i = (w.net.arpQuery cfg (w.net.tosend i).dstIp).2 := by
      rw [ipv4IdleSlot, hcase]
    refine ⟨hsw.now.trans h.now, h.entries.trans hsw.table.symm, ?_, h.entryTime, hqueryTime, hslot⟩
    rw [hquery]
    exact hqueries
  · next hcase =>
    have hquery : (ipv4IdleSlot cfg w.net i).arp = w.net.arp := by
      rw [ipv4IdleSlot]
      split
      · rfl
      · rfl
      · rfl
      · next hunknown => exact absurd hunknown hcase
    refine ⟨hsw.now.trans h.now, h.entries.trans hsw.table.symm, ?_, h.entryTime, h.queryTime,
      hslot⟩
    rw [hquery]
    exact h.queries

/-- What a sweep over the slots of `l` does. -/
structure Swept (l : List Nat) (w w' : TimedWorld) : Prop where
  tick : w'.tick = w.tick
  slotTick : w'.slotTick = w.slotTick
  sweeping : Sweeping w.net w'.net
  free : ∀ j, slotFree w'.net.tosendFree j = true ↔
    slotFree w.net.tosendFree j = true ∨ j ∈ l ∧ Leaves w.net j

theorem foldl_idleSlot : ∀ (l : List Nat) {w : TimedWorld}, Ok cfg w →
    Ok cfg (l.foldl (TimedWorld.idleSlot cfg) w) ∧
      Swept l w (l.foldl (TimedWorld.idleSlot cfg) w) := by
  intro l
  induction l with
  | nil =>
      intro w h
      exact ⟨h, rfl, rfl, ⟨rfl, rfl, fun _ => rfl, fun _ => rfl⟩, fun j => by simp⟩
  | cons i l ih =>
      intro w h
      have hsw := sweeping_idleSlot cfg w.net i
      obtain ⟨hok, hrest⟩ := ih (h.idleSlot i)
      have hrs := hrest.sweeping
      refine ⟨hok, hrest.tick, hrest.slotTick, ⟨hrs.now.trans hsw.now, hrs.table.trans hsw.table,
        fun j => (hrs.expireTime j).trans (hsw.expireTime j),
        fun j => (hrs.dstIp j).trans (hsw.dstIp j)⟩, fun j => ?_⟩
      rw [List.foldl_cons, hrest.free, List.mem_cons]
      have hfree := slotFree_idleSlot cfg w.net i j
      have hleaves := hsw.leaves j
      simp only [TimedWorld.idleSlot]
      rw [hfree, hleaves]
      constructor
      · rintro ((hf | ⟨rfl, hl⟩) | ⟨hj, hl⟩)
        · exact .inl hf
        · exact .inr ⟨.inl rfl, hl⟩
        · exact .inr ⟨.inr hj, hl⟩
      · rintro (hf | ⟨rfl | hj, hl⟩)
        · exact .inl (.inl hf)
        · exact .inl (.inr ⟨rfl, hl⟩)
        · exact .inr ⟨hj, hl⟩

theorem Ok.sweep_start (h : Ok cfg w) :
    Ok cfg { w with net := { w.net with lastIdleTime := w.net.now, cnt := 0 } } :=
  ⟨h.now, h.entries, h.queries, h.entryTime, h.queryTime, h.slotTime⟩

theorem Ok.idle (h : Ok cfg w) : Ok cfg (w.idle cfg) := by
  rw [TimedWorld.idle]
  split
  · exact (foldl_idleSlot (List.range tosendTableSize) h.sweep_start).1
  · exact ⟨h.now, h.entries, h.queries, h.entryTime, h.queryTime, h.slotTime⟩

/-! ### One step and a run -/

theorem Ok.step (h : Ok cfg w) (e : TimedEvent) : Ok cfg (w.step cfg e) := by
  cases e with
  | advance ticks => exact ⟨rfl, h.entries, h.queries, h.entryTime, h.queryTime, h.slotTime⟩
  | arpUpdate ip mac =>
      obtain ⟨hentries, hentryTime⟩ := h.update ip mac
      have hquery : (DuckNet.arpUpdate cfg.tscFreq w.net.now ip mac w.net.arp).2.queryTable =
          w.net.arp.queryTable := by
        unfold DuckNet.arpUpdate
        dsimp only
        split <;> rfl
      exact ⟨h.now, hentries, h.queries.trans hquery.symm, hentryTime, h.queryTime, h.slotTime⟩
  | arpQuery ip =>
      obtain ⟨hqueries, hqueryTime⟩ := h.query ip
      obtain ⟨harp, hnow⟩ := arp_arpQuery cfg ip w.net
      have hq := quiet_arpQuery cfg ip w.net
      refine ⟨hnow.trans h.now, ?_, hqueries, h.entryTime, hqueryTime, fun i hi hfree => ?_⟩
      · exact h.entries.trans (by rw [TimedWorld.step, harp, table_arpQuery])
      · rw [TimedWorld.step] at hfree ⊢
        dsimp only at hfree ⊢
        rw [hq.tosendFree] at hfree
        rw [hq.tosend]
        exact h.slotTime i hi hfree
  | arpIdle => exact h.arpIdle
  | send dst protocol payload len => exact h.send dst protocol payload len
  | idle => exact h.idle

/-- A sweep leaves nothing overdue behind exactly when the clock is past the expiry time of
everything that is overdue. -/
theorem Ok.removes_iff (h : Ok cfg w) (e : TimedEvent) : Removes cfg w e ↔ ClockPast cfg w e := by
  cases e with
  | arpIdle =>
      refine imp_congr_right fun hdue => ?_
      have htick : w.arpIdle.tick = w.tick := by rw [TimedWorld.arpIdle]; split <;> rfl
      rw [htick, TimedWorld.arpIdle, if_pos hdue]
      refine and_congr ⟨fun hr e he hover => ?_, fun hc e he hover => ?_⟩
        ⟨fun hr q hq hover => ?_, fun hc q hq hover => ?_⟩
      · by_contra hpast
        refine hr e (mem_tableSweep.mpr ⟨he, ?_⟩) hover
        rwa [Function.comp_apply, h.entryTime e he, h.now]
      · obtain ⟨hmem, hnot⟩ := mem_tableSweep.mp he
        rw [Function.comp_apply, h.entryTime e hmem, h.now] at hnot
        exact hnot (hc e hmem hover)
      · by_contra hpast
        refine hr q (mem_tableSweep.mpr ⟨hq, ?_⟩) hover
        rwa [Function.comp_apply, h.queryTime q hq, h.now]
      · obtain ⟨hmem, hnot⟩ := mem_tableSweep.mp hq
        rw [Function.comp_apply, h.queryTime q hmem, h.now] at hnot
        exact hnot (hc q hmem hover)
  | idle =>
      refine imp_congr_right fun hdue => forall_congr' fun i => imp_congr_right fun hi => ?_
      obtain ⟨-, hswept⟩ := foldl_idleSlot (List.range tosendTableSize) h.sweep_start
      have hfree := hswept.free i
      have hleaves : Leaves { w.net with lastIdleTime := w.net.now, cnt := 0 } i ↔ Leaves w.net i :=
        Iff.rfl
      rw [TimedWorld.idle, if_pos hdue, hswept.tick, hswept.slotTick, hfree, hleaves, not_or,
        and_imp]
      refine imp_congr_right fun hbusy => ?_
      have htime := h.slotTime i hi hbusy
      rw [Leaves, h.now, htime]
      have hmem : i ∈ List.range tosendTableSize := List.mem_range.mpr hi
      constructor
      · intro hr hover
        by_contra hc
        exact hr (fun hl => hc hl.2) hover
      · intro hc hstay hover
        exact hstay ⟨hmem, hc hover⟩
  | advance | arpUpdate | arpQuery | send => exact Iff.rfl

theorem run_take_succ {t : Nat} {events : List TimedEvent} {k : Nat} {e : TimedEvent}
    (he : events[k]? = some e) :
    run cfg t (events.take (k + 1)) = (run cfg t (events.take k)).step cfg e := by
  rw [List.take_add_one, he]
  simp [run]

theorem ok_run (cfg : NetConfig) (t : Nat) (events : List TimedEvent) : Ok cfg
    (run cfg t events) := by
  have hinit : Ok cfg ⟨t, Net.init cfg (gettime t), [], [], fun _ => 0⟩ := by
    refine ⟨rfl, rfl, rfl, by simp, by simp, fun i hi hfree => ?_⟩
    exact absurd ((slotFree_foldl_setFree tosendTableSize).mpr hi) hfree
  suffices hfold : ∀ (events : List TimedEvent) (w : TimedWorld), Ok cfg w →
      Ok cfg (events.foldl (TimedWorld.step cfg) w) from hfold events _ hinit
  intro events
  induction events with
  | nil => intro w h; exact h
  | cons e events ih => intro w h; exact ih _ (h.step e)

/-- `mul_div` of whole seconds, when nothing wraps. -/
theorem mulDiv_toNat {ms tscFreq : UInt64} {sec : Nat} (hms : ms.toNat = 1000 * sec)
    (hfit : sec * tscFreq.toNat < 2 ^ 64) :
    (mulDiv ms tscFreq 1000).toNat = sec * tscFreq.toNat := by
  have hu : sec * tscFreq.toNat = 1000 * (sec * (tscFreq.toNat / 1000)) +
      sec * (tscFreq.toNat % 1000) := by
    calc sec * tscFreq.toNat
        = sec * (1000 * (tscFreq.toNat / 1000) + tscFreq.toNat % 1000) := by rw [Nat.div_add_mod]
      _ = _ := by ring
  have hdiv : ms.toNat / 1000 = sec := by omega
  have hmod : ms.toNat % 1000 = 0 := by omega
  have h1 : sec * (tscFreq.toNat / 1000) < 2 ^ 64 := by omega
  have h2 : sec * (tscFreq.toNat % 1000) < 2 ^ 64 := by omega
  simp only [mulDiv, UInt64.toNat_add, UInt64.toNat_mul, UInt64.toNat_div, UInt64.toNat_mod,
    UInt64.reduceToNat, hdiv, hmod, Nat.zero_mul, Nat.zero_mod, Nat.zero_div, Nat.add_zero]
  rw [Nat.mod_eq_of_lt h1, Nat.mod_eq_of_lt h2]
  omega

/-- From five seconds on, and at 1 GHz or more, no value of the truncated clock is past the expiry
time; so `ducknet_arp_idle` never removes an ARP entry and `ducknet_ipv4_idle` never
drops a packet. -/
theorem not_past {tscFreq ms : UInt64} {sec : Nat} (hms : ms.toNat = 1000 * sec) (hsec : 5 ≤ sec)
    (hfreq : 10 ^ 9 ≤ tscFreq.toNat) (hfit : 2 ^ 32 + sec * tscFreq.toNat ≤ 2 ^ 64) (t t' : Nat) :
    ¬Past tscFreq ms t t' := by
  have hlong : 5 * 10 ^ 9 ≤ sec * tscFreq.toNat := Nat.mul_le_mul hsec hfreq
  have hmul : (mulDiv ms tscFreq 1000).toNat = sec * tscFreq.toNat := mulDiv_toNat hms (by omega)
  have ht : ∀ t, (gettime t).toNat < 2 ^ 32 := by
    intro t
    rw [gettime, UInt64.toNat_ofNat']
    omega
  have h1 := ht t
  have h2 := ht t'
  rw [Past, gt_iff_lt, UInt64.lt_iff_toNat_lt, timeAddMs, UInt64.toNat_add, hmul]
  omega

/-! ### A host at 1 GHz -/

def gigahertz : NetConfig where
  mac := ⟨2, 0, 0, 0, 0, 1⟩
  ip := 0x0a000001
  tscFreq := 1000000000
  phySend := fun _ => 0

/-- 10.0.0.2 is heard of once, and then nothing happens for 31 seconds. -/
def heardOnce : List TimedEvent :=
  [.arpUpdate 0x0a000002 ⟨2, 0, 0, 0, 0, 2⟩, .advance 31000000000]

end TimedWorld

end DuckNet

end JudgeDuck
