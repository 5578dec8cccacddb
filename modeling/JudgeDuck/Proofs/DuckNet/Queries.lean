/-
The pending ARP queries.

The query table is searched and filled by the same code as the ARP table.  While
every new query belongs in front of a pending one, or is the first, the table is in
increasing order, so a pending query is found and no request is sent twice.  A
query above all pending ones goes in front of the last of them, which is not found
any more and is asked for again.
-/
import JudgeDuck.Proofs.DuckNet.Expiry

namespace JudgeDuck

namespace DuckNet

/-! ### Runs -/

/-- What `ducknet_arp_query` depends on. -/
inductive QueryEvent where
  | clock (now : UInt64)
  | query (ip : UInt32)
  | idle

namespace Net

def queryStep (cfg : NetConfig) (s : Net) : QueryEvent → Net
  | .clock now => { s with now }
  | .query ip => (s.arpQuery cfg ip).2
  | .idle => { s with arp := arpIdle s.now s.arp }

/-- The events one after the other, from `ducknet_init`. -/
def queryRun (cfg : NetConfig) (now : UInt64) (events : List QueryEvent) : Net :=
  events.foldl (queryStep cfg) (Net.init cfg now)

/-- No address is pending twice, and a request is sent only for an address that is not pending. -/
structure QueriesOnce (cfg : NetConfig) (s : Net) : Prop where
  nodup : (s.arp.queryTable.map ArpQuery.ip).Nodup
  pending : ∀ ip, (s.arpQuery cfg ip).2.sent ≠ s.sent → ∀ q ∈ s.arp.queryTable, q.ip ≠ ip

/-- The new query is the first one, or not above all pending ones, or there is no room for it. -/
def QueryFits (s : Net) (ip : UInt32) : Prop :=
  KeyFits ArpQuery.ip s.arp.queryTable ip ∨ s.arp.queryTable.length = arpTableSize

variable {cfg : NetConfig} {s : Net} {ip : UInt32}

/-- A request is sent when the table had no entry that the search finds, and room for one. -/
theorem sent_arpQuery (h : (s.arpQuery cfg ip).2.sent ≠ s.sent) :
    (tableFind ArpQuery.ip s.arp.queryTable ip).isSome = false := by
  cases hc : (tableFind ArpQuery.ip s.arp.queryTable ip).isSome with
  | false => rfl
  | true =>
      refine absurd ?_ h
      rw [Net.arpQuery, DuckNet.arpQuery, if_pos hc]

theorem QueriesOnce.of_sorted (h : KeySorted ArpQuery.ip s.arp.queryTable) : QueriesOnce cfg s := by
  constructor
  · exact List.pairwise_map.mpr (h.imp fun hlt => UInt32.ne_of_lt hlt)
  · intro ip hsent q hq hc
    have hmiss := sent_arpQuery hsent
    rw [← Bool.not_eq_true, h.tableFind_isSome] at hmiss
    exact hmiss ⟨q, hq, hc⟩

/-- A query that fits keeps the order. -/
theorem sorted_arpQuery (h : KeySorted ArpQuery.ip s.arp.queryTable) (hfit : s.QueryFits ip) :
    KeySorted ArpQuery.ip (s.arpQuery cfg ip).2.arp.queryTable := by
  rw [(TimedWorld.arp_arpQuery cfg ip s).1, DuckNet.arpQuery]
  split
  · exact h
  · next hmiss =>
    dsimp only
    split
    · exact h
    · next table hput =>
      rcases hfit with hfit | hfull
      · exact (h.stored_tablePut hfit rfl hput).sorted
      · rw [tablePut_eq_none.mpr ⟨by simpa using hmiss, hfull⟩] at hput
        cases hput

theorem sorted_queryStep (h : KeySorted ArpQuery.ip s.arp.queryTable) (e : QueryEvent)
    (hfit : ∀ ip, e = .query ip → s.QueryFits ip) :
    KeySorted ArpQuery.ip (s.queryStep cfg e).arp.queryTable := by
  cases e with
  | clock now => exact h
  | query ip => exact sorted_arpQuery h (hfit ip rfl)
  | idle =>
      show KeySorted ArpQuery.ip (arpIdle s.now s.arp).queryTable
      unfold arpIdle
      split
      · exact h.tableSweep _ _
      · exact h

/-- In every run whose queries all fit, no address is pending twice and no request is repeated while
it is pending. -/
theorem queriesOnce_run (cfg : NetConfig) (now : UInt64) (events : List QueryEvent)
    (hfit : ∀ k ip, events[k]? = some (.query ip) →
      (queryRun cfg now (events.take k)).QueryFits ip) (k : Nat) :
    QueriesOnce cfg (queryRun cfg now (events.take k)) := by
  suffices hsorted : KeySorted ArpQuery.ip (queryRun cfg now (events.take k)).arp.queryTable from
    .of_sorted hsorted
  induction k with
  | zero => exact List.Pairwise.nil
  | succ k ih =>
      rw [List.take_add_one]
      cases he : events[k]? with
      | none => simpa using ih
      | some e =>
          rw [Option.toList_some, queryRun, List.foldl_append]
          refine sorted_queryStep ih e fun ip hip => hfit k ip ?_
          rw [he, hip]

/-! ### Two hosts -/

/-- The larger address first: both are pending once. -/
theorem queriesOnce_two : QueriesOnce TimedWorld.gigahertz
    (queryRun TimedWorld.gigahertz 0 [.query 0x0a000002, .query 0x0a000001]) := by
  refine queriesOnce_run TimedWorld.gigahertz 0 [.query 0x0a000002, .query 0x0a000001] ?_ 2
  intro k ip he
  match k, he with
  | 0, _ => exact .inl (.inl rfl)
  | 1, he =>
      have hip : 0x0a000001 = ip := QueryEvent.query.inj (Option.some.inj he)
      have hmem : ⟨0x0a000002, 1000000000⟩ ∈ (queryRun TimedWorld.gigahertz 0
        [.query 0x0a000002]).arp.queryTable := by decide
      exact .inl (.inr ⟨_, hmem, by rw [← hip]; decide⟩)

/-- The smaller address first: 10.0.0.1 is pending when it is asked for again. -/
theorem smaller_address_asked_again :
    ¬∀ (cfg : NetConfig) (now : UInt64) (events : List QueryEvent),
      QueriesOnce cfg (queryRun cfg now events) := by
  intro h
  have ho := h TimedWorld.gigahertz 0 [.query 0x0a000001, .query 0x0a000002]
  refine ho.pending 0x0a000001 ?_ ⟨0x0a000001, 1000000000⟩ (by decide) rfl
  intro hc
  have hlen := congrArg List.length hc
  revert hlen
  decide

end Net

end DuckNet

end JudgeDuck
