/-
The machine that the tables show.

The model of the loader has a byte for each address and an entry for each page, and says
nothing of tables.  Here the tables are in memory: a page loop that finds its entries through
the recursive mapping, in physical memory, does to the machine that is shown what the loop of
that model does (`Shows.run`), and between mapped pages it never faults.
-/
import JudgeDuck.Proofs.Tables.Calls

namespace JudgeDuck.PageTable

open Memory Paging

variable {h : HugePages} {p4 : UInt64} {m m' : Mem} {s : Machine}

/-- The bytes and entries of a machine, for the mapped pages, are those that the tables in `m` lead
to. -/
structure Shows (h : HugePages) (p4 : UInt64) (m : Mem) (s : Machine) : Prop where
  shape : Shape h (fun p => .ofBitVec (s.p1 p)) p4 m
  leaves : Leaves h fun p => .ofBitVec (s.p1 p)
  bytes : ∀ p o, p < 512 * total h → o < 4096 → s.mem (4096 * p + o) = m (frameOfPage h p + o)

/-- A byte of the machine, at its physical address. -/
theorem Shows.read_byte (hr : Ready h) (hs : Shows h p4 m s) {va : UInt64}
    (hp : pageOf va < 512 * total h) :
    ∃ a, translate m.read64 p4.toNat va = some a ∧ m a = s.mem va.toNat := by
  refine ⟨_, hr.translate_frame hs.shape hs.leaves hp, ?_⟩
  rw [← hs.bytes (pageOf va) (va.toNat % 4096) hp (Nat.mod_lt _ (by decide))]
  congr 1
  unfold pageOf
  omega

/-- An entry of the machine, at its physical address. -/
theorem Shows.read_entry (hr : Ready h) (hs : Shows h p4 m s) {va : UInt64}
    (hp : pageOf va < 512 * total h) :
    ∃ a, translate m.read64 p4.toNat (getP1 va) = some a ∧
      (m.read64 a).toBitVec = s.p1 (pageOf va) := by
  obtain ⟨a, ha, hread⟩ := hr.read_leaf hs.shape hp
  exact ⟨a, ha, by rw [hread]⟩

theorem Shows.page (hr : Ready h) (hs : Shows h p4 m s) {op : PageOp} (hop : Keeps op.entry)
    {start : UInt64} (hp : pageOf start < 512 * total h) (halign : start.toNat % 4096 = 0) :
    ∃ m', pageAt op p4 start m = some m' ∧ Shows h p4 m' (op.page (pageOf start) s) := by
  obtain ⟨m', hpage, hdone⟩ := hr.pageAt_eq hs.shape hs.leaves op hp halign
  have hleaf : Function.update (fun p => UInt64.ofBitVec (s.p1 p)) (pageOf start)
        (.ofBitVec (op.entry (s.p1 (pageOf start))))
      = fun p => .ofBitVec ((op.page (pageOf start) s).p1 p) := by
    funext p
    show _ = UInt64.ofBitVec (Function.update s.p1 (pageOf start) _ p)
    by_cases hpp : p = pageOf start
    · rw [hpp, Function.update_self, Function.update_self]
    · rw [Function.update_of_ne hpp, Function.update_of_ne hpp]
  refine ⟨m', hpage, ?_, ?_, fun p o hq ho => ?_⟩
  · rw [← hleaf]
    exact hdone.shape
  · rw [← hleaf]
    exact hs.leaves.update hop _ hp
  · rw [hdone.bytes p _ hq (Nat.le_add_right _ _) (by omega), ← hs.bytes p o hq ho]
    show (if op.wipes (s.p1 (pageOf start)) = true then s.mem.memset (4096 * pageOf start) 0 4096
      else s.mem) (4096 * p + o) = _
    by_cases hw : op.wipes (s.p1 (pageOf start)) = true
    · rw [if_pos hw]
      by_cases hpp : p = pageOf start
      · rw [if_pos ⟨hw, hpp⟩, hpp]
        exact Mem.put_add ho
      · rw [if_neg fun hc => hpp hc.2]
        exact Mem.memset_out (by omega)
    · rw [if_neg hw, if_neg fun hc => hw hc.1]

theorem Shows.loop (hr : Ready h) {op : PageOp} (hop : Keeps op.entry) :
    ∀ (k : Nat) (start : UInt64) (m : Mem) (s : Machine), Shows h p4 m s → start.toNat % 4096 = 0 →
      pageOf start + k ≤ 512 * total h →
      ∃ m', pagesAt op p4 k start m = some m' ∧ Shows h p4 m' (op.loop k start s) := by
  have htotal := hr.total_le
  intro k
  induction k with
  | zero => exact fun start m s hs _ _ => ⟨m, rfl, hs⟩
  | succ k ih =>
      intro start m s hs halign hk
      obtain ⟨m1, hpage, hs1⟩ := hs.page hr hop (by omega) halign
      have hnext : (start + pageSize).toNat = start.toNat + 4096 := by
        unfold pageOf at hk
        rw [Utils.toNat_add_of_lt (by rw [toNat_pageSize]; omega), toNat_pageSize]
      have hpages : pageOf (start + pageSize) = pageOf start + 1 := by
        unfold pageOf
        omega
      obtain ⟨m', hrest, hs'⟩ := ih (start + pageSize) m1 _ hs1 (by omega) (by omega)
      refine ⟨m', ?_, hs'⟩
      rw [pagesAt, hpage]
      exact hrest

/-- A page loop between mapped pages does not fault, and does what it does to the machine. -/
theorem Shows.run (hr : Ready h) {op : PageOp} (hop : Keeps op.entry) (hs : Shows h p4 m s)
    {start stop : UInt64} (h1 : start % pageSize = 0) (h2 : stop % pageSize = 0)
    (hle : start.toNat ≤ stop.toNat) (hstop : stop.toNat ≤ total h * 2097152) :
    ∃ m' s', runAt op p4 start stop m = some m' ∧ op.run start stop s = some s' ∧
      Shows h p4 m' s' := by
  have ha1 := toNat_mod_pageSize h1
  have ha2 := toNat_mod_pageSize h2
  have hk : (stop - start).toNat = stop.toNat - start.toNat :=
    UInt64.toNat_sub_of_le _ _ (UInt64.le_iff_toNat_le.mpr hle)
  obtain ⟨m', hrun, hs'⟩ := hs.loop hr hop ((stop - start).toNat / 4096) start m s ha1
    (by unfold pageOf; omega)
  exact ⟨m', _, by rw [runAt, if_pos ⟨h1, h2⟩, hrun], if_pos ⟨h1, h2⟩, hs'⟩

/-- The range of a call lies between mapped pages. -/
structure FlagCall.Mapped (c : FlagCall) (vaddrBreak : UInt64) : Prop where
  start_aligned : c.start % pageSize = 0
  stop_aligned : c.stop % pageSize = 0
  ordered : c.start ≤ c.stop
  mapped : c.stop ≤ vaddrBreak

/-- So is a list of calls. -/
theorem Shows.runCalls (hr : Ready h) {vb : UInt64} (hvb : vb.toNat = total h * 2097152) :
    ∀ (calls : List FlagCall) (m : Mem) (s : Machine), Shows h p4 m s → (∀ c ∈ calls, c.Mapped vb) →
      ∃ m' s', runCalls p4 calls m = some m' ∧
        calls.foldlM (fun s c => c.function.op.run c.start c.stop s) s = some s' ∧
        Shows h p4 m' s' := by
  intro calls
  induction calls with
  | nil => exact fun m s hs _ => ⟨m, s, rfl, rfl, hs⟩
  | cons c calls ih =>
      intro m s hs hmapped
      obtain ⟨h1, h2, hle, hstop⟩ := hmapped c List.mem_cons_self
      rw [UInt64.le_iff_toNat_le] at hle hstop
      obtain ⟨m1, s1, hrun, hmachine, hs1⟩ := hs.run hr c.function.keeps h1 h2 hle (hvb ▸ hstop)
      obtain ⟨m', s', hrest, hmachines, hs'⟩ :=
        ih m1 s1 hs1 fun d hd => hmapped d (List.mem_cons_of_mem c hd)
      refine ⟨m', s', ?_, ?_, hs'⟩
      · rw [PageTable.runCalls, hrun]
        exact hrest
      · rw [List.foldlM_cons, hmachine]
        exact hmachines

/-- The tables that `init_page_table_4k` builds show a machine. -/
theorem Ready.shows (hr : Ready h) {t : Built} (ht : Shape h (firstLeaf h) t.p4 t.mem) :
    ∃ s : Machine, s.vaddrBreak = t.vaddrBreak ∧ Shows h t.p4 t.mem s := by
  let s : Machine :=
    { mem := fun x => t.mem (frameOfPage h (x / 4096) + x % 4096)
      p1 := fun p => (firstLeaf h p).toBitVec
      vaddrBreak := t.vaddrBreak }
  refine ⟨s, rfl, ht, hr.bounded.leaves_firstLeaf, fun p o _ ho => ?_⟩
  have hdiv : (4096 * p + o) / 4096 = p := by omega
  have hmod : (4096 * p + o) % 4096 = o := by omega
  show t.mem (frameOfPage h ((4096 * p + o) / 4096) + (4096 * p + o) % 4096) = _
  rw [hdiv, hmod]

end JudgeDuck.PageTable
