/-
The blocks that are taken from the top of the user's address space.

`init` looks for sizes with one test of their sum and then makes three allocations that
round by themselves; every row of the table is a number of huge pages, so nothing is
rounded and what passes the test can be allocated.
-/
import JudgeDuck.Base.Blocks
import JudgeDuck.Proofs.Judger.Runs

namespace JudgeDuck

namespace Memory

open Utils

/-! ### Sequences of allocations -/

/-- `n` rounded up to huge pages. -/
def hugeUp (n : Nat) : Nat := (n + 2097151) / 2097152 * 2097152

theorem roundUp_huge {n : UInt64} (h : n.toNat < 2 ^ 63) :
    (roundUp n hugePageSize).toNat = hugeUp n.toNat := by
  rw [roundUp_toNat (by decide) (by rw [toNat_hugePageSize]; omega), toNat_hugePageSize]
  unfold hugeUp
  omega

/-- A call of `allocate_virtual_memory`: the pointer, and `vaddr_break` after it. -/
def allocateStep (vaddrBreak size : UInt64) : Option UInt64 × UInt64 :=
  let size := roundUp size hugePageSize
  if vaddrBreak - kernelBreak < size then (none, vaddrBreak)
  else (some (vaddrBreak - size), vaddrBreak - size)

/-- The blocks of the calls that succeed, and `vaddr_break` after all calls. -/
def allocateSteps : List UInt64 → UInt64 → List Block × UInt64
  | [], vaddrBreak => ([], vaddrBreak)
  | size :: sizes, vaddrBreak =>
    let r := allocateStep vaddrBreak size
    let rest := allocateSteps sizes r.2
    (r.1.elim rest.1 fun a => ⟨a.toNat, hugeUp size.toNat⟩ :: rest.1, rest.2)

variable {vaddrBreak size a : UInt64}

theorem allocateStep_fst (vaddrBreak size : UInt64) :
    (allocateStep vaddrBreak size).1 = allocateVirtualMemory vaddrBreak size := by
  unfold allocateStep allocateVirtualMemory
  by_cases h : vaddrBreak - kernelBreak < roundUp size hugePageSize
  · simp only [if_pos h]
  · simp only [if_neg h]

/-- The two functions make the same test. -/
theorem allocate_isSome (vaddrBreak size : UInt64) :
    (allocateVirtualMemory vaddrBreak size).isSome = canAllocateVirtualMemory vaddrBreak size := by
  unfold allocateVirtualMemory canAllocateVirtualMemory
  dsimp only
  split
  · rename_i h
    exact (decide_eq_false (UInt64.not_le.mpr h)).symm
  · rename_i h
    exact (decide_eq_true (UInt64.not_lt.mp h)).symm

theorem allocateStep_refused (h : allocateVirtualMemory vaddrBreak size = none) :
    (allocateStep vaddrBreak size).2 = vaddrBreak := by
  unfold allocateVirtualMemory at h
  unfold allocateStep
  by_cases hfit : vaddrBreak - kernelBreak < roundUp size hugePageSize
  · simp only [if_pos hfit]
  · simp only [if_neg hfit] at h
    cases h

/-- A call fails and changes nothing, or moves the break down by whole huge pages. -/
theorem allocateStep_cases (hbreak : kernelBreak ≤ vaddrBreak) (hsize : size.toNat < 2 ^ 63) :
    vaddrBreak.toNat < kernelBreak.toNat + hugeUp size.toNat ∧
      allocateStep vaddrBreak size = (none, vaddrBreak) ∨
    ∃ a, allocateStep vaddrBreak size = (some a, a) ∧
      a.toNat + hugeUp size.toNat = vaddrBreak.toNat ∧ kernelBreak.toNat ≤ a.toNat := by
  have hround := roundUp_huge hsize
  have hroom := UInt64.toNat_sub_of_le _ _ hbreak
  rw [UInt64.le_iff_toNat_le] at hbreak
  unfold allocateStep
  dsimp only
  split
  · rename_i hfit
    rw [UInt64.lt_iff_toNat_lt, hroom, hround] at hfit
    exact .inl ⟨by omega, rfl⟩
  · rename_i hfit
    rw [UInt64.not_lt, UInt64.le_iff_toNat_le, hroom, hround] at hfit
    have ha := UInt64.toNat_sub_of_le vaddrBreak (roundUp size hugePageSize)
      (UInt64.le_iff_toNat_le.mpr (by omega))
    exact .inr ⟨_, rfl, by omega, by omega⟩

theorem allocateSteps_descending : ∀ (sizes : List UInt64) (vaddrBreak : UInt64),
    kernelBreak ≤ vaddrBreak → (∀ size ∈ sizes, size.toNat < 2 ^ 63) →
    Block.Descending vaddrBreak.toNat (allocateSteps sizes vaddrBreak).1
      (allocateSteps sizes vaddrBreak).2.toNat := by
  intro sizes
  induction sizes with
  | nil => exact fun _ _ _ => Nat.le_refl _
  | cons size sizes ih =>
      intro vaddrBreak hbreak hsizes
      have hrest : ∀ size ∈ sizes, size.toNat < 2 ^ 63 := fun x hx =>
        hsizes x (List.mem_cons_of_mem size hx)
      have hlt := hsizes size List.mem_cons_self
      rw [allocateSteps]
      rcases allocateStep_cases hbreak hlt with ⟨-, hnone⟩ | ⟨a, hsome, ha, hlow⟩
      · rw [hnone]
        exact ih vaddrBreak hbreak hrest
      · rw [hsome]
        exact ⟨Nat.le_of_eq ha, ih a (UInt64.le_iff_toNat_le.mpr hlow) hrest⟩

theorem allocateSteps_low : ∀ (sizes : List UInt64) (vaddrBreak : UInt64),
    kernelBreak ≤ vaddrBreak → (∀ size ∈ sizes, size.toNat < 2 ^ 63) →
    kernelBreak.toNat ≤ (allocateSteps sizes vaddrBreak).2.toNat := by
  intro sizes
  induction sizes with
  | nil => exact fun _ h _ => UInt64.le_iff_toNat_le.mp h
  | cons size sizes ih =>
      intro vaddrBreak hbreak hsizes
      have hrest : ∀ size ∈ sizes, size.toNat < 2 ^ 63 := fun x hx =>
        hsizes x (List.mem_cons_of_mem size hx)
      rw [allocateSteps]
      rcases allocateStep_cases hbreak (hsizes size List.mem_cons_self) with
        ⟨-, hnone⟩ | ⟨a, hsome, -, hlow⟩
      · rw [hnone]
        exact ih vaddrBreak hbreak hrest
      · rw [hsome]
        exact ih a (UInt64.le_iff_toNat_le.mpr hlow) hrest

/-- A block of whole huge pages ends at the old break. -/
theorem allocate_exact (hbreak : kernelBreak ≤ vaddrBreak) (hsize : size.toNat < 2 ^ 63)
    (hwhole : size.toNat % 2097152 = 0) : allocateVirtualMemory vaddrBreak size = some a ↔
      a.toNat + size.toNat = vaddrBreak.toNat ∧ kernelBreak.toNat ≤ a.toNat := by
  have hup : hugeUp size.toNat = size.toNat := by
    unfold hugeUp
    omega
  rw [← allocateStep_fst]
  rcases allocateStep_cases hbreak hsize with ⟨hno, hnone⟩ | ⟨b, hsome, hb, hlow⟩
  · rw [hnone]
    refine ⟨fun h => ?_, fun ⟨h, hlow⟩ => ?_⟩
    · cases h
    · omega
  · rw [hsome]
    refine ⟨fun h => ?_, fun ⟨h, _⟩ => ?_⟩
    · cases h
      exact ⟨by omega, hlow⟩
    · have hab : b = a := UInt64.toNat_inj.mp (by omega)
      rw [hab]

end Memory

namespace Judger

open Memory

/-! ### The rows of the table -/

/-- The sizes of a row in bytes. -/
def rowBytes (row : UInt64 × UInt64 × UInt64) : UInt64 × UInt64 × UInt64 :=
  (row.1 <<< (20 : UInt64), row.2.1 <<< (20 : UInt64), row.2.2 <<< (20 : UInt64))

/-- What the test of a row asks for: its blocks, and 3 GiB for a program. -/
def rowTotal (row : UInt64 × UInt64 × UInt64) : UInt64 :=
  (rowBytes row).1 + (rowBytes row).2.1 + (rowBytes row).2.2 + (3072 : UInt64) <<< (20 : UInt64)

/-- There is room for the three blocks of a row, in MiB, and for a program of 3 GiB. -/
def RowFits (vaddrBreak : UInt64) (row : UInt64 × UInt64 × UInt64) : Prop :=
  kernelBreak.toNat + (row.1.toNat + row.2.1.toNat + row.2.2.toNat + 3072) * 1048576
    ≤ vaddrBreak.toNat

/-- The row is the first one in the table that fits. -/
structure FirstFit (vaddrBreak : UInt64) (row : UInt64 × UInt64 × UInt64) (i : Nat) : Prop where
  at_row : bufferCacheSizes[i]? = some row
  fits : RowFits vaddrBreak row
  first : ∀ j row', j < i → bufferCacheSizes[j]? = some row' → ¬RowFits vaddrBreak row'

/-- Numbers of bytes that are exact, and whole huge pages. -/
structure RowExact (row : UInt64 × UInt64 × UInt64) : Prop where
  buffer : (rowBytes row).1.toNat = row.1.toNat * 1048576
  elf : (rowBytes row).2.1.toNat = row.2.1.toNat * 1048576
  data : (rowBytes row).2.2.toNat = row.2.2.toNat * 1048576
  sum : (rowTotal row).toNat = (row.1.toNat + row.2.1.toNat + row.2.2.toNat + 3072) * 1048576
  even : row.1.toNat % 2 = 0 ∧ row.2.1.toNat % 2 = 0 ∧ row.2.2.toNat % 2 = 0
  small : row.1.toNat + row.2.1.toNat + row.2.2.toNat ≤ 16384

theorem shift_mib {n : UInt64} (h : n.toNat ≤ 16384) :
    (n <<< (20 : UInt64)).toNat = n.toNat * 1048576 := by
  rw [UInt64.toNat_shiftLeft, (by decide : (20 : UInt64).toNat % 64 = 20), Nat.shiftLeft_eq]
  omega

theorem rowExact {row : UInt64 × UInt64 × UInt64} (h : row ∈ bufferCacheSizes) : RowExact row := by
  have hall : (bufferCacheSizes.all fun row => decide (row.1.toNat % 2 = 0 ∧ row.2.1.toNat % 2 = 0 ∧
      row.2.2.toNat % 2 = 0 ∧ row.1.toNat + row.2.1.toNat + row.2.2.toNat ≤ 16384)) = true := by
    decide +kernel
  obtain ⟨hb, he, hd, hsmall⟩ := of_decide_eq_true (List.all_eq_true.mp hall row h)
  have hb' := shift_mib (n := row.1) (by omega)
  have he' := shift_mib (n := row.2.1) (by omega)
  have hd' := shift_mib (n := row.2.2) (by omega)
  refine ⟨hb', he', hd', ?_, ⟨hb, he, hd⟩, hsmall⟩
  have h3 : ((3072 : UInt64) <<< (20 : UInt64)).toNat = 3072 * 1048576 := by decide
  unfold rowTotal
  rw [UInt64.toNat_add, UInt64.toNat_add, UInt64.toNat_add, h3]
  unfold rowBytes
  dsimp only
  rw [hb', he', hd']
  omega

/-- The test of the source is the exact one. -/
theorem canAllocate_row {vaddrBreak : UInt64} (hbreak : kernelBreak ≤ vaddrBreak)
    {row : UInt64 × UInt64 × UInt64} (h : row ∈ bufferCacheSizes) :
    canAllocateVirtualMemory vaddrBreak (rowTotal row) = true ↔ RowFits vaddrBreak row := by
  obtain ⟨-, -, -, hsum, ⟨hb, he, hd⟩, hsmall⟩ := rowExact h
  have hup : hugeUp ((row.1.toNat + row.2.1.toNat + row.2.2.toNat + 3072) * 1048576)
      = (row.1.toNat + row.2.1.toNat + row.2.2.toNat + 3072) * 1048576 := by
    unfold hugeUp
    omega
  rw [← allocate_isSome, ← allocateStep_fst]
  unfold RowFits
  have hlt : (rowTotal row).toNat < 2 ^ 63 := by
    rw [hsum]
    omega
  rcases allocateStep_cases hbreak hlt with ⟨hno, hnone⟩ | ⟨a, hsome, ha, hlow⟩
  · rw [hnone]
    rw [hsum, hup] at hno
    exact ⟨fun h => (Bool.false_ne_true h).elim, fun h => by omega⟩
  · rw [hsome]
    rw [hsum, hup] at ha
    exact ⟨fun _ => by omega, fun _ => rfl⟩

/-- The sizes are those of the row that the loop stops at. -/
theorem chooseSizes_eq (vaddrBreak : UInt64) : chooseSizes vaddrBreak =
    ((bufferCacheSizes.find? fun row => canAllocateVirtualMemory vaddrBreak (rowTotal row)).map
      rowBytes).getD (536870912, 268435456, 268435456) := by
  unfold chooseSizes
  dsimp only
  rw [List.find?_map]
  rfl

/-- The test of the source passes for some row. -/
def Found (vaddrBreak : UInt64) : Prop :=
  ∃ row ∈ bufferCacheSizes, canAllocateVirtualMemory vaddrBreak (rowTotal row) = true

/-- The loop stops at the first row that fits. -/
theorem Found.firstFit {vaddrBreak : UInt64} (h : Found vaddrBreak)
    (hbreak : kernelBreak ≤ vaddrBreak) :
    ∃ row i, FirstFit vaddrBreak row i ∧ chooseSizes vaddrBreak = rowBytes row := by
  rw [chooseSizes_eq]
  have hsome := List.find?_isSome.mpr h
  obtain ⟨row, hrow⟩ := Option.isSome_iff_exists.mp hsome
  obtain ⟨hfits, i, hi, hat, hbefore⟩ := List.find?_eq_some_iff_getElem.mp hrow
  have hmem : row ∈ bufferCacheSizes := List.mem_of_find?_eq_some hrow
  refine ⟨row, i, ⟨?_, (canAllocate_row hbreak hmem).mp hfits, fun j row' hj hrow' hfits' => ?_⟩,
    ?_⟩
  · rw [List.getElem?_eq_getElem hi, hat]
  · obtain ⟨hlt, rfl⟩ := List.getElem?_eq_some_iff.mp hrow'
    have hno := hbefore j hj
    rw [(canAllocate_row hbreak (List.getElem_mem hlt)).mpr hfits'] at hno
    cases hno
  · rw [hrow, Option.map_some, Option.getD_some]

/-! ### The three blocks of `init` -/

/-- The blocks of the buffer, the ELF cache and the data cache. -/
def regions (s : Judger) : List Block :=
  [⟨s.buffer.toNat, s.bufferSize.toNat⟩, ⟨s.elfCache.objHash, s.elfCache.cacheSize⟩,
    ⟨s.dataCache.objHash, s.dataCache.cacheSize⟩]

/-- The blocks of a row, taken from the top of the address space; 3 GiB stay below them. -/
structure InitRegions (machine : Machine) (row : UInt64 × UInt64 × UInt64) (s : Judger) : Prop where
  lengths : s.regions.map Block.len =
    [row.1.toNat * 1048576, row.2.1.toNat * 1048576, row.2.2.toNat * 1048576]
  aligned : ∀ b ∈ s.regions, b.start % 2097152 = 0
  disjoint : s.regions.Pairwise Block.Disjoint
  within : ∀ b ∈ s.regions, b.Within s.machine.vaddrBreak.toNat machine.vaddrBreak.toNat
  room : 3072 * 1048576 + kernelBreak.toNat ≤ s.machine.vaddrBreak.toNat

section

variable {machine : Machine} {row : UInt64 × UInt64 × UInt64} {i : Nat}

/-- Where the three calls put their blocks. -/
theorem FirstFit.init_some (h : FirstFit machine.vaddrBreak row i)
    (hchoose : chooseSizes machine.vaddrBreak = rowBytes row)
    (hbreak : kernelBreak ≤ machine.vaddrBreak) : ∃ s, init machine = some s := by
  obtain ⟨hb, he, hd, -, hwhole, hsmall⟩ := rowExact (List.mem_of_getElem? h.at_row)
  have hsizes := chooseSizes_sizes machine.vaddrBreak
  rw [hchoose] at hsizes
  have hfits := h.fits
  unfold RowFits at hfits
  have htop := machine.vaddrBreak.toNat_lt
  have hkernel := toNat_kernelBreak
  -- The three pointers, from the top downwards.
  have hbuf : allocateVirtualMemory machine.vaddrBreak (rowBytes row).1
      = some (machine.vaddrBreak - (rowBytes row).1) := by
    have hle : (rowBytes row).1 ≤ machine.vaddrBreak := UInt64.le_iff_toNat_le.mpr (by omega)
    have hsub := UInt64.toNat_sub_of_le _ _ hle
    exact (allocate_exact hbreak (by omega) (by omega)).mpr ⟨by omega, by omega⟩
  generalize machine.vaddrBreak - (rowBytes row).1 = a1 at hbuf
  obtain ⟨ha1, hlow1⟩ := (allocate_exact hbreak (by omega) (by omega)).mp hbuf
  have helf : allocateVirtualMemory a1 (rowBytes row).2.1 = some (a1 - (rowBytes row).2.1) := by
    have hle : (rowBytes row).2.1 ≤ a1 := UInt64.le_iff_toNat_le.mpr (by omega)
    have hsub := UInt64.toNat_sub_of_le _ _ hle
    exact (allocate_exact (UInt64.le_iff_toNat_le.mpr hlow1) (by omega) (by omega)).mpr
      ⟨by omega, by omega⟩
  generalize a1 - (rowBytes row).2.1 = a2 at helf
  obtain ⟨ha2, hlow2⟩ :=
    (allocate_exact (UInt64.le_iff_toNat_le.mpr hlow1) (by omega) (by omega)).mp helf
  have hdata : allocateVirtualMemory a2 (rowBytes row).2.2 = some (a2 - (rowBytes row).2.2) := by
    have hle : (rowBytes row).2.2 ≤ a2 := UInt64.le_iff_toNat_le.mpr (by omega)
    have hsub := UInt64.toNat_sub_of_le _ _ hle
    exact (allocate_exact (UInt64.le_iff_toNat_le.mpr hlow2) (by omega) (by omega)).mpr
      ⟨by omega, by omega⟩
  obtain ⟨c1, m1, h1⟩ := DuckCache.init_ok hsizes.elf (UInt64.le_iff_toNat_le.mpr hlow1) helf
    (machine.mem.memset a1.toNat 0 (rowBytes row).1.toNat)
  obtain ⟨c2, m2, h2⟩ := DuckCache.init_ok hsizes.data (UInt64.le_iff_toNat_le.mpr hlow2) hdata m1
  unfold init
  rw [hchoose]
  dsimp only [Option.bind_eq_bind]
  rw [hbuf, Option.bind_some, h1, Except.toOption, Option.bind_some, h2, Except.toOption,
    Option.bind_some]
  exact ⟨_, rfl⟩

theorem FirstFit.regions {s : Judger} (h : FirstFit machine.vaddrBreak row i)
    (hchoose : chooseSizes machine.vaddrBreak = rowBytes row)
    (hbreak : kernelBreak ≤ machine.vaddrBreak) (halign : machine.vaddrBreak.toNat % 2097152 = 0)
    (hinit : init machine = some s) : InitRegions machine row s := by
  obtain ⟨hb, he, hd, -, hwhole, hsmall⟩ := rowExact (List.mem_of_getElem? h.at_row)
  obtain ⟨elfCacheSize, dataCacheSize, m, a, hs⟩ := init_inits hinit
  have hsizes := hs.sizes
  rw [hchoose] at hsizes
  obtain ⟨hi, hj⟩ := hs.initialised hbreak
  have hfits := h.fits
  unfold RowFits at hfits
  rw [hsizes] at hb he hd
  dsimp only at hb he hd
  -- The three calls, one below the other.
  obtain ⟨ha1, hlow1⟩ := (allocate_exact hbreak (by omega) (by omega)).mp hs.buffer
  obtain ⟨ha2, hlow2⟩ := (allocate_exact (UInt64.le_iff_toNat_le.mpr hlow1) (by omega)
    (by omega)).mp (DuckCache.init_allocates hs.elf)
  obtain ⟨ha3, -⟩ := (allocate_exact (UInt64.le_iff_toNat_le.mpr hlow2) (by omega)
    (by omega)).mp (DuckCache.init_allocates hs.data)
  have hroom : 3072 * 1048576 + kernelBreak.toNat ≤ s.machine.vaddrBreak.toNat := by omega
  have hregions : s.regions = [⟨s.buffer.toNat, s.bufferSize.toNat⟩, ⟨a.toNat, elfCacheSize.toNat⟩,
      ⟨s.machine.vaddrBreak.toNat, dataCacheSize.toNat⟩] := by
    rw [Judger.regions, hi.start, hi.size, hj.start, hj.size]
  have hdesc : Block.Descending machine.vaddrBreak.toNat s.regions s.machine.vaddrBreak.toNat := by
    rw [hregions]
    simp only [Block.Descending]
    omega
  refine ⟨?_, ?_, hdesc.disjoint, hdesc.within, hroom⟩
  · rw [hregions, List.map_cons, List.map_cons, List.map_cons, List.map_nil, hb, he, hd]
  · rw [hregions]
    simp only [List.forall_mem_cons]
    exact ⟨by omega, by omega, by omega, fun _ h => (List.not_mem_nil h).elim⟩

end

/-- `init` takes its blocks below each other whenever a row fits, and so does every other sequence
of allocations; the two functions make the same test, and a call that fails changes nothing. -/
theorem init_regions :
    (∀ machine : Machine, machine.vaddrBreak.toNat % 2097152 = 0 →
      kernelBreak ≤ machine.vaddrBreak → Found machine.vaddrBreak →
        ∃ row i s, FirstFit machine.vaddrBreak row i ∧ init machine = some s ∧
          InitRegions machine row s) ∧
    (∀ (vaddrBreak : UInt64) (sizes : List UInt64), kernelBreak ≤ vaddrBreak →
      (∀ size ∈ sizes, size.toNat < 2 ^ 63) →
        let r := allocateSteps sizes vaddrBreak
        r.1.Pairwise Block.Disjoint ∧
          (∀ b ∈ r.1, b.Within r.2.toNat vaddrBreak.toNat) ∧ kernelBreak.toNat ≤ r.2.toNat) ∧
    ∀ vaddrBreak size : UInt64,
      (allocateVirtualMemory vaddrBreak size).isSome = canAllocateVirtualMemory vaddrBreak size ∧
      (allocateStep vaddrBreak size).1 = allocateVirtualMemory vaddrBreak size ∧
      (allocateVirtualMemory vaddrBreak size = none →
        (allocateStep vaddrBreak size).2 = vaddrBreak) := by
  refine ⟨fun machine halign hbreak hfound => ?_, fun vaddrBreak sizes hbreak hsizes => ?_,
    fun vaddrBreak size => ⟨allocate_isSome vaddrBreak size, allocateStep_fst vaddrBreak size, ?_⟩⟩
  · obtain ⟨row, i, hrow, hchoose⟩ := hfound.firstFit hbreak
    obtain ⟨s, hs⟩ := hrow.init_some hchoose hbreak
    exact ⟨row, i, s, hrow, hs, hrow.regions hchoose hbreak halign hs⟩
  · have hdesc := allocateSteps_descending sizes vaddrBreak hbreak hsizes
    exact ⟨hdesc.disjoint, hdesc.within, allocateSteps_low sizes vaddrBreak hbreak hsizes⟩
  · intro hnone
    exact allocateStep_refused hnone

/-- With 5 GiB it is the eleventh row; and nothing is left at the kernel's own end. -/
theorem init_regions_fiveGiB :
    (∃ row i s, FirstFit fiveGiB.vaddrBreak row i ∧ init fiveGiB = some s ∧
      InitRegions fiveGiB row s) ∧
    (allocateSteps [1, 2097153] fiveGiB.vaddrBreak).1.Pairwise Block.Disjoint ∧
    (allocateStep 4194304 1).2 = 4194304 := by
  have hsmall : ∀ size ∈ ([1, 2097153] : List UInt64), size.toNat < 2 ^ 63 := by
    simp only [List.forall_mem_cons, List.not_mem_nil]
    exact ⟨by decide, by decide, fun _ h => h.elim⟩
  refine ⟨init_regions.1 fiveGiB (by decide) fiveGiB_booted.low
    ⟨(512, 256, 1024), by decide +kernel, by decide +kernel⟩, ?_,
    (init_regions.2.2 4194304 1).2.2 (by decide)⟩
  exact (init_regions.2.1 fiveGiB.vaddrBreak [1, 2097153] fiveGiB_booted.low hsmall).1

end Judger

end JudgeDuck
