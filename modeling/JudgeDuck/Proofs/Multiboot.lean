/-
The huge pages of a memory map.

Both ends of an entry are rounded inwards, and what is below the kernel's end is left
out, so a page is registered just when it lies in one of the entries and above the
kernel.  A page that lies in several entries counts once.
-/
import JudgeDuck.Model.Multiboot
import JudgeDuck.Proofs.HugePages

namespace JudgeDuck

namespace Memory

namespace HugePages

open Utils

/-- Registering an address below 511 GiB marks its page, unless it belongs to the kernel. -/
theorem register_marks {h : HugePages} {addr : UInt64} (halign : addr.toNat % 2097152 = 0)
    (hlt : addr.toNat < 261632 * 2097152) : ∃ h', h.register addr = some h' ∧
      ∀ i, h'.map i = true ↔ h.map i = true ∨ 2 ≤ i ∧ i * 2097152 = addr.toNat := by
  have hmod : addr % hugePageSize = 0 := by
    rw [← UInt64.toNat_inj, UInt64.toNat_mod, toNat_hugePageSize]
    exact halign
  have hmax : maxMemorySize.toNat = 261632 * 2097152 := rfl
  have hnum : (addr / hugePageSize).toNat = addr.toNat / 2097152 := by
    rw [UInt64.toNat_div, toNat_hugePageSize]
  unfold HugePages.register
  rw [if_neg]
  · by_cases hlow : addr < kernelBreak
    · rw [if_pos hlow]
      rw [UInt64.lt_iff_toNat_lt, toNat_kernelBreak] at hlow
      exact ⟨h, rfl, fun i => ⟨.inl, fun hi => hi.elim id fun hi => by omega⟩⟩
    · rw [if_neg hlow]
      rw [UInt64.not_lt, UInt64.le_iff_toNat_le, toNat_kernelBreak] at hlow
      dsimp only
      rw [hnum]
      by_cases hold : h.map (addr.toNat / 2097152) = true
      · rw [if_pos hold]
        refine ⟨h, rfl, fun i => ⟨.inl, fun hi => hi.elim id fun hi => ?_⟩⟩
        have hi' : i = addr.toNat / 2097152 := by omega
        rw [hi']
        exact hold
      · rw [if_neg hold]
        refine ⟨_, rfl, fun i => ?_⟩
        dsimp only
        by_cases hi : i = addr.toNat / 2097152
        · rw [hi, Function.update_self]
          exact ⟨fun _ => .inr (by omega), fun _ => rfl⟩
        · rw [Function.update_of_ne hi]
          exact ⟨.inl, fun h' => h'.elim id fun h' => by omega⟩
  · rw [not_or, not_not, ge_iff_le, UInt64.not_le, UInt64.lt_iff_toNat_lt, hmax]
    exact ⟨hmod, hlt⟩

end HugePages

end Memory

namespace Multiboot

open Memory Utils

variable {ebss : UInt64} {m : Mem} {tag : MmapTag} {h : HugePages}

/-- Where the loop over the pages stops. -/
theorem registerPages_done {va stop : UInt64} (h : stop.toNat ≤ va.toNat) (fuel : Nat)
    (pages : HugePages) : registerPages (fuel + 1) va stop pages = some pages := by
  rw [registerPages, if_neg (by rw [UInt64.lt_iff_toNat_lt]; omega)]

/-- The loop over the pages between two bounds. -/
theorem registerPages_marks {stop : UInt64} (hstop : stop.toNat ≤ 261632 * 2097152)
    (hend : stop.toNat % 2097152 = 0) : ∀ (fuel : Nat) (va : UInt64) (h : HugePages), h.Ok →
      va.toNat % 2097152 = 0 → va.toNat ≤ 261632 * 2097152 →
      stop.toNat ≤ va.toNat + fuel * 2097152 →
        ∃ h', registerPages (fuel + 1) va stop h = some h' ∧ h'.Ok ∧ ∀ i, h'.map i = true ↔
          h.map i = true ∨ 2 ≤ i ∧ va.toNat ≤ i * 2097152 ∧ i * 2097152 < stop.toNat := by
  intro fuel
  induction fuel with
  | zero =>
      intro va h hok _ _ hfuel
      refine ⟨h, registerPages_done (by omega) 0 h, hok, fun i => ⟨.inl, fun hi => ?_⟩⟩
      exact hi.elim id fun hi => by omega
  | succ fuel ih =>
      intro va h hok halign hva hfuel
      by_cases hlt : va.toNat < stop.toNat
      · obtain ⟨h1, hreg, hmap⟩ := HugePages.register_marks (h := h) halign (by omega)
        have hnext : (va + hugePageSize).toNat = va.toNat + 2097152 := by
          rw [toNat_add_of_lt (by rw [toNat_hugePageSize]; omega), toNat_hugePageSize]
        obtain ⟨h2, hrest, hok2, hmap2⟩ := ih (va + hugePageSize) h1 (hok.register hreg) (by omega)
          (by omega) (by omega)
        have hrun : registerPages (fuel + 1 + 1) va stop h = some h2 := by
          rw [registerPages, if_pos (UInt64.lt_iff_toNat_lt.mpr hlt), hreg, Option.bind_some, hrest]
        refine ⟨h2, hrun, hok2, fun i => ?_⟩
        rw [hmap2, hmap, hnext, or_assoc]
        refine or_congr_right ⟨fun hi => hi.elim (fun hi => ?_) fun hi => ?_, fun hi => ?_⟩
        · omega
        · omega
        · by_cases heq : i * 2097152 = va.toNat
          · exact .inl ⟨hi.1, heq⟩
          · exact .inr ⟨hi.1, by omega, hi.2.2⟩
      · refine ⟨h, registerPages_done (by omega) _ h, hok, fun i => ⟨.inl, fun hi => ?_⟩⟩
        exact hi.elim id fun hi => by omega

/-! ### Entries -/

/-- The entry is available, and all of huge page `i` lies in it. -/
structure Contains (e : MmapEntry) (i : Nat) : Prop where
  available : e.type = memoryAvailable
  start : e.addr.toNat ≤ i * 2097152
  stop : (i + 1) * 2097152 ≤ e.addr.toNat + e.len.toNat

/-- Enough fuel for all huge pages. -/
def pagesFuel : Nat := 261633

theorem loadEntry_marks {e : MmapEntry} (hok : h.Ok) (hebss : ebss.toNat ≤ kernelBreak.toNat)
    (he : e.addr.toNat + e.len.toNat ≤ 261632 * 2097152) {fuel : Nat} (hfuel : pagesFuel ≤ fuel) :
    ∃ h', loadEntry fuel ebss e h = some h' ∧ h'.Ok ∧
      ∀ i, h'.map i = true ↔ h.map i = true ∨ 2 ≤ i ∧ Contains e i := by
  unfold pagesFuel at hfuel
  rw [toNat_kernelBreak] at hebss
  unfold loadEntry
  by_cases htype : e.type = memoryAvailable
  · rw [if_pos htype]
    dsimp only
    have hstart := roundUp_toNat (x := e.addr) (r := hugePageSize) (by decide)
      (by rw [toNat_hugePageSize]; omega)
    have hkernel := roundUp_toNat (x := ebss) (r := hugePageSize) (by decide)
      (by rw [toNat_hugePageSize]; omega)
    have hstop := roundDown_toNat (e.addr + e.len) hugePageSize
    rw [toNat_add_of_lt (by omega)] at hstop
    rw [toNat_hugePageSize] at hstart hkernel hstop
    generalize roundDown (e.addr + e.len) hugePageSize = stop at hstop ⊢
    -- Where the loop starts: at the entry, or at the kernel's end.
    obtain ⟨va, hva, halign, hle, hpages⟩ : ∃ va : UInt64,
        (if roundUp e.addr hugePageSize < ebss then roundUp ebss hugePageSize
          else roundUp e.addr hugePageSize) = va ∧ va.toNat % 2097152 = 0 ∧
        va.toNat ≤ 261632 * 2097152 ∧
        ∀ i, 2 ≤ i → (va.toNat ≤ i * 2097152 ↔ e.addr.toNat ≤ i * 2097152) := by
      by_cases hlow : roundUp e.addr hugePageSize < ebss
      · rw [if_pos hlow]
        rw [UInt64.lt_iff_toNat_lt] at hlow
        exact ⟨_, rfl, by omega, by omega, fun i hi => by omega⟩
      · rw [if_neg hlow]
        exact ⟨_, rfl, by omega, by omega, fun i hi => by omega⟩
    rw [hva]
    have hlow : stop.toNat ≤ 261632 * 2097152 := by omega
    have hwhole : stop.toNat % 2097152 = 0 := by omega
    obtain ⟨n, rfl⟩ : ∃ n, fuel = n + 1 := ⟨fuel - 1, by omega⟩
    obtain ⟨h', hrun, hok', hmap⟩ :=
      registerPages_marks hlow hwhole n va h hok halign hle (by omega)
    refine ⟨h', hrun, hok', fun i => ?_⟩
    rw [hmap]
    refine or_congr_right (and_congr_right fun hi => ?_)
    rw [hpages i hi]
    exact ⟨fun ⟨h1, h2⟩ => ⟨htype, h1, by omega⟩, fun hc => ⟨hc.start, by have := hc.stop; omega⟩⟩
  · rw [if_neg htype]
    exact ⟨h, rfl, hok, fun i => ⟨.inl, fun hi => hi.elim id fun hi => (htype hi.2.available).elim⟩⟩

/-! ### The map -/

/-- The number of entries of a map whose entries fill it. -/
def count (tag : MmapTag) : Nat := (tag.size.toNat - 16) / tag.entrySize.toNat

/-- Entry `k`. -/
def entry (m : Mem) (tag : MmapTag) (k : Nat) : MmapEntry :=
  readEntry m (tag.mmap + 16 + UInt64.ofNat k * tag.entrySize.toUInt64)

/-- A map that the loader can read: the entries fill it, and none of them goes beyond 511 GiB. -/
structure WellFormed (m : Mem) (tag : MmapTag) : Prop where
  header : 16 ≤ tag.size.toNat
  area : tag.entrySize.toNat ∣ tag.size.toNat - 16
  bound : ∀ k, k < count tag →
    (entry m tag k).addr.toNat + (entry m tag k).len.toNat ≤ maxMemorySize.toNat

variable {k : Nat}

theorem count_le (tag : MmapTag) : count tag ≤ tag.size.toNat - 16 := Nat.div_le_self _ _

theorem WellFormed.count_mul (hwf : WellFormed m tag) :
    count tag * tag.entrySize.toNat = tag.size.toNat - 16 := Nat.div_mul_cancel hwf.area

theorem WellFormed.offset (hwf : WellFormed m tag) (hk : k ≤ count tag) :
    (UInt64.ofNat k * tag.entrySize.toUInt64).toNat = k * tag.entrySize.toNat := by
  have hsize := tag.size.toNat_lt
  have hcount := count_le tag
  have hmul := hwf.count_mul
  have hle : k * tag.entrySize.toNat ≤ count tag * tag.entrySize.toNat := Nat.mul_le_mul_right _ hk
  rw [UInt64.toNat_mul, UInt64.toNat_ofNat_of_lt' (show k < 2 ^ 64 by omega),
    UInt32.toNat_toUInt64, Nat.mod_eq_of_lt (by omega)]

/-- The end of the map is reached after the last entry, and not before. -/
theorem WellFormed.at_end (hwf : WellFormed m tag) (hk : k ≤ count tag) :
    tag.mmap + 16 + UInt64.ofNat k * tag.entrySize.toUInt64 = tag.mmap + tag.size.toUInt64 ↔
      k = count tag := by
  have hheader := hwf.header
  have hsize := tag.size.toNat_lt
  have hmul := hwf.count_mul
  have hle : k * tag.entrySize.toNat ≤ count tag * tag.entrySize.toNat := Nat.mul_le_mul_right _ hk
  have h16 : (16 : UInt64).toNat = 16 := rfl
  rw [UInt64.add_assoc, UInt64.add_right_inj, ← UInt64.toNat_inj, UInt64.toNat_add, hwf.offset hk,
    UInt32.toNat_toUInt64, h16, Nat.mod_eq_of_lt (by omega)]
  constructor
  · intro h
    by_cases hzero : tag.entrySize.toNat = 0
    · have hnone : count tag = 0 := by
        unfold count
        rw [hzero, Nat.div_zero]
      omega
    · exact Nat.eq_of_mul_eq_mul_right (Nat.pos_of_ne_zero hzero) (by omega)
  · intro h
    rw [h]
    omega

/-- The loop over the entries from entry `k` on. -/
theorem loadEntries_marks (hebss : ebss.toNat ≤ kernelBreak.toNat) (hwf : WellFormed m tag)
    {pages : Nat} (hpages : pagesFuel ≤ pages) : ∀ (fuel k : Nat) (h : HugePages), h.Ok →
      k ≤ count tag → count tag - k < fuel →
        ∃ h', loadEntries pages ebss m tag fuel
            (tag.mmap + 16 + UInt64.ofNat k * tag.entrySize.toUInt64) h = some h' ∧ h'.Ok ∧
          ∀ i, h'.map i = true ↔
            h.map i = true ∨ 2 ≤ i ∧ ∃ j, k ≤ j ∧ j < count tag ∧ Contains (entry m tag j) i := by
  intro fuel
  induction fuel with
  | zero => exact fun k h _ _ hf => by omega
  | succ fuel ih =>
      intro k h hok hk hf
      rw [loadEntries]
      by_cases hend : k = count tag
      · rw [if_neg (not_not_intro ((hwf.at_end hk).mpr hend))]
        refine ⟨h, rfl, hok, fun i => ⟨.inl, fun hi => ?_⟩⟩
        obtain hi | ⟨-, j, hkj, hj, -⟩ := hi
        · exact hi
        · omega
      · rw [if_pos (fun hc => hend ((hwf.at_end hk).mp hc))]
        have hbound := hwf.bound k (by omega)
        have hmax : maxMemorySize.toNat = 261632 * 2097152 := rfl
        rw [hmax] at hbound
        obtain ⟨h1, hentry, hok1, hmap1⟩ := loadEntry_marks hok hebss hbound hpages
        have hnext : tag.mmap + 16 + UInt64.ofNat k * tag.entrySize.toUInt64
            + tag.entrySize.toUInt64
              = tag.mmap + 16 + UInt64.ofNat (k + 1) * tag.entrySize.toUInt64 := by
          rw [UInt64.ofNat_add, UInt64.add_mul, UInt64.add_assoc (tag.mmap + 16)]
          exact congrArg _ (congrArg _ (UInt64.one_mul _).symm)
        obtain ⟨h2, hrest, hok2, hmap2⟩ := ih (k + 1) h1 hok1 (by omega) (by omega)
        unfold entry at hentry
        refine ⟨h2, by rw [hentry, Option.bind_some, hnext, hrest], hok2, fun i => ?_⟩
        rw [hmap2, hmap1, or_assoc]
        refine or_congr_right ⟨fun hi => ?_, fun ⟨hi, j, hkj, hj, hc⟩ => ?_⟩
        · rcases hi with ⟨hi, hc⟩ | ⟨hi, j, hkj, hj, hc⟩
          · exact ⟨hi, k, Nat.le_refl k, by omega, hc⟩
          · exact ⟨hi, j, by omega, hj, hc⟩
        · by_cases hjk : j = k
          · exact .inl ⟨hi, hjk ▸ hc⟩
          · exact .inr ⟨hi, j, by omega, hj, hc⟩

/-- The counter is the number of marked pages. -/
theorem ok_ncard (hok : h.Ok) : h.n.toNat = {i | h.map i = true}.ncard := by
  have hset : {i | h.map i = true}
      = ((Finset.range 261632).filter fun i => h.map i = true : Finset Nat) := by
    ext i
    rw [Finset.coe_filter, Set.mem_ofPred_eq, Set.mem_ofPred_eq, Finset.mem_range]
    exact ⟨fun hi => ⟨hok.inside i hi, hi⟩, fun hi => hi.2⟩
  rw [hset, Set.ncard_coe_finset, hok.counter, HugePages.below, Nat.count_eq_card_filter_range]

/-- `load_mmap` marks the huge pages above the kernel that lie in an available entry, and counts
them. -/
theorem loadMmap_marks (hebss : ebss.toNat ≤ kernelBreak.toNat) (hwf : WellFormed m tag)
    {fuel : Nat}
    (hfuel : pagesFuel + count tag ≤ fuel) :
    ∃ h, loadMmap fuel ebss m tag .empty = some h ∧
      (∀ i, h.map i = true ↔ 2 ≤ i ∧ ∃ k, k < count tag ∧ Contains (entry m tag k) i) ∧
      h.n.toNat = {i | h.map i = true}.ncard := by
  have hpos : 0 < pagesFuel := by decide
  have hpages : pagesFuel ≤ fuel := by omega
  obtain ⟨h, hrun, hok, hmap⟩ := loadEntries_marks hebss hwf hpages fuel 0 .empty HugePages.ok_empty
    (Nat.zero_le _) (by omega)
  have hstart : tag.mmap + 16 + UInt64.ofNat 0 * tag.entrySize.toUInt64 = tag.mmap + 16 := by
    have hzero : UInt64.ofNat 0 = 0 := rfl
    rw [hzero, UInt64.zero_mul, UInt64.add_zero]
  rw [hstart] at hrun
  refine ⟨h, hrun, fun i => ?_, ok_ncard hok⟩
  rw [hmap]
  refine ⟨fun hi => ?_, fun ⟨hi, k, hk, hc⟩ => .inr ⟨hi, k, Nat.zero_le k, hk, hc⟩⟩
  obtain hi | ⟨hi, k, -, hk, hc⟩ := hi
  · cases hi
  · exact ⟨hi, k, hk, hc⟩

/-- A map with one available entry, from 4 MiB to 8 MiB. -/
def oneEntry : Mem := fun x =>
  if x = 65554 ∨ x = 65562 then 64 else if x = 65568 then 1 else 0

theorem oneEntry_wellFormed : WellFormed oneEntry ⟨65536, 40, 24⟩ := by
  refine ⟨by decide, by decide, fun k hk => ?_⟩
  have hcount : count ⟨65536, 40, 24⟩ = 1 := by decide
  have hzero : k = 0 := by omega
  rw [hzero]
  decide +kernel

theorem loadMmap_marks_oneEntry : ∃ h,
    loadMmap 261634 2097152 oneEntry ⟨65536, 40, 24⟩ .empty = some h ∧
    (∀ i, h.map i = true ↔ 2 ≤ i ∧ ∃ k, k < count ⟨65536, 40, 24⟩ ∧
      Contains (entry oneEntry ⟨65536, 40, 24⟩ k) i) ∧
    h.n.toNat = {i | h.map i = true}.ncard :=
  loadMmap_marks (by decide) oneEntry_wellFormed (by decide)

end Multiboot

end JudgeDuck
