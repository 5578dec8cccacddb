/-
The bytes that a request puts into memory.

After the first page flags no page loop changes a byte, so the memory of an
accepted program is what its copies leave (`stores`).  The regions are disjoint,
and each byte is explained by the group of copies of its own region: the last
segment that covers it, the stack, or one copy into a special region (`placed`).
-/
import JudgeDuck.Proofs.Elf.Loading

namespace JudgeDuck.Elf

open Utils Memory

/-! ### Copies alone -/

/-- What an effect copies. -/
def Effect.store : Effect → Mem → Mem
  | pages _ _ _, m => m
  | copy dst n src, m => m.put dst.toNat n src

@[simp] theorem store_pages (op : PageOp) (start stop : UInt64) (m : Mem) :
    (Effect.pages op start stop).store m = m := rfl

@[simp] theorem store_copy (dst : UInt64) (n : Nat) (src : Nat → UInt8) (m : Mem) :
    (Effect.copy dst n src).store m = m.put dst.toNat n src := rfl

@[simp] theorem store_copyBytes (dst : UInt64) (bytes : List UInt8) (m : Mem) :
    (Effect.copyBytes dst bytes).store m = m.putBytes dst.toNat bytes := rfl

def stores (es : List Effect) (m : Mem) : Mem := es.foldl (fun m e => e.store m) m

@[simp] theorem stores_nil (m : Mem) : stores [] m = m := rfl

@[simp] theorem stores_cons (e : Effect) (es : List Effect) (m : Mem) :
    stores (e :: es) m = stores es (e.store m) := rfl

theorem stores_append (es fs : List Effect) (m : Mem) :
    stores (es ++ fs) m = stores fs (stores es m) := List.foldl_append

/-- A byte depends on the memory before at the same address only. -/
theorem stores_congr {es : List Effect} {x : Nat} {m m' : Mem} (h : m x = m' x) :
    stores es m x = stores es m' x := by
  induction es generalizing m m' with
  | nil => exact h
  | cons e es ih =>
      rw [stores_cons, stores_cons]
      apply ih
      cases e with
      | pages op start stop => exact h
      | copy dst n src =>
          simp only [Effect.store, Mem.put]
          rw [h]

theorem stores_out {lo hi : Nat} {es : List Effect} (h : Within lo hi es) {m : Mem} {x : Nat}
    (hx : x < lo ∨ hi ≤ x) : stores es m x = m x := by
  induction es generalizing m with
  | nil => rfl
  | cons e es ih =>
      rw [stores_cons, ih fun f hf => h f (by simp [hf])]
      cases e with
      | pages op start stop => rfl
      | copy dst n src =>
          obtain ⟨h1, h2⟩ := h (.copy dst n src) (by simp)
          exact Mem.put_out (by omega)

/-- Loops that fill no page with zeros change no byte. -/
theorem mem_applyAll {es : List Effect} {x : Nat}
    (hes : ∀ op start stop, Effect.pages op start stop ∈ es → InPages start stop (x / 4096) →
      ∀ a, op.wipes a = false) (s : Machine) : (applyAll es s).mem x = stores es s.mem x := by
  induction es generalizing s with
  | nil => rfl
  | cons e es ih =>
      rw [applyAll_cons, stores_cons, ih fun op start stop he => hes op start stop (by simp [he])]
      apply stores_congr
      cases e with
      | copy dst n src => rfl
      | pages op start stop =>
          refine if_neg fun hc => ?_
          have hw := hes op start stop (by simp) ⟨hc.1, hc.2.1⟩ (s.p1 (x / 4096))
          rw [hw] at hc
          simp at hc

theorem Loop.noWipe {headers : List Phdr} {p : Nat} {op : PageOp} (h : Loop headers p op)
    (a : PTE) :
    op.wipes a = false := by
  cases h <;> rfl

/-! ### The groups -/

/-- The bytes of the file that a segment brings to memory. -/
def Phdr.Brings (ph : Phdr) (x : Nat) : Prop :=
  ph.type = 1 ∧ ph.vaddr.toNat ≤ x ∧ x < ph.vaddr.toNat + ph.filesz.toNat

instance (ph : Phdr) (x : Nat) : Decidable (ph.Brings x) :=
  inferInstanceAs (Decidable (_ ∧ _ ∧ _))

/-- The file byte of the last segment that covers the address. -/
def segmentByte (headers : List Phdr) (buf : Mem) (x : Nat) : Option UInt8 :=
  ((headers.filter fun ph => ph.Brings x).getLast?).map fun ph =>
    buf (ph.offset.toNat + (x - ph.vaddr.toNat))

theorem stores_segmentEffects (buf : Mem) (ph : Phdr) (m : Mem) (x : Nat) :
    stores (segmentEffects buf ph) m x
      = if ph.Brings x then buf (ph.offset.toNat + (x - ph.vaddr.toNat)) else m x := by
  unfold segmentEffects
  by_cases h : ph.type = 1 ∧ ph.filesz ≠ 0
  · rw [if_pos h]
    simp only [stores_cons, stores_nil, store_copy, store_pages, Mem.put, Phdr.Brings, h.1,
      true_and]
  · have hno : ¬ph.Brings x := by
      rintro ⟨ht, h1, h2⟩
      refine h ⟨ht, fun hc => ?_⟩
      rw [hc, UInt64.toNat_zero] at h2
      omega
    rw [if_neg h, if_neg hno, stores_nil]

theorem stores_segments (headers : List Phdr) (buf m : Mem) (x : Nat) :
    stores (headers.flatMap (segmentEffects buf)) m x
      = (segmentByte headers buf x).getD (m x) := by
  -- the last header decides
  induction headers using List.reverseRecOn with
  | nil => rfl
  | append_singleton headers ph ih =>
      rw [List.flatMap_append, stores_append, List.flatMap_singleton, stores_segmentEffects,
        segmentByte, List.filter_append]
      by_cases h : ph.Brings x
      · rw [if_pos h]
        simp [h]
      · rw [if_neg h, ih]
        simp [h, segmentByte]

/-- A copy of `size` bytes to the beginning of a region. -/
def regionByte (start : UInt64) (size : Nat) (src : Nat → UInt8) (x : Nat) : Option UInt8 :=
  if start.toNat ≤ x ∧ x < start.toNat + size then some (src (x - start.toNat)) else none

theorem put_eq_regionByte (start : UInt64) (size : Nat) (src : Nat → UInt8) (m : Mem) (x : Nat) :
    m.put start.toNat size src x = (regionByte start size src x).getD (m x) := by
  unfold Mem.put regionByte
  split <;> rfl

theorem stores_readonly (start stop : UInt64) (size : Nat) (src : Nat → UInt8) (m : Mem) (x : Nat) :
    stores (readonlyEffects start stop size src) m x
      = (regionByte start size src x).getD (m x) := put_eq_regionByte start size src m x

theorem stores_ob (r : Regions) (config : AppConfig) (m : Mem) (x : Nat) :
    stores (obEffects r config) m x
      = (if config.obNeedClear then none
          else regionByte r.obLoadVaddr config.obSize.toNat config.obPtr x).getD (m x) := by
  unfold obEffects
  cases config.obNeedClear with
  | true => rfl
  | false => exact put_eq_regionByte _ _ _ m x

/-- The stack where it ends up: what was pushed below the `DuckInfo`, moved down, and the bytes
that the move did not overwrite. -/
def movedStack (r : Regions) (stack : List UInt8) (infoSize : Nat) : List UInt8 :=
  stack.take (stack.length - infoSize)
    ++ stack.drop (stack.length - infoSize - (stackPointer r stack).toNat % 16)

theorem length_movedStack (r : Regions) {stack : List UInt8} {infoSize : Nat}
    (hinfo : infoSize + 16 ≤ stack.length) : (movedStack r stack infoSize).length
      = stack.length + (stackPointer r stack).toNat % 16 := by
  rw [movedStack, List.length_append, List.length_take, List.length_drop]
  omega

/-- Two lists stored one over the other, the second one starting earlier. -/
theorem putBytes_putBytes_below (m : Mem) (a d k : Nat) (bs : List UInt8) (hd : d ≤ k)
    (hk : k ≤ bs.length) :
    (m.putBytes (a + d) bs).putBytes a (bs.take k)
      = m.putBytes a (bs.take k ++ bs.drop (k - d)) := by
  have hlen : (bs.take k ++ bs.drop (k - d)).length = bs.length + d := by
    rw [List.length_append, List.length_take, List.length_drop]
    omega
  have htake : (bs.take k).length = k := by
    rw [List.length_take]
    omega
  funext x
  by_cases hx : a ≤ x ∧ x < a + (bs.length + d)
  · obtain ⟨i, rfl⟩ := Nat.exists_eq_add_of_le hx.1
    have hall : i < (bs.take k ++ bs.drop (k - d)).length := by omega
    rw [Mem.putBytes_add hall]
    by_cases hi : i < k
    · rw [Mem.putBytes_add (by omega), List.getElem_append_left (by omega)]
    · obtain ⟨j, rfl⟩ := Nat.exists_eq_add_of_le (show d ≤ i by omega)
      rw [Mem.putBytes_out (by omega), ← Nat.add_assoc, Mem.putBytes_add (by omega),
        List.getElem_append_right (by omega), List.getElem_drop]
      congr 1
      omega
  · rw [Mem.putBytes_out (by omega), Mem.putBytes_out (by omega), Mem.putBytes_out (by omega)]

theorem stores_stack (r : Regions) {stack : List UInt8} {infoSize : Nat}
    (hinfo : infoSize + 16 ≤ stack.length) (m : Mem) :
    stores (stackEffects r stack infoSize) m
      = m.putBytes (alignedStackPointer r stack).toNat (movedStack r stack infoSize) := by
  have hmod : (stackPointer r stack % 16).toNat = (stackPointer r stack).toNat % 16 :=
    UInt64.toNat_mod _ _
  have hdown : (alignedStackPointer r stack).toNat = (stackPointer r stack).toNat / 16 * 16 :=
    roundDown_toNat _ _
  have hsum : (alignedStackPointer r stack).toNat + (stackPointer r stack).toNat % 16
      = (stackPointer r stack).toNat := by omega
  unfold stackEffects movedStack
  dsimp only
  by_cases h : stackPointer r stack % 16 ≠ 0
  · rw [if_pos h]
    simp only [List.cons_append, List.nil_append, stores_cons, stores_nil, store_copyBytes,
      store_pages]
    rw [← putBytes_putBytes_below m _ _ _ stack (by omega) (by omega), hsum]
  · rw [if_neg h]
    rw [not_not] at h
    have h0 : (stackPointer r stack).toNat % 16 = 0 := by rw [← hmod, h]; rfl
    simp only [List.cons_append, List.nil_append, stores_cons, stores_nil, store_copyBytes,
      store_pages]
    rw [h0, Nat.sub_zero, List.take_append_drop, ← hsum, h0, Nat.add_zero]

/-! ### All of them -/

/-- The byte that the request puts at an address, if it puts one there. -/
def placed (headers : List Phdr) (buf : Mem) (len : UInt32) (config : AppConfig) (l : Layout)
    (random : List UInt8) (stack : List UInt8) (x : Nat) : Option UInt8 :=
  if x < l.loadVaddrBreak.toNat - 4096 then segmentByte headers buf x
  else if x < l.loadVaddrBreak.toNat then
    let rsp := l.loadVaddrBreak.toNat - stack.length
    if rsp ≤ x then stack[x - rsp]? else none
  else if x < l.stdinLoadBreak.toNat then
    regionByte l.stdinLoadVaddr config.stdinSize.toNat config.stdinPtr x
  else if x < l.stderrLoadBreak.toNat then none
  else if x < l.ibLoadBreak.toNat then
    regionByte l.ibLoadVaddr config.ibSize.toNat config.ibPtr x
  else if x < l.obLoadBreak.toNat then
    if config.obNeedClear then none
    else regionByte l.obLoadVaddr config.obSize.toNat config.obPtr x
  else if x < l.elfImageLoadBreak.toNat then
    regionByte l.elfImageLoadVaddr (min len.toNat 4096) buf x
  else regionByte l.randomBytesLoadVaddr random.length (fun i => random.getD i 0) x

theorem stores_segmentFlags (headers : List Phdr) (m : Mem) :
    stores (headers.flatMap segmentFlagEffects) m = m := by
  induction headers generalizing m with
  | nil => rfl
  | cons ph headers ih =>
      rw [List.flatMap_cons, stores_append, ih]
      unfold segmentFlagEffects
      split
      · dsimp only
        split <;> split <;> rfl
      · rfl

/-- A list stored below an address. -/
theorem putBytes_below_top (m : Mem) (top : Nat) (bs : List UInt8) {x : Nat} (hx : x < top) :
    m.putBytes (top - bs.length) bs x
      = (if top - bs.length ≤ x then bs[x - (top - bs.length)]? else none).getD (m x) := by
  by_cases hlow : top - bs.length ≤ x
  · obtain ⟨i, rfl⟩ := Nat.exists_eq_add_of_le hlow
    rw [if_pos hlow, Nat.add_sub_cancel_left, Mem.putBytes_add (by omega),
      List.getElem?_eq_getElem (by omega), Option.getD_some]
  · rw [if_neg hlow, Mem.putBytes_out (by omega)]
    rfl

section

variable {F : Format} {buf : Mem} {len : UInt32} {config : AppConfig} {vaddrBreak : UInt64}
  {l : Layout} {random : List Effect} {stack : List UInt8} {infoSize : Nat}

/-- The effects of the random page copy these bytes to its beginning; a 32-bit program has none. -/
def PlacesRandom (l : Layout) (random : List Effect) (bytes : List UInt8) : Prop :=
  ∀ m x, stores random m x
    = (regionByte l.randomBytesLoadVaddr bytes.length (fun i => bytes.getD i 0) x).getD (m x)

theorem placesRandom64 (l : Layout) : PlacesRandom l (randomBytesEffects l) randomBytes :=
  fun m x => stores_readonly _ _ _ _ m x

theorem placesRandom32 (l : Layout) : PlacesRandom l [] [] := by
  intro m x
  rw [regionByte, if_neg (by simp)]
  rfl

/-- Every byte is explained by the copies into its own region. -/
theorem Accepted.stores_loading (h : Accepted F buf len config vaddrBreak l random stack infoSize)
    {bytes : List UInt8} (hrandom : PlacesRandom l random bytes) (m : Mem) (x : Nat) :
    stores (loading (phdrs F buf l.ehdr) buf len config l random stack infoSize) m x
      = (placed (phdrs F buf l.ehdr) buf len config l bytes (movedStack l.toRegions stack infoSize)
          x).getD (m x) := by
  have hl := h.toLayoutOk
  have hspecial := h.special
  have himage := h.image
  have hroom := h.room
  obtain ⟨b1, b2, b3, b4, b5, b6⟩ := h.breaks_le
  obtain ⟨a1, -⟩ := h.breaks_aligned
  have hstack := within_stack hl h.stack_le h.info_le
  have hs := h.stack_le
  have hi := h.info_le
  rw [loading]
  simp only [stores_append, stores_segmentFlags, stores_cons, stores_nil, store_pages]
  unfold placed
  split
  · rw [stores_out hstack (by omega), stores_out h.within_random (by omega),
      stores_out (within_elfImage hl) (by omega), stores_out (within_ob hl) (by omega),
      stores_out (within_ib hl) (by omega), stores_out (within_stdin hl) (by omega),
      stores_segments]
  split
  · have hlen := length_movedStack l.toRegions h.info_le
    have hsp := stackPointer_toNat l.toRegions stack (by omega)
    have hasp := alignedStackPointer_toNat l.toRegions stack (by omega)
    have htop : (alignedStackPointer l.toRegions stack).toNat
        = l.loadVaddrBreak.toNat - (movedStack l.toRegions stack infoSize).length := by
      rw [hlen, hsp, hasp]
      omega
    rw [stores_stack _ h.info_le, htop, putBytes_below_top _ _ _ (by omega)]
    dsimp only
    congr 1
    rw [stores_out h.within_random (by omega),
      stores_out (within_elfImage hl) (by omega), stores_out (within_ob hl) (by omega),
      stores_out (within_ib hl) (by omega), stores_out (within_stdin hl) (by omega),
      stores_out (within_segments hl) (by omega)]
  split
  · rw [stores_out hstack (by omega), stores_out h.within_random (by omega),
      stores_out (within_elfImage hl) (by omega), stores_out (within_ob hl) (by omega),
      stores_out (within_ib hl) (by omega), stdinEffects, stores_readonly,
      stores_out (within_segments hl) (by omega)]
  split
  · rw [stores_out hstack (by omega), stores_out h.within_random (by omega),
      stores_out (within_elfImage hl) (by omega), stores_out (within_ob hl) (by omega),
      stores_out (within_ib hl) (by omega), stores_out (within_stdin hl) (by omega),
      stores_out (within_segments hl) (by omega)]
    rfl
  split
  · rw [stores_out hstack (by omega), stores_out h.within_random (by omega),
      stores_out (within_elfImage hl) (by omega), stores_out (within_ob hl) (by omega),
      ibEffects, stores_readonly, stores_out (within_stdin hl) (by omega),
      stores_out (within_segments hl) (by omega)]
  split
  · rw [stores_out hstack (by omega), stores_out h.within_random (by omega),
      stores_out (within_elfImage hl) (by omega), stores_ob, stores_out (within_ib hl) (by omega),
      stores_out (within_stdin hl) (by omega), stores_out (within_segments hl) (by omega)]
  split
  · rw [stores_out hstack (by omega), stores_out h.within_random (by omega), elfImageEffects,
      stores_readonly, stores_out (within_ob hl) (by omega), stores_out (within_ib hl) (by omega),
      stores_out (within_stdin hl) (by omega), stores_out (within_segments hl) (by omega)]
  · rw [stores_out hstack (by omega), hrandom _ x, stores_out (within_elfImage hl) (by omega),
      stores_out (within_ob hl) (by omega), stores_out (within_ib hl) (by omega),
      stores_out (within_stdin hl) (by omega), stores_out (within_segments hl) (by omega)]

/-- The page of the image holds the first page of the file. -/
theorem Accepted.mem_image (h : Accepted F buf len config vaddrBreak l random stack infoSize)
    {bytes : List UInt8} (hrandom : PlacesRandom l random bytes) (s : Machine) {i : Nat}
    (hi : i < min len.toNat 4096) :
    (applyAll (loading (phdrs F buf l.ehdr) buf len config l random stack infoSize) s).mem
        (l.elfImageLoadVaddr.toNat + i) = buf i := by
  have himage := h.image
  have haddr : l.elfImageLoadVaddr.toNat = l.obLoadBreak.toNat := rfl
  obtain ⟨b1, b2, b3, b4, b5, b6⟩ := h.breaks_le
  have hroom := h.room
  rw [mem_applyAll fun op start stop he hp => (h.loop_of_mem he hp).noWipe,
    h.stores_loading hrandom, placed, if_neg (by omega), if_neg (by omega), if_neg (by omega),
    if_neg (by omega), if_neg (by omega), if_neg (by omega), if_pos (by omega), regionByte,
    if_pos (by omega), Option.getD_some, Nat.add_sub_cancel_left]

end

end JudgeDuck.Elf
