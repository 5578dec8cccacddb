/-
`kern/duck_cache.cpp`: the content cache.

A cache lives in one block of kernel memory: four tables of `n_max_objects`
records each (the first digest words, the digests, the metadata, the scratch ids
of the sort) and then the page pool.  A page is a link word and 4088 bytes of
content; an object is a chain of pages and the free pages form another chain.
Everything is kept in the flat memory where the source keeps it, so a pointer
that is overwritten has the effect it has in the source.

`none` is a run that does not come back: a failed assert, or a copy loop whose
counter passes 2^64.
-/
import JudgeDuck.Base.Record
import JudgeDuck.Base.Search
import JudgeDuck.Base.Sort
import JudgeDuck.Model.Memory

namespace JudgeDuck

open Utils Memory

/-- `PAGE_SIZE - sizeof(uint64_t)`. -/
def onePageContentSize : UInt64 := pageSize - 8

structure Digest256 where
  a0 : UInt64
  a1 : UInt64
  a2 : UInt64
  a3 : UInt64
deriving DecidableEq

structure Metadata where
  lastUsedTsc : UInt64
  startAddr : UInt64
  len : UInt64
deriving DecidableEq

instance : Record Digest256 :=
  Record.ofEquiv (β := UInt64 × UInt64 × UInt64 × UInt64)
    { toFun := fun d => (d.a0, d.a1, d.a2, d.a3)
      invFun := fun w => ⟨w.1, w.2.1, w.2.2.1, w.2.2.2⟩
      left_inv := fun _ => rfl
      right_inv := fun _ => rfl }

instance : Record Metadata :=
  Record.ofEquiv (β := UInt64 × UInt64 × UInt64)
    { toFun := fun d => (d.lastUsedTsc, d.startAddr, d.len)
      invFun := fun w => ⟨w.1, w.2.1, w.2.2⟩
      left_inv := fun _ => rfl
      right_inv := fun _ => rfl }

/-! ### `digest_from_hex` -/

/-- The value of one character, `none` for a character that is no hexadecimal digit. -/
def hexDigit (c : UInt8) : Option UInt64 :=
  if 48 ≤ c ∧ c ≤ 57 then some (c.toUInt64 - 48)
  else if 97 ≤ c ∧ c ≤ 102 then some (c.toUInt64 - 97 + 10)
  else if 65 ≤ c ∧ c ≤ 70 then some (c.toUInt64 - 65 + 10)
  else none

/-- The 16 characters of one digest word, least significant digit first. -/
def wordFromHex (hex : Nat → UInt8) : Nat → Nat → UInt64 → Option UInt64
  | 0, _, sum => some sum
  | k + 1, i, sum =>
    match hexDigit (hex i) with
    | none => none
    | some val => wordFromHex hex k (i + 1) (sum ||| (val <<< UInt64.ofNat (i % 16 * 4)))

def digestFromHex (hex : Nat → UInt8) : Option Digest256 := do
  let a0 ← wordFromHex hex 16 0 0
  let a1 ← wordFromHex hex 16 16 0
  let a2 ← wordFromHex hex 16 32 0
  let a3 ← wordFromHex hex 16 48 0
  return ⟨a0, a1, a2, a3⟩

/-- The fields of `struct DuckCache`; the four tables and the list head are addresses. -/
structure DuckCache where
  cacheSize : Nat
  nMaxObjects : Nat
  nCurObjects : Nat
  freeListAddr : UInt64
  nFreePages : Nat
  nTotalPages : Nat
  objHash : Nat
  objDigest : Nat
  objMetadata : Nat
  sortIds : Nat
deriving DecidableEq

namespace DuckCache

/-- The next pointer of a page. -/
def nextPage (m : Mem) (addr : UInt64) : UInt64 := m.read64 addr.toNat

/-- `std::max((len + ONE_PAGE_CONTENT_SIZE - 1) / ONE_PAGE_CONTENT_SIZE, 1ul)`. -/
def nPages (len : UInt64) : Nat :=
  max ((len + onePageContentSize - 1) / onePageContentSize).toNat 1

/-! ### `DuckCache::init` -/

inductive InitError where
  | allocateFailed
  | tooSmall
deriving DecidableEq

/-- Link the pages from `cache` on; `fuel` bounds the pages before the last one. -/
def linkPages : Nat → Nat → Nat → Mem → Nat → Mem × Nat
  | 0, cache, _, m, n => (m.write64 cache 0, n + 1)
  | fuel + 1, cache, cacheEnd, m, n =>
    if cache + 4096 < cacheEnd then
      linkPages fuel (cache + 4096) cacheEnd (m.write64 cache (UInt64.ofNat (cache + 4096))) (n + 1)
    else (m.write64 cache 0, n + 1)

/-- `init` after the allocation: lay out the tables in the block at `objHash` and link the pages. -/
def initBlock (nMaxObjects cacheSize : UInt64) (m : Mem) (objHash : UInt64) :
    Except InitError (DuckCache × Mem × UInt64) :=
  let cacheEnd := objHash + cacheSize
  let objDigest := objHash + roundUp (nMaxObjects * 8) pageSize
  let objMetadata := objDigest + roundUp (nMaxObjects * 32) pageSize
  let sortIds := objMetadata + roundUp (nMaxObjects * 24) pageSize
  let cache := sortIds + roundUp (nMaxObjects * 8) pageSize
  if cache + pageSize ≥ cacheEnd then .error .tooSmall
  else
    let r := linkPages ((cacheEnd - cache).toNat / 4096) cache.toNat cacheEnd.toNat m 0
    .ok ({ cacheSize := cacheSize.toNat
           nMaxObjects := nMaxObjects.toNat
           nCurObjects := 0
           freeListAddr := cache
           nFreePages := r.2
           nTotalPages := r.2
           objHash := objHash.toNat
           objDigest := objDigest.toNat
           objMetadata := objMetadata.toNat
           sortIds := sortIds.toNat }, r.1, objHash)

/-- The cache, the memory and the new `vaddr_break`. -/
def init (nMaxObjects cacheSize : UInt64) (m : Mem) (vaddrBreak : UInt64) :
    Except InitError (DuckCache × Mem × UInt64) :=
  (allocateVirtualMemory vaddrBreak cacheSize).elim (.error .allocateFailed)
    (initBlock nMaxObjects cacheSize m)

/-- `obj_hash[i]`, `obj_digest[i]` and `obj_metadata[i]`. -/
def hashAt (c : DuckCache) (m : Mem) (i : Nat) : UInt64 := m.get UInt64 c.objHash i
def digestAt (c : DuckCache) (m : Mem) (i : Nat) : Digest256 := m.get Digest256 c.objDigest i
def metadataAt (c : DuckCache) (m : Mem) (i : Nat) : Metadata := m.get Metadata c.objMetadata i

/-! ### `DuckCache::find` -/

def cmpDigest (a b : Digest256) : Int :=
  if a.a0 < b.a0 then -1 else if a.a0 > b.a0 then 1
  else if a.a1 < b.a1 then -1 else if a.a1 > b.a1 then 1
  else if a.a2 < b.a2 then -1 else if a.a2 > b.a2 then 1
  else if a.a3 < b.a3 then -1 else if a.a3 > b.a3 then 1
  else 0

/-- `for (idx = idx1; idx < idx2; idx++)`, with `k` rounds to go. -/
def findLoop (c : DuckCache) (m : Mem) (digest : Digest256) : Nat → Nat → Bool × Nat
  | 0, idx => (false, idx)
  | k + 1, idx =>
    let r := cmpDigest (c.digestAt m idx) digest
    if r ≥ 0 then (r = 0, idx) else findLoop c m digest k (idx + 1)

/-- Whether the digest is cached, and `*lower_bound_index`. -/
def find (c : DuckCache) (m : Mem) (digest : Digest256) : Bool × Nat :=
  if c.nCurObjects = 0 then (false, 0)
  else
    let hash := digest.a0
    let idx1 := Search.partitionPoint (fun i => c.hashAt m i < hash) 0 c.nCurObjects
    let idx2 := Search.partitionPoint (fun i => ¬hash < c.hashAt m i) idx1 (c.nCurObjects - idx1)
    findLoop c m digest (idx2 - idx1) idx1

/-! ### The copy loops

`for (cur_len = 0; cur_len < len; cur_len += ONE_PAGE_CONTENT_SIZE)`: `rem` is
`len - cur_len`.  When the counter would pass 2^64 before it reaches `len` the loop
does not end (`endless`), which both callers test first.
-/

def endless (len : UInt64) : Bool :=
  2 ^ 64 ≤ (len.toNat + 4087) / 4088 * 4088

/-- From the chain at `addr` to `dst`. -/
def copyOut (m : Mem) (addr : UInt64) (dst rem : Nat) : Mem :=
  if rem = 0 then m
  else
    let m := m.memcpy dst (addr.toNat + 8) (min rem 4088)
    copyOut m (nextPage m addr) (dst + 4088) (rem - 4088)
termination_by rem

/-- From `src` to the chain at `addr`; also the address where the chain goes on. -/
def copyIn (m : Mem) (addr : UInt64) (src rem : Nat) : Mem × UInt64 :=
  if rem = 0 then (m, addr)
  else
    let m := m.memcpy (addr.toNat + 8) src (min rem 4088)
    copyIn m (nextPage m addr) (src + 4088) (rem - 4088)
termination_by rem

/-! ### `DuckCache::load` -/

/-- `tsc` is what `Timer::tsc_since_epoch` returns when it is called. -/
def load (c : DuckCache) (m : Mem) (digest : Digest256) (dst : Nat) (requiredLen tsc : UInt64) :
    Option (Bool × Mem) :=
  match c.find m digest with
  | (false, _) => some (false, m)
  | (true, idx) =>
    let metadata := c.metadataAt m idx
    if metadata.len ≠ requiredLen then some (false, m)
    else
      let m := m.set c.objMetadata idx { metadata with lastUsedTsc := tsc }
      if endless requiredLen then none
      else some (true, copyOut m metadata.startAddr dst requiredLen.toNat)

/-! ### Eviction -/

/-- `cmp_obj_metadata_time`. -/
def cmpObjMetadataTime (c : DuckCache) (m : Mem) (i j : Nat) : Bool :=
  (c.metadataAt m i).lastUsedTsc < (c.metadataAt m j).lastUsedTsc

/-- Store a list of ids into `sort_ids`, from slot `i` on. -/
def writeIds (c : DuckCache) : List Nat → Nat → Mem → Mem
  | [], _, m => m
  | id :: ids, i, m => writeIds c ids (i + 1) (m.set c.sortIds i (UInt64.ofNat id))

/-- What the removal loop carries: the memory, the head of the free list and the two counts. -/
structure Removal where
  mem : Mem
  freeListAddr : UInt64
  nRemovedPages : Nat
  nRemovedObjects : Nat

/-- One object: invalidate it and put its chain in front of the free list. -/
def removeObject (c : DuckCache) (id : Nat) (r : Removal) : Removal :=
  let metadata := c.metadataAt r.mem id
  let nPages := nPages metadata.len
  let m := r.mem.set c.objMetadata id { metadata with lastUsedTsc := 0 }
  let addr := (nextPage m)^[nPages - 1] metadata.startAddr
  { mem := m.write64 addr.toNat r.freeListAddr
    freeListAddr := metadata.startAddr
    nRemovedPages := r.nRemovedPages + nPages
    nRemovedObjects := r.nRemovedObjects + 1 }

/-- Not enough pages, or no room for one more object. -/
def stillNeedRemove (c : DuckCache) (nNeedPages : Nat) (r : Removal) : Bool :=
  nNeedPages > c.nFreePages + r.nRemovedPages ∨
    c.nCurObjects + 1 > c.nMaxObjects + r.nRemovedObjects

/-- The loop over the sorted ids. -/
def removeLoop (c : DuckCache) (nNeedPages : Nat) : List Nat → Removal → Removal
  | [], r => r
  | id :: ids, r =>
    let r := c.removeObject id r
    if c.stillNeedRemove nNeedPages r then removeLoop c nNeedPages ids r else r

/-- `obj_hash[j] = obj_hash[i]`, and the same for the digest and the metadata. -/
def moveObject (c : DuckCache) (m : Mem) (j i : Nat) : Mem :=
  let m := m.set c.objHash j (c.hashAt m i)
  let m := m.set c.objDigest j (c.digestAt m i)
  m.set c.objMetadata j (c.metadataAt m i)

/-- The defragmentation loop, with `k` rounds to go. -/
def defragLoop (c : DuckCache) : Nat → Nat → Nat → Mem → Mem
  | 0, _, _, m => m
  | k + 1, i, j, m =>
    if (c.metadataAt m i).lastUsedTsc = 0 then defragLoop c k (i + 1) j m
    else defragLoop c k (i + 1) (j + 1) (c.moveObject m j i)

/-- The `need_remove` branch of `store`, up to its assert. -/
def evict (S : StdSort) (c : DuckCache) (m : Mem) (nNeedPages : Nat) : DuckCache × Mem :=
  let m := c.writeIds (List.range c.nCurObjects) 0 m
  let ids := S.sort (c.cmpObjMetadataTime m) (List.range c.nCurObjects)
  let m := c.writeIds ids 0 m
  let r := c.removeLoop nNeedPages ids ⟨m, c.freeListAddr, 0, 0⟩
  let m := c.defragLoop c.nCurObjects 0 0 r.mem
  ({ c with
     freeListAddr := r.freeListAddr
     nCurObjects := c.nCurObjects - r.nRemovedObjects
     nFreePages := c.nFreePages + r.nRemovedPages }, m)

/-! ### `DuckCache::store` -/

/-- Open slot `idx` of the three tables. -/
def openSlots (c : DuckCache) (m : Mem) (idx : Nat) : Mem :=
  let m := m.openSlot UInt64 c.objHash c.nCurObjects idx
  let m := m.openSlot Digest256 c.objDigest c.nCurObjects idx
  m.openSlot Metadata c.objMetadata c.nCurObjects idx

/-- The insertion of a new object at slot `idx`. -/
def insert (c : DuckCache) (m : Mem) (idx : Nat) (digest : Digest256) (src : Nat)
    (len tsc : UInt64) : Option (DuckCache × Mem) :=
  let m := c.openSlots m idx
  let m := m.set c.objHash idx digest.a0
  let m := m.set c.objDigest idx digest
  let m := m.set c.objMetadata idx (Metadata.mk tsc c.freeListAddr len)
  if endless len then none
  else
    let (m, addr) := copyIn m c.freeListAddr src len.toNat
    let addr := if len = 0 then nextPage m addr else addr
    some ({ c with
            nCurObjects := c.nCurObjects + 1
            nFreePages := c.nFreePages - nPages len
            freeListAddr := addr }, m)

/-- Whether objects have to go before `n` pages can be taken. -/
def needRemove (c : DuckCache) (n : Nat) : Bool :=
  n > c.nFreePages ∨ c.nCurObjects + 1 > c.nMaxObjects

def store (S : StdSort) (c : DuckCache) (m : Mem) (digest : Digest256) (src : Nat)
    (len tsc : UInt64) : Option (Bool × DuckCache × Mem) :=
  match c.find m digest with
  | (true, _) => some (true, c, m)
  | (false, idx) =>
    let nNeedPages := nPages len
    if nNeedPages > c.nTotalPages then some (false, c, m)
    else if c.needRemove nNeedPages then
      let (c, m) := c.evict S m nNeedPages
      -- `assert(this->find(digest, &idx) == false)`
      match c.find m digest with
      | (true, _) => none
      | (false, idx) => (c.insert m idx digest src len tsc).map fun r => (true, r)
    else (c.insert m idx digest src len tsc).map fun r => (true, r)

end DuckCache

end JudgeDuck
