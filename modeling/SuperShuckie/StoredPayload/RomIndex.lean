import SuperShuckie.StoredPayload
import SuperShuckie.Lib.Checked
import SuperShuckie.Lib.Probing

/-!
# The index of ROM blocks

`RomIndex` says where the 64-byte blocks of some ROM ranges are, by content: an open-addressing table
from the upper half of a block's mixed hash to the block's number, behind a filter of one bit for
each hash.  Every step of `build` and of `find_copies` that may index out of bounds, overflow or not
end is an `Option` here, `none` being the panic (or the endless loop).

`RomIndex.Wf` is what the building keeps: every block the table names lies inside the ROM, and its
slots, its mask and its filter fit each other.  Over it:

* `RomIndex.build_eq_some`: an index is built from any disjoint ranges, with a free slot left;
* `RomIndex.findCopies_eq_some`: looking for copies ends without a panic, and the rolling hash makes
  it `findCopies` with the index as a lookup by content.
-/

set_option autoImplicit false

namespace SuperShuckie

open ByteFormat Checked

/-! ## Hashing -/

/-- 32-bit words in a block. -/
def blockWords : Nat := romBlock / 4

/-- Base of the polynomial hash over a block's 32-bit words. -/
def hashBase : UInt64 := 0x00000100000001B3

/-- `pow(base, exp)`. -/
def hashPow (base : UInt64) : Nat → UInt64
  | 0 => 1
  | exp + 1 => base * hashPow base exp

/-- The weight of the word leaving a rolling window. -/
def hashTop : UInt64 := hashPow hashBase (blockWords - 1)

/-- The word at byte `at` of `bytes`, if it is in bounds. -/
def hashWord? (bytes : Bytes) (start : Nat) : Option UInt64 :=
  (slice? bytes start 4).map fun w ↦ UInt64.ofNat (ofLeBytes w)

/-- The hash of a window with one more word: `h.wrapping_mul(HASH_BASE).wrapping_add(w)`. -/
def hashStep (h w : UInt64) : UInt64 := hashBase * h + w

/-- The hash of `words` words from byte `start` on, after words whose hash is `h`. -/
def hashWords? (bytes : Bytes) : Nat → Nat → UInt64 → Option UInt64
  | 0, _, h => some h
  | words + 1, start, h => do
    let w ← hashWord? bytes start
    hashWords? bytes words (start + 4) (hashStep h w)

/-- `block_hash(bytes, at)`. -/
def blockHash? (bytes : Bytes) (start : Nat) : Option UInt64 := hashWords? bytes blockWords start 0

/-- `mix(h)`. -/
def mixHash (h : UInt64) : UInt64 :=
  let x := (0x9E3779B97F4A7C15 : UInt64) * (h ^^^ (h >>> 31))
  x ^^^ (x >>> 29)

/-- The word at byte `start`, for a word in bounds. -/
def hashWord (bytes : Bytes) (start : Nat) : UInt64 :=
  UInt64.ofNat (ofLeBytes ((bytes.drop start).take 4))

/-- `hashWords?` where every word is in bounds. -/
def hashWords (bytes : Bytes) : Nat → Nat → UInt64 → UInt64
  | 0, _, h => h
  | words + 1, start, h => hashWords bytes words (start + 4) (hashStep h (hashWord bytes start))

variable {bytes : Bytes} {start words : Nat}

theorem hashWord?_eq_some (h : start + 4 ≤ bytes.length) :
    hashWord? bytes start = some (hashWord bytes start) := by
  rw [hashWord?, slice?, if_pos h]
  rfl

theorem hashWords_succ (seed : UInt64) : hashWords bytes (words + 1) start seed =
      hashWords bytes words (start + 4) (hashStep seed (hashWord bytes start)) := rfl

theorem hashWords?_eq_some (h : start + 4 * words ≤ bytes.length) (seed : UInt64) :
    hashWords? bytes words start seed = some (hashWords bytes words start seed) := by
  induction words generalizing start seed with
  | zero => rfl
  | succ words ih =>
    rw [hashWords?, hashWord?_eq_some (by omega), Option.bind_eq_bind, Option.bind_some,
      hashWords_succ]
    exact ih (by omega) (hashStep seed (hashWord bytes start))

theorem blockHash?_eq_some (h : start + romBlock ≤ bytes.length) :
    blockHash? bytes start = some (hashWords bytes blockWords start 0) :=
  hashWords?_eq_some h 0

/-- What a hash weighs the words before it with. -/
theorem hashWords_seed (seed : UInt64) : hashWords bytes words start seed =
      hashPow hashBase words * seed + hashWords bytes words start 0 := by
  induction words generalizing start seed with
  | zero =>
    show seed = 1 * seed + 0
    grind
  | succ words ih =>
    rw [hashWords_succ, hashWords_succ, ih, ih (hashStep 0 (hashWord bytes start)), hashPow,
      hashStep, hashStep]
    grind

theorem hashWords_snoc (seed : UInt64) : hashWords bytes (words + 1) start seed =
      hashStep (hashWords bytes words start seed) (hashWord bytes (start + 4 * words)) := by
  induction words generalizing start seed with
  | zero => rfl
  | succ words ih =>
    have hrest := @ih (start + 4) (hashStep seed (hashWord bytes start))
    rw [show start + 4 * (words + 1) = start + 4 + 4 * words by omega]
    exact hrest

/-- **Rolling the hash**: taking the leaving word out and the entering one in gives the hash of the
window four bytes further on. -/
theorem hashWords_roll :
    hashStep (hashWords bytes (words + 1) start 0 - hashPow hashBase words * hashWord bytes start)
        (hashWord bytes (start + 4 * (words + 1))) =
      hashWords bytes (words + 1) (start + 4) 0 := by
  have hstart : start + 4 * (words + 1) = start + 4 + 4 * words := by omega
  rw [hashWords_succ, hashWords_seed, hashWords_snoc, hstart, hashStep, hashStep, hashStep]
  grind

/-- Rolling the hash of a block. -/
theorem blockHash_roll :
    hashStep (hashWords bytes blockWords start 0 - hashTop * hashWord bytes start)
        (hashWord bytes (start + romBlock)) =
      hashWords bytes blockWords (start + 4) 0 := by
  have hwords : blockWords = blockWords - 1 + 1 := by decide
  have hblock : romBlock = 4 * (blockWords - 1 + 1) := by decide
  rw [hashTop, hblock, hwords]
  exact hashWords_roll

/-- The hash of a block looks at nothing but the block. -/
theorem hashWords_block : hashWords ((bytes.drop start).take romBlock) blockWords 0 0 =
      hashWords bytes blockWords start 0 := by
  have hword : ∀ i, i + 4 ≤ romBlock →
      hashWord ((bytes.drop start).take romBlock) i = hashWord bytes (start + i) := by
    intro i hi
    rw [hashWord, hashWord, List.drop_take, List.drop_drop, List.take_take,
      Nat.min_eq_left (by omega)]
  have hgo : ∀ words i seed, i + 4 * words ≤ romBlock →
      hashWords ((bytes.drop start).take romBlock) words i seed =
        hashWords bytes words (start + i) seed := by
    intro words
    induction words with
    | zero => intro i seed _; rfl
    | succ words ih =>
      intro i seed hi
      rw [hashWords_succ, hashWords_succ, ih (i + 4) _ (by omega), hword i (by omega),
        Nat.add_assoc]
  exact hgo blockWords 0 0 (by decide)

/-! ## The table -/

/-- Where the blocks of some ROM ranges are, by content. -/
structure RomIndex where
  /-- The upper 32 bits of each block's mixed hash (never 0; 0 is an empty slot). -/
  keys : List UInt32
  /-- Block number (ROM offset / `stride`). -/
  blocks : List UInt32
  mask : Nat
  stride : Nat
  filter : List UInt64
  filterShift : Nat
deriving DecidableEq

namespace RomIndex

/-- The key of a hash: its upper 32 bits, never 0. -/
def keyOf (hash : UInt64) : UInt32 := max (hash >>> 32).toUInt32 1

/-- The filter's word and bit of a hash. -/
def filterBit (index : RomIndex) (hash : UInt64) : Nat × UInt64 :=
  let bit := hash >>> UInt64.ofNat index.filterShift
  ((bit / 64).toNat, 1 <<< (bit % 64))

/-- Walk the table to the first slot that is empty or holds the key of `hash`. -/
def slotOf (index : RomIndex) (hash : UInt64) : Option Nat :=
  Probing.probe (fun k ↦ k = 0 ∨ k = keyOf hash) index.keys index.mask index.keys.length
    (hash.toNat &&& index.mask)

def insert (index : RomIndex) (hash : UInt64) (block : UInt32) : Option RomIndex := do
  let (word, bit) := index.filterBit hash
  let old ← index.filter[word]?
  let filter := index.filter.set word (old ||| bit)
  let slot ← index.slotOf hash
  let key ← index.keys[slot]?
  let _ ← index.blocks[slot]?
  if key = 0 then
    some { index with
      keys := index.keys.set slot (keyOf hash), blocks := index.blocks.set slot block, filter }
  else some { index with filter }

/-- The ROM offset of a block whose hash is `hash` (the bytes must still be compared). -/
def lookup (index : RomIndex) (hash : UInt64) : Option (Option Nat) := do
  let (word, bit) := index.filterBit hash
  let old ← index.filter[word]?
  if old &&& bit = 0 then some none
  else
    let slot ← index.slotOf hash
    let key ← index.keys[slot]?
    if key = 0 then some none
    else
      let block ← index.blocks[slot]?
      (Checked.mul block.toNat index.stride).map some

/-! ## Building -/

/-- Most blocks one index holds. -/
def maxIndexEntries : Nat := 8 * 2 ^ 20

/-- Where a range ends inside a ROM of `romLen` bytes: `start.saturating_add(len).min(rom_len)`. -/
def rangeEnd (romLen : Nat) (r : Nat × Nat) : Nat := min (min (r.1 + r.2) (2 ^ 64 - 1)) romLen

/-- `n.div_ceil(d)`. -/
def divCeil (n d : Nat) : Nat := (n + (d - 1)) / d

/-- The numbers of the blocks of a range. -/
def blocksOf (romLen stride : Nat) (r : Nat × Nat) : List Nat :=
  let stop := rangeEnd romLen r
  let last := (stop - romBlock) / stride + (if romBlock ≤ stop then 1 else 0)
  let first := divCeil r.1 stride
  List.range' first (max last first - first)

/-- Index one block, unless all its bytes are the same. -/
def indexBlock (rom : Bytes) (index : RomIndex) (block : Nat) : Option RomIndex := do
  let start ← Checked.mul block index.stride
  let bytes ← slice? rom start romBlock
  let first ← bytes[0]?
  if bytes.all (· == first) then some index
  else
    let hash ← blockHash? rom start
    index.insert (mixHash hash) (UInt32.ofNat block)

/-- The sum of numbers, none of the partial sums overflowing. -/
def sum? (ns : List Nat) : Option Nat := ns.foldlM Checked.add 0

def buildWithLimit (rom : Bytes) (ranges : List (Nat × Nat)) (maxEntries : Nat) :
    Option (Option RomIndex) := do
  let covered ← sum? (ranges.map fun r ↦ rangeEnd rom.length r - r.1)
  let unit ← Checked.mul romBlock maxEntries
  let factor ← Checked.nextPowerOfTwo (max (divCeil covered unit) 1)
  let stride ← Checked.mul romBlock factor
  -- block numbers are 32-bit
  if 2 ^ 32 - 1 < rom.length / stride then some none
  else
    let count ← sum? (ranges.map fun r ↦ (blocksOf rom.length stride r).length)
    if count = 0 then some none
    else
      let slots ← (Checked.mul count 2).bind Checked.nextPowerOfTwo
      let filterBits ← (Checked.mul count 8).bind Checked.nextPowerOfTwo
      let filterBits := min (max filterBits (2 ^ 16)) (2 ^ 27)
      let index : RomIndex :=
        { keys := List.replicate slots 0
          blocks := List.replicate slots 0
          mask := slots - 1
          stride
          filter := List.replicate (filterBits / 64) 0
          -- the trailing zeros of a power of two are its logarithm
          filterShift := 64 - Nat.log2 filterBits }
      ((ranges.flatMap (blocksOf rom.length stride)).foldlM (indexBlock rom) index).map some

/-- Index the blocks of merged ranges of `rom`; `some none` when there is nothing to index. -/
def build (rom : Bytes) (ranges : List (Nat × Nat)) : Option (Option RomIndex) :=
  buildWithLimit rom ranges maxIndexEntries

/-! ## Looking for copies -/

/-- Move the start of a copy back over equal bytes, not before `floor`. -/
def growBack? (rom data : Bytes) (floor : Nat) : Nat → Nat → Option (Nat × Nat)
  | start + 1, romStart + 1 =>
    if floor ≤ start then do
      let a ← data[start]?
      let b ← rom[romStart]?
      if a = b then growBack? rom data floor start romStart else some (start + 1, romStart + 1)
    else some (start + 1, romStart + 1)
  | start, romStart => some (start, romStart)

/-- Probe `data` at `i`, the hash of whose block is `h`, and at every fourth byte after it; `floor` is
where the previous copy ended. -/
def findGo (index : RomIndex) (rom data : Bytes) :
    Nat → Nat → Nat → UInt64 → Option (List RomCopy)
  | 0, _, _, _ => none
  | fuel + 1, floor, i, h => do
    let last := data.length - romBlock
    let found ← index.lookup (mixHash h)
    let same ← match found with
      | none => some none
      | some romAt => do
        let romBytes ← slice? rom romAt romBlock
        let block ← slice? data i romBlock
        some (if romBytes = block then some romAt else none)
    match same with
    | some romAt =>
      let (start, romStart) ← growBack? rom data floor i romAt
      let stop := i + romBlock + commonPrefix (data.drop (i + romBlock)) (rom.drop (romAt + romBlock))
      let copy := ⟨start, romStart, stop - start⟩
      let next := nextMultipleOf4 stop
      if last < next then some [copy]
      else
        let h ← blockHash? data next
        (findGo index rom data fuel stop next h).map (copy :: ·)
    | none =>
      if last < i + 4 then some []
      else
        let leaving ← hashWord? data i
        let entering ← hashWord? data (i + romBlock)
        findGo index rom data fuel floor (i + 4) (hashStep (h - hashTop * leaving) entering)

/-- The copies of ROM bytes in `data`, longest possible, sorted and not overlapping. -/
def findCopies (index : RomIndex) (rom data : Bytes) : Option (List RomCopy) :=
  if data.length < romBlock then some []
  else do
    let h ← blockHash? data 0
    index.findGo rom data data.length 0 0 h

/-- What the index answers for the content of a block. -/
def ofBlock (index : RomIndex) (block : Bytes) : Option Nat :=
  ((blockHash? block 0).bind fun h ↦ index.lookup (mixHash h)).join

/-! ## What the building keeps -/

/-- The parts of an index fit each other, and the blocks it names lie inside a ROM of `romLen`
bytes. -/
structure Wf (index : RomIndex) (romLen : Nat) : Prop where
  slots : ∃ k, index.mask + 1 = 2 ^ k ∧ index.keys.length = 2 ^ k
  blocks : index.blocks.length = index.keys.length
  filter : ∃ f, 6 ≤ f ∧ f < 64 ∧ index.filterShift = 64 - f ∧ index.filter.length * 64 = 2 ^ f
  inRom : ∀ (i : Nat) (key block : UInt32), index.keys[i]? = some key → key ≠ 0 →
    index.blocks[i]? = some block → block.toNat * index.stride + romBlock ≤ romLen

variable {index : RomIndex} {romLen : Nat}

theorem Wf.filterBit_lt (hwf : index.Wf romLen) (hash : UInt64) :
    (index.filterBit hash).1 < index.filter.length := by
  obtain ⟨f, hf, hf64, hshift, hlen⟩ := hwf.filter
  have hsplit : 2 ^ (64 - f) * 2 ^ f = 2 ^ 64 := by rw [← Nat.pow_add]; congr 1; omega
  have hmod : (UInt64.ofNat (64 - f)).toNat % 64 = 64 - f := by
    rw [UInt64.toNat_ofNat_of_lt' (by rw [UInt64.size]; omega)]
    omega
  have hbit : hash.toNat / 2 ^ (64 - f) < 2 ^ f := by
    rw [Nat.div_lt_iff_lt_mul (Nat.two_pow_pos _), Nat.mul_comm, hsplit]
    exact hash.toNat_lt
  show (hash >>> UInt64.ofNat index.filterShift / 64).toNat < index.filter.length
  rw [hshift, UInt64.toNat_div, UInt64.toNat_shiftRight, hmod, Nat.shiftRight_eq_div_pow]
  show hash.toNat / 2 ^ (64 - f) / 64 < index.filter.length
  omega

/-- A walk of a table with an empty slot ends at one that is empty or holds the key. -/
theorem Wf.slotOf_eq_some (hwf : index.Wf romLen) (hroom : 0 < index.keys.count 0) (hash : UInt64) :
    ∃ slot key, index.slotOf hash = some slot ∧ index.keys[slot]? = some key ∧
      (key = 0 ∨ key = keyOf hash) := by
  obtain ⟨k, hmask, hlen⟩ := hwf.slots
  obtain ⟨slot, key, hslot, hkey, hstop⟩ :=
    Probing.probe_eq_some (p := fun a ↦ decide (a = 0 ∨ a = keyOf hash)) hmask hlen
      (Probing.and_mask_lt hmask hash.toNat) ⟨0, List.count_pos_iff.1 hroom, by simp⟩
  exact ⟨slot, key, hslot, hkey, by simpa using hstop⟩

/-- **Looking a hash up ends** without a panic, and answers with a block inside the ROM. -/
theorem Wf.lookup_eq_some (hwf : index.Wf romLen) (hroom : 0 < index.keys.count 0)
    (hrom : romLen < 2 ^ 63) (hash : UInt64) :
    ∃ found, index.lookup hash = some found ∧
      ∀ romAt, found = some romAt → romAt + romBlock ≤ romLen := by
  obtain ⟨slot, key, hslot, hkey, -⟩ := hwf.slotOf_eq_some hroom hash
  have hfilter := List.getElem?_eq_getElem (hwf.filterBit_lt hash)
  simp only [lookup, hfilter, hslot, hkey, Option.bind_eq_bind, Option.bind_some]
  split_ifs with hbit hempty
  · exact ⟨none, rfl, by simp⟩
  · exact ⟨none, rfl, by simp⟩
  · have hlt : slot < index.blocks.length := by
      rw [hwf.blocks]
      exact (List.getElem?_eq_some_iff.1 hkey).1
    have hblock := List.getElem?_eq_getElem hlt
    have hin := hwf.inRom slot key _ hkey hempty hblock
    rw [hblock, Option.bind_some, mul_of_lt (by omega)]
    exact ⟨some _, rfl, by rintro _ ⟨⟩; exact hin⟩

/-- **Inserting a block ends** and takes at most one empty slot. -/
theorem Wf.insert_eq_some (hwf : index.Wf romLen) (hroom : 0 < index.keys.count 0) (hash : UInt64)
    {block : UInt32} (hblock : block.toNat * index.stride + romBlock ≤ romLen) :
    ∃ index', index.insert hash block = some index' ∧ index'.Wf romLen ∧
      index'.stride = index.stride ∧ index.keys.count 0 ≤ index'.keys.count 0 + 1 := by
  obtain ⟨slot, key, hslot, hkey, -⟩ := hwf.slotOf_eq_some hroom hash
  have hlt : slot < index.keys.length := (List.getElem?_eq_some_iff.1 hkey).1
  have hfilter := List.getElem?_eq_getElem (hwf.filterBit_lt hash)
  have hold := List.getElem?_eq_getElem (hwf.blocks.symm ▸ hlt : slot < index.blocks.length)
  simp only [insert, hfilter, hslot, hkey, hold, Option.bind_eq_bind, Option.bind_some]
  split_ifs with hempty
  · refine ⟨_, rfl, ⟨?_, ?_, ?_, ?_⟩, rfl, ?_⟩
    · simpa using hwf.slots
    · simpa using hwf.blocks
    · simpa using hwf.filter
    · intro i key' block' hk hne hb
      by_cases hi : slot = i
      · subst hi
        rw [List.getElem?_set_self (hwf.blocks.symm ▸ hlt), Option.some.injEq] at hb
        exact hb ▸ hblock
      · rw [List.getElem?_set_ne hi] at hk hb
        exact hwf.inRom i key' block' hk hne hb
    · rw [List.count_set hlt]
      split_ifs <;> omega
  · exact ⟨_, rfl, ⟨hwf.slots, hwf.blocks, by simpa using hwf.filter, hwf.inRom⟩, rfl,
      Nat.le_succ _⟩

/-! ## Building ends -/

variable {rom : Bytes} {ranges : List (Nat × Nat)}

/-- **Indexing one block ends** and takes at most one empty slot. -/
theorem Wf.indexBlock_eq_some (hwf : index.Wf rom.length) (hroom : 0 < index.keys.count 0)
    (hrom : rom.length < 2 ^ 63) {block : Nat}
    (hblock : block * index.stride + romBlock ≤ rom.length) :
    ∃ index', indexBlock rom index block = some index' ∧ index'.Wf rom.length ∧
      index'.stride = index.stride ∧ index.keys.count 0 ≤ index'.keys.count 0 + 1 := by
  have hfirst : ((rom.drop (block * index.stride)).take romBlock)[0]? = rom[block * index.stride]? := by
    rw [List.getElem?_take_of_lt (by decide), List.getElem?_drop]
    rfl
  have hlt : block * index.stride < rom.length := Nat.lt_of_lt_of_le (Nat.lt_add_of_pos_right (by decide)) hblock
  rw [indexBlock, mul_of_lt (by omega)]
  simp only [Option.bind_eq_bind, Option.bind_some, slice?, if_pos hblock, hfirst,
    List.getElem?_eq_getElem hlt]
  split_ifs
  · exact ⟨index, rfl, hwf, rfl, Nat.le_succ _⟩
  · rw [blockHash?_eq_some hblock, Option.bind_some]
    refine hwf.insert_eq_some hroom _ (Nat.le_trans (Nat.add_le_add_right ?_ _) hblock)
    exact Nat.mul_le_mul_right _ (by rw [UInt32.toNat_ofNat']; exact Nat.mod_le _ _)

/-- **Indexing blocks ends**, one empty slot being enough for each and one more for the walks. -/
theorem Wf.indexBlocks_eq_some {rom : Bytes} (hrom : rom.length < 2 ^ 63) {blocks : List Nat}
    {index : RomIndex} (hwf : index.Wf rom.length) (hroom : blocks.length < index.keys.count 0)
    (hblocks : ∀ b ∈ blocks, b * index.stride + romBlock ≤ rom.length) :
    ∃ index', blocks.foldlM (indexBlock rom) index = some index' ∧ index'.Wf rom.length ∧
      0 < index'.keys.count 0 := by
  induction blocks generalizing index with
  | nil => exact ⟨index, rfl, hwf, hroom⟩
  | cons b blocks ih =>
    rw [List.length_cons] at hroom
    obtain ⟨next, hnext, hwf', hstride, hcount⟩ :=
      hwf.indexBlock_eq_some (by omega) hrom (hblocks b List.mem_cons_self)
    rw [List.foldlM_cons, hnext]
    exact ih hwf' (by omega) fun b' hb' ↦ hstride ▸ hblocks b' (List.mem_cons_of_mem _ hb')

theorem sum?_eq_some {ns : List Nat} (h : ns.sum < 2 ^ 64) : sum? ns = some ns.sum := by
  have hgo : ∀ acc, acc + ns.sum < 2 ^ 64 → ns.foldlM add acc = some (acc + ns.sum) := by
    clear h
    induction ns with
    | nil => intro acc _; rfl
    | cons n ns ih =>
      intro acc hacc
      rw [List.sum_cons] at hacc
      rw [List.foldlM_cons, add_of_lt (by omega), List.sum_cons, ← Nat.add_assoc]
      exact ih (acc + n) (by omega)
  have hsum := hgo 0 (by omega)
  rwa [Nat.zero_add] at hsum

/-- The blocks of a range lie inside the range and inside the ROM. -/
theorem mem_blocksOf {romLen stride block : Nat} {r : Nat × Nat} (hstride : 0 < stride)
    (h : block ∈ blocksOf romLen stride r) :
    r.1 ≤ block * stride ∧ block * stride + romBlock ≤ rangeEnd romLen r := by
  simp only [blocksOf, List.mem_range'_1] at h
  obtain ⟨hfirst, hlast⟩ := h
  constructor
  · have hceil : r.1 + (stride - 1) < (block + 1) * stride := by
      rw [← Nat.div_lt_iff_lt_mul hstride]
      exact Nat.lt_succ_of_le hfirst
    rw [Nat.succ_mul] at hceil
    omega
  · split_ifs at hlast with hstop
    · have hle : block ≤ (rangeEnd romLen r - romBlock) / stride := by omega
      have hmul := (Nat.le_div_iff_mul_le hstride).1 hle
      omega
    · have hzero : (rangeEnd romLen r - romBlock) / stride = 0 := by
        rw [Nat.sub_eq_zero_of_le (by omega), Nat.zero_div]
      rw [hzero] at hlast
      omega

/-- A range has no more blocks than fit in it. -/
theorem length_blocksOf {romLen stride : Nat} {r : Nat × Nat} (hstride : romBlock ≤ stride) :
    romBlock * (blocksOf romLen stride r).length ≤ rangeEnd romLen r - r.1 := by
  obtain hnil | ⟨n, hlen⟩ : (blocksOf romLen stride r).length = 0 ∨
      ∃ n, (blocksOf romLen stride r).length = n + 1 := by
    cases (blocksOf romLen stride r).length with
    | zero => exact Or.inl rfl
    | succ n => exact Or.inr ⟨n, rfl⟩
  · rw [hnil]
    exact Nat.zero_le _
  · have hpos : 0 < stride := Nat.lt_of_lt_of_le (by decide) hstride
    have hlen' : max ((rangeEnd romLen r - romBlock) / stride +
        if romBlock ≤ rangeEnd romLen r then 1 else 0) (divCeil r.1 stride) -
          divCeil r.1 stride = n + 1 := by
      rw [← hlen, blocksOf, List.length_range']
    have hfirst : divCeil r.1 stride ∈ blocksOf romLen stride r := by
      rw [blocksOf, List.mem_range'_1]
      omega
    have hlast : divCeil r.1 stride + n ∈ blocksOf romLen stride r := by
      rw [blocksOf, List.mem_range'_1]
      omega
    have hlow := (mem_blocksOf hpos hfirst).1
    have hhigh := (mem_blocksOf hpos hlast).2
    have hgap : romBlock * n ≤ n * stride := by
      rw [Nat.mul_comm]
      exact Nat.mul_le_mul_left n hstride
    rw [Nat.add_mul] at hhigh
    rw [hlen, Nat.mul_succ]
    omega

/-- Ranges in order, with a gap between each two. -/
abbrev Apart (ranges : List (Nat × Nat)) : Prop := ranges.Pairwise fun a b ↦ a.1 + a.2 < b.1

/-- Ranges with gaps between them cover no more than the ROM. -/
theorem sum_covered_le {romLen : Nat} (h : Apart ranges) {low : Nat}
    (hlow : ∀ r ∈ ranges, low ≤ r.1) :
    (ranges.map fun r ↦ rangeEnd romLen r - r.1).sum ≤ romLen - low := by
  induction ranges generalizing low with
  | nil => exact Nat.zero_le _
  | cons r ranges ih =>
    obtain ⟨hr, hrest⟩ := List.pairwise_cons.1 h
    have hsum := @ih hrest (r.1 + r.2) fun r' hr' ↦ Nat.le_of_lt (hr r' hr')
    have hstart := hlow r List.mem_cons_self
    have hend : rangeEnd romLen r ≤ min (r.1 + r.2) romLen := by rw [rangeEnd]; omega
    rw [List.map_cons, List.sum_cons]
    omega

/-- The blocks of all ranges are no more than fit in what the ranges cover. -/
theorem sum_blocks_le {romLen stride : Nat} (hstride : romBlock ≤ stride) (ranges : List (Nat × Nat)) :
    romBlock * (ranges.map fun r ↦ (blocksOf romLen stride r).length).sum ≤
      (ranges.map fun r ↦ rangeEnd romLen r - r.1).sum := by
  induction ranges with
  | nil => exact Nat.le_refl _
  | cons r ranges ih =>
    rw [List.map_cons, List.sum_cons, List.map_cons, List.sum_cons, Nat.mul_add]
    exact Nat.add_le_add (length_blocksOf hstride) ih

/-- The index before its first block. -/
theorem wf_empty {slots filterBits stride romLen : Nat} (hslots : ∃ k, slots = 2 ^ k)
    (hfilter : ∃ f, filterBits = 2 ^ f ∧ 6 ≤ f ∧ f < 64) :
    (RomIndex.mk (List.replicate slots 0) (List.replicate slots 0) (slots - 1) stride
      (List.replicate (filterBits / 64) 0) (64 - Nat.log2 filterBits)).Wf romLen := by
  obtain ⟨k, rfl⟩ := hslots
  obtain ⟨f, rfl, hf, hf64⟩ := hfilter
  refine ⟨⟨k, ?_, List.length_replicate⟩, ?_, ⟨f, hf, hf64, by rw [Nat.log2_two_pow], ?_⟩, ?_⟩
  · exact Nat.sub_add_cancel Nat.one_le_two_pow
  · rw [List.length_replicate]
  · have hsplit : 2 ^ f = 2 ^ (f - 6) * 64 := by
      rw [show (64 : Nat) = 2 ^ 6 by decide, ← Nat.pow_add]
      congr 1
      omega
    rw [List.length_replicate, hsplit, Nat.mul_div_cancel _ (by decide)]
  · intro i key block hkey hne
    rw [List.getElem?_replicate] at hkey
    split_ifs at hkey
    exact absurd (Option.some.inj hkey).symm hne

/-- The size of a filter is a power of two between the bounds. -/
theorem clamp_two_pow (j : Nat) :
    ∃ f, min (max (2 ^ j) (2 ^ 16)) (2 ^ 27) = 2 ^ f ∧ 6 ≤ f ∧ f < 64 := by
  have hmono : Monotone fun n : Nat ↦ 2 ^ n := fun a b h ↦ Nat.pow_le_pow_right (by decide) h
  refine ⟨min (max j 16) 27, ?_, by omega, by omega⟩
  exact ((hmono.map_min (a := max j 16) (b := 27)).trans
    (congrArg (min · (2 ^ 27)) (hmono.map_max (a := j) (b := 16)))).symm

/-- **Building an index ends** for ranges with gaps between them, and leaves an empty slot. -/
theorem buildWithLimit_eq_some {maxEntries : Nat} (hrom : rom.length < 2 ^ 63)
    (hapart : Apart ranges) (hpos : 0 < maxEntries) (hmax : maxEntries < 2 ^ 58) :
    ∃ found, buildWithLimit rom ranges maxEntries = some found ∧
      ∀ index, found = some index → index.Wf rom.length ∧ 0 < index.keys.count 0 := by
  have hcovered : (ranges.map fun r ↦ rangeEnd rom.length r - r.1).sum ≤ rom.length :=
    sum_covered_le hapart fun r _ ↦ Nat.zero_le r.1
  have hcount : ∀ stride, romBlock ≤ stride →
      romBlock * (ranges.map fun r ↦ (blocksOf rom.length stride r).length).sum ≤ rom.length :=
    fun stride hstride ↦ (sum_blocks_le hstride ranges).trans hcovered
  rw [buildWithLimit, sum?_eq_some (by omega)]
  generalize (ranges.map fun r ↦ rangeEnd rom.length r - r.1).sum = covered at hcovered
  have hunit : romBlock * maxEntries < 2 ^ 64 := by rw [romBlock]; omega
  have hfactor : max (divCeil covered (romBlock * maxEntries)) 1 ≤ 2 ^ 57 := by
    have hceil : divCeil covered (romBlock * maxEntries) < 2 ^ 57 + 1 := by
      rw [divCeil, Nat.div_lt_iff_lt_mul (by rw [romBlock]; omega), romBlock]
      omega
    omega
  have hpow := powerOfTwoFrom_le hfactor
  have hone := le_powerOfTwoFrom (max (divCeil covered (romBlock * maxEntries)) 1)
  simp only [Option.bind_eq_bind, Option.bind_some, mul_of_lt hunit,
    nextPowerOfTwo_of_le (hfactor.trans (by decide))]
  generalize powerOfTwoFrom (max (divCeil covered (romBlock * maxEntries)) 1) = factor
    at hpow hone
  have hstride : romBlock ≤ romBlock * factor := Nat.le_mul_of_pos_right _ (by omega)
  rw [mul_of_lt (by rw [romBlock]; omega), Option.bind_some]
  generalize romBlock * factor = stride at hstride
  split_ifs with hblocks
  · exact ⟨none, rfl, by simp⟩
  have hsum := hcount stride hstride
  rw [sum?_eq_some (by rw [romBlock] at hsum; omega), Option.bind_some]
  have hlen : (ranges.flatMap (blocksOf rom.length stride)).length =
      (ranges.map fun r ↦ (blocksOf rom.length stride r).length).sum := List.length_flatMap
  generalize (ranges.map fun r ↦ (blocksOf rom.length stride r).length).sum = count at hsum hlen
  split_ifs with hnone
  · exact ⟨none, rfl, by simp⟩
  rw [romBlock] at hsum
  rw [mul_of_lt (by omega), mul_of_lt (by omega), Option.bind_some,
    Option.bind_some, nextPowerOfTwo_of_le (by omega),
    nextPowerOfTwo_of_le (by omega), Option.bind_some, Option.bind_some]
  have hslots := le_powerOfTwoFrom (count * 2)
  obtain ⟨j, hj⟩ := exists_powerOfTwoFrom (count * 8)
  have hempty := @wf_empty _ _ stride rom.length
    (exists_powerOfTwoFrom (count * 2)) (hj ▸ clamp_two_pow j)
  obtain ⟨index, hindex, hwf, hroom⟩ := @Wf.indexBlocks_eq_some rom hrom
    (ranges.flatMap (blocksOf rom.length stride)) _ hempty
    (by
      show _ < (List.replicate (powerOfTwoFrom (count * 2)) (0 : UInt32)).count 0
      rw [List.count_replicate_self]
      omega)
    (by
      intro block hblock
      obtain ⟨r, -, hr⟩ := List.mem_flatMap.1 hblock
      have hin := (mem_blocksOf (Nat.lt_of_lt_of_le (by decide) hstride) hr).2
      exact hin.trans (by rw [rangeEnd]; omega))
  rw [hindex]
  exact ⟨some index, rfl, by rintro _ ⟨⟩; exact ⟨hwf, hroom⟩⟩

/-- **Building an index ends** for ranges with gaps between them. -/
theorem build_eq_some (hrom : rom.length < 2 ^ 63) (hapart : Apart ranges) :
    ∃ found, build rom ranges = some found ∧
      ∀ index, found = some index → index.Wf rom.length ∧ 0 < index.keys.count 0 :=
  buildWithLimit_eq_some hrom hapart (by decide) (by decide)

/-! ## Looking for copies ends -/

theorem growBack?_eq_some {rom data : Bytes} {floor start romStart : Nat}
    (hstart : start ≤ data.length) (hrom : romStart ≤ rom.length) :
    growBack? rom data floor start romStart = some (growBack rom data floor start romStart) := by
  induction start generalizing romStart with
  | zero =>
    rw [growBack?, growBack]
    · intro _ _ h; exact absurd h (by simp)
    · intro _ _ h; exact absurd h (by simp)
  | succ start ih =>
    cases romStart with
    | zero =>
      rw [growBack?, growBack]
      · intro _ _ _ h; exact absurd h (by simp)
      · intro _ _ _ h; exact absurd h (by simp)
    | succ romStart =>
      have ha : data[start]? = some data[start] := List.getElem?_eq_getElem hstart
      have hb : rom[romStart]? = some rom[romStart] := List.getElem?_eq_getElem hrom
      rw [growBack?, growBack, ha, hb]
      simp only [Option.bind_eq_bind, Option.bind_some, Option.some.injEq]
      by_cases hfloor : floor ≤ start
      · by_cases heq : data[start] = rom[romStart]
        · rw [if_pos hfloor, if_pos heq, if_pos ⟨hfloor, heq⟩]
          exact ih (by omega) (by omega)
        · rw [if_pos hfloor, if_neg heq, if_neg (fun h ↦ heq h.2)]
      · rw [if_neg hfloor, if_neg (fun h ↦ hfloor h.1)]

/-- What the index answers for a block of `data`, whose hash is at hand. -/
theorem ofBlock_eq {data : Bytes} {i : Nat} (hi : i + romBlock ≤ data.length) {found : Option Nat}
    (h : index.lookup (mixHash (hashWords data blockWords i 0)) = some found) :
    index.ofBlock ((data.drop i).take romBlock) = found := by
  have hlen : ((data.drop i).take romBlock).length = romBlock := by
    rw [List.length_take, List.length_drop]
    omega
  rw [ofBlock, blockHash?_eq_some (by omega), hashWords_block, Option.bind_some, h]
  rfl

/-- The loop of `find_copies` from `i` on, when `h` is the hash of the block there. -/
theorem Wf.findGo_eq_some {data : Bytes} (hwf : index.Wf rom.length)
    (hroom : 0 < index.keys.count 0) (hrom : rom.length < 2 ^ 63) {fuel floor i : Nat}
    (hi : i + romBlock ≤ data.length) (hfuel : data.length ≤ fuel + i) :
    index.findGo rom data fuel floor i (hashWords data blockWords i 0) =
      some (findCopiesGo index.ofBlock rom data fuel floor i) := by
  induction fuel generalizing floor i with
  | zero => rw [romBlock] at hi; omega
  | succ fuel ih =>
    obtain ⟨found, hfound, hin⟩ :=
      hwf.lookup_eq_some hroom hrom (mixHash (hashWords data blockWords i 0))
    have hblock : slice? data i romBlock = some ((data.drop i).take romBlock) := if_pos hi
    have hstep : ∀ n, ¬ data.length - romBlock < n → n + romBlock ≤ data.length := by
      intro n hn
      omega
    rw [findGo, findCopiesGo, hfound, ofBlock_eq hi hfound]
    -- the hash at the next place is the rolled one, or is taken anew after a copy
    have hmiss : (if data.length - romBlock < i + 4 then some []
        else do
          let leaving ← hashWord? data i
          let entering ← hashWord? data (i + romBlock)
          findGo index rom data fuel floor (i + 4)
            (hashStep (hashWords data blockWords i 0 - hashTop * leaving) entering)) =
        some (if data.length - romBlock < i + 4 then []
          else findCopiesGo index.ofBlock rom data fuel floor (i + 4)) := by
      split_ifs with hlast
      · rfl
      · have hnext := hstep (i + 4) hlast
        rw [hashWord?_eq_some (by omega), hashWord?_eq_some (by omega), Option.bind_eq_bind,
          Option.bind_some, Option.bind_some, blockHash_roll]
        exact ih hnext (by omega)
    cases found with
    | none => exact hmiss
    | some romAt =>
      have hromBytes : slice? rom romAt romBlock = some ((rom.drop romAt).take romBlock) :=
        if_pos (hin romAt rfl)
      have hback : growBack? rom data floor i romAt = some (growBack rom data floor i romAt) :=
        growBack?_eq_some (by omega) (by have := hin romAt rfl; omega)
      by_cases hsame : (rom.drop romAt).take romBlock = (data.drop i).take romBlock
      · simp only [Option.bind_eq_bind, Option.bind_some, hblock, hromBytes, Option.some.injEq,
          if_pos hsame, hback]
        generalize commonPrefix (data.drop (i + romBlock)) (rom.drop (romAt + romBlock)) = more
        split_ifs with hlast
        · rfl
        · have hnext := hstep _ hlast
          have hfar : i + romBlock + more ≤ nextMultipleOf4 (i + romBlock + more) := by
            rw [nextMultipleOf4]
            omega
          have hpos : 0 < romBlock := by decide
          rw [blockHash?_eq_some hnext, Option.bind_some, ih hnext (by omega)]
          rfl
      · simp only [Option.bind_eq_bind, Option.bind_some, hblock, hromBytes, Option.some.injEq,
          if_neg hsame]
        exact hmiss

/-- **Looking for copies ends** without a panic, and finds what `findCopies` does with the index as a
lookup by content. -/
theorem Wf.findCopies_eq_some (hwf : index.Wf rom.length) (hroom : 0 < index.keys.count 0)
    (hrom : rom.length < 2 ^ 63) (data : Bytes) :
    index.findCopies rom data = some (SuperShuckie.findCopies index.ofBlock rom data) := by
  rw [findCopies, SuperShuckie.findCopies]
  split_ifs with hlen
  · rfl
  · rw [blockHash?_eq_some (by omega)]
    exact hwf.findGo_eq_some hroom hrom (by omega) (by omega)

end RomIndex

end SuperShuckie
