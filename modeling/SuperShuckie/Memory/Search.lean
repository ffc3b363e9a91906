import SuperShuckie.Lib.Bits
import SuperShuckie.Memory.Addresses
import SuperShuckie.Memory.Values

/-!
# The RAM search

A search scans a snapshot of memory for candidates and narrows them with further scans, each against
a newer snapshot.  Many candidates are kept as a bitset for each region, next to the snapshots they
were found in; once a list of addresses and values takes less memory, the search switches to that.

Floating-point numbers are the operations in `Floats`.  A scan asks whether it is cancelled at the
start of each chunk, and what it hears then is the `ScanControl`.  `none` is a panic.
-/

set_option autoImplicit false

namespace SuperShuckie.RamSearch

open ByteFormat Bits Fallible

/-- Undo steps kept. -/
def maxHistorySteps : Nat := 16

/-- Memory the undo history may use. -/
def maxHistoryBytes : Nat := 128 * 1024 * 1024

/-- Cancellation is checked this often. -/
def chunkSlots : Nat := 64 * 1024

/-! ## Snapshots -/

/-- A region's place in a snapshot. -/
structure SnapshotRegion where
  region : RegionInfo
  /-- Start of the region's bytes. -/
  offset : Nat
  /-- Mapped bytes; the rest of the region's `len` are unmapped. -/
  available : Nat
deriving DecidableEq

/-- A copy of memory taken between two frames. -/
structure MemorySnapshot where
  /-- Emulated frame it was taken after. -/
  frame : Nat
  /-- State epoch it was taken in. -/
  epoch : Nat
  layout : List SnapshotRegion
  /-- Every region's bytes, concatenated. -/
  bytes : Bytes
deriving DecidableEq

/-- The loop of `locate` over the regions from an index on. -/
def locateFrom (address len : Nat) : Nat → List SnapshotRegion → Option (Nat × Nat)
  | _, [] => none
  | index, layout :: layouts =>
    match layout.region.offsetOf address len with
    | some offset =>
      if offset + len ≤ layout.available then some (index, offset)
      else locateFrom address len (index + 1) layouts
    | none => locateFrom address len (index + 1) layouts

namespace MemorySnapshot

/-- The mapped bytes of a region. -/
def regionBytes (s : MemorySnapshot) (index : Nat) : Option Bytes := do
  let layout ← s.layout[index]?
  slice? s.bytes layout.offset layout.available

/-- The snapshots are of the same regions. -/
def sameLayout (s other : MemorySnapshot) : Bool :=
  s.layout.map (·.region) == other.layout.map (·.region)

/-- Region index and offset of an address whose `len` bytes are all mapped. -/
def locate (s : MemorySnapshot) (address len : Nat) : Option (Nat × Nat) :=
  locateFrom address len 0 s.layout

end MemorySnapshot

/-! ## Comparisons -/

/-- A byte of a pattern. -/
structure PatternByte where
  mask : UInt8
  value : UInt8
deriving DecidableEq

/-- What each candidate's value is compared with. -/
inductive Comparison (F : Type) where
  /-- Every aligned address is a candidate; for initial scans. -/
  | unknown
  | equal (v : Number F)
  | notEqual (v : Number F)
  | less (v : Number F)
  | lessOrEqual (v : Number F)
  | greater (v : Number F)
  | greaterOrEqual (v : Number F)
  /-- Inclusive. -/
  | between (a b : Number F)
  | inSet (set : List (Number F))
  /-- Bytes matching a pattern. -/
  | pattern (pattern : List PatternByte)
  | changed
  | unchanged
  | increased
  | decreased
  | increasedBy (d : Number F)
  | decreasedBy (d : Number F)
  /-- Changed by exactly this much, up or down. -/
  | changedBy (d : Number F)
  /-- Changed by at least this much, up or down. -/
  | changedByAtLeast (d : Number F)
  | equalToFirst
  | notEqualToFirst
  | increasedSinceFirst
  | decreasedSinceFirst

namespace Comparison

variable {F : Type}

/-- Whether this compares with the previous scan's values. -/
def needsPrevious : Comparison F → Bool
  | changed | unchanged | increased | decreased | increasedBy _ | decreasedBy _ | changedBy _
  | changedByAtLeast _ => true
  | _ => false

/-- Whether this compares with the first scan's values. -/
def needsFirst : Comparison F → Bool
  | equalToFirst | notEqualToFirst | increasedSinceFirst | decreasedSinceFirst => true
  | _ => false

/-- Whether this can start a search. -/
def isInitial (comparison : Comparison F) : Bool :=
  !comparison.needsPrevious && !comparison.needsFirst

/-- Whether this works with values that are not numbers. -/
def worksOnBytes : Comparison F → Bool
  | unknown | pattern _ | changed | unchanged | equalToFirst | notEqualToFirst => true
  | _ => false

/-- `matches!(comparison, Comparison::Unknown)` -/
def isUnknown : Comparison F → Bool
  | unknown => true
  | _ => false

/-- `matches!(comparison, Comparison::Unchanged)` -/
def isUnchanged : Comparison F → Bool
  | unchanged => true
  | _ => false

/-- `matches!(comparison, Comparison::Changed | Comparison::Unchanged)` -/
def isChange : Comparison F → Bool
  | changed | unchanged => true
  | _ => false

end Comparison

/-- How a search reads memory. -/
structure SearchSettings (F : Type) where
  format : ValueFormat
  /-- Candidates are at multiples of this from each region's start. -/
  alignment : Nat
  /-- Regions to search; none means all. -/
  regions : List Nat
  /-- Only addresses in `[start, end)`. -/
  range : Option (Nat × Nat)
  /-- Floats within this of each other are equal. -/
  epsilon : F

/-- Why a scan did not happen. -/
inductive SearchError where
  | cancelled
  /-- The snapshot's regions differ from the ones the search started with. -/
  | layoutChanged
  /-- The comparison cannot be used here. -/
  | badComparison (message : String)
deriving DecidableEq

/-- What a scan hears when it asks, at a chunk of a region, whether it is cancelled. -/
structure ScanControl where
  cancel : Nat → Nat → Bool

/-- A candidate, for display. -/
structure SearchRow where
  address : Nat
  region : Nat
  /-- The value when last scanned. -/
  previous : Bytes
  /-- The value at the first scan. -/
  first : Bytes
deriving DecidableEq

/-- `settings.alignment.max(1)` -/
def SearchSettings.step {F : Type} (settings : SearchSettings F) : Nat := max settings.alignment 1

/-- `check_comparison(settings, comparison)` -/
def checkComparison {F : Type} (settings : SearchSettings F) (comparison : Comparison F) :
    Fallible SearchError Unit :=
  if ¬ settings.format.ty.isNumeric ∧ ¬ comparison.worksOnBytes then
    throw (.badComparison s!"{settings.format.ty.name} values can only be compared as bytes")
  else
    match comparison with
    | .pattern p =>
      if p.length ≠ settings.format.size then
        throw (.badComparison
          s!"the pattern is {p.length} bytes but the value is {settings.format.size}")
      else pure ()
    | _ => pure ()

/-! ## Values -/

/-- Reads the value at an offset of some bytes. -/
structure Reader (F : Type) where
  format : ValueFormat
  len : Nat
  epsilon : F

/-- The reader of a search. -/
def SearchSettings.reader {F : Type} (settings : SearchSettings F) : Reader F :=
  ⟨settings.format, settings.format.size, settings.epsilon⟩

namespace Reader

variable {F : Type} (floats : Floats F) (reader : Reader F)

def number (bytes : Bytes) (offset : Nat) : Option (Option (Number F)) :=
  readerNumber floats reader.format reader.len bytes offset

def equal : Number F → Number F → Bool
  | .int a, .int b => a == b
  | a, b => floats.le (floats.abs (floats.sub (a.asF64 floats) (b.asF64 floats))) reader.epsilon

def less : Number F → Number F → Bool
  | .int a, .int b => a < b
  | a, b => floats.lt (a.asF64 floats) (b.asF64 floats) && !reader.equal floats a b

def difference : Number F → Number F → Number F
  | .int new, .int old => .int (wrapI64 (new - old))
  | new, old => .float (floats.sub (new.asF64 floats) (old.asF64 floats))

def abs : Number F → Number F
  | .int i => .int (wrapI64 i.natAbs)
  | .float f => .float (floats.abs f)

/-- The number in some bytes, if there are any. -/
def numberOf (bytes : Option Bytes) : Option (Option (Number F)) :=
  match bytes with
  | none => some none
  | some bytes => reader.number floats bytes 0

/-- `number_of(bytes).is_some_and(P)` -/
def numberAnd (bytes : Option Bytes) (P : Number F → Bool) : Option Bool :=
  (reader.numberOf floats bytes).map (·.any P)

/-- Whether a number passes a comparison of numbers. -/
def passesNumber (comparison : Comparison F) (value : Number F) (previous first : Option Bytes) :
    Option Bool :=
  let equal := reader.equal floats
  let less := reader.less floats
  let difference := difference floats
  let abs := abs floats
  match comparison with
  | .equal v => some (equal value v)
  | .notEqual v => some (!equal value v)
  | .less v => some (less value v)
  | .lessOrEqual v => some (!less v value)
  | .greater v => some (less v value)
  | .greaterOrEqual v => some (!less value v)
  | .between a b => some (!less value a && !less b value)
  | .inSet set => some (set.any (equal value))
  | .increased => reader.numberAnd floats previous fun p ↦ less p value
  | .decreased => reader.numberAnd floats previous fun p ↦ less value p
  | .increasedBy d => reader.numberAnd floats previous fun p ↦ equal (difference value p) d
  | .decreasedBy d => reader.numberAnd floats previous fun p ↦ equal (difference p value) d
  | .changedBy d =>
    reader.numberAnd floats previous fun p ↦ equal (abs (difference value p)) (abs d)
  | .changedByAtLeast d =>
    reader.numberAnd floats previous fun p ↦
      let change := abs (difference value p)
      !less change (abs d) && !(match change with | .int 0 => true | _ => false)
  | .increasedSinceFirst => reader.numberAnd floats first fun f ↦ less f value
  | .decreasedSinceFirst => reader.numberAnd floats first fun f ↦ less value f
  | .unknown | .pattern _ | .changed | .unchanged | .equalToFirst | .notEqualToFirst => none

/-- Whether a candidate passes; `previous` and `first` are its bytes at those scans. -/
def passes (comparison : Comparison F) (current : Bytes) (previous first : Option Bytes) :
    Option Bool :=
  match comparison with
  | .unknown => some true
  | .pattern pattern => some ((pattern.zip current).all fun (p, b) ↦ b &&& p.mask == p.value)
  | .changed => some (previous.any (· != current))
  | .unchanged => some (previous.any (· == current))
  | .equalToFirst => some (first.any (· == current))
  | .notEqualToFirst => some (first.any (· != current))
  | comparison =>
    match reader.number floats current 0 with
    | none => none
    | some none => some false
    | some (some value) => reader.passesNumber floats comparison value previous first

end Reader

/-! ## Dense candidates -/

/-- The candidates of a region. -/
structure DenseRegion where
  /-- One bit for each aligned slot. -/
  words : List Nat
  count : Nat
  /-- Candidates before each block of 64 words, for paging. -/
  rank : List Nat
deriving DecidableEq

/-- The loop of `build_rank` from a word on, which starts a block if its index is a multiple of 64:
the ranks, and the total. -/
def rankLoop : Nat → Nat → List Nat → List Nat × Nat
  | _, total, [] => ([], total)
  | w, total, word :: words =>
    let (rank, sum) := rankLoop (w + 1) (total + countOnes 64 word) words
    (if w % 64 = 0 then total :: rank else rank, sum)

/-- A region of words, its rank built. -/
def buildRank (words : List Nat) : DenseRegion :=
  let (rank, count) := rankLoop 0 0 words
  { words, count, rank }

/-- The loop of `nth_slot` over the words from one on. -/
def nthLoop : Nat → Nat → List Nat → Option Nat
  | _, _, [] => none
  | remaining, w, word :: words =>
    let ones := countOnes 64 word
    if remaining < ones then some (w * 64 + trailingZeros 64 (clearLowest^[remaining] word))
    else nthLoop (remaining - ones) (w + 1) words

/-- Slot of the `n`th candidate. -/
def DenseRegion.nthSlot (dense : DenseRegion) (n : Nat) : Option Nat :=
  if dense.count ≤ n then none
  else
    let block := (dense.rank.takeWhile (· ≤ n)).length - 1
    nthLoop (n - dense.rank.getD block 0) (block * 64) (dense.words.drop (block * 64))

/-- The candidates as bitsets. -/
structure Dense where
  regions : List DenseRegion
  /-- The snapshot the candidates' current values are in. -/
  previous : MemorySnapshot
  /-- The first scan's snapshot. -/
  first : MemorySnapshot
  /-- `Arc::ptr_eq(previous, first)` -/
  shared : Bool
deriving DecidableEq

/-- The candidates as lists. -/
structure Sparse where
  addresses : List Nat := []
  regions : List Nat := []
  previous : Bytes := []
  first : Bytes := []
deriving DecidableEq

inductive Candidates where
  | dense (d : Dense)
  | sparse (s : Sparse)
deriving DecidableEq

namespace Candidates

def count : Candidates → Nat
  | dense d => (d.regions.map (·.count)).sum
  | sparse s => s.addresses.length

/-- Memory this state holds, not counting snapshots shared with the current state. -/
def historyBytes : Candidates → Nat
  | dense d =>
    (d.regions.map fun r ↦ r.words.length * 8 + r.rank.length * 8).sum + d.previous.bytes.length
  | sparse s =>
    s.addresses.length * 4 + s.regions.length * 2 + s.previous.length + s.first.length

end Candidates

/-! ## Rows of dense candidates -/

/-- What the rows of a region are made from: its base and its bytes at the last and first scan. -/
structure RegionView where
  base : Nat
  prev : Bytes
  firsts : Bytes

namespace Dense

def view (d : Dense) (index : Nat) : Option RegionView := do
  let layout ← d.previous.layout[index]?
  let prev ← d.previous.regionBytes index
  let firsts ← d.first.regionBytes index
  pure ⟨layout.region.baseAddress, prev, firsts⟩

end Dense

/-- The row of a slot. -/
def RegionView.row (view : RegionView) (len step index slot : Nat) : Option SearchRow := do
  let o := slot * step
  let previous ← slice? view.prev o len
  let address := view.base + o % 2 ^ 32
  if address < 2 ^ 32 then
    pure ⟨address, index, previous, (slice? view.firsts o len).getD previous⟩
  else none

/-! ## The switch to a list -/

/-- The lists of some rows. -/
def Sparse.ofRows (rows : List SearchRow) : Sparse where
  addresses := rows.map (·.address)
  regions := rows.map (·.region % 2 ^ 16)
  previous := rows.flatMap (·.previous)
  first := rows.flatMap (·.first)

/-- The rows of a region's words from one on. -/
def rowsOfWords (row : Nat → Option SearchRow) : Nat → List Nat → Option (List SearchRow)
  | _, [] => some []
  | w, word :: words => do
    let rows ← (setBits 64 64 word).mapM fun bit ↦ row (w * 64 + bit)
    let more ← rowsOfWords row (w + 1) words
    pure (rows ++ more)

/-- The rows of the regions from one on. -/
def rowsOfRegions (d : Dense) (len step : Nat) : Nat → List DenseRegion → Option (List SearchRow)
  | _, [] => some []
  | index, dense :: regions => do
    let view ← d.view index
    let rows ← rowsOfWords (view.row len step index) 0 dense.words
    let more ← rowsOfRegions d len step (index + 1) regions
    pure (rows ++ more)

/-- The list is smaller than the bitsets and snapshots. -/
def Dense.smallerSparse (d : Dense) (len : Nat) : Bool :=
  let denseBytes := (d.regions.map fun r ↦ r.words.length * 8).sum + d.previous.bytes.length +
    if d.shared then 0 else d.first.bytes.length
  (Candidates.dense d).count * (4 + 2 + len * 2) < denseBytes

/-- Switch to a sparse list once it is smaller than the bitsets and snapshots. -/
def maybeMakeSparse (len step : Nat) (candidates : Candidates) : Option Candidates :=
  match candidates with
  | .sparse s => some (.sparse s)
  | .dense d =>
    if d.smallerSparse len then
      (rowsOfRegions d len step 0 d.regions).map fun rows ↦ .sparse (.ofRows rows)
    else some (.dense d)

/-! ## The first scan -/

/-- `dense.words[s / 64] |= 1 << (s % 64)` -/
def setBit (words : List Nat) (s : Nat) : Option (List Nat) :=
  if s / 64 < words.length then some (words.modify (s / 64) (· ||| 1 <<< (s % 64))) else none

variable {F : Type} (floats : Floats F)

section FirstScan

variable (settings : SearchSettings F) (comparison : Comparison F) (control : ScanControl)

/-- The slots of a region whose value is mapped and inside the address range: the first of them, and
the end. -/
def slotRange (layout : SnapshotRegion) : Nat × Nat :=
  let len := settings.format.size
  let endSlot := (layout.available - len) / settings.step + 1
  match settings.range with
  | none => (0, endSlot)
  | some (start, fin) =>
    let base := layout.region.baseAddress
    let firstSlot := (start - base + settings.step - 1) / settings.step
    let rangeEndSlot := if base + len ≤ fin then (fin - (base + len)) / settings.step + 1 else 0
    (firstSlot, min endSlot rangeEndSlot)

/-- Whether the value of a slot passes at the first scan. -/
def passesFirst (bytes : Bytes) (s : Nat) : Option Bool :=
  if comparison.isUnknown then some true
  else do
    let current ← slice? bytes (s * settings.step) settings.format.size
    settings.reader.passes floats comparison current none none

/-- The scan of so many slots of a region, `done` of them before. -/
def scanSlots (index : Nat) (bytes : Bytes) :
    Nat → Nat → Nat → List Nat → Fallible SearchError (List Nat)
  | 0, _, _, words => pure words
  | slots + 1, done, s, words =>
    if done % chunkSlots = 0 ∧ control.cancel index (done / chunkSlots) then throw .cancelled
    else do
      let ok ← slice (passesFirst floats settings comparison bytes s)
      let words ← slice (if ok then setBit words s else some words)
      scanSlots index bytes slots (done + 1) (s + 1) words

/-- The first scan of a region. -/
def newRegion (snapshot : MemorySnapshot) (index : Nat) (layout : SnapshotRegion) :
    Fallible SearchError DenseRegion := do
  let bytes ← slice (snapshot.regionBytes index)
  -- The last, possibly partial slot still needs a bit.
  let slots := (layout.region.len + settings.step - 1) / settings.step
  let words := List.replicate ((slots + 63) / 64) 0
  let (firstSlot, endSlot) := slotRange settings layout
  let words ← scanSlots floats settings comparison control index bytes
    (if (settings.regions = [] ∨ index ∈ settings.regions) ∧ settings.format.size ≤ bytes.length
      then endSlot - firstSlot else 0) 0 firstSlot words
  pure (buildRank words)

/-- The first scan of the regions from one on. -/
def newRegions (snapshot : MemorySnapshot) :
    Nat → List SnapshotRegion → Fallible SearchError (List DenseRegion)
  | _, [] => pure []
  | index, layout :: layouts => do
    let dense ← newRegion floats settings comparison control snapshot index layout
    let regions ← newRegions snapshot (index + 1) layouts
    pure (dense :: regions)

end FirstScan

/-- A RAM search. -/
structure Search (F : Type) where
  settings : SearchSettings F
  candidates : Candidates
  history : List Candidates := []
  redo : List Candidates := []
  steps : Nat := 1
  lastFrame : Nat
  lastEpoch : Nat

/-- Start a search by scanning a snapshot. -/
def Search.new (settings : SearchSettings F) (comparison : Comparison F)
    (snapshot : MemorySnapshot) (control : ScanControl) : Fallible SearchError (Search F) := do
  checkComparison settings comparison
  if ¬ comparison.isInitial then
    throw (.badComparison "a new search cannot compare with earlier scans")
  else
    let regions ← newRegions floats settings comparison control snapshot 0 snapshot.layout
    let dense : Dense := { regions, previous := snapshot, first := snapshot, shared := true }
    let candidates ← slice (maybeMakeSparse settings.format.size settings.step (.dense dense))
    pure { settings, candidates, lastFrame := snapshot.frame, lastEpoch := snapshot.epoch }

/-! ## Further scans -/

section Scan

variable (settings : SearchSettings F) (comparison : Comparison F) (snapshot : MemorySnapshot)
  (control : ScanControl)

section Words

variable (current prev firsts : Bytes)

/-- The bits of a word that stay, of those at the given positions, next to those kept already. -/
def refineBits (start : Nat) : List Nat → Nat → Option Nat
  | [], kept => some kept
  | bit :: bits, kept =>
    let offset := start + bit * settings.step
    let len := settings.format.size
    if current.length < offset + len then refineBits start bits kept
    else do
      let value ← slice? current offset len
      let ok ← settings.reader.passes floats comparison value (slice? prev offset len)
        (slice? firsts offset len)
      refineBits start bits (if ok then kept ||| 1 <<< bit else kept)

/-- The scan of a word. -/
def refineWord (w word : Nat) : Option Nat :=
  if word = 0 then some 0
  else
    let start := w * 64 * settings.step
    let fin := min (min (start + 64 * settings.step + settings.format.size - 1) current.length)
      prev.length
    -- Whole words whose bytes did not move need no work for each slot.
    if comparison.isChange ∧ start < fin ∧
        (current.drop start).take (fin - start) = (prev.drop start).take (fin - start) then
      some (if comparison.isUnchanged then word else 0)
    else refineBits floats settings comparison current prev firsts start (setBits 64 64 word) 0

/-- The scan of a region's words from one on; every 1024th starts a chunk. -/
def refineWords (index : Nat) : Nat → List Nat → Fallible SearchError (List Nat)
  | _, [] => pure []
  | w, word :: words =>
    if w % (chunkSlots / 64) = 0 ∧ control.cancel index (w / (chunkSlots / 64)) then
      throw .cancelled
    else do
      let kept ← slice (refineWord floats settings comparison current prev firsts w word)
      let more ← refineWords index (w + 1) words
      pure (kept :: more)

end Words

/-- The scan of the regions from one on. -/
def refineRegions (previous first : MemorySnapshot) :
    Nat → List DenseRegion → Fallible SearchError (List DenseRegion)
  | _, [] => pure []
  | index, dense :: regions => do
    let current ← slice (snapshot.regionBytes index)
    let prev ← slice (previous.regionBytes index)
    let firsts ← slice (first.regionBytes index)
    let words ← refineWords floats settings comparison control current prev firsts index 0
      dense.words
    let more ← refineRegions previous first (index + 1) regions
    pure (buildRank words :: more)

/-- The scan of the list's candidates from one on, next to those found already. -/
def refineSparse (s : Sparse) : Nat → List (Nat × Nat) → Sparse → Fallible SearchError Sparse
  | _, [], new => pure new
  | i, (address, region) :: entries, new =>
    let len := settings.format.size
    if i % chunkSlots = 0 ∧ control.cancel 0 (i / chunkSlots) then throw .cancelled
    else
      match snapshot.locate address len with
      | none => refineSparse s (i + 1) entries new
      | some (index, offset) =>
        if index ≠ region then throw .layoutChanged
        else do
          let bytes ← slice (snapshot.regionBytes index)
          let current ← slice (slice? bytes offset len)
          let prev ← slice (slice? s.previous (i * len) len)
          let firsts ← slice (slice? s.first (i * len) len)
          let ok ← slice (settings.reader.passes floats comparison current prev firsts)
          refineSparse s (i + 1) entries
            (if ok then
              { addresses := new.addresses ++ [address], regions := new.regions ++ [region],
                previous := new.previous ++ current, first := new.first ++ firsts }
            else new)

/-- The candidates that pass a scan. -/
def scan (candidates : Candidates) : Fallible SearchError Candidates := do
  checkComparison settings comparison
  if comparison.isUnknown then
    throw (.badComparison "\"unknown value\" only starts a search")
  else
    match candidates with
    | .dense d =>
      if ¬ snapshot.sameLayout d.previous then throw .layoutChanged
      else
        let regions ← refineRegions floats settings comparison snapshot control d.previous d.first
          0 d.regions
        pure (.dense { regions, previous := snapshot, first := d.first, shared := false })
    | .sparse s =>
      let new ← refineSparse floats settings comparison snapshot control s 0
        (s.addresses.zip s.regions) {}
      pure (.sparse new)

end Scan

/-- Drop the oldest states until the history is within its limits. -/
def trimHistory : List Candidates → List Candidates
  | [] => []
  | oldest :: history =>
    if (oldest :: history).length ≤ maxHistorySteps ∧
        ((oldest :: history).map (·.historyBytes)).sum ≤ maxHistoryBytes then
      oldest :: history
    else trimHistory history

namespace Search

/-- Narrow the candidates by scanning a snapshot: the search after it, and the result. -/
def refine (search : Search F) (comparison : Comparison F) (snapshot : MemorySnapshot)
    (control : ScanControl) : Option (Search F × Except SearchError Unit) :=
  match (scan floats search.settings comparison snapshot control search.candidates).run with
  | none => none
  | some (.error e) => some (search, .error e)
  | some (.ok next) =>
    if search.steps + 1 < 2 ^ 32 then do
      let candidates ←
        maybeMakeSparse search.settings.format.size search.settings.step next
      pure ({ search with
        candidates
        history := trimHistory (search.history ++ [search.candidates])
        redo := []
        steps := search.steps + 1
        lastFrame := snapshot.frame
        lastEpoch := snapshot.epoch }, .ok ())
    else none

/-- Go back one scan. -/
def undo (search : Search F) : Option (Search F × Bool) :=
  match search.history.getLast? with
  | none => some (search, false)
  | some previous =>
    if search.steps = 0 then none
    else
      some ({ search with
        candidates := previous
        history := search.history.dropLast
        redo := search.redo ++ [search.candidates]
        steps := search.steps - 1 }, true)

/-- Go forward one undone scan. -/
def redoScan (search : Search F) : Option (Search F × Bool) :=
  match search.redo.getLast? with
  | none => some (search, false)
  | some next =>
    if search.steps + 1 < 2 ^ 32 then
      some ({ search with
        candidates := next
        history := search.history ++ [search.candidates]
        redo := search.redo.dropLast
        steps := search.steps + 1 }, true)
    else none

def canUndo (search : Search F) : Bool := !search.history.isEmpty

def canRedo (search : Search F) : Bool := !search.redo.isEmpty

/-- Candidates left. -/
def count (search : Search F) : Nat := search.candidates.count

/-- Frame and state epoch of the last scan. -/
def lastScan (search : Search F) : Nat × Nat := (search.lastFrame, search.lastEpoch)

end Search

/-! ## Results -/

/-- The row of a candidate of the list. -/
def Sparse.row (s : Sparse) (len i : Nat) : Option SearchRow := do
  let address ← s.addresses[i]?
  let region ← s.regions[i]?
  let previous ← slice? s.previous (i * len) len
  let first ← slice? s.first (i * len) len
  pure ⟨address, region, previous, first⟩

/-- The rows of a word's bits, added to those there are until there are `count`. -/
def pageBits (row : Nat → Option SearchRow) (count w : Nat) :
    List Nat → List SearchRow → Option (List SearchRow)
  | [], rows => some rows
  | bit :: bits, rows =>
    if rows.length < count then do
      let next ← row (w * 64 + bit)
      pageBits row count w bits (rows ++ [next])
    else some rows

/-- The rows of some bits of a word and of the words after it. -/
def pageWords (row : Nat → Option SearchRow) (count : Nat) :
    List Nat → Nat → Nat → List SearchRow → Option (List SearchRow)
  | words, w, bits, rows => do
    let rows ← pageBits row count w (setBits 64 64 bits) rows
    match words with
    | [] => pure rows
    | word :: words =>
      if count ≤ rows.length then pure rows else pageWords row count words (w + 1) word rows

/-- The rows of the regions from one on, `skip` candidates left out. -/
def pageRegions (d : Dense) (len step count : Nat) :
    Nat → List DenseRegion → Nat → List SearchRow → Option (List SearchRow)
  | _, [], _, rows => some rows
  | index, dense :: regions, skip, rows =>
    if count ≤ rows.length then some rows
    else if dense.count ≤ skip then pageRegions d len step count (index + 1) regions
      (skip - dense.count) rows
    else
      match dense.nthSlot skip with
      | none => pageRegions d len step count (index + 1) regions skip rows
      | some startSlot => do
        let view ← d.view index
        let w := startSlot / 64
        let bits ← dense.words[w]?
        let rows ← pageWords (view.row len step index) count (dense.words.drop (w + 1)) w
          (bits >>> (startSlot % 64) <<< (startSlot % 64)) rows
        pageRegions d len step count (index + 1) regions 0 rows

/-- Up to `count` candidates starting with the `offset`th, in address order within each region. -/
def results (len step : Nat) (candidates : Candidates) (offset count : Nat) :
    Option (List SearchRow) :=
  match candidates with
  | .sparse s =>
    let start := min offset s.addresses.length
    if start + count < 2 ^ 64 then
      (List.range' start (min (start + count) s.addresses.length - start)).mapM (s.row len)
    else none
  | .dense d => pageRegions d len step count 0 d.regions offset []

def Search.results (search : Search F) (offset count : Nat) : Option (List SearchRow) :=
  RamSearch.results search.settings.format.size search.settings.step search.candidates offset count

end SuperShuckie.RamSearch
