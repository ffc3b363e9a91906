import SuperShuckie.KeyframeMasks

/-!
# Payloads of Nintendo 3DS keyframes

A delta keyframe of a Nintendo 3DS file stores a region diff whose data stream may contain copies of
the game's ROM.  `encodePayloadV9` lays out the control stream, the references to the ROM and the
literal bytes; `splitPayloadV9` and `PayloadV9.dataInto` take it apart again.

`findCopies` looks for ROM bytes in a data stream with an index of 64-byte blocks.  Whatever the
index answers is compared byte by byte, so every copy it returns is one (`RomCopies`).
-/

set_option autoImplicit false

namespace SuperShuckie

open ByteFormat

/-- One copy of ROM bytes in a delta's data stream. -/
structure RomCopy where
  dataOffset : Nat
  romOffset : Nat
  len : Nat
deriving DecidableEq

/-- `zigzag(value as i64)` of a 64-bit number. -/
def zigzag (value : Nat) : Nat :=
  if value < 2 ^ 63 then 2 * value else 2 * (2 ^ 64 - value) - 1

/-- `unzigzag(value) as u64`. -/
def unzigzag (value : Nat) : Nat :=
  if value % 2 = 0 then value / 2 else 2 ^ 64 - (value + 1) / 2

/-- `a.wrapping_sub(b)` and `a.wrapping_add(b)` on 64 bits. -/
def wrappingSub64 (a b : Nat) : Nat := (a + 2 ^ 64 - b) % 2 ^ 64
def wrappingAdd64 (a b : Nat) : Nat := (a + b) % 2 ^ 64

/-- The references and the literal bytes of a data stream from byte `dataPos` on, the last copy
having ended at `romPos`. -/
def encodeCopies (data : Bytes) : List RomCopy → Nat → Nat → Bytes × Bytes
  | [], dataPos, _ => ([], data.drop dataPos)
  | copy :: copies, dataPos, romPos =>
    let rest := encodeCopies data copies (copy.dataOffset + copy.len) (copy.romOffset + copy.len)
    (leb128 (copy.dataOffset - dataPos) ++
        (leb128 (zigzag (wrappingSub64 copy.romOffset romPos)) ++ (leb128 copy.len ++ rest.1)),
      (data.drop dataPos).take (copy.dataOffset - dataPos) ++ rest.2)

/-- The payload of a region diff whose data contains `copies`. -/
def encodePayloadV9 (control data : Bytes) (copies : List RomCopy) : Bytes :=
  let (refs, literal) := encodeCopies data copies 0 0
  leBytes 8 control.length ++ (leBytes 8 refs.length ++ (control ++ (refs ++ literal)))

/-- The parts of a payload. -/
structure PayloadV9 where
  control : Bytes
  refs : Bytes
  literal : Bytes

def splitPayloadV9 (payload : Bytes) : Except String PayloadV9 :=
  if payload.length < 16 then .error "3DS delta payload is too short"
  else
    let controlLen := ofLeBytes (payload.take 8)
    let refsLen := ofLeBytes ((payload.drop 8).take 8)
    let rest := payload.drop 16
    if rest.length < controlLen then .error "3DS delta control stream is truncated"
    else if (rest.drop controlLen).length < refsLen then
      .error "3DS delta ROM references are truncated"
    else
      .ok ⟨rest.take controlLen, (rest.drop controlLen).take refsLen,
        (rest.drop controlLen).drop refsLen⟩

/-- The `(control, data)` of a payload of format 8. -/
def splitPayloadV8 (payload : Bytes) : Except String (Bytes × Bytes) :=
  if payload.length < 8 then .error "3DS delta payload is too short"
  else
    let controlLen := ofLeBytes (payload.take 8)
    let rest := payload.drop 8
    if rest.length < controlLen then .error "3DS delta control stream is truncated"
    else .ok (rest.take controlLen, rest.drop controlLen)

/-- Splice the copies that `refs` names into `literal`, the last copy having ended at `romPos`.
Every reference takes at least three bytes. -/
def spliceCopies (rom : Bytes) : Nat → Bytes → Bytes → Nat → Except String Bytes
  | _, [], literal, _ => .ok literal
  | 0, _ :: _, _, _ => .error "3DS delta ROM references are malformed"
  | fuel + 1, refs, literal, romPos =>
    match readLeb128 refs with
    | none => .error "3DS delta ROM references are malformed"
    | some (gap, refs) =>
      match readLeb128 refs with
      | none => .error "3DS delta ROM references are malformed"
      | some (delta, refs) =>
        match readLeb128 refs with
        | none => .error "3DS delta ROM references are malformed"
        | some (len, refs) =>
          if literal.length < gap then
            .error "3DS delta ROM reference points past its literal data"
          else
            let start := wrappingAdd64 romPos (unzigzag delta)
            match slice? rom start len with
            | none =>
              .error "3DS delta copies bytes from outside the ROM (is it the right game file?)"
            | some bytes =>
              (spliceCopies rom fuel refs (literal.drop gap) (start + len)).map fun rest ↦
                literal.take gap ++ (bytes ++ rest)

/-- Rebuild the data stream of the diff: the literal bytes with the ROM copies spliced in.  The ROM
may be missing only when there are no copies. -/
def PayloadV9.dataInto (parts : PayloadV9) (rom : Option Bytes) : Except String Bytes :=
  if parts.refs.isEmpty then .ok parts.literal
  else
    match rom with
    | none => .error ("this 3DS keyframe copies data from the game's ROM, which the player " ++
        "was not given")
    | some rom => spliceCopies rom parts.refs.length parts.refs parts.literal 0

/-! ## Finding copies -/

/-- Bytes per ROM block of the index. -/
def romBlock : Nat := 64

/-- Move the start of a copy back over equal bytes, not before `floor`. -/
def growBack (rom data : Bytes) (floor : Nat) : Nat → Nat → Nat × Nat
  | start + 1, romStart + 1 =>
    if floor ≤ start ∧ data[start]? = rom[romStart]? then growBack rom data floor start romStart
    else (start + 1, romStart + 1)
  | start, romStart => (start, romStart)

/-- The number of equal bytes of two byte strings from their fronts. -/
def commonPrefix : Bytes → Bytes → Nat
  | a :: as, b :: bs => if a = b then commonPrefix as bs + 1 else 0
  | _, _ => 0

/-- `n.next_multiple_of(4)`. -/
def nextMultipleOf4 (n : Nat) : Nat := (n + 3) / 4 * 4

/-- Probe `data` at `i` and at every fourth byte after it; `floor` is where the previous copy
ended.  `lookup` is the index: where in the ROM a block like the given one stands. -/
def findCopiesGo (lookup : Bytes → Option Nat) (rom data : Bytes) : Nat → Nat → Nat → List RomCopy
  | 0, _, _ => []
  | fuel + 1, floor, i =>
    let last := data.length - romBlock
    let block := (data.drop i).take romBlock
    match (lookup block).bind fun romAt ↦ if slice? rom romAt romBlock = some block then some romAt
      else none with
    | some romAt =>
      let (start, romStart) := growBack rom data floor i romAt
      let stop := i + romBlock + commonPrefix (data.drop (i + romBlock)) (rom.drop (romAt + romBlock))
      let copy := ⟨start, romStart, stop - start⟩
      let next := nextMultipleOf4 stop
      if last < next then [copy] else copy :: findCopiesGo lookup rom data fuel stop next
    | none => if last < i + 4 then [] else findCopiesGo lookup rom data fuel floor (i + 4)

/-- The copies of ROM bytes in `data`, sorted and not overlapping. -/
def findCopies (lookup : Bytes → Option Nat) (rom data : Bytes) : List RomCopy :=
  if data.length < romBlock then [] else findCopiesGo lookup rom data data.length 0 0

/-! ## Ranges of the ROM -/

/-- Merge sorted `(offset, length)` ranges onto the last one kept.  `none` is an overflow. -/
def mergeSorted : List (Nat × Nat) → List (Nat × Nat) → Option (List (Nat × Nat))
  | merged, [] => some merged.reverse
  | [], r :: rest => mergeSorted [r] rest
  | (lastStart, lastLen) :: merged, (start, len) :: rest =>
    let stop := min (start + len) (2 ^ 64 - 1)
    if 2 ^ 64 ≤ lastStart + lastLen then none
    else if start ≤ lastStart + lastLen then
      mergeSorted ((lastStart, max lastLen (stop - lastStart)) :: merged) rest
    else mergeSorted ((start, len) :: (lastStart, lastLen) :: merged) rest

/-- Sort and merge `(offset, length)` ranges; empty ones are dropped. -/
def mergeRanges (ranges : List (Nat × Nat)) : Option (List (Nat × Nat)) :=
  mergeSorted [] ((ranges.filter fun r ↦ 0 < r.2).insertionSort fun a b ↦
    a.1 < b.1 ∨ (a.1 = b.1 ∧ a.2 ≤ b.2))

end SuperShuckie
