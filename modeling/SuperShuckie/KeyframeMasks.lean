import SuperShuckie.Header

/-!
# Transient-buffer masks for delta keyframes

Some save states carry large buffers that the game regenerates every frame and never reads.
`transientRanges` finds them by inspecting the state itself, and returns nothing unless every layout
check passes.  `applyMasks` copies them forward from the previous keyframe before a delta is taken,
and says what it overwrote, for a caller that falls back to a full keyframe.
-/

set_option autoImplicit false

namespace SuperShuckie

open ByteFormat

/-- `bs[start..start + len]`, when it is in bounds. -/
def slice? (bs : Bytes) (start len : Nat) : Option Bytes :=
  if start + len ≤ bs.length then some ((bs.drop start).take len) else none

/-- `bs[start..start + new.len()].copy_from_slice(new)`, for a range in bounds. -/
def overwrite (bs : Bytes) (start : Nat) (new : Bytes) : Bytes :=
  bs.take start ++ new ++ bs.drop (start + new.length)

theorem length_overwrite {bs new : Bytes} {start : Nat} (h : start + new.length ≤ bs.length) :
    (overwrite bs start new).length = bs.length := by
  simp only [overwrite, List.length_append, List.length_take, List.length_drop]
  omega

theorem getElem?_overwrite {bs new : Bytes} {start : Nat} (h : start + new.length ≤ bs.length)
    (i : Nat) : (overwrite bs start new)[i]? =
      if start ≤ i ∧ i < start + new.length then new[i - start]? else bs[i]? := by
  have htake : (bs.take start).length = start := by
    rw [List.length_take]
    omega
  rw [overwrite, List.append_assoc]
  by_cases hbefore : i < start
  · rw [List.getElem?_append_left (by omega), List.getElem?_take_of_lt hbefore,
      if_neg (fun h ↦ by omega)]
  · rw [List.getElem?_append_right (by omega), htake]
    split_ifs with hin
    · rw [List.getElem?_append_left (by omega)]
    · rw [List.getElem?_append_right (by omega), List.getElem?_drop]
      congr 1
      omega

/-- A range of bytes of a state (`start..end`). -/
structure ByteRange where
  start : Nat
  stop : Nat
deriving DecidableEq

/-- States of one length that differ inside of some ranges only. -/
structure SameOutside (ranges : List ByteRange) (a b : Bytes) : Prop where
  length : a.length = b.length
  bytes : ∀ i, (∀ r ∈ ranges, i < r.start ∨ r.stop ≤ i) → a[i]? = b[i]?

theorem SameOutside.refl (ranges : List ByteRange) (a : Bytes) : SameOutside ranges a a :=
  ⟨rfl, fun _ _ ↦ rfl⟩

theorem sameOutside_overwrite {ranges : List ByteRange} {r : ByteRange} (hr : r ∈ ranges)
    (hle : r.start ≤ r.stop) {a b new : Bytes} (h : SameOutside ranges a b)
    (hlen : r.stop ≤ b.length) (hnew : new.length ≤ r.stop - r.start) :
    SameOutside ranges (overwrite a r.start new) b := by
  have hfits : r.start + new.length ≤ a.length := by
    rw [h.length]
    omega
  refine ⟨(length_overwrite hfits).trans h.length, fun i hi ↦ ?_⟩
  have hout : ¬ (r.start ≤ i ∧ i < r.start + new.length) := by
    have houtside := hi r hr
    omega
  rw [← h.bytes i hi, getElem?_overwrite hfits, if_neg hout]

def melnMagic : Bytes := [0x4D, 0x45, 0x4C, 0x4E]
def melnMajor : Nat := 13
def melnHeaderLen : Nat := 16
def melnSectionHeaderLen : Nat := 16
def gp3dMagic : Bytes := [0x47, 0x50, 0x33, 0x44]
def gp3dSectionLen : Nat := 1572864
def gp3dVertexRamOffset : Nat := 7409
def gp3dTransientLen : Nat := 12288 * 64 + 4096 * 188
def gbaStateLen : Nat := 0x61000
def gbaMagic : Nat := 0x01000000
def gbaIwramOffset : Nat := 0x19000
def gbaIwramBase : Nat := 0x03000000
def gbaIwramSize : Nat := 0x8000
def m4aSoundInfoPointer : Nat := 0x03007FF0
def m4aSoundInfoIdent : Nat := 0x68736D53
def m4aSoundInfoSize : Nat := 0xFB0
def m4aPcmBufferOffset : Nat := 0x350
def m4aPcmBufferLen : Nat := 0xC60

def u32Le (state : Bytes) (offset : Nat) : Option Nat := (slice? state offset 4).map ofLeBytes

/-- Walk the sections of a melonDS state to its `GP3D` section.  Every section is at least as long
as its header, so `fuel` need not exceed the length of the state. -/
def ndsSections (state : Bytes) : Nat → Nat → Option ByteRange
  | 0, _ => none
  | fuel + 1, offset =>
    match slice? state offset melnSectionHeaderLen with
    | none => none
    | some header =>
      let sectionLen := ofLeBytes ((header.drop 4).take 4)
      if sectionLen < melnSectionHeaderLen then none
      else if header.take 4 = gp3dMagic then
        if sectionLen ≠ gp3dSectionLen ∨ state.length < offset + sectionLen then none
        else
          let start := offset + gp3dVertexRamOffset
          some ⟨start, start + gp3dTransientLen⟩
      else ndsSections state fuel (offset + sectionLen)

/-- The vertex and polygon banks of a melonDS state of the expected version and layout. -/
def ndsTransientRange (state : Bytes) : Option ByteRange := do
  let magic ← slice? state 0 4
  if magic ≠ melnMagic then none
  else
    let major ← slice? state 4 2
    if ofLeBytes major ≠ melnMajor then none
    else ndsSections state (state.length + 1) melnHeaderLen

/-- The mixed sound buffer of an mGBA state whose game runs the m4a sound driver. -/
def gbaTransientRange (state : Bytes) : Option ByteRange := do
  let magic ← u32Le state 0
  if state.length < gbaStateLen ∨ magic / 0x10000 * 0x10000 ≠ gbaMagic then none
  else
    let pointer ← u32Le state (gbaIwramOffset + (m4aSoundInfoPointer - gbaIwramBase))
    if pointer < gbaIwramBase ∨ gbaIwramBase + gbaIwramSize < pointer + m4aSoundInfoSize then none
    else
      let soundInfo := gbaIwramOffset + (pointer - gbaIwramBase)
      let ident ← u32Le state soundInfo
      if ident ≠ m4aSoundInfoIdent then none
      else
        let start := soundInfo + m4aPcmBufferOffset
        some ⟨start, start + m4aPcmBufferLen⟩

/-- The ranges of a state that hold regenerated output buffers. -/
def transientRanges (console : ReplayConsoleType) (state : Bytes) : List ByteRange :=
  match console with
  | .nintendoDS => (ndsTransientRange state).toList
  | .gameBoyAdvance => (gbaTransientRange state).toList
  | _ => []

/-- Transient ranges are inside the state. -/
theorem transientRanges_le {console : ReplayConsoleType} {state : Bytes} {r : ByteRange}
    (h : r ∈ transientRanges console state) : r.start ≤ r.stop ∧ r.stop ≤ state.length := by
  have hsections : ∀ fuel offset, ndsSections state fuel offset = some r →
      r.start ≤ r.stop ∧ r.stop ≤ state.length := by
    intro fuel
    induction fuel with
    | zero =>
      intro offset h
      cases h
    | succ fuel ih =>
      intro offset h
      rw [ndsSections] at h
      split at h
      · cases h
      · dsimp only at h
        split at h
        · cases h
        · split at h
          · split at h
            · cases h
            · rename_i hfits
              cases h
              simp only [gp3dSectionLen, gp3dVertexRamOffset, gp3dTransientLen] at hfits ⊢
              omega
          · exact ih _ h
  cases console with
  | nintendoDS =>
    have h : ndsTransientRange state = some r := Option.mem_toList.mp h
    obtain ⟨magic, -, h⟩ := Option.bind_eq_some_iff.mp h
    split at h
    · cases h
    · obtain ⟨major, -, h⟩ := Option.bind_eq_some_iff.mp h
      split at h
      · cases h
      · exact hsections _ _ h
  | gameBoyAdvance =>
    have h : gbaTransientRange state = some r := Option.mem_toList.mp h
    obtain ⟨magic, -, h⟩ := Option.bind_eq_some_iff.mp h
    split at h
    · cases h
    · rename_i hlen
      obtain ⟨pointer, -, h⟩ := Option.bind_eq_some_iff.mp h
      split at h
      · cases h
      · rename_i hpointer
        obtain ⟨ident, -, h⟩ := Option.bind_eq_some_iff.mp h
        split at h
        · cases h
        · cases h
          simp only [gbaStateLen, gbaIwramOffset, gbaIwramBase, gbaIwramSize, m4aSoundInfoSize,
            m4aPcmBufferOffset, m4aPcmBufferLen] at hlen hpointer ⊢
          omega
  | _ => cases h

/-- Copy the transient ranges of `prev` over `cur`.  Returns the new `cur` and what was overwritten:
the start of each range and its original bytes. -/
def applyMasks (console : ReplayConsoleType) (prev cur : Bytes) : Bytes × List (Nat × Bytes) :=
  if prev.length ≠ cur.length then (cur, [])
  else
    let ranges := transientRanges console cur
    if ranges.isEmpty ∨ ranges ≠ transientRanges console prev then (cur, [])
    else
      ranges.foldl (fun acc r ↦
        (overwrite acc.1 r.start ((prev.drop r.start).take (r.stop - r.start)),
          acc.2 ++ [(r.start, (acc.1.drop r.start).take (r.stop - r.start))])) (cur, [])

/-- Put back what `applyMasks` overwrote. -/
def unmask (state : Bytes) (masked : List (Nat × Bytes)) : Bytes :=
  masked.foldl (fun state m ↦ overwrite state m.1 m.2) state

end SuperShuckie
