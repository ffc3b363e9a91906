import SuperShuckie.KeyframeMasks

/-!
# The layout of a masked state

A mask copies the transient range of the previous keyframe, and the next look at the masked state
has to find the same range.  The fields that the layout checks read lie in front of the range
(`ndsTransientRange_congr`), with one exception: the sound buffer of a Game Boy Advance state may
cover the pointer that says where it is.  Then the bytes copied over the pointer are the ones that
stand there, since the previous keyframe has its buffer in the same place (`gbaTransientRange_congr`).

* `ndsWalk`: the walk along the sections of a melonDS state ends by itself.
* `masks_spec`: what `applyMasks` changes, that `unmask` takes it back, and that the ranges stay.
-/

set_option autoImplicit false

namespace SuperShuckie

open ByteFormat

variable {console : ReplayConsoleType} {state state' prev cur : Bytes} {r : ByteRange}

/-! ## Looking at a few bytes -/

/-- Two states have the same bytes in a range. -/
def AgreeOn (start len : Nat) (a b : Bytes) : Prop :=
  ∀ i, start ≤ i → i < start + len → a[i]? = b[i]?

theorem slice?_congr (hlen : state.length = state'.length) {start len : Nat}
    (h : AgreeOn start len state state') : slice? state start len = slice? state' start len := by
  rw [slice?, slice?, hlen]
  split
  · congr 1
    refine List.ext_getElem? fun i ↦ ?_
    by_cases hi : i < len
    · rw [List.getElem?_take_of_lt hi, List.getElem?_take_of_lt hi, List.getElem?_drop,
        List.getElem?_drop]
      exact h _ (Nat.le_add_right _ _) (by omega)
    · rw [List.getElem?_take_eq_none (by omega), List.getElem?_take_eq_none (by omega)]
  · rfl

theorem agreeOn_of_slice? {start len : Nat} {bytes : Bytes} (h : slice? state start len = some bytes)
    (h' : slice? state' start len = some bytes) : AgreeOn start len state state' := by
  intro i hi hlt
  have hat : ∀ {s : Bytes}, slice? s start len = some bytes → s[i]? = bytes[i - start]? := by
    intro s hs
    rw [slice?] at hs
    split at hs
    · cases hs
      rw [List.getElem?_take_of_lt (by omega), List.getElem?_drop, Nat.add_sub_cancel' hi]
    · cases hs
  rw [hat h, hat h']

theorem length_of_slice? {start len : Nat} {bytes : Bytes} (h : slice? state start len = some bytes) :
    bytes.length = len := by
  rw [slice?] at h
  split at h
  · cases h
    rw [List.length_take, List.length_drop]
    omega
  · cases h

theorem u32Le_congr (hlen : state.length = state'.length) {offset : Nat}
    (h : AgreeOn offset 4 state state') : u32Le state offset = u32Le state' offset := by
  rw [u32Le, u32Le, slice?_congr hlen h]

/-- Equal numbers are written with equal bytes. -/
theorem agreeOn_of_u32Le {offset n : Nat} (h : u32Le state offset = some n)
    (h' : u32Le state' offset = some n) : AgreeOn offset 4 state state' := by
  obtain ⟨bytes, hbytes, hn⟩ := Option.map_eq_some_iff.1 h
  obtain ⟨bytes', hbytes', hn'⟩ := Option.map_eq_some_iff.1 h'
  have heq : bytes = bytes' := by
    rw [← leBytes_ofLeBytes bytes, ← leBytes_ofLeBytes bytes', length_of_slice? hbytes,
      length_of_slice? hbytes', hn, hn']
  exact agreeOn_of_slice? hbytes (heq ▸ hbytes')

/-! ## The sections of a melonDS state -/

/-- The walk from an offset comes to its end, with a range or without one. -/
inductive NdsWalk (state : Bytes) : Nat → Option ByteRange → Prop where
  | ended {offset : Nat} : slice? state offset melnSectionHeaderLen = none → NdsWalk state offset none
  | short {offset : Nat} {header : Bytes} :
      slice? state offset melnSectionHeaderLen = some header →
      ofLeBytes ((header.drop 4).take 4) < melnSectionHeaderLen → NdsWalk state offset none
  | found {offset : Nat} {header : Bytes} :
      slice? state offset melnSectionHeaderLen = some header →
      ¬ ofLeBytes ((header.drop 4).take 4) < melnSectionHeaderLen → header.take 4 = gp3dMagic →
      NdsWalk state offset
        (if ofLeBytes ((header.drop 4).take 4) ≠ gp3dSectionLen ∨
            state.length < offset + ofLeBytes ((header.drop 4).take 4) then none
          else some ⟨offset + gp3dVertexRamOffset, offset + gp3dVertexRamOffset + gp3dTransientLen⟩)
  | next {offset : Nat} {header : Bytes} {result : Option ByteRange} :
      slice? state offset melnSectionHeaderLen = some header →
      ¬ ofLeBytes ((header.drop 4).take 4) < melnSectionHeaderLen → header.take 4 ≠ gp3dMagic →
      NdsWalk state (offset + ofLeBytes ((header.drop 4).take 4)) result → NdsWalk state offset result

/-- **The walk ends by itself**: every section is as long as its header, so the fuel that
`ndsTransientRange` gives it is not what ends it. -/
theorem ndsWalk {fuel offset : Nat} (h : state.length < offset + fuel) :
    NdsWalk state offset (ndsSections state fuel offset) := by
  induction fuel generalizing offset with
  | zero =>
    refine .ended ?_
    rw [slice?, if_neg (by omega)]
  | succ fuel ih =>
    rw [ndsSections]
    cases hheader : slice? state offset melnSectionHeaderLen with
    | none => exact .ended hheader
    | some header =>
      dsimp only
      by_cases hshort : ofLeBytes ((header.drop 4).take 4) < melnSectionHeaderLen
      · rw [if_pos hshort]
        exact .short hheader hshort
      · rw [if_neg hshort]
        have hstep : melnSectionHeaderLen ≤ ofLeBytes ((header.drop 4).take 4) := Nat.not_lt.1 hshort
        rw [melnSectionHeaderLen] at hstep
        by_cases hmagic : header.take 4 = gp3dMagic
        · rw [if_pos hmagic]
          exact .found hheader hshort hmagic
        · rw [if_neg hmagic]
          exact .next hheader hshort hmagic (ih (by omega))

/-- The headers on the way to a range lie in front of it. -/
theorem start_ndsSections {fuel offset : Nat} (h : ndsSections state fuel offset = some r) :
    offset + melnSectionHeaderLen ≤ r.start := by
  induction fuel generalizing offset with
  | zero => cases h
  | succ fuel ih =>
    rw [ndsSections] at h
    split at h
    · cases h
    · dsimp only at h
      split_ifs at h
      · cases h
        simp only [melnSectionHeaderLen, gp3dVertexRamOffset]
        omega
      · have hnext := ih h
        omega

/-- A state that is the same up to the range has the same range. -/
theorem ndsSections_congr (hlen : state.length = state'.length)
    (hagree : ∀ i < r.start, state[i]? = state'[i]?) {fuel offset : Nat}
    (h : ndsSections state fuel offset = some r) : ndsSections state' fuel offset = some r := by
  induction fuel generalizing offset with
  | zero => cases h
  | succ fuel ih =>
    have hstart := start_ndsSections h
    have hslice : slice? state offset melnSectionHeaderLen =
        slice? state' offset melnSectionHeaderLen :=
      slice?_congr hlen fun i _ hi ↦ hagree i (by omega)
    rw [ndsSections] at h ⊢
    rw [← hslice, ← hlen]
    split
    · rename_i hheader
      rw [hheader] at h
      cases h
    · rename_i header hheader
      rw [hheader] at h
      dsimp only at h ⊢
      split_ifs at h ⊢
      · exact h
      · exact ih h

theorem ndsTransientRange_congr (hlen : state.length = state'.length)
    (hagree : ∀ i < r.start, state[i]? = state'[i]?) (h : ndsTransientRange state = some r) :
    ndsTransientRange state' = some r := by
  obtain ⟨magic, hmagic, h⟩ := Option.bind_eq_some_iff.mp h
  split at h
  · cases h
  rename_i hmagic'
  obtain ⟨major, hmajor, h⟩ := Option.bind_eq_some_iff.mp h
  split at h
  · cases h
  rename_i hmajor'
  have hstart := start_ndsSections h
  rw [melnHeaderLen, melnSectionHeaderLen] at hstart
  have hfirst : slice? state 0 4 = slice? state' 0 4 :=
    slice?_congr hlen fun i _ hi ↦ hagree i (by omega)
  have hsecond : slice? state 4 2 = slice? state' 4 2 :=
    slice?_congr hlen fun i _ hi ↦ hagree i (by omega)
  refine Option.bind_eq_some_iff.mpr ⟨magic, hfirst ▸ hmagic, ?_⟩
  rw [if_neg hmagic']
  refine Option.bind_eq_some_iff.mpr ⟨major, hsecond ▸ hmajor, ?_⟩
  rw [if_neg hmajor', ← hlen]
  exact ndsSections_congr hlen hagree h

/-! ## The sound buffer of a Game Boy Advance state -/

/-- Where the pointer to the driver's data stands. -/
def gbaPointerOffset : Nat := gbaIwramOffset + (m4aSoundInfoPointer - gbaIwramBase)

/-- What the layout check reads of a state with a sound buffer. -/
structure GbaLayout (state : Bytes) (r : ByteRange) (magic pointer : Nat) : Prop where
  magicAt : u32Le state 0 = some magic
  isMagic : ¬ (state.length < gbaStateLen ∨ magic / 0x10000 * 0x10000 ≠ gbaMagic)
  pointerAt : u32Le state gbaPointerOffset = some pointer
  inRange : ¬ (pointer < gbaIwramBase ∨ gbaIwramBase + gbaIwramSize < pointer + m4aSoundInfoSize)
  ident : u32Le state (gbaIwramOffset + (pointer - gbaIwramBase)) = some m4aSoundInfoIdent
  range : r = ⟨gbaIwramOffset + (pointer - gbaIwramBase) + m4aPcmBufferOffset,
    gbaIwramOffset + (pointer - gbaIwramBase) + m4aPcmBufferOffset + m4aPcmBufferLen⟩

theorem gbaTransientRange_eq_some :
    gbaTransientRange state = some r ↔ ∃ magic pointer, GbaLayout state r magic pointer := by
  constructor
  · intro h
    obtain ⟨magic, hmagic, h⟩ := Option.bind_eq_some_iff.mp h
    split at h
    · cases h
    rename_i hisMagic
    obtain ⟨pointer, hpointer, h⟩ := Option.bind_eq_some_iff.mp h
    split at h
    · cases h
    rename_i hinRange
    obtain ⟨ident, hident, h⟩ := Option.bind_eq_some_iff.mp h
    split at h
    · cases h
    rename_i hisIdent
    cases h
    exact ⟨magic, pointer, hmagic, hisMagic, hpointer, hinRange, not_not.1 hisIdent ▸ hident, rfl⟩
  · rintro ⟨magic, pointer, h⟩
    refine Option.bind_eq_some_iff.mpr ⟨magic, h.magicAt, ?_⟩
    rw [if_neg h.isMagic]
    refine Option.bind_eq_some_iff.mpr ⟨pointer, h.pointerAt, ?_⟩
    rw [if_neg h.inRange]
    refine Option.bind_eq_some_iff.mpr ⟨_, h.ident, ?_⟩
    rw [if_neg (not_not.2 rfl), h.range]

/-- States with their buffers in the same place have the same pointer. -/
theorem GbaLayout.pointer_eq {magic magic' pointer pointer' : Nat}
    (h : GbaLayout state r magic pointer) (h' : GbaLayout state' r magic' pointer') :
    pointer = pointer' := by
  have hrange := h.range.symm.trans h'.range
  have hin := h.inRange
  have hin' := h'.inRange
  simp only [ByteRange.mk.injEq] at hrange
  simp only [gbaIwramOffset, gbaIwramBase, m4aPcmBufferOffset, m4aPcmBufferLen, gbaIwramSize,
    m4aSoundInfoSize] at hrange hin hin'
  omega

/-- **The buffer may cover its own pointer**: a state that is the same in front of the buffer, and
has the same pointer, has the same buffer. -/
theorem gbaTransientRange_congr (hlen : state.length = state'.length)
    (hagree : ∀ i < r.start, state[i]? = state'[i]?)
    (hpointer : AgreeOn gbaPointerOffset 4 state state') (h : gbaTransientRange state = some r) :
    gbaTransientRange state' = some r := by
  obtain ⟨magic, pointer, h⟩ := gbaTransientRange_eq_some.1 h
  have hfront : ∀ {offset : Nat}, offset + 4 ≤ r.start → u32Le state offset = u32Le state' offset :=
    fun hle ↦ u32Le_congr hlen fun i _ hi ↦ hagree i (by omega)
  have hstart : gbaIwramOffset + (pointer - gbaIwramBase) + m4aPcmBufferOffset = r.start := by
    rw [h.range]
  rw [gbaIwramOffset, m4aPcmBufferOffset] at hstart
  refine gbaTransientRange_eq_some.2 ⟨magic, pointer, ?_, hlen ▸ h.isMagic, ?_, h.inRange, ?_, h.range⟩
  · rw [← hfront (by omega)]
    exact h.magicAt
  · rw [← u32Le_congr hlen hpointer]
    exact h.pointerAt
  · rw [← hfront (by rw [gbaIwramOffset]; omega)]
    exact h.ident

/-! ## Masking -/

/-- A console has one transient range at most. -/
theorem transientRanges_eq (h : r ∈ transientRanges console state) :
    transientRanges console state = [r] := by
  cases console with
  | nintendoDS | gameBoyAdvance =>
    rw [transientRanges] at h ⊢
    rw [Option.mem_toList.mp h]
    rfl
  | _ => cases h

/-- The bytes of the previous keyframe's range, in the place of the state's own. -/
def masked (prev cur : Bytes) (r : ByteRange) : Bytes :=
  overwrite cur r.start ((prev.drop r.start).take (r.stop - r.start))

/-- What `applyMasks` does: nothing, or it copies the one range that both states have. -/
theorem applyMasks_cases (console : ReplayConsoleType) (prev cur : Bytes) :
    applyMasks console prev cur = (cur, []) ∨
      ∃ r, prev.length = cur.length ∧ transientRanges console cur = [r] ∧
        transientRanges console prev = [r] ∧
        applyMasks console prev cur =
          (masked prev cur r, [(r.start, (cur.drop r.start).take (r.stop - r.start))]) := by
  by_cases hlen : prev.length ≠ cur.length
  · exact Or.inl (by rw [applyMasks, if_pos hlen])
  by_cases hranges : (transientRanges console cur).isEmpty ∨
      transientRanges console cur ≠ transientRanges console prev
  · exact Or.inl (by rw [applyMasks, if_neg hlen]; exact if_pos hranges)
  obtain ⟨hnonempty, hsame⟩ := not_or.1 hranges
  cases hcur : transientRanges console cur with
  | nil => rw [hcur] at hnonempty; exact absurd rfl hnonempty
  | cons r rest =>
    have hone := transientRanges_eq (show r ∈ transientRanges console cur by rw [hcur]; simp)
    rw [hcur] at hone
    refine Or.inr ⟨r, not_not.1 hlen, hone, ?_, ?_⟩
    · rw [← not_not.1 hsame, hcur, hone]
    · rw [applyMasks, if_neg hlen]
      dsimp only
      rw [if_neg hranges, hcur, hone]
      rfl

theorem length_range_bytes (bs : Bytes) (hr : r.start ≤ r.stop ∧ r.stop ≤ bs.length) :
    ((bs.drop r.start).take (r.stop - r.start)).length = r.stop - r.start := by
  rw [List.length_take, List.length_drop]
  omega

theorem getElem?_masked (hlen : prev.length = cur.length)
    (hr : r.start ≤ r.stop ∧ r.stop ≤ cur.length) (i : Nat) :
    (masked prev cur r)[i]? = if r.start ≤ i ∧ i < r.stop then prev[i]? else cur[i]? := by
  have hbytes := length_range_bytes prev (hlen ▸ hr)
  rw [masked, getElem?_overwrite (by omega), hbytes, Nat.add_sub_cancel' hr.1]
  split_ifs with hi
  · rw [List.getElem?_take_of_lt (by omega), List.getElem?_drop, Nat.add_sub_cancel' hi.1]
  · rfl

theorem length_masked (hlen : prev.length = cur.length)
    (hr : r.start ≤ r.stop ∧ r.stop ≤ cur.length) : (masked prev cur r).length = cur.length := by
  have hbytes := length_range_bytes prev (hlen ▸ hr)
  exact length_overwrite (by omega)

/-- Writing the range's own bytes back gives the state that was masked. -/
theorem overwrite_masked (hlen : prev.length = cur.length)
    (hr : r.start ≤ r.stop ∧ r.stop ≤ cur.length) :
    overwrite (masked prev cur r) r.start ((cur.drop r.start).take (r.stop - r.start)) = cur := by
  have hbytes := length_range_bytes cur hr
  have hmasked := length_masked hlen hr
  refine List.ext_getElem? fun i ↦ ?_
  rw [getElem?_overwrite (by omega), hbytes, Nat.add_sub_cancel' hr.1]
  split_ifs with hi
  · rw [List.getElem?_take_of_lt (by omega), List.getElem?_drop, Nat.add_sub_cancel' hi.1]
  · rw [getElem?_masked hlen hr, if_neg hi]

/-- **A masked state has the ranges that it had.** -/
theorem transientRanges_masked (hlen : prev.length = cur.length)
    (hcur : transientRanges console cur = [r]) (hprev : transientRanges console prev = [r]) :
    transientRanges console (masked prev cur r) = [r] := by
  have hr := transientRanges_le (show r ∈ transientRanges console cur by rw [hcur]; simp)
  have hlen' := (length_masked hlen hr).symm
  have hfront : ∀ i < r.start, cur[i]? = (masked prev cur r)[i]? := fun i hi ↦ by
    rw [getElem?_masked hlen hr, if_neg (by omega)]
  cases console with
  | nintendoDS =>
    have hcur' : ndsTransientRange cur = some r :=
      Option.mem_toList.mp (show r ∈ transientRanges .nintendoDS cur by rw [hcur]; simp)
    rw [transientRanges, ndsTransientRange_congr hlen' hfront hcur']
    rfl
  | gameBoyAdvance =>
    have hcur' : gbaTransientRange cur = some r :=
      Option.mem_toList.mp (show r ∈ transientRanges .gameBoyAdvance cur by rw [hcur]; simp)
    have hprev' : gbaTransientRange prev = some r :=
      Option.mem_toList.mp (show r ∈ transientRanges .gameBoyAdvance prev by rw [hprev]; simp)
    obtain ⟨magic, pointer, hlayout⟩ := gbaTransientRange_eq_some.1 hcur'
    obtain ⟨magic', pointer', hlayout'⟩ := gbaTransientRange_eq_some.1 hprev'
    -- Both pointers are the same, so it does not matter which of them a byte is taken from.
    have hsame : AgreeOn gbaPointerOffset 4 cur prev :=
      agreeOn_of_u32Le hlayout.pointerAt (hlayout.pointer_eq hlayout' ▸ hlayout'.pointerAt)
    have hpointer : AgreeOn gbaPointerOffset 4 cur (masked prev cur r) := by
      intro i hi hlt
      rw [getElem?_masked hlen hr]
      split_ifs
      · exact hsame i hi hlt
      · rfl
    rw [transientRanges, gbaTransientRange_congr hlen' hfront hpointer hcur']
    rfl
  | _ => cases hcur

/-- **What masking does**, for any two byte strings: the walk along a state's sections ends, the
ranges are inside the state, only they change, what is returned are the ranges with the bytes they
had, writing these back gives the state again, and the masked state has the same ranges. -/
theorem masks_spec (console : ReplayConsoleType) (prev cur : Bytes) :
    NdsWalk cur melnHeaderLen (ndsSections cur (cur.length + 1) melnHeaderLen) ∧
      (∀ r ∈ transientRanges console cur, r.start ≤ r.stop ∧ r.stop ≤ cur.length) ∧
      SameOutside (transientRanges console cur) (applyMasks console prev cur).1 cur ∧
      (∀ m ∈ (applyMasks console prev cur).2, ∃ r ∈ transientRanges console cur,
        m = (r.start, (cur.drop r.start).take (r.stop - r.start))) ∧
      unmask (applyMasks console prev cur).1 (applyMasks console prev cur).2 = cur ∧
      transientRanges console (applyMasks console prev cur).1 = transientRanges console cur := by
  refine ⟨ndsWalk (by omega), fun r hr ↦ transientRanges_le hr, ?_⟩
  obtain happly | ⟨r, hlen, hcur, hprev, happly⟩ := applyMasks_cases console prev cur
  · rw [happly]
    exact ⟨SameOutside.refl _ _, fun m hm ↦ absurd hm List.not_mem_nil, rfl, rfl⟩
  · have hmem : r ∈ transientRanges console cur := by
      rw [hcur]
      exact List.mem_singleton_self r
    have hr := transientRanges_le hmem
    have hbytes := length_range_bytes prev (hlen ▸ hr)
    rw [happly]
    refine ⟨sameOutside_overwrite hmem hr.1 (SameOutside.refl _ _) hr.2 (Nat.le_of_eq hbytes), ?_,
      overwrite_masked hlen hr, ?_⟩
    · intro m hm
      obtain rfl := List.mem_singleton.1 hm
      exact ⟨r, hmem, rfl⟩
    · rw [hcur]
      exact transientRanges_masked hlen hcur hprev

end SuperShuckie
