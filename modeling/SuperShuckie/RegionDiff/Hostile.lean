import SuperShuckie.KeyframeMasks
import SuperShuckie.RegionDiff.Touches

/-!
# Applying a hostile region diff

`validateWalk` and `applyWalk` are the two walks of `apply_region_diff_in_place` over one control stream:
the first with checked arithmetic, the second with plain arithmetic and slices, where an overflow, an
index out of bounds or a number that cannot be read is a panic.  Whatever the bytes, the second never
panics after the first has accepted (`applyWalk_of_validateWalk`), and what it leaves is described byte by
byte (`applyRegionDiff_atomic`).
-/

set_option autoImplicit false

namespace SuperShuckie

open ByteFormat Checked

/-! ## The two walks -/

/-- The loop of `validate_region_diff`, the last run having ended at word `pos` and data byte
`dataPos`: the number of data bytes that the runs need. -/
def validateGo (words : Nat) : Nat → Bytes → Nat → Nat → Option Nat
  | _, [], _, dataPos => some dataPos
  | 0, _ :: _, _, _ => none
  | fuel + 1, ctl, pos, dataPos =>
    match readLeb128 ctl with
    | none => none
    | some (gap, ctl) =>
      match readLeb128 ctl with
      | none => none
      | some (len, ctl) =>
        if len = 0 then none
        else
          match (Checked.add pos gap).bind (Checked.add · len) with
          | none => none
          | some stop =>
            if words < stop then none
            else
              match (Checked.mul len 4).bind (Checked.add dataPos) with
              | none => none
              | some dataPos => validateGo words fuel ctl stop dataPos

/-- `validate_region_diff`. -/
def validateWalk (words : Nat) (control : Bytes) (dataLen : Nat) : Bool :=
  validateGo words control.length control 0 0 == some dataLen

/-- `state[start..].copy_from_slice(&bytes[..available])` for a run that ends in the trailing partial
word, `state[start..end].copy_from_slice(bytes)` for any other; `none` is a panic. -/
def copyChecked (state : Bytes) (start : Nat) (bytes : Bytes) : Option Bytes :=
  match Checked.add start bytes.length with
  | none => none
  | some stop =>
    if stop ≤ state.length then some (state.take start ++ bytes ++ state.drop stop)
    else
      match (Checked.sub state.length start).bind (slice? bytes 0) with
      | none => none
      | some part => some (state.take start ++ part)

/-- The loop of `apply_region_diff_in_place`; `none` is a panic. -/
def applyGo (data : Bytes) : Nat → Bytes → Nat → Nat → Bytes → Option Bytes
  | _, [], _, _, state => some state
  | 0, _ :: _, _, _, _ => none
  | fuel + 1, ctl, pos, dataPos, state =>
    match readLeb128 ctl with
    | none => none
    | some (gap, ctl) =>
      match readLeb128 ctl with
      | none => none
      | some (len, ctl) =>
        match Checked.add pos gap, (Checked.mul len 4).bind (Checked.add dataPos) with
        | some pos, some dataStop =>
          match slice? data dataPos (dataStop - dataPos), Checked.mul pos 4, Checked.add pos len with
          | some bytes, some start, some stop =>
            match copyChecked state start bytes with
            | some state => applyGo data fuel ctl stop dataStop state
            | none => none
          | _, _, _ => none
        | _, _ => none

/-- `apply_region_diff_in_place`: what it returns and what it leaves in the state; `none` is a panic. -/
def applyWalk (state control data : Bytes) : Option (Bool × Bytes) :=
  if validateWalk ((state.length + 3) / 4) control data.length then
    (applyGo data control.length control 0 0 state).map (true, ·)
  else some (false, state)

/-! ## The first walk -/

variable {words : Nat} {runs : List (Nat × Nat)}

/-- The sums of the first walk overflow only where a run is refused for its end. -/
theorem validateGo_eq (hwords : words ≤ 2 ^ 61) {fuel : Nat} {ctl : Bytes} {pos dataPos : Nat}
    (hpos : pos ≤ words) (hdata : dataPos ≤ 4 * pos) :
    validateGo words fuel ctl pos dataPos = (controlRunsGo fuel ctl).bind fun runs ↦
      (runs.foldlM (validateRun words) (pos, dataPos)).map Prod.snd := by
  induction fuel generalizing ctl pos dataPos with
  | zero => cases ctl <;> rfl
  | succ fuel ih =>
    obtain _ | ⟨byte, rest⟩ := ctl
    · rfl
    · have hne : byte :: rest ≠ [] := List.cons_ne_nil byte rest
      rw [validateGo.eq_3 _ _ pos dataPos fuel hne, controlRunsGo.eq_3 _ fuel hne]
      cases hgap : readLeb128 (byte :: rest) with
      | none => rfl
      | some read =>
        obtain ⟨gap, ctl⟩ := read
        cases hlen : readLeb128 ctl with
        | none => simp only [hlen, Option.bind_none]
        | some read' =>
          obtain ⟨len, ctl'⟩ := read'
          simp only [hlen, Option.bind_map, Function.comp_def, List.foldlM_cons]
          by_cases hzero : len = 0
          · simp [hzero, validateRun]
          · by_cases hfits : pos + gap + len ≤ words
            · have hstop : (add pos gap).bind (add · len) = some (pos + gap + len) := by
                rw [add_of_lt (by omega), Option.bind_some, add_of_lt (by omega)]
              have hused : (mul len 4).bind (add dataPos) =
                  some (dataPos + len * 4) := by
                rw [mul_of_lt (by omega), Option.bind_some, add_of_lt (by omega)]
              have hrun : validateRun words (pos, dataPos) (gap, len) =
                  some (pos + gap + len, dataPos + len * 4) := by
                rw [validateRun, if_neg hzero, if_neg (Nat.not_lt.mpr hfits)]
              simp only [if_neg hzero, hstop, hused, hrun, if_neg (Nat.not_lt.mpr hfits)]
              exact ih hfits (by omega)
            · have hrun : validateRun words (pos, dataPos) (gap, len) = none := by
                rw [validateRun, if_neg hzero, if_pos (Nat.not_le.mp hfits)]
              simp only [if_neg hzero, hrun]
              have hnone : ∀ stop, (add pos gap).bind (add · len) = some stop →
                  words < stop := by
                intro stop hstop
                obtain ⟨start, hstart, hend⟩ := Option.bind_eq_some_iff.mp hstop
                obtain ⟨-, rfl⟩ := add_eq_some.mp hstart
                obtain ⟨-, rfl⟩ := add_eq_some.mp hend
                omega
              cases hstop : (add pos gap).bind (add · len) with
              | none => simp
              | some stop => simp [hnone stop hstop]

/-- The first walk accepts what `validateRegionDiff` does. -/
theorem validateWalk_eq (hwords : words ≤ 2 ^ 61) (control : Bytes) (dataLen : Nat) :
    validateWalk words control dataLen = validateRegionDiff words control dataLen := by
  rw [validateWalk, validateGo_eq hwords (Nat.zero_le _) (Nat.zero_le _), validateRegionDiff,
    controlRuns]
  cases controlRunsGo control.length control with
  | none => rfl
  | some runs =>
    dsimp only [Option.bind_some]
    cases runs.foldlM (validateRun words) (0, 0) with
    | none => rfl
    | some at' => simp

/-! ## The second walk -/

theorem copyChecked_eq {state bytes : Bytes} {start : Nat} (hstart : start ≤ state.length)
    (hbound : start + bytes.length < 2 ^ 64) :
    copyChecked state start bytes = some (copyRun state start bytes) := by
  rw [copyChecked, add_of_lt hbound, copyRun]
  split_ifs with hfits
  · simp only [if_pos hfits]
  · have hpart : slice? bytes 0 (state.length - start) = some (bytes.take (state.length - start)) := by
      rw [slice?, if_pos (by omega), List.drop_zero]
    simp only [if_neg hfits, sub_of_le hstart, Option.bind_some, hpart]

theorem length_copyRun {state bytes : Bytes} {start : Nat} (hstart : start ≤ state.length) :
    (copyRun state start bytes).length = state.length := by
  rw [copyRun]
  split_ifs with hfits <;> simp <;> omega

/-- What the second walk has used of the data is what the runs it passed need. -/
theorem foldlM_validateRun_data {pos dataPos : Nat} {at' : Nat × Nat}
    (h : runs.foldlM (validateRun words) (pos, dataPos) = some at') : dataPos ≤ at'.2 := by
  induction runs generalizing pos dataPos with
  | nil =>
    rw [List.foldlM_nil, Option.pure_def, Option.some.injEq] at h
    rw [← h]
  | cons run runs ih =>
    rw [List.foldlM_cons] at h
    obtain ⟨next, hrun, hrest⟩ := Option.bind_eq_some_iff.mp h
    rw [validateRun] at hrun
    split_ifs at hrun
    obtain rfl := Option.some.inj hrun
    have := ih hrest
    omega

/-- **The second walk agrees with the first**: on runs that it accepted every sum fits, every slice is
inside its buffer, and the state comes out as the runs say. -/
theorem applyGo_eq {state data : Bytes} (hlen : words = (state.length + 3) / 4)
    (hwords : words ≤ 2 ^ 61) {fuel : Nat} {ctl : Bytes}
    (hruns : controlRunsGo fuel ctl = some runs) {pos dataPos stop : Nat}
    (hfold : runs.foldlM (validateRun words) (pos, dataPos) = some (stop, data.length))
    (hdata : dataPos ≤ 4 * pos) (hpos : pos ≤ words) :
    applyGo data fuel ctl pos dataPos state = some (applyRuns data runs pos dataPos state) := by
  induction fuel generalizing ctl runs pos dataPos state with
  | zero =>
    cases ctl with
    | nil =>
      obtain rfl := Option.some.inj hruns
      rfl
    | cons => cases hruns
  | succ fuel ih =>
    obtain _ | ⟨byte, rest⟩ := ctl
    · obtain rfl := Option.some.inj hruns
      rfl
    · have hne : byte :: rest ≠ [] := List.cons_ne_nil byte rest
      rw [controlRunsGo.eq_3 _ fuel hne] at hruns
      rw [applyGo.eq_3 _ _ pos dataPos state fuel hne]
      cases hgap : readLeb128 (byte :: rest) with
      | none => simp only [hgap, reduceCtorEq] at hruns
      | some read =>
        obtain ⟨gap, ctl⟩ := read
        cases hcount : readLeb128 ctl with
        | none => simp only [hgap, hcount, reduceCtorEq] at hruns
        | some read' =>
          obtain ⟨len, ctl'⟩ := read'
          simp only [hgap, hcount, Option.map_eq_some_iff] at hruns
          obtain ⟨runs, hruns, rfl⟩ := hruns
          rw [List.foldlM_cons] at hfold
          obtain ⟨next, hrun, hfold⟩ := Option.bind_eq_some_iff.mp hfold
          rw [validateRun] at hrun
          split_ifs at hrun with hzero hfits
          obtain rfl := Option.some.inj hrun
          simp only [] at hzero hfits hfold
          have hused := foldlM_validateRun_data hfold
          simp only [] at hused
          have hstart : (pos + gap) * 4 ≤ state.length := by omega
          have hbytes : slice? data dataPos (len * 4) = some ((data.drop dataPos).take (len * 4)) := by
            rw [slice?, if_pos hused]
          have htaken : ((data.drop dataPos).take (len * 4)).length = len * 4 := by
            rw [List.length_take, List.length_drop]
            omega
          have hcopy := @copyChecked_eq state ((data.drop dataPos).take (len * 4)) _ hstart
            (by rw [htaken]; omega)
          have hsame := @length_copyRun state ((data.drop dataPos).take (len * 4)) _ hstart
          have hcountBytes : dataPos + len * 4 - dataPos = len * 4 := Nat.add_sub_cancel_left ..
          simp only [hcount, add_of_lt (show pos + gap < 2 ^ 64 by omega),
            mul_of_lt (show len * 4 < 2 ^ 64 by omega), Option.bind_some,
            add_of_lt (show dataPos + len * 4 < 2 ^ 64 by omega), hcountBytes, hbytes,
            mul_of_lt (show (pos + gap) * 4 < 2 ^ 64 by omega),
            add_of_lt (show pos + gap + len < 2 ^ 64 by omega), hcopy, applyRuns]
          exact ih (by rw [hsame, hlen]) hruns hfold (by omega) (by omega)

/-- The walks do what `applyRegionDiffInPlace` does, and do not panic. -/
theorem applyWalk_eq {state : Bytes} (hstate : state.length < 2 ^ 63) (control data : Bytes) :
    applyWalk state control data =
      match applyRegionDiffInPlace state control data with
      | some state' => some (true, state')
      | none => some (false, state) := by
  have hwords : (state.length + 3) / 4 ≤ 2 ^ 61 := by omega
  rw [applyWalk, validateWalk_eq hwords, applyRegionDiffInPlace]
  split_ifs with hvalid
  · rw [validateRegionDiff] at hvalid
    cases hruns : controlRuns control with
    | none => simp [hruns] at hvalid
    | some runs =>
      simp only [hruns] at hvalid
      cases hfold : runs.foldlM (validateRun ((state.length + 3) / 4)) (0, 0) with
      | none => simp [hfold] at hvalid
      | some at' =>
        simp only [hfold, beq_iff_eq] at hvalid
        rw [applyGo_eq rfl hwords hruns (hfold.trans (congrArg some (Prod.ext rfl hvalid)))
          (Nat.zero_le _) (Nat.zero_le _)]
        rfl
  · rfl

/-! ## What is left in the state -/

/-- The data word that word `k` of the state is replaced by, when it lies in a run: the first run starts
its gap at word `pos` and takes its data from word `used` on. -/
def sourceWord : List (Nat × Nat) → Nat → Nat → Nat → Option Nat
  | [], _, _, _ => none
  | (gap, len) :: runs, pos, used, k =>
    if pos + gap ≤ k ∧ k < pos + gap + len then some (used + (k - (pos + gap)))
    else sourceWord runs (pos + gap + len) (used + len) k

/-- A word has a source exactly when a run covers it. -/
theorem sourceWord_eq_none {pos used k : Nat} :
    sourceWord runs pos used k = none ↔ ¬ Covered runs pos k := by
  induction runs generalizing pos used with
  | nil => simp [sourceWord, Covered]
  | cons run runs ih =>
    rw [sourceWord, Covered]
    split_ifs with hin
    · simp [hin]
    · rw [ih, not_or]
      exact ⟨fun h ↦ ⟨hin, h⟩, And.right⟩

/-- The data words that some runs need. -/
def wordsOf (runs : List (Nat × Nat)) : Nat := (runs.map Prod.snd).sum

theorem wordsOf_cons (run : Nat × Nat) (runs : List (Nat × Nat)) :
    wordsOf (run :: runs) = run.2 + wordsOf runs := by
  simp [wordsOf]

/-- What the first walk accepts: runs that are not empty, inside the words, and as much data as they
need. -/
theorem foldlM_validateRun_eq_some {pos dataPos : Nat} {at' : Nat × Nat} (hpos : pos ≤ words)
    (h : runs.foldlM (validateRun words) (pos, dataPos) = some at') :
    (∀ run ∈ runs, 0 < run.2) ∧ pos + spanOf runs ≤ words ∧ at'.2 = dataPos + 4 * wordsOf runs := by
  induction runs generalizing pos dataPos with
  | nil =>
    rw [List.foldlM_nil, Option.pure_def, Option.some.injEq] at h
    simp [← h, spanOf, wordsOf, hpos]
  | cons run runs ih =>
    rw [List.foldlM_cons] at h
    obtain ⟨next, hrun, hrest⟩ := Option.bind_eq_some_iff.mp h
    rw [validateRun] at hrun
    split_ifs at hrun with hzero hfits
    obtain rfl := Option.some.inj hrun
    simp only [] at hzero hfits hrest
    obtain ⟨hlens, hspan, hdata⟩ := ih (Nat.not_lt.mp hfits) hrest
    refine ⟨fun r hr ↦ ?_, ?_, ?_⟩
    · obtain rfl | hr := List.mem_cons.mp hr
      · exact Nat.pos_of_ne_zero hzero
      · exact hlens r hr
    · rw [spanOf_cons]
      omega
    · rw [wordsOf_cons, hdata]
      omega

theorem getElem?_copyRun {state bytes : Bytes} {start : Nat} (hstart : start ≤ state.length)
    {i : Nat} (hi : i < state.length) : (copyRun state start bytes)[i]? =
      if start ≤ i ∧ i < start + bytes.length then bytes[i - start]? else state[i]? := by
  have hbefore : (state.take start).length = start := List.length_take_of_le hstart
  rw [copyRun]
  split_ifs with hfits hin hin
  · rw [List.append_assoc, List.getElem?_append_right (by omega), hbefore,
      List.getElem?_append_left (by omega)]
  · by_cases hlt : i < start
    · rw [List.append_assoc, List.getElem?_append_left (by omega), List.getElem?_take_of_lt hlt]
    · rw [List.getElem?_append_right (by simp; omega), List.getElem?_drop]
      congr 1
      simp only [List.length_append, hbefore]
      omega
  · rw [List.getElem?_append_right (by omega), hbefore, List.getElem?_take_of_lt (by omega)]
  · rw [List.getElem?_append_left (by omega), List.getElem?_take_of_lt (by omega)]

/-- **Byte by byte**: a byte in a run comes from the data, any other is the one that was there. -/
theorem getElem?_applyRuns {data state : Bytes} {runs : List (Nat × Nat)} {pos used : Nat}
    (hlens : ∀ run ∈ runs, 0 < run.2) (hspan : pos + spanOf runs ≤ (state.length + 3) / 4)
    (hdata : 4 * (used + wordsOf runs) ≤ data.length) :
    (applyRuns data runs pos (4 * used) state).length = state.length ∧
      ∀ i < state.length, (applyRuns data runs pos (4 * used) state)[i]? =
        match sourceWord runs pos used (i / 4) with
        | some w => data[4 * w + i % 4]?
        | none => state[i]? := by
  induction runs generalizing pos used state with
  | nil => exact ⟨rfl, fun i _ ↦ rfl⟩
  | cons run runs ih =>
    obtain ⟨gap, len⟩ := run
    rw [spanOf_cons] at hspan
    rw [wordsOf_cons] at hdata
    have hlen : 0 < len := hlens (gap, len) List.mem_cons_self
    simp only [] at hspan hdata
    have hstart : (pos + gap) * 4 ≤ state.length := by omega
    have hbytes : ((data.drop (4 * used)).take (len * 4)).length = len * 4 := by
      rw [List.length_take, List.length_drop]
      omega
    have hsame := @length_copyRun state ((data.drop (4 * used)).take (len * 4)) _ hstart
    have hnext : 4 * used + len * 4 = 4 * (used + len) := by omega
    obtain ⟨hlength, hrest⟩ := @ih
      (copyRun state ((pos + gap) * 4) ((data.drop (4 * used)).take (len * 4)))
      (pos + gap + len) (used + len)
      (fun r hr ↦ hlens r (List.mem_cons_of_mem _ hr)) (by rw [hsame]; omega) (by omega)
    rw [applyRuns, hnext]
    refine ⟨hlength.trans hsame, fun i hi ↦ ?_⟩
    rw [hrest i (by rwa [hsame]), sourceWord]
    have hcopy := @getElem?_copyRun state ((data.drop (4 * used)).take (len * 4)) _ hstart i hi
    rw [hbytes] at hcopy
    split_ifs with hin
    · -- no later run reaches back to the word
      have hlater : sourceWord runs (pos + gap + len) (used + len) (i / 4) = none :=
        sourceWord_eq_none.mpr (not_covered_of_lt hin.2)
      have hindex : 4 * used + (i - (pos + gap) * 4) = 4 * (used + (i / 4 - (pos + gap))) + i % 4 := by
        omega
      rw [hlater, hcopy, if_pos (by omega), List.getElem?_take_of_lt (by omega), List.getElem?_drop,
        hindex]
    · cases hsource : sourceWord runs (pos + gap + len) (used + len) (i / 4) with
      | some w => rfl
      | none => exact hcopy.trans (if_neg (by omega))

/-- What is known of a diff that was applied: its runs are in the words of the state, its data holds
exactly their words, and a byte changes only in a run, to the byte of its data. -/
theorem applyRegionDiffInPlace_eq_some {state control data state' : Bytes}
    (h : applyRegionDiffInPlace state control data = some state') :
    ∃ runs, controlRuns control = some runs ∧ (∀ run ∈ runs, 0 < run.2) ∧
      spanOf runs ≤ (state.length + 3) / 4 ∧ data.length = 4 * wordsOf runs ∧
      state'.length = state.length ∧
      ∀ i < state.length, state'[i]? =
        match sourceWord runs 0 0 (i / 4) with
        | some w => data[4 * w + i % 4]?
        | none => state[i]? := by
  rw [applyRegionDiffInPlace] at h
  split_ifs at h with hvalid
  obtain ⟨runs, hruns, rfl⟩ := Option.map_eq_some_iff.mp h
  simp only [validateRegionDiff, hruns] at hvalid
  cases hfold : runs.foldlM (validateRun ((state.length + 3) / 4)) (0, 0) with
  | none => simp [hfold] at hvalid
  | some at' =>
    simp only [hfold, beq_iff_eq] at hvalid
    obtain ⟨hlens, hspan, hused⟩ := foldlM_validateRun_eq_some (Nat.zero_le _) hfold
    rw [Nat.zero_add] at hspan hused
    have hdata : data.length = 4 * wordsOf runs := hvalid.symm.trans hused
    obtain ⟨hlength, hbytes⟩ := @getElem?_applyRuns data state runs 0
      0 hlens (by omega) (by omega)
    exact ⟨runs, hruns, hlens, hspan, hdata, hlength, hbytes⟩

/-- **Applying a region diff is total and atomic**, whatever the state, the control stream and the data:
it does not panic; when it returns `false` the state is the one before; and when it returns `true`, the
control stream is a sequence of pairs whose runs are not empty and lie inside the padded words, the data
holds exactly their words, and a byte changes only in a run, to the byte of its data. -/
theorem applyRegionDiff_atomic {state : Bytes} (hstate : state.length < 2 ^ 63)
    (control data : Bytes) :
    ∃ applied state', applyWalk state control data = some (applied, state') ∧
      (applied = false → state' = state) ∧
      (applied = true → ∃ runs, controlRuns control = some runs ∧ (∀ run ∈ runs, 0 < run.2) ∧
        spanOf runs ≤ (state.length + 3) / 4 ∧ data.length = 4 * wordsOf runs ∧
        state'.length = state.length ∧
        ∀ i < state.length, state'[i]? =
          match sourceWord runs 0 0 (i / 4) with
          | some w => data[4 * w + i % 4]?
          | none => state[i]?) := by
  rw [applyWalk_eq hstate]
  cases happly : applyRegionDiffInPlace state control data with
  | none => exact ⟨false, state, rfl, fun _ ↦ rfl, fun h ↦ nomatch h⟩
  | some state' =>
    exact ⟨true, state', rfl, fun h ↦ (nomatch h), fun _ ↦ applyRegionDiffInPlace_eq_some happly⟩

/-- A run past the end is refused, and one that ends in the partial word is applied. -/
theorem applyRegionDiff_atomic_partial :
    ∃ applied state', applyWalk [1, 2, 3, 4, 5] [1, 1] [6, 0, 0, 0] = some (applied, state') ∧
      (applied = false → state' = [1, 2, 3, 4, 5]) ∧
      (applied = true → ∃ runs, controlRuns [1, 1] = some runs ∧ (∀ run ∈ runs, 0 < run.2) ∧
        spanOf runs ≤ ([1, 2, 3, 4, 5].length + 3) / 4 ∧
        [6, 0, 0, 0].length = 4 * wordsOf runs ∧ state'.length = [1, 2, 3, 4, 5].length ∧
        ∀ i < [1, 2, 3, 4, 5].length, state'[i]? =
          match sourceWord runs 0 0 (i / 4) with
          | some w => ([6, 0, 0, 0] : Bytes)[4 * w + i % 4]?
          | none => ([1, 2, 3, 4, 5] : Bytes)[i]?) :=
  @applyRegionDiff_atomic [1, 2, 3, 4, 5] (by decide) [1, 1] [6, 0, 0, 0]

end SuperShuckie
