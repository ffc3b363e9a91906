import SuperShuckie.Lib.LittleEndian

/-!
# Region diffs

A region diff turns one save state into another of the same length: a `control` stream of LEB128
`(gap, len)` pairs counted in four-byte words (`gap` unchanged words, then `len` replaced ones) and
a `data` stream with the replacement bytes.  `regionDiff` finds the runs, `applyRegionDiffInPlace`
checks a diff against the length of the state and writes them.

The correctness argument goes through `Patches R P C`: the list of runs `R` turns the words `P`
into the words `C`.  The scan of `regionDiff` keeps such a list as a ghost (`Scan`), and the loop
of `applyRegionDiffInPlace` is followed run by run along it.  A trailing partial word is zero-padded
on both sides, which is why the loop's state is described as a prefix (`take n`) of whole words.

* `applyRegionDiffInPlace_regionDiff`: the diff of two states of one length turns the first into
  the second.
* `applyRegionDiffInPlace_regionDiffResizing`: the same for states of different lengths, once the
  first has been resized to the length of the second.
-/

set_option autoImplicit false

namespace SuperShuckie

open ByteFormat

/-! ## Words -/

/-- `as_chunks::<4>`: the whole four-byte words of a byte string, and the bytes left over. -/
def asChunks : Bytes → List Bytes × Bytes
  | a :: b :: c :: d :: rest => ([a, b, c, d] :: (asChunks rest).1, (asChunks rest).2)
  | extra => ([], extra)

/-- Zero-pad a trailing partial word. -/
def padWord (extra : Bytes) : Bytes := extra ++ List.replicate (4 - extra.length) 0

/-- All words of a byte string, a trailing partial one zero-padded. -/
def padWords (bs : Bytes) : List Bytes :=
  (asChunks bs).1 ++ if (asChunks bs).2.isEmpty then [] else [padWord (asChunks bs).2]

theorem asChunks_spec (bs : Bytes) :
    (asChunks bs).1.flatten ++ (asChunks bs).2 = bs ∧ (asChunks bs).2.length < 4 ∧
      (∀ w ∈ (asChunks bs).1, w.length = 4) ∧ (asChunks bs).1.length = bs.length / 4 := by
  induction bs using asChunks.induct with
  | case1 a b c d rest ih =>
    obtain ⟨hflat, hextra, hwords, hcount⟩ := ih
    refine ⟨by simp [asChunks, hflat], by simpa [asChunks] using hextra, ?_, ?_⟩
    · intro w hw
      rw [asChunks, List.mem_cons] at hw
      rcases hw with rfl | hw
      · rfl
      · exact hwords w hw
    · simp only [asChunks, List.length_cons, hcount]
      omega
  | case2 extra hshort =>
    have hlt : extra.length < 4 := by
      match extra, hshort with
      | [], _ => decide
      | [_], _ => simp
      | [_, _], _ => simp
      | [_, _, _], _ => simp
      | a :: b :: c :: d :: rest, h => exact (h a b c d rest rfl).elim
    have hempty : asChunks extra = ([], extra) := by
      rw [asChunks]
      exact hshort
    simp only [hempty, List.flatten_nil, List.nil_append, List.not_mem_nil, false_implies,
      implies_true, List.length_nil, hlt, true_and]
    omega

theorem length_flatten_of_words {ws : List Bytes} (h : ∀ w ∈ ws, w.length = 4) :
    ws.flatten.length = 4 * ws.length := by
  induction ws with
  | nil => rfl
  | cons w ws ih =>
    have hw := h w List.mem_cons_self
    have hrest := ih fun v hv ↦ h v (List.mem_cons_of_mem w hv)
    simp only [List.flatten_cons, List.length_append, List.length_cons, hw, hrest]
    omega

theorem length_padWord {extra : Bytes} (h : extra.length < 4) : (padWord extra).length = 4 := by
  simp only [padWord, List.length_append, List.length_replicate]
  omega

theorem length_of_mem_padWords {bs w : Bytes} (h : w ∈ padWords bs) : w.length = 4 := by
  obtain ⟨-, hextra, hwords, -⟩ := asChunks_spec bs
  rw [padWords, List.mem_append] at h
  rcases h with h | h
  · exact hwords w h
  · split at h
    · cases h
    · rw [List.mem_singleton] at h
      rw [h, length_padWord hextra]

/-- The padded words start with the byte string they come from. -/
theorem flatten_padWords (bs : Bytes) :
    ∃ pad, (padWords bs).flatten = bs ++ pad ∧ pad.length < 4 := by
  obtain ⟨hflat, hextra, -, -⟩ := asChunks_spec bs
  by_cases hnil : (asChunks bs).2 = []
  · rw [hnil, List.append_nil] at hflat
    exact ⟨[], by simp [padWords, hnil, hflat], by decide⟩
  · have hpos : 0 < (asChunks bs).2.length := List.length_pos_iff.mpr hnil
    rw [padWords, if_neg (by simpa using hnil)]
    refine ⟨List.replicate (4 - (asChunks bs).2.length) 0, ?_, ?_⟩
    · rw [List.flatten_append, List.flatten_singleton, padWord, ← List.append_assoc, hflat]
    · rw [List.length_replicate]
      omega

theorem length_padWords_eq {bs cs : Bytes} (h : bs.length = cs.length) :
    (asChunks bs).1.length = (asChunks cs).1.length ∧
      (asChunks bs).2.length = (asChunks cs).2.length := by
  obtain ⟨hb, -, hbw, hbc⟩ := asChunks_spec bs
  obtain ⟨hc, -, hcw, hcc⟩ := asChunks_spec cs
  have hb' := congrArg List.length hb
  have hc' := congrArg List.length hc
  rw [List.length_append, length_flatten_of_words hbw] at hb'
  rw [List.length_append, length_flatten_of_words hcw] at hc'
  omega

theorem isEmpty_congr {bs cs : Bytes} (h : bs.length = cs.length) : bs.isEmpty = cs.isEmpty := by
  rw [Bool.eq_iff_iff, List.isEmpty_iff_length_eq_zero, List.isEmpty_iff_length_eq_zero, h]

/-! ## Finding the runs -/

/-- A region diff (`RegionDiff`). -/
structure RegionDiff where
  /-- LEB128 `(gap, len)` pairs, in words. -/
  control : Bytes
  /-- Replacement bytes of every run, concatenated. -/
  data : Bytes
  /-- Number of runs. -/
  runs : Nat
deriving DecidableEq, Repr

/-- Total encoded size. -/
def RegionDiff.encodedLen (d : RegionDiff) : Nat := d.control.length + d.data.length

/-- The variables of the loop of `region_diff`. -/
structure DiffState where
  control : Bytes
  data : Bytes
  runs : Nat
  /-- Unchanged words since the end of the previous run. -/
  gap : Nat
  /-- Length of the run being emitted, 0 outside a run. -/
  runLen : Nat

/-- One changed word: it starts a run or goes on with one. -/
def DiffState.changed (st : DiffState) (cur : Bytes) : DiffState :=
  if st.runLen = 0 then
    { control := st.control ++ leb128 st.gap
      data := st.data ++ cur
      runs := st.runs + 1
      gap := 0
      runLen := 1 }
  else { st with data := st.data ++ cur, runLen := st.runLen + 1 }

/-- The end of the run being emitted, if there is one. -/
def DiffState.endRun (st : DiffState) : DiffState :=
  if 0 < st.runLen then { st with control := st.control ++ leb128 st.runLen, runLen := 0 } else st

/-- One word of the scan. -/
def DiffState.word (st : DiffState) (prev cur : Bytes) : DiffState :=
  if prev ≠ cur then st.changed cur else { st.endRun with gap := st.endRun.gap + 1 }

/-- The block sizes, in words, in which an unchanged stretch is skipped. -/
def diffBlocks : List Nat := [1024, 16]

/-- The scan of `region_diff` over the whole words: outside a run an unchanged block is skipped at
once.  `fuel` bounds the number of iterations; one a word is enough. -/
def diffWords : Nat → List Bytes → List Bytes → DiffState → DiffState
  | fuel + 1, p :: ps, c :: cs, st =>
    let block := if st.runLen = 0 then
        diffBlocks.find? fun b ↦ decide (b ≤ (p :: ps).length) &&
          ((p :: ps).take b == (c :: cs).take b)
      else none
    match block with
    | some b => diffWords fuel ((p :: ps).drop b) ((c :: cs).drop b) { st with gap := st.gap + b }
    | none => diffWords fuel ps cs (st.word p c)
  | _, _, _, st => st

/-- Compute the region diff that turns `prev` into `cur`, or `none` when the lengths differ. -/
def regionDiff (prev cur : Bytes) : Option RegionDiff :=
  if prev.length ≠ cur.length then none
  else
    let (prevWords, prevExtra) := asChunks prev
    let (curWords, curExtra) := asChunks cur
    let st := diffWords prevWords.length prevWords curWords ⟨[], [], 0, 0, 0⟩
    let st := if !curExtra.isEmpty && padWord prevExtra != padWord curExtra then
        st.changed (padWord curExtra)
      else st
    some ⟨st.endRun.control, st.endRun.data, st.endRun.runs⟩

/-! ## Reading and applying them -/

/-- The `(gap, len)` pairs of a control stream; `none` when it is not a sequence of such pairs. -/
def controlRunsGo : Nat → Bytes → Option (List (Nat × Nat))
  | _, [] => some []
  | 0, _ :: _ => none
  | fuel + 1, ctl =>
    match readLeb128 ctl with
    | none => none
    | some (gap, ctl) =>
      match readLeb128 ctl with
      | none => none
      | some (len, ctl) => (controlRunsGo fuel ctl).map ((gap, len) :: ·)

/-- The `(gap, len)` pairs of a control stream.  Every pair takes at least a byte. -/
def controlRuns (control : Bytes) : Option (List (Nat × Nat)) := controlRunsGo control.length control

/-- The word position just past the last run of a valid `control` stream. -/
def controlEnd (control : Bytes) : Nat :=
  match controlRuns control with
  | none => 0
  | some runs => (runs.map fun r ↦ r.1 + r.2).sum

/-- Check one run: it is not empty and stays within `words` words.  The pair that is carried is the
word position and the number of data bytes used so far. -/
def validateRun (words : Nat) (at' : Nat × Nat) (run : Nat × Nat) : Option (Nat × Nat) :=
  if run.2 = 0 then none
  else if words < at'.1 + run.1 + run.2 then none
  else some (at'.1 + run.1 + run.2, at'.2 + run.2 * 4)

/-- Every run stays within `words` words and `data` holds exactly the bytes the runs need. -/
def validateRegionDiff (words : Nat) (control : Bytes) (dataLen : Nat) : Bool :=
  match controlRuns control with
  | none => false
  | some runs =>
    match runs.foldlM (validateRun words) (0, 0) with
    | none => false
    | some at' => at'.2 == dataLen

/-- Write `bytes` at `start`; a run may end in the zero-padded trailing partial word. -/
def copyRun (state : Bytes) (start : Nat) (bytes : Bytes) : Bytes :=
  if start + bytes.length ≤ state.length then
    state.take start ++ bytes ++ state.drop (start + bytes.length)
  else state.take start ++ bytes.take (state.length - start)

/-- Write the runs one after the other, from word `pos` and data byte `dataPos` on. -/
def applyRuns (data : Bytes) : List (Nat × Nat) → Nat → Nat → Bytes → Bytes
  | [], _, _, state => state
  | (gap, len) :: runs, pos, dataPos, state =>
    applyRuns data runs (pos + gap + len) (dataPos + len * 4)
      (copyRun state ((pos + gap) * 4) ((data.drop dataPos).take (len * 4)))

/-- Apply a region diff to `state`.  `none` leaves the state untouched: the diff is malformed (a
run past the end, missing or left over data, bad LEB128). -/
def applyRegionDiffInPlace (state control data : Bytes) : Option Bytes :=
  if validateRegionDiff ((state.length + 3) / 4) control data.length then
    (controlRuns control).map fun runs ↦ applyRuns data runs 0 0 state
  else none

/-- `Vec::resize` with zeros: extend or truncate to `n` bytes. -/
def resizeZero (state : Bytes) (n : Nat) : Bytes :=
  state.take n ++ List.replicate (n - state.length) 0

@[simp] theorem length_resizeZero (state : Bytes) (n : Nat) : (resizeZero state n).length = n := by
  simp only [resizeZero, List.length_append, List.length_take, List.length_replicate]
  omega

/-- The region diff for states whose length may differ: the common whole words are diffed, and
what `cur` has past them is one final run. -/
def regionDiffResizing (prev cur : Bytes) : RegionDiff :=
  if prev.length = cur.length then (regionDiff prev cur).getD ⟨[], [], 0⟩
  else
    let commonWords := min prev.length cur.length / 4
    let diff :=
      (regionDiff (prev.take (commonWords * 4)) (cur.take (commonWords * 4))).getD ⟨[], [], 0⟩
    let tail := cur.drop (commonWords * 4)
    if tail.isEmpty then diff
    else
      let (tailWords, tailExtra) := asChunks tail
      let gap := commonWords - controlEnd diff.control
      let len := tailWords.length + if tailExtra.isEmpty then 0 else 1
      { control := diff.control ++ leb128 gap ++ leb128 len
        data := diff.data ++ tailWords.flatten ++
          if tailExtra.isEmpty then [] else padWord tailExtra
        runs := diff.runs + 1 }

/-! ## Runs as a rewriting of words -/

/-- The runs `R`, each a number of unchanged words and the words replacing the next ones, turn the
words `P` into the words `C`. -/
inductive Patches : List (Nat × List Bytes) → List Bytes → List Bytes → Prop
  | nil : Patches [] [] []
  | cons {same old new P C : List Bytes} {R : List (Nat × List Bytes)} :
      old.length = new.length → new ≠ [] → Patches R P C →
      Patches ((same.length, new) :: R) (same ++ (old ++ P)) (same ++ (new ++ C))

/-- The control stream of a list of runs. -/
def encodeRuns (R : List (Nat × List Bytes)) : Bytes :=
  R.flatMap fun r ↦ leb128 r.1 ++ leb128 r.2.length

/-- The data stream of a list of runs. -/
def runData (R : List (Nat × List Bytes)) : Bytes := (R.flatMap Prod.snd).flatten

variable {R : List (Nat × List Bytes)} {P C : List Bytes} {st : DiffState}

theorem Patches.snoc (same : List Bytes) {old new : List Bytes} (h : Patches R P C)
    (hlen : old.length = new.length) (hne : new ≠ []) :
    Patches (R ++ [(same.length, new)]) (P ++ (same ++ old)) (C ++ (same ++ new)) := by
  induction h with
  | nil => simpa using Patches.cons hlen hne Patches.nil
  | cons hlen' hne' _ ih => simpa using Patches.cons hlen' hne' ih

theorem Patches.run_le (h : Patches R P C) :
    ∀ r ∈ R, r.1 ≤ P.length ∧ r.2.length ≤ P.length := by
  induction h with
  | nil => simp
  | cons hlen _ _ ih =>
    intro r hr
    simp only [List.length_append]
    rcases List.mem_cons.mp hr with rfl | hr
    · dsimp only
      omega
    · have := ih r hr
      omega

theorem controlRunsGo_encodeRuns (h : ∀ r ∈ R, r.1 < 2 ^ 64 ∧ r.2.length < 2 ^ 64) {fuel : Nat}
    (hfuel : R.length ≤ fuel) :
    controlRunsGo fuel (encodeRuns R) = some (R.map fun r ↦ (r.1, r.2.length)) := by
  induction R generalizing fuel with
  | nil => cases fuel <;> rfl
  | cons r R ih =>
    obtain ⟨hgap, hlen⟩ := h r List.mem_cons_self
    obtain ⟨fuel, rfl⟩ : ∃ k, fuel = k + 1 := ⟨fuel - 1, by simp at hfuel; omega⟩
    have hrest := ih (fun q hq ↦ h q (List.mem_cons_of_mem r hq)) (Nat.le_of_succ_le_succ hfuel)
    have henc : encodeRuns (r :: R) = leb128 r.1 ++ (leb128 r.2.length ++ encodeRuns R) := by
      simp [encodeRuns]
    have hne : encodeRuns (r :: R) ≠ [] := by
      rw [henc]
      simp [leb128_ne_nil]
    rw [controlRunsGo.eq_3 _ fuel hne, henc]
    simp only [readLeb128_leb128 hgap, readLeb128_leb128 hlen, hrest, Option.map_some,
      List.map_cons]

theorem length_le_encodeRuns (R : List (Nat × List Bytes)) : R.length ≤ (encodeRuns R).length := by
  induction R with
  | nil => simp
  | cons r R ih =>
    have hpos : 0 < (leb128 r.1).length := List.length_pos_iff.mpr (leb128_ne_nil r.1)
    simp only [encodeRuns, List.flatMap_cons, List.length_append, List.length_cons] at ih ⊢
    omega

theorem controlRuns_encodeRuns (h : Patches R P C) (hP : P.length < 2 ^ 64) :
    controlRuns (encodeRuns R) = some (R.map fun r ↦ (r.1, r.2.length)) :=
  controlRunsGo_encodeRuns
    (fun r hr ↦ ⟨lt_of_le_of_lt (h.run_le r hr).1 hP, lt_of_le_of_lt (h.run_le r hr).2 hP⟩)
    (length_le_encodeRuns R)

theorem foldlM_validateRun (h : Patches R P C) (hC : ∀ w ∈ C, w.length = 4) {words : Nat}
    (pos dataPos : Nat) (hpos : pos + P.length ≤ words) :
    ∃ pos', (R.map fun r ↦ (r.1, r.2.length)).foldlM (validateRun words) (pos, dataPos) =
      some (pos', dataPos + (runData R).length) := by
  induction h generalizing pos dataPos with
  | nil => exact ⟨pos, rfl⟩
  | @cons same old new P C R hlen hne _ ih =>
    have hnew : ∀ w ∈ new, w.length = 4 := fun w hw ↦ hC w (by simp [hw])
    have hrest : ∀ w ∈ C, w.length = 4 := fun w hw ↦ hC w (by simp [hw])
    have hpos0 : 0 < new.length := List.length_pos_iff.mpr hne
    simp only [List.length_append] at hpos
    have hstep : validateRun words (pos, dataPos) (same.length, new.length) =
        some (pos + same.length + new.length, dataPos + new.length * 4) := by
      simp only [validateRun]
      rw [if_neg (by omega), if_neg (by omega)]
    obtain ⟨pos', hfold⟩ := ih hrest (pos + same.length + new.length)
      (dataPos + new.length * 4) (by omega)
    refine ⟨pos', ?_⟩
    have hdata : (runData ((same.length, new) :: R)).length =
        new.length * 4 + (runData R).length := by
      simp only [runData, List.flatMap_cons, List.flatten_append, List.length_append,
        length_flatten_of_words hnew]
      omega
    rw [List.map_cons, List.foldlM_cons, hstep, hdata, ← Nat.add_assoc]
    exact hfold

/-- Writing over the middle of a byte string of which only the first `n` bytes are kept. -/
theorem copyRun_take {a b c bytes : Bytes} {n : Nat} (hb : b.length = bytes.length)
    (ha : a.length ≤ n) (hn : n ≤ (a ++ (b ++ c)).length) :
    copyRun ((a ++ (b ++ c)).take n) a.length bytes = (a ++ (bytes ++ c)).take n := by
  have hlen : ((a ++ (b ++ c)).take n).length = n := List.length_take_of_le hn
  have htake : ((a ++ (b ++ c)).take n).take a.length = a := by
    rw [List.take_take, Nat.min_eq_left ha, List.take_left']
    rfl
  simp only [copyRun, hlen, htake]
  split
  · have hdrop : ((a ++ (b ++ c)).take n).drop (a.length + bytes.length) =
        c.take (n - (a.length + bytes.length)) := by
      rw [← List.append_assoc, List.drop_take, List.drop_left' (by simp [hb])]
    rw [hdrop, ← List.append_assoc a bytes c, List.take_append, List.length_append,
      List.take_of_length_le (l := a ++ bytes) (by simpa using ‹_›)]
  · have hz : n - a.length - bytes.length = 0 := by omega
    rw [List.take_append, List.take_of_length_le ha, List.take_append, hz, List.take_zero,
      List.append_nil]

/-- The loop of `applyRegionDiffInPlace`, run by run: the words already passed are the new ones,
the words still to come the old ones, and only the first `n` bytes of them are there. -/
theorem applyRuns_of_patches (h : Patches R P C) (hP : ∀ w ∈ P, w.length = 4)
    (hC : ∀ w ∈ C, w.length = 4) (data tail : Bytes) (n : Nat) (done : List Bytes)
    (hdone : ∀ w ∈ done, w.length = 4) (dataPos : Nat) (hdata : data.drop dataPos = runData R)
    (hn : n ≤ (done.flatten ++ (P.flatten ++ tail)).length)
    (hpad : (done.flatten ++ P.flatten).length < n + 4) :
    applyRuns data (R.map fun r ↦ (r.1, r.2.length)) done.length dataPos
      ((done.flatten ++ (P.flatten ++ tail)).take n) =
      (done.flatten ++ (C.flatten ++ tail)).take n := by
  induction h generalizing done dataPos with
  | nil => rfl
  | @cons same old new P C R hlen hne hR ih =>
    have hsame : ∀ w ∈ same, w.length = 4 := fun w hw ↦ hP w (by simp [hw])
    have hold : ∀ w ∈ old, w.length = 4 := fun w hw ↦ hP w (by simp [hw])
    have hnew : ∀ w ∈ new, w.length = 4 := fun w hw ↦ hC w (by simp [hw])
    have hpos : 0 < new.length := List.length_pos_iff.mpr hne
    have hpass : ∀ w ∈ done ++ (same ++ new), w.length = 4 := by
      intro w hw
      simp only [List.mem_append] at hw
      rcases hw with hw | hw | hw
      exacts [hdone w hw, hsame w hw, hnew w hw]
    have hbefore : (done.flatten ++ same.flatten).length = (done.length + same.length) * 4 := by
      rw [List.length_append, length_flatten_of_words hdone, length_flatten_of_words hsame]
      omega
    have hlens : old.flatten.length = new.flatten.length := by
      rw [length_flatten_of_words hold, length_flatten_of_words hnew, hlen]
    have hold4 := length_flatten_of_words hold
    have hbytes : (data.drop dataPos).take (new.length * 4) = new.flatten := by
      rw [hdata, runData, List.flatMap_cons, List.flatten_append, List.take_left']
      rw [length_flatten_of_words hnew]
      omega
    have hdata' : data.drop (dataPos + new.length * 4) = runData R := by
      rw [← List.drop_drop, hdata, runData, List.flatMap_cons, List.flatten_append, List.drop_left']
      · rfl
      · rw [length_flatten_of_words hnew]
        omega
    simp only [List.flatten_append, List.length_append] at hn hpad
    have hcopy := copyRun_take (a := done.flatten ++ same.flatten) (b := old.flatten)
      (c := P.flatten ++ tail) (n := n) hlens
      (by simp only [List.length_append] at hbefore ⊢; omega)
      (by simp only [List.length_append]; omega)
    have hrest := ih (fun w hw ↦ hP w (by simp [hw])) (fun w hw ↦ hC w (by simp [hw]))
      (done ++ (same ++ new)) hpass (dataPos + new.length * 4) hdata'
      (by simp only [List.flatten_append, List.length_append]; omega)
      (by simp only [List.flatten_append, List.length_append]; omega)
    simp only [List.flatten_append, List.length_append, List.append_assoc] at hcopy hrest ⊢
    simp only [List.map_cons, applyRuns, hbytes]
    rw [← List.length_append, hbefore] at hcopy
    rw [hcopy, Nat.add_assoc]
    exact hrest

/-- **A list of runs is applied as it reads**: if `R` turns `P` into `C`, its encoding turns the
first `n` bytes of `P` into the first `n` bytes of `C`, when `n` ends in the last word. -/
theorem applyRegionDiffInPlace_of_patches (h : Patches R P C) (hP : ∀ w ∈ P, w.length = 4)
    (hC : ∀ w ∈ C, w.length = 4) (tail : List Bytes) (htail : ∀ w ∈ tail, w.length = 4) {n : Nat}
    (hbound : n < 2 ^ 64) (hn : n ≤ (P ++ tail).flatten.length)
    (hpad : (P ++ tail).flatten.length < n + 4) :
    applyRegionDiffInPlace ((P ++ tail).flatten.take n) (encodeRuns R) (runData R) =
      some ((C ++ tail).flatten.take n) := by
  have hP4 := length_flatten_of_words hP
  have htail4 := length_flatten_of_words htail
  have hlen : ((P ++ tail).flatten.take n).length = n := List.length_take_of_le hn
  simp only [List.flatten_append, List.length_append] at hn hpad
  have hruns := controlRuns_encodeRuns h (by omega)
  obtain ⟨pos, hfold⟩ := foldlM_validateRun h hC 0 0
    (show 0 + P.length ≤ (n + 3) / 4 by omega)
  rw [Nat.zero_add] at hfold
  have hvalid : validateRegionDiff ((n + 3) / 4) (encodeRuns R) (runData R).length = true := by
    simp only [validateRegionDiff, hruns, hfold, beq_self_eq_true]
  have happly := applyRuns_of_patches h hP hC (runData R) tail.flatten n [] (by simp) 0 rfl (by simpa using hn) (by rw [List.flatten_nil, List.nil_append]; omega)
  simp only [List.flatten_nil, List.nil_append, List.length_nil] at happly
  rw [applyRegionDiffInPlace, hlen, if_pos hvalid, hruns, Option.map_some, List.flatten_append,
    happly, List.flatten_append]

/-! ## The scan keeps a list of runs -/

/-- What the variables of the scan stand for once the words `P` of the old state and `C` of the new
one have been passed. -/
inductive Scan : DiffState → List Bytes → List Bytes → Prop
  /-- Outside a run: after the runs, `same` unchanged words. -/
  | gap {P C : List Bytes} {R : List (Nat × List Bytes)} (same : List Bytes) :
      Patches R P C →
      Scan ⟨encodeRuns R, runData R, R.length, same.length, 0⟩ (P ++ same) (C ++ same)
  /-- Inside a run of the words `new`, whose gap has been written already. -/
  | run {P C : List Bytes} {R : List (Nat × List Bytes)} (same old new : List Bytes) :
      Patches R P C → old.length = new.length → new ≠ [] →
      Scan ⟨encodeRuns R ++ leb128 same.length, runData R ++ new.flatten, R.length + 1, 0, new.length⟩
        (P ++ (same ++ old)) (C ++ (same ++ new))

theorem encodeRuns_snoc (R : List (Nat × List Bytes)) (gap : Nat) (new : List Bytes) :
    encodeRuns (R ++ [(gap, new)]) = encodeRuns R ++ leb128 gap ++ leb128 new.length := by
  simp [encodeRuns]

theorem runData_snoc (R : List (Nat × List Bytes)) (gap : Nat) (new : List Bytes) :
    runData (R ++ [(gap, new)]) = runData R ++ new.flatten := by
  simp [runData]

/-- At the end of a run the list of runs has that run as its last. -/
theorem Scan.endRun (h : Scan st P C) :
    ∃ P' C' R same, Patches R P' C' ∧ P = P' ++ same ∧ C = C' ++ same ∧
      st.endRun = ⟨encodeRuns R, runData R, R.length, same.length, 0⟩ := by
  cases h with
  | @gap P C R same hR => exact ⟨P, C, R, same, hR, rfl, rfl, rfl⟩
  | @run P C R same old new hR hlen hne =>
    have hpos : 0 < new.length := List.length_pos_iff.mpr hne
    refine ⟨_, _, _, [], hR.snoc same hlen hne, (List.append_nil _).symm, (List.append_nil _).symm, ?_⟩
    simp only [DiffState.endRun, if_pos hpos, encodeRuns_snoc, runData_snoc, List.length_nil,
      List.length_append, List.length_cons]

theorem Scan.changed (h : Scan st P C) (p c : Bytes) :
    Scan (st.changed c) (P ++ [p]) (C ++ [c]) := by
  cases h with
  | @gap P C R same hR =>
    have hrun := Scan.run same [p] [c] hR rfl (by simp)
    simpa [DiffState.changed] using hrun
  | @run P C R same old new hR hlen hne =>
    have hrun := Scan.run same (old ++ [p]) (new ++ [c]) hR (by simp [hlen]) (by simp)
    have hpos : new.length ≠ 0 := by simpa using hne
    simpa [DiffState.changed, hpos] using hrun

theorem Scan.word (h : Scan st P C) (p c : Bytes) : Scan (st.word p c) (P ++ [p]) (C ++ [c]) := by
  rw [DiffState.word]
  split
  · exact h.changed p c
  · rename_i hne
    have hpc : p = c := not_not.mp hne
    obtain ⟨P', C', R, same, hR, rfl, rfl, hst⟩ := h.endRun
    have hgap := Scan.gap (same ++ [c]) hR
    simpa [hst, hpc] using hgap

/-- Skipping a block of words that are the same in both states. -/
theorem Scan.skip (h : Scan st P C) (hst : st.runLen = 0) (block : List Bytes) :
    Scan { st with gap := st.gap + block.length } (P ++ block) (C ++ block) := by
  cases h with
  | @gap P C R same hR =>
    have hgap := Scan.gap (same ++ block) hR
    simpa using hgap
  | run same old new hR hlen hne => exact absurd hst (by simpa using hne)

theorem Scan.diffWords (h : Scan st P C) (fuel : Nat) {ps cs : List Bytes}
    (hlen : ps.length = cs.length) (hfuel : ps.length ≤ fuel) :
    Scan (diffWords fuel ps cs st) (P ++ ps) (C ++ cs) := by
  induction fuel generalizing ps cs st P C with
  | zero =>
    have hps : ps = [] := by simpa using hfuel
    have hcs : cs = [] := by simpa [hps] using hlen.symm
    simpa [hps, hcs, SuperShuckie.diffWords] using h
  | succ fuel ih =>
    match ps, cs with
    | [], [] => simpa [SuperShuckie.diffWords] using h
    | p :: ps, c :: cs =>
      simp only [List.length_cons, Nat.add_right_cancel_iff, Nat.add_le_add_iff_right] at hlen hfuel
      simp only [SuperShuckie.diffWords]
      split
      · rename_i b hb
        split at hb
        · have hmem : b ∈ diffBlocks := List.mem_of_find?_eq_some hb
          have hfound := List.find?_some hb
          simp only [Bool.and_eq_true, decide_eq_true_eq, beq_iff_eq] at hfound
          have hb0 : 0 < b := by
            simp only [diffBlocks, List.mem_cons, List.not_mem_nil, or_false] at hmem
            omega
          have htake : ((p :: ps).take b).length = b := List.length_take_of_le hfound.1
          have hskip := h.skip ‹_› ((p :: ps).take b)
          rw [htake] at hskip
          nth_rewrite 2 [hfound.2] at hskip
          have hrest := ih hskip
            (show ((p :: ps).drop b).length = ((c :: cs).drop b).length by simp [hlen])
            (by simp only [List.length_drop, List.length_cons]; omega)
          rwa [List.append_assoc, List.append_assoc, List.take_append_drop,
            List.take_append_drop] at hrest
        · cases hb
      · have hrest := ih (h.word p c) hlen hfuel
        rwa [List.append_assoc, List.append_assoc] at hrest

/-- What `regionDiff` returns: the encoding of a list of runs that turns the leading words of the
old state into those of the new one, the words after them being the same. -/
theorem regionDiff_patches {prev cur : Bytes} (hlen : prev.length = cur.length) :
    ∃ P C R same, Patches R P C ∧ padWords prev = P ++ same ∧ padWords cur = C ++ same ∧
      regionDiff prev cur = some ⟨encodeRuns R, runData R, R.length⟩ := by
  obtain ⟨hwords, hextra⟩ := length_padWords_eq hlen
  have hstart : Scan ⟨[], [], 0, 0, 0⟩ [] [] := Scan.gap [] Patches.nil
  have hscan := hstart.diffWords (asChunks prev).1.length hwords le_rfl
  rw [List.nil_append, List.nil_append] at hscan
  have hnil := isEmpty_congr hextra
  simp only [regionDiff, ne_eq, hlen, not_true_eq_false, if_false, padWords, hnil]
  generalize SuperShuckie.diffWords (asChunks prev).1.length (asChunks prev).1 (asChunks cur).1
    ⟨[], [], 0, 0, 0⟩ = st at hscan ⊢
  by_cases hcur : (asChunks cur).2.isEmpty = true
  · obtain ⟨P, C, R, same, hR, hP, hC, hend⟩ := hscan.endRun
    refine ⟨P, C, R, same, hR, ?_, ?_, ?_⟩ <;> simp [hcur, hP, hC, hend]
  · by_cases hpad : padWord (asChunks prev).2 = padWord (asChunks cur).2
    · obtain ⟨P, C, R, same, hR, hP, hC, hend⟩ := hscan.endRun
      refine ⟨P, C, R, same ++ [padWord (asChunks cur).2], hR, ?_, ?_, ?_⟩ <;>
        simp [hcur, hpad, hP, hC, hend]
    · have hlast := hscan.changed (padWord (asChunks prev).2) (padWord (asChunks cur).2)
      obtain ⟨P, C, R, same, hR, hP, hC, hend⟩ := hlast.endRun
      refine ⟨P, C, R, same, hR, ?_, ?_, ?_⟩ <;> simp [hcur, hpad, ← hP, ← hC, hend]

/-- **The region diff of two states of one length turns the first into the second.** -/
theorem applyRegionDiffInPlace_regionDiff {prev cur : Bytes} (hlen : prev.length = cur.length)
    (hbound : cur.length < 2 ^ 64) :
    ∃ diff, regionDiff prev cur = some diff ∧
      applyRegionDiffInPlace prev diff.control diff.data = some cur := by
  obtain ⟨P, C, R, same, hR, hP, hC, hdiff⟩ := regionDiff_patches hlen
  refine ⟨_, hdiff, ?_⟩
  obtain ⟨padP, hflatP, hpadP⟩ := flatten_padWords prev
  obtain ⟨padC, hflatC, hpadC⟩ := flatten_padWords cur
  have hwordsP : ∀ w ∈ padWords prev, w.length = 4 := fun w ↦ length_of_mem_padWords
  have hwordsC : ∀ w ∈ padWords cur, w.length = 4 := fun w ↦ length_of_mem_padWords
  have hflen := congrArg List.length hflatP
  rw [hP] at hwordsP hflatP hflen
  rw [hC] at hwordsC hflatC
  rw [List.length_append] at hflen
  have happly := applyRegionDiffInPlace_of_patches hR (fun w hw ↦ hwordsP w (by simp [hw]))
    (fun w hw ↦ hwordsC w (by simp [hw])) same (fun w hw ↦ hwordsP w (by simp [hw])) hbound
    (by omega) (by omega)
  rwa [hflatP, hflatC, List.take_left' hlen, List.take_left' rfl] at happly

/-! ## States of different lengths -/

theorem controlEnd_encodeRuns (h : Patches R P C) (hP : P.length < 2 ^ 64) :
    controlEnd (encodeRuns R) = P.length := by
  simp only [controlEnd, controlRuns_encodeRuns h hP]
  clear hP
  induction h with
  | nil => rfl
  | cons hlen _ _ ih =>
    simp only [List.map_map] at ih
    simp only [List.map_cons, List.sum_cons, List.map_map, ih, List.length_append, hlen,
      Nat.add_assoc]

/-- A byte string of whole words is the concatenation of its words. -/
theorem flatten_padWords_of_dvd {bs : Bytes} (h : 4 ∣ bs.length) : (padWords bs).flatten = bs := by
  obtain ⟨pad, hflat, hpad⟩ := flatten_padWords bs
  have hlen := congrArg List.length hflat
  rw [length_flatten_of_words fun w ↦ length_of_mem_padWords, List.length_append] at hlen
  have hnil : pad = [] := List.eq_nil_of_length_eq_zero (by omega)
  rw [hflat, hnil, List.append_nil]

theorem take_resizeZero {state : Bytes} {n k : Nat} (hk : k ≤ n) (hs : k ≤ state.length) :
    (resizeZero state n).take k = state.take k := by
  rw [resizeZero, List.take_append_of_le_length (by rw [List.length_take]; omega), List.take_take,
    Nat.min_eq_left hk]

/-- The last run of a resizing diff, in the terms of `padWords`. -/
theorem padWords_tail (tail : Bytes) : (padWords tail).length =
        (asChunks tail).1.length + (if (asChunks tail).2.isEmpty then 0 else 1) ∧
      (padWords tail).flatten = (asChunks tail).1.flatten ++
        (if (asChunks tail).2.isEmpty then [] else padWord (asChunks tail).2) := by
  simp only [padWords]
  split <;> simp

/-- **The resizing diff of two states turns the first, resized to the length of the second, into
the second.** -/
theorem applyRegionDiffInPlace_regionDiffResizing {prev cur : Bytes}
    (hprev : prev.length < 2 ^ 64) (hcur : cur.length < 2 ^ 64) :
    applyRegionDiffInPlace (resizeZero prev cur.length) (regionDiffResizing prev cur).control
      (regionDiffResizing prev cur).data = some cur := by
  rw [regionDiffResizing]
  split
  · rename_i hlen
    obtain ⟨diff, hdiff, happly⟩ := applyRegionDiffInPlace_regionDiff hlen hcur
    have hsame : resizeZero prev cur.length = prev := by simp [resizeZero, ← hlen]
    rw [hdiff, Option.getD_some, hsame, happly]
  · generalize hcommon : min prev.length cur.length / 4 = common
    have hcp : common * 4 ≤ prev.length := by omega
    have hcc : common * 4 ≤ cur.length := by omega
    have hlp : (prev.take (common * 4)).length = common * 4 := List.length_take_of_le hcp
    have hlc : (cur.take (common * 4)).length = common * 4 := List.length_take_of_le hcc
    obtain ⟨P, C, R, same, hR, hP, hC, hdiff⟩ := regionDiff_patches (hlp.trans hlc.symm)
    have hflatP := flatten_padWords_of_dvd
      (show 4 ∣ (prev.take (common * 4)).length from ⟨common, by omega⟩)
    have hflatC := flatten_padWords_of_dvd
      (show 4 ∣ (cur.take (common * 4)).length from ⟨common, by omega⟩)
    have hwordsP : ∀ w ∈ padWords (prev.take (common * 4)), w.length = 4 :=
      fun w ↦ length_of_mem_padWords
    have hwordsC : ∀ w ∈ padWords (cur.take (common * 4)), w.length = 4 :=
      fun w ↦ length_of_mem_padWords
    have hcount := length_flatten_of_words hwordsP
    rw [hflatP, hlp] at hcount
    rw [hP] at hflatP hwordsP hcount
    rw [hC] at hflatC hwordsC
    rw [List.length_append] at hcount
    simp only [hdiff, Option.getD_some]
    split
    · -- nothing past the common words: the old state is cut down to them
      rename_i htail
      have hlen : cur.length = common * 4 := by
        have hdrop := List.isEmpty_iff.mp htail
        rw [List.drop_eq_nil_iff] at hdrop
        omega
      have hold : resizeZero prev cur.length = ((P ++ same).flatten).take (common * 4) := by
        rw [hflatP, hlen, List.take_take, Nat.min_self, resizeZero]
        simp [Nat.sub_eq_zero_of_le hcp]
      have happly := applyRegionDiffInPlace_of_patches hR (fun w hw ↦ hwordsP w (by simp [hw]))
        (fun w hw ↦ hwordsC w (by simp [hw])) same (n := common * 4)
        (fun w hw ↦ hwordsP w (by simp [hw])) (by omega) (by rw [hflatP, hlp])
        (by rw [hflatP, hlp]; omega)
      rw [hold, happly, hflatC, List.take_of_length_le hlc.le, ← hlen, List.take_length]
    · rename_i htail
      obtain ⟨hnewLen, hnewFlat⟩ := padWords_tail (cur.drop (common * 4))
      generalize hrest : (resizeZero prev cur.length).drop (common * 4) = rest
      have hrestLen : rest.length = (cur.drop (common * 4)).length := by simp [← hrest]
      have holdLen : (padWords rest).length = (padWords (cur.drop (common * 4))).length := by
        obtain ⟨hw, he⟩ := length_padWords_eq hrestLen
        rw [hnewLen, (padWords_tail rest).1, hw, isEmpty_congr he]
      have hne : padWords (cur.drop (common * 4)) ≠ [] := by
        intro hnil
        obtain ⟨pad, hflat, -⟩ := flatten_padWords (cur.drop (common * 4))
        rw [hnil, List.flatten_nil] at hflat
        exact htail (by simp [(List.append_eq_nil_iff.mp hflat.symm).1])
      have hgap : common - controlEnd (encodeRuns R) = same.length := by
        rw [controlEnd_encodeRuns hR (by omega)]
        omega
      have hall := hR.snoc same holdLen hne
      have hcontrol := encodeRuns_snoc R same.length (padWords (cur.drop (common * 4)))
      have hdata := runData_snoc R same.length (padWords (cur.drop (common * 4)))
      rw [hnewLen] at hcontrol
      rw [hnewFlat] at hdata
      simp only [hgap, ← hcontrol, List.append_assoc] at hdata ⊢
      rw [← hdata]
      obtain ⟨padP, hpadP, hpadP4⟩ := flatten_padWords rest
      obtain ⟨padC, hpadC, -⟩ := flatten_padWords (cur.drop (common * 4))
      have hold : (P ++ (same ++ padWords rest)).flatten =
          resizeZero prev cur.length ++ padP := by
        rw [← List.append_assoc, List.flatten_append, hflatP, hpadP, ← List.append_assoc, ← hrest,
          ← take_resizeZero hcc hcp, List.take_append_drop]
      have hnew : (C ++ (same ++ padWords (cur.drop (common * 4)))).flatten = cur ++ padC := by
        rw [← List.append_assoc, List.flatten_append, hflatC, hpadC, ← List.append_assoc,
          List.take_append_drop]
      have happly := applyRegionDiffInPlace_of_patches hall
        (by
          intro w hw
          rw [← List.append_assoc, List.mem_append] at hw
          rcases hw with hw | hw
          exacts [hwordsP w hw, length_of_mem_padWords hw])
        (by
          intro w hw
          rw [← List.append_assoc, List.mem_append] at hw
          rcases hw with hw | hw
          exacts [hwordsC w hw, length_of_mem_padWords hw])
        [] (by simp) hcur (by simp [hold]) (by simp [hold]; omega)
      rw [List.append_nil, List.append_nil, hold, hnew, List.take_left' (length_resizeZero ..),
        List.take_left' rfl] at happly
      exact happly

end SuperShuckie
