import SuperShuckie.RegionDiff

/-!
# Region diffs and their plain form

`naiveRegionDiff` is the per-word reference encoder: it walks the zero-padded words one at a time and
writes a run when it ends.  `regionDiff` skips unchanged blocks, leaves a run open across the end and
treats the partial word apart.  Both are shown to encode `changedRuns`, the maximal runs of differing
words, which is defined by recursion on the words alone.

* `regionDiff_changedRuns`, `naiveRegionDiff_changedRuns`: the two encoders.
* `covered_changedRuns`: the runs cover exactly the words that differ.
* `regionDiff_exact`: the two are equal, and a resizing diff gives back the new state.
-/

set_option autoImplicit false

namespace SuperShuckie

open ByteFormat DiffState

/-! ## The reference encoder -/

/-- Word `i` of a byte string, a trailing partial one zero-padded. -/
def wordAt (buf : Bytes) (i : Nat) : Bytes := padWord ((buf.drop (i * 4)).take 4)

/-- The differing words from word `i` on: where they end, and `data` with their replacement. -/
def naiveRun (prev cur : Bytes) (words : Nat) : Nat → Nat → Bytes → Nat × Bytes
  | fuel + 1, i, data =>
    if i < words ∧ wordAt prev i ≠ wordAt cur i then
      naiveRun prev cur words fuel (i + 1) (data ++ wordAt cur i)
    else (i, data)
  | 0, i, data => (i, data)

/-- The loop of the reference encoder from word `i` on.  Every round passes a word, so `words` rounds
are enough. -/
def naiveGo (prev cur : Bytes) (words : Nat) : Nat → Nat → Nat → RegionDiff → RegionDiff
  | fuel + 1, i, gap, out =>
    if i < words then
      if wordAt prev i = wordAt cur i then naiveGo prev cur words fuel (i + 1) (gap + 1) out
      else
        let (stop, data) := naiveRun prev cur words words i out.data
        naiveGo prev cur words fuel stop 0
          ⟨out.control ++ leb128 gap ++ leb128 (stop - i), data, out.runs + 1⟩
    else out
  | 0, _, _, out => out

/-- Straightforward per-word reference encoder (no block skipping). -/
def naiveRegionDiff (prev cur : Bytes) : Option RegionDiff :=
  if prev.length ≠ cur.length then none
  else
    let words := (prev.length + 3) / 4
    some (naiveGo prev cur words words 0 0 ⟨[], [], 0⟩)

/-! ## The maximal runs of differing words -/

/-- An unchanged word before the runs. -/
def addGap (gap : Nat) : List (Nat × List Bytes) → List (Nat × List Bytes)
  | [] => []
  | (g, new) :: R => (gap + g, new) :: R

/-- A changed word before the runs: it joins the first of them when no unchanged word is in between. -/
def addWord (w : Bytes) : List (Nat × List Bytes) → List (Nat × List Bytes)
  | (0, new) :: R => (0, w :: new) :: R
  | R => (0, [w]) :: R

/-- The maximal runs of words of `C` that differ from those of `P`, each with the number of unchanged
words before it. -/
def changedRuns : List Bytes → List Bytes → List (Nat × List Bytes)
  | p :: P, c :: C => if p = c then addGap 1 (changedRuns P C) else addWord c (changedRuns P C)
  | _, _ => []

/-- Word `i` lies in one of the runs, the first of which starts its gap at word `pos`. -/
def Covered : List (Nat × Nat) → Nat → Nat → Prop
  | [], _, _ => False
  | (gap, len) :: runs, pos, i =>
    (pos + gap ≤ i ∧ i < pos + gap + len) ∨ Covered runs (pos + gap + len) i

/-- The `(gap, len)` pairs of a list of runs. -/
def runLens (R : List (Nat × List Bytes)) : List (Nat × Nat) := R.map fun r ↦ (r.1, r.2.length)

variable {i : Nat} {P C : List Bytes}

theorem covered_succ {runs : List (Nat × Nat)} {pos : Nat} :
    Covered runs (pos + 1) (i + 1) ↔ Covered runs pos i := by
  induction runs generalizing pos with
  | nil => exact Iff.rfl
  | cons run runs ih =>
    have hpos : pos + 1 + run.1 + run.2 = pos + run.1 + run.2 + 1 := by omega
    rw [Covered, Covered, hpos, ih]
    refine or_congr ?_ Iff.rfl
    omega

theorem not_covered_of_lt {runs : List (Nat × Nat)} {pos : Nat} (h : i < pos) :
    ¬ Covered runs pos i := by
  induction runs generalizing pos with
  | nil => exact id
  | cons run runs ih =>
    rintro (⟨hle, -⟩ | hrest)
    · omega
    · exact ih (by omega) hrest

theorem covered_addGap {R : List (Nat × List Bytes)} :
    Covered (runLens (addGap 1 R)) 0 i ↔ ∃ k, i = k + 1 ∧ Covered (runLens R) 0 k := by
  obtain _ | k := i
  · cases R with
    | nil => simp [addGap, runLens, Covered]
    | cons r R =>
      have hrest : ¬ Covered (runLens R) (0 + (1 + r.1) + r.2.length) 0 :=
        not_covered_of_lt (by omega)
      simp [addGap, runLens, Covered] at hrest ⊢
      exact hrest
  · have hshift : Covered (runLens (addGap 1 R)) 0 (k + 1) ↔ Covered (runLens R) 0 k := by
      cases R with
      | nil => exact Iff.rfl
      | cons r R =>
        have hpos : 0 + (1 + r.1) + r.2.length = 0 + r.1 + r.2.length + 1 := by omega
        show (0 + (1 + r.1) ≤ k + 1 ∧ k + 1 < 0 + (1 + r.1) + r.2.length ∨
          Covered (runLens R) (0 + (1 + r.1) + r.2.length) (k + 1)) ↔
            (0 + r.1 ≤ k ∧ k < 0 + r.1 + r.2.length ∨ Covered (runLens R) (0 + r.1 + r.2.length) k)
        rw [hpos, covered_succ]
        refine or_congr ?_ Iff.rfl
        omega
    rw [hshift]
    exact ⟨fun h ↦ ⟨k, rfl, h⟩, fun ⟨k', heq, h⟩ ↦ by rwa [Nat.succ.inj heq]⟩

theorem covered_addWord {w : Bytes} {R : List (Nat × List Bytes)} :
    Covered (runLens (addWord w R)) 0 i ↔ i = 0 ∨ ∃ k, i = k + 1 ∧ Covered (runLens R) 0 k := by
  have hhead : ∀ runs : List (Nat × Nat), ∀ len, Covered ((0, len + 1) :: runs) 0 i ↔
      i = 0 ∨ ∃ k, i = k + 1 ∧ Covered ((0, len) :: runs) 0 k := by
    intro runs len
    obtain _ | k := i
    · simp [Covered]
    · have hpos : 0 + 0 + (len + 1) = 0 + 0 + len + 1 := by omega
      rw [Covered, hpos, covered_succ]
      simp [Covered]
  match R with
  | (0, new) :: R => exact hhead (runLens R) new.length
  | (g + 1, new) :: R =>
    refine (hhead _ 0).trans (or_congr Iff.rfl (exists_congr fun k ↦ and_congr Iff.rfl ?_))
    simp [Covered, runLens]
  | [] =>
    refine (hhead _ 0).trans (or_congr Iff.rfl (exists_congr fun k ↦ and_congr Iff.rfl ?_))
    simp [Covered, runLens]

/-- **The runs cover exactly the words that differ.** -/
theorem covered_changedRuns (h : P.length = C.length) :
    Covered (runLens (changedRuns P C)) 0 i ↔ P[i]? ≠ C[i]? := by
  induction P generalizing C i with
  | nil =>
    obtain rfl := List.length_eq_zero_iff.mp h.symm
    simp [changedRuns, runLens, Covered]
  | cons p P ih =>
    obtain ⟨c, C, rfl⟩ := List.exists_cons_of_length_eq_add_one h.symm
    have hrest := fun k ↦ ih (C := C) (i := k) (by simpa using h)
    rw [changedRuns]
    split_ifs with heq
    · rw [covered_addGap]
      obtain _ | k := i
      · simp [heq]
      · simp [hrest]
    · rw [covered_addWord]
      obtain _ | k := i
      · simp [heq]
      · simp [hrest]

/-! ## Word by word -/

/-- The scan of `regionDiff` without the block skipping. -/
def plainWords : List Bytes → List Bytes → DiffState → DiffState
  | p :: P, c :: C, st => plainWords P C (st.word p c)
  | _, _, st => st

theorem plainWords_append (h : P.length = C.length) (p c : Bytes) (st : DiffState) :
    plainWords (P ++ [p]) (C ++ [c]) st = (plainWords P C st).word p c := by
  induction P generalizing C st with
  | nil =>
    obtain rfl := List.length_eq_zero_iff.mp h.symm
    rfl
  | cons q P ih =>
    obtain ⟨d, C, rfl⟩ := List.exists_cons_of_length_eq_add_one h.symm
    exact ih (by simpa using h) (st.word q d)

theorem DiffState.word_self {st : DiffState} (hst : st.runLen = 0) (w : Bytes) :
    st.word w w = { st with gap := st.gap + 1 } := by
  simp [word, endRun, hst]

/-- Skipping a block of unchanged words is passing them one at a time. -/
theorem plainWords_skip {st : DiffState} (hst : st.runLen = 0) (block P C : List Bytes) :
    plainWords (block ++ P) (block ++ C) st =
      plainWords P C { st with gap := st.gap + block.length } := by
  induction block generalizing st with
  | nil => rfl
  | cons w block ih =>
    have hnext := @ih { st with gap := st.gap + 1 } hst
    rw [List.cons_append, List.cons_append, plainWords, word_self hst, hnext]
    simp only [List.length_cons, Nat.add_assoc, Nat.add_comm 1]

theorem diffWords_eq (fuel : Nat) (h : P.length = C.length) (hfuel : P.length ≤ fuel)
    (st : DiffState) : diffWords fuel P C st = plainWords P C st := by
  induction fuel generalizing P C st with
  | zero =>
    obtain rfl := List.length_eq_zero_iff.mp (Nat.le_zero.mp hfuel)
    obtain rfl := List.length_eq_zero_iff.mp h.symm
    rfl
  | succ fuel ih =>
    match P, C with
    | [], [] => rfl
    | p :: P, c :: C =>
      simp only [List.length_cons, Nat.add_right_cancel_iff, Nat.add_le_add_iff_right] at h hfuel
      simp only [diffWords]
      split
      · rename_i b hb
        split at hb
        · have hmem : b ∈ diffBlocks := List.mem_of_find?_eq_some hb
          have hfound := List.find?_some hb
          simp only [Bool.and_eq_true, decide_eq_true_eq, beq_iff_eq] at hfound
          have hb0 : 0 < b := by
            simp only [diffBlocks, List.mem_cons, List.not_mem_nil, or_false] at hmem
            omega
          have hskip := plainWords_skip ‹_› ((p :: P).take b) ((p :: P).drop b) ((c :: C).drop b)
          rw [List.take_append_drop, hfound.2, List.take_append_drop, ← hfound.2,
            List.length_take_of_le hfound.1] at hskip
          rw [hskip]
          exact ih (by simp [h]) (by simp only [List.length_drop, List.length_cons]; omega) _
        · cases hb
      · exact ih h hfuel (st.word p c)

/-! ### The run that is open -/

/-- What is left to write when `len` words of a run were passed before the runs `R`. -/
def closeRun (len : Nat) : List (Nat × List Bytes) → Bytes × Nat
  | (0, new) :: R => (leb128 (len + new.length) ++ encodeRuns R, R.length)
  | R => (leb128 len ++ encodeRuns R, R.length)

theorem encodeRuns_cons (gap : Nat) (new : List Bytes) (R : List (Nat × List Bytes)) :
    encodeRuns ((gap, new) :: R) = leb128 gap ++ (leb128 new.length ++ encodeRuns R) := by
  simp [encodeRuns]

theorem runData_cons (gap : Nat) (new : List Bytes) (R : List (Nat × List Bytes)) :
    runData ((gap, new) :: R) = new.flatten ++ runData R := by
  simp [runData]

theorem runData_addGap (gap : Nat) (R : List (Nat × List Bytes)) :
    runData (addGap gap R) = runData R := by
  cases R <;> simp [addGap, runData]

theorem runData_addWord (w : Bytes) (R : List (Nat × List Bytes)) :
    runData (addWord w R) = w ++ runData R := by
  match R with
  | (0, new) :: R => simp [addWord, runData_cons]
  | (g + 1, new) :: R => simp [addWord, runData_cons]
  | [] => simp [addWord, runData]

theorem addGap_addGap (a b : Nat) (R : List (Nat × List Bytes)) :
    addGap a (addGap b R) = addGap (a + b) R := by
  cases R <;> simp [addGap, Nat.add_assoc]

theorem addGap_zero (R : List (Nat × List Bytes)) : addGap 0 R = R := by
  cases R <;> simp [addGap]

theorem length_addGap (gap : Nat) (R : List (Nat × List Bytes)) :
    (addGap gap R).length = R.length := by
  cases R <;> rfl

/-- A run that is opened by a changed word is the first of the runs. -/
theorem closeRun_one (gap : Nat) (w : Bytes) (R : List (Nat × List Bytes)) :
    encodeRuns (addGap gap (addWord w R)) = leb128 gap ++ (closeRun 1 R).1 ∧
      (addWord w R).length = 1 + (closeRun 1 R).2 := by
  match R with
  | (0, new) :: R =>
    refine ⟨?_, ?_⟩
    · simp [addWord, addGap, closeRun, encodeRuns_cons, Nat.add_comm]
    · simp [addWord, closeRun, Nat.add_comm]
  | (g + 1, new) :: R =>
    refine ⟨?_, ?_⟩
    · simp [addWord, addGap, closeRun, encodeRuns_cons]
    · simp [addWord, closeRun, Nat.add_comm]
  | [] => exact ⟨by simp [addWord, addGap, closeRun, encodeRuns_cons], rfl⟩

theorem closeRun_addWord (len : Nat) (w : Bytes) (R : List (Nat × List Bytes)) :
    closeRun len (addWord w R) = closeRun (len + 1) R := by
  match R with
  | (0, new) :: R => simp [addWord, closeRun, Nat.add_comm, Nat.add_left_comm]
  | (g + 1, new) :: R => rfl
  | [] => rfl

theorem closeRun_addGap (len : Nat) (R : List (Nat × List Bytes)) :
    closeRun len (addGap 1 R) = (leb128 len ++ encodeRuns (addGap 1 R), R.length) := by
  match R with
  | (g, new) :: R =>
    have hgap : 1 + g = g + 1 := Nat.add_comm 1 g
    simp only [addGap, hgap, closeRun, List.length_cons]
  | [] => rfl

/-- **The scan writes the maximal runs**: outside a run after `gap` unchanged words, and inside one of
`len` words whose gap was written already. -/
theorem plainWords_endRun (h : P.length = C.length) (ctl data : Bytes) (runs : Nat) :
    (∀ gap, ∃ gap', (plainWords P C ⟨ctl, data, runs, gap, 0⟩).endRun =
      ⟨ctl ++ encodeRuns (addGap gap (changedRuns P C)), data ++ runData (changedRuns P C),
        runs + (changedRuns P C).length, gap', 0⟩) ∧
    ∀ len, 0 < len → ∃ gap', (plainWords P C ⟨ctl, data, runs, 0, len⟩).endRun =
      ⟨ctl ++ (closeRun len (changedRuns P C)).1, data ++ runData (changedRuns P C),
        runs + (closeRun len (changedRuns P C)).2, gap', 0⟩ := by
  induction P generalizing C ctl data runs with
  | nil =>
    obtain rfl := List.length_eq_zero_iff.mp h.symm
    refine ⟨fun gap ↦ ⟨gap, ?_⟩, fun len hlen ↦ ⟨0, ?_⟩⟩
    · simp [plainWords, endRun, changedRuns, addGap, encodeRuns, runData]
    · simp [plainWords, endRun, hlen, changedRuns, closeRun, encodeRuns, runData]
  | cons p P ih =>
    obtain ⟨c, C, rfl⟩ := List.exists_cons_of_length_eq_add_one h.symm
    have hlen' : P.length = C.length := by simpa using h
    refine ⟨fun gap ↦ ?_, fun len hlen ↦ ?_⟩
    · rw [plainWords, changedRuns]
      split_ifs with heq
      · obtain ⟨gap', hend⟩ := (ih hlen' ctl data runs).1 (gap + 1)
        refine ⟨gap', ?_⟩
        rw [heq, word_self rfl, addGap_addGap, runData_addGap, length_addGap]
        exact hend
      · obtain ⟨gap', hend⟩ := (ih hlen' (ctl ++ leb128 gap) (data ++ c) (runs + 1)).2 1 Nat.one_pos
        obtain ⟨hctl, hcount⟩ := closeRun_one gap c (changedRuns P C)
        refine ⟨gap', ?_⟩
        have hword : (⟨ctl, data, runs, gap, 0⟩ : DiffState).word p c =
            ⟨ctl ++ leb128 gap, data ++ c, runs + 1, 0, 1⟩ := by
          simp [word, heq, changed]
        rw [hword, hend, hctl, hcount, runData_addWord, List.append_assoc, List.append_assoc,
          Nat.add_assoc]
    · have hne : len ≠ 0 := by omega
      rw [plainWords, changedRuns]
      split_ifs with heq
      · obtain ⟨gap', hend⟩ := (ih hlen' (ctl ++ leb128 len) data runs).1 1
        refine ⟨gap', ?_⟩
        have hword : (⟨ctl, data, runs, 0, len⟩ : DiffState).word p c =
            ⟨ctl ++ leb128 len, data, runs, 1, 0⟩ := by
          simp [word, heq, endRun, hlen]
        rw [hword, hend, closeRun_addGap, runData_addGap, List.append_assoc]
      · obtain ⟨gap', hend⟩ := (ih hlen' ctl (data ++ c) runs).2 (len + 1) (by omega)
        refine ⟨gap', ?_⟩
        have hword : (⟨ctl, data, runs, 0, len⟩ : DiffState).word p c =
            ⟨ctl, data ++ c, runs, 0, len + 1⟩ := by
          simp [word, heq, changed, hne]
        rw [hword, hend, closeRun_addWord, runData_addWord, List.append_assoc]

/-! ## The two encoders -/

/-- The diff that consists of some runs. -/
def diffOf (R : List (Nat × List Bytes)) : RegionDiff := ⟨encodeRuns R, runData R, R.length⟩

/-- `regionDiff` encodes the maximal runs of differing words. -/
theorem regionDiff_changedRuns {prev cur : Bytes} (hlen : prev.length = cur.length) :
    regionDiff prev cur = some (diffOf (changedRuns (padWords prev) (padWords cur))) := by
  obtain ⟨hwords, hextra⟩ := length_padWords_eq hlen
  have hnil := isEmpty_congr hextra
  have hpadded : (padWords prev).length = (padWords cur).length := by
    simp only [padWords, List.length_append, hwords, hnil]
    split <;> rfl
  obtain ⟨gap, hend⟩ := (plainWords_endRun hpadded [] [] 0).1 0
  have hscan := diffWords_eq _ hwords le_rfl ⟨[], [], 0, 0, 0⟩
  rw [addGap_zero, List.nil_append, List.nil_append, Nat.zero_add] at hend
  simp only [regionDiff, ne_eq, hlen, not_true_eq_false, if_false, hscan] at hend ⊢
  by_cases hcur : (asChunks cur).2.isEmpty = true
  · have hsame : ∀ bs : Bytes, (asChunks bs).2.isEmpty = true → padWords bs = (asChunks bs).1 :=
      fun bs hbs ↦ by simp [padWords, hbs]
    rw [hsame prev (hnil.trans hcur), hsame cur hcur] at hend ⊢
    simp [hcur, hend, diffOf]
  · have hlast : ∀ bs : Bytes, ¬ (asChunks bs).2.isEmpty = true →
        padWords bs = (asChunks bs).1 ++ [padWord (asChunks bs).2] :=
      fun bs hbs ↦ by rw [padWords, if_neg hbs]
    rw [hlast prev (by rwa [hnil]), hlast cur hcur] at hend ⊢
    rw [plainWords_append hwords] at hend
    generalize plainWords (asChunks prev).1 (asChunks cur).1 ⟨[], [], 0, 0, 0⟩ = st at hend ⊢
    by_cases hpad : padWord (asChunks prev).2 = padWord (asChunks cur).2
    · -- an unchanged partial word only lengthens the gap after the last run
      have hword : (st.word (padWord (asChunks prev).2) (padWord (asChunks cur).2)).endRun =
          { st.endRun with gap := st.endRun.gap + 1 } := by
        rw [hpad, word, if_neg (not_not.mpr rfl)]
        simp only [endRun]
        split_ifs with hopen <;> simp_all
      rw [hword] at hend
      simp only [mk.injEq] at hend
      obtain ⟨hctl, hdata, hruns, -, -⟩ := hend
      simp [hcur, hpad, diffOf, hctl, hdata, hruns]
    · have hword : st.word (padWord (asChunks prev).2) (padWord (asChunks cur).2) =
          st.changed (padWord (asChunks cur).2) := by
        rw [word, if_pos hpad]
      rw [hword] at hend
      simp [hcur, hpad, diffOf, hend]

theorem wordAt_cons (a b c d : UInt8) (rest : Bytes) (i : Nat) :
    wordAt (a :: b :: c :: d :: rest) (i + 1) = wordAt rest i := by
  rw [wordAt, wordAt, Nat.add_mul, Nat.one_mul]
  rfl

/-- The padded words are the words of the reference encoder. -/
theorem padWords_eq_map (bs : Bytes) :
    padWords bs = (List.range ((bs.length + 3) / 4)).map (wordAt bs) := by
  induction bs using asChunks.induct with
  | case1 a b c d rest ih =>
    have hcount : ((a :: b :: c :: d :: rest).length + 3) / 4 = (rest.length + 3) / 4 + 1 := by
      simp only [List.length_cons]
      omega
    have hfirst : wordAt (a :: b :: c :: d :: rest) 0 = [a, b, c, d] := by
      simp [wordAt, padWord]
    have hrest : padWords (a :: b :: c :: d :: rest) = [a, b, c, d] :: padWords rest := by
      simp [padWords, asChunks]
    rw [hcount, List.range_succ_eq_map, List.map_cons, List.map_map, hfirst, hrest, ih]
    exact congrArg _ (List.map_congr_left fun i _ ↦ (wordAt_cons a b c d rest i).symm)
  | case2 extra hshort =>
    obtain _ | ⟨a, _ | ⟨b, _ | ⟨c, _ | ⟨d, rest⟩⟩⟩⟩ := extra
    · rfl
    iterate 3 · simp [padWords, asChunks, wordAt]
    · exact (hshort a b c d rest rfl).elim

theorem length_padWords (bs : Bytes) : (padWords bs).length = (bs.length + 3) / 4 := by
  rw [padWords_eq_map, List.length_map, List.length_range]

theorem drop_padWords {bs : Bytes} (h : i < (bs.length + 3) / 4) :
    (padWords bs).drop i = wordAt bs i :: (padWords bs).drop (i + 1) := by
  rw [List.drop_eq_getElem_cons (by rwa [length_padWords])]
  simp [padWords_eq_map]

section

variable {prev cur : Bytes}

/-- The inner loop of the reference encoder passes a run: the words it passes join the run that is
open. -/
theorem naiveRun_spec (hlen : prev.length = cur.length) (fuel i : Nat) (data : Bytes)
    (hi : i ≤ (prev.length + 3) / 4) (hfuel : (prev.length + 3) / 4 ≤ i + fuel) (ctl : Bytes)
    (runs len : Nat) (hopen : 0 < len) :
    ∃ n, (naiveRun prev cur ((prev.length + 3) / 4) fuel i data).1 = i + n ∧
      i + n ≤ (prev.length + 3) / 4 ∧
      (i + n < (prev.length + 3) / 4 → wordAt prev (i + n) = wordAt cur (i + n)) ∧
      plainWords ((padWords prev).drop i) ((padWords cur).drop i) ⟨ctl, data, runs, 0, len⟩ =
        plainWords ((padWords prev).drop (i + n)) ((padWords cur).drop (i + n))
          ⟨ctl, (naiveRun prev cur ((prev.length + 3) / 4) fuel i data).2, runs, 0, len + n⟩ := by
  induction fuel generalizing i data len with
  | zero =>
    have hend : i = (prev.length + 3) / 4 := by omega
    exact ⟨0, rfl, hi, fun h ↦ absurd h (by omega), rfl⟩
  | succ fuel ih =>
    rw [naiveRun]
    split_ifs with hdiff
    · obtain ⟨hlt, hne⟩ := hdiff
      obtain ⟨n, hstop, hle, hsame, hplain⟩ :=
        ih (i + 1) (data ++ wordAt cur i) (by omega) (by omega) (len + 1) (by omega)
      have hnext : i + 1 + n = i + (n + 1) := by omega
      rw [hnext] at hstop hle hsame hplain
      refine ⟨n + 1, hstop, hle, hsame, ?_⟩
      have hword : (⟨ctl, data, runs, 0, len⟩ : DiffState).word (wordAt prev i) (wordAt cur i) =
          ⟨ctl, data ++ wordAt cur i, runs, 0, len + 1⟩ := by
        have hlen0 : len ≠ 0 := by omega
        simp [word, hne, changed, hlen0]
      have hprev := drop_padWords hlt
      have hcur : (padWords cur).drop i = wordAt cur i :: (padWords cur).drop (i + 1) :=
        drop_padWords (hlen ▸ hlt)
      rw [hprev, hcur, plainWords, hword, hplain, Nat.add_assoc, Nat.add_comm 1 n]
    · refine ⟨0, rfl, hi, fun hlt ↦ ?_, rfl⟩
      exact not_not.mp fun hne ↦ hdiff ⟨hlt, hne⟩

/-- The loop of the reference encoder from word `i` on, outside a run, is the scan from there on. -/
theorem naiveGo_spec (hlen : prev.length = cur.length) (fuel i gap : Nat) (out : RegionDiff)
    (hfuel : (prev.length + 3) / 4 ≤ i + fuel) :
    ∃ gap', (plainWords ((padWords prev).drop i) ((padWords cur).drop i)
        ⟨out.control, out.data, out.runs, gap, 0⟩).endRun =
      ⟨(naiveGo prev cur ((prev.length + 3) / 4) fuel i gap out).control,
        (naiveGo prev cur ((prev.length + 3) / 4) fuel i gap out).data,
        (naiveGo prev cur ((prev.length + 3) / 4) fuel i gap out).runs, gap', 0⟩ := by
  have hpast : ∀ {k}, (prev.length + 3) / 4 ≤ k → (padWords prev).drop k = [] := fun h ↦
    List.drop_eq_nil_of_le (by rwa [length_padWords])
  induction fuel generalizing i gap out with
  | zero =>
    rw [hpast (by omega)]
    exact ⟨gap, rfl⟩
  | succ fuel ih =>
    rw [naiveGo]
    split_ifs with hlt heq
    · have hprev := drop_padWords hlt
      have hcur : (padWords cur).drop i = wordAt cur i :: (padWords cur).drop (i + 1) :=
        drop_padWords (hlen ▸ hlt)
      rw [hprev, hcur, plainWords, heq, word_self rfl]
      exact ih (i + 1) (gap + 1) out (by omega)
    · obtain ⟨w, hw⟩ : ∃ w, (prev.length + 3) / 4 = w + 1 := ⟨(prev.length + 3) / 4 - 1, by omega⟩
      -- the first word of the run opens it, the inner loop passes the others
      obtain ⟨n, hstop, hle, hsame, hplain⟩ := naiveRun_spec hlen w (i + 1)
        (out.data ++ wordAt cur i) (by omega) (by omega) (out.control ++ leb128 gap) (out.runs + 1) 1
        Nat.one_pos
      have hrun : naiveRun prev cur ((prev.length + 3) / 4) ((prev.length + 3) / 4) i out.data =
          naiveRun prev cur ((prev.length + 3) / 4) w (i + 1) (out.data ++ wordAt cur i) := by
        nth_rewrite 2 [hw]
        rw [naiveRun, if_pos ⟨hlt, heq⟩]
      have hword : (⟨out.control, out.data, out.runs, gap, 0⟩ : DiffState).word (wordAt prev i)
          (wordAt cur i) =
            ⟨out.control ++ leb128 gap, out.data ++ wordAt cur i, out.runs + 1, 0, 1⟩ := by
        simp [word, heq, changed]
      have hcount : i + 1 + n - i = 1 + n := by omega
      have hprev := drop_padWords hlt
      have hcur : (padWords cur).drop i = wordAt cur i :: (padWords cur).drop (i + 1) :=
        drop_padWords (hlen ▸ hlt)
      rw [hprev, hcur, plainWords, hword, hplain, hrun]
      simp only [hstop, hcount]
      generalize (naiveRun prev cur ((prev.length + 3) / 4) w (i + 1)
        (out.data ++ wordAt cur i)).2 = data
      obtain ⟨gap', hend⟩ := ih (i + 1 + n) 0
        ⟨out.control ++ leb128 gap ++ leb128 (1 + n), data, out.runs + 1⟩ (by omega)
      refine ⟨gap', Eq.trans ?_ hend⟩
      -- whatever follows the run ends it
      by_cases hmore : i + 1 + n < (prev.length + 3) / 4
      · have hprev := drop_padWords hmore
        have hcur : (padWords cur).drop (i + 1 + n) =
            wordAt cur (i + 1 + n) :: (padWords cur).drop (i + 1 + n + 1) :=
          drop_padWords (hlen ▸ hmore)
        rw [hprev, hcur, plainWords, plainWords, hsame hmore]
        simp [word, endRun]
      · rw [hpast (by omega)]
        simp [plainWords, endRun]
    · rw [hpast (by omega)]
      exact ⟨gap, rfl⟩

/-- The reference encoder encodes the maximal runs of differing words. -/
theorem naiveRegionDiff_changedRuns (hlen : prev.length = cur.length) :
    naiveRegionDiff prev cur = some (diffOf (changedRuns (padWords prev) (padWords cur))) := by
  have hpadded : (padWords prev).length = (padWords cur).length := by
    rw [length_padWords, length_padWords, hlen]
  obtain ⟨gap, hend⟩ := (plainWords_endRun hpadded [] [] 0).1 0
  obtain ⟨gap', hnaive⟩ := naiveGo_spec hlen ((prev.length + 3) / 4) 0 0 ⟨[], [], 0⟩ (by omega)
  rw [List.drop_zero, List.drop_zero, hend, addGap_zero, List.nil_append, List.nil_append,
    Nat.zero_add] at hnaive
  simp only [mk.injEq] at hnaive
  obtain ⟨hctl, hdata, hruns, -, -⟩ := hnaive
  rw [naiveRegionDiff, if_neg (not_not.mpr hlen), diffOf, hctl, hdata, hruns]

end

/-- The optimised encoder is the reference encoder. -/
theorem regionDiff_eq_naive (prev cur : Bytes) : regionDiff prev cur = naiveRegionDiff prev cur := by
  by_cases hlen : prev.length = cur.length
  · rw [regionDiff_changedRuns hlen, naiveRegionDiff_changedRuns hlen]
  · rw [regionDiff, naiveRegionDiff, if_pos hlen, if_pos hlen]

/-- **A region diff is exact**: it is the plain one in control, data and number of runs, and a diff of
states of any lengths turns the old state, resized with zeros, into the new one. -/
theorem regionDiff_exact :
    (∀ prev cur : Bytes, regionDiff prev cur = naiveRegionDiff prev cur) ∧
      ∀ prev cur : Bytes, prev.length < 2 ^ 64 → cur.length < 2 ^ 64 →
        applyRegionDiffInPlace (resizeZero prev cur.length) (regionDiffResizing prev cur).control
          (regionDiffResizing prev cur).data = some cur :=
  ⟨regionDiff_eq_naive, fun _ _ ↦ applyRegionDiffInPlace_regionDiffResizing⟩

/-- Two words are replaced, and a partial word is added. -/
theorem regionDiff_exact_longer :
    regionDiff [1, 2, 3, 4, 5] [1, 2, 3, 9, 6] = naiveRegionDiff [1, 2, 3, 4, 5] [1, 2, 3, 9, 6] ∧
      applyRegionDiffInPlace (resizeZero [1, 2, 3, 4] 6)
        (regionDiffResizing [1, 2, 3, 4] [1, 2, 3, 4, 5, 6]).control
        (regionDiffResizing [1, 2, 3, 4] [1, 2, 3, 4, 5, 6]).data = some [1, 2, 3, 4, 5, 6] :=
  ⟨regionDiff_exact.1 _ _, regionDiff_exact.2 [1, 2, 3, 4] [1, 2, 3, 4, 5, 6] (by decide) (by decide)⟩

end SuperShuckie
