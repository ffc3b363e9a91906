import SuperShuckie.Lib.Checked
import SuperShuckie.RegionDiff.Plain

/-!
# Does a diff touch a range?

`regionDiffTouches` walks the control stream of a diff and says whether it changes a whole word inside a
range of bytes.  It stops early on both sides of the range, and answers that a stream it cannot read
touches it.  `touchesWalk` is the walk with its checked sums, and without an answer when it does not end.

* `touchesWalk_eq`: it ends for every control stream, with the answer of `regionDiffTouches`.
* `regionDiffTouches_exact`: for the diff of two states of one length the answer is exact.
-/

set_option autoImplicit false

namespace SuperShuckie

open ByteFormat

/-! ## The walk -/

/-- Whether the runs of a control stream change a word from `firstWord` on and before `endWord`,
from word `pos` on. -/
def runsTouch (firstWord endWord : Nat) : Nat → Bytes → Nat → Bool
  | _, [], _ => false
  | 0, _ :: _, _ => true
  | fuel + 1, control, pos =>
    match readLeb128 control with
    | none => true
    | some (gap, control) =>
      match readLeb128 control with
      | none => true
      | some (len, control) =>
        if 2 ^ 64 ≤ pos + gap then true
        else if endWord ≤ pos + gap then false
        else if 2 ^ 64 ≤ pos + gap + len then true
        else if firstWord < pos + gap + len then true
        else runsTouch firstWord endWord fuel control (pos + gap + len)

/-- Whether a control stream changes a whole word inside `start..stop`; a malformed one does. -/
def regionDiffTouches (control : Bytes) (start stop : Nat) : Bool :=
  let firstWord := (start + 3) / 4
  let endWord := stop / 4
  if endWord ≤ firstWord then false else runsTouch firstWord endWord control.length control 0

/-- The loop of `region_diff_touches`, the last run having ended at word `pos`.  Every round reads two
numbers, so as many rounds as there are bytes are enough; `none` is a walk that did not end. -/
def touchesGo (firstWord endWord : Nat) : Nat → Bytes → Nat → Option Bool
  | _, [], _ => some false
  | 0, _ :: _, _ => none
  | fuel + 1, ctl, pos =>
    match readLeb128 ctl with
    | none => some true
    | some (gap, ctl) =>
      match readLeb128 ctl with
      | none => some true
      | some (len, ctl) =>
        match Checked.add pos gap with
        | none => some true
        | some runStart =>
          if endWord ≤ runStart then some false
          else
            match Checked.add runStart len with
            | none => some true
            | some runEnd =>
              if firstWord < runEnd then some true else touchesGo firstWord endWord fuel ctl runEnd

/-- `region_diff_touches`, with no answer when the walk does not end. -/
def touchesWalk (control : Bytes) (start stop : Nat) : Option Bool :=
  let firstWord := (start + 3) / 4
  let endWord := stop / 4
  if endWord ≤ firstWord then some false else touchesGo firstWord endWord control.length control 0

theorem touchesGo_eq (firstWord endWord : Nat) {fuel : Nat} {ctl : Bytes} (h : ctl.length ≤ fuel)
    (pos : Nat) :
    touchesGo firstWord endWord fuel ctl pos = some (runsTouch firstWord endWord fuel ctl pos) := by
  induction fuel generalizing ctl pos with
  | zero =>
    obtain rfl := List.length_eq_zero_iff.mp (Nat.le_zero.mp h)
    rfl
  | succ fuel ih =>
    obtain _ | ⟨byte, rest⟩ := ctl
    · rfl
    · have hne : byte :: rest ≠ [] := List.cons_ne_nil byte rest
      rw [touchesGo.eq_3 _ _ _ pos fuel hne, runsTouch.eq_3 _ _ _ pos fuel hne]
      cases hgap : readLeb128 (byte :: rest) with
      | none => rfl
      | some read =>
        obtain ⟨gap, ctl⟩ := read
        cases hlen : readLeb128 ctl with
        | none => simp only [hlen]
        | some read' =>
          obtain ⟨len, ctl'⟩ := read'
          have hshort := length_lt_of_readLeb128 hgap
          have hshort' := length_lt_of_readLeb128 hlen
          have hrest := @ih ctl' (by omega) (pos + gap + len)
          simp only [hlen, Checked.add]
          by_cases hstart : pos + gap < 2 ^ 64
          · simp only [if_pos hstart, if_neg (Nat.not_le.mpr hstart)]
            by_cases hend : pos + gap + len < 2 ^ 64
            · simp only [if_pos hend, if_neg (Nat.not_le.mpr hend), hrest]
              split_ifs <;> rfl
            · simp only [if_neg hend, if_pos (Nat.not_lt.mp hend)]
              split_ifs <;> rfl
          · simp only [if_neg hstart, if_pos (Nat.not_lt.mp hstart)]

/-- The walk ends, whatever it is given. -/
theorem touchesWalk_eq (control : Bytes) (start stop : Nat) :
    touchesWalk control start stop = some (regionDiffTouches control start stop) := by
  rw [touchesWalk, regionDiffTouches]
  split_ifs
  · rfl
  · exact touchesGo_eq _ _ le_rfl 0

/-! ## On the runs of a diff -/

/-- The words that some runs span. -/
def spanOf (runs : List (Nat × Nat)) : Nat := (runs.map fun r ↦ r.1 + r.2).sum

theorem spanOf_cons (run : Nat × Nat) (runs : List (Nat × Nat)) :
    spanOf (run :: runs) = run.1 + run.2 + spanOf runs := by
  simp [spanOf]

theorem le_of_covered {runs : List (Nat × Nat)} {pos i : Nat} (h : Covered runs pos i) : pos ≤ i := by
  by_contra hlt
  exact not_covered_of_lt (by omega) h

theorem touchesGo_encodeRuns {firstWord endWord : Nat} (hrange : firstWord < endWord)
    {R : List (Nat × List Bytes)} (hne : ∀ r ∈ R, r.2 ≠ []) {fuel : Nat} (hfuel : R.length ≤ fuel)
    {pos : Nat} (hpos : pos + spanOf (runLens R) < 2 ^ 64) :
    touchesGo firstWord endWord fuel (encodeRuns R) pos = some true ↔
      ∃ k, firstWord ≤ k ∧ k < endWord ∧ Covered (runLens R) pos k := by
  induction R generalizing fuel pos with
  | nil => cases fuel <;> simp [encodeRuns, touchesGo, runLens, Covered]
  | cons r R ih =>
    obtain ⟨fuel, rfl⟩ : ∃ n, fuel = n + 1 := ⟨fuel - 1, by simp at hfuel; omega⟩
    have hlen : 0 < r.2.length := List.length_pos_iff.mpr (hne r List.mem_cons_self)
    have hspan : spanOf (runLens (r :: R)) = r.1 + r.2.length + spanOf (runLens R) := spanOf_cons _ _
    rw [hspan] at hpos
    have hrest := @ih (fun q hq ↦ hne q (List.mem_cons_of_mem r hq)) fuel
      (Nat.le_of_succ_le_succ hfuel) (pos + r.1 + r.2.length) (by omega)
    have hcovered : ∀ k, Covered (runLens (r :: R)) pos k ↔
        (pos + r.1 ≤ k ∧ k < pos + r.1 + r.2.length) ∨
          Covered (runLens R) (pos + r.1 + r.2.length) k := fun k ↦ Iff.rfl
    have hnil : encodeRuns (r :: R) ≠ [] := by
      rw [encodeRuns_cons]
      simp [leb128_ne_nil]
    rw [touchesGo.eq_3 _ _ _ pos fuel hnil, encodeRuns_cons]
    simp only [readLeb128_leb128 (show r.1 < 2 ^ 64 by omega),
      readLeb128_leb128 (show r.2.length < 2 ^ 64 by omega),
      Checked.add_of_lt (show pos + r.1 < 2 ^ 64 by omega),
      Checked.add_of_lt (show pos + r.1 + r.2.length < 2 ^ 64 by omega), hcovered]
    split_ifs with hpast hreach
    · -- the run and all that follow it start past the range
      refine iff_of_false (by simp) ?_
      rintro ⟨k, -, hk, ⟨hle, -⟩ | hlater⟩
      · omega
      · have := le_of_covered hlater
        omega
    · refine iff_of_true rfl ⟨max firstWord (pos + r.1), by omega, by omega, .inl ⟨by omega, by omega⟩⟩
    · rw [hrest]
      refine exists_congr fun k ↦ and_congr_right fun hk ↦ and_congr_right fun _ ↦ ?_
      exact ⟨.inr, fun h ↦ h.resolve_left (by omega)⟩

theorem ne_nil_of_mem_changedRuns {P C : List Bytes} :
    ∀ r ∈ changedRuns P C, r.2 ≠ [] := by
  induction P generalizing C with
  | nil => simp [changedRuns]
  | cons p P ih =>
    obtain _ | ⟨c, C⟩ := C
    · simp [changedRuns]
    · rw [changedRuns]
      have hrest := ih (C := C)
      generalize changedRuns P C = R at hrest ⊢
      split_ifs
      · obtain _ | ⟨⟨g, new⟩, R⟩ := R
        · simp [addGap]
        · simpa [addGap] using hrest
      · obtain _ | ⟨⟨_ | g, new⟩, R⟩ := R
        · simp [addWord]
        · intro r hr
          obtain rfl | hr := List.mem_cons.mp hr
          · exact List.cons_ne_nil c new
          · exact hrest r (List.mem_cons_of_mem _ hr)
        · intro r hr
          obtain rfl | hr := List.mem_cons.mp hr
          · exact List.cons_ne_nil c []
          · exact hrest r hr

theorem spanOf_changedRuns (P C : List Bytes) : spanOf (runLens (changedRuns P C)) ≤ P.length := by
  induction P generalizing C with
  | nil => simp [changedRuns, runLens, spanOf]
  | cons p P ih =>
    obtain _ | ⟨c, C⟩ := C
    · simp [changedRuns, runLens, spanOf]
    · have hrest := ih C
      rw [changedRuns, List.length_cons]
      generalize changedRuns P C = R at hrest ⊢
      split_ifs
      · obtain _ | ⟨⟨g, new⟩, R⟩ := R
        · simp [addGap, runLens, spanOf]
        · simp only [addGap, runLens, List.map_cons, spanOf_cons] at hrest ⊢
          omega
      · obtain _ | ⟨⟨_ | g, new⟩, R⟩ := R
        · simp [addWord, runLens, spanOf]
        all_goals
          simp only [addWord, runLens, List.map_cons, spanOf_cons, List.length_cons,
            List.length_nil] at hrest ⊢
          omega

/-- **The answer is exact** for the diff of two states of one length, and there is one for every control
stream, malformed or not. -/
theorem regionDiffTouches_exact :
    (∀ prev cur : Bytes, ∀ diff start stop, prev.length = cur.length → cur.length < 2 ^ 64 →
      regionDiff prev cur = some diff →
        (regionDiffTouches diff.control start stop = true ↔
          ∃ k, start ≤ 4 * k ∧ 4 * k + 4 ≤ stop ∧ wordAt prev k ≠ wordAt cur k)) ∧
    ∀ control start stop,
      touchesWalk control start stop = some (regionDiffTouches control start stop) := by
  refine ⟨fun prev cur diff start stop hlen hbound hdiff ↦ ?_, touchesWalk_eq⟩
  rw [regionDiff_changedRuns hlen, Option.some.injEq] at hdiff
  have hcount : (padWords prev).length = (padWords cur).length := by
    rw [length_padWords, length_padWords, hlen]
  have hword : ∀ k, (padWords prev)[k]? ≠ (padWords cur)[k]? ↔ wordAt prev k ≠ wordAt cur k := by
    intro k
    have hpast : ∀ bs : Bytes, (bs.length + 3) / 4 ≤ k → wordAt bs k = padWord [] := fun bs hk ↦ by
      rw [wordAt, List.drop_eq_nil_of_le (by omega), List.take_nil]
    by_cases hk : k < (prev.length + 3) / 4
    · have hk' : k < (cur.length + 3) / 4 := hlen ▸ hk
      simp [padWords_eq_map, hk, hk']
    · have hk' : (cur.length + 3) / 4 ≤ k := by omega
      rw [hpast prev (by omega), hpast cur hk', List.getElem?_eq_none (by rw [length_padWords]; omega),
        List.getElem?_eq_none (by rwa [length_padWords])]
      simp
  have hspan := spanOf_changedRuns (padWords prev) (padWords cur)
  rw [length_padWords] at hspan
  have hrange : ∀ k, (start + 3) / 4 ≤ k ∧ k < stop / 4 ↔ start ≤ 4 * k ∧ 4 * k + 4 ≤ stop := by omega
  rw [← Option.some.injEq, ← touchesWalk_eq, touchesWalk, ← hdiff]
  split_ifs with hempty
  · refine iff_of_false (by simp) ?_
    rintro ⟨k, hstart, hstop, -⟩
    have := (hrange k).mpr ⟨hstart, hstop⟩
    omega
  · rw [diffOf, touchesGo_encodeRuns (by omega) ne_nil_of_mem_changedRuns
      (length_le_encodeRuns _) (by omega)]
    refine exists_congr fun k ↦ ?_
    rw [covered_changedRuns hcount, hword, ← and_assoc, hrange, and_assoc]

/-- The word from byte 4 on changes, and nothing before it. -/
theorem regionDiffTouches_exact_second :
    (regionDiffTouches (diffOf [(1, [[5, 6, 7, 9]])]).control 3 8 = true ↔
      ∃ k, 3 ≤ 4 * k ∧ 4 * k + 4 ≤ 8 ∧
        wordAt [1, 2, 3, 4, 5, 6, 7, 8] k ≠ wordAt [1, 2, 3, 4, 5, 6, 7, 9] k) ∧
    touchesWalk [255] 0 8 = some (regionDiffTouches [255] 0 8) :=
  ⟨regionDiffTouches_exact.1 [1, 2, 3, 4, 5, 6, 7, 8] [1, 2, 3, 4, 5, 6, 7, 9] _ 3 8 rfl (by decide)
    (by decide), regionDiffTouches_exact.2 [255] 0 8⟩

end SuperShuckie
