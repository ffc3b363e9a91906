import Mathlib

/-!
# The last element with a property, sorting, and functions that may fail

`rposition P l` is the index of the last element of `l` with the property `P`, and `fromLast P l` is
what `l` holds from there on.

`pairwise_insertionSort_of`: a list sorted by a relation is in any order that the relation decides.
`mapM_eq_some_iff` reads a function applied to each element, where it succeeds on all.
-/

set_option autoImplicit false

variable {α : Type}

/-- The index of the last element with a property. -/
def rposition (P : α → Bool) : List α → Option Nat
  | [] => none
  | a :: l =>
    match rposition P l with
    | some i => some (i + 1)
    | none => if P a then some 0 else none

theorem rposition_eq_none {P : α → Bool} {l : List α} :
    rposition P l = none ↔ ∀ a ∈ l, P a = false := by
  induction l with
  | nil => simp [rposition]
  | cons a l ih =>
    rw [rposition]
    cases h : rposition P l with
    | some i =>
      rw [h] at ih
      simp only [reduceCtorEq, List.forall_mem_cons, false_iff, not_and]
      exact fun _ hall ↦ by cases ih.mpr hall
    | none =>
      rw [List.forall_mem_cons, and_iff_left (ih.mp h)]
      cases P a <;> simp

/-- The last element with a property has it, and none after it does. -/
theorem rposition_spec {P : α → Bool} {l : List α} {i : Nat} (h : rposition P l = some i) :
    (∃ a, l[i]? = some a ∧ P a = true) ∧ ∀ j a, i < j → l[j]? = some a → P a = false := by
  induction l generalizing i with
  | nil => cases h
  | cons a l ih =>
    rw [rposition] at h
    cases hl : rposition P l with
    | some k =>
      rw [hl] at h
      cases h
      obtain ⟨hat, hafter⟩ := ih hl
      refine ⟨by simpa using hat, fun j b hj hb ↦ ?_⟩
      cases j with
      | zero => omega
      | succ j => exact hafter j b (by omega) (by simpa using hb)
    | none =>
      rw [hl] at h
      simp only at h
      split at h
      · rename_i ha
        cases h
        refine ⟨⟨a, rfl, ha⟩, fun j b hj hb ↦ ?_⟩
        cases j with
        | zero => omega
        | succ j =>
          exact rposition_eq_none.mp hl b (List.mem_of_getElem? (by simpa using hb))
      · cases h

theorem rposition_append_singleton (P : α → Bool) (l : List α) (a : α) :
    rposition P (l ++ [a]) = if P a then some l.length else rposition P l := by
  induction l with
  | nil => simp [rposition]
  | cons b l ih =>
    rw [List.cons_append, rposition, ih]
    cases P a with
    | true => rfl
    | false => rfl

/-- An element with a property is the last one, if none after it has it. -/
theorem rposition_append_cons {P : α → Bool} (l : List α) {a : α} {l' : List α} (ha : P a = true)
    (hl' : ∀ b ∈ l', P b = false) : rposition P (l ++ a :: l') = some l.length := by
  induction l with
  | nil =>
    rw [List.nil_append, rposition, rposition_eq_none.mpr hl', if_pos ha]
    rfl
  | cons b l ih => rw [List.cons_append, rposition, ih, List.length_cons]

/-- The larger of two elements of an ascending list is further back. -/
theorem lt_of_getElem?_lt {l : List Nat} (h : l.Pairwise (· < ·)) {i j a b : Nat}
    (hi : l[i]? = some a) (hj : l[j]? = some b) (hab : a < b) : i < j := by
  obtain ⟨hilt, rfl⟩ := List.getElem?_eq_some_iff.mp hi
  obtain ⟨hjlt, rfl⟩ := List.getElem?_eq_some_iff.mp hj
  rcases Nat.lt_trichotomy i j with hij | rfl | hij
  · exact hij
  · omega
  · have := List.pairwise_iff_getElem.mp h j i hjlt hilt hij
    omega

/-- The elements of an ascending list up to one of them. -/
theorem takeWhile_le_of_sorted {l l' : List Nat} {a : Nat} (h : (l ++ a :: l').Pairwise (· < ·)) :
    (l ++ a :: l').takeWhile (fun b ↦ b ≤ a) = l ++ [a] := by
  obtain ⟨-, hright, hcross⟩ := List.pairwise_append.mp h
  have hleft : ∀ b ∈ l, decide (b ≤ a) = true := fun b hb ↦
    decide_eq_true (Nat.le_of_lt (hcross b hb a List.mem_cons_self))
  rw [List.takeWhile_append_of_pos hleft]
  congr 1
  rw [List.takeWhile_cons_of_pos (by simp)]
  cases l' with
  | nil => rfl
  | cons b l' =>
    have hab := (List.pairwise_cons.mp hright).1 b List.mem_cons_self
    rw [List.takeWhile_cons_of_neg (by simpa using hab)]

/-- What a list holds from the last element with a property on. -/
def fromLast (P : α → Bool) (l : List α) : List α :=
  match rposition P l with
  | some i => l.drop i
  | none => []

theorem fromLast_append_cons {P : α → Bool} (l : List α) {a : α} {l' : List α} (ha : P a = true)
    (hl' : ∀ b ∈ l', P b = false) : fromLast P (l ++ a :: l') = a :: l' := by
  rw [fromLast, rposition_append_cons l ha hl']
  simp

theorem fromLast_eq_nil {P : α → Bool} {l : List α} (h : ∀ b ∈ l, P b = false) :
    fromLast P l = [] := by
  rw [fromLast, rposition_eq_none.mpr h]

/-- A list with an element that has a property splits at the last one. -/
theorem exists_last_split {P : α → Bool} {l : List α} (h : ∃ a ∈ l, P a = true) :
    ∃ before a after, l = before ++ a :: after ∧ P a = true ∧ ∀ b ∈ after, P b = false := by
  induction l with
  | nil =>
    obtain ⟨a, ha, -⟩ := h
    cases ha
  | cons c l ih =>
    by_cases hl : ∃ a ∈ l, P a = true
    · obtain ⟨before, a, after, rfl, ha, hafter⟩ := ih hl
      exact ⟨c :: before, a, after, rfl, ha, hafter⟩
    · obtain ⟨a, ha, hP⟩ := h
      rcases List.mem_cons.mp ha with rfl | ha
      · refine ⟨[], a, l, rfl, hP, fun b hb ↦ ?_⟩
        rw [← Bool.not_eq_true]
        exact fun hPb ↦ hl ⟨b, hb, hPb⟩
      · exact (hl ⟨a, ha, hP⟩).elim

/-- Leaving out elements without the property does not change where the last one with it is. -/
theorem filter_fromLast {P Q : α → Bool} (h : ∀ a, P a = true → Q a = true) (l : List α) :
    (fromLast P l).filter Q = fromLast P (l.filter Q) := by
  by_cases hex : ∃ a ∈ l, P a = true
  · obtain ⟨before, a, after, rfl, ha, hafter⟩ := exists_last_split hex
    rw [fromLast_append_cons before ha hafter, List.filter_append,
      List.filter_cons_of_pos (h a ha),
      fromLast_append_cons _ ha fun b hb ↦ hafter b (List.mem_filter.mp hb).1]
  · have hnone : ∀ b ∈ l, P b = false := fun b hb ↦ by
      rw [← Bool.not_eq_true]
      exact fun hP ↦ hex ⟨b, hb, hP⟩
    rw [fromLast_eq_nil hnone, fromLast_eq_nil fun b hb ↦ hnone b (List.mem_filter.mp hb).1]
    rfl

/-- An element of a concatenation lies in one of the lists. -/
theorem exists_of_flatten_eq {ls : List (List α)} {before after : List α} {a : α}
    (h : ls.flatten = before ++ a :: after) :
    ∃ (i : Nat) (b c : List α), ls[i]? = some (b ++ a :: c) ∧
      before = (ls.take i).flatten ++ b ∧ after = c ++ (ls.drop (i + 1)).flatten := by
  induction ls generalizing before with
  | nil => simp at h
  | cons l ls ih =>
    rw [List.flatten_cons] at h
    rcases List.append_eq_append_iff.mp h with ⟨l', rfl, hrest⟩ | ⟨l', rfl, hrest⟩
    · obtain ⟨i, b, c, hi, hbefore, hafter⟩ := ih hrest
      refine ⟨i + 1, b, c, by simpa using hi, ?_, by simpa using hafter⟩
      rw [hbefore, List.take_succ_cons, List.flatten_cons, List.append_assoc]
    · cases l' with
      | nil =>
        obtain ⟨i, b, c, hi, hbefore, hafter⟩ := ih
          (show ls.flatten = [] ++ a :: after by simpa using hrest.symm)
        refine ⟨i + 1, b, c, by simpa using hi, ?_, by simpa using hafter⟩
        rw [List.take_succ_cons, List.flatten_cons, List.append_assoc, ← hbefore, List.append_nil,
          List.append_nil]
      | cons a' l' =>
        obtain ⟨rfl, rfl⟩ := List.cons_eq_cons.mp hrest
        exact ⟨0, before, l', rfl, rfl, by simp⟩

/-! ## Sorting -/

section Sorting

variable {r R : α → α → Prop} [DecidableRel r]

theorem pairwise_orderedInsert_of (htrans : ∀ a b c, R a b → R b c → R a c)
    (hr : ∀ a b, r a b → R a b) (hnot : ∀ a b, ¬ r a b → R b a) (a : α) {l : List α}
    (h : l.Pairwise R) : (l.orderedInsert r a).Pairwise R := by
  induction l with
  | nil => exact List.pairwise_singleton R a
  | cons b l ih =>
    obtain ⟨hb, hl⟩ := List.pairwise_cons.1 h
    rw [List.orderedInsert_cons]
    split
    · rename_i hab
      refine List.pairwise_cons.2 ⟨fun c hc ↦ ?_, h⟩
      obtain rfl | hc := List.mem_cons.1 hc
      · exact hr a c hab
      · exact htrans a b c (hr a b hab) (hb c hc)
    · rename_i hab
      refine List.pairwise_cons.2 ⟨fun c hc ↦ ?_, ih hl⟩
      obtain rfl | hc := (List.mem_orderedInsert r).1 hc
      · exact hnot c b hab
      · exact hb c hc

/-- **A sorted list is in order**: in any order that the relation it is sorted by decides. -/
theorem pairwise_insertionSort_of (htrans : ∀ a b c, R a b → R b c → R a c)
    (hr : ∀ a b, r a b → R a b) (hnot : ∀ a b, ¬ r a b → R b a) (l : List α) :
    (l.insertionSort r).Pairwise R := by
  induction l with
  | nil => exact List.Pairwise.nil
  | cons a l ih =>
    rw [List.insertionSort_cons]
    exact pairwise_orderedInsert_of htrans hr hnot a ih

end Sorting

/-! ## Functions that may fail, on each element -/

section Partial

variable {β : Type} {f : α → Option β}

theorem mapM_eq_some_iff {l : List α} {l' : List β} :
    l.mapM f = some l' ↔ l.map f = l'.map some := by
  induction l generalizing l' with
  | nil =>
    rw [List.mapM_nil, List.map_nil, eq_comm (a := []), List.map_eq_nil_iff]
    exact ⟨fun h ↦ (Option.some.inj h).symm, fun h ↦ congrArg some h.symm⟩
  | cons a l ih =>
    rw [List.mapM_cons, List.map_cons]
    cases hf : f a with
    | none =>
      refine iff_of_false (fun h ↦ nomatch h) fun h ↦ ?_
      obtain ⟨b, bs, -, hb, -⟩ := List.map_eq_cons_iff.mp h.symm
      cases hb
    | some b =>
      simp only [Option.bind_eq_bind, Option.bind_some, Option.bind_eq_some_iff, Option.pure_def,
        Option.some.injEq]
      constructor
      · rintro ⟨bs, hbs, rfl⟩
        rw [List.map_cons, ih.mp hbs]
      · intro h
        obtain ⟨c, bs, rfl, hc, hbs⟩ := List.map_eq_cons_iff.mp h.symm
        cases hc
        exact ⟨bs, ih.mpr hbs.symm, rfl⟩

theorem mapM_isSome_iff {l : List α} : (l.mapM f).isSome ↔ ∀ a ∈ l, (f a).isSome := by
  induction l with
  | nil => simp
  | cons a l ih =>
    rw [List.mapM_cons, List.forall_mem_cons, ← ih]
    cases f a with
    | none => simp
    | some b => cases l.mapM f <;> simp

end Partial
