import Mathlib

/-!
# Runs of a machine

A machine takes a step for each event.  `Along` says something of every step of a run, of the event
and of the state before it; what single steps keep, as long as they meet such a condition, a run
that meets it along the way keeps too (`run_along`).

A run that does not end reaches a goal where a rank never rises before the goal, and falls again and
again (`exists_goal`).
-/

set_option autoImplicit false

namespace Runs

variable {S Event : Type} (step : Event → S → S)

/-- Take a step for each event. -/
def run (events : List Event) (s : S) : S := events.foldl (fun s event ↦ step event s) s

/-- What is said of each step of a run. -/
def Along (P : Event → S → Prop) : List Event → S → Prop
  | [], _ => True
  | event :: events, s => P event s ∧ Along P events (step event s)

/-- What is said of each step can be checked along a run. -/
instance decidableAlong (P : Event → S → Prop) [∀ event s, Decidable (P event s)] :
    (events : List Event) → (s : S) → Decidable (Along step P events s)
  | [], _ => isTrue trivial
  | event :: events, s =>
    have := decidableAlong P events (step event s)
    inferInstanceAs (Decidable (P event s ∧ Along step P events (step event s)))

variable {step} {P : Event → S → Prop} {events events' : List Event} {s : S}

theorem run_append : run step (events ++ events') s = run step events' (run step events s) :=
  List.foldl_append

theorem along_append : Along step P (events ++ events') s ↔
    Along step P events s ∧ Along step P events' (run step events s) := by
  induction events generalizing s with
  | nil => exact ⟨fun h ↦ ⟨trivial, h⟩, And.right⟩
  | cons event events ih =>
    show P event s ∧ Along step P (events ++ events') (step event s) ↔
      (P event s ∧ Along step P events (step event s)) ∧ _
    rw [ih, and_assoc]
    rfl

/-- What is said of every step is said along every run. -/
theorem along_always (h : ∀ event s, P event s) : Along step P events s := by
  induction events generalizing s with
  | nil => trivial
  | cons event events ih => exact ⟨h event s, ih⟩

/-- **What the steps of a run keep**, as long as they meet a condition, holds after the run. -/
theorem run_along {Q : S → Prop} (hstep : ∀ event s, Q s → P event s → Q (step event s))
    (halong : Along step P events s) (hs : Q s) : Q (run step events s) := by
  induction events generalizing s with
  | nil => exact hs
  | cons event events ih => exact ih halong.2 (hstep event s hs halong.1)

/-- What every step keeps holds after every run. -/
theorem run_kept {Q : S → Prop} (hstep : ∀ event s, Q s → Q (step event s)) (hs : Q s) :
    Q (run step events s) := by
  induction events generalizing s with
  | nil => exact hs
  | cons event events ih => exact ih (hstep event s hs)

/-- What holds of each step of a run, because it does wherever what the steps keep holds. -/
theorem along_of_kept {Q : S → Prop} {R : Event → S → Prop}
    (hstep : ∀ event s, Q s → P event s → Q (step event s) ∧ R event s)
    (halong : Along step P events s) (hs : Q s) : Along step R events s := by
  induction events generalizing s with
  | nil => trivial
  | cons event events ih =>
    obtain ⟨hQ, hR⟩ := hstep event s hs halong.1
    exact ⟨hR, ih halong.2 hQ⟩

/-! ## Runs without an end -/

variable {goal : Nat → Prop} {rank : Nat → Nat} {n : Nat}

theorem rank_add_le (hle : ∀ i ≥ n, rank (i + 1) ≤ rank i) (d : Nat) : rank (n + d) ≤ rank n := by
  induction d with
  | zero => exact Nat.le_refl _
  | succ d ih => exact Nat.le_trans (hle (n + d) (Nat.le_add_right n d)) ih

/-- **A goal is reached** where a rank never rises before it, and falls again and again. -/
theorem exists_goal (hle : ∀ i ≥ n, ¬ goal i → rank (i + 1) ≤ rank i)
    (hlt : ∀ i ≥ n, ∃ j ≥ i, goal j ∨ rank (j + 1) < rank j) : ∃ m ≥ n, goal m := by
  -- Without the goal, the rank would fall for ever.
  by_contra hnever
  have hnot (i : Nat) (hi : n ≤ i) : ¬ goal i := fun h ↦ hnever ⟨i, hi, h⟩
  have hbound (k : Nat) : ∀ i ≥ n, ¬ rank i < k := by
    induction k with
    | zero => exact fun i _ ↦ Nat.not_lt_zero _
    | succ k ih =>
      intro i hi hlast
      obtain ⟨j, hj, hgoal | hfall⟩ := hlt i hi
      · exact hnot j (Nat.le_trans hi hj) hgoal
      · have hrank := rank_add_le (fun l hl ↦ hle l (Nat.le_trans hi hl)
          (hnot l (Nat.le_trans hi hl))) (j - i)
        rw [Nat.add_sub_cancel' hj] at hrank
        exact ih (j + 1) (by omega) (by omega)
  exact hbound (rank n + 1) n (Nat.le_refl n) (Nat.lt_succ_self _)

end Runs
