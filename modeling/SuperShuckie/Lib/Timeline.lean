import Mathlib

/-!
# Linear histories

A machine that keeps records of its steps on two stacks, one to undo and one to redo, follows a line
of states when each record tells what lies between two neighbours (`Linked`).
-/

set_option autoImplicit false

namespace Timelines

variable {S R : Type}

/-- Each record relates two neighbours on a way of states that starts at `s`. -/
def Linked (rel : R → S → S → Prop) : List R → S → List S → Prop
  | [], _, [] => True
  | r :: records, s, s' :: states => rel r s s' ∧ Linked rel records s' states
  | _, _, _ => False

variable {rel : R → S → S → Prop} {records : List R} {s : S} {states : List S} {r : R}

/-- The states behind the records there are. -/
theorem Linked.exists_cons (h : Linked rel (r :: records) s states) :
    ∃ s' rest, states = s' :: rest ∧ rel r s s' ∧ Linked rel records s' rest := by
  cases states with
  | nil => exact h.elim
  | cons s' rest => exact ⟨s', rest, rfl, h.1, h.2⟩

/-- Without records there are no states either. -/
theorem Linked.eq_nil (h : Linked rel [] s states) : states = [] := by
  cases states with
  | nil => rfl
  | cons s' states => exact h.elim

end Timelines
