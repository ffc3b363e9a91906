import Mathlib

/-!
# Arithmetic of 64-bit words that notices an overflow

Sums, products and differences of numbers below `2 ^ 64`.  `none` is the answer of `checked_add` and
its siblings when the result does not fit, and the panic of the plain operators.
-/

set_option autoImplicit false

namespace Checked

/-- `a + b`. -/
def add (a b : Nat) : Option Nat := if a + b < 2 ^ 64 then some (a + b) else none

/-- `a * b`. -/
def mul (a b : Nat) : Option Nat := if a * b < 2 ^ 64 then some (a * b) else none

/-- `a - b`. -/
def sub (a b : Nat) : Option Nat := if b ≤ a then some (a - b) else none

/-- The smallest power of two that is at least `n`. -/
def powerOfTwoFrom (n : Nat) : Nat := if n ≤ 1 then 1 else 2 ^ (Nat.log2 (n - 1) + 1)

/-- `n.next_power_of_two()`. -/
def nextPowerOfTwo (n : Nat) : Option Nat :=
  if powerOfTwoFrom n < 2 ^ 64 then some (powerOfTwoFrom n) else none

variable {a b c : Nat}

theorem add_of_lt (h : a + b < 2 ^ 64) : add a b = some (a + b) := if_pos h

theorem mul_of_lt (h : a * b < 2 ^ 64) : mul a b = some (a * b) := if_pos h

theorem sub_of_le (h : b ≤ a) : sub a b = some (a - b) := if_pos h

theorem add_eq_some : add a b = some c ↔ a + b < 2 ^ 64 ∧ a + b = c := by
  rw [add, Option.ite_none_right_eq_some, Option.some.injEq]

theorem exists_powerOfTwoFrom (n : Nat) : ∃ k, powerOfTwoFrom n = 2 ^ k := by
  rw [powerOfTwoFrom]
  split_ifs
  · exact ⟨0, rfl⟩
  · exact ⟨_, rfl⟩

theorem le_powerOfTwoFrom (n : Nat) : n ≤ powerOfTwoFrom n := by
  rw [powerOfTwoFrom]
  split_ifs with h
  · exact h
  · have hlt : n - 1 < 2 ^ (Nat.log2 (n - 1) + 1) := Nat.lt_log2_self
    omega

theorem powerOfTwoFrom_le {n k : Nat} (h : n ≤ 2 ^ k) : powerOfTwoFrom n ≤ 2 ^ k := by
  rw [powerOfTwoFrom]
  split_ifs with hn
  · exact Nat.one_le_two_pow
  · have hlog : Nat.log2 (n - 1) < k := (Nat.log2_lt (by omega)).2 (by omega)
    exact Nat.pow_le_pow_right (by decide) hlog

theorem nextPowerOfTwo_of_le {n : Nat} (h : n ≤ 2 ^ 63) :
    nextPowerOfTwo n = some (powerOfTwoFrom n) :=
  if_pos (Nat.lt_of_le_of_lt (powerOfTwoFrom_le h) (by decide))

end Checked
