import Mathlib

/-!
# Open addressing with linear probing

A table is a list of `2 ^ k` slots and a probe walks it from a slot on, wrapping round at its end,
until it meets a slot at which it can stop.  `probe_eq_some` is the fact a hash table rests on: a
probe ends, inside the table, as long as some slot of the table stops it.
-/

set_option autoImplicit false

namespace Probing

variable {κ : Type} {p : κ → Bool} {slots : List κ}

/-- The first slot from `slot` on at which `p` holds, `fuel` slots being looked at.  `none` is an
index outside the table, or a walk that did not end. -/
def probe (p : κ → Bool) (slots : List κ) (mask : Nat) : Nat → Nat → Option Nat
  | 0, _ => none
  | fuel + 1, slot =>
    match slots[slot]? with
    | none => none
    | some k => if p k then some slot else probe p slots mask fuel ((slot + 1) &&& mask)

theorem and_mask {mask k : Nat} (h : mask + 1 = 2 ^ k) (n : Nat) : n &&& mask = n % 2 ^ k := by
  have hmask : mask = 2 ^ k - 1 := by omega
  rw [hmask, Nat.and_two_pow_sub_one_eq_mod]

theorem and_mask_lt {mask k : Nat} (h : mask + 1 = 2 ^ k) (n : Nat) : n &&& mask < 2 ^ k := by
  rw [and_mask h]
  exact Nat.mod_lt _ (Nat.two_pow_pos k)

/-- A walk of `d` slots from `slot` meets slot `target`, so a probe ends at the latest there. -/
theorem probe_of_distance {mask k target : Nat} (hmask : mask + 1 = 2 ^ k)
    (hlen : slots.length = 2 ^ k) (htarget : ∀ a, slots[target]? = some a → p a = true) :
    ∀ (fuel slot d : Nat), slot < 2 ^ k → d < fuel → (slot + d) % 2 ^ k = target →
      ∃ s a, probe p slots mask fuel slot = some s ∧ slots[s]? = some a ∧ p a = true := by
  intro fuel
  induction fuel with
  | zero => intro slot d hslot hd; omega
  | succ fuel ih =>
    intro slot d hslot hd hcyc
    have hlt : slot < slots.length := hlen ▸ hslot
    have hat : slots[slot]? = some slots[slot] := List.getElem?_eq_getElem hlt
    rw [probe, hat]
    by_cases hp : p slots[slot] = true
    · exact ⟨slot, _, if_pos hp, hat, hp⟩
    · obtain _ | d := d
      · -- the walk is at the target, which stops it
        rw [Nat.add_zero, Nat.mod_eq_of_lt hslot] at hcyc
        exact absurd (htarget _ (hcyc ▸ hat)) hp
      · have hnext : ((slot + 1) &&& mask) + d ≡ slot + (d + 1) [MOD 2 ^ k] := by
          rw [and_mask hmask]
          have h := (Nat.mod_modEq (slot + 1) (2 ^ k)).add_right d
          rwa [Nat.add_assoc, Nat.add_comm 1 d] at h
        have hrest := ih ((slot + 1) &&& mask) d (and_mask_lt hmask _) (by omega) (Eq.trans hnext hcyc)
        simpa only [if_neg hp] using hrest

/-- **A probe of a table with a slot that stops it ends.**  As many steps as the table has slots are
enough. -/
theorem probe_eq_some {mask k slot : Nat} (hmask : mask + 1 = 2 ^ k) (hlen : slots.length = 2 ^ k)
    (hslot : slot < 2 ^ k) (hstop : ∃ a ∈ slots, p a = true) :
    ∃ s a, probe p slots mask slots.length slot = some s ∧ slots[s]? = some a ∧ p a = true := by
  obtain ⟨a, ha, hpa⟩ := hstop
  obtain ⟨target, htarget, rfl⟩ := List.getElem_of_mem ha
  have hstops : ∀ b, slots[target]? = some b → p b = true := by
    intro b hb
    rw [List.getElem?_eq_getElem htarget, Option.some.injEq] at hb
    exact hb ▸ hpa
  by_cases hle : slot ≤ target
  · have hcyc : (slot + (target - slot)) % 2 ^ k = target := by
      rw [Nat.add_sub_cancel' hle, Nat.mod_eq_of_lt (by omega)]
    exact probe_of_distance hmask hlen hstops _ slot (target - slot) hslot (by omega) hcyc
  · have hcyc : (slot + (target + 2 ^ k - slot)) % 2 ^ k = target := by
      rw [show slot + (target + 2 ^ k - slot) = target + 2 ^ k by omega, Nat.add_mod_right,
        Nat.mod_eq_of_lt (by omega)]
    exact probe_of_distance hmask hlen hstops _ slot _ hslot (by omega) hcyc

end Probing
