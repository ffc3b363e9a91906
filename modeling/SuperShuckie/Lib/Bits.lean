import Mathlib

/-!
# Sets of numbers as words of bits

A word of `w` bits is a number below `2 ^ w`, and a list of words is the set of the positions of
their bits: `members` lists them in order.  A loop that takes the lowest bit of a word, clears it
and goes on while a bit is left visits the word's members: `setBits_eq`.
-/

set_option autoImplicit false

namespace Bits

/-! ## One word -/

/-- `x.count_ones()` -/
def countOnes : Nat → Nat → Nat
  | 0, _ => 0
  | w + 1, x => x % 2 + countOnes w (x / 2)

/-- `x.trailing_zeros()` -/
def trailingZeros : Nat → Nat → Nat
  | 0, _ => 0
  | w + 1, x => if x % 2 = 1 then 0 else trailingZeros w (x / 2) + 1

/-- `x & (x - 1)` -/
def clearLowest (x : Nat) : Nat := x &&& (x - 1)

/-- The positions a loop over a word visits: its lowest bit, which it then clears. -/
def setBits (w : Nat) : Nat → Nat → List Nat
  | 0, _ => []
  | fuel + 1, x => if x = 0 then [] else trailingZeros w x :: setBits w fuel (clearLowest x)

/-- The positions of the word's bits, in order. -/
def ones : Nat → Nat → List Nat
  | 0, _ => []
  | w + 1, x => if x % 2 = 1 then 0 :: (ones w (x / 2)).map (· + 1) else (ones w (x / 2)).map (· + 1)

variable {w x s : Nat} {words : List Nat}

theorem length_ones (w x : Nat) : (ones w x).length = countOnes w x := by
  induction w generalizing x with
  | zero => rfl
  | succ w ih =>
    rw [ones, countOnes]
    split_ifs with h
    · rw [List.length_cons, List.length_map, ih, h, Nat.add_comm]
    · rw [List.length_map, ih, (Nat.mod_two_eq_zero_or_one x).resolve_right h, Nat.zero_add]

theorem ones_eq_filter (w x : Nat) : ones w x = (List.range w).filter x.testBit := by
  induction w generalizing x with
  | zero => rfl
  | succ w ih =>
    have hshift : (List.map Nat.succ (List.range w)).filter x.testBit =
        (ones w (x / 2)).map (· + 1) := by
      rw [List.filter_map, ih]
      have hbits : x.testBit ∘ Nat.succ = (x / 2).testBit := funext fun i ↦ Nat.testBit_succ x i
      rw [hbits]
    rw [List.range_succ_eq_map, List.filter_cons, hshift, ones, Nat.testBit_zero]
    simp only [decide_eq_true_eq]

theorem mem_ones : s ∈ ones w x ↔ s < w ∧ x.testBit s = true := by
  rw [ones_eq_filter, List.mem_filter, List.mem_range]

theorem lt_of_mem_ones (h : s ∈ ones w x) : s < w := (mem_ones.mp h).1

@[simp] theorem ones_zero (w : Nat) : ones w 0 = [] := by
  simp [ones_eq_filter]

theorem clearLowest_odd (h : x % 2 = 1) : clearLowest x = 2 * (x / 2) := by
  refine Nat.eq_of_testBit_eq fun i ↦ ?_
  rw [clearLowest, Nat.testBit_and]
  cases i with
  | zero => simp [Nat.testBit_zero, h]; omega
  | succ i =>
    have hhalf : (x - 1) / 2 = x / 2 := by omega
    have htwo : 2 * (x / 2) / 2 = x / 2 := by omega
    rw [Nat.testBit_succ, Nat.testBit_succ, Nat.testBit_succ, hhalf, htwo, Bool.and_self]

theorem clearLowest_even (h : x % 2 = 0) : clearLowest x = 2 * clearLowest (x / 2) := by
  refine Nat.eq_of_testBit_eq fun i ↦ ?_
  rw [clearLowest, Nat.testBit_and]
  cases i with
  | zero => simp [Nat.testBit_zero, h]
  | succ i =>
    have hhalf : (x - 1) / 2 = x / 2 - 1 := by omega
    have htwo : 2 * clearLowest (x / 2) / 2 = clearLowest (x / 2) := by omega
    rw [Nat.testBit_succ, Nat.testBit_succ, Nat.testBit_succ, hhalf, htwo, clearLowest,
      Nat.testBit_and]

/-- **Taking the lowest bit takes the first position.** -/
theorem ones_eq_cons (hx : x ≠ 0) (h : x < 2 ^ w) :
    ones w x = trailingZeros w x :: ones w (clearLowest x) := by
  induction w generalizing x with
  | zero => omega
  | succ w ih =>
    rw [trailingZeros]
    by_cases hodd : x % 2 = 1
    · have heven : 2 * (x / 2) % 2 ≠ 1 := by omega
      have htwo : 2 * (x / 2) / 2 = x / 2 := by omega
      rw [if_pos hodd, clearLowest_odd hodd, ones, ones, if_pos hodd, if_neg heven, htwo]
    · have hzero : x % 2 = 0 := by omega
      have heven : 2 * clearLowest (x / 2) % 2 ≠ 1 := by omega
      have htwo : 2 * clearLowest (x / 2) / 2 = clearLowest (x / 2) := by omega
      rw [if_neg hodd, clearLowest_even hzero, ones, ones, if_neg hodd, if_neg heven, htwo,
        ih (by omega) (by omega), List.map_cons]

theorem clearLowest_lt (h : x < 2 ^ w) : clearLowest x < 2 ^ w :=
  lt_of_le_of_lt Nat.and_le_left h

/-- **The loop over a word visits its members.** -/
theorem setBits_eq {fuel : Nat} (hfuel : (ones w x).length ≤ fuel) (h : x < 2 ^ w) :
    setBits w fuel x = ones w x := by
  induction fuel generalizing x with
  | zero => rw [List.length_eq_zero_iff.mp (Nat.le_zero.mp hfuel), setBits]
  | succ fuel ih =>
    rw [setBits]
    split_ifs with hx
    · rw [hx, ones_zero]
    · have hcons := ones_eq_cons hx h
      rw [hcons] at hfuel ⊢
      rw [ih (Nat.le_of_succ_le_succ hfuel) (clearLowest_lt h)]

theorem length_ones_le (w x : Nat) : (ones w x).length ≤ w := by
  rw [ones_eq_filter]
  exact (List.length_filter_le _ _).trans (List.length_range).le

/-- Clearing a bit for each of the first `n` positions leaves the others. -/
theorem ones_iterate (n : Nat) (h : x < 2 ^ w) : ones w (clearLowest^[n] x) = (ones w x).drop n := by
  induction n generalizing x with
  | zero => rfl
  | succ n ih =>
    rw [Function.iterate_succ_apply, ih (clearLowest_lt h)]
    by_cases hx : x = 0
    · rw [hx]
      simp [clearLowest]
    · rw [ones_eq_cons hx h, List.drop_succ_cons]

theorem iterate_clearLowest_lt (n : Nat) (h : x < 2 ^ w) : clearLowest^[n] x < 2 ^ w := by
  induction n generalizing x with
  | zero => exact h
  | succ n ih => exact ih (clearLowest_lt h)

/-- **The `n`th position** is the lowest one once `n` bits are cleared. -/
theorem trailingZeros_iterate {n : Nat} (h : x < 2 ^ w) (hn : n < (ones w x).length) :
    (ones w x)[n]? = some (trailingZeros w (clearLowest^[n] x)) := by
  have hrest := ones_iterate n h
  have hne : clearLowest^[n] x ≠ 0 := by
    intro hzero
    rw [hzero, ones_zero] at hrest
    have hle := List.drop_eq_nil_iff.mp hrest.symm
    omega
  rw [ones_eq_cons hne (iterate_clearLowest_lt n h)] at hrest
  have hhead := congrArg List.head? hrest
  rwa [List.head?_drop, List.head?_cons, eq_comm] at hhead

/-! ## Lists of words -/

/-- The positions of the words' bits, in order. -/
def members (w : Nat) : List Nat → List Nat
  | [] => []
  | word :: words => ones w word ++ (members w words).map (· + w)

theorem length_members (w : Nat) (words : List Nat) :
    (members w words).length = (words.map (countOnes w)).sum := by
  induction words with
  | nil => rfl
  | cons word words ih =>
    rw [members, List.length_append, List.length_map, length_ones, ih, List.map_cons, List.sum_cons]

theorem members_append (w : Nat) (words more : List Nat) : members w (words ++ more) =
      members w words ++ (members w more).map (· + w * words.length) := by
  induction words with
  | nil => simp [members]
  | cons word words ih =>
    have hshift : (fun s ↦ s + w) ∘ (fun s ↦ s + w * words.length) =
        fun s ↦ s + w * (words.length + 1) := by
      funext s
      simp only [Function.comp_apply, Nat.mul_succ]
      omega
    rw [List.cons_append, members, members, ih, List.map_append, List.map_map, List.append_assoc,
      List.length_cons, hshift]

/-- **The positions are those whose bit is set**, in order. -/
theorem members_eq_filter (w : Nat) (words : List Nat) :
    members w words = (List.range (w * words.length)).filter
      fun s ↦ (words.getD (s / w) 0).testBit (s % w) := by
  induction words with
  | nil => simp [members]
  | cons word words ih =>
    rw [members, ih, List.length_cons, Nat.mul_succ, Nat.add_comm, List.range_add,
      List.filter_append, ones_eq_filter, List.filter_map]
    obtain rfl | hw := Nat.eq_zero_or_pos w
    · simp
    · have hadd : (fun s ↦ s + w) = (w + ·) := funext fun s ↦ Nat.add_comm s w
      rw [hadd]
      congr 1
      · refine List.filter_congr fun s hs ↦ ?_
        have hlt := List.mem_range.mp hs
        rw [Nat.div_eq_of_lt hlt, Nat.mod_eq_of_lt hlt, List.getD_cons_zero]
      · refine congrArg (List.map _) (List.filter_congr fun s _ ↦ ?_)
        rw [Function.comp_apply, Nat.add_div_left _ hw, Nat.add_mod_left, List.getD_cons_succ]

theorem mem_members : s ∈ members w words ↔
    s < w * words.length ∧ (words.getD (s / w) 0).testBit (s % w) = true := by
  rw [members_eq_filter, List.mem_filter, List.mem_range]

theorem pairwise_members (w : Nat) (words : List Nat) : (members w words).Pairwise (· < ·) := by
  rw [members_eq_filter]
  exact List.pairwise_lt_range.filter _

/-- The positions from one of them on. -/
theorem drop_members {n : Nat} (h : (members w words)[n]? = some s) :
    (members w words).drop n = (members w words).filter (s ≤ ·) := by
  have hsorted := pairwise_members w words
  obtain ⟨hn, hs⟩ := List.getElem?_eq_some_iff.mp h
  conv_rhs => rw [← List.take_append_drop n (members w words), List.filter_append]
  have hbefore : ((members w words).take n).filter (s ≤ ·) = [] := by
    rw [List.filter_eq_nil_iff]
    intro a ha
    obtain ⟨i, hi, rfl⟩ := List.mem_iff_getElem.mp ha
    rw [List.length_take] at hi
    have hlt := List.pairwise_iff_getElem.mp hsorted i n (by omega) hn (by omega)
    rw [List.getElem_take, decide_eq_true_eq]
    omega
  have hafter : ((members w words).drop n).filter (s ≤ ·) = (members w words).drop n := by
    rw [List.filter_eq_self]
    intro a ha
    obtain ⟨i, hi, rfl⟩ := List.mem_iff_getElem.mp ha
    rw [List.length_drop] at hi
    rw [List.getElem_drop, decide_eq_true_eq, ← hs]
    obtain rfl | hpos := Nat.eq_zero_or_pos i
    · rfl
    · exact (List.pairwise_iff_getElem.mp hsorted n (n + i) hn (by omega) (by omega)).le
  rw [hbefore, hafter, List.nil_append]

theorem ones_shift (w x k : Nat) : ones w (x >>> k <<< k) = (ones w x).filter (k ≤ ·) := by
  rw [ones_eq_filter, ones_eq_filter, List.filter_filter]
  refine List.filter_congr fun i _ ↦ ?_
  rw [Nat.testBit_shiftLeft, Nat.testBit_shiftRight]
  by_cases hk : k ≤ i
  · simp [hk]
  · simp [hk]

/-- **The positions from the `n`th on**, by its word: what is left of that word, and the words after
it. -/
theorem drop_members_eq {n word : Nat} (hw : 0 < w) (h : (members w words)[n]? = some s)
    (hword : words[s / w]? = some word) : (members w words).drop n =
      (ones w (word >>> (s % w) <<< (s % w))).map (s / w * w + ·) ++
        (members w (words.drop (s / w + 1))).map ((s / w + 1) * w + ·) := by
  have hdiv := Nat.div_add_mod' s w
  have hmod := Nat.mod_lt s hw
  obtain ⟨hlt, hget⟩ := List.getElem?_eq_some_iff.mp hword
  have hsplit : words = words.take (s / w) ++ word :: words.drop (s / w + 1) := by
    rw [← hget, ← List.drop_eq_getElem_cons hlt, List.take_append_drop]
  have htake : (words.take (s / w)).length = s / w := by
    rw [List.length_take]
    omega
  rw [drop_members h]
  conv_lhs => rw [hsplit]
  rw [members_append, members, htake, List.map_append, List.filter_append, List.filter_append]
  have hbefore : (members w (words.take (s / w))).filter (s ≤ ·) = [] := by
    rw [List.filter_eq_nil_iff]
    intro a ha
    have hmem := (mem_members.mp ha).1
    rw [htake, Nat.mul_comm] at hmem
    rw [decide_eq_true_eq]
    omega
  have hwithin : ((ones w word).map (· + w * (s / w))).filter (s ≤ ·) =
      (ones w (word >>> (s % w) <<< (s % w))).map (s / w * w + ·) := by
    rw [ones_shift, List.filter_map]
    have hadd : (fun b ↦ b + w * (s / w)) = (s / w * w + ·) := by
      funext b
      rw [Nat.add_comm, Nat.mul_comm]
    rw [hadd]
    refine congrArg (List.map _) (List.filter_congr fun b _ ↦ ?_)
    rw [Function.comp_apply, decide_eq_decide]
    omega
  have hafter : (((members w (words.drop (s / w + 1))).map (· + w)).map
      (· + w * (s / w))).filter (s ≤ ·) =
      (members w (words.drop (s / w + 1))).map ((s / w + 1) * w + ·) := by
    have hadd : (fun b ↦ b + w * (s / w)) ∘ (fun b ↦ b + w) = ((s / w + 1) * w + ·) := by
      funext b
      simp only [Function.comp_apply, Nat.add_mul, Nat.mul_comm w]
      omega
    rw [List.map_map, hadd, List.filter_eq_self]
    intro a ha
    obtain ⟨b, -, rfl⟩ := List.mem_map.mp ha
    rw [decide_eq_true_eq, Nat.add_mul]
    omega
  rw [hbefore, hwithin, hafter, List.nil_append]

end Bits
