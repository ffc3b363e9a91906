import SuperShuckie.Lib.Reader

/-!
# Little-endian integers and LEB128

Natural numbers as byte strings, least significant byte first: `leBytes k n` in a fixed number of
bytes, `leb128 n` in as many groups of seven bits as it needs, with the top bit of every byte but
the last set.  Both are stated over `Nat`; a fixed-width integer type uses them through `toNat`.
-/

set_option autoImplicit false

namespace ByteFormat

/-! ## Fixed width -/

/-- The `k` low bytes of `n`, least significant first. -/
def leBytes : Nat → Nat → Bytes
  | 0, _ => []
  | k + 1, n => UInt8.ofNat n :: leBytes k (n / 256)

/-- The number whose bytes, least significant first, are given. -/
def ofLeBytes : Bytes → Nat
  | [] => 0
  | b :: bs => b.toNat + 256 * ofLeBytes bs

@[simp] theorem length_leBytes (k n : Nat) : (leBytes k n).length = k := by
  induction k generalizing n with
  | zero => rfl
  | succ k ih => simp [leBytes, ih]

theorem ofLeBytes_leBytes {k n : Nat} (h : n < 256 ^ k) : ofLeBytes (leBytes k n) = n := by
  induction k generalizing n with
  | zero =>
    have h0 : n = 0 := by simpa using h
    rw [h0]
    rfl
  | succ k ih =>
    have hdiv : n / 256 < 256 ^ k := by
      rw [Nat.pow_succ] at h
      omega
    simp only [leBytes, ofLeBytes, ih hdiv, UInt8.toNat_ofNat']
    omega

theorem ofLeBytes_lt (bs : Bytes) : ofLeBytes bs < 256 ^ bs.length := by
  induction bs with
  | nil => simp [ofLeBytes]
  | cons b bs ih =>
    have hb := b.toNat_lt
    simp only [ofLeBytes, List.length_cons, Nat.pow_succ]
    omega

/-- Writing a number back in the width it was read from gives the bytes it was read from. -/
theorem leBytes_ofLeBytes (bs : Bytes) : leBytes bs.length (ofLeBytes bs) = bs := by
  induction bs with
  | nil => rfl
  | cons b bs ih =>
    have hb := b.toNat_lt
    have hdiv : (b.toNat + 256 * ofLeBytes bs) / 256 = ofLeBytes bs := by omega
    simp only [ofLeBytes, List.length_cons, leBytes, hdiv, ih, List.cons.injEq, and_true]
    apply UInt8.toNat_inj.mp
    rw [UInt8.toNat_ofNat']
    omega

/-- The least number of whole bytes that hold `n`, when `n` is not zero. -/
theorem lt_pow_byteLength (n : Nat) : n < 256 ^ (1 + Nat.log2 n / 8) := by
  have hlog : n < 2 ^ (Nat.log2 n + 1) := Nat.lt_log2_self
  have hle : Nat.log2 n + 1 ≤ 8 * (1 + Nat.log2 n / 8) := by omega
  calc n < 2 ^ (Nat.log2 n + 1) := hlog
    _ ≤ 2 ^ (8 * (1 + Nat.log2 n / 8)) := Nat.pow_le_pow_right (by omega) hle
    _ = 256 ^ (1 + Nat.log2 n / 8) := by rw [Nat.pow_mul]

/-! ## LEB128 -/

/-- `n` in groups of seven bits, at most `fuel` of them. -/
def leb128Go : Nat → Nat → Bytes
  | 0, _ => []
  | fuel + 1, n =>
    if n / 128 = 0 then [UInt8.ofNat (n % 128)]
    else UInt8.ofNat (n % 128 + 128) :: leb128Go fuel (n / 128)

/-- A 64-bit number in groups of seven bits: ten of them at most. -/
def leb128 (n : Nat) : Bytes := leb128Go 10 n

/-- Read groups of seven bits, the first of which stands at bit `shift`, onto `result`.  Fails at
the end of the input, and at the first group that does not fit in 64 bits. -/
def readLeb128Go : Bytes → Nat → Nat → Option (Nat × Bytes)
  | [], _, _ => none
  | b :: rest, shift, result =>
    let bits := b.toNat % 128
    if 63 < shift ∨ (shift = 63 ∧ 1 < bits) then none
    else if b.toNat < 128 then some (result + bits * 2 ^ shift, rest)
    else readLeb128Go rest (shift + 7) (result + bits * 2 ^ shift)

/-- Read a 64-bit number off the front of the input. -/
def readLeb128 (bs : Bytes) : Option (Nat × Bytes) := readLeb128Go bs 0 0

/-- A number of fewer than eight bits is a single group. -/
private theorem readLeb128Go_last {n shift : Nat} (fuel result : Nat) (rest : Bytes)
    (hlast : n < 128) (htop : shift = 63 → n ≤ 1) (hshift : shift ≤ 63) :
    readLeb128Go (leb128Go (fuel + 1) n ++ rest) shift result =
      some (result + n * 2 ^ shift, rest) := by
  have hz : n / 128 = 0 := by omega
  have hmod : n % 128 = n := Nat.mod_eq_of_lt hlast
  have hb : (UInt8.ofNat n).toNat = n := by rw [UInt8.toNat_ofNat']; omega
  have hfits : ¬ (63 < shift ∨ (shift = 63 ∧ 1 < n)) := by omega
  rw [leb128Go, if_pos hz, hmod]
  simp only [List.cons_append, List.nil_append, readLeb128Go, hb, hmod, if_neg hfits, if_pos hlast]

theorem readLeb128Go_leb128Go {fuel n shift : Nat} (result : Nat) (rest : Bytes)
    (hfuel : n < 128 ^ (fuel + 1)) (hshift : shift ≤ 63) (hn : n * 2 ^ shift < 2 ^ 64) :
    readLeb128Go (leb128Go (fuel + 1) n ++ rest) shift result =
      some (result + n * 2 ^ shift, rest) := by
  have htop : shift = 63 → n ≤ 1 := by
    rintro rfl
    omega
  induction fuel generalizing n shift result with
  | zero =>
    have hlast : n < 128 := by simpa using hfuel
    exact readLeb128Go_last 0 result rest hlast htop hshift
  | succ fuel ih =>
    by_cases hz : n / 128 = 0
    · exact readLeb128Go_last (fuel + 1) result rest (by omega) htop hshift
    · have hb : (UInt8.ofNat (n % 128 + 128)).toNat = n % 128 + 128 := by
        rw [UInt8.toNat_ofNat']
        omega
      have hbits : (n % 128 + 128) % 128 = n % 128 := by omega
      have hmore : ¬ n % 128 + 128 < 128 := by omega
      have hlow : shift + 7 ≤ 63 := by
        -- a group follows this one, so the number reaches past bit `shift + 7`
        by_contra hgt
        have hpow : 2 ^ 57 ≤ 2 ^ shift := Nat.pow_le_pow_right (by omega) (by omega)
        have hmul : 128 * 2 ^ 57 ≤ n * 2 ^ shift := Nat.mul_le_mul (by omega) hpow
        omega
      have hfits : ¬ (63 < shift ∨ (shift = 63 ∧ 1 < n % 128)) := by omega
      have hfuel' : n / 128 < 128 ^ (fuel + 1) := by
        rw [Nat.pow_succ] at hfuel
        omega
      have hsplit : n * 2 ^ shift = n % 128 * 2 ^ shift + n / 128 * 2 ^ (shift + 7) := by
        calc n * 2 ^ shift = (n % 128 + 128 * (n / 128)) * 2 ^ shift := by rw [Nat.mod_add_div]
          _ = n % 128 * 2 ^ shift + n / 128 * 2 ^ (shift + 7) := by rw [Nat.pow_add]; ring
      have hn' : n / 128 * 2 ^ (shift + 7) < 2 ^ 64 := by omega
      have htop' : shift + 7 = 63 → n / 128 ≤ 1 := by
        intro h63
        rw [h63] at hn'
        omega
      have hrest := ih (result + n % 128 * 2 ^ shift) hfuel' hlow hn' htop'
      rw [leb128Go, if_neg hz, List.cons_append]
      simp only [readLeb128Go, hb, hbits, if_neg hfits, if_neg hmore, hrest, hsplit, Nat.add_assoc]

/-- **LEB128 round trip**: a 64-bit number comes back, whatever follows it. -/
theorem readLeb128_leb128 {n : Nat} (h : n < 2 ^ 64) (rest : Bytes) :
    readLeb128 (leb128 n ++ rest) = some (n, rest) := by
  have hfuel : n < 128 ^ 10 := lt_trans h (by norm_num)
  rw [readLeb128, leb128, readLeb128Go_leb128Go 0 rest hfuel (by omega) (by omega)]
  simp

theorem leb128Go_ne_nil (fuel n : Nat) : leb128Go (fuel + 1) n ≠ [] := by
  simp only [leb128Go]
  split <;> simp

theorem leb128_ne_nil (n : Nat) : leb128 n ≠ [] := leb128Go_ne_nil 9 n

/-- What is read is a proper suffix of the input. -/
theorem length_lt_of_readLeb128Go {bs rest : Bytes} {shift result n : Nat}
    (h : readLeb128Go bs shift result = some (n, rest)) : rest.length < bs.length := by
  induction bs generalizing shift result with
  | nil => cases h
  | cons b bs ih =>
    simp only [readLeb128Go] at h
    split at h
    · cases h
    · split at h
      · cases h
        simp
      · have hlt := ih h
        simp only [List.length_cons]
        omega

theorem length_lt_of_readLeb128 {bs rest : Bytes} {n : Nat} (h : readLeb128 bs = some (n, rest)) :
    rest.length < bs.length := length_lt_of_readLeb128Go h

end ByteFormat
