import SuperShuckie.Lib.Fallible
import SuperShuckie.Lib.Numerals
import SuperShuckie.Memory.Watches

/-!
# Typed values

How bytes in memory are read as numbers or text, shown, and typed back in.  `formatValue` shows the
bytes of a format in a base, `parseValue` reads what was typed, and `decodeNumber` and `encodeNumber`
go between bytes and numbers.

The floating-point type is `F`, with the operations in `Floats`; a `CharTable` goes between text and
bytes.  `none` is a panic: an overflow, a slice past the end, or what the code calls unreachable.
-/

set_option autoImplicit false

namespace SuperShuckie

open ByteFormat Text Fallible Numeral

/-- How numbers are shown. -/
inductive DisplayBase where
  | decimal
  | hex
  | binary
deriving DecidableEq

/-- A decoded number. -/
inductive Number (F : Type) where
  | int (i : Int)
  | float (f : F)
deriving DecidableEq

/-- The operations on floating-point numbers that values go through. -/
structure Floats (F : Type) where
  /-- `i as f64` -/
  ofInt : Int → F
  /-- `f32::from_bits(raw) as f64` -/
  ofBits : Nat → F
  /-- `(f as f32).to_bits()` -/
  toBits : F → Nat
  /-- The text of `f as f32`. -/
  text : F → Text
  /-- `text.parse::<f64>()` -/
  parse : Text → Option F
  /-- `a - b` -/
  sub : F → F → F
  abs : F → F
  /-- `a <= b` -/
  le : F → F → Bool
  /-- `a < b` -/
  lt : F → F → Bool

/-- A table between characters and bytes. -/
structure CharTable where
  /-- The text of some bytes, with a character for those the table does not have. -/
  decode : Bytes → Char → Text
  encode : Text → Except String Bytes

variable {F : Type} (floats : Floats F) (table : CharTable)

/-- As a float, for mixed comparisons. -/
def Number.asF64 : Number F → F
  | .int i => floats.ofInt i
  | .float f => f

/-- Short lowercase name. -/
def ValueType.name : ValueType → String
  | .u8 => "u8"
  | .i8 => "i8"
  | .u16 => "u16"
  | .i16 => "i16"
  | .u32 => "u32"
  | .i32 => "i32"
  | .f32 => "f32"
  | .bcd => "bcd"
  | .bytes => "bytes"
  | .text => "text"

/-! ## Numbers -/

/-- Bytes in a format's order least significant first, and back. -/
def inOrder (format : ValueFormat) (bytes : Bytes) : Bytes :=
  if format.bigEndian then bytes.reverse else bytes

/-- The value's bits as an unsigned integer, bytes assembled per the byte order. -/
def rawBits (format : ValueFormat) (bytes : Bytes) : Nat :=
  ofLeBytes (inOrder format (bytes.take (min format.size 8)))

/-- The loop of `decode_bcd`, on 64 bits: `none` in it is an invalid digit. -/
def pushBcd : Bytes → Nat → Option (Option Nat)
  | [], value => some (some value)
  | b :: bytes, value =>
    let hi := b.toNat / 16
    let lo := b.toNat % 16
    if 9 < hi ∨ 9 < lo then some none
    else if value * 100 + (hi * 10 + lo) < 2 ^ 63 then pushBcd bytes (value * 100 + (hi * 10 + lo))
    else none

/-- Decode a numeric value: nothing for bytes and text, a short buffer, or invalid BCD. -/
def decodeNumber (format : ValueFormat) (bytes : Bytes) : Option (Option (Number F)) :=
  if bytes.length < format.size then some none
  else
    let raw := rawBits format bytes
    match format.ty with
    | .u8 | .u16 | .u32 => some (some (.int (wrapI64 raw)))
    | .i8 => some (some (.int (Int.bmod raw (2 ^ 8))))
    | .i16 => some (some (.int (Int.bmod raw (2 ^ 16))))
    | .i32 => some (some (.int (Int.bmod raw (2 ^ 32))))
    | .f32 => some (some (.float (floats.ofBits (raw % 2 ^ 32))))
    | .bcd =>
      let digits := (inOrder format (bytes.take format.size)).reverse
      (pushBcd digits 0).map (Option.map fun v ↦ .int (Int.ofNat v))
    | .bytes | .text => some none

/-- So many bytes of decimal digit pairs, least significant first. -/
def bcdBytes : Nat → Nat → Bytes
  | 0, _ => []
  | size + 1, v => UInt8.ofNat (v % 100 / 10 * 16 + v % 100 % 10) :: bcdBytes size (v / 100)

/-- The bytes of a number on 64 bits, cut to the format's size. -/
def encodeRaw (format : ValueFormat) (raw : Nat) : Option (Option Bytes) :=
  if 8 < format.size then none
  else some (some (inOrder format ((leBytes 8 raw).take format.size)))

/-- Encode a number: nothing if it does not fit, or the type is not numeric. -/
def encodeNumber (format : ValueFormat) (number : Number F) : Option (Option Bytes) :=
  match format.ty, number with
  | .f32, n => encodeRaw format (floats.toBits (n.asF64 floats))
  | .bcd, .int v =>
    if v < 0 then some none
    else if 2 ^ 63 ≤ 100 ^ format.size then none
    else if (100 ^ format.size : Nat) ≤ v then some none
    else some (some (inOrder format (bcdBytes format.size v.toNat)))
  | ty, .int v =>
    if ty.isInteger then
      let bits := format.size * 8
      -- Neither bound can be computed in 64 bits.
      if bits = 0 ∨ 64 ≤ bits then none
      else if v < -2 ^ (bits - 1) ∨ 2 ^ bits - 1 < v then some none
      else encodeRaw format (v % 2 ^ 64).toNat
    else some none
  | _, _ => some none

/-- The integer at the front of some bytes, in as many of them as it takes. -/
def fixedBits (format : ValueFormat) (count : Nat) (bytes : Bytes) : Option Nat :=
  if bytes.length < count then none
  else some (ofLeBytes (inOrder format (bytes.take count)))

/-- `Reader::number` of a reader of `len` bytes: the value at an offset. -/
def readerNumber (format : ValueFormat) (len : Nat) (bytes : Bytes) (offset : Nat) :
    Option (Option (Number F)) :=
  if bytes.length < offset + len then none
  else
    let b := (bytes.drop offset).take len
    match format.ty with
    | .u8 => (fixedBits format 1 b).map fun raw ↦ some (.int raw)
    | .i8 => (fixedBits format 1 b).map fun raw ↦ some (.int (Int.bmod raw (2 ^ 8)))
    | .u16 => (fixedBits format 2 b).map fun raw ↦ some (.int raw)
    | .i16 => (fixedBits format 2 b).map fun raw ↦ some (.int (Int.bmod raw (2 ^ 16)))
    | .u32 => (fixedBits format 4 b).map fun raw ↦ some (.int raw)
    | .i32 => (fixedBits format 4 b).map fun raw ↦ some (.int (Int.bmod raw (2 ^ 32)))
    | .f32 | .bcd | .bytes | .text => decodeNumber floats format b

/-! ## Showing values -/

/-- `12 34 AB` -/
def formatHexBytes : Bytes → Text
  | [] => []
  | [b] => Numeral.padded 16 2 b.toNat
  | b :: bytes => Numeral.padded 16 2 b.toNat ++ ' ' :: formatHexBytes bytes

/-- An integer's bits in a base. -/
def formatRaw (format : ValueFormat) (base : DisplayBase) (bytes : Bytes) : Option Text :=
  match base with
  | .decimal =>
    match decodeNumber floats format bytes with
    | some (some (.int v)) => some (Numeral.decimal v)
    | _ => none
  | .hex => some ('0' :: 'x' :: Numeral.padded 16 (format.size * 2) (rawBits format bytes))
  | .binary => some ('0' :: 'b' :: Numeral.padded 2 (format.size * 8) (rawBits format bytes))

/-- Show bytes as a value of a format. -/
def formatValue (format : ValueFormat) (base : DisplayBase) (bytes : Bytes) : Option Text :=
  if bytes.length < format.size then some ['?', '?']
  else
    let bytes := bytes.take format.size
    match format.ty with
    | .bytes => some (formatHexBytes bytes)
    | .text => some (table.decode bytes '·')
    | .f32 =>
      if base = .decimal then
        match decodeNumber floats format bytes with
        | some (some (.float f)) => some (floats.text f)
        | _ => none
      else formatRaw floats format base bytes
    | .bcd =>
      if base = .decimal then
        match decodeNumber floats format bytes with
        | none => none
        | some (some (.int v)) => some (Numeral.decimal v)
        | some _ => some ('?' :: (formatHexBytes bytes).filter (· ≠ ' '))
      else formatRaw floats format base bytes
    | _ => formatRaw floats format base bytes

/-! ## Typing values in -/

/-- Two digits for each byte. -/
def parseHexPairs : Text → Parsed Bytes
  | a :: b :: text => do
    let n ← okOr (Numeral.unsigned 8 16 [a, b])
      s!"\"{String.ofList [a, b]}\" is not a hexadecimal byte"
    let bytes ← parseHexPairs text
    pure (UInt8.ofNat n :: bytes)
  | _ => pure []

/-- Parse hexadecimal bytes: `12 34 AB`, `1234AB` or `0x12, 0x34`. -/
def parseHexBytes (text : Text) : Parsed Bytes :=
  let cleaned := (Text.split (fun c ↦ isWhitespace c || c == ',') text).flatMap Numeral.withoutMarker
  if cleaned = [] then throw "no bytes given"
  else if cleaned.any fun c ↦ 0x80 ≤ c.toNat then
    throw s!"hex bytes must be ASCII (got \"{String.ofList cleaned}\")"
  else if cleaned.length % 2 ≠ 0 then throw "hexadecimal bytes need two digits each"
  else parseHexPairs cleaned

/-- The digits of an integer in the radix of their marker. -/
def parseDigits (body : Text) : Option Nat :=
  match strip ['0', 'x'] body <|> strip ['0', 'X'] body <|> strip ['$'] body with
  | some hex => Numeral.unsigned 64 16 hex
  | none =>
    match strip ['0', 'b'] body <|> strip ['0', 'B'] body with
    | some bin => Numeral.unsigned 64 2 bin
    | none => Numeral.unsigned 64 10 body

/-- Parse an integer: decimal (`-12`), hexadecimal (`0x1F`, `$1F`) or binary (`0b101`). -/
def parseInteger (text : Text) : Parsed Int := do
  let text := (trim text).filter (· ≠ '_')
  let negative := (strip ['-'] text).isSome
  let body := ((strip ['-'] text).map trimStart).getD text
  let parsed ← okOr (parseDigits body) s!"\"{String.ofList text}\" is not a number"
  if parsed < 2 ^ 63 then pure (if negative then -(parsed : Int) else parsed)
  else throw s!"{String.ofList text} is too large"

/-- Parse a number for a format's type. -/
def parseNumber (format : ValueFormat) (text : Text) : Parsed (Number F) :=
  match format.ty with
  | .f32 =>
    okOr ((floats.parse (trim text)).map .float)
      s!"\"{String.ofList (trim text)}\" is not a number"
  | .bytes | .text => throw s!"{format.ty.name} values are not numbers"
  | _ => do
    let i ← parseInteger text
    pure (.int i)

/-- Parse text typed by the user into the bytes of a value. -/
def parseValue (format : ValueFormat) (text : Text) : Parsed Bytes :=
  match format.ty with
  | .bytes => do
    let bytes ← parseHexBytes text
    if bytes.length ≠ format.size then
      throw s!"expected {format.size} bytes, got {bytes.length}"
    else pure bytes
  | .text =>
    match table.encode text with
    | .error e => throw e
    | .ok bytes =>
      if format.size < bytes.length then
        throw s!"that text needs {bytes.length} bytes; the value holds {format.size}"
      else pure bytes
  | .bcd =>
    let t := trim text
    if t = [] ∨ ¬ t.all Char.isDigit then throw "BCD values are decimal digits"
    else if format.size * 2 < byteLength t then
      throw s!"{format.size} BCD bytes hold at most {format.size * 2} digits"
    else do
      let value ← okOr (Numeral.signed 64 10 t) s!"\"{String.ofList t}\" is not a number"
      let bytes ← slice (encodeNumber floats format (.int value))
      okOr bytes "value out of range"
  | _ => do
    let number ← parseNumber floats format text
    let bytes ← slice (encodeNumber floats format number)
    let bits := format.size * 8
    okOr bytes (s!"{String.ofList (trim text)} does not fit in {format.ty.name} " ++
      s!"({-(2 ^ (bits - 1) : Int)} to {(2 ^ bits - 1 : Int)})")

/-! ## Bytes and numbers -/

/-- The size is one its type has: fixed, 1 to 4 for BCD, 1 to 64 for bytes and text. -/
def ValueFormat.SizeFits (format : ValueFormat) : Prop :=
  match format.ty.fixedSize with
  | some size => format.size = size
  | none => 0 < format.size ∧ format.size ≤ if format.ty = .bcd then 4 else maxValueSize

/-- The numbers a format's type is for. -/
def ValueFormat.InRange (format : ValueFormat) (n : Int) : Prop :=
  if format.ty = .bcd then 0 ≤ n ∧ n < 100 ^ format.size
  else if format.ty.isSigned then
    -2 ^ (format.size * 8 - 1) ≤ n ∧ n < 2 ^ (format.size * 8 - 1)
  else 0 ≤ n ∧ n < 2 ^ (format.size * 8)

variable {format : ValueFormat} {bytes : Bytes} {size : Nat} {v : Int}

@[simp] theorem inOrder_inOrder (format : ValueFormat) (bytes : Bytes) :
    inOrder format (inOrder format bytes) = bytes := by
  unfold inOrder
  split_ifs <;> simp

@[simp] theorem length_inOrder (format : ValueFormat) (bytes : Bytes) :
    (inOrder format bytes).length = bytes.length := by
  unfold inOrder
  split_ifs <;> simp

theorem rawBits_eq (hlen : bytes.length = format.size) (hsize : format.size ≤ 8) :
    rawBits format bytes = ofLeBytes (inOrder format bytes) := by
  rw [rawBits, Nat.min_eq_left hsize, ← hlen, List.take_length]

theorem rawBits_lt (hlen : bytes.length = format.size) (hsize : format.size ≤ 8) :
    rawBits format bytes < 2 ^ (format.size * 8) := by
  have h := ofLeBytes_lt (inOrder format bytes)
  rw [length_inOrder, hlen] at h
  rwa [rawBits_eq hlen hsize, Nat.mul_comm, Nat.pow_mul]

theorem take_leBytes {k : Nat} (h : size ≤ k) (n : Nat) :
    (leBytes k n).take size = leBytes size n := by
  induction size generalizing k n with
  | zero => rfl
  | succ size ih =>
    cases k with
    | zero => omega
    | succ k => rw [leBytes, leBytes, List.take_succ_cons, ih (by omega)]

theorem leBytes_mod (k n : Nat) : leBytes k (n % 256 ^ k) = leBytes k n := by
  induction k generalizing n with
  | zero => rfl
  | succ k ih =>
    have hlow : n % 256 ^ (k + 1) % 256 = n % 256 :=
      Nat.mod_mod_of_dvd n (dvd_pow_self 256 (Nat.succ_ne_zero k))
    have hhigh : n % 256 ^ (k + 1) / 256 = n / 256 % 256 ^ k := by
      rw [Nat.pow_succ', Nat.mod_mul_right_div_self]
    rw [leBytes, leBytes, hhigh, ih, List.cons.injEq, ← UInt8.toNat_inj, UInt8.toNat_ofNat',
      UInt8.toNat_ofNat']
    exact ⟨hlow, rfl⟩

/-- A number is encoded in the low bytes of its bits. -/
theorem encodeRaw_eq (hsize : format.size ≤ 8) (hlen : bytes.length = format.size) {raw : Nat}
    (hraw : raw % 2 ^ (format.size * 8) = rawBits format bytes) :
    encodeRaw format raw = some (some bytes) := by
  have hpow : 2 ^ (format.size * 8) = 256 ^ format.size := by rw [Nat.mul_comm, Nat.pow_mul]
  rw [encodeRaw, if_neg (Nat.not_lt.mpr hsize), take_leBytes hsize, ← leBytes_mod, ← hpow, hraw,
    rawBits_eq hlen hsize, ← hlen, ← length_inOrder format bytes, leBytes_ofLeBytes,
    inOrder_inOrder]

/-! ## Integers -/

/-- The types of two's complement and unsigned integers. -/
def ValueType.IsBinary (ty : ValueType) : Prop := ty.isInteger = true ∧ ty ≠ .bcd

theorem ValueType.isInteger_cases {ty : ValueType} (h : ty.isInteger = true) :
    ty.IsBinary ∨ ty = .bcd := by
  by_cases hbcd : ty = .bcd
  · exact .inr hbcd
  · exact .inl ⟨h, hbcd⟩

theorem ValueFormat.SizeFits.cases (h : format.SizeFits) (hty : format.ty.IsBinary) :
    format.size = 1 ∨ format.size = 2 ∨ format.size = 4 := by
  unfold SizeFits at h
  obtain ⟨hint, hbcd⟩ := hty
  cases hcase : format.ty <;> simp_all [ValueType.fixedSize, ValueType.isInteger,
    ValueType.isNumeric]

/-- The number an integer type reads its bits as. -/
def integerOf (format : ValueFormat) (raw : Nat) : Int :=
  if format.ty.isSigned then Int.bmod raw (2 ^ (format.size * 8)) else raw

theorem decodeNumber_integer (h : format.SizeFits) (hty : format.ty.IsBinary)
    (hlen : bytes.length = format.size) :
    decodeNumber floats format bytes = some (some (.int (integerOf format (rawBits format bytes)))) := by
  have hsize := h.cases hty
  have hraw := rawBits_lt hlen (by omega)
  have hwrap (hle : format.size ≤ 4) : wrapI64 (rawBits format bytes) = rawBits format bytes := by
    have hpow : 2 ^ (format.size * 8) ≤ 2 ^ 32 := Nat.pow_le_pow_right (by decide) (by omega)
    exact Int.bmod_eq_of_le (by omega) (by omega)
  unfold decodeNumber integerOf
  rw [if_neg (by omega)]
  unfold ValueFormat.SizeFits at h
  obtain ⟨hint, hbcd⟩ := hty
  cases hcase : format.ty <;>
    simp_all [ValueType.fixedSize, ValueType.isInteger, ValueType.isNumeric, ValueType.isSigned]

theorem encodeNumber_integer (h : format.SizeFits) (hty : format.ty.IsBinary)
    (hlen : bytes.length = format.size) (hlo : -2 ^ (format.size * 8 - 1) ≤ v)
    (hhi : v < 2 ^ (format.size * 8)) (hv : v % 2 ^ (format.size * 8) = rawBits format bytes) :
    encodeNumber floats format (.int v) = some (some bytes) := by
  have hsize := h.cases hty
  have hencoded : encodeRaw format (v % 2 ^ 64).toNat = some (some bytes) := by
    refine encodeRaw_eq (by omega) hlen ?_
    have hdvd : (2 : Int) ^ (format.size * 8) ∣ 2 ^ 64 := pow_dvd_pow 2 (by omega)
    have hmod : v % 2 ^ 64 % 2 ^ (format.size * 8) = v % 2 ^ (format.size * 8) :=
      Int.emod_emod_of_dvd v hdvd
    have hnonneg : 0 ≤ v % 2 ^ 64 := Int.emod_nonneg v (by decide)
    rw [← Int.natCast_inj, Int.natCast_emod, Int.toNat_of_nonneg hnonneg, Int.natCast_pow]
    exact hmod.trans hv
  have hunfold : encodeNumber floats format (.int v) =
      if format.size * 8 = 0 ∨ 64 ≤ format.size * 8 then none
      else if v < -2 ^ (format.size * 8 - 1) ∨ 2 ^ (format.size * 8) - 1 < v then some none
      else encodeRaw format (v % 2 ^ 64).toNat := by
    unfold encodeNumber
    obtain ⟨hint, hbcd⟩ := hty
    cases hcase : format.ty <;> simp_all [ValueType.isInteger, ValueType.isNumeric]
  rw [hunfold, if_neg (by omega), if_neg (by omega), hencoded]

/-- An integer type's number has its bits. -/
theorem integerOf_emod (hlen : bytes.length = format.size) (hsize : format.size ≤ 8) :
    integerOf format (rawBits format bytes) % 2 ^ (format.size * 8) = rawBits format bytes := by
  have hraw := rawBits_lt hlen hsize
  have hmod : (rawBits format bytes : Int) % 2 ^ (format.size * 8) = rawBits format bytes :=
    Int.emod_eq_of_lt (Int.natCast_nonneg _) (by exact_mod_cast hraw)
  unfold integerOf
  split_ifs
  · have hpow : ((2 ^ (format.size * 8) : Nat) : Int) = 2 ^ (format.size * 8) := by
      exact_mod_cast rfl
    rw [← hpow, Int.bmod_emod, hpow, hmod]
  · exact hmod

theorem integerOf_inRange (hlen : bytes.length = format.size) (hsize : format.size ≤ 8)
    (hpos : 0 < format.size) :
    -2 ^ (format.size * 8 - 1) ≤ integerOf format (rawBits format bytes) ∧
      integerOf format (rawBits format bytes) < 2 ^ (format.size * 8) := by
  have hraw := rawBits_lt hlen hsize
  have hhalf : (2 : Int) ^ (format.size * 8) = 2 * 2 ^ (format.size * 8 - 1) := by
    rw [← pow_succ', Nat.sub_add_cancel (by omega)]
  have hpos' : (0 : Int) < 2 ^ (format.size * 8 - 1) := by positivity
  have hcast : ((rawBits format bytes : Nat) : Int) < 2 ^ (format.size * 8) := by exact_mod_cast hraw
  unfold integerOf
  split_ifs
  · have hlo := @Int.le_bmod (rawBits format bytes) (2 ^ (format.size * 8)) (by positivity)
    have hhi := @Int.bmod_lt (rawBits format bytes) (2 ^ (format.size * 8)) (by positivity)
    push_cast at hlo hhi
    constructor <;> omega
  · constructor <;> omega

/-! ## Numerals typed back in -/

/-- The characters numbers are shown with. -/
def numberChars : Text := '-' :: 'x' :: 'b' :: Numeral.hexDigits

theorem isWhitespace_numberChar : ∀ c ∈ numberChars, isWhitespace c = false :=
  List.all_iff_forall_prop.mp (by decide)

theorem cleaned_eq {text : Text} (h : ∀ c ∈ text, c ∈ numberChars) :
    (trim text).filter (· ≠ '_') = text := by
  have hscore : ∀ c ∈ numberChars, decide (c ≠ '_') = true :=
    List.all_iff_forall_prop.mp (by decide)
  rw [trim_eq_self fun c hc ↦ isWhitespace_numberChar c (h c hc), List.filter_eq_self]
  exact fun c hc ↦ hscore c (h c hc)

theorem mem_digits_numberChars {n : Nat} :
    ∀ c ∈ digits 10 n, c ∈ numberChars := fun c hc ↦ by
  have h : ∀ c ∈ decimalDigits, c ∈ numberChars := List.all_iff_forall_prop.mp (by decide)
  exact h c (mem_decimalDigits hc)

theorem parseDigits_decimal {n : Nat} (hn : n < 2 ^ 64) : parseDigits (digits 10 n) = some n := by
  have hnone (first : Text) {c : Char} (hc : c ∈ first) (h : c ∉ decimalDigits) :
      strip first (digits 10 n) = none :=
    strip_eq_none hc fun hmem ↦ h (mem_decimalDigits hmem)
  have hx := hnone ['0', 'x'] (c := 'x') (by decide) (by decide)
  have hX := hnone ['0', 'X'] (c := 'X') (by decide) (by decide)
  have hd := hnone ['$'] (c := '$') (by decide) (by decide)
  have hb := hnone ['0', 'b'] (c := 'b') (by decide) (by decide)
  have hB := hnone ['0', 'B'] (c := 'B') (by decide) (by decide)
  unfold parseDigits
  rw [hx, hX, hd, hb, hB, digits_eq_padded]
  exact unsigned_padded (by decide) (by decide) hn 0

/-- A number is read back in decimal, with its sign. -/
theorem gives_parseInteger_decimal (hlo : -2 ^ 63 < v) (hhi : v < 2 ^ 63) :
    Gives (parseInteger (decimal v)) v := by
  unfold parseInteger
  cases v with
  | ofNat n =>
    change (n : Int) < 2 ^ 63 at hhi
    have hn : n < 2 ^ 63 := by omega
    have hsign : strip ['-'] (digits 10 n) = none :=
      strip_eq_none (c := '-') (by decide) fun hc ↦ absurd (mem_decimalDigits hc) (by decide)
    simp only [decimal, cleaned_eq mem_digits_numberChars, hsign, Option.map_none,
      Option.getD_none, Option.isSome_none, parseDigits_decimal (Nat.lt_trans hn (by decide)),
      okOr_some, pure_bind, if_pos hn]
    simp
  | negSucc n =>
    have hn : n + 1 < 2 ^ 63 := by omega
    have hchars : ∀ c ∈ '-' :: digits 10 (n + 1), c ∈ numberChars :=
      List.forall_mem_cons.mpr ⟨by decide, mem_digits_numberChars⟩
    have hsign : strip ['-'] ('-' :: digits 10 (n + 1)) = some (digits 10 (n + 1)) := rfl
    have hstart : trimStart (digits 10 (n + 1)) = digits 10 (n + 1) :=
      trimStart_eq_self fun c hc ↦ isWhitespace_numberChar c (mem_digits_numberChars c hc)
    simp only [decimal, cleaned_eq hchars, hsign, Option.map_some, Option.getD_some,
      Option.isSome_some, hstart, parseDigits_decimal (Nat.lt_trans hn (by decide)), okOr_some,
      pure_bind, if_pos hn, if_true, gives_pure_iff]
    rfl

/-- What a marker's digits are read as, an integer without a sign is read as. -/
theorem gives_parseInteger_of_marker {marker : Char} {text : Text} {n : Nat}
    (hmarker : marker ∈ numberChars) (htext : ∀ c ∈ text, c ∈ numberChars)
    (hdigits : parseDigits ('0' :: marker :: text) = some n) (hn : n < 2 ^ 63) :
    Gives (parseInteger ('0' :: marker :: text)) n := by
  have hchars : ∀ c ∈ '0' :: marker :: text, c ∈ numberChars :=
    List.forall_mem_cons.mpr ⟨by decide, List.forall_mem_cons.mpr ⟨hmarker, htext⟩⟩
  have hsign : strip ['-'] ('0' :: marker :: text) = none := rfl
  unfold parseInteger
  simp only [cleaned_eq hchars, hsign, Option.map_none, Option.getD_none, Option.isSome_none,
    hdigits, okOr_some, pure_bind, if_pos hn]
  simp

theorem mem_padded_numberChars {radix width n : Nat} (hlo : 1 < radix) (hhi : radix ≤ 16) :
    ∀ c ∈ padded radix width n, c ∈ numberChars := fun c hc ↦ by
  have h : ∀ c ∈ hexDigits, c ∈ numberChars := List.all_iff_forall_prop.mp (by decide)
  exact h c (mem_hexDigits hlo hhi hc)

theorem gives_parseInteger_hex {n : Nat} (hn : n < 2 ^ 63) (width : Nat) :
    Gives (parseInteger ('0' :: 'x' :: padded 16 width n)) n := by
  refine gives_parseInteger_of_marker (by decide)
    (mem_padded_numberChars (by decide) (by decide)) ?_ hn
  exact unsigned_padded (by decide) (by decide) (Nat.lt_trans hn (by decide)) width

theorem gives_parseInteger_binary {n : Nat} (hn : n < 2 ^ 63) (width : Nat) :
    Gives (parseInteger ('0' :: 'b' :: padded 2 width n)) n := by
  refine gives_parseInteger_of_marker (by decide)
    (mem_padded_numberChars (by decide) (by decide)) ?_ hn
  exact unsigned_padded (by decide) (by decide) (Nat.lt_trans hn (by decide)) width

/-! ## Integers shown and typed back in -/

/-- **What an integer shows can be typed back in**, in every base. -/
theorem roundTrip_integer (h : format.SizeFits) (hty : format.ty.IsBinary) (base : DisplayBase)
    (hlen : bytes.length = format.size) :
    ∃ text, formatValue floats table format base bytes = some text ∧
      Gives (parseValue floats table format text) bytes := by
  have hsize := h.cases hty
  have hformat : formatValue floats table format base bytes =
      formatRaw floats format base bytes := by
    unfold formatValue
    rw [if_neg (by omega), ← hlen, List.take_length]
    obtain ⟨hint, hbcd⟩ := hty
    cases hcase : format.ty <;> simp_all [ValueType.isInteger, ValueType.isNumeric]
  have hparse {text : Text} {n : Int} (hn : Gives (parseInteger text) n)
      (hencode : encodeNumber floats format (.int n) = some (some bytes)) :
      Gives (parseValue floats table format text) bytes := by
    have hunfold : parseValue floats table format text = (do
        let number ← parseNumber floats format text
        let bytes ← slice (encodeNumber floats format number)
        let bits := format.size * 8
        okOr bytes (s!"{String.ofList (trim text)} does not fit in {format.ty.name} " ++
          s!"({-(2 ^ (bits - 1) : Int)} to {(2 ^ bits - 1 : Int)})")) := by
      unfold parseValue
      obtain ⟨hint, hbcd⟩ := hty
      cases hcase : format.ty <;> simp_all [ValueType.isInteger, ValueType.isNumeric]
    have hnumber : Gives (parseNumber floats format text) (.int n) := by
      have hparsed : Gives (parseInteger text >>= fun i ↦ pure (.int i) : Parsed (Number F))
          (.int n) := gives_bind.mpr ⟨n, hn, gives_pure⟩
      unfold parseNumber
      obtain ⟨hint, hbcd⟩ := hty
      cases hcase : format.ty <;> simp_all [ValueType.isInteger, ValueType.isNumeric]
    rw [hunfold]
    refine gives_bind.mpr ⟨_, hnumber, gives_bind.mpr ⟨some bytes, ?_, gives_pure⟩⟩
    exact gives_slice.mpr hencode
  have hraw := rawBits_lt hlen (by omega)
  have hpow : 2 ^ (format.size * 8) ≤ 2 ^ 32 := Nat.pow_le_pow_right (by decide) (by omega)
  have hbits : encodeNumber floats format (.int (rawBits format bytes)) = some (some bytes) := by
    have hneg : -(2 : Int) ^ (format.size * 8 - 1) ≤ 0 := by simp
    refine encodeNumber_integer floats h hty hlen (by omega) (by exact_mod_cast hraw) ?_
    exact Int.emod_eq_of_lt (Int.natCast_nonneg _) (by exact_mod_cast hraw)
  rw [hformat]
  unfold formatRaw
  cases base with
  | decimal =>
    obtain ⟨hlo, hhi⟩ := integerOf_inRange hlen (by omega) (by omega)
    have hhi' : (2 : Int) ^ (format.size * 8) ≤ 2 ^ 32 := by exact_mod_cast hpow
    have hlo' : (2 : Int) ^ (format.size * 8 - 1) ≤ 2 ^ 32 := by
      exact_mod_cast Nat.pow_le_pow_right (by decide) (by omega : format.size * 8 - 1 ≤ 32)
    simp only [decodeNumber_integer floats h hty hlen]
    refine ⟨_, rfl, hparse (gives_parseInteger_decimal (by omega) (by omega)) ?_⟩
    exact encodeNumber_integer floats h hty hlen hlo hhi (integerOf_emod hlen (by omega))
  | hex => exact ⟨_, rfl, hparse (gives_parseInteger_hex (by omega) _) hbits⟩
  | binary => exact ⟨_, rfl, hparse (gives_parseInteger_binary (by omega) _) hbits⟩

/-! ## Decimal digit pairs -/

/-- The value of a byte of two decimal digits. -/
def pairValue (b : UInt8) : Nat := b.toNat / 16 * 10 + b.toNat % 16

/-- Every byte is two decimal digits. -/
def ValidBcd (bytes : Bytes) : Prop := ∀ b ∈ bytes, b.toNat / 16 ≤ 9 ∧ b.toNat % 16 ≤ 9

/-- The number of decimal digit pairs, the least significant first. -/
def bcdValue : Bytes → Nat
  | [] => 0
  | b :: bytes => pairValue b + 100 * bcdValue bytes

theorem bcdValue_lt (h : ValidBcd bytes) : bcdValue bytes < 100 ^ bytes.length := by
  induction bytes with
  | nil => simp [bcdValue]
  | cons b bytes ih =>
    obtain ⟨⟨hhi, hlo⟩, hrest⟩ := List.forall_mem_cons.mp h
    have hlt := ih hrest
    rw [bcdValue, pairValue, List.length_cons, Nat.pow_succ]
    omega

/-- Encoding a number's digits gives the bytes it was decoded from. -/
theorem bcdBytes_bcdValue (h : ValidBcd bytes) : bcdBytes bytes.length (bcdValue bytes) = bytes := by
  induction bytes with
  | nil => rfl
  | cons b bytes ih =>
    obtain ⟨⟨hhi, hlo⟩, hrest⟩ := List.forall_mem_cons.mp h
    have hpair : pairValue b < 100 := by
      rw [pairValue]
      omega
    have hlow : (pairValue b + 100 * bcdValue bytes) % 100 = pairValue b := by omega
    have hhigh : (pairValue b + 100 * bcdValue bytes) / 100 = bcdValue bytes := by omega
    rw [List.length_cons, bcdValue, bcdBytes, hlow, hhigh, ih hrest, List.cons.injEq,
      ← UInt8.toNat_inj, UInt8.toNat_ofNat', pairValue]
    have hb := b.toNat_lt
    exact ⟨by omega, rfl⟩

theorem bcdBytes_valid (size v : Nat) : ValidBcd (bcdBytes size v) := by
  induction size generalizing v with
  | zero => simp [ValidBcd, bcdBytes]
  | succ size ih =>
    refine List.forall_mem_cons.mpr ⟨?_, ih (v / 100)⟩
    have hlt : v % 100 / 10 * 16 + v % 100 % 10 < 2 ^ 8 := by omega
    rw [UInt8.toNat_ofNat', Nat.mod_eq_of_lt hlt]
    omega

theorem bcdValue_bcdBytes (size : Nat) {v : Nat} (hv : v < 100 ^ size) :
    bcdValue (bcdBytes size v) = v := by
  induction size generalizing v with
  | zero =>
    rw [Nat.pow_zero] at hv
    rw [bcdBytes, bcdValue]
    omega
  | succ size ih =>
    rw [Nat.pow_succ] at hv
    rw [bcdBytes, bcdValue, ih (by omega), pairValue, UInt8.toNat_ofNat']
    omega

@[simp] theorem length_bcdBytes (size v : Nat) : (bcdBytes size v).length = size := by
  induction size generalizing v with
  | zero => rfl
  | succ size ih => rw [bcdBytes, List.length_cons, ih]

theorem inOrder_valid (format : ValueFormat) (h : ValidBcd bytes) :
    ValidBcd (inOrder format bytes) := by
  unfold inOrder
  split_ifs
  · exact fun b hb ↦ h b (List.mem_reverse.mp hb)
  · exact h

/-- What the loop has counted after the digits of some bytes. -/
theorem pushBcd_append (first second : Bytes) (value : Nat) : pushBcd (first ++ second) value =
      (pushBcd first value).bind fun
        | none => some none
        | some value => pushBcd second value := by
  induction first generalizing value with
  | nil => rfl
  | cons b first ih =>
    rw [List.cons_append, pushBcd, pushBcd]
    split_ifs
    · rfl
    · exact ih _
    · rfl

/-- **Valid digits are read as their number**: few enough of them do not overflow. -/
theorem pushBcd_reverse (h : ValidBcd bytes) (hlen : bytes.length ≤ 9) :
    pushBcd bytes.reverse 0 = some (some (bcdValue bytes)) := by
  induction bytes with
  | nil => rfl
  | cons b bytes ih =>
    obtain ⟨⟨hhi, hlo⟩, hrest⟩ := List.forall_mem_cons.mp h
    rw [List.length_cons] at hlen
    have hlt := bcdValue_lt hrest
    have hpow : 100 ^ bytes.length ≤ 100 ^ 8 := Nat.pow_le_pow_right (by decide) (by omega)
    rw [List.reverse_cons, pushBcd_append, ih hrest (by omega), Option.bind_some]
    simp only [pushBcd, bcdValue, pairValue]
    rw [if_neg (by omega), if_pos (by omega), Nat.mul_comm, Nat.add_comm]

/-- The two decoders read the same digits. -/
theorem pushBcd_eq (bytes : Bytes) {value k : Nat} (hvalue : value < 100 ^ k)
    (hk : bytes.length + k ≤ 9) : pushBcd bytes value = some (decodeBcd bytes value) := by
  induction bytes generalizing value k with
  | nil => rfl
  | cons b bytes ih =>
    rw [List.length_cons] at hk
    rw [pushBcd, decodeBcd]
    split_ifs with hdigit hlt
    · rfl
    · refine ih (k := k + 1) ?_ (by omega)
      rw [Nat.pow_succ]
      omega
    · have hpow : 100 ^ k ≤ 100 ^ 8 := Nat.pow_le_pow_right (by decide) (by omega)
      omega

theorem decodeNumber_bcd (hty : format.ty = .bcd) (hlen : bytes.length = format.size) :
    decodeNumber floats format bytes =
      (pushBcd (inOrder format bytes).reverse 0).map (Option.map fun v ↦ .int (Int.ofNat v)) := by
  unfold decodeNumber
  rw [if_neg (by omega), hty, ← hlen, List.take_length]

theorem encodeNumber_bcd (hty : format.ty = .bcd) (hsize : format.size ≤ 4)
    (hlen : bytes.length = format.size) (h : ValidBcd bytes) :
    encodeNumber floats format (.int (bcdValue (inOrder format bytes))) = some (some bytes) := by
  have hvalid := inOrder_valid format h
  have hlt := bcdValue_lt hvalid
  have hpow : 100 ^ format.size ≤ 100 ^ 4 := Nat.pow_le_pow_right (by decide) hsize
  have hbytes := bcdBytes_bcdValue hvalid
  rw [length_inOrder, hlen] at hlt hbytes
  unfold encodeNumber
  simp only [hty]
  rw [if_neg (by omega), if_neg (by omega), if_neg (by omega), Int.toNat_natCast, hbytes,
    inOrder_inOrder]

/-- Digit pairs shown in decimal are typed back in. -/
theorem shown_bcd (hty : format.ty = .bcd) (hsize : 0 < format.size ∧ format.size ≤ 4)
    (hlen : bytes.length = format.size) (hvalid : ValidBcd bytes) :
    ∃ text, formatValue floats table format .decimal bytes = some text ∧
      Gives (parseValue floats table format text) bytes := by
  have hordered := inOrder_valid format hvalid
  have hlt := bcdValue_lt hordered
  rw [length_inOrder, hlen] at hlt
  have hpow : 100 ^ format.size ≤ 100 ^ 4 := Nat.pow_le_pow_right (by decide) hsize.2
  refine ⟨Numeral.digits 10 (bcdValue (inOrder format bytes)), ?_, ?_⟩
  · have hread := pushBcd_reverse hordered (by rw [length_inOrder]; omega)
    unfold formatValue
    rw [if_neg (by omega), ← hlen, List.take_length]
    simp only [hty, decodeNumber_bcd floats hty hlen, hread, if_true, Option.map_some]
    rfl
  · have hdigit : ∀ c ∈ decimalDigits, c.isDigit = true ∧ c.utf8Size = 1 :=
      List.all_iff_forall_prop.mp (by decide)
    have hall : (digits 10 (bcdValue (inOrder format bytes))).all Char.isDigit = true :=
      List.all_eq_true.mpr fun c hc ↦ (hdigit c (mem_decimalDigits hc)).1
    have hlength : byteLength (digits 10 (bcdValue (inOrder format bytes))) ≤
        format.size * 2 := by
      have hten : 10 ^ (format.size * 2) = 100 ^ format.size := by rw [Nat.mul_comm, Nat.pow_mul]
      rw [byteLength_eq_length fun c hc ↦ (hdigit c (mem_decimalDigits hc)).2,
        length_digits_le (by decide) (by omega), hten]
      exact hlt
    have hnumber : signed 64 10 (digits 10 (bcdValue (inOrder format bytes))) =
        some (bcdValue (inOrder format bytes) : Int) := by
      rw [digits_eq_padded]
      exact signed_padded (by decide) (by decide) (by omega) 0
    unfold parseValue
    simp only [hty]
    rw [trim_eq_self fun c hc ↦ isWhitespace_numberChar c (mem_digits_numberChars c hc), if_neg, if_neg]
    · rw [hnumber, okOr_some, pure_bind, encodeNumber_bcd floats hty hsize.2 hlen hvalid,
        slice_some, pure_bind, okOr_some, gives_pure_iff]
    · exact Nat.not_lt.mpr hlength
    · rw [not_or, not_not]
      exact ⟨Numeral.digits_ne_nil _ _, hall⟩

/-- **Digit pairs can be typed back in exactly as they are shown in decimal**: the parser has no
branch for the other bases. -/
theorem roundTrip_bcd (h : format.SizeFits) (hty : format.ty = .bcd) (base : DisplayBase)
    (hlen : bytes.length = format.size) (hvalid : ValidBcd bytes) :
    (∃ text, formatValue floats table format base bytes = some text ∧
      Gives (parseValue floats table format text) bytes) ↔ base = .decimal := by
  have hsize : 0 < format.size ∧ format.size ≤ 4 := by
    simpa [ValueFormat.SizeFits, hty, ValueType.fixedSize] using h
  have hmarked {marker : Char} {text : Text} (hdigit : marker.isDigit = false)
      (hchars : ∀ c ∈ '0' :: marker :: text, c ∈ numberChars) :
      ¬ Gives (parseValue floats table format ('0' :: marker :: text)) bytes := by
    unfold parseValue
    simp only [hty]
    rw [trim_eq_self fun c hc ↦ isWhitespace_numberChar c (hchars c hc), if_pos]
    · exact not_gives_throw
    · simp [hdigit]
  have hshown (hbase : base ≠ .decimal) : formatValue floats table format base bytes =
      formatRaw floats format base bytes := by
    unfold formatValue
    rw [if_neg (by omega), ← hlen, List.take_length]
    simp only [hty, if_neg hbase]
  cases base with
  | decimal => exact iff_of_true (shown_bcd floats table hty hsize hlen hvalid) rfl
  | hex =>
    refine iff_of_false ?_ (by decide)
    rintro ⟨text, hformat, hgives⟩
    rw [hshown (by decide), formatRaw] at hformat
    obtain rfl := Option.some.inj hformat
    refine hmarked (by decide) ?_ hgives
    exact List.forall_mem_cons.mpr ⟨by decide, List.forall_mem_cons.mpr ⟨by decide,
      mem_padded_numberChars (by decide) (by decide)⟩⟩
  | binary =>
    refine iff_of_false ?_ (by decide)
    rintro ⟨text, hformat, hgives⟩
    rw [hshown (by decide), formatRaw] at hformat
    obtain rfl := Option.some.inj hformat
    refine hmarked (by decide) ?_ hgives
    exact List.forall_mem_cons.mpr ⟨by decide, List.forall_mem_cons.mpr ⟨by decide,
      mem_padded_numberChars (by decide) (by decide)⟩⟩

/-! ## Bytes -/

/-- A byte's two digits are read back. -/
theorem unsigned_hexByte (b : UInt8) :
    ∃ x y, padded 16 2 b.toNat = [x, y] ∧ unsigned 8 16 [x, y] = some b.toNat := by
  have hlen := @Numeral.length_padded 16 2 b.toNat (by decide) (by decide) b.toNat_lt
  obtain ⟨x, y, hxy⟩ := List.length_eq_two.mp hlen
  refine ⟨x, y, hxy, ?_⟩
  rw [← hxy]
  exact unsigned_padded (by decide) (by decide) b.toNat_lt 2

theorem gives_parseHexPairs (bytes : Bytes) :
    Gives (parseHexPairs (bytes.flatMap fun b ↦ padded 16 2 b.toNat)) bytes := by
  induction bytes with
  | nil => exact gives_pure
  | cons b bytes ih =>
    obtain ⟨x, y, hxy, hread⟩ := unsigned_hexByte b
    rw [List.flatMap_cons, hxy, List.cons_append, List.cons_append, List.nil_append, parseHexPairs,
      hread, okOr_some, pure_bind]
    refine gives_bind.mpr ⟨bytes, ih, ?_⟩
    rw [gives_pure_iff, UInt8.ofNat_toNat]

/-- The pieces between the blanks of shown bytes. -/
theorem split_formatHexBytes (b : UInt8) (bytes : Bytes) :
    Text.split (fun c ↦ isWhitespace c || c == ',') (formatHexBytes (b :: bytes)) =
      (b :: bytes).map fun b ↦ padded 16 2 b.toNat := by
  have hplain (b : UInt8) : ∀ c ∈ padded 16 2 b.toNat,
      (isWhitespace c || c == ',') = false := fun c hc ↦ by
    have h : ∀ c ∈ hexDigits, (isWhitespace c || c == ',') = false :=
      List.all_iff_forall_prop.mp (by decide)
    exact h c (mem_hexDigits (by decide) (by decide) hc)
  induction bytes generalizing b with
  | nil => exact split_of_forall (hplain b)
  | cons next bytes ih =>
    have hcons : formatHexBytes (b :: next :: bytes) =
      padded 16 2 b.toNat ++ ' ' :: formatHexBytes (next :: bytes) := rfl
    rw [hcons, split_append (hplain b) rfl, ih]
    rfl

/-- **Shown bytes are read back.** -/
theorem gives_parseHexBytes (b : UInt8) (bytes : Bytes) :
    Gives (parseHexBytes (formatHexBytes (b :: bytes))) (b :: bytes) := by
  have hmem {c : Char} (hc : c ∈ (b :: bytes).flatMap fun b ↦ padded 16 2 b.toNat) :
      c ∈ hexDigits := by
    obtain ⟨b, -, hc⟩ := List.mem_flatMap.mp hc
    exact mem_hexDigits (by decide) (by decide) hc
  have hcleaned : ((b :: bytes).map fun b ↦ padded 16 2 b.toNat).flatMap
      withoutMarker = (b :: bytes).flatMap fun b ↦ padded 16 2 b.toNat := by
    have hpiece (b : UInt8) :
        withoutMarker (padded 16 2 b.toNat) = padded 16 2 b.toNat := by
      have hnone {first : Text} {c : Char} (hc : c ∈ first) (h : c ∉ hexDigits) :
          strip first (padded 16 2 b.toNat) = none :=
        strip_eq_none hc fun hmem ↦ h (mem_hexDigits (by decide) (by decide) hmem)
      have hx := @hnone ['0', 'x'] 'x' (by decide) (by decide)
      have hX := @hnone ['0', 'X'] 'X' (by decide) (by decide)
      rw [withoutMarker, hx, hX]
      rfl
    simp only [List.flatMap_map, hpiece]
  have heven : ((b :: bytes).flatMap fun b ↦ padded 16 2 b.toNat).length % 2 = 0 := by
    generalize b :: bytes = all
    induction all with
    | nil => rfl
    | cons b all ih =>
      obtain ⟨x, y, hxy, -⟩ := unsigned_hexByte b
      rw [List.flatMap_cons, hxy, List.length_append, List.length_cons, List.length_singleton]
      omega
  unfold parseHexBytes
  simp only [split_formatHexBytes, hcleaned]
  rw [if_neg, if_neg, if_neg (not_not.mpr heven)]
  · exact gives_parseHexPairs _
  · rw [Bool.not_eq_true, List.any_eq_false]
    have h : ∀ c ∈ hexDigits, ¬ decide (0x80 ≤ c.toNat) = true :=
      List.all_iff_forall_prop.mp (by decide)
    exact fun c hc ↦ h c (hmem hc)
  · obtain ⟨x, y, hxy, -⟩ := unsigned_hexByte b
    simp [hxy]

theorem roundTrip_bytes (h : format.SizeFits) (hty : format.ty = .bytes) (base : DisplayBase)
    (hlen : bytes.length = format.size) :
    ∃ text, formatValue floats table format base bytes = some text ∧
      Gives (parseValue floats table format text) bytes := by
  have hsize : 0 < format.size := by
    simp only [ValueFormat.SizeFits, hty, ValueType.fixedSize] at h
    exact h.1
  refine ⟨formatHexBytes bytes, ?_, ?_⟩
  · unfold formatValue
    rw [if_neg (by omega), ← hlen, List.take_length]
    simp only [hty]
  · cases bytes with
    | nil =>
      rw [List.length_nil] at hlen
      omega
    | cons b bytes =>
      unfold parseValue
      simp only [hty]
      refine gives_bind.mpr ⟨_, gives_parseHexBytes b bytes, ?_⟩
      rw [if_neg (not_not.mpr hlen)]
      exact gives_pure

/-! ## Numbers encoded and decoded -/

/-- **A number of the type's range is encoded and decoded as itself.** -/
theorem encode_decode (h : format.SizeFits) (hty : format.ty.isInteger = true) {n : Int}
    (hn : format.InRange n) :
    ∃ bytes, encodeNumber floats format (.int n) = some (some bytes) ∧
      decodeNumber floats format bytes = some (some (.int n)) := by
  obtain hbinary | hbcd := ValueType.isInteger_cases hty
  · have hsize := h.cases hbinary
    have hnonneg : 0 ≤ n % 2 ^ (format.size * 8) := Int.emod_nonneg n (by positivity)
    have hlt : n % 2 ^ (format.size * 8) < 2 ^ (format.size * 8) :=
      Int.emod_lt_of_pos n (by positivity)
    obtain ⟨raw, hraw⟩ := Int.eq_ofNat_of_zero_le hnonneg
    have hrange : raw < 256 ^ format.size := by
      rw [hraw] at hlt
      have hpow : 2 ^ (format.size * 8) = 256 ^ format.size := by rw [Nat.mul_comm, Nat.pow_mul]
      rw [← hpow]
      exact_mod_cast hlt
    have hlen : (inOrder format (leBytes format.size raw)).length = format.size := by simp
    have hbits : rawBits format (inOrder format (leBytes format.size raw)) = raw := by
      rw [rawBits_eq hlen (by omega), inOrder_inOrder, ofLeBytes_leBytes hrange]
    have hhalf : (2 : Int) ^ (format.size * 8) = 2 * 2 ^ (format.size * 8 - 1) := by
      rw [← pow_succ', Nat.sub_add_cancel (by omega)]
    have hpos : (0 : Int) < 2 ^ (format.size * 8 - 1) := by positivity
    rw [ValueFormat.InRange, if_neg hbinary.2] at hn
    refine ⟨inOrder format (leBytes format.size raw), ?_, ?_⟩
    · refine encodeNumber_integer floats h hbinary hlen ?_ ?_ (by rw [hraw, hbits])
      all_goals split_ifs at hn <;> omega
    · rw [decodeNumber_integer floats h hbinary hlen, hbits, integerOf]
      split_ifs at hn ⊢
      · have hcast : ((2 ^ (format.size * 8) : Nat) : Int) = 2 ^ (format.size * 8) := by
          exact_mod_cast rfl
        have hmod : Int.bmod raw (2 ^ (format.size * 8)) = n := by
          rw [← hraw, ← hcast, Int.emod_bmod]
          exact Int.bmod_eq_of_le (by omega) (by omega)
        rw [hmod]
      · rw [← hraw, Int.emod_eq_of_lt hn.1 hn.2]
  · have hsize : 0 < format.size ∧ format.size ≤ 4 := by
      simpa [ValueFormat.SizeFits, hbcd, ValueType.fixedSize] using h
    rw [ValueFormat.InRange, if_pos hbcd] at hn
    obtain ⟨v, rfl⟩ := Int.eq_ofNat_of_zero_le hn.1
    have hv : v < 100 ^ format.size := by exact_mod_cast hn.2
    have hlen : (inOrder format (bcdBytes format.size v)).length = format.size := by simp
    have hvalid := inOrder_valid format (bcdBytes_valid format.size v)
    have hvalue : bcdValue (inOrder format (inOrder format (bcdBytes format.size v))) = v := by
      rw [inOrder_inOrder, bcdValue_bcdBytes format.size hv]
    refine ⟨inOrder format (bcdBytes format.size v), ?_, ?_⟩
    · have hencode := encodeNumber_bcd floats hbcd hsize.2 hlen hvalid
      rwa [hvalue] at hencode
    · rw [decodeNumber_bcd floats hbcd hlen, pushBcd_reverse (inOrder_valid format hvalid), hvalue]
      · rfl
      · simp
        omega

/-! ## The three decoders -/

/-- The search's reader agrees with the general decoder. -/
theorem readerNumber_eq (h : format.SizeFits) (hty : format.ty.isInteger = true)
    (hlen : bytes.length = format.size) :
    readerNumber floats format format.size bytes 0 = decodeNumber floats format bytes := by
  unfold readerNumber
  rw [if_neg (by omega), List.drop_zero, ← hlen, List.take_length]
  obtain hbinary | hbcd := ValueType.isInteger_cases hty
  · have hsize := h.cases hbinary
    have hfixed : fixedBits format format.size bytes = some (rawBits format bytes) := by
      rw [fixedBits, if_neg (by omega), ← hlen, List.take_length, rawBits_eq hlen (by omega)]
    rw [decodeNumber_integer floats h hbinary hlen]
    obtain ⟨-, hbcd⟩ := hbinary
    unfold integerOf
    unfold ValueFormat.SizeFits at h
    cases hcase : format.ty <;>
      simp_all [ValueType.fixedSize, ValueType.isInteger, ValueType.isNumeric, ValueType.isSigned]
  · simp only [hbcd]

/-- The core's decoder agrees with the tools'. -/
theorem decode_eq (h : format.SizeFits) (hty : format.ty.isInteger = true)
    (hlen : bytes.length = format.size) : decodeNumber floats format bytes =
      some ((ValueDecode.decode ⟨format.bigEndian, format.ty.isSigned, format.ty = .bcd⟩
        bytes).map .int) := by
  unfold ValueDecode.decode
  obtain hbinary | hbcd := ValueType.isInteger_cases hty
  · have hsize := h.cases hbinary
    have htake : bytes.take 8 = bytes := List.take_of_length_le (by omega)
    have hraw := rawBits_lt hlen (by omega)
    have hwrap : wrapI64 (rawBits format bytes) = rawBits format bytes := by
      have hpow : 2 ^ (format.size * 8) ≤ 2 ^ 32 := Nat.pow_le_pow_right (by decide) (by omega)
      exact Int.bmod_eq_of_le (by omega) (by omega)
    have hbits : ofLeBytes (if format.bigEndian then bytes.reverse else bytes) =
        rawBits format bytes := (rawBits_eq hlen (by omega)).symm
    have hbcd : decide (format.ty = .bcd) = false := by simpa using hbinary.2
    rw [decodeNumber_integer floats h hbinary hlen, integerOf]
    simp only [htake, hbcd, hbits, hwrap, hlen]
    have hne : ¬ format.size = 0 := by omega
    rw [if_neg hne, if_neg Bool.false_ne_true]
    split_ifs with hsigned hshort hshort
    · rw [Nat.mul_comm 8]
      rfl
    · exact absurd ⟨hsigned, by omega⟩ hshort
    · exact absurd hshort.1 hsigned
    · rfl
  · have hsize : 0 < format.size ∧ format.size ≤ 4 := by
      simpa [ValueFormat.SizeFits, hbcd, ValueType.fixedSize] using h
    have htake : bytes.take 8 = bytes := List.take_of_length_le (by omega)
    have horder : (inOrder format bytes).reverse =
        if format.bigEndian then bytes else bytes.reverse := by
      unfold inOrder
      split_ifs
      · exact List.reverse_reverse bytes
      · rfl
    have hlength : (inOrder format bytes).reverse.length + 0 ≤ 9 := by
      rw [List.length_reverse, length_inOrder]
      omega
    rw [decodeNumber_bcd floats hbcd hlen, pushBcd_eq _ (by decide : 0 < 100 ^ 0) hlength, horder]
    have hne : ¬ bytes.length = 0 := by omega
    simp only [htake, hbcd, if_neg hne, decide_true, if_true]
    cases decodeBcd (if format.bigEndian then bytes else bytes.reverse) 0 <;> rfl

/-- **What a value shows can be typed back in, but for digit pairs in hexadecimal or binary.**  A
number of the type's range is encoded and decoded as itself, and the search's reader and the core's
decoder give the number `decodeNumber` gives. -/
theorem roundTrip_iff (format : ValueFormat) (h : format.SizeFits)
    (hty : format.ty.isInteger = true ∨ format.ty = .bytes) :
    (∀ base bytes, bytes.length = format.size → (format.ty = .bcd → ValidBcd bytes) →
      ((∃ text, formatValue floats table format base bytes = some text ∧
        Gives (parseValue floats table format text) bytes) ↔
        (format.ty = .bcd → base = .decimal))) ∧
    (format.ty ≠ .bytes → ∀ n, format.InRange n → ∃ bytes,
      encodeNumber floats format (.int n) = some (some bytes) ∧
        decodeNumber floats format bytes = some (some (.int n))) ∧
    (format.ty ≠ .bytes → ∀ bytes, bytes.length = format.size → ∃ value : Option Int,
      decodeNumber floats format bytes = some (value.map .int) ∧
        readerNumber floats format format.size bytes 0 = some (value.map .int) ∧
        ValueDecode.decode ⟨format.bigEndian, format.ty.isSigned, format.ty = .bcd⟩ bytes =
          value) := by
  refine ⟨fun base bytes hlen hvalid ↦ ?_, fun hbytes n hn ↦ ?_, fun hbytes bytes hlen ↦ ?_⟩
  · by_cases hbcd : format.ty = .bcd
    · rw [roundTrip_bcd floats table h hbcd base hlen (hvalid hbcd)]
      exact ⟨fun hbase _ ↦ hbase, fun himp ↦ himp hbcd⟩
    · refine iff_of_true ?_ fun hbcd' ↦ absurd hbcd' hbcd
      obtain hint | hbytes := hty
      · exact roundTrip_integer floats table h ⟨hint, hbcd⟩ base hlen
      · exact roundTrip_bytes floats table h hbytes base hlen
  · exact encode_decode floats h (hty.resolve_right hbytes) hn
  · have hint := hty.resolve_right hbytes
    refine ⟨_, decode_eq floats h hint hlen, ?_, rfl⟩
    rw [readerNumber_eq floats h hint hlen]
    exact decode_eq floats h hint hlen

/-- Values without floating-point numbers. -/
def noFloats : Floats Unit where
  ofInt _ := ()
  ofBits _ := ()
  toBits _ := 0
  text _ := []
  parse _ := none
  sub _ _ := ()
  abs _ := ()
  le _ _ := false
  lt _ _ := false

/-- A table without characters. -/
def noTable : CharTable := ⟨fun bytes unknown ↦ bytes.map fun _ ↦ unknown, fun _ ↦ .ok []⟩

/-- A signed 16-bit value shown in decimal is typed back in. -/
theorem roundTrip_i16 :
    ∃ text, formatValue noFloats noTable ⟨.i16, 2, true⟩ .decimal [0xFF, 0x9C] = some text ∧
      Gives (parseValue noFloats noTable ⟨.i16, 2, true⟩ text) [0xFF, 0x9C] :=
  ((roundTrip_iff noFloats noTable ⟨.i16, 2, true⟩ rfl (.inl rfl)).1 .decimal [0xFF, 0x9C] rfl
    (nomatch ·)).mpr (nomatch ·)

/-- The digits 12, shown in hexadecimal, are refused. -/
theorem bcd_hex_refused :
    formatValue noFloats noTable ⟨.bcd, 1, false⟩ .hex [0x12] = some "0x12".toList ∧
      ¬ Gives (parseValue noFloats noTable ⟨.bcd, 1, false⟩ "0x12".toList) [0x12] := by
  refine ⟨by decide +kernel, ?_⟩
  unfold Gives
  decide +kernel

end SuperShuckie
