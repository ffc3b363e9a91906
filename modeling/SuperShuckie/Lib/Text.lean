import Mathlib

/-!
# Text sliced by bytes

A text is the list of its characters; positions in it count the bytes of its UTF-8 form.  Cutting a
text at a position inside a character, or past the end, is a panic: `takeBytes` and `dropBytes` are
`none` there.  `find` gives the position of a character.

`find_eq` reads a position found as the characters before it, and `takeBytes_append` and
`dropBytes_append` cut there, so that a parser that slices at the positions it found is a parser on
lists.
-/

set_option autoImplicit false

/-- A text, character by character. -/
abbrev Text := List Char

namespace Text

/-! ## Positions -/

/-- The bytes of the text. -/
def byteLength (text : Text) : Nat := (text.map Char.utf8Size).sum

/-- `&text[..n]`. -/
def takeBytes : Text → Nat → Option Text
  | [], n => if n = 0 then some [] else none
  | c :: text, n =>
    if n = 0 then some []
    else if c.utf8Size ≤ n then (takeBytes text (n - c.utf8Size)).map (c :: ·)
    else none

/-- `&text[n..]`. -/
def dropBytes : Text → Nat → Option Text
  | [], n => if n = 0 then some [] else none
  | c :: text, n =>
    if n = 0 then some (c :: text)
    else if c.utf8Size ≤ n then dropBytes text (n - c.utf8Size)
    else none

/-- The position of the first character with a property. -/
def find (P : Char → Bool) : Text → Option Nat
  | [] => none
  | c :: text => if P c then some 0 else (find P text).map (c.utf8Size + ·)

/-- The first byte. -/
def firstByte (text : Text) : Option UInt8 := (text.flatMap String.utf8EncodeChar).head?

/-- What is left of the text after `first`, if it starts with that. -/
def strip : Text → Text → Option Text
  | [], text => some text
  | _ :: _, [] => none
  | c :: first, d :: text => if c = d then strip first text else none

/-- The character's `White_Space` property. -/
def isWhitespace (c : Char) : Bool :=
  (9 ≤ c.toNat && c.toNat ≤ 13) || c.toNat == 0x20 || c.toNat == 0x85 || c.toNat == 0xA0 ||
    c.toNat == 0x1680 || (0x2000 ≤ c.toNat && c.toNat ≤ 0x200A) || c.toNat == 0x2028 ||
    c.toNat == 0x2029 || c.toNat == 0x202F || c.toNat == 0x205F || c.toNat == 0x3000

/-- The text without its leading whitespace. -/
def trimStart (text : Text) : Text := text.dropWhile isWhitespace

/-- The text without the whitespace at its ends. -/
def trim (text : Text) : Text := text.trimStart.rdropWhile isWhitespace

/-- The pieces between the characters with a property. -/
def split (P : Char → Bool) : Text → List Text
  | [] => [[]]
  | c :: text =>
    if P c then [] :: split P text
    else match split P text with
      | [] => [[c]]
      | piece :: pieces => (c :: piece) :: pieces

variable {text before after : Text} {P : Char → Bool} {c : Char}

@[simp] theorem byteLength_nil : byteLength [] = 0 := rfl

@[simp] theorem byteLength_cons (c : Char) (text : Text) :
    byteLength (c :: text) = c.utf8Size + byteLength text :=
  List.sum_cons

theorem byteLength_append (before after : Text) :
    byteLength (before ++ after) = byteLength before + byteLength after := by
  rw [byteLength, List.map_append, List.sum_append]
  rfl

theorem byteLength_eq_length (h : ∀ c ∈ text, c.utf8Size = 1) : byteLength text = text.length := by
  induction text with
  | nil => rfl
  | cons c text ih =>
    rw [List.forall_mem_cons] at h
    rw [byteLength_cons, List.length_cons, h.1, ih h.2, Nat.add_comm]

theorem utf8Size_pos (c : Char) : 0 < c.utf8Size := Char.utf8Size_pos c

@[simp] theorem takeBytes_append (before after : Text) :
    takeBytes (before ++ after) (byteLength before) = some before := by
  induction before with
  | nil => cases after <;> rfl
  | cons c before ih =>
    have hpos : ¬ byteLength (c :: before) = 0 := by
      rw [byteLength_cons]
      exact Nat.ne_of_gt (Nat.add_pos_left (utf8Size_pos c) _)
    rw [List.cons_append, takeBytes, if_neg hpos, byteLength_cons, if_pos (Nat.le_add_right _ _),
      Nat.add_sub_cancel_left, ih, Option.map_some]

@[simp] theorem dropBytes_append (before after : Text) :
    dropBytes (before ++ after) (byteLength before) = some after := by
  induction before with
  | nil => cases after <;> rfl
  | cons c before ih =>
    have hpos : ¬ byteLength (c :: before) = 0 := by
      rw [byteLength_cons]
      exact Nat.ne_of_gt (Nat.add_pos_left (utf8Size_pos c) _)
    rw [List.cons_append, dropBytes, if_neg hpos, byteLength_cons, if_pos (Nat.le_add_right _ _),
      Nat.add_sub_cancel_left, ih]

/-- **A position found is behind the characters before it.** -/
theorem find_eq (P : Char → Bool) (text : Text) : find P text =
      if text.any P then some (byteLength (text.takeWhile fun c ↦ !P c)) else none := by
  induction text with
  | nil => rfl
  | cons c text ih =>
    rw [find, List.any_cons, List.takeWhile_cons]
    cases P c with
    | true => rfl
    | false =>
      rw [ih]
      cases text.any P <;> simp

/-- A character is found exactly if something is left from there on. -/
theorem any_eq (P : Char → Bool) (text : Text) :
    text.any P = !(text.dropWhile fun c ↦ !P c).isEmpty := by
  induction text with
  | nil => rfl
  | cons c text ih =>
    rw [List.any_cons, List.dropWhile_cons, ih]
    cases P c <;> rfl

/-- What a search that falls back to the end finds. -/
theorem find_getD (P : Char → Bool) (text : Text) :
    (find P text).getD (byteLength text) = byteLength (text.takeWhile fun c ↦ !P c) := by
  rw [find_eq]
  cases h : text.any P with
  | true => rfl
  | false =>
    have hall : ∀ c ∈ text, (!P c) = true := by simpa using h
    rw [List.takeWhile_eq_self_iff.mpr hall]
    rfl

theorem takeBytes_takeWhile (P : Char → Bool) (text : Text) :
    takeBytes text (byteLength (text.takeWhile P)) = some (text.takeWhile P) := by
  have h := takeBytes_append (text.takeWhile P) (text.dropWhile P)
  rwa [List.takeWhile_append_dropWhile] at h

theorem dropBytes_takeWhile (P : Char → Bool) (text : Text) :
    dropBytes text (byteLength (text.takeWhile P)) = some (text.dropWhile P) := by
  have h := dropBytes_append (text.takeWhile P) (text.dropWhile P)
  rwa [List.takeWhile_append_dropWhile] at h

/-- Behind the character found, if that is a single byte. -/
theorem dropBytes_succ (hP : ∀ c, P c = true → c.utf8Size = 1) (hany : text.any P = true) :
    dropBytes text (byteLength (text.takeWhile fun c ↦ !P c) + 1) =
      some (text.dropWhile fun c ↦ !P c).tail := by
  cases hdrop : text.dropWhile fun c ↦ !P c with
  | nil =>
    rw [List.dropWhile_eq_nil_iff] at hdrop
    obtain ⟨c, hc, hPc⟩ := List.any_eq_true.mp hany
    simpa [hPc] using hdrop c hc
  | cons c after =>
    have hne : text.dropWhile (fun c ↦ !P c) ≠ [] := by simp [hdrop]
    have hc : P c = true := by
      have hhead := List.head_dropWhile_not (fun c ↦ !P c) hne
      simpa [hdrop] using hhead
    have htext : text = (text.takeWhile (fun c ↦ !P c) ++ [c]) ++ after := by
      rw [List.append_assoc, List.singleton_append, ← hdrop, List.takeWhile_append_dropWhile]
    have hdropped := dropBytes_append (text.takeWhile (fun c ↦ !P c) ++ [c]) after
    rwa [← htext, byteLength_append, byteLength_cons, hP c hc] at hdropped

/-- The first byte is an ASCII character's exactly if the first character is that one. -/
theorem firstByte_eq_some {c : Char} (hc : c.toNat < 0x80) :
    firstByte text = some (UInt8.ofNat c.toNat) ↔ text.head? = some c := by
  cases text with
  | nil => simp [firstByte]
  | cons d text =>
    have hval : c.val.toNat < 0x80 := hc
    rw [firstByte, List.flatMap_cons, List.head?_cons, Option.some.injEq]
    fun_cases String.utf8EncodeChar d with
    | case1 v hv =>
      rw [List.cons_append, List.head?_cons, Option.some.injEq, ← UInt8.toNat_inj,
        UInt8.toNat_ofNat', UInt8.toNat_ofNat', Nat.mod_eq_of_lt (by omega),
        Nat.mod_eq_of_lt (by omega)]
      exact ⟨fun h ↦ Char.ext (UInt32.toNat_inj.mp h), fun h ↦ h ▸ rfl⟩
    | case2 v hv | case3 v hv | case4 v hv =>
      -- A longer character starts with a byte of at least `0xC0`.
      rw [List.cons_append, List.head?_cons, Option.some.injEq, ← UInt8.toNat_inj,
        UInt8.toNat_ofNat', UInt8.toNat_ofNat']
      refine iff_of_false (by omega) fun h ↦ hv ?_
      have hd : d.val.toNat < 0x80 := h ▸ hval
      exact Nat.le_of_lt_succ hd

/-- A text does not start with what has a character the text has not. -/
theorem strip_eq_none {first : Text} (hc : c ∈ first) (h : c ∉ text) : strip first text = none := by
  induction first generalizing text with
  | nil => cases hc
  | cons d first ih =>
    cases text with
    | nil => rfl
    | cons e text =>
      rw [List.mem_cons, not_or] at h
      rw [strip]
      split_ifs with hd
      · rw [List.mem_cons] at hc
        exact ih (hc.resolve_left fun heq ↦ h.1 (heq.trans hd)) h.2
      · rfl

/-! ## Trimming -/

@[simp] theorem trim_nil : trim [] = [] := rfl

theorem trimStart_eq_self (h : ∀ c ∈ text, isWhitespace c = false) : trimStart text = text := by
  cases text with
  | nil => rfl
  | cons c text =>
    rw [trimStart, List.dropWhile_cons, h c List.mem_cons_self]
    rfl

theorem trim_eq_self (h : ∀ c ∈ text, isWhitespace c = false) : trim text = text := by
  rw [trim, trimStart_eq_self h, List.rdropWhile_eq_self_iff]
  intro hne
  rw [h _ (List.getLast_mem hne)]
  decide

theorem trim_trimStart (text : Text) : trim (trimStart text) = trim text := by
  rw [trim, trimStart, trimStart, List.dropWhile_idempotent]
  rfl

/-- What does not start with whitespace stops the trimming before it. -/
theorem trimStart_append (h : ∀ c, after.head? = some c → isWhitespace c = false) :
    trimStart (before ++ after) = trimStart before ++ after := by
  have hafter : after.dropWhile isWhitespace = after := by
    cases after with
    | nil => rfl
    | cons c after => rw [List.dropWhile_cons, h c rfl]; rfl
  rw [trimStart, List.dropWhile_append, hafter]
  split_ifs with hempty
  · rw [trimStart, List.isEmpty_iff.mp hempty, List.nil_append]
  · rfl

/-! ## Splitting -/

theorem split_of_forall (h : ∀ c ∈ text, P c = false) : split P text = [text] := by
  induction text with
  | nil => rfl
  | cons c text ih =>
    rw [List.forall_mem_cons] at h
    rw [split, h.1, ih h.2]
    rfl

theorem split_append (h : ∀ c ∈ before, P c = false) (hc : P c = true) :
    split P (before ++ c :: after) = before :: split P after := by
  induction before with
  | nil => rw [List.nil_append, split, if_pos hc]
  | cons d before ih =>
    rw [List.forall_mem_cons] at h
    rw [List.cons_append, split, h.1, ih h.2]
    rfl

/-- **The pieces are the characters before the first separator, and those after each one.** -/
theorem split_eq (separator : Char) (text : Text) :
    ∃ pieces, split (· == separator) text = text.takeWhile (fun c ↦ !(c == separator)) :: pieces ∧
      text.dropWhile (fun c ↦ !(c == separator)) = pieces.flatMap (separator :: ·) ∧
      ∀ piece ∈ pieces, separator ∉ piece := by
  induction text with
  | nil => exact ⟨[], rfl, rfl, by simp⟩
  | cons c text ih =>
    obtain ⟨pieces, hsplit, hdrop, hfree⟩ := ih
    rw [split]
    by_cases hc : c = separator
    · subst hc
      refine ⟨split (· == c) text, by simp, ?_, ?_⟩
      · rw [hsplit, List.flatMap_cons, ← hdrop, List.cons_append, List.takeWhile_append_dropWhile]
        simp
      · rw [hsplit, List.forall_mem_cons]
        refine ⟨fun hmem ↦ ?_, hfree⟩
        simpa using List.mem_takeWhile_imp hmem
    · have hc' : ¬ (c == separator) = true := by simpa using hc
      refine ⟨pieces, ?_, ?_, hfree⟩
      · rw [if_neg hc', hsplit, List.takeWhile_cons]
        simp [hc]
      · rw [List.dropWhile_cons, ← hdrop]
        simp [hc]

end Text
