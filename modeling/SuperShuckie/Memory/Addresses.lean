import SuperShuckie.Lib.Fallible
import SuperShuckie.Lib.Numerals
import SuperShuckie.Memory.Tools

/-!
# Addresses as text

`parseAddress` reads an address typed by the user, as hexadecimal digits or relative to a region, and
`parseWatchAddress` one that goes through pointers: `[[base]+offset]-offset`.  What
`formatWatchAddress` shows is read back.

A parser slices its text by bytes and computes on 32-bit and 64-bit numbers; `Fallible.panics` is a
slice inside a character or a sum that overflows.

`Overflows` says of which texts that happens: a region that reaches past the last 32-bit address, or
an offset that negates the least 64-bit number, which a second minus sign reads.
-/

set_option autoImplicit false

namespace SuperShuckie

open Text Fallible Numeral

/-- A block of console memory as the tools know it, with the names addresses are typed with. -/
structure RegionInfo extends MemoryRegionInfo where
  name : Text
  /-- Short name used in `SHORT:offset` addresses. -/
  shortName : Text
  /-- Whether multi-byte values default to big-endian here. -/
  bigEndian : Bool
deriving DecidableEq

/-- `a.eq_ignore_ascii_case(b)`. -/
def eqIgnoreAsciiCase (a b : Text) : Bool := a.map Char.toLower == b.map Char.toLower

/-- The region goes by the name, or has it as its short name. -/
def RegionInfo.isCalled (region : RegionInfo) (name : Text) : Bool :=
  eqIgnoreAsciiCase region.shortName name || eqIgnoreAsciiCase region.name name

/-! ## Addresses -/

/-- `parse_hex_u32(text)`. -/
def parseHexU32 (text : Text) : Parsed Nat :=
  let text := trim text
  let digits := ((strip ['0', 'x'] text <|> strip ['0', 'X'] text <|> strip ['$'] text).getD text)
    |>.filter (· ≠ '_')
  if digits = [] then throw "expected a hexadecimal number"
  else okOr (Numeral.unsigned 32 16 digits)
    s!"\"{String.ofList text}\" is not a hexadecimal number"

/-- The address at an offset into a region. -/
def regionAddress (region : RegionInfo) (offset : Nat) : Parsed Nat :=
  if region.len ≤ offset then
    throw (s!"offset 0x{MemoryTools.hexUpper offset 1} is past the end of " ++
      s!"{String.ofList region.shortName} (0x{MemoryTools.hexUpper region.len 1} bytes)")
  else if region.baseAddress + offset < 2 ^ 32 then pure (region.baseAddress + offset)
  else panics

/-- What separates a region's name from the offset into it. -/
def isSeparator (c : Char) : Bool := c == ':' || c == '+'

/-- `parse_address(text, regions)`. -/
def parseAddress (text : Text) (regions : List RegionInfo) : Parsed Nat :=
  let text := trim text
  if text = [] then throw "no address given"
  else
    match find isSeparator text with
    | none => parseHexU32 text
    | some split => do
      let name := trim (← slice (takeBytes text split))
      let offset ← slice (dropBytes text (split + 1))
      if name.head?.any Char.isAlpha then
        let region ← okOr (regions.find? (·.isCalled name))
          s!"no region called \"{String.ofList name}\""
        regionAddress region (← parseHexU32 offset)
      else parseHexU32 text

/-! ## Watch addresses -/

/-- The digits of an offset, after its sign. -/
def offsetDigits (text : Text) : Option Int := Numeral.signed 64 16 (Numeral.withoutMarker (trim text))

/-- `if negative { -value } else { value }` on 64 bits. -/
def withSign (negative : Bool) (value : Int) : Parsed Int :=
  if negative then if value = -2 ^ 63 then panics else pure (-value) else pure value

/-- One offset, the whitespace around it trimmed: nothing stands for 0. -/
def parseOffset (term : Text) : Parsed Int :=
  if term = [] then pure 0
  else do
    let first ← slice (firstByte term)
    if first = 0x2B ∨ first = 0x2D then
      let digits ← slice (dropBytes term 1)
      let value ← okOr (offsetDigits digits)
        s!"\"{String.ofList term}\" is not a hexadecimal offset"
      let value ← withSign (first = 0x2D) value
      if -2 ^ 31 ≤ value ∧ value < 2 ^ 31 then pure value
      else throw s!"offset {String.ofList term} is too large"
    else throw s!"expected +offset or -offset after ], found \"{String.ofList term}\""

/-- The loop of `parse_watch_address` over so many levels: the offsets. -/
def parseOffsets : Nat → Text → Parsed (List Int)
  | 0, _ => pure []
  | levels + 1, rest => do
    let rest := trimStart (← okOr (strip [']'] rest) "missing ]")
    let fin := (find (· == ']') rest).getD (byteLength rest)
    let offset ← parseOffset (trim (← slice (takeBytes rest fin)))
    let rest ← slice (dropBytes rest fin)
    if levels = 0 ∧ trim rest ≠ [] then throw s!"unexpected \"{String.ofList (trim rest)}\""
    else
      let offsets ← parseOffsets levels rest
      pure (offset :: offsets)

/-- `parse_watch_address(text, regions)`. -/
def parseWatchAddress (text : Text) (regions : List RegionInfo) : Parsed WatchAddress :=
  let text := trim text
  let depth := (text.takeWhile (· == '[')).length
  if maxPointerDepth < depth then throw s!"at most {maxPointerDepth} pointers deep"
  else do
    let rest ← slice (dropBytes text depth)
    if depth = 0 then
      let base ← parseAddress rest regions
      pure { base }
    else
      let close ← okOr (find (· == ']') rest) "missing ]"
      let base ← parseAddress (← slice (takeBytes rest close)) regions
      let offsets ← parseOffsets depth (← slice (dropBytes rest close))
      pure { base, offsets }

/-- `format_watch_address(address, regions)`. -/
def formatWatchAddress (address : WatchAddress) (regions : List RegionInfo) : Text :=
  (MemoryTools.formatWatchAddress address (regions.map (·.toMemoryRegionInfo))).toList

/-- The fields are 32-bit numbers. -/
structure WatchAddress.InRange (address : WatchAddress) : Prop where
  base : address.base < 2 ^ 32
  offsets : ∀ offset ∈ address.offsets, -2 ^ 31 ≤ offset ∧ offset < 2 ^ 31

/-! ## Texts that overflow -/

/-- The text is an address relative to a region, at an offset past the last 32-bit address. -/
def PastEnd (text : Text) (regions : List RegionInfo) : Prop :=
  let name := trim ((trim text).takeWhile fun c ↦ !isSeparator c)
  let offset := ((trim text).dropWhile fun c ↦ !isSeparator c).tail
  name.head?.any Char.isAlpha = true ∧
    ∃ region n, regions.find? (·.isCalled name) = some region ∧ Gives (parseHexU32 offset) n ∧
      n < region.len ∧ 2 ^ 32 ≤ region.baseAddress + n

/-- The offset is the least 64-bit number behind a minus sign. -/
def NegatesLeast (term : Text) : Prop :=
  ∃ digits, trim term = '-' :: digits ∧ offsetDigits digits = some (-2 ^ 63)

/-- The first of so many terms that is not read as an offset negates the least number. -/
def TermOverflows (levels : Nat) (terms : List Text) : Prop :=
  ∃ before term after, terms = before ++ term :: after ∧ before.length < levels ∧
    (∀ t ∈ before, ∃ n, Gives (parseOffset (trim t)) n) ∧ NegatesLeast term

/-- The text names such a region, or negates the least number in an offset that is read. -/
def Overflows (text : Text) (regions : List RegionInfo) : Prop :=
  let depth := ((trim text).takeWhile (· == '[')).length
  let rest := (trim text).dropWhile (· == '[')
  (depth = 0 ∧ PastEnd rest regions) ∨
    (0 < depth ∧ depth ≤ maxPointerDepth ∧ ∃ base terms, Text.split (· == ']') rest = base :: terms ∧
      terms ≠ [] ∧
      (PastEnd base regions ∨
        (∃ n, Gives (parseAddress base regions) n) ∧ TermOverflows depth terms))

variable {text term rest : Text} {regions : List RegionInfo} {terms : List Text} {levels n : Nat}
  {offset : Int} {offsets : List Int}

/-! ## What panics -/

theorem returns_parseHexU32 (text : Text) : Returns (parseHexU32 text) := by
  unfold parseHexU32
  simp only
  split_ifs <;> simp

theorem parseHexU32_lt (h : Gives (parseHexU32 text) n) : n < 2 ^ 32 := by
  unfold parseHexU32 at h
  simp only at h
  split_ifs at h
  · simp at h
  · exact unsigned_lt (gives_okOr.mp h)

theorem returns_regionAddress (region : RegionInfo) (n : Nat) :
    Returns (regionAddress region n) ↔ ¬ (n < region.len ∧ 2 ^ 32 ≤ region.baseAddress + n) := by
  unfold regionAddress
  split_ifs with hlen hend
  · simp [hlen]
  · simp only [returns_pure, true_iff]
    omega
  · simp only [not_returns_panics, false_iff]
    omega

theorem regionAddress_lt {region : RegionInfo} {address : Nat}
    (h : Gives (regionAddress region n) address) : address < 2 ^ 32 := by
  unfold regionAddress at h
  split_ifs at h with hlen hend
  · simp at h
  · rw [gives_pure_iff] at h
    omega
  · simp at h

/-- What `parseAddress` does with a text it has trimmed, told without positions. -/
theorem parseAddress_eq (text : Text) (regions : List RegionInfo) : parseAddress text regions =
      let text := trim text
      let name := trim (text.takeWhile fun c ↦ !isSeparator c)
      if text = [] then throw "no address given"
      else if text.any isSeparator = true ∧ name.head?.any Char.isAlpha = true then do
        let region ← okOr (regions.find? (·.isCalled name))
          s!"no region called \"{String.ofList name}\""
        regionAddress region (← parseHexU32 (text.dropWhile fun c ↦ !isSeparator c).tail)
      else parseHexU32 text := by
  have hsize : ∀ c, isSeparator c = true → c.utf8Size = 1 := by
    intro c hc
    obtain rfl | rfl : c = ':' ∨ c = '+' := by simpa [isSeparator] using hc
    all_goals rfl
  unfold parseAddress
  simp only [find_eq]
  refine if_congr Iff.rfl rfl ?_
  cases hany : (trim text).any isSeparator with
  | false => simp
  | true =>
    simp only [if_true, takeBytes_takeWhile, dropBytes_succ hsize hany, slice_some, pure_bind,
      true_and]

theorem returns_parseAddress (text : Text) (regions : List RegionInfo) :
    Returns (parseAddress text regions) ↔ ¬ PastEnd text regions := by
  rw [parseAddress_eq, PastEnd]
  simp only
  split_ifs with hempty hname
  · simp [hempty, trim_nil]
  · rw [returns_bind]
    simp only [returns_okOr, gives_okOr, true_and, returns_bind, returns_parseHexU32,
      returns_regionAddress, hname.2]
    constructor
    · rintro h ⟨region, n, hregion, hn, hlt, hle⟩
      exact h region hregion n hn ⟨hlt, hle⟩
    · intro h region hregion n hn hpast
      exact h ⟨region, n, hregion, hn, hpast⟩
  · refine iff_of_true (returns_parseHexU32 _) ?_
    rintro ⟨halpha, region, n, -, hn, -⟩
    -- Without a separator nothing is left for the offset.
    have hany : (trim text).any isSeparator = false := by
      by_contra hany
      exact hname ⟨by simpa using hany, halpha⟩
    have hdrop : (trim text).dropWhile (fun c ↦ !isSeparator c) = [] := by
      rw [List.dropWhile_eq_nil_iff]
      simpa using hany
    rw [hdrop] at hn
    exact not_gives_throw hn

theorem parseAddress_lt (h : Gives (parseAddress text regions) n) : n < 2 ^ 32 := by
  rw [parseAddress_eq] at h
  simp only at h
  split_ifs at h with hempty hname
  · simp at h
  · obtain ⟨region, -, h⟩ := gives_bind.mp h
    obtain ⟨offset, -, h⟩ := gives_bind.mp h
    exact regionAddress_lt h
  · exact parseHexU32_lt h

/-! ## Offsets -/

/-- What `parseOffset` does, told by the term's first character. -/
theorem parseOffset_cons (c : Char) (text : Text) : parseOffset (c :: text) =
      if c = '+' ∨ c = '-' then do
        let value ← okOr (offsetDigits text)
          s!"\"{String.ofList (c :: text)}\" is not a hexadecimal offset"
        let value ← withSign (c = '-') value
        if -2 ^ 31 ≤ value ∧ value < 2 ^ 31 then pure value
        else throw s!"offset {String.ofList (c :: text)} is too large"
      else throw s!"expected +offset or -offset after ], found \"{String.ofList (c :: text)}\"" := by
  have hplus : firstByte (c :: text) = some 0x2B ↔ c = '+' := by
    simpa using @firstByte_eq_some (c :: text) '+' (by decide)
  have hminus : firstByte (c :: text) = some 0x2D ↔ c = '-' := by
    simpa using @firstByte_eq_some (c :: text) '-' (by decide)
  unfold parseOffset
  rw [if_neg (List.cons_ne_nil _ _)]
  cases hfirst : firstByte (c :: text) with
  | none => simp [firstByte] at hfirst
  | some first =>
    rw [hfirst, Option.some.injEq] at hplus hminus
    simp only [slice_some, pure_bind, hplus, hminus]
    refine if_ctx_congr Iff.rfl (fun hsign ↦ ?_) fun _ ↦ rfl
    have hdrop : dropBytes (c :: text) 1 = some text := by
      obtain rfl | rfl := hsign
      all_goals exact dropBytes_append [_] text
    rw [hdrop, slice_some, pure_bind]

theorem returns_withSign (negative : Bool) (value : Int) :
    Returns (withSign negative value) ↔ ¬ (negative = true ∧ value = -2 ^ 63) := by
  unfold withSign
  split_ifs with hneg hleast
  · exact iff_of_false not_returns_panics fun h ↦ h ⟨hneg, hleast⟩
  · exact iff_of_true returns_pure fun h ↦ hleast h.2
  · exact iff_of_true returns_pure fun h ↦ hneg h.1

theorem returns_parseOffset (term : Text) :
    Returns (parseOffset (trim term)) ↔ ¬ NegatesLeast term := by
  unfold NegatesLeast
  cases trim term with
  | nil => simp [parseOffset]
  | cons c text =>
    have htail (value : Int) : Returns ((if -2 ^ 31 ≤ value ∧ value < 2 ^ 31 then pure value
        else throw s!"offset {String.ofList (c :: text)} is too large") : Parsed Int) := by
      split_ifs <;> simp
    rw [parseOffset_cons]
    split_ifs with hsign
    · simp only [returns_bind, returns_okOr, gives_okOr, true_and, returns_withSign, htail,
        implies_true, and_true, decide_eq_true_eq, List.cons.injEq]
      constructor
      · rintro h ⟨digits, ⟨hc, rfl⟩, hleast⟩
        exact h _ hleast ⟨hc, rfl⟩
      · rintro h value hvalue ⟨hc, rfl⟩
        exact h ⟨text, ⟨hc, rfl⟩, hvalue⟩
    · simp [not_or.mp hsign]

theorem parseOffset_inRange (h : Gives (parseOffset term) offset) :
    -2 ^ 31 ≤ offset ∧ offset < 2 ^ 31 := by
  cases term with
  | nil =>
    obtain rfl : 0 = offset := by simpa [parseOffset] using h
    decide
  | cons c text =>
    rw [parseOffset_cons] at h
    split_ifs at h with hsign
    · obtain ⟨value, -, h⟩ := gives_bind.mp h
      obtain ⟨v, -, h⟩ := gives_bind.mp h
      split_ifs at h with hrange
      · rw [gives_pure_iff] at h
        exact h ▸ hrange
      · simp at h
    · simp at h

/-- Terms, each behind its bracket. -/
def bracketed (terms : List Text) : Text := terms.flatMap (']' :: ·)

theorem head?_bracketed (terms : List Text) :
    bracketed terms = [] ∨ (bracketed terms).head? = some ']' := by
  cases terms with
  | nil => exact .inl rfl
  | cons term terms => exact .inr rfl

/-- One level of the loop: the next term, and the rest of them. -/
theorem parseOffsets_cons (levels : Nat) (hterm : ']' ∉ term) (terms : List Text) :
    parseOffsets (levels + 1) (bracketed (term :: terms)) =
      (do
        let offset ← parseOffset (trim term)
        if levels = 0 ∧ trim (bracketed terms) ≠ [] then
          throw s!"unexpected \"{String.ofList (trim (bracketed terms))}\""
        else
          let offsets ← parseOffsets levels (bracketed terms)
          pure (offset :: offsets)) := by
  have hstart : trimStart (term ++ bracketed terms) = trimStart term ++ bracketed terms := by
    refine trimStart_append fun c hc ↦ ?_
    obtain h | h := head?_bracketed terms
    · simp [h] at hc
    · obtain rfl : ']' = c := by simpa [h] using hc
      decide
  have hfree : ∀ c ∈ trimStart term, (!(c == ']')) = true := by
    intro c hc
    have hmem : c ∈ term := (List.dropWhile_sublist _).mem hc
    simpa using fun h : c = ']' ↦ hterm (h ▸ hmem)
  have htake : (trimStart term ++ bracketed terms).takeWhile (fun c ↦ !(c == ']')) =
      trimStart term := by
    rw [List.takeWhile_append_of_pos hfree]
    cases terms with
    | nil => exact List.append_nil _
    | cons next terms => simp [bracketed]
  have hstrip : strip [']'] (bracketed (term :: terms)) = some (term ++ bracketed terms) := rfl
  rw [parseOffsets, hstrip, okOr_some, pure_bind, hstart]
  simp only [find_getD, htake, takeBytes_append, dropBytes_append, slice_some, pure_bind,
    trim_trimStart]

theorem parseOffsets_nil (levels : Nat) :
    parseOffsets (levels + 1) (bracketed []) = throw "missing ]" := rfl

theorem termOverflows_cons (term : Text) (terms : List Text) (levels : Nat) :
    TermOverflows (levels + 1) (term :: terms) ↔
      NegatesLeast term ∨
        (∃ n, Gives (parseOffset (trim term)) n) ∧ TermOverflows levels terms := by
  constructor
  · rintro ⟨before, t, after, heq, hlen, hbefore, hleast⟩
    cases before with
    | nil =>
      obtain ⟨rfl, rfl⟩ := List.cons.inj heq
      exact .inl hleast
    | cons first before =>
      obtain ⟨rfl, rfl⟩ := List.cons.inj heq
      rw [List.forall_mem_cons] at hbefore
      exact .inr ⟨hbefore.1, before, t, after, rfl, Nat.lt_of_succ_lt_succ hlen, hbefore.2, hleast⟩
  · rintro (hleast | ⟨hgives, before, t, after, rfl, hlen, hbefore, hleast⟩)
    · exact ⟨[], term, terms, rfl, Nat.succ_pos _, by simp, hleast⟩
    · refine ⟨term :: before, t, after, rfl, Nat.succ_lt_succ hlen, ?_, hleast⟩
      exact List.forall_mem_cons.mpr ⟨hgives, hbefore⟩

/-- **The loop panics exactly at a term that negates the least number.** -/
theorem returns_parseOffsets (levels : Nat) (hterms : ∀ term ∈ terms, ']' ∉ term) :
    Returns (parseOffsets levels (bracketed terms)) ↔ ¬ TermOverflows levels terms := by
  induction levels generalizing terms with
  | zero => simp [parseOffsets, TermOverflows]
  | succ levels ih =>
    cases terms with
    | nil => simp [parseOffsets_nil, TermOverflows]
    | cons term terms =>
      rw [List.forall_mem_cons] at hterms
      rw [parseOffsets_cons levels hterms.1, termOverflows_cons, returns_bind,
        returns_parseOffset, not_or]
      refine and_congr_right fun hleast ↦ ?_
      rw [not_and, forall_exists_index]
      refine forall_congr' fun n ↦ imp_congr_right fun _ ↦ ?_
      split_ifs with htrail
      · -- Behind the last level nothing more is read.
        obtain ⟨rfl, -⟩ := htrail
        simp [TermOverflows]
      · rw [returns_bind, ih hterms.2]
        simp

theorem parseOffsets_inRange (hterms : ∀ term ∈ terms, ']' ∉ term)
    (h : Gives (parseOffsets levels (bracketed terms)) offsets) :
    offsets.length = levels ∧ ∀ offset ∈ offsets, -2 ^ 31 ≤ offset ∧ offset < 2 ^ 31 := by
  induction levels generalizing terms offsets with
  | zero =>
    rw [parseOffsets, gives_pure_iff] at h
    subst h
    exact ⟨rfl, by simp⟩
  | succ levels ih =>
    cases terms with
    | nil => exact absurd h not_gives_throw
    | cons term terms =>
      rw [List.forall_mem_cons] at hterms
      rw [parseOffsets_cons levels hterms.1] at h
      obtain ⟨offset, hoffset, h⟩ := gives_bind.mp h
      split_ifs at h
      · exact absurd h not_gives_throw
      · obtain ⟨rest, hrest, h⟩ := gives_bind.mp h
        obtain ⟨hlen, hrange⟩ := ih hterms.2 hrest
        rw [gives_pure_iff] at h
        subst h
        refine ⟨congrArg (· + 1) hlen, List.forall_mem_cons.mpr ⟨?_, hrange⟩⟩
        exact parseOffset_inRange hoffset

/-! ## The whole address -/

/-- What `parseWatchAddress` does, told by the pieces between the brackets. -/
theorem parseWatchAddress_eq {base : Text} (text : Text) (regions : List RegionInfo)
    (hsplit : Text.split (· == ']') ((trim text).dropWhile (· == '[')) = base :: terms) :
    parseWatchAddress text regions =
      (let depth := ((trim text).takeWhile (· == '[')).length
      if maxPointerDepth < depth then throw s!"at most {maxPointerDepth} pointers deep"
      else if depth = 0 then do
        let base ← parseAddress ((trim text).dropWhile (· == '[')) regions
        pure { base }
      else if terms = [] then throw "missing ]"
      else do
        let base ← parseAddress base regions
        let offsets ← parseOffsets depth (bracketed terms)
        pure { base, offsets }) := by
  have hsize : byteLength ((trim text).takeWhile (· == '[')) =
      ((trim text).takeWhile (· == '[')).length := by
    refine byteLength_eq_length fun c hc ↦ ?_
    obtain rfl : c = '[' := by simpa using List.mem_takeWhile_imp hc
    rfl
  obtain ⟨pieces, hpieces, hdrop, -⟩ := split_eq ']' ((trim text).dropWhile (· == '['))
  rw [hsplit] at hpieces
  obtain ⟨rfl, rfl⟩ := List.cons.inj hpieces
  unfold parseWatchAddress
  simp only
  refine if_congr Iff.rfl rfl ?_
  rw [← hsize, dropBytes_takeWhile, slice_some, pure_bind, hsize]
  refine if_congr Iff.rfl rfl ?_
  rw [find_eq, any_eq, hdrop]
  cases terms with
  | nil => rfl
  | cons term rest =>
    have hsome : (!((term :: rest).flatMap (']' :: ·)).isEmpty) = true := rfl
    rw [if_pos hsome, okOr_some, pure_bind, takeBytes_takeWhile, slice_some, pure_bind,
      if_neg (List.cons_ne_nil _ _)]
    simp only [dropBytes_takeWhile, hdrop, slice_some, pure_bind]
    rfl

/-- **Parsing panics exactly on the texts that overflow.** -/
theorem returns_parseWatchAddress (text : Text) (regions : List RegionInfo) :
    Returns (parseWatchAddress text regions) ↔ ¬ Overflows text regions := by
  obtain ⟨terms, hsplit, -, hfree⟩ := split_eq ']' ((trim text).dropWhile (· == '['))
  rw [parseWatchAddress_eq text regions hsplit]
  unfold Overflows
  simp only [hsplit, List.cons.injEq]
  split_ifs with hdeep hdepth hterms
  · refine iff_of_true returns_throw ?_
    rintro (⟨hzero, -⟩ | ⟨-, hle, -⟩) <;> omega
  · simp [hdepth, returns_parseAddress]
  · refine iff_of_true returns_throw ?_
    rintro (⟨hzero, -⟩ | ⟨-, -, base, rest, ⟨-, rfl⟩, hne, -⟩)
    · exact hdepth hzero
    · exact hne hterms
  · have hpos : 0 < ((trim text).takeWhile (· == '[')).length := Nat.pos_of_ne_zero hdepth
    have hle : ((trim text).takeWhile (· == '[')).length ≤ maxPointerDepth := Nat.not_lt.mp hdeep
    simp only [returns_bind, returns_parseAddress, returns_parseOffsets _ hfree, returns_pure]
    constructor
    · rintro ⟨hbase, hterm⟩ (⟨hzero, -⟩ | ⟨-, -, base, rest, ⟨rfl, rfl⟩, -, hover⟩)
      · exact hdepth hzero
      · obtain hpast | ⟨⟨n, hn⟩, hleast⟩ := hover
        · exact hbase hpast
        · exact (hterm n hn).1 hleast
    · intro h
      refine ⟨fun hpast ↦ h (.inr ⟨hpos, hle, _, terms, ⟨rfl, rfl⟩, hterms, .inl hpast⟩), ?_⟩
      refine fun n hn ↦ ⟨fun hleast ↦ ?_, fun _ _ ↦ trivial⟩
      exact h (.inr ⟨hpos, hle, _, terms, ⟨rfl, rfl⟩, hterms, .inr ⟨⟨n, hn⟩, hleast⟩⟩)

/-- What is read is in range. -/
theorem parseWatchAddress_inRange {address : WatchAddress}
    (h : Gives (parseWatchAddress text regions) address) :
    address.InRange ∧ address.offsets.length ≤ maxPointerDepth := by
  obtain ⟨terms, hsplit, -, hfree⟩ := split_eq ']' ((trim text).dropWhile (· == '['))
  rw [parseWatchAddress_eq text regions hsplit] at h
  simp only at h
  split_ifs at h with hdeep hdepth hterms
  · exact absurd h not_gives_throw
  · obtain ⟨base, hbase, h⟩ := gives_bind.mp h
    rw [gives_pure_iff] at h
    subst h
    exact ⟨⟨parseAddress_lt hbase, by simp⟩, Nat.zero_le _⟩
  · exact absurd h not_gives_throw
  · obtain ⟨base, hbase, h⟩ := gives_bind.mp h
    obtain ⟨offsets, hoffsets, h⟩ := gives_bind.mp h
    obtain ⟨hlen, hrange⟩ := parseOffsets_inRange hfree hoffsets
    rw [gives_pure_iff] at h
    subst h
    exact ⟨⟨parseAddress_lt hbase, hrange⟩, hlen ▸ Nat.not_lt.mp hdeep⟩

/-! ## What is shown is read back -/

/-- An offset as it is shown behind its bracket. -/
def offsetText (offset : Int) : Text :=
  if offset = 0 then []
  else (if offset < 0 then '-' else '+') :: '0' :: 'x' :: Numeral.padded 16 1 offset.natAbs

theorem toList_hexUpper (n width : Nat) :
    (MemoryTools.hexUpper n width).toList = padded 16 width n :=
  String.toList_ofList

/-- The text of an address, piece by piece. -/
theorem formatWatchAddress_eq (address : WatchAddress) (regions : List RegionInfo) :
    formatWatchAddress address regions =
      List.replicate address.offsets.length '[' ++
        ('0' :: 'x' :: padded 16
          (MemoryTools.addressWidth (regions.map (·.toMemoryRegionInfo))) address.base ++
        bracketed (address.offsets.map offsetText)) := by
  have hfold (offsets : List Int) (start : String) :
      (offsets.foldl (fun out offset ↦ out ++ "]" ++
        (if offset = 0 then ""
          else if offset < 0 then "-0x" ++ MemoryTools.hexUpper offset.natAbs 1
          else "+0x" ++ MemoryTools.hexUpper offset.natAbs 1)) start).toList =
        start.toList ++ bracketed (offsets.map offsetText) := by
    induction offsets generalizing start with
    | nil => simp [bracketed]
    | cons offset offsets ih =>
      have htext : (if offset = 0 then ""
          else if offset < 0 then "-0x" ++ MemoryTools.hexUpper offset.natAbs 1
          else "+0x" ++ MemoryTools.hexUpper offset.natAbs 1).toList = offsetText offset := by
        unfold offsetText
        split_ifs <;> simp [toList_hexUpper]
      rw [List.foldl_cons, ih, String.toList_append, String.toList_append, htext]
      simp [bracketed]
  unfold formatWatchAddress MemoryTools.formatWatchAddress
  simp only [hfold, String.toList_append, String.toList_ofList, toList_hexUpper]
  simp

theorem mem_hexText {width : Nat} {c : Char}
    (hc : c ∈ '0' :: 'x' :: padded 16 width n) : c ∈ 'x' :: hexDigits := by
  obtain rfl | hc := List.mem_cons.mp hc
  · decide
  obtain rfl | hc := List.mem_cons.mp hc
  · decide
  · exact List.mem_cons_of_mem _ (mem_hexDigits (by decide) (by decide) hc)

theorem mem_offsetText {c : Char} (hc : c ∈ offsetText offset) :
    c ∈ '+' :: '-' :: 'x' :: hexDigits := by
  unfold offsetText at hc
  split_ifs at hc with hzero hneg
  · simp at hc
  all_goals
    obtain rfl | hc := List.mem_cons.mp hc
    · decide
    · exact List.mem_cons_of_mem _ (List.mem_cons_of_mem _ (mem_hexText hc))

theorem notMem_offsetText (offset : Int) : ']' ∉ offsetText offset := fun hc ↦
  absurd (mem_offsetText hc) (by decide)

theorem isWhitespace_offsetChar :
    ∀ c ∈ '+' :: '-' :: 'x' :: hexDigits, isWhitespace c = false :=
  List.all_iff_forall_prop.mp (by decide)

theorem isWhitespace_hexText {width : Nat} {c : Char}
    (hc : c ∈ '0' :: 'x' :: padded 16 width n) : isWhitespace c = false :=
  isWhitespace_offsetChar c (List.mem_cons_of_mem _ (List.mem_cons_of_mem _ (mem_hexText hc)))

theorem isWhitespace_formatWatchAddress {c : Char} (address : WatchAddress)
    (hc : c ∈ formatWatchAddress address regions) : isWhitespace c = false := by
  rw [formatWatchAddress_eq, List.mem_append, List.mem_append] at hc
  obtain hc | hc | hc := hc
  · rw [List.eq_of_mem_replicate hc]
    decide
  · exact isWhitespace_hexText hc
  · obtain ⟨term, hterm, hc⟩ := List.mem_flatMap.mp hc
    obtain ⟨offset, -, rfl⟩ := List.mem_map.mp hterm
    obtain rfl | hc := List.mem_cons.mp hc
    · decide
    · exact isWhitespace_offsetChar c (mem_offsetText hc)

theorem trim_hexText {width : Nat} : trim ('0' :: 'x' :: padded 16 width n) =
    '0' :: 'x' :: padded 16 width n :=
  trim_eq_self fun _ hc ↦ isWhitespace_hexText hc

theorem trim_offsetText (offset : Int) : trim (offsetText offset) = offsetText offset :=
  trim_eq_self fun c hc ↦ isWhitespace_offsetChar c (mem_offsetText hc)

theorem gives_parseAddress (hn : n < 2 ^ 32) (width : Nat) (regions : List RegionInfo) :
    Gives (parseAddress ('0' :: 'x' :: padded 16 width n) regions) n := by
  have hany : ('0' :: 'x' :: padded 16 width n).any isSeparator = false := by
    have hplain : ∀ c ∈ 'x' :: hexDigits, ¬ isSeparator c = true :=
      List.all_iff_forall_prop.mp (by decide)
    rw [List.any_eq_false]
    exact fun c hc ↦ hplain c (mem_hexText hc)
  have hscores : (padded 16 width n).filter (· ≠ '_') = padded 16 width n := by
    have hplain : ∀ c ∈ hexDigits, decide (c ≠ '_') = true :=
      List.all_iff_forall_prop.mp (by decide)
    rw [List.filter_eq_self]
    exact fun c hc ↦ hplain c (mem_hexDigits (by decide) (by decide) hc)
  rw [parseAddress_eq, trim_hexText]
  simp only [hany, Bool.false_eq_true, false_and, if_false, reduceCtorEq]
  have hstrip (text : Text) : (strip ['0', 'x'] ('0' :: 'x' :: text) <|>
      strip ['0', 'X'] ('0' :: 'x' :: text) <|> strip ['$'] ('0' :: 'x' :: text)).getD
        ('0' :: 'x' :: text) = text := rfl
  unfold parseHexU32
  simp only [trim_hexText, hstrip, hscores]
  rw [if_neg (padded_ne_nil 16 width n),
    unsigned_padded (by decide) (by decide) hn, okOr_some, gives_pure_iff]

theorem gives_parseOffset (h : -2 ^ 31 ≤ offset ∧ offset < 2 ^ 31) :
    Gives (parseOffset (trim (offsetText offset))) offset := by
  have hdigits : offsetDigits ('0' :: 'x' :: padded 16 1 offset.natAbs) =
      some (offset.natAbs : Int) := by
    have habs : offset.natAbs < 2 ^ 63 := by omega
    rw [offsetDigits, trim_hexText]
    exact signed_padded (by decide) (by decide) habs 1
  rw [trim_offsetText]
  unfold offsetText
  split_ifs with hzero hneg
  · simp [parseOffset, hzero]
  · have hvalue : -(offset.natAbs : Int) = offset := by omega
    have hleast : (offset.natAbs : Int) ≠ -2 ^ 63 := by omega
    rw [parseOffset_cons, if_pos (.inr rfl), hdigits, okOr_some, pure_bind, withSign,
      if_pos (decide_eq_true rfl), if_neg hleast, hvalue, pure_bind, if_pos h, gives_pure_iff]
  · have hvalue : (offset.natAbs : Int) = offset := by omega
    rw [parseOffset_cons, if_pos (.inl rfl), hdigits, okOr_some, pure_bind, withSign,
      if_neg (by decide), hvalue, pure_bind, if_pos h, gives_pure_iff]

theorem gives_parseOffsets (h : ∀ offset ∈ offsets, -2 ^ 31 ≤ offset ∧ offset < 2 ^ 31) :
    Gives (parseOffsets offsets.length (bracketed (offsets.map offsetText))) offsets := by
  induction offsets with
  | nil => exact gives_pure
  | cons offset offsets ih =>
    rw [List.forall_mem_cons] at h
    rw [List.length_cons, List.map_cons, parseOffsets_cons _ (notMem_offsetText offset)]
    refine gives_bind.mpr ⟨offset, gives_parseOffset h.1, ?_⟩
    rw [if_neg]
    · exact gives_bind.mpr ⟨offsets, ih h.2, gives_pure⟩
    · rintro ⟨hlast, hrest⟩
      rw [List.eq_nil_of_length_eq_zero hlast] at hrest
      exact hrest rfl

theorem split_bracketed {first : Text} (hfirst : ']' ∉ first)
    (hterms : ∀ term ∈ terms, ']' ∉ term) :
    Text.split (· == ']') (first ++ bracketed terms) = first :: terms := by
  have hfree {text : Text} (h : ']' ∉ text) : ∀ c ∈ text, (c == ']') = false := fun c hc ↦ by
    simpa using fun heq : c = ']' ↦ h (heq ▸ hc)
  induction terms generalizing first with
  | nil => rw [bracketed, List.flatMap_nil, List.append_nil, split_of_forall (hfree hfirst)]
  | cons term terms ih =>
    rw [List.forall_mem_cons] at hterms
    have hcons : bracketed (term :: terms) = ']' :: (term ++ bracketed terms) := rfl
    rw [hcons, split_append (hfree hfirst) rfl, ih hterms.1 hterms.2]

/-- **A shown address is read back.** -/
theorem gives_parseWatchAddress {address : WatchAddress} (h : address.InRange)
    (hdepth : address.offsets.length ≤ maxPointerDepth) (regions : List RegionInfo) :
    Gives (parseWatchAddress (formatWatchAddress address regions) regions) address := by
  have htrim : trim (formatWatchAddress address regions) = formatWatchAddress address regions :=
    trim_eq_self fun c hc ↦ isWhitespace_formatWatchAddress address hc
  have hbrackets : ∀ c ∈ List.replicate address.offsets.length '[', (c == '[') = true :=
    fun c hc ↦ by simp [List.eq_of_mem_replicate hc]
  have htake : (formatWatchAddress address regions).takeWhile (· == '[') =
      List.replicate address.offsets.length '[' := by
    rw [formatWatchAddress_eq, List.takeWhile_append_of_pos hbrackets, List.cons_append,
      List.takeWhile_cons_of_neg (by decide), List.append_nil]
  have hdrop : (formatWatchAddress address regions).dropWhile (· == '[') =
      '0' :: 'x' :: padded 16
          (MemoryTools.addressWidth (regions.map (·.toMemoryRegionInfo))) address.base ++
        bracketed (address.offsets.map offsetText) := by
    rw [formatWatchAddress_eq, List.dropWhile_append_of_pos hbrackets, List.cons_append,
      List.dropWhile_cons_of_neg (by decide)]
  have hterms : ∀ term ∈ address.offsets.map offsetText, ']' ∉ term :=
    List.forall_mem_map.mpr fun offset _ ↦ notMem_offsetText offset
  have hfirst : ']' ∉ '0' :: 'x' :: padded 16
      (MemoryTools.addressWidth (regions.map (·.toMemoryRegionInfo))) address.base :=
    fun hc ↦ absurd (mem_hexText hc) (by decide)
  have hsplit := split_bracketed hfirst hterms
  rw [← hdrop, ← htrim] at hsplit
  rw [parseWatchAddress_eq _ regions hsplit]
  simp only [htrim, htake, List.length_replicate]
  rw [if_neg (Nat.not_lt.mpr hdepth)]
  have hbase := gives_parseAddress h.base
    (MemoryTools.addressWidth (regions.map (·.toMemoryRegionInfo))) regions
  split_ifs with hdirect hnone
  · have hnil : address.offsets = [] := List.eq_nil_of_length_eq_zero hdirect
    rw [hdrop, hnil, List.map_nil, bracketed, List.flatMap_nil, List.append_nil]
    refine gives_bind.mpr ⟨address.base, hbase, ?_⟩
    rw [gives_pure_iff, ← hnil]
  · exact absurd (congrArg List.length (List.map_eq_nil_iff.mp hnone)) hdirect
  · refine gives_bind.mpr ⟨address.base, hbase, ?_⟩
    exact gives_bind.mpr ⟨address.offsets, gives_parseOffsets h.offsets, gives_pure⟩

/-- **Watch addresses round trip, and parsing is total but for the texts that overflow.**  What is
read from any other text is shown and read back the same. -/
theorem parseWatchAddress_total_iff (regions : List RegionInfo) :
    (∀ address : WatchAddress, address.InRange → address.offsets.length ≤ maxPointerDepth →
      Gives (parseWatchAddress (formatWatchAddress address regions) regions) address) ∧
    ∀ text,
      (Returns (parseWatchAddress text regions) ∧
        ∀ address, Gives (parseWatchAddress text regions) address →
          Gives (parseWatchAddress (formatWatchAddress address regions) regions) address) ↔
      ¬ Overflows text regions := by
  refine ⟨fun address h hdepth ↦ gives_parseWatchAddress h hdepth regions, fun text ↦ ?_⟩
  rw [returns_parseWatchAddress, and_iff_left]
  intro address h
  obtain ⟨hrange, hdepth⟩ := parseWatchAddress_inRange h
  exact gives_parseWatchAddress hrange hdepth regions

/-- A second minus sign makes the least 64-bit number, which is then negated. -/
theorem parseWatchAddress_panics :
    ¬ Returns (parseWatchAddress "[0]--8000000000000000".toList []) := by
  have h : (parseWatchAddress "[0]--8000000000000000".toList []).run = none := by decide +kernel
  rintro ⟨result, hresult⟩
  rw [h] at hresult
  cases hresult

end SuperShuckie
