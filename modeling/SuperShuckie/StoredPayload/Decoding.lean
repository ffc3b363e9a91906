import SuperShuckie.StoredPayload

/-!
# Decoding any payload

A payload is read from a file, so its lengths, references and literal bytes may be anything.  Taking it
apart either fails or gives the parts that it is made of (`splitPayloadV9_spec`), and rebuilding its
data stream either fails or gives the literal bytes in their order, with bytes of the ROM in between
(`Spliced`).

* `splicing`: the loop over the references comes to its end by itself.
* `dataInto_spec`: what it comes to.
-/

set_option autoImplicit false

namespace SuperShuckie

open ByteFormat

variable {rom : Bytes} {payload refs refs' literal data : Bytes} {romPos fuel : Nat}

/-! ## The parts -/

/-- **A payload is its parts**, one behind the other, if they are all there. -/
theorem splitPayloadV9_spec {parts : PayloadV9} (h : splitPayloadV9 payload = .ok parts) :
    ∃ lens : Bytes, lens.length = 16 ∧
      payload = lens ++ (parts.control ++ (parts.refs ++ parts.literal)) := by
  rw [splitPayloadV9] at h
  dsimp only at h
  split_ifs at h with hshort hcontrol hrefs
  cases h
  refine ⟨payload.take 16, List.length_take_of_le (Nat.not_lt.1 hshort), ?_⟩
  dsimp only
  rw [List.take_append_drop, List.take_append_drop, List.take_append_drop]

/-! ## The references -/

/-- The next reference: how many literal bytes stand before it, how far the copy is from the end of
the last one, and how long it is. -/
def readReference (refs : Bytes) : Option ((Nat × Nat × Nat) × Bytes) := do
  let (gap, refs) ← readLeb128 refs
  let (delta, refs) ← readLeb128 refs
  let (len, refs) ← readLeb128 refs
  pure ((gap, delta, len), refs)

/-- Every reference takes three bytes at least. -/
theorem length_of_readReference {reference : Nat × Nat × Nat}
    (h : readReference refs = some (reference, refs')) : refs'.length + 3 ≤ refs.length := by
  obtain ⟨⟨gap, rest⟩, hgap, h⟩ := Option.bind_eq_some_iff.mp h
  obtain ⟨⟨delta, rest'⟩, hdelta, h⟩ := Option.bind_eq_some_iff.mp h
  obtain ⟨⟨len, rest''⟩, hlen, h⟩ := Option.bind_eq_some_iff.mp h
  cases h
  have hfirst := length_lt_of_readLeb128 hgap
  have hsecond := length_lt_of_readLeb128 hdelta
  have hthird := length_lt_of_readLeb128 hlen
  omega

/-- The loop over the references, from where the last copy ended, to its end. -/
inductive Splicing (rom : Bytes) : Bytes → Bytes → Nat → Except String Bytes → Prop where
  | done (literal : Bytes) (romPos : Nat) : Splicing rom [] literal romPos (.ok literal)
  | malformed {refs literal : Bytes} {romPos : Nat} : refs ≠ [] → readReference refs = none →
      Splicing rom refs literal romPos (.error "3DS delta ROM references are malformed")
  | pastLiteral {refs refs' literal : Bytes} {romPos gap delta len : Nat} : refs ≠ [] →
      readReference refs = some ((gap, delta, len), refs') → literal.length < gap →
      Splicing rom refs literal romPos
        (.error "3DS delta ROM reference points past its literal data")
  | outside {refs refs' literal : Bytes} {romPos gap delta len : Nat} : refs ≠ [] →
      readReference refs = some ((gap, delta, len), refs') → gap ≤ literal.length →
      slice? rom (wrappingAdd64 romPos (unzigzag delta)) len = none →
      Splicing rom refs literal romPos
        (.error "3DS delta copies bytes from outside the ROM (is it the right game file?)")
  | copy {refs refs' literal bytes : Bytes} {romPos gap delta len : Nat}
      {result : Except String Bytes} : refs ≠ [] →
      readReference refs = some ((gap, delta, len), refs') → gap ≤ literal.length →
      slice? rom (wrappingAdd64 romPos (unzigzag delta)) len = some bytes →
      Splicing rom refs' (literal.drop gap) (wrappingAdd64 romPos (unzigzag delta) + len) result →
      Splicing rom refs literal romPos
        (result.map fun rest ↦ literal.take gap ++ (bytes ++ rest))

theorem spliceCopies_succ (hne : refs ≠ []) : spliceCopies rom (fuel + 1) refs literal romPos =
      match readReference refs with
      | none => .error "3DS delta ROM references are malformed"
      | some ((gap, delta, len), refs') =>
        if literal.length < gap then .error "3DS delta ROM reference points past its literal data"
        else
          match slice? rom (wrappingAdd64 romPos (unzigzag delta)) len with
          | none => .error "3DS delta copies bytes from outside the ROM (is it the right game file?)"
          | some bytes =>
            (spliceCopies rom fuel refs' (literal.drop gap)
              (wrappingAdd64 romPos (unzigzag delta) + len)).map fun rest ↦
                literal.take gap ++ (bytes ++ rest) := by
  cases refs with
  | nil => exact absurd rfl hne
  | cons byte refs =>
    rw [spliceCopies.eq_3 _ _ _ _ _ hne, readReference]
    cases readLeb128 (byte :: refs) with
    | none => rfl
    | some r =>
      obtain ⟨gap, refs⟩ := r
      dsimp only [Option.bind_eq_bind, Option.bind_some]
      cases readLeb128 refs with
      | none => rfl
      | some r =>
        obtain ⟨delta, refs⟩ := r
        dsimp only [Option.bind_some]
        cases readLeb128 refs with
        | none => rfl
        | some r => rfl

/-- **The loop ends by itself**: the fuel that `PayloadV9.dataInto` gives it is not what ends it. -/
theorem splicing (h : refs.length ≤ fuel) :
    Splicing rom refs literal romPos (spliceCopies rom fuel refs literal romPos) := by
  induction fuel generalizing refs literal romPos with
  | zero =>
    obtain rfl := List.eq_nil_of_length_eq_zero (Nat.le_zero.1 h)
    exact .done literal romPos
  | succ fuel ih =>
    by_cases hne : refs = []
    · subst hne
      exact .done literal romPos
    rw [spliceCopies_succ hne]
    cases hread : readReference refs with
    | none => exact .malformed hne hread
    | some r =>
      obtain ⟨⟨gap, delta, len⟩, refs'⟩ := r
      have hlength := length_of_readReference hread
      dsimp only
      by_cases hgap : literal.length < gap
      · rw [if_pos hgap]
        exact .pastLiteral hne hread hgap
      · rw [if_neg hgap]
        cases hslice : slice? rom (wrappingAdd64 romPos (unzigzag delta)) len with
        | none => exact .outside hne hread (Nat.not_lt.1 hgap) hslice
        | some bytes => exact .copy hne hread (Nat.not_lt.1 hgap) hslice (ih (by omega))

/-! ## The data stream -/

/-- The literal bytes in their order, with bytes that stand in the ROM in between. -/
inductive Spliced (rom : Bytes) : Bytes → Bytes → Prop where
  | literal (bytes : Bytes) : Spliced rom bytes bytes
  | copy {before rest bytes data : Bytes} {start len : Nat} : slice? rom start len = some bytes →
      Spliced rom rest data → Spliced rom (before ++ rest) (before ++ (bytes ++ data))

theorem Splicing.spliced {result : Except String Bytes} (h : Splicing rom refs literal romPos result)
    (hresult : result = .ok data) : Spliced rom literal data := by
  induction h generalizing data with
  | done literal romPos =>
    cases hresult
    exact .literal literal
  | malformed | pastLiteral | outside => cases hresult
  | @copy refs refs' literal bytes romPos gap delta len result _ _ _ hslice _ ih =>
    cases result with
    | error e => cases hresult
    | ok rest =>
      cases hresult
      have hspliced : ∀ before : Bytes,
          Spliced rom (before ++ literal.drop gap) (before ++ (bytes ++ rest)) :=
        fun before ↦ .copy hslice (ih rfl)
      have hwhole := hspliced (literal.take gap)
      rwa [List.take_append_drop] at hwhole

/-- **Rebuilding a data stream**: without references it is the literal bytes, without a ROM there must
be none, and with a ROM the loop over them ends, with an error or with a spliced stream. -/
theorem dataInto_spec (parts : PayloadV9) (rom : Option Bytes) :
    if parts.refs = [] then parts.dataInto rom = .ok parts.literal else
      match rom with
      | none => ∃ e, parts.dataInto none = .error e
      | some rom => Splicing rom parts.refs parts.literal 0 (parts.dataInto (some rom)) ∧
          ∀ data, parts.dataInto (some rom) = .ok data → Spliced rom parts.literal data := by
  by_cases hrefs : parts.refs = []
  · rw [if_pos hrefs, PayloadV9.dataInto.eq_def, if_pos (by rw [hrefs]; rfl)]
  · have hempty : ¬ parts.refs.isEmpty = true := fun h ↦ hrefs (List.isEmpty_iff.1 h)
    rw [if_neg hrefs]
    cases rom with
    | none =>
      rw [PayloadV9.dataInto.eq_def, if_neg hempty]
      exact ⟨_, rfl⟩
    | some rom =>
      have hsplicing : Splicing rom parts.refs parts.literal 0 (parts.dataInto (some rom)) := by
        rw [PayloadV9.dataInto.eq_def, if_neg hempty]
        exact splicing (Nat.le_refl _)
      exact ⟨hsplicing, fun data hdata ↦ hsplicing.spliced hdata⟩

end SuperShuckie
