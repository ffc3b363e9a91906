import Mathlib

/-!
# Calls that fail or panic

A call gives a value or an error, or panics.  `Gives` and `Returns` say which; `gives_bind` and
`returns_bind` take a sequence of calls apart, so that it panics exactly where one of them does.
-/

set_option autoImplicit false

/-- What a call gives: a value, an error, or, as `none`, a panic. -/
abbrev Fallible (ε : Type) := ExceptT ε Option

/-- What a parser gives: its errors are messages. -/
abbrev Parsed := Fallible String

namespace Fallible

variable {ε α β : Type}

/-- The call panics. -/
def panics : Fallible ε α := ExceptT.mk none

/-- A value that is there, or an error. -/
def okOr : Option α → ε → Fallible ε α
  | some a, _ => pure a
  | none, message => throw message

/-- A step that may only panic. -/
def slice (o : Option α) : Fallible ε α := ExceptT.lift o

/-- The call does not panic. -/
def Returns (x : Fallible ε α) : Prop := ∃ result, x.run = some result

/-- The call gives a value. -/
def Gives (x : Fallible ε α) (a : α) : Prop := x.run = some (.ok a)

/-- The call gives an error. -/
def Fails (x : Fallible ε α) (e : ε) : Prop := x.run = some (.error e)

variable {x : Fallible ε α} {f : α → Fallible ε β} {a : α} {b : β}

theorem gives_pure : Gives (pure b : Fallible ε β) b := rfl

@[simp] theorem gives_pure_iff {a b : β} : Gives (pure a : Fallible ε β) b ↔ a = b := by
  change some (Except.ok a : Except ε β) = some (Except.ok b) ↔ a = b
  rw [Option.some.injEq, Except.ok.injEq]

variable {message : ε} {o : Option α}

@[simp] theorem not_gives_throw : ¬ Gives (throw message : Fallible ε β) b := by
  change ¬ some (Except.error message : Except ε β) = some (Except.ok b)
  simp

@[simp] theorem not_fails_pure {e : ε} : ¬ Fails (pure b : Fallible ε β) e := by
  change ¬ some (Except.ok b : Except ε β) = some (Except.error e)
  simp

@[simp] theorem fails_throw_iff {e e' : ε} : Fails (throw e : Fallible ε β) e' ↔ e = e' := by
  change some (Except.error e : Except ε β) = some (Except.error e') ↔ e = e'
  rw [Option.some.injEq, Except.error.injEq]

@[simp] theorem returns_pure : Returns (pure b : Fallible ε β) := ⟨_, rfl⟩

@[simp] theorem returns_throw : Returns (throw message : Fallible ε β) := ⟨_, rfl⟩

theorem run_bind (x : Fallible ε α) (f : α → Fallible ε β) : (x >>= f).run = match x.run with
      | none => none
      | some (.error message) => some (.error message)
      | some (.ok a) => (f a).run := by
  rw [ExceptT.run_bind]
  cases x.run with
  | none => rfl
  | some result => cases result <;> rfl

/-- A sequence gives what its second part gives on the first part's value. -/
theorem gives_bind : Gives (x >>= f) b ↔ ∃ a, Gives x a ∧ Gives (f a) b := by
  rw [Gives, run_bind]
  cases hx : x.run with
  | none => simp [Gives, hx]
  | some result => cases result <;> simp [Gives, hx]

/-- **A sequence panics exactly where one of its parts does.** -/
theorem returns_bind : Returns (x >>= f) ↔ Returns x ∧ ∀ a, Gives x a → Returns (f a) := by
  rw [Returns, run_bind]
  cases hx : x.run with
  | none => simp [Returns, hx]
  | some result => cases result <;> simp [Returns, Gives, hx]

/-- A sequence fails where its first part does, or its second part on the first part's value. -/
theorem fails_bind {e : ε} : Fails (x >>= f) e ↔ Fails x e ∨ ∃ a, Gives x a ∧ Fails (f a) e := by
  rw [Fails, run_bind]
  cases hx : x.run with
  | none => simp [Fails, Gives, hx]
  | some result => cases result <;> simp [Fails, Gives, hx]

@[simp] theorem returns_map (g : α → β) : Returns (g <$> x) ↔ Returns x := by
  rw [map_eq_pure_bind, returns_bind]
  simp

@[simp] theorem okOr_some : okOr (some a) message = pure a := rfl

@[simp] theorem slice_some : (slice (some a) : Fallible ε α) = pure a := rfl

@[simp] theorem not_returns_panics : ¬ Returns (panics : Fallible ε α) := by
  simp [Returns, panics]

@[simp] theorem not_gives_panics : ¬ Gives (panics : Fallible ε α) a := by
  simp [Gives, panics]

@[simp] theorem gives_okOr : Gives (okOr o message) a ↔ o = some a := by
  cases o <;> simp [okOr]

@[simp] theorem returns_okOr : Returns (okOr o message) := by
  cases o <;> simp [okOr]

@[simp] theorem gives_slice : Gives (slice o : Fallible ε α) a ↔ o = some a := by
  cases o <;> simp [slice, Gives]

@[simp] theorem not_fails_slice {e : ε} : ¬ Fails (slice o : Fallible ε α) e := by
  cases o <;> simp [slice, Fails]

end Fallible
