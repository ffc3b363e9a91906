import SuperShuckie.Lib.Fuel

/-!
# Actions that do not look at a part of the state

An action `x` commutes with a change `f` of the state if it does the same in a changed state as in
the state itself, and leaves the change of what it would have left.  So it cannot tell whether the
change was made.
-/

set_option autoImplicit false

/-- The outcome with the state changed. -/
def Outcome.mapState {ε σ α : Type} (f : σ → σ) : Outcome ε σ α → Outcome ε σ α
  | .ok a s => .ok a (f s)
  | .error e s => .error e (f s)
  | .abort => .abort

namespace Act

variable {ε σ α β : Type} {f : σ → σ}

/-- The action cannot tell whether the state has been changed by `f`. -/
def Commutes (f : σ → σ) (x : Act ε σ α) : Prop := ∀ s, x (f s) = (x s).mapState f

theorem Commutes.pure (a : α) : Commutes f (Pure.pure a : Act ε σ α) := fun _ ↦ rfl

theorem Commutes.fail (e : ε) : Commutes f (Act.fail e : Act ε σ α) := fun _ ↦ rfl

theorem Commutes.abort : Commutes f (Act.abort : Act ε σ α) := fun _ ↦ rfl

theorem Commutes.modify {g : σ → σ} (h : ∀ s, g (f s) = f (g s)) :
    Commutes f (Act.modify g : Act ε σ Unit) := by
  intro s
  rw [modify_apply, h]
  rfl

theorem Commutes.bind {x : Act ε σ α} {k : α → Act ε σ β} (hx : Commutes f x)
    (hk : ∀ a, Commutes f (k a)) : Commutes f (x >>= k) := by
  intro s
  rw [bind_apply, bind_apply, hx s]
  cases x s with
  | ok a t => exact hk a t
  | error e t => rfl
  | abort => rfl

/-- A look at the state, which does not show what `f` changes. -/
theorem Commutes.get_bind {k : σ → Act ε σ β} (hsame : ∀ s, k (f s) = k s)
    (hk : ∀ s, Commutes f (k s)) : Commutes f (Act.get >>= k) := by
  intro s
  rw [get_bind_apply, get_bind_apply, hsame]
  exact hk s s

theorem Commutes.ite {c : Prop} [Decidable c] {x y : Act ε σ α} (hx : Commutes f x)
    (hy : Commutes f y) : Commutes f (if c then x else y) := by
  by_cases h : c
  · rw [if_pos h]
    exact hx
  · rw [if_neg h]
    exact hy

theorem Commutes.when {c : Prop} [Decidable c] {x : Act ε σ Unit} (hx : Commutes f x) :
    Commutes f (Act.when c x) := .ite hx (.pure ())

theorem Commutes.attempt {x : Act ε σ α} (hx : Commutes f x) : Commutes f (Act.attempt x) := by
  intro s
  rw [Act.attempt, Act.attempt, hx s]
  cases x s <;> rfl

theorem Commutes.loop {body : β → Act ε σ (β ⊕ α)} (hbody : ∀ b, Commutes f (body b)) (n : Nat)
    (b : β) : Commutes f (Act.loop body n b) := by
  induction n generalizing b with
  | zero => exact .abort
  | succ n ih =>
    refine (hbody b).bind fun r ↦ ?_
    cases r with
    | inl b => exact ih b
    | inr a => exact .pure a

end Act
