import Mathlib

/-!
# Stateful actions that may fail half way

An `Act ε σ α` runs on a state of type `σ`.  It returns a value and the state it leaves; or it
fails with an error, and leaves the state it had reached when it failed; or it aborts, after which
there is no state.  This is what a method that changes a value in place and returns a result does:
an error does not undo the changes made before it.

`bind_eq_ok` and `bind_eq_error` take a sequence of actions apart; they are all a proof about a
sequence needs.  `attempt` runs an action and returns its result, so that an error can be looked at
later.  `focus` runs an action on a part of the state.

An action may use its state as a cache.  `Computes I x r` says that it does nothing else: as long as
the invariant `I` holds, `x` keeps it and returns `r`, or fails when `r` is `none`, whatever the
state is.

`Hoare P x Q E` is the rule for pre- and postconditions; it allows `x` to fail, in a state with `E`.
`Triple P x Q E` is the same with an `E` that looks at the error too.
-/

set_option autoImplicit false

/-- A result that passes a test is one. -/
theorem exists_ok_of_any {ε α : Type} {e : Except ε α} {f : α → Bool}
    (h : e.toOption.any f = true) : ∃ a, e = .ok a ∧ f a = true := by
  cases e with
  | ok a => exact ⟨a, rfl, h⟩
  | error e => cases h

/-- How an action ends. -/
inductive Outcome (ε σ α : Type) where
  | ok (value : α) (state : σ)
  | error (error : ε) (state : σ)
  | abort

/-- Whether the action succeeded, with a value and a state that pass a test. -/
def Outcome.any {ε σ α : Type} (f : α → σ → Bool) : Outcome ε σ α → Bool
  | .ok a s => f a s
  | _ => false

theorem Outcome.exists_ok_of_any {ε σ α : Type} {o : Outcome ε σ α} {f : α → σ → Bool}
    (h : o.any f = true) : ∃ a s, o = .ok a s ∧ f a s = true := by
  cases o with
  | ok a s => exact ⟨a, s, rfl, h⟩
  | error e s => cases h
  | abort => cases h

/-- The action did not abort, and left a state with `I`. -/
def Outcome.Leaves {ε σ α : Type} (I : σ → Prop) : Outcome ε σ α → Prop
  | .ok _ s => I s
  | .error _ s => I s
  | .abort => False

/-- An action on a state of type `σ`. -/
def Act (ε σ α : Type) := σ → Outcome ε σ α

namespace Act

variable {ε σ α β : Type}

protected def pure (a : α) : Act ε σ α := fun s ↦ .ok a s

protected def bind (x : Act ε σ α) (f : α → Act ε σ β) : Act ε σ β := fun s ↦
  match x s with
  | .ok a s => f a s
  | .error e s => .error e s
  | .abort => .abort

instance : Monad (Act ε σ) where
  pure := Act.pure
  bind := Act.bind

/-- Fail, leaving the state as it is. -/
def fail (e : ε) : Act ε σ α := fun s ↦ .error e s

/-- Abort the program. -/
def abort : Act ε σ α := fun _ ↦ .abort

/-- Look at the state. -/
def get : Act ε σ σ := fun s ↦ .ok s s

/-- Change the state. -/
def modify (f : σ → σ) : Act ε σ Unit := fun s ↦ .ok () (f s)

/-- Run an action and return its result, an error included. -/
def attempt (x : Act ε σ α) : Act ε σ (Except ε α) := fun s ↦
  match x s with
  | .ok a s => .ok (.ok a) s
  | .error e s => .ok (.error e) s
  | .abort => .abort

/-- Run an action on the part of the state that `part` finds, which must be there. -/
def focus {τ : Type} (part : σ → Option τ) (put : τ → σ → σ) (x : Act ε τ α) : Act ε σ α :=
  fun s ↦
    match part s with
    | none => .abort
    | some t =>
      match x t with
      | .ok a t => .ok a (put t s)
      | .error e t => .error e (put t s)
      | .abort => .abort

/-- A result computed without the state. -/
def ofExcept : Except ε α → Act ε σ α
  | .ok a => pure a
  | .error e => fail e

/-! ## What a sequence did -/

theorem pure_apply (a : α) (s : σ) : (pure a : Act ε σ α) s = .ok a s := rfl

theorem bind_apply (x : Act ε σ α) (f : α → Act ε σ β) (s : σ) : (x >>= f) s = match x s with
      | .ok a s => f a s
      | .error e s => .error e s
      | .abort => .abort := rfl

@[simp] theorem fail_apply (e : ε) (s : σ) : (fail e : Act ε σ α) s = .error e s := rfl

@[simp] theorem get_bind_apply (f : σ → Act ε σ β) (s : σ) : (get >>= f) s = f s s := rfl

@[simp] theorem modify_bind_apply (g : σ → σ) (f : Unit → Act ε σ β) (s : σ) :
    (modify g >>= f) s = f () (g s) := rfl

@[simp] theorem modify_apply (g : σ → σ) (s : σ) : (modify g : Act ε σ Unit) s = .ok () (g s) := rfl

@[simp] theorem pure_bind_apply (a : α) (f : α → Act ε σ β) (s : σ) :
    ((pure a : Act ε σ α) >>= f) s = f a s := rfl

theorem map_apply (g : α → β) (x : Act ε σ α) (s : σ) : (g <$> x) s = match x s with
      | .ok a s => .ok (g a) s
      | .error e s => .error e s
      | .abort => .abort := rfl

theorem bind_assoc_apply {γ : Type} (x : Act ε σ α) (f : α → Act ε σ β)
    (g : β → Act ε σ γ) (s : σ) : ((x >>= f) >>= g) s = (x >>= fun a ↦ f a >>= g) s := by
  simp only [bind_apply]
  cases x s <;> rfl

variable {s t : σ}

theorem bind_eq_ok {x : Act ε σ α} {f : α → Act ε σ β} {b : β} :
    (x >>= f) s = .ok b t ↔ ∃ a u, x s = .ok a u ∧ f a u = .ok b t := by
  rw [bind_apply]
  cases x s <;> simp

theorem bind_eq_error {x : Act ε σ α} {f : α → Act ε σ β} {e : ε} : (x >>= f) s = .error e t ↔
      x s = .error e t ∨ ∃ a u, x s = .ok a u ∧ f a u = .error e t := by
  rw [bind_apply]
  cases x s <;> simp

/-- The first turn of a loop. -/
theorem forM_cons_of_ok {f : β → Act ε σ Unit} {b : β} {l : List β} (h : f b s = .ok () t) :
    (b :: l).forM f s = l.forM f t := by
  have hfirst : (b :: l).forM f = (f b >>= fun _ ↦ l.forM f) := rfl
  rw [hfirst, bind_apply, h]

/-- A loop that fails in its first turn. -/
theorem forM_cons_of_error {f : β → Act ε σ Unit} {b : β} {l : List β} {e : ε}
    (h : f b s = .error e t) : (b :: l).forM f s = .error e t := by
  have hfirst : (b :: l).forM f = (f b >>= fun _ ↦ l.forM f) := rfl
  rw [hfirst, bind_apply, h]

/-- The first turns of a loop. -/
theorem forM_append_of_ok {f : β → Act ε σ Unit} {l l' : List β} (h : l.forM f s = .ok () t) :
    (l ++ l').forM f s = l'.forM f t := by
  induction l generalizing s with
  | nil =>
    cases h
    rfl
  | cons b l ih =>
    have hfirst : (b :: l).forM f = (f b >>= fun _ ↦ l.forM f) := rfl
    rw [hfirst] at h
    obtain ⟨⟨⟩, u, hb, hl⟩ := bind_eq_ok.mp h
    rw [List.cons_append, forM_cons_of_ok hb]
    exact ih hl

/-- A loop that fails in its first turns. -/
theorem forM_append_of_error {f : β → Act ε σ Unit} {l l' : List β} {e : ε}
    (h : l.forM f s = .error e t) : (l ++ l').forM f s = .error e t := by
  induction l generalizing s with
  | nil => cases h
  | cons b l ih =>
    have hfirst : (b :: l).forM f = (f b >>= fun _ ↦ l.forM f) := rfl
    rw [hfirst] at h
    rcases bind_eq_error.mp h with hb | ⟨⟨⟩, u, hb, hl⟩
    · exact forM_cons_of_error hb
    · rw [List.cons_append, forM_cons_of_ok hb]
      exact ih hl

theorem attempt_eq_ok {x : Act ε σ α} {r : Except ε α} : attempt x s = .ok r t ↔
      (∃ a, r = .ok a ∧ x s = .ok a t) ∨ (∃ e, r = .error e ∧ x s = .error e t) := by
  rw [attempt]
  cases x s with
  | ok a u => simp [eq_comm]
  | error e u => simp [eq_comm]
  | abort => simp

theorem attempt_ne_error {x : Act ε σ α} {e : ε} : attempt x s ≠ .error e t := by
  rw [attempt]
  cases x s <;> simp

/-! ## Actions that compute a value -/

/-- An outcome with the value `r`, or a failure when `r` is `none`, that keeps the invariant `I`. -/
def Gives (I : σ → Prop) (r : Option α) (o : Outcome ε σ α) : Prop :=
  match r with
  | some a => ∃ t, o = .ok a t ∧ I t
  | none => ∃ e t, o = .error e t ∧ I t

/-- Under the invariant `I`, which it keeps, `x` returns `r`; or it fails, when `r` is `none`. -/
def Computes (I : σ → Prop) (x : Act ε σ α) (r : Option α) : Prop := ∀ s, I s → Gives I r (x s)

theorem Computes.pure {I : σ → Prop} (a : α) : Computes I (Pure.pure a : Act ε σ α) (some a) :=
  fun s hs ↦ ⟨s, rfl, hs⟩

theorem Computes.bind {I : σ → Prop} {x : Act ε σ α} {f : α → Act ε σ β} {r : Option α}
    {g : α → Option β} (hx : Computes I x r) (hf : ∀ a, r = some a → Computes I (f a) (g a)) :
    Computes I (x >>= f) (r >>= g) := by
  intro s hs
  have h := hx s hs
  cases r with
  | none =>
    obtain ⟨e, t, hxs, ht⟩ := h
    exact ⟨e, t, by rw [bind_apply, hxs], ht⟩
  | some a =>
    obtain ⟨t, hxs, ht⟩ := h
    have h' := hf a rfl t ht
    have hstep : (x >>= f) s = f a t := by rw [bind_apply, hxs]
    rw [hstep]
    exact h'

theorem Computes.focus {τ : Type} {I : σ → Prop} {J : τ → Prop} {part : σ → Option τ}
    {put : τ → σ → σ} {x : Act ε τ α} {r : Option α} (hx : Computes J x r)
    (hpart : ∀ s, I s → ∃ t, part s = some t ∧ J t)
    (hput : ∀ s t, I s → J t → I (put t s)) : Computes I (Act.focus part put x) r := by
  intro s hs
  obtain ⟨t, hts, ht⟩ := hpart s hs
  have h := hx t ht
  cases r with
  | none =>
    obtain ⟨e, u, hxt, hu⟩ := h
    exact ⟨e, put u s, by rw [Act.focus, hts]; simp only [hxt], hput s u hs hu⟩
  | some a =>
    obtain ⟨u, hxt, hu⟩ := h
    exact ⟨put u s, by rw [Act.focus, hts]; simp only [hxt], hput s u hs hu⟩

/-! ## Pre- and postconditions -/

/-- Run in a state with `P`, the action returns `a` in a state with `Q a`, or fails in a state with
`E`, unless it aborts. -/
def Hoare (P : σ → Prop) (x : Act ε σ α) (Q : α → σ → Prop) (E : σ → Prop) : Prop :=
  ∀ s, P s → match x s with
    | .ok a t => Q a t
    | .error _ t => E t
    | .abort => True

/-- Like `Hoare`, where what holds after a failure may depend on the error. -/
def Triple (P : σ → Prop) (x : Act ε σ α) (Q : α → σ → Prop) (E : ε → σ → Prop) : Prop :=
  ∀ s, P s → match x s with
    | .ok a t => Q a t
    | .error e t => E e t
    | .abort => True

section Hoare

variable {P : σ → Prop} {Q : α → σ → Prop} {E : σ → Prop} {x : Act ε σ α}

theorem Hoare.ok (h : Hoare P x Q E) {s t : σ} {a : α} (hs : P s) (hx : x s = .ok a t) : Q a t := by
  have := h s hs
  rwa [hx] at this

theorem Hoare.error (h : Hoare P x Q E) {s t : σ} {e : ε} (hs : P s) (hx : x s = .error e t) :
    E t := by
  have := h s hs
  rwa [hx] at this

theorem Hoare.intro (hok : ∀ s a t, P s → x s = .ok a t → Q a t)
    (herror : ∀ s e t, P s → x s = .error e t → E t) : Hoare P x Q E := by
  intro s hs
  cases hx : x s with
  | ok a t => exact hok s a t hs hx
  | error e t => exact herror s e t hs hx
  | abort => trivial

theorem Hoare.pure {a : α} (h : ∀ s, P s → Q a s) :
    Hoare P (Pure.pure a : Act ε σ α) Q E := fun s hs ↦ h s hs

theorem Hoare.fail {e : ε} (h : ∀ s, P s → E s) : Hoare P (Act.fail e : Act ε σ α) Q E :=
  fun s hs ↦ h s hs

theorem Hoare.abort : Hoare P (Act.abort : Act ε σ α) Q E := fun _ _ ↦ trivial

theorem Hoare.modify {f : σ → σ} {R : Unit → σ → Prop} (h : ∀ s, P s → R () (f s)) :
    Hoare P (Act.modify f : Act ε σ Unit) R E := fun s hs ↦ h s hs

theorem Hoare.bind {f : α → Act ε σ β} {R : β → σ → Prop} (hx : Hoare P x Q E)
    (hf : ∀ a, Hoare (Q a) (f a) R E) : Hoare P (x >>= f) R E := by
  intro s hs
  rw [bind_apply]
  cases hxs : x s with
  | ok a t => exact hf a t (hx.ok hs hxs)
  | error e t => exact hx.error hs hxs
  | abort => trivial

theorem Hoare.conseq {P' : σ → Prop} {Q' : α → σ → Prop} (h : Hoare P x Q E)
    (hP : ∀ s, P' s → P s) (hQ : ∀ a s, Q a s → Q' a s) : Hoare P' x Q' E := by
  intro s hs
  have := h s (hP s hs)
  split at this
  · exact hQ _ _ this
  · exact this
  · trivial

/-- A loop keeps what its body keeps. -/
theorem Hoare.forM {I : σ → Prop} {f : β → Act ε σ Unit} {l : List β}
    (h : ∀ b ∈ l, Hoare I (f b) (fun _ ↦ I) E) : Hoare I (l.forM f) (fun _ ↦ I) E := by
  induction l with
  | nil => exact Hoare.pure fun _ hs ↦ hs
  | cons b l ih =>
    exact (h b List.mem_cons_self).bind fun _ ↦ ih fun b hb ↦ h b (List.mem_cons_of_mem _ hb)

theorem Hoare.of_leaves {I : σ → Prop} (h : ∀ s, P s → (x s).Leaves I) :
    Hoare P x (fun _ ↦ I) I := by
  refine Hoare.intro (fun s a t hs hx ↦ ?_) fun s e t hs hx ↦ ?_
  · have hleaves := h s hs
    rwa [hx] at hleaves
  · have hleaves := h s hs
    rwa [hx] at hleaves

section Triple

variable {F : ε → σ → Prop}

theorem Triple.ok (h : Triple P x Q F) {s t : σ} {a : α} (hs : P s) (hx : x s = .ok a t) :
    Q a t := by
  have := h s hs
  rwa [hx] at this

theorem Triple.error (h : Triple P x Q F) {s t : σ} {e : ε} (hs : P s) (hx : x s = .error e t) :
    F e t := by
  have := h s hs
  rwa [hx] at this

theorem Triple.pure {a : α} (h : ∀ s, P s → Q a s) :
    Triple P (Pure.pure a : Act ε σ α) Q F := fun s hs ↦ h s hs

theorem Triple.fail {e : ε} (h : ∀ s, P s → F e s) : Triple P (Act.fail e : Act ε σ α) Q F :=
  fun s hs ↦ h s hs

theorem Triple.abort : Triple P (Act.abort : Act ε σ α) Q F := fun _ _ ↦ trivial

theorem Triple.modify {f : σ → σ} {R : Unit → σ → Prop} (h : ∀ s, P s → R () (f s)) :
    Triple P (Act.modify f : Act ε σ Unit) R F := fun s hs ↦ h s hs

theorem Triple.bind {f : α → Act ε σ β} {R : β → σ → Prop} (hx : Triple P x Q F)
    (hf : ∀ a, Triple (Q a) (f a) R F) : Triple P (x >>= f) R F := by
  intro s hs
  rw [bind_apply]
  cases hxs : x s with
  | ok a t => exact hf a t (hx.ok hs hxs)
  | error e t => exact hx.error hs hxs
  | abort => trivial

theorem Triple.modify_bind {g : σ → σ} {f : Unit → Act ε σ β} {P' : σ → Prop} {R : β → σ → Prop}
    (hg : ∀ s, P s → P' (g s)) (hf : Triple P' (f ()) R F) :
    Triple P (Act.modify g >>= f) R F := fun s hs ↦ hf (g s) (hg s hs)

/-- After a look at the state, what held of it still holds. -/
theorem Triple.get_bind {f : σ → Act ε σ β} {R : β → σ → Prop}
    (h : ∀ s, P s → Triple (fun t ↦ t = s) (f s) R F) : Triple P (Act.get >>= f) R F :=
  fun s hs ↦ h s hs s rfl

theorem Triple.conseq {P' : σ → Prop} {Q' : α → σ → Prop} {F' : ε → σ → Prop}
    (h : Triple P x Q F) (hP : ∀ s, P' s → P s) (hQ : ∀ a s, Q a s → Q' a s)
    (hF : ∀ e s, F e s → F' e s) : Triple P' x Q' F' := by
  intro s hs
  have := h s (hP s hs)
  split at this
  · exact hQ _ _ this
  · exact hF _ _ this
  · trivial

theorem Triple.pre {P' : σ → Prop} (h : Triple P x Q F) (hP : ∀ s, P' s → P s) : Triple P' x Q F :=
  h.conseq hP (fun _ _ h ↦ h) fun _ _ h ↦ h

end Triple

end Hoare

end Act
