import SuperShuckie.Lib.Action

/-!
# Loops that are given fuel

`Act.loop` repeats an action until it says that it is done.  It is given a number of turns, and
aborts when they do not suffice; so what contains loops is a family of actions, one for each amount
of fuel.  `Total P x Q F` says that, from a state with `P`, some amount of fuel suffices for such a
family, that more changes nothing, and what holds afterwards.

A function that is given fuel and returns an option is simpler: it `Settles` on a result.
-/

set_option autoImplicit false

namespace Act

variable {ε σ α β : Type}

/-- Run an action under a condition. -/
def when (c : Prop) [Decidable c] (x : Act ε σ Unit) : Act ε σ Unit := if c then x else pure ()

/-- Repeat an action until it returns a result, for `fuel` turns at most. -/
def loop (body : β → Act ε σ (β ⊕ α)) : Nat → β → Act ε σ α
  | 0, _ => abort
  | fuel + 1, b => do
    match ← body b with
    | .inl b => loop body fuel b
    | .inr a => pure a

/-- `y` does what `x` does, unless `x` aborts. -/
def Approx (x y : Act ε σ α) : Prop := ∀ s, x s = .abort ∨ x s = y s

theorem Approx.refl (x : Act ε σ α) : Approx x x := fun _ ↦ .inr rfl

theorem Approx.bind {x y : Act ε σ α} {f g : α → Act ε σ β} (hx : Approx x y)
    (hf : ∀ a, Approx (f a) (g a)) : Approx (x >>= f) (y >>= g) := by
  intro s
  rw [bind_apply, bind_apply]
  rcases hx s with hs | hs
  · rw [hs]
    exact .inl rfl
  · rw [← hs]
    cases x s with
    | ok a t => exact hf a t
    | error e t => exact .inr rfl
    | abort => exact .inl rfl

theorem Approx.attempt {x y : Act ε σ α} (h : Approx x y) :
    Approx (Act.attempt x) (Act.attempt y) := by
  intro s
  rcases h s with hs | hs
  · exact .inl (by rw [Act.attempt, hs])
  · exact .inr (by rw [Act.attempt, Act.attempt, hs])

theorem approx_loop {body body' : β → Act ε σ (β ⊕ α)} (hbody : ∀ b, Approx (body b) (body' b))
    {m n : Nat} (h : m ≤ n) (b : β) : Approx (loop body m b) (loop body' n b) := by
  induction m generalizing n b with
  | zero => exact fun s ↦ .inl rfl
  | succ m ih =>
    cases n with
    | zero => omega
    | succ n =>
      refine (hbody b).bind fun r ↦ ?_
      cases r with
      | inl b => exact ih (Nat.le_of_succ_le_succ h) b
      | inr a => exact .refl _

/-- From a state with `P`, some amount of fuel suffices, and more changes nothing; the actions
return `a` in a state with `Q a`, or fail with `e` in one with `F e`. -/
structure Total (P : σ → Prop) (x : Nat → Act ε σ α) (Q : α → σ → Prop) (F : ε → σ → Prop) :
    Prop where
  mono : ∀ {m n : Nat}, m ≤ n → Approx (x m) (x n)
  ends : ∀ s, P s → ∃ n, x n s ≠ .abort
  triple : ∀ n, Triple P (x n) Q F

section Total

variable {P : σ → Prop} {Q : α → σ → Prop} {F : ε → σ → Prop} {x : Nat → Act ε σ α}

/-- What a family that needs no fuel has to do. -/
theorem Total.const {y : Act ε σ α} (h : ∀ s, P s → match y s with
    | .ok a t => Q a t
    | .error e t => F e t
    | .abort => False) : Total P (fun _ ↦ y) Q F := by
  refine ⟨fun _ ↦ .refl y, fun s hs ↦ ⟨0, fun habort ↦ ?_⟩, fun _ s hs ↦ ?_⟩
  · have := h s hs
    rw [habort] at this
    exact this
  · have := h s hs
    cases hy : y s <;> rw [hy] at this
    · exact this
    · exact this
    · exact this.elim

theorem Total.pure {a : α} (h : ∀ s, P s → Q a s) : Total P (fun _ ↦ Pure.pure a) Q F :=
  .const h

theorem Total.fail {e : ε} (h : ∀ s, P s → F e s) : Total P (fun _ ↦ Act.fail e) Q F :=
  .const h

theorem Total.modify {f : σ → σ} {R : Unit → σ → Prop} (h : ∀ s, P s → R () (f s)) :
    Total P (fun _ ↦ Act.modify f) R F :=
  .const h

theorem Total.conseq {P' : σ → Prop} {Q' : α → σ → Prop} {F' : ε → σ → Prop} (h : Total P x Q F)
    (hP : ∀ s, P' s → P s) (hQ : ∀ a s, Q a s → Q' a s) (hF : ∀ e s, F e s → F' e s) :
    Total P' x Q' F' :=
  ⟨h.mono, fun s hs ↦ h.ends s (hP s hs), fun n ↦ (h.triple n).conseq hP hQ hF⟩

theorem Total.pre {P' : σ → Prop} (h : Total P x Q F) (hP : ∀ s, P' s → P s) : Total P' x Q F :=
  h.conseq hP (fun _ _ h ↦ h) fun _ _ h ↦ h

theorem Total.post {Q' : α → σ → Prop} (h : Total P x Q F) (hQ : ∀ a s, Q a s → Q' a s) :
    Total P x Q' F :=
  h.conseq (fun _ h ↦ h) hQ fun _ _ h ↦ h

theorem Total.never_fails (h : Total P x Q fun _ _ ↦ False) : Total P x Q F :=
  h.conseq (fun _ h ↦ h) (fun _ _ h ↦ h) fun _ _ h ↦ h.elim

theorem Total.exists {ι : Type} [Inhabited ι] {P : ι → σ → Prop} (h : ∀ i, Total (P i) x Q F) :
    Total (fun s ↦ ∃ i, P i s) x Q F :=
  ⟨(h default).mono, fun s ⟨i, hi⟩ ↦ (h i).ends s hi, fun n s ⟨i, hi⟩ ↦ (h i).triple n s hi⟩

/-- A family may be looked at from one state at a time. -/
theorem Total.each (hmono : ∀ {m n : Nat}, m ≤ n → Approx (x m) (x n))
    (h : ∀ s, P s → Total (fun t ↦ t = s) x Q F) : Total P x Q F :=
  ⟨hmono, fun s hs ↦ (h s hs).ends s rfl, fun n s hs ↦ (h s hs).triple n s rfl⟩

/-- What is known of more than the state may be used. -/
theorem Total.assuming {p : Prop} {y : Act ε σ α} (h : p → Total P (fun _ ↦ y) Q F) :
    Total (fun s ↦ P s ∧ p) (fun _ ↦ y) Q F := by
  by_cases hp : p
  · exact (h hp).pre (fun _ hs ↦ hs.1)
  · exact .const fun _ hs ↦ (hp hs.2).elim

theorem Total.bind {f : Nat → α → Act ε σ β} {R : β → σ → Prop} (hx : Total P x Q F)
    (hf : ∀ a, Total (Q a) (fun n ↦ f n a) R F) : Total P (fun n ↦ x n >>= f n) R F := by
  refine ⟨fun h ↦ (hx.mono h).bind fun a ↦ (hf a).mono h, fun s hs ↦ ?_,
    fun n ↦ (hx.triple n).bind fun a ↦ (hf a).triple n⟩
  obtain ⟨m, hm⟩ := hx.ends s hs
  cases hrun : x m s with
  | ok a t =>
    obtain ⟨n, hn⟩ := (hf a).ends t ((hx.triple m).ok hs hrun)
    refine ⟨max m n, ?_⟩
    have hx' := (hx.mono (Nat.le_max_left m n) s).resolve_left hm
    have hf' := ((hf a).mono (Nat.le_max_right m n) t).resolve_left hn
    rw [bind_apply, ← hx', hrun]
    dsimp only at hf' ⊢
    rw [← hf']
    exact hn
  | error e t =>
    refine ⟨m, ?_⟩
    rw [bind_apply, hrun]
    exact fun h ↦ by cases h
  | abort => exact (hm hrun).elim

theorem Total.get_bind {f : Nat → σ → Act ε σ β} {R : β → σ → Prop}
    (h : ∀ s, P s → Total (fun t ↦ t = s) (fun n ↦ f n s) R F)
    (hmono : ∀ s {m n : Nat}, m ≤ n → Approx (f m s) (f n s)) :
    Total P (fun n ↦ Act.get >>= f n) R F :=
  ⟨fun hmn s ↦ hmono s hmn s, fun s hs ↦ (h s hs).ends s rfl, fun n s hs ↦ (h s hs).triple n s rfl⟩

theorem Total.when {c : Prop} [Decidable c] {x : Nat → Act ε σ Unit} {R : σ → Prop}
    (hx : c → Total P x (fun _ ↦ R) F) (hR : ¬ c → ∀ s, P s → R s) :
    Total P (fun n ↦ Act.when c (x n)) (fun _ ↦ R) F := by
  by_cases h : c
  · simp only [Act.when, if_pos h]
    exact hx h
  · simp only [Act.when, if_neg h]
    exact .pure (hR h)

theorem Total.attempt (h : Total P x Q F) :
    Total P (fun n ↦ Act.attempt (x n)) (fun r s ↦ match r with
      | .ok a => Q a s
      | .error e => F e s) (fun _ _ ↦ False) := by
  refine ⟨fun hmn ↦ (h.mono hmn).attempt, fun s hs ↦ ?_, fun n s hs ↦ ?_⟩
  · obtain ⟨n, hn⟩ := h.ends s hs
    refine ⟨n, ?_⟩
    rw [Act.attempt]
    cases hrun : x n s with
    | ok a t => exact fun h ↦ by cases h
    | error e t => exact fun h ↦ by cases h
    | abort => exact (hn hrun).elim
  · rw [Act.attempt]
    cases hrun : x n s with
    | ok a t => exact (h.triple n).ok hs hrun
    | error e t => exact (h.triple n).error hs hrun
    | abort => trivial

/-- **A loop ends** if something grows smaller with each turn. -/
theorem Total.loop {body : Nat → β → Act ε σ (β ⊕ α)} (J : Nat → β → σ → Prop)
    (h : ∀ k b, Total (J k b) (fun n ↦ body n b) (fun r t ↦ match r with
      | .inr a => Q a t
      | .inl b => ∃ k' < k, J k' b t) F) (b : β) :
    Total (fun s ↦ ∃ k, J k b s) (fun n ↦ Act.loop (body n) n b) Q F := by
  have hmono : ∀ {m n : Nat}, m ≤ n → ∀ b, Approx (body m b) (body n b) :=
    fun hmn b ↦ (h 0 b).mono hmn
  refine ⟨fun hmn ↦ approx_loop (hmono hmn) hmn b, fun s ⟨k, hk⟩ ↦ ?_, fun n ↦ ?_⟩
  · induction k using Nat.strongRecOn generalizing b s with
    | _ k ih =>
      obtain ⟨m, hm⟩ := (h k b).ends s hk
      cases hbody : body m b s with
      | ok r t =>
        have hturn := ((h k b).triple m).ok hk hbody
        cases r with
        | inl b' =>
          obtain ⟨k', hlt, hk'⟩ := hturn
          obtain ⟨n, hn⟩ := ih k' hlt b' t ⟨k', hk'⟩ hk'
          refine ⟨max m n + 1, ?_⟩
          have hle : m ≤ max m n + 1 := Nat.le_succ_of_le (Nat.le_max_left m n)
          have hbody' := (hmono hle b s).resolve_left hm
          have hmore := (approx_loop (hmono (Nat.le_succ_of_le (Nat.le_max_right m n)))
            (Nat.le_max_right m n) b' t).resolve_left hn
          rw [Act.loop, bind_apply, ← hbody', hbody]
          dsimp only
          rw [← hmore]
          exact hn
        | inr a =>
          have hbody' := (hmono (Nat.le_succ m) b s).resolve_left hm
          refine ⟨m + 1, ?_⟩
          rw [Act.loop, bind_apply, ← hbody', hbody]
          exact fun h ↦ by cases h
      | error e t =>
        have hbody' := (hmono (Nat.le_succ m) b s).resolve_left hm
        refine ⟨m + 1, ?_⟩
        rw [Act.loop, bind_apply, ← hbody', hbody]
        exact fun h ↦ by cases h
      | abort => exact (hm hbody).elim
  · have hloop : ∀ i b, Triple (fun s ↦ ∃ k, J k b s) (Act.loop (body n) i b) Q F := by
      intro i
      induction i with
      | zero => exact fun b ↦ Triple.abort
      | succ i ih =>
        rintro b s ⟨k, hk⟩
        rw [Act.loop, bind_apply]
        cases hbody : body n b s with
        | ok r t =>
          have hturn := ((h k b).triple n).ok hk hbody
          cases r with
          | inl b' =>
            obtain ⟨k', -, hk'⟩ := hturn
            exact ih b' t ⟨k', hk'⟩
          | inr a => exact hturn
        | error e t => exact ((h k b).triple n).error hk hbody
        | abort => trivial
    exact hloop n b

end Total

end Act

/-- With enough fuel, this is the result. -/
def Settles {α : Type} (f : Nat → Option α) (a : α) : Prop := ∃ n, ∀ fuel ≥ n, f fuel = some a

theorem Settles.const {α : Type} (a : α) : Settles (fun _ ↦ some a) a := ⟨0, fun _ _ ↦ rfl⟩

theorem Settles.bind {α β : Type} {f : Nat → Option α} {a : α} {g : Nat → α → Option β} {b : β}
    (hf : Settles f a) (hg : Settles (fun fuel ↦ g fuel a) b) :
    Settles (fun fuel ↦ f fuel >>= g fuel) b := by
  obtain ⟨m, hm⟩ := hf
  obtain ⟨n, hn⟩ := hg
  refine ⟨max m n, fun fuel hfuel ↦ ?_⟩
  dsimp only
  rw [hm fuel (by omega)]
  exact hn fuel (by omega)

theorem Settles.unique {α : Type} {f : Nat → Option α} {a b : α} (ha : Settles f a)
    (hb : Settles f b) : a = b := by
  obtain ⟨m, hm⟩ := ha
  obtain ⟨n, hn⟩ := hb
  have hboth := (hm (max m n) (by omega)).symm.trans (hn (max m n) (by omega))
  exact Option.some.inj hboth
