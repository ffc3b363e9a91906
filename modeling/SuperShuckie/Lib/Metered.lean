import SuperShuckie.Lib.LittleEndian

/-!
# Decoders that note what they allocate

A `Metered ω ε α` takes a value off the front of a byte string, or fails, and keeps a log of the
allocations it made on the way, whether it fails or not.

* `Reads p bs a`: handed `bs` followed by anything at all, `p` takes exactly `bs` and returns `a`.
* `Refuses p bs`: handed `bs` followed by anything at all, `p` fails.
* `Exact write p`: what `p` takes for a value is what `write` writes for it.
* `Takes R p`: what `p` takes and the value it returns have the property `R`.
* `Spends P p`: each allocation that `p` ever makes has the property `P`.
* `Within cost p`: the bytes that `p` takes pay for what it allocates.
* `Pays cost spare p`: they pay for `spare` bytes more.
* `ReadsOut p bs a`: handed `bs` alone, `p` takes all of it and returns `a`.

Each of them composes along a sequence of decoders.
-/

set_option autoImplicit false

namespace ByteFormat

/-- A decoder of values of type `α`, with a log of type `ω` of its allocations. -/
def Metered (ω ε α : Type) := Bytes → Except ε (α × Bytes) × List ω

namespace Metered

variable {ω ε α β : Type}

/-- What `p` returns. -/
def result (p : Metered ω ε α) (bs : Bytes) : Except ε (α × Bytes) := (p bs).1

/-- What `p` allocates. -/
def log (p : Metered ω ε α) (bs : Bytes) : List ω := (p bs).2

protected def pure (a : α) : Metered ω ε α := fun bs ↦ (.ok (a, bs), [])

protected def bind (p : Metered ω ε α) (f : α → Metered ω ε β) : Metered ω ε β := fun bs ↦
  match p bs with
  | (.error e, log) => (.error e, log)
  | (.ok (a, rest), log) => ((f a rest).1, log ++ (f a rest).2)

instance : Monad (Metered ω ε) where
  pure := Metered.pure
  bind := Metered.bind

/-- Fail. -/
def fail (e : ε) : Metered ω ε α := fun _ ↦ (.error e, [])

/-- Allocate. -/
def alloc (a : ω) : Metered ω ε Unit := fun bs ↦ (.ok ((), bs), [a])

/-- The bytes that are left. -/
def left : Metered ω ε Bytes := fun bs ↦ (.ok (bs, bs), [])

/-- Take `n` bytes, or fail with `e` when fewer are left. -/
def take (e : ε) (n : Nat) : Metered ω ε Bytes := fun bs ↦
  if n ≤ bs.length then (.ok (bs.take n, bs.drop n), []) else (.error e, [])

/-- Take a byte array of `n` bytes, or fail with `e` when fewer are left. -/
def takeFixed (e : ε) (n : Nat) : Metered ω ε (FixedBytes n) := fun bs ↦
  if h : n ≤ bs.length then (.ok (⟨bs.take n, List.length_take_of_le h⟩, bs.drop n), [])
  else (.error e, [])

/-- A number of `k` bytes, the lowest first, or fail with `e` when fewer are left. -/
def number (e : ε) (k : Nat) : Metered ω ε Nat := do
  let bytes ← take e k
  pure (ofLeBytes bytes)

/-- Decode `n` values one after the other. -/
def repeated (p : Metered ω ε α) : Nat → Metered ω ε (List α)
  | 0 => pure []
  | n + 1 => do
    let a ← p
    let as ← repeated p n
    pure (a :: as)

/-! ## What a sequence of decoders does -/

variable {p : Metered ω ε α} {f : α → Metered ω ε β} {bs cs rest : Bytes} {a : α} {b : β}

/-- A sequence succeeds exactly if its parts do. -/
theorem bind_eq_ok : (p >>= f).result bs = .ok (b, rest) ↔
    ∃ a mid, p.result bs = .ok (a, mid) ∧ (f a).result mid = .ok (b, rest) := by
  show (Metered.bind p f bs).1 = _ ↔ _
  rw [Metered.bind, result]
  cases hp : p bs with
  | mk r log =>
    cases r with
    | error e => simp
    | ok r =>
      obtain ⟨a, mid⟩ := r
      simp [result]

theorem bind_of_ok {mid : Bytes} (h : p.result bs = .ok (a, mid)) :
    (p >>= f).result bs = (f a).result mid ∧ (p >>= f).log bs = p.log bs ++ (f a).log mid := by
  show (Metered.bind p f bs).1 = _ ∧ (Metered.bind p f bs).2 = _
  rw [result] at h
  cases hp : p bs with
  | mk r log =>
    rw [hp] at h
    cases h
    simp [Metered.bind, hp, result, Metered.log]

theorem bind_of_error {e : ε} (h : p.result bs = .error e) :
    (p >>= f).result bs = .error e ∧ (p >>= f).log bs = p.log bs := by
  show (Metered.bind p f bs).1 = _ ∧ (Metered.bind p f bs).2 = _
  rw [result] at h
  cases hp : p bs with
  | mk r log =>
    rw [hp] at h
    cases h
    simp [Metered.bind, hp, Metered.log]

/-! ## Reading back what was written -/

/-- `p` takes exactly `bs` off any byte string that starts with it, and returns `a`. -/
def Reads (p : Metered ω ε α) (bs : Bytes) (a : α) : Prop :=
  ∀ rest, p.result (bs ++ rest) = .ok (a, rest)

theorem reads_pure (a : α) : Reads (pure a : Metered ω ε α) [] a := fun _ ↦ rfl

theorem Reads.bind (hp : Reads p bs a) (hf : Reads (f a) cs b) : Reads (p >>= f) (bs ++ cs) b := by
  intro rest
  rw [List.append_assoc, (bind_of_ok (hp (cs ++ rest))).1]
  exact hf rest

/-- The last decoder of a sequence takes all that is left to take. -/
theorem Reads.bind_pure {g : α → β} (hp : Reads p bs a) :
    Reads (p >>= fun a ↦ pure (g a)) bs (g a) := by
  have h := hp.bind (f := fun a ↦ pure (g a)) (reads_pure (g a))
  rwa [List.append_nil] at h

/-- A decoder that goes on without taking anything. -/
theorem Reads.bind_nil (hp : Reads p [] a) (hf : Reads (f a) bs b) : Reads (p >>= f) bs b :=
  hp.bind hf

/-- A check that passes takes nothing. -/
theorem Reads.then_nil (hp : Reads p bs a) (hf : Reads (f a) [] b) : Reads (p >>= f) bs b := by
  have h := hp.bind hf
  rwa [List.append_nil] at h

theorem reads_alloc (x : ω) : Reads (alloc x : Metered ω ε Unit) [] () := fun _ ↦ rfl

theorem reads_take {e : ε} {n : Nat} (h : bs.length = n) :
    Reads (take e n : Metered ω ε Bytes) bs bs := by
  intro rest
  rw [result, take, if_pos (by rw [List.length_append]; omega), ← h]
  simp

theorem reads_number {e : ε} {k n : Nat} (h : n < 256 ^ k) :
    Reads (number e k : Metered ω ε Nat) (leBytes k n) n := by
  have hread : Reads (number e k : Metered ω ε Nat) (leBytes k n) (ofLeBytes (leBytes k n)) :=
    (reads_take (length_leBytes k n)).bind_pure
  rwa [ofLeBytes_leBytes h] at hread

theorem reads_takeFixed {n : Nat} (e : ε) (a : FixedBytes n) :
    Reads (takeFixed e n : Metered ω ε (FixedBytes n)) a.bytes a := by
  intro rest
  obtain ⟨bytes, rfl⟩ := a
  simp [takeFixed, result]

theorem reads_repeated {write : α → Bytes} {as : List α} (h : ∀ a ∈ as, Reads p (write a) a) :
    Reads (repeated p as.length) (as.flatMap write) as := by
  induction as with
  | nil => exact reads_pure []
  | cons a as ih =>
    have hrest := ih fun b hb ↦ h b (List.mem_cons_of_mem a hb)
    exact (h a List.mem_cons_self).bind (hrest.bind_pure (g := fun as ↦ a :: as))

/-- `p` takes all of `bs`, and returns `a`. -/
def ReadsOut (p : Metered ω ε α) (bs : Bytes) (a : α) : Prop := p.result bs = .ok (a, [])

theorem Reads.readsOut (h : Reads p bs a) : ReadsOut p bs a := by
  have hnil := h []
  rwa [List.append_nil] at hnil

/-- A sequence whose last decoder takes whatever is left. -/
theorem Reads.bind_readsOut (hp : Reads p bs a) (hf : ReadsOut (f a) cs b) :
    ReadsOut (p >>= f) (bs ++ cs) b := by
  rw [ReadsOut, (bind_of_ok (hp cs)).1]
  exact hf

/-! ## Refusing what was written -/

/-- `p` fails on every byte string that starts with `bs`. -/
def Refuses (p : Metered ω ε α) (bs : Bytes) : Prop :=
  ∀ rest, ∃ e, p.result (bs ++ rest) = .error e

theorem refuses_fail (e : ε) (bs : Bytes) : Refuses (fail e : Metered ω ε α) bs := fun _ ↦ ⟨e, rfl⟩

/-- A sequence fails where its first part does. -/
theorem Refuses.bind (hp : Refuses p bs) (cs : Bytes) : Refuses (p >>= f) (bs ++ cs) := by
  intro rest
  obtain ⟨e, he⟩ := hp (cs ++ rest)
  rw [← List.append_assoc] at he
  exact ⟨e, (bind_of_error he).1⟩

/-- A sequence fails where what follows a value does. -/
theorem Reads.bind_refuses (hp : Reads p bs a) (hf : Refuses (f a) cs) :
    Refuses (p >>= f) (bs ++ cs) := by
  intro rest
  obtain ⟨e, he⟩ := hf rest
  refine ⟨e, ?_⟩
  rw [List.append_assoc, (bind_of_ok (hp (cs ++ rest))).1, he]

/-- A check that does not pass. -/
theorem Reads.then_refuses (hp : Reads p bs a) (hf : Refuses (f a) []) : Refuses (p >>= f) bs := by
  have h := hp.bind_refuses hf
  rwa [List.append_nil] at h

/-- The last decoder of a sequence. -/
theorem Refuses.bind_last (hp : Refuses p bs) : Refuses (p >>= f) bs := by
  have h := hp.bind (f := f) []
  rwa [List.append_nil] at h

/-- Values one of which is refused. -/
theorem refuses_repeated {write : α → Bytes} {as : List α}
    (h : ∀ a ∈ as, Reads p (write a) a ∨ Refuses p (write a))
    (hsome : ∃ a ∈ as, ¬ Reads p (write a) a) :
    Refuses (repeated p as.length) (as.flatMap write) := by
  induction as with
  | nil =>
    obtain ⟨a, ha, -⟩ := hsome
    exact absurd ha List.not_mem_nil
  | cons a as ih =>
    rw [List.flatMap_cons]
    rcases h a List.mem_cons_self with hread | hrefuse
    · refine hread.bind_refuses (Refuses.bind_last (ih ?_ ?_))
      · exact fun b hb ↦ h b (List.mem_cons_of_mem a hb)
      · obtain ⟨b, hb, hnot⟩ := hsome
        rcases List.mem_cons.mp hb with rfl | hb
        · exact absurd hread hnot
        · exact ⟨b, hb, hnot⟩
    · exact hrefuse.bind _

/-! ## Taking only what is written -/

/-- What `p` takes for a value is what `write` writes for it. -/
def Exact (write : α → Bytes) (p : Metered ω ε α) : Prop :=
  ∀ ⦃bs a rest⦄, p.result bs = .ok (a, rest) → bs = write a ++ rest

theorem exact_take {e : ε} {n : Nat} (h : (take e n : Metered ω ε Bytes).result bs = .ok (cs, rest)) :
    bs = cs ++ rest ∧ cs.length = n := by
  rw [result, take] at h
  split at h
  · rename_i hle
    cases h
    exact ⟨(List.take_append_drop n bs).symm, List.length_take_of_le hle⟩
  · cases h

theorem exact_takeFixed (e : ε) (n : Nat) :
    Exact FixedBytes.bytes (takeFixed e n : Metered ω ε (FixedBytes n)) := by
  intro bs a rest h
  rw [result, takeFixed] at h
  split at h
  · cases h
    exact (List.take_append_drop n bs).symm
  · cases h

theorem Exact.repeated {write : α → Bytes} (hp : Exact write p) {n : Nat} {as : List α}
    (h : (repeated p n).result bs = .ok (as, rest)) :
    bs = as.flatMap write ++ rest ∧ as.length = n := by
  induction n generalizing bs as with
  | zero =>
    cases h
    exact ⟨rfl, rfl⟩
  | succ n ih =>
    obtain ⟨a, mid, ha, h⟩ := bind_eq_ok.mp h
    obtain ⟨as', mid', has, h⟩ := bind_eq_ok.mp h
    cases h
    obtain ⟨rfl, rfl⟩ := ih has
    rw [hp ha]
    exact ⟨by simp, rfl⟩

/-- What `p` takes, and the value that it returns for it, have the property `R`. -/
def Takes (R : Bytes → α → Prop) (p : Metered ω ε α) : Prop :=
  ∀ ⦃bs a rest⦄, p.result bs = .ok (a, rest) → ∃ taken, bs = taken ++ rest ∧ R taken a

theorem Exact.bind {write : α → Bytes} {R : Bytes → β → Prop} (hp : Exact write p)
    (hf : ∀ a, Takes (fun taken ↦ R (write a ++ taken)) (f a)) : Takes R (p >>= f) := by
  intro bs b rest h
  obtain ⟨a, mid, ha, h⟩ := bind_eq_ok.mp h
  obtain ⟨taken, rfl, hR⟩ := hf a h
  exact ⟨write a ++ taken, by rw [hp ha, List.append_assoc], hR⟩

theorem Exact.bind_pure {write : α → Bytes} {R : Bytes → β → Prop} {g : α → β}
    (hp : Exact write p) (hR : ∀ a, R (write a) (g a)) : Takes R (p >>= fun a ↦ pure (g a)) := by
  intro bs b rest h
  obtain ⟨a, mid, ha, ⟨⟩⟩ := bind_eq_ok.mp h
  exact ⟨write a, hp ha, hR a⟩

theorem Exact.of_takes {write : α → Bytes} (h : Takes (fun taken a ↦ taken = write a) p) :
    Exact write p := by
  intro bs a rest hp
  obtain ⟨taken, rfl, rfl⟩ := h hp
  rfl

/-! ## What is allocated -/

/-- Each allocation that `p` ever makes has the property `P`. -/
def Spends (P : ω → Prop) (p : Metered ω ε α) : Prop := ∀ bs, ∀ x ∈ p.log bs, P x

/-- The bytes that `p` takes pay for what it allocates. -/
def Within (cost : ω → Nat) (p : Metered ω ε α) : Prop :=
  ∀ bs, match p.result bs with
    | .ok (_, rest) => ((p.log bs).map cost).sum + rest.length ≤ bs.length
    | .error _ => ((p.log bs).map cost).sum ≤ bs.length

/-- The bytes that `p` takes pay for what it allocates and for `spare` bytes more. -/
def Pays (cost : ω → Nat) (spare : Nat) (p : Metered ω ε α) : Prop :=
  ∀ bs, match p.result bs with
    | .ok (_, rest) => ((p.log bs).map cost).sum + spare + rest.length ≤ bs.length
    | .error _ => ((p.log bs).map cost).sum ≤ bs.length

variable {P : ω → Prop} {cost : ω → Nat}

theorem Spends.of_log_eq_nil (h : ∀ bs, p.log bs = []) : Spends P p := by
  intro bs x hx
  rw [h bs] at hx
  cases hx

theorem Spends.bind (hp : Spends P p) (hf : ∀ a, Spends P (f a)) : Spends P (p >>= f) := by
  intro bs x hx
  cases h : p.result bs with
  | error e =>
    rw [(bind_of_error h).2] at hx
    exact hp bs x hx
  | ok r =>
    rw [(bind_of_ok h).2] at hx
    exact (List.mem_append.mp hx).elim (hp bs x) (hf r.1 r.2 x)

theorem pays_zero : Pays cost 0 p ↔ Within cost p := Iff.rfl

theorem Pays.bind {k l : Nat} (hp : Pays cost k p) (hf : ∀ a, Pays cost l (f a)) :
    Pays cost (k + l) (p >>= f) := by
  intro bs
  have hbs := hp bs
  cases h : p.result bs with
  | error e =>
    rw [(bind_of_error h).1, (bind_of_error h).2]
    rw [h] at hbs
    exact hbs
  | ok r =>
    obtain ⟨a, mid⟩ := r
    rw [(bind_of_ok h).1, (bind_of_ok h).2]
    rw [h] at hbs
    have hmid := hf a mid
    cases hf' : (f a).result mid with
    | error e =>
      rw [hf'] at hmid
      simp only [List.map_append, List.sum_append]
      dsimp only at hbs hmid
      omega
    | ok r =>
      rw [hf'] at hmid
      simp only [List.map_append, List.sum_append]
      dsimp only at hbs hmid
      omega

theorem Within.bind (hp : Within cost p) (hf : ∀ a, Within cost (f a)) : Within cost (p >>= f) :=
  pays_zero.1 ((pays_zero.2 hp).bind fun a ↦ pays_zero.2 (hf a))

/-- A decoder that allocates nothing, and leaves no more than it was given. -/
theorem Within.of_log_eq_nil (hlog : ∀ bs, p.log bs = [])
    (h : ∀ bs a rest, p.result bs = .ok (a, rest) → rest.length ≤ bs.length) : Within cost p := by
  intro bs
  rw [hlog bs]
  cases hbs : p.result bs with
  | error e => exact Nat.zero_le _
  | ok r => exact Nat.le_trans (Nat.le_of_eq (Nat.zero_add _)) (h bs r.1 r.2 hbs)

theorem spends_pure : Spends P (pure a : Metered ω ε α) := .of_log_eq_nil fun _ ↦ rfl

theorem within_pure : Within cost (pure a : Metered ω ε α) :=
  .of_log_eq_nil (fun _ ↦ rfl) fun _ _ _ h ↦ by
    cases h
    exact Nat.le_refl _

theorem spends_fail (e : ε) : Spends P (fail e : Metered ω ε α) := .of_log_eq_nil fun _ ↦ rfl

theorem within_fail (e : ε) : Within cost (fail e : Metered ω ε α) :=
  .of_log_eq_nil (fun _ ↦ rfl) fun _ _ _ h ↦ by cases h

theorem log_take (e : ε) (n : Nat) (bs : Bytes) : (take e n : Metered ω ε Bytes).log bs = [] := by
  rw [log, take]
  split <;> rfl

theorem spends_take (e : ε) (n : Nat) : Spends P (take e n : Metered ω ε Bytes) :=
  .of_log_eq_nil (log_take e n)

theorem within_take (e : ε) (n : Nat) : Within cost (take e n : Metered ω ε Bytes) :=
  .of_log_eq_nil (log_take e n) fun _ _ _ h ↦ by
    rw [(exact_take h).1, List.length_append]
    omega

theorem spends_number (e : ε) (k : Nat) : Spends P (number e k : Metered ω ε Nat) :=
  (spends_take e k).bind fun _ ↦ spends_pure

theorem log_takeFixed (e : ε) (n : Nat) (bs : Bytes) :
    (takeFixed e n : Metered ω ε (FixedBytes n)).log bs = [] := by
  rw [log, takeFixed]
  split <;> rfl

theorem spends_takeFixed (e : ε) (n : Nat) :
    Spends P (takeFixed e n : Metered ω ε (FixedBytes n)) := .of_log_eq_nil (log_takeFixed e n)

theorem within_takeFixed (e : ε) (n : Nat) :
    Within cost (takeFixed e n : Metered ω ε (FixedBytes n)) :=
  .of_log_eq_nil (log_takeFixed e n) fun _ _ _ h ↦ by
    rw [exact_takeFixed e n h, List.length_append]
    omega

/-! ## Paying ahead -/

theorem Pays.mono {spare spare' : Nat} (h : Pays cost spare p) (hle : spare' ≤ spare) :
    Pays cost spare' p := by
  intro bs
  have hbs := h bs
  cases hr : p.result bs with
  | error e =>
    rw [hr] at hbs
    exact hbs
  | ok r =>
    rw [hr] at hbs
    dsimp only at hbs ⊢
    omega

theorem Pays.within {spare : Nat} (h : Pays cost spare p) : Within cost p :=
  pays_zero.1 (h.mono (Nat.zero_le _))

/-- What was taken first pays for an allocation and for what goes on after it. -/
theorem Pays.bind_alloc {k l : Nat} {x : ω} (hp : Pays cost k p) (hx : cost x ≤ k)
    (hf : ∀ a, Pays cost l (f a)) :
    Pays cost (k - cost x + l) (p >>= fun a ↦ alloc x >>= fun _ ↦ f a) := by
  intro bs
  have hbs := hp bs
  cases h : p.result bs with
  | error e =>
    rw [(bind_of_error h).1, (bind_of_error h).2]
    rw [h] at hbs
    exact hbs
  | ok r =>
    obtain ⟨a, mid⟩ := r
    have halloc : (alloc x : Metered ω ε Unit).result mid = .ok ((), mid) := rfl
    have hlog : (alloc x : Metered ω ε Unit).log mid = [x] := rfl
    rw [(bind_of_ok h).1, (bind_of_ok h).2, (bind_of_ok halloc).1, (bind_of_ok halloc).2, hlog]
    rw [h] at hbs
    have hmid := hf a mid
    cases hf' : (f a).result mid with
    | error e =>
      rw [hf'] at hmid
      simp only [List.map_append, List.sum_append, List.map_cons, List.map_nil, List.sum_cons,
        List.sum_nil]
      dsimp only at hbs hmid
      omega
    | ok r =>
      rw [hf'] at hmid
      simp only [List.map_append, List.sum_append, List.map_cons, List.map_nil, List.sum_cons,
        List.sum_nil]
      dsimp only at hbs hmid
      omega

theorem pays_pure : Pays cost 0 (pure a : Metered ω ε α) := pays_zero.2 within_pure

theorem pays_fail {spare : Nat} (e : ε) : Pays cost spare (fail e : Metered ω ε α) := by
  intro bs
  exact Nat.zero_le _

theorem pays_take (e : ε) (n : Nat) : Pays cost n (take e n : Metered ω ε Bytes) := by
  intro bs
  rw [log_take]
  cases h : (take e n : Metered ω ε Bytes).result bs with
  | error e => exact Nat.zero_le _
  | ok r =>
    obtain ⟨cs, rest⟩ := r
    obtain ⟨hbs, hlen⟩ := exact_take h
    rw [hbs, List.length_append, hlen]
    simp

theorem Pays.repeated {spare : Nat} (hp : Pays cost spare p) (n : Nat) :
    Pays cost (n * spare) (repeated p n) := by
  induction n with
  | zero =>
    rw [Nat.zero_mul]
    exact pays_pure
  | succ n ih =>
    rw [Nat.succ_mul, Nat.add_comm]
    exact hp.bind fun _ ↦ ih.bind fun _ ↦ pays_pure

theorem pays_number (e : ε) (k : Nat) : Pays cost k (number e k : Metered ω ε Nat) :=
  (pays_take e k).bind fun _ ↦ pays_pure

theorem Spends.repeated (hp : Spends P p) (n : Nat) : Spends P (repeated p n) := by
  induction n with
  | zero => exact spends_pure
  | succ n ih => exact hp.bind fun _ ↦ ih.bind fun _ ↦ spends_pure

theorem Within.repeated (hp : Within cost p) (n : Nat) : Within cost (repeated p n) := by
  induction n with
  | zero => exact within_pure
  | succ n ih => exact hp.bind fun _ ↦ ih.bind fun _ ↦ within_pure

end Metered

end ByteFormat
