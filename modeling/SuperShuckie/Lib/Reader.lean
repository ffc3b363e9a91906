import Mathlib

/-!
# Readers of byte strings

A `Reader ε α` takes a value of type `α` off the front of a byte string, or fails with an error of
type `ε`.  It is a `StateT` over `Except`, so readers are written in `do` notation and an error
leaves at once.

Two properties of a reader matter to the formats built out of them.

* `Reads p bs a`: handed `bs` followed by anything at all, `p` takes exactly `bs` and returns `a`.
  A round trip is the statement `Reads p (write a) a`, and it composes: what a writer lays end to
  end, the readers in sequence take apart.
* `Stable p`: whatever `p` accepts, it accepts because of the bytes it took and nothing else.  This
  is what lets a prefix of a byte string be parsed before the rest of it is available.
-/

set_option autoImplicit false

namespace ByteFormat

/-- A byte string. -/
abbrev Bytes := List UInt8

/-- A reader of values of type `α` off the front of a byte string. -/
abbrev Reader (ε α : Type) := StateT Bytes (Except ε) α

namespace Reader

variable {ε α β : Type}

/-- `p` takes exactly `bs` off any byte string that starts with it, and returns `a`. -/
def Reads (p : Reader ε α) (bs : Bytes) (a : α) : Prop :=
  ∀ rest, p (bs ++ rest) = .ok (a, rest)

/-- What `p` takes alone decides that it is accepted and what is returned. -/
def Stable (p : Reader ε α) : Prop :=
  ∀ bs a rest, p bs = .ok (a, rest) → ∃ pre, bs = pre ++ rest ∧ Reads p pre a

/-! ## Sequencing -/

theorem bind_apply (p : Reader ε α) (f : α → Reader ε β) (bs : Bytes) :
    (p >>= f) bs = (p bs >>= fun r ↦ f r.1 r.2) := rfl

variable {p : Reader ε α} {bs : Bytes}

theorem bind_eq_ok {f : α → Reader ε β} {rest : Bytes} {b : β} :
    (p >>= f) bs = .ok (b, rest) ↔ ∃ a mid, p bs = .ok (a, mid) ∧ f a mid = .ok (b, rest) := by
  rw [bind_apply]
  cases p bs with
  | ok r => exact ⟨fun h ↦ ⟨r.1, r.2, rfl, h⟩, fun ⟨a, mid, hr, h⟩ ↦ by cases hr; exact h⟩
  | error e => exact ⟨fun h ↦ (by cases h), fun ⟨a, mid, hr, h⟩ ↦ by cases hr⟩

theorem reads_pure (a : α) : Reads (pure a : Reader ε α) [] a := fun _ ↦ rfl

theorem Reads.bind {f : α → Reader ε β} {cs : Bytes} {a : α} {b : β} (hp : Reads p bs a)
    (hf : Reads (f a) cs b) : Reads (p >>= f) (bs ++ cs) b := by
  intro rest
  rw [bind_apply, List.append_assoc, hp (cs ++ rest)]
  exact hf rest

/-- The last reader of a sequence takes all that is left to take. -/
theorem Reads.bind_pure {f : α → β} {a : α} (hp : Reads p bs a) :
    Reads (p >>= fun a ↦ pure (f a)) bs (f a) := by
  have h := hp.bind (f := fun a ↦ pure (f a)) (reads_pure (f a))
  rwa [List.append_nil] at h

theorem Reads.map {f : α → β} {a : α} (hp : Reads p bs a) :
    Reads (f <$> p) bs (f a) := fun rest ↦ by
  have h : (f <$> p) (bs ++ rest) = (fun r ↦ (f r.1, r.2)) <$> p (bs ++ rest) := rfl
  rw [h, hp rest]
  rfl

theorem stable_pure (a : α) : Stable (pure a : Reader ε α) := by
  intro bs a' rest h
  cases h
  exact ⟨[], rfl, reads_pure a⟩

theorem stable_throw (e : ε) : Stable (throw e : Reader ε α) := by
  intro bs a rest h
  cases h

theorem Stable.bind {f : α → Reader ε β} (hp : Stable p) (hf : ∀ a, Stable (f a)) :
    Stable (p >>= f) := by
  intro bs b rest h
  rw [bind_apply] at h
  cases hpb : p bs with
  | error e => rw [hpb] at h; cases h
  | ok r =>
    obtain ⟨a, mid⟩ := r
    rw [hpb] at h
    obtain ⟨pre, rfl, hpre⟩ := hp bs a mid hpb
    obtain ⟨suf, rfl, hsuf⟩ := hf a mid b rest h
    exact ⟨pre ++ suf, (List.append_assoc ..).symm, hpre.bind hsuf⟩

theorem Stable.map (f : α → β) (hp : Stable p) : Stable (f <$> p) := by
  intro bs b rest h
  have hmap : (f <$> p) bs = (fun r ↦ (f r.1, r.2)) <$> p bs := rfl
  rw [hmap] at h
  cases hpb : p bs with
  | error e => rw [hpb] at h; cases h
  | ok r =>
    rw [hpb] at h
    cases h
    obtain ⟨pre, hbs, hpre⟩ := hp bs r.1 r.2 hpb
    exact ⟨pre, hbs, hpre.map⟩

theorem Stable.ite {c : Prop} [Decidable c] {q : Reader ε α} (hp : Stable p) (hq : Stable q) :
    Stable (if c then p else q) := by
  split
  · exact hp
  · exact hq

/-- A stable reader that accepts `bs` accepts it in the same way whatever is appended to it. -/
theorem Stable.append (hp : Stable p) {rest : Bytes} {a : α} (h : p bs = .ok (a, rest))
    (more : Bytes) : p (bs ++ more) = .ok (a, rest ++ more) := by
  obtain ⟨pre, rfl, hpre⟩ := hp bs a rest h
  rw [List.append_assoc]
  exact hpre (rest ++ more)

/-- A stable reader never leaves more than it was given. -/
theorem Stable.length_le (hp : Stable p) {rest : Bytes} {a : α} (h : p bs = .ok (a, rest)) :
    rest.length ≤ bs.length := by
  obtain ⟨pre, rfl, -⟩ := hp bs a rest h
  simp

/-! ## What a reader returns -/

/-- Every value that `p` reads has the property `P`. -/
def Returns (P : α → Prop) (p : Reader ε α) : Prop := ∀ bs a rest, p bs = .ok (a, rest) → P a

theorem Returns.pure {P : α → Prop} {a : α} (h : P a) : Returns P (Pure.pure a : Reader ε α) := by
  intro bs b rest hb
  cases hb
  exact h

theorem Returns.throw {P : α → Prop} {e : ε} : Returns P (MonadExcept.throw e : Reader ε α) := by
  intro bs b rest hb
  cases hb

theorem Returns.bind {P : β → Prop} {f : α → Reader ε β} (h : ∀ a, Returns P (f a)) :
    Returns P (p >>= f) := by
  intro bs b rest hb
  rw [bind_apply] at hb
  cases hp : p bs with
  | error e => rw [hp] at hb; cases hb
  | ok r =>
    rw [hp] at hb
    exact h r.1 r.2 b rest hb

theorem Returns.map {P : β → Prop} {f : α → β} (h : ∀ a, P (f a)) : Returns P (f <$> p) := by
  intro bs b rest hb
  have hmap : (f <$> p) bs = (fun r ↦ (f r.1, r.2)) <$> p bs := rfl
  rw [hmap] at hb
  cases hp : p bs with
  | error e => rw [hp] at hb; cases hb
  | ok r =>
    rw [hp] at hb
    cases hb
    exact h r.1

/-! ## Taking bytes -/

/-- Take `n` bytes, or fail with `e` when fewer are left. -/
def takeBytes (e : ε) (n : Nat) : Reader ε Bytes := fun bs ↦
  if n ≤ bs.length then .ok (bs.take n, bs.drop n) else .error e

theorem reads_takeBytes (e : ε) (bs : Bytes) : Reads (takeBytes e bs.length) bs bs := by
  intro rest
  simp [takeBytes]

theorem reads_takeBytes_of_length {e : ε} {n : Nat} (h : bs.length = n) :
    Reads (takeBytes e n) bs bs := h ▸ reads_takeBytes e bs

theorem stable_takeBytes (e : ε) (n : Nat) : Stable (takeBytes e n) := by
  intro bs a rest h
  simp only [takeBytes] at h
  split at h
  · cases h
    refine ⟨bs.take n, (List.take_append_drop n bs).symm, ?_⟩
    exact reads_takeBytes_of_length (List.length_take_of_le ‹_›)
  · cases h

/-- Take a single byte, or fail with `e` at the end of the input. -/
def takeByte (e : ε) : Reader ε UInt8
  | [] => .error e
  | b :: rest => .ok (b, rest)

theorem reads_takeByte (e : ε) (b : UInt8) : Reads (takeByte e) [b] b := fun _ ↦ rfl

theorem stable_takeByte (e : ε) : Stable (takeByte e) := by
  intro bs a rest h
  cases bs with
  | nil => cases h
  | cons b bs => cases h; exact ⟨[a], rfl, reads_takeByte e a⟩

/-! ## Repetition -/

/-- Read `n` values one after the other. -/
def count (p : Reader ε α) : Nat → Reader ε (List α)
  | 0 => pure []
  | n + 1 => do
    let a ← p
    let as ← count p n
    pure (a :: as)

theorem reads_count {write : α → Bytes} {as : List α} (h : ∀ a ∈ as, Reads p (write a) a) :
    Reads (count p as.length) (as.flatMap write) as := by
  induction as with
  | nil => exact reads_pure []
  | cons a as ih =>
    have hrest := ih fun b hb ↦ h b (List.mem_cons_of_mem a hb)
    exact (h a List.mem_cons_self).bind (hrest.bind_pure (f := fun as ↦ a :: as))

theorem stable_count (hp : Stable p) (n : Nat) : Stable (count p n) := by
  induction n with
  | zero => exact stable_pure []
  | succ n ih => exact hp.bind fun _ ↦ ih.bind fun _ ↦ stable_pure _

/-! ## Byte arrays of a fixed length -/

end Reader

/-- A byte string of exactly `n` bytes. -/
structure FixedBytes (n : Nat) where
  bytes : Bytes
  length_eq : bytes.length = n
deriving DecidableEq

theorem FixedBytes.ext_bytes {n : Nat} {a b : FixedBytes n} (h : a.bytes = b.bytes) : a = b := by
  obtain ⟨a, ha⟩ := a
  obtain ⟨b, hb⟩ := b
  cases h
  rfl

/-- `n` zero bytes. -/
def FixedBytes.zero (n : Nat) : FixedBytes n := ⟨List.replicate n 0, List.length_replicate⟩

namespace Reader

variable {ε : Type}

/-- Take a byte array of `n` bytes, or fail with `e` when fewer are left. -/
def takeFixed (e : ε) (n : Nat) : Reader ε (FixedBytes n) := fun bs ↦
  if h : n ≤ bs.length then .ok (⟨bs.take n, List.length_take_of_le h⟩, bs.drop n) else .error e

theorem reads_takeFixed (e : ε) {n : Nat} (a : FixedBytes n) : Reads (takeFixed e n) a.bytes a := by
  intro rest
  obtain ⟨bytes, rfl⟩ := a
  simp [takeFixed]

end Reader

end ByteFormat
