import Mathlib

/-!
# Tiered deltas

Entries are added to a list one by one, each of a level.  An entry of the lowest level stands on its
own; every other one is a delta against the latest entry of at most its level.  The chain of an entry
is what has to be read to get it: the entry, its reference, the reference of that, down to one that
stands on its own.

With three levels and two counters that say when the next entry of level 0 or 1 is due
(`Counters.next`), no chain is long: see `Scheduled.exists_chain`.
-/

set_option autoImplicit false

namespace Tiers

section

variable {L : Type} [LinearOrder L] [OrderBot L]

/-- Entries with their references, and the latest entry of at most each level. -/
structure Tower (L : Type) where
  entries : List (L × Option Nat)
  latest : L → Option Nat

namespace Tower

def empty : Tower L := ⟨[], fun _ ↦ none⟩

/-- Add an entry. -/
def push (t : Tower L) (l : L) : Tower L :=
  { entries := t.entries ++ [(l, if l = ⊥ then none else t.latest l)]
    latest := fun m ↦ if l ≤ m then some t.entries.length else t.latest m }

/-- The tower of entries of the given levels. -/
def build (levels : List L) : Tower L := levels.foldl push empty

theorem build_append_singleton (levels : List L) (l : L) :
    build (levels ++ [l]) = (build levels).push l := by
  rw [build, List.foldl_append]
  rfl

theorem latest_push (t : Tower L) (l m : L) :
    (t.push l).latest m = if l ≤ m then some t.entries.length else t.latest m := rfl

theorem length_push (t : Tower L) (l : L) : (t.push l).entries.length = t.entries.length + 1 := by
  rw [push, List.length_append, List.length_singleton]

theorem length_build (levels : List L) : (build levels).entries.length = levels.length := by
  induction levels using List.reverseRecOn with
  | nil => rfl
  | append_singleton levels l ih =>
    rw [build_append_singleton, length_push, ih, List.length_append, List.length_singleton]

/-- Entries are never changed. -/
theorem entries_prefix {levels levels' : List L} (h : levels <+: levels') :
    (build levels).entries <+: (build levels').entries := by
  obtain ⟨more, rfl⟩ := h
  induction more using List.reverseRecOn with
  | nil => exact (List.append_nil levels).symm ▸ List.prefix_rfl
  | append_singleton more l ih =>
    rw [← List.append_assoc, build_append_singleton]
    exact ih.trans (List.prefix_append _ _)

end Tower

/-! ## Chains -/

/-- What has to be read to get entry `k`, from `k` down. -/
inductive Chain (entries : List (L × Option Nat)) : Nat → List Nat → Prop
  | own {k : Nat} {r : Option Nat} (h : entries[k]? = some (⊥, r)) : Chain entries k [k]
  | delta {k r : Nat} {l : L} {rest : List Nat} (h : entries[k]? = some (l, some r)) (hl : l ≠ ⊥)
      (hrest : Chain entries r rest) : Chain entries k (k :: rest)

variable {entries entries' : List (L × Option Nat)} {k : Nat} {chain : List Nat}

theorem Chain.mono (h : Chain entries k chain) (hbegins : entries <+: entries') :
    Chain entries' k chain := by
  have hkept : ∀ {i : Nat} {e : L × Option Nat}, entries[i]? = some e → entries'[i]? = some e := by
    intro i e he
    obtain ⟨more, rfl⟩ := hbegins
    rw [List.getElem?_append_left (List.getElem?_eq_some_iff.mp he).1]
    exact he
  induction h with
  | own h => exact .own (hkept h)
  | delta h hl _ ih => exact .delta (hkept h) hl ih

/-- The chain of an entry is in the first entries, up to it, where references point backwards. -/
theorem Chain.restrict (h : Chain entries' k chain) (hbegins : entries <+: entries')
    (hk : k < entries.length)
    (hback : ∀ (i : Nat) (l : L) (r : Nat), entries[i]? = some (l, some r) → r < i) :
    Chain entries k chain := by
  have hkept : ∀ {i : Nat} {e : L × Option Nat}, i < entries.length → entries'[i]? = some e →
      entries[i]? = some e := by
    intro i e hi he
    obtain ⟨more, rfl⟩ := hbegins
    rwa [List.getElem?_append_left hi] at he
  induction h with
  | own h => exact .own (hkept hk h)
  | delta h hl _ ih =>
    have hentry := hkept hk h
    exact .delta hentry hl (ih ((hback _ _ _ hentry).trans hk))

namespace Tower

variable {t : Tower L} {l : L}

/-- An entry on its own. -/
theorem chain_push_bot (t : Tower L) : Chain (t.push ⊥).entries t.entries.length
    [t.entries.length] := by
  refine .own (r := none) ?_
  rw [push, List.getElem?_concat_length, if_pos rfl]

/-- A delta is one more to read than its reference. -/
theorem chain_push {r : Nat} (hl : l ≠ ⊥) (hlatest : t.latest l = some r)
    (h : Chain t.entries r chain) :
    Chain (t.push l).entries t.entries.length (t.entries.length :: chain) := by
  refine .delta (r := r) ?_ hl (h.mono (List.prefix_append _ _))
  rw [push, List.getElem?_concat_length, if_neg hl, hlatest]

end Tower

end

/-! ## Three levels -/

/-- Whether there is an entry yet, and how many there are since the last one of level 0, and since
the last one of level 0 or 1. -/
structure Counters where
  started : Bool
  sinceLevel0 : Nat
  sinceLevel1 : Nat

-- the literals of `Fin 3` share this proof
instance neZero_three : NeZero 3 := ⟨by decide⟩

namespace Counters

def zero : Counters := ⟨false, 0, 0⟩

/-- The level of the next entry: 0 when it is asked for or `cap` entries lie behind the last one, 1
when `every` entries lie behind the last one of level 0 or 1. -/
def next (cap every : Nat) (c : Counters) (full : Bool) : Fin 3 :=
  if c.started = false ∨ full = true ∨ cap ≤ c.sinceLevel0 then 0
  else if every ≤ c.sinceLevel1 then 1
  else 2

/-- Count an entry. -/
def count (c : Counters) (level : Fin 3) : Counters :=
  { started := c.started || decide (level = 0)
    sinceLevel0 := if level = 0 then 0 else c.sinceLevel0 + 1
    sinceLevel1 := if level = 2 then c.sinceLevel1 + 1 else 0 }

end Counters

/-- The chains of the latest entries: `ones` entries of level 1 lie behind the last one of level 0,
and `twos` of level 2 behind these. -/
structure Rungs (t : Tower (Fin 3)) (ones twos : Nat) : Prop where
  bottom : ∃ r chain, t.latest 0 = some r ∧ Chain t.entries r chain ∧ chain.length = 1
  middle : ∃ r chain, t.latest 1 = some r ∧ Chain t.entries r chain ∧ chain.length = ones + 1
  top : ∃ r chain, t.latest 2 = some r ∧ Chain t.entries r chain ∧ chain.length = ones + twos + 1

variable {t : Tower (Fin 3)} {ones twos : Nat}

theorem Rungs.push_zero (t : Tower (Fin 3)) : Rungs (t.push 0) 0 0 := by
  have hchain := Tower.chain_push_bot t
  have hlatest : ∀ m, (t.push 0).latest m = some t.entries.length := fun m ↦ by
    rw [Tower.latest_push, if_pos (Fin.zero_le m)]
  exact ⟨⟨_, _, hlatest 0, hchain, rfl⟩, ⟨_, _, hlatest 1, hchain, rfl⟩,
    ⟨_, _, hlatest 2, hchain, rfl⟩⟩

/-- What the push of a higher level leaves as it was. -/
theorem Rungs.below {level m : Fin 3} {n : Nat} (hm : ¬ level ≤ m)
    (h : ∃ r chain, t.latest m = some r ∧ Chain t.entries r chain ∧ chain.length = n) :
    ∃ r chain, (t.push level).latest m = some r ∧ Chain (t.push level).entries r chain ∧
      chain.length = n := by
  obtain ⟨r, chain, hlatest, hchain, hlen⟩ := h
  exact ⟨r, chain, by rw [Tower.latest_push, if_neg hm, hlatest], hchain.mono (List.prefix_append _ _), hlen⟩

/-- What a push makes the latest entry. -/
theorem Rungs.above {level m : Fin 3} {n : Nat} (hm : level ≤ m) (hlevel : level ≠ 0)
    (h : ∃ r chain, t.latest level = some r ∧ Chain t.entries r chain ∧ chain.length = n) :
    ∃ r chain, (t.push level).latest m = some r ∧ Chain (t.push level).entries r chain ∧
      chain.length = n + 1 := by
  obtain ⟨r, chain, hlatest, hchain, hlen⟩ := h
  exact ⟨_, _, (Tower.latest_push t level m).trans (if_pos hm),
    Tower.chain_push hlevel hlatest hchain, by rw [List.length_cons, hlen]⟩

theorem Rungs.push_one (h : Rungs t ones twos) : Rungs (t.push 1) (ones + 1) 0 :=
  ⟨below (by decide) h.bottom, above (by decide) (by decide) h.middle,
    above (by decide) (by decide) h.middle⟩

theorem Rungs.push_two (h : Rungs t ones twos) : Rungs (t.push 2) ones (twos + 1) :=
  ⟨below (by decide) h.bottom, below (by decide) h.middle, by
    have htop := above (m := 2) (by decide) (by decide) h.top
    rwa [show ones + twos + 1 + 1 = ones + (twos + 1) + 1 by omega] at htop⟩

/-! ## The schedule -/

variable {a b cap : Nat} {c : Counters}

/-- The levels come from the schedule with a level 0 every `a * b` entries at most, and `b` entries
of level 2 before each of level 1. -/
structure Scheduled (a b : Nat) (levels : List (Fin 3)) (c : Counters) : Prop where
  fresh : c.started = false → levels = []
  rungs : c.started = true → ∃ ones, Rungs (Tower.build levels) ones c.sinceLevel1 ∧
    c.sinceLevel0 = ones * (b + 1) + c.sinceLevel1 ∧ c.sinceLevel1 ≤ b ∧ c.sinceLevel0 ≤ a * b
  chains : ∀ k < levels.length, ∃ chain, Chain (Tower.build levels).entries k chain ∧
    chain.length ≤ a + b

theorem Scheduled.nil : Scheduled a b [] Counters.zero :=
  ⟨fun _ ↦ rfl, (fun h ↦ by cases h), fun k hk ↦ absurd hk (Nat.not_lt_zero k)⟩

/-- There are fewer than `a` rungs of level 1: `b` entries lie between two of them. -/
theorem ones_lt (ha : 1 ≤ a) (h : ones * (b + 1) ≤ a * b) : ones < a := by
  by_contra hle
  have hmul : a * (b + 1) ≤ ones * (b + 1) := Nat.mul_le_mul_right _ (by omega)
  rw [Nat.mul_succ] at hmul
  omega

/-- The chains of the entries before the last one, and of that one. -/
theorem chains_append {levels : List (Fin 3)} {level : Fin 3} {n : Nat}
    (h : ∀ k < levels.length, ∃ chain, Chain (Tower.build levels).entries k chain ∧ chain.length ≤ n)
    (hlast : ∃ chain, Chain ((Tower.build levels).push level).entries levels.length chain ∧
      chain.length ≤ n) :
    ∀ k < (levels ++ [level]).length, ∃ chain,
      Chain (Tower.build (levels ++ [level])).entries k chain ∧ chain.length ≤ n := by
  intro k hk
  rw [List.length_append, List.length_singleton] at hk
  rw [Tower.build_append_singleton]
  by_cases hlt : k < levels.length
  · obtain ⟨chain, hchain, hlen⟩ := h k hlt
    exact ⟨chain, hchain.mono (List.prefix_append _ _), hlen⟩
  · rw [show k = levels.length by omega]
    exact hlast

/-- The chain of the last entry is that of the latest one. -/
theorem Rungs.last {level : Fin 3} {n : Nat}
    (h : ∃ r chain, (t.push level).latest 2 = some r ∧ Chain (t.push level).entries r chain ∧
      chain.length = n) :
    ∃ chain, Chain (t.push level).entries t.entries.length chain ∧ chain.length = n := by
  obtain ⟨r, chain, hlatest, hchain, hlen⟩ := h
  have hle : level ≤ 2 := Fin.le_last level
  rw [Tower.latest_push, if_pos hle] at hlatest
  cases hlatest
  exact ⟨chain, hchain, hlen⟩

/-- **One entry more.** -/
theorem Scheduled.next {levels : List (Fin 3)} (ha : 1 ≤ a) (hb : 1 ≤ b) (hcap : cap ≤ a * b)
    (h : Scheduled a b levels c) (full : Bool) :
    Scheduled a b (levels ++ [c.next cap b full]) (c.count (c.next cap b full)) := by
  have hlen := Tower.length_build levels
  by_cases hzero : c.started = false ∨ full = true ∨ cap ≤ c.sinceLevel0
  · rw [show c.next cap b full = 0 from if_pos hzero]
    have hrungs := Rungs.push_zero (Tower.build levels)
    obtain ⟨chain, hchain, hlength⟩ := Rungs.last hrungs.top
    refine ⟨fun hstart ↦ ?_, fun _ ↦ ⟨0, ?_, ?_, Nat.zero_le _, Nat.zero_le _⟩,
      chains_append h.chains ⟨chain, hlen ▸ hchain, by omega⟩⟩
    · simp [Counters.count] at hstart
    · rw [Tower.build_append_singleton]
      exact hrungs
    · simp [Counters.count]
  · obtain ⟨hstart, hnext⟩ := not_or.mp hzero
    obtain ⟨-, hsince⟩ := not_or.mp hnext
    obtain ⟨ones, hrungs, hcount, htwos, hle⟩ := h.rungs (Bool.eq_true_of_not_eq_false hstart)
    have hnotFresh : c.started = true := Bool.eq_true_of_not_eq_false hstart
    by_cases hone : b ≤ c.sinceLevel1
    · rw [show c.next cap b full = 1 from (if_neg hzero).trans (if_pos hone)]
      have hpush := hrungs.push_one
      obtain ⟨chain, hchain, hlength⟩ := Rungs.last hpush.top
      have hcount' : c.sinceLevel0 + 1 = (ones + 1) * (b + 1) := by
        rw [Nat.succ_mul]
        omega
      have hones : ones + 1 < a := ones_lt (b := b) ha (by omega)
      refine ⟨fun h ↦ ?_, fun _ ↦ ⟨ones + 1, ?_, ?_, Nat.zero_le _, ?_⟩,
        chains_append h.chains ⟨chain, hlen ▸ hchain, by omega⟩⟩
      · simp [Counters.count, hnotFresh] at h
      · rw [Tower.build_append_singleton]
        exact hpush
      · simpa [Counters.count] using hcount'
      · have hsum : (c.count 1).sinceLevel0 = c.sinceLevel0 + 1 := rfl
        omega
    · rw [show c.next cap b full = 2 from (if_neg hzero).trans (if_neg hone)]
      have hpush := hrungs.push_two
      obtain ⟨chain, hchain, hlength⟩ := Rungs.last hpush.top
      have hones : ones < a := ones_lt (b := b) ha (by omega)
      refine ⟨fun h ↦ ?_, fun _ ↦ ⟨ones, ?_, ?_, ?_, ?_⟩,
        chains_append h.chains ⟨chain, hlen ▸ hchain, by omega⟩⟩
      · simp [Counters.count, hnotFresh] at h
      · rw [Tower.build_append_singleton]
        exact hpush
      · simp [Counters.count]
        omega
      · simp [Counters.count]
        omega
      · simp [Counters.count]
        omega

/-- **No chain is long.** -/
theorem Scheduled.exists_chain {levels : List (Fin 3)} (h : Scheduled a b levels c) {k : Nat}
    (hk : k < levels.length) :
    ∃ chain, Chain (Tower.build levels).entries k chain ∧ chain.length ≤ a + b := h.chains k hk

end Tiers
