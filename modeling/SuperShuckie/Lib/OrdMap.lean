import Mathlib

/-!
# Ordered maps

A map from a linear order, kept as the list of its entries in the order of their keys.  The order is
part of the structure, so two maps with the same entries are equal and iterating over one gives the
keys in order.
-/

set_option autoImplicit false

/-- A finite map whose entries are listed by increasing key. -/
structure OrdMap (κ α : Type) [LinearOrder κ] where
  entries : List (κ × α)
  sorted : entries.Pairwise fun a b ↦ a.1 < b.1

namespace OrdMap

variable {κ α : Type} [LinearOrder κ]

/-- The map without entries. -/
def empty : OrdMap κ α := ⟨[], .nil⟩

/-- The value at a key. -/
def get? (m : OrdMap κ α) (k : κ) : Option α := (m.entries.find? fun e ↦ e.1 = k).map Prod.snd

/-- Set the value at `k` to `f` of the value that is there, if there is one. -/
def alterEntries (k : κ) (f : Option α → α) : List (κ × α) → List (κ × α)
  | [] => [(k, f none)]
  | e :: es =>
    if k < e.1 then (k, f none) :: e :: es
    else if k = e.1 then (k, f (some e.2)) :: es
    else e :: alterEntries k f es

variable {es : List (κ × α)}

theorem mem_alterEntries {k : κ} {f : Option α → α} {e : κ × α} (h : e ∈ alterEntries k f es) :
    e.1 = k ∨ e ∈ es := by
  induction es with
  | nil =>
    rw [alterEntries, List.mem_singleton] at h
    exact .inl (h ▸ rfl)
  | cons e' es ih =>
    rw [alterEntries] at h
    split at h
    · rcases List.mem_cons.mp h with rfl | h
      · exact .inl rfl
      · exact .inr h
    · split at h
      · rcases List.mem_cons.mp h with rfl | h
        · exact .inl rfl
        · exact .inr (List.mem_cons_of_mem _ h)
      · rcases List.mem_cons.mp h with rfl | h
        · exact .inr List.mem_cons_self
        · rcases ih h with h | h
          · exact .inl h
          · exact .inr (List.mem_cons_of_mem _ h)

theorem sorted_alterEntries (k : κ) (f : Option α → α) (h : es.Pairwise fun a b ↦ a.1 < b.1) :
    (alterEntries k f es).Pairwise fun a b ↦ a.1 < b.1 := by
  induction es with
  | nil => exact List.pairwise_singleton _ _
  | cons e es ih =>
    have htail := (List.pairwise_cons.mp h).1
    rw [alterEntries]
    split
    · rename_i hlt
      refine List.Pairwise.cons (fun e' he' ↦ ?_) h
      rcases List.mem_cons.mp he' with rfl | he'
      · exact hlt
      · exact lt_trans hlt (htail e' he')
    · split
      · rename_i heq
        subst heq
        exact List.Pairwise.cons (fun e' he' ↦ htail e' he') h.of_cons
      · rename_i hnlt hne
        refine List.Pairwise.cons (fun e' he' ↦ ?_) (ih h.of_cons)
        rcases mem_alterEntries he' with hk | he'
        · rw [hk]
          exact lt_of_le_of_ne (not_lt.mp hnlt) (Ne.symm hne)
        · exact htail e' he'

/-- Set the value at `k` to `f` of the value that is there, if there is one. -/
def alter (m : OrdMap κ α) (k : κ) (f : Option α → α) : OrdMap κ α :=
  ⟨alterEntries k f m.entries, sorted_alterEntries k f m.sorted⟩

/-! ## Looking up -/

/-- The value at a key of some entries. -/
def getEntries (k : κ) (es : List (κ × α)) : Option α :=
  (es.find? fun e ↦ e.1 = k).map Prod.snd

theorem getEntries_cons (k : κ) (e : κ × α) (es : List (κ × α)) :
    getEntries k (e :: es) = if e.1 = k then some e.2 else getEntries k es := by
  rw [getEntries, List.find?_cons]
  by_cases h : e.1 = k
  · simp [h]
  · simp [h, getEntries]

/-- A key below all keys of some entries is not among them. -/
theorem getEntries_eq_none {k : κ} (h : ∀ e ∈ es, k < e.1) : getEntries k es = none := by
  induction es with
  | nil => rfl
  | cons e es ih =>
    rw [getEntries_cons, if_neg (ne_of_gt (h e List.mem_cons_self)), ih fun e' he' ↦
      h e' (List.mem_cons_of_mem _ he')]

theorem getEntries_alterEntries (k k' : κ) (f : Option α → α)
    (h : es.Pairwise fun a b ↦ a.1 < b.1) : getEntries k' (alterEntries k f es) =
      if k' = k then some (f (getEntries k es)) else getEntries k' es := by
  induction es with
  | nil =>
    rw [alterEntries, getEntries_cons]
    by_cases hk : k' = k
    · rw [if_pos hk, if_pos hk.symm]
      rfl
    · rw [if_neg hk, if_neg fun h ↦ hk h.symm]
  | cons e es ih =>
    obtain ⟨htail, hes⟩ := List.pairwise_cons.mp h
    rw [alterEntries]
    split
    · rename_i hlt
      have hnone : getEntries k (e :: es) = none := getEntries_eq_none fun e' he' ↦ by
        rcases List.mem_cons.mp he' with rfl | he'
        · exact hlt
        · exact lt_trans hlt (htail e' he')
      rw [getEntries_cons, hnone]
      by_cases hk : k' = k
      · rw [if_pos hk, if_pos hk.symm]
      · rw [if_neg hk, if_neg fun h ↦ hk h.symm]
    · split
      · rename_i heq
        rw [getEntries_cons, getEntries_cons, getEntries_cons, if_pos heq.symm]
        by_cases hk : k' = k
        · rw [if_pos hk, if_pos hk.symm]
        · rw [if_neg hk, if_neg fun h ↦ hk h.symm, if_neg fun h ↦ hk (h.symm.trans heq.symm)]
      · rename_i hne
        have hne' : ¬ e.1 = k := fun h ↦ hne h.symm
        rw [getEntries_cons, getEntries_cons, getEntries_cons, ih hes, if_neg hne']
        by_cases hk : k' = k
        · subst hk
          rw [if_neg hne', if_pos rfl, if_pos rfl]
        · rw [if_neg hk, if_neg hk]

theorem get?_alter (m : OrdMap κ α) (k k' : κ) (f : Option α → α) :
    (m.alter k f).get? k' = if k' = k then some (f (m.get? k)) else m.get? k' :=
  getEntries_alterEntries k k' f m.sorted

/-- Set the value at `k`. -/
def insert (m : OrdMap κ α) (k : κ) (a : α) : OrdMap κ α := m.alter k fun _ ↦ a

/-- The entries whose keys satisfy a condition. -/
def filter (m : OrdMap κ α) (p : κ → Bool) : OrdMap κ α :=
  ⟨m.entries.filter fun e ↦ p e.1, m.sorted.filter _⟩

theorem get?_insert (m : OrdMap κ α) (k k' : κ) (a : α) :
    (m.insert k a).get? k' = if k' = k then some a else m.get? k' :=
  get?_alter m k k' fun _ ↦ a

theorem get?_filter (m : OrdMap κ α) (p : κ → Bool) (k : κ) :
    (m.filter p).get? k = if p k then m.get? k else none := by
  show getEntries k (m.entries.filter fun e ↦ p e.1) = if p k then getEntries k m.entries else none
  induction m.entries with
  | nil => rw [List.filter_nil, getEntries, List.find?_nil, Option.map_none, ite_self]
  | cons e es ih =>
    rw [List.filter_cons]
    by_cases he : p e.1
    · rw [if_pos he, getEntries_cons, getEntries_cons, ih]
      by_cases hk : e.1 = k
      · rw [if_pos hk, if_pos hk, if_pos (hk ▸ he)]
      · rw [if_neg hk, if_neg hk]
    · rw [if_neg he, getEntries_cons, ih]
      by_cases hk : e.1 = k
      · rw [if_neg (hk ▸ he), if_neg (hk ▸ he)]
      · rw [if_neg hk]

/-- The map with the given entries, a later one replacing an earlier one with the same key. -/
def ofList (es : List (κ × α)) : OrdMap κ α := es.foldl (fun m e ↦ m.insert e.1 e.2) empty

end OrdMap
