import SuperShuckie.StoredPayload.Copies

/-!
# What merging ranges covers

`mergeRanges` adds offsets and lengths that come unfiltered from the emulator.  A range that ends
inside the 64-bit numbers is merged exactly.  One that reaches `2 ^ 64` is only kept as it is while it
starts past the end of all others: what is merged with it loses the last offset, and what is sorted
after it overflows.

* `covers_mergeSorted`: ranges that are `Clear` of each other are merged without loss;
* `clear_of_covers`: ranges whose merge loses nothing are `Clear` of each other;
* `merges_iff`: the two together, for every list of pairs of 64-bit numbers.
-/

set_option autoImplicit false

namespace SuperShuckie

/-- An offset lies in one of the ranges. -/
def InRanges (ranges : List (Nat × Nat)) (offset : Nat) : Prop :=
  ∃ r ∈ ranges, r.1 ≤ offset ∧ offset < r.1 + r.2

theorem not_covers_nil (offset : Nat) : ¬ InRanges [] offset := by
  rintro ⟨r, hr, -⟩
  exact absurd hr List.not_mem_nil

theorem covers_cons {r : Nat × Nat} {ranges : List (Nat × Nat)} {offset : Nat} :
    InRanges (r :: ranges) offset ↔ (r.1 ≤ offset ∧ offset < r.1 + r.2) ∨ InRanges ranges offset := by
  simp only [InRanges, List.exists_mem_cons_iff]

theorem covers_congr {a b : List (Nat × Nat)} {offset : Nat} (h : ∀ r, r ∈ a ↔ r ∈ b) :
    InRanges a offset ↔ InRanges b offset := by
  simp only [InRanges, h]

variable {ranges : List (Nat × Nat)}

/-- Empty ranges cover nothing. -/
theorem covers_filter {offset : Nat} :
    InRanges (ranges.filter fun r ↦ 0 < r.2) offset ↔ InRanges ranges offset := by
  constructor
  · rintro ⟨r, hr, hin⟩
    exact ⟨r, (List.mem_filter.1 hr).1, hin⟩
  · rintro ⟨r, hr, hin⟩
    have hlen : 0 < r.2 := by omega
    exact ⟨r, List.mem_filter.2 ⟨hr, by simpa using hlen⟩, hin⟩

/-- Of two ranges, one that reaches `2 ^ 64` starts past the end of the other. -/
def Clear (a b : Nat × Nat) : Prop :=
  (2 ^ 64 ≤ a.1 + a.2 → b.1 + b.2 < a.1) ∧ (2 ^ 64 ≤ b.1 + b.2 → a.1 + a.2 < b.1)

instance (a b : Nat × Nat) : Decidable (Clear a b) := inferInstanceAs (Decidable (_ ∧ _))

theorem Clear.symm {a b : Nat × Nat} (h : Clear a b) : Clear b a := ⟨h.2, h.1⟩

variable {last r : Nat × Nat} {merged rest : List (Nat × Nat)}

/-! ## Ranges clear of each other -/

/-- **Ranges clear of each other merge without loss**, and none becomes empty. -/
theorem covers_mergeSorted (hsorted : (last :: rest).Pairwise fun a b ↦ a.1 ≤ b.1)
    (hclear : (last :: rest).Pairwise Clear) (hpos : ∀ e ∈ last :: (merged ++ rest), 0 < e.2) :
    ∃ out, mergeSorted (last :: merged) rest = some out ∧ (∀ e ∈ out, 0 < e.2) ∧
      ∀ offset, InRanges out offset ↔ InRanges (last :: merged) offset ∨ InRanges rest offset := by
  induction rest generalizing last merged with
  | nil =>
    refine ⟨(last :: merged).reverse, by rw [mergeSorted], ?_, ?_⟩
    · intro e he
      rw [List.append_nil] at hpos
      exact hpos e (List.mem_reverse.1 he)
    · intro offset
      rw [covers_congr (fun e ↦ List.mem_reverse)]
      exact ⟨Or.inl, fun h ↦ h.resolve_right (not_covers_nil offset)⟩
  | cons r rest ih =>
    obtain ⟨hlast, hrest⟩ := List.pairwise_cons.1 hsorted
    obtain ⟨hr, hrest'⟩ := List.pairwise_cons.1 hrest
    obtain ⟨hlastClear, hrestClear⟩ := List.pairwise_cons.1 hclear
    obtain ⟨hrClear, hrestClear'⟩ := List.pairwise_cons.1 hrestClear
    have hle := hlast r List.mem_cons_self
    have hbefore := hlastClear r List.mem_cons_self
    have hfits : last.1 + last.2 < 2 ^ 64 := by
      by_contra hover
      have := hbefore.1 (by omega)
      omega
    have hlastPos := hpos last List.mem_cons_self
    have hrPos := hpos r (by simp)
    rw [mergeSorted, if_neg (by omega)]
    split_ifs with hinside
    · -- a range that touches the last one fits as well, and its end does not saturate
      have hends : r.1 + r.2 < 2 ^ 64 := by
        by_contra hover
        have := hbefore.2 (by omega)
        omega
      have hstop : min (r.1 + r.2) (2 ^ 64 - 1) = r.1 + r.2 := by omega
      rw [hstop]
      have hjoinedSorted : ((last.1, max last.2 (r.1 + r.2 - last.1)) :: rest).Pairwise
          fun a b ↦ a.1 ≤ b.1 :=
        List.pairwise_cons.2 ⟨fun e he ↦ hlast e (List.mem_cons_of_mem _ he), hrest'⟩
      have hjoinedClear : ((last.1, max last.2 (r.1 + r.2 - last.1)) :: rest).Pairwise Clear := by
        refine List.pairwise_cons.2 ⟨fun e he ↦ ⟨fun hover ↦ by omega, fun hover ↦ ?_⟩, hrestClear'⟩
        have hlastE := (hlastClear e (List.mem_cons_of_mem _ he)).2 hover
        have hrE := (hrClear e he).2 hover
        dsimp only
        omega
      obtain ⟨out, hout, houtPos, hcover⟩ := @ih _ merged hjoinedSorted hjoinedClear (by
        intro e he
        obtain rfl | he := List.mem_cons.1 he
        · dsimp only
          omega
        · refine hpos e (List.mem_cons_of_mem _ ?_)
          simp only [List.mem_append, List.mem_cons] at he ⊢
          tauto)
      refine ⟨out, hout, houtPos, fun offset ↦ ?_⟩
      have hjoin : (last.1 ≤ offset ∧ offset < last.1 + max last.2 (r.1 + r.2 - last.1)) ↔
          (last.1 ≤ offset ∧ offset < last.1 + last.2) ∨
            (r.1 ≤ offset ∧ offset < r.1 + r.2) := by omega
      rw [hcover, covers_cons, covers_cons, covers_cons, hjoin]
      exact (or_congr_left or_right_comm).trans or_assoc
    · obtain ⟨out, hout, houtPos, hcover⟩ := @ih r (last :: merged) hrest hrestClear (by
        intro e he
        refine hpos e ?_
        simp only [List.mem_append, List.mem_cons] at he ⊢
        tauto)
      refine ⟨out, hout, houtPos, fun offset ↦ ?_⟩
      rw [hcover, covers_cons, @covers_cons r rest]
      exact (or_congr_left or_comm).trans or_assoc

/-! ## Ranges merged without loss -/

/-- Once a merged range ends at the last number, all that follows joins it and the last offset is
lost. -/
theorem not_covers_of_saturated {out : List (Nat × Nat)} (hend : last.1 + last.2 = 2 ^ 64 - 1)
    (hmerged : ∀ e ∈ merged, e.1 + e.2 < 2 ^ 64) (hle : ∀ e ∈ rest, last.1 ≤ e.1)
    (hbelow : ∀ e ∈ rest, e.1 < 2 ^ 64) (hout : mergeSorted (last :: merged) rest = some out) :
    ¬ InRanges out (2 ^ 64 - 1) := by
  induction rest generalizing last with
  | nil =>
    rw [mergeSorted, Option.some.injEq] at hout
    rw [← hout, covers_congr (fun e ↦ List.mem_reverse)]
    rintro ⟨e, he, -, hlt⟩
    obtain rfl | he := List.mem_cons.1 he
    · omega
    · have := hmerged e he
      omega
  | cons r rest ih =>
    have hstart := hbelow r List.mem_cons_self
    have hafter := hle r List.mem_cons_self
    rw [mergeSorted, if_neg (by omega), if_pos (by omega)] at hout
    refine @ih (last.1, max last.2 (min (r.1 + r.2) (2 ^ 64 - 1) - last.1)) ?_
      (fun e he ↦ hle e (List.mem_cons_of_mem _ he))
      (fun e he ↦ hbelow e (List.mem_cons_of_mem _ he)) hout
    dsimp only
    omega

/-- **Ranges whose merge keeps the last offset are clear of each other.** -/
theorem clear_of_covers {out : List (Nat × Nat)}
    (hsorted : (last :: rest).Pairwise fun a b ↦ a.1 ≤ b.1) (hbelow : ∀ e ∈ rest, e.1 < 2 ^ 64)
    (hmerged : ∀ e ∈ merged, e.1 + e.2 < 2 ^ 64)
    (hout : mergeSorted (last :: merged) rest = some out)
    (hkept : InRanges rest (2 ^ 64 - 1) → InRanges out (2 ^ 64 - 1)) :
    (last :: rest).Pairwise Clear := by
  induction rest generalizing last merged with
  | nil => exact List.pairwise_singleton _ _
  | cons r rest ih =>
    obtain ⟨hlast, hrest⟩ := List.pairwise_cons.1 hsorted
    obtain ⟨hr, hrest'⟩ := List.pairwise_cons.1 hrest
    have hle := hlast r List.mem_cons_self
    have hlt := hbelow r List.mem_cons_self
    have hbelow' : ∀ e ∈ rest, e.1 < 2 ^ 64 := fun e he ↦ hbelow e (List.mem_cons_of_mem _ he)
    have hkept' : InRanges rest (2 ^ 64 - 1) → InRanges out (2 ^ 64 - 1) :=
      fun h ↦ hkept (covers_cons.2 (Or.inr h))
    rw [mergeSorted] at hout
    split_ifs at hout with hover hinside
    · by_cases hends : r.1 + r.2 < 2 ^ 64
      · have hstop : min (r.1 + r.2) (2 ^ 64 - 1) = r.1 + r.2 := by omega
        rw [hstop] at hout
        have hall := @ih (last.1, max last.2 (r.1 + r.2 - last.1)) merged (List.pairwise_cons.2
          ⟨fun e he ↦ hlast e (List.mem_cons_of_mem _ he), hrest'⟩) hbelow' hmerged hout hkept'
        obtain ⟨hjoined, hrestClear⟩ := List.pairwise_cons.1 hall
        refine List.pairwise_cons.2 ⟨?_, List.pairwise_cons.2 ⟨?_, hrestClear⟩⟩
        · intro e he
          obtain rfl | he := List.mem_cons.1 he
          · exact ⟨by omega, by omega⟩
          · have hjoinedE := (hjoined e he).2
            dsimp only at hjoinedE
            exact ⟨by omega, fun h ↦ by have := hjoinedE h; omega⟩
        · intro e he
          have hjoinedE := (hjoined e he).2
          dsimp only at hjoinedE
          exact ⟨by omega, fun h ↦ by have := hjoinedE h; omega⟩
      · have hlost : ¬ InRanges out (2 ^ 64 - 1) := by
          refine @not_covers_of_saturated
            (last.1, max last.2 (min (r.1 + r.2) (2 ^ 64 - 1) - last.1)) merged rest out ?_ hmerged
            (fun e he ↦ hlast e (List.mem_cons_of_mem _ he)) hbelow' hout
          dsimp only
          omega
        exact absurd (hkept (covers_cons.2 (Or.inl ⟨by omega, by omega⟩))) hlost
    · have hmerged' : ∀ e ∈ last :: merged, e.1 + e.2 < 2 ^ 64 := by
        intro e he
        obtain rfl | he := List.mem_cons.1 he
        · omega
        · exact hmerged e he
      refine List.pairwise_cons.2 ⟨?_, ih hrest hbelow' hmerged' hout hkept'⟩
      intro e he
      have hstart : r.1 ≤ e.1 := by
        obtain rfl | he := List.mem_cons.1 he
        · exact Nat.le_refl _
        · exact hr e he
      exact ⟨by omega, by omega⟩

/-! ## Merging pairs of 64-bit numbers -/

/-- The ranges as the emulator reports them. -/
def romRanges (reads : List (UInt64 × UInt64)) : List (Nat × Nat) :=
  reads.map fun r ↦ (r.1.toNat, r.2.toNat)

/-- Merging does not overflow, leaves ranges that are not empty with gaps between them, and covers
what it was given. -/
def Merges (ranges : List (Nat × Nat)) : Prop :=
  ∃ out, mergeRanges ranges = some out ∧ RomIndex.Apart out ∧ (∀ r ∈ out, 0 < r.2) ∧
    ∀ offset < 2 ^ 64, InRanges out offset ↔ InRanges ranges offset

theorem mem_sortedRanges : r ∈ sortedRanges ranges ↔ r ∈ ranges.filter fun r ↦ 0 < r.2 :=
  List.mem_insertionSort _

theorem covers_sortedRanges {ranges : List (Nat × Nat)} {offset : Nat} :
    InRanges (sortedRanges ranges) offset ↔ InRanges ranges offset :=
  (covers_congr fun _ ↦ mem_sortedRanges).trans covers_filter

theorem pairwise_clear_sortedRanges :
    (sortedRanges ranges).Pairwise Clear ↔ (ranges.filter fun r ↦ 0 < r.2).Pairwise Clear :=
  (List.perm_insertionSort _ _).pairwise_iff Clear.symm

/-- **`merge_ranges` keeps the covered set exactly when** every range that reaches `2 ^ 64` starts
past the end of all others that are not empty. -/
theorem merges_iff (reads : List (UInt64 × UInt64)) :
    Merges (romRanges reads) ↔
      ((romRanges reads).filter fun r ↦ 0 < r.2).Pairwise Clear := by
  have hbelow : ∀ r ∈ sortedRanges (romRanges reads), r.1 < 2 ^ 64 := by
    intro r hr
    obtain ⟨read, -, rfl⟩ := List.mem_map.1 (mem_of_mem_sortedRanges hr)
    exact read.1.toNat_lt
  have hpos : ∀ r ∈ sortedRanges (romRanges reads), 0 < r.2 := by
    intro r hr
    simpa using (List.mem_filter.1 (mem_sortedRanges.1 hr)).2
  have hsorted := pairwise_sortedRanges (romRanges reads)
  have hcovers := @covers_sortedRanges (romRanges reads)
  rw [← pairwise_clear_sortedRanges, Merges, mergeRanges_eq]
  generalize hs : sortedRanges (romRanges reads) = sorted at *
  cases sorted with
  | nil =>
    refine ⟨fun _ ↦ List.Pairwise.nil, fun _ ↦ ⟨[], rfl, List.Pairwise.nil, by simp, ?_⟩⟩
    exact fun offset _ ↦ hcovers
  | cons first rest =>
    rw [mergeSorted]
    constructor
    · rintro ⟨out, hout, -, -, hcover⟩
      refine clear_of_covers hsorted (fun e he ↦ hbelow e (List.mem_cons_of_mem _ he)) (by simp)
        hout fun h ↦ ?_
      exact (hcover _ (by decide)).2 (hcovers.1 (covers_cons.2 (Or.inr h)))
    · intro hclear
      obtain ⟨out, hout, houtPos, hcover⟩ := @covers_mergeSorted first [] rest hsorted
        hclear (by simpa using hpos)
      refine ⟨out, hout, apart_mergeSorted (List.pairwise_singleton _ _) hout, houtPos, ?_⟩
      intro offset _
      rw [hcover, ← hcovers, covers_cons, covers_cons]
      exact or_congr_left (or_iff_left (not_covers_nil offset))

/-- Two reads near the end of the address space: the second reaches `2 ^ 64` and joins the first,
and the last offset is lost. -/
theorem not_merges_joined :
    ¬ Merges (romRanges [(18446744073709551612, 2), (18446744073709551613, 10)]) := by
  rintro ⟨out, hout, -, -, hcover⟩
  have hmerged : mergeRanges (romRanges [(18446744073709551612, 2), (18446744073709551613, 10)]) =
      some [(18446744073709551612, 3)] := by decide
  rw [hmerged, Option.some.injEq] at hout
  obtain ⟨r, hr, -, hlt⟩ := (hcover (2 ^ 64 - 1) (by decide)).2
    ⟨(18446744073709551613, 10), by decide, by decide, by decide⟩
  rw [← hout, List.mem_singleton] at hr
  rw [hr] at hlt
  omega

end SuperShuckie
