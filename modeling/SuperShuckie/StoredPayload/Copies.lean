import SuperShuckie.StoredPayload.RomIndex

/-!
# Copies of ROM bytes

What a keyframe's data stream shares with the game's ROM, from the ranges the game read to the stream
a player rebuilds:

* `mergeSorted_eq_none`, `apart_mergeRanges`: merging ranges leaves gaps between them, and overflows
  exactly on `Overruns`;
* `copiesFrom_findCopies`: whatever an index answers, the copies found are in order, apart and equal
  to the ROM bytes they name;
* `restores_of_copiesFrom`: a payload of such copies gives back its control and its data;
* `romCopies_roundTrip`: the whole of it.
-/

set_option autoImplicit false

namespace SuperShuckie

open ByteFormat

/-! ## Merging ranges -/

/-- A range of `sorted` other than the last one reaches `2 ^ 64` or beyond, and starts past the end of
all before it. -/
def Overruns (sorted : List (Nat × Nat)) : Prop :=
  ∃ earlier r next later, sorted = earlier ++ r :: next :: later ∧ 2 ^ 64 ≤ r.1 + r.2 ∧
    ∀ e ∈ earlier, e.1 + e.2 < r.1

theorem not_overruns_singleton (r : Nat × Nat) : ¬ Overruns [r] := by
  rintro ⟨earlier, r', next, later, hsplit, -, -⟩
  have hlen := congrArg List.length hsplit
  rw [List.length_append, List.length_cons, List.length_cons, List.length_cons] at hlen
  rw [List.length_nil] at hlen
  omega

variable {last r : Nat × Nat} {rest : List (Nat × Nat)}

/-- A range that starts past the end of the one before it can be looked at alone. -/
theorem overruns_cons_apart (hfits : last.1 + last.2 < 2 ^ 64) (hgap : last.1 + last.2 < r.1)
    (hsorted : ∀ r' ∈ rest, r.1 ≤ r'.1) : Overruns (last :: r :: rest) ↔ Overruns (r :: rest) := by
  constructor
  · rintro ⟨_ | ⟨e, earlier⟩, entry, next, later, hsplit, hend, hbefore⟩
    · obtain ⟨rfl, -⟩ := List.cons.inj hsplit
      omega
    · obtain ⟨-, hsplit⟩ := List.cons.inj hsplit
      exact ⟨earlier, entry, next, later, hsplit, hend,
        fun e' he' ↦ hbefore e' (List.mem_cons_of_mem _ he')⟩
  · rintro ⟨earlier, entry, next, later, hsplit, hend, hbefore⟩
    refine ⟨last :: earlier, entry, next, later, by rw [hsplit]; rfl, hend, ?_⟩
    intro e he
    obtain rfl | he := List.mem_cons.1 he
    · have hover : entry ∈ r :: rest := hsplit ▸ by simp
      obtain rfl | hover := List.mem_cons.1 hover
      · exact hgap
      · exact Nat.lt_of_lt_of_le hgap (hsorted entry hover)
    · exact hbefore e he

/-- A range that starts inside the one before it is part of it from then on. -/
theorem overruns_cons_merged {len : Nat} (hfits : last.1 + last.2 < 2 ^ 64)
    (hinside : r.1 ≤ last.1 + last.2)
    (hlen : last.1 + len = max (last.1 + last.2) (min (r.1 + r.2) (2 ^ 64 - 1)))
    (hbelow : ∀ r' ∈ rest, r'.1 < 2 ^ 64) :
    Overruns (last :: r :: rest) ↔ Overruns ((last.1, len) :: rest) := by
  constructor
  · rintro ⟨_ | ⟨e, _ | ⟨e', earlier⟩⟩, entry, next, later, hsplit, hend, hbefore⟩
    · obtain ⟨rfl, -⟩ := List.cons.inj hsplit
      omega
    · simp only [List.cons_append, List.nil_append, List.cons.injEq] at hsplit
      obtain ⟨rfl, rfl, -⟩ := hsplit
      have hgap := hbefore last List.mem_cons_self
      omega
    · simp only [List.cons_append, List.cons.injEq] at hsplit
      obtain ⟨rfl, rfl, hsplit⟩ := hsplit
      refine ⟨(last.1, len) :: earlier, entry, next, later, by rw [hsplit]; rfl, hend, ?_⟩
      intro e he
      obtain rfl | he := List.mem_cons.1 he
      · have hover := hbelow entry (hsplit ▸ by simp)
        have hlast := hbefore last List.mem_cons_self
        have hr := hbefore r (List.mem_cons_of_mem _ List.mem_cons_self)
        show last.1 + len < entry.1
        omega
      · exact hbefore e (List.mem_cons_of_mem _ (List.mem_cons_of_mem _ he))
  · rintro ⟨_ | ⟨e, earlier⟩, entry, next, later, hsplit, hend, hbefore⟩
    · obtain ⟨rfl, -⟩ := List.cons.inj hsplit
      have hend' : 2 ^ 64 ≤ last.1 + len := hend
      omega
    · simp only [List.cons_append, List.cons.injEq] at hsplit
      obtain ⟨rfl, hsplit⟩ := hsplit
      refine ⟨last :: r :: earlier, entry, next, later, by rw [hsplit]; rfl, hend, ?_⟩
      have hover := hbelow entry (hsplit ▸ by simp)
      have hmerged : last.1 + len < entry.1 := hbefore (last.1, len) List.mem_cons_self
      intro e he
      obtain rfl | he := List.mem_cons.1 he
      · omega
      · obtain rfl | he := List.mem_cons.1 he
        · omega
        · exact hbefore e (List.mem_cons_of_mem _ he)

/-- **Merging overflows exactly on `Overruns`.** -/
theorem mergeSorted_eq_none {merged : List (Nat × Nat)}
    (hsorted : (last :: rest).Pairwise fun a b ↦ a.1 ≤ b.1) (hbelow : ∀ r ∈ rest, r.1 < 2 ^ 64) :
    mergeSorted (last :: merged) rest = none ↔ Overruns (last :: rest) := by
  induction rest generalizing last merged with
  | nil => exact ⟨fun h ↦ (nomatch h), fun h ↦ absurd h (not_overruns_singleton last)⟩
  | cons r rest ih =>
    obtain ⟨hlast, hrest⟩ := List.pairwise_cons.1 hsorted
    obtain ⟨hr, hrest'⟩ := List.pairwise_cons.1 hrest
    have hle := hlast r List.mem_cons_self
    have hlt := hbelow r List.mem_cons_self
    have hbelow' : ∀ r' ∈ rest, r'.1 < 2 ^ 64 := fun r' h ↦ hbelow r' (List.mem_cons_of_mem _ h)
    rw [mergeSorted]
    split_ifs with hover hinside
    · exact ⟨fun _ ↦ ⟨[], last, r, rest, rfl, hover, by simp⟩, fun _ ↦ rfl⟩
    · have hlen : last.1 + max last.2 (min (r.1 + r.2) (2 ^ 64 - 1) - last.1) =
          max (last.1 + last.2) (min (r.1 + r.2) (2 ^ 64 - 1)) := by omega
      rw [overruns_cons_merged (by omega) hinside hlen hbelow']
      exact ih (List.pairwise_cons.2
        ⟨fun r' h ↦ hlast r' (List.mem_cons_of_mem _ h), hrest'⟩) hbelow'
    · rw [overruns_cons_apart (by omega) (by omega) hr]
      exact ih hrest hbelow'

/-- What merging makes of ranges has a gap between each two. -/
theorem apart_mergeSorted {merged out : List (Nat × Nat)}
    (h : (last :: merged).Pairwise fun a b ↦ b.1 + b.2 < a.1)
    (hout : mergeSorted (last :: merged) rest = some out) : RomIndex.Apart out := by
  induction rest generalizing last merged with
  | nil =>
    rw [mergeSorted, Option.some.injEq] at hout
    rw [← hout, RomIndex.Apart, List.pairwise_reverse]
    exact h
  | cons r rest ih =>
    obtain ⟨hlast, hmerged⟩ := List.pairwise_cons.1 h
    rw [mergeSorted] at hout
    split_ifs at hout with hover hinside
    · refine ih ?_ hout
      exact List.pairwise_cons.2 ⟨hlast, hmerged⟩
    · refine ih (List.pairwise_cons.2 ⟨?_, h⟩) hout
      intro e he
      obtain rfl | he := List.mem_cons.1 he
      · show e.1 + e.2 < r.1
        omega
      · have hbefore := hlast e he
        show e.1 + e.2 < r.1
        omega

/-- The ranges that are not empty, in order. -/
def sortedRanges (ranges : List (Nat × Nat)) : List (Nat × Nat) :=
  (ranges.filter fun r ↦ 0 < r.2).insertionSort fun a b ↦ a.1 < b.1 ∨ (a.1 = b.1 ∧ a.2 ≤ b.2)

theorem mergeRanges_eq (ranges : List (Nat × Nat)) :
    mergeRanges ranges = mergeSorted [] (sortedRanges ranges) := rfl

theorem pairwise_sortedRanges (ranges : List (Nat × Nat)) :
    (sortedRanges ranges).Pairwise fun a b ↦ a.1 ≤ b.1 := by
  let le (a b : Nat × Nat) : Prop := a.1 < b.1 ∨ (a.1 = b.1 ∧ a.2 ≤ b.2)
  have htotal : Std.Total le := ⟨fun a b ↦ by simp only [le]; omega⟩
  have htrans : IsTrans (Nat × Nat) le := ⟨fun a b c ↦ by simp only [le]; omega⟩
  refine (List.pairwise_insertionSort le _).imp ?_
  rintro a b (h | h) <;> omega

variable {ranges : List (Nat × Nat)}

theorem mem_of_mem_sortedRanges (h : r ∈ sortedRanges ranges) : r ∈ ranges :=
  (List.mem_filter.1 ((List.mem_insertionSort _).1 h)).1

/-- **Merging ranges of 64-bit numbers** either overflows, on `Overruns`, or leaves ranges with gaps
between them. -/
theorem mergeRanges_eq_none (hbelow : ∀ r ∈ ranges, r.1 < 2 ^ 64) :
    mergeRanges ranges = none ↔ Overruns (sortedRanges ranges) := by
  have hsorted := pairwise_sortedRanges ranges
  have hbelow' : ∀ r ∈ sortedRanges ranges, r.1 < 2 ^ 64 :=
    fun r hr ↦ hbelow r (mem_of_mem_sortedRanges hr)
  rw [mergeRanges_eq]
  cases hs : sortedRanges ranges with
  | nil =>
    refine ⟨fun h ↦ (nomatch h), ?_⟩
    rintro ⟨earlier, r, next, later, hsplit, -, -⟩
    exact absurd hsplit.symm (by simp)
  | cons r rest =>
    rw [hs] at hsorted hbelow'
    exact mergeSorted_eq_none hsorted fun r' h ↦ hbelow' r' (List.mem_cons_of_mem _ h)

theorem apart_mergeRanges {out : List (Nat × Nat)} (h : mergeRanges ranges = some out) :
    RomIndex.Apart out := by
  rw [mergeRanges_eq] at h
  cases hs : sortedRanges ranges with
  | nil =>
    rw [hs, mergeSorted, Option.some.injEq] at h
    exact h ▸ List.Pairwise.nil
  | cons r rest =>
    rw [hs] at h
    exact apart_mergeSorted (List.pairwise_singleton _ _) h

/-! ## The copies found -/

/-- A copy inside the data stream and inside the ROM, of equal bytes. -/
structure RomCopy.InPlace (rom data : Bytes) (copy : RomCopy) : Prop where
  inData : copy.dataOffset + copy.len ≤ data.length
  inRom : copy.romOffset + copy.len ≤ rom.length
  same : (data.drop copy.dataOffset).take copy.len = (rom.drop copy.romOffset).take copy.len

/-- Copies from byte `pos` of the data stream on: in order, apart, in place, and no shorter than a
block. -/
def CopiesFrom (rom data : Bytes) : Nat → List RomCopy → Prop
  | _, [] => True
  | pos, copy :: copies =>
    pos ≤ copy.dataOffset ∧ romBlock ≤ copy.len ∧ copy.InPlace rom data ∧
      CopiesFrom rom data (copy.dataOffset + copy.len) copies

variable {rom data : Bytes}

theorem growBack_spec {floor start romStart : Nat} (hfloor : floor ≤ start) :
    floor ≤ (growBack rom data floor start romStart).1 ∧
      ∃ n, start = (growBack rom data floor start romStart).1 + n ∧
        romStart = (growBack rom data floor start romStart).2 + n ∧
        ∀ k < n, data[(growBack rom data floor start romStart).1 + k]? =
          rom[(growBack rom data floor start romStart).2 + k]? := by
  induction start generalizing romStart with
  | zero =>
    rw [growBack]
    · exact ⟨hfloor, 0, rfl, rfl, fun k hk ↦ absurd hk (Nat.not_lt_zero k)⟩
    · intro _ _ h; exact absurd h (by simp)
  | succ start ih =>
    have hstay : floor ≤ start + 1 ∧ ∃ n, start + 1 = start + 1 + n ∧ romStart = romStart + n ∧
        ∀ k < n, data[start + 1 + k]? = rom[romStart + k]? :=
      ⟨hfloor, 0, rfl, rfl, fun k hk ↦ absurd hk (Nat.not_lt_zero k)⟩
    cases romStart with
    | zero =>
      rw [growBack]
      · exact hstay
      · intro _ _ _ h; exact absurd h (by simp)
    | succ romStart =>
      rw [growBack]
      split_ifs with h
      · obtain ⟨hlow, n, hstart, hrom, hsame⟩ := @ih romStart h.1
        refine ⟨hlow, n + 1, by omega, by omega, ?_⟩
        intro k hk
        by_cases hlast : k = n
        · rw [hlast, ← hstart, ← hrom]
          exact h.2
        · exact hsame k (by omega)
      · exact hstay

theorem commonPrefix_spec (a b : Bytes) :
    commonPrefix a b ≤ a.length ∧ commonPrefix a b ≤ b.length ∧
      ∀ k < commonPrefix a b, a[k]? = b[k]? := by
  induction a generalizing b with
  | nil => exact ⟨Nat.zero_le _, Nat.zero_le _, fun k hk ↦ absurd hk (Nat.not_lt_zero k)⟩
  | cons x a ih =>
    cases b with
    | nil => exact ⟨Nat.zero_le _, Nat.zero_le _, fun k hk ↦ absurd hk (Nat.not_lt_zero k)⟩
    | cons y b =>
      rw [commonPrefix]
      split_ifs with h
      · obtain ⟨hleft, hright, hsame⟩ := ih b
        refine ⟨Nat.succ_le_succ hleft, Nat.succ_le_succ hright, ?_⟩
        intro k hk
        cases k with
        | zero => rw [List.getElem?_cons_zero, List.getElem?_cons_zero, h]
        | succ k =>
          rw [List.getElem?_cons_succ, List.getElem?_cons_succ]
          exact hsame k (by omega)
      · exact ⟨Nat.zero_le _, Nat.zero_le _, fun k hk ↦ absurd hk (Nat.not_lt_zero k)⟩

/-- Equal bytes one by one make equal slices. -/
theorem take_drop_eq {a b n : Nat} (h : ∀ k < n, data[a + k]? = rom[b + k]?) :
    (data.drop a).take n = (rom.drop b).take n := by
  refine List.ext_getElem? fun k ↦ ?_
  rw [List.getElem?_take, List.getElem?_take, List.getElem?_drop, List.getElem?_drop]
  split_ifs with hk
  · exact h k hk
  · rfl

/-- The bytes of a block that was compared. -/
theorem getElem?_of_slice? {a b n : Nat} (h : slice? rom b n = some ((data.drop a).take n)) :
    b + n ≤ rom.length ∧ ∀ k < n, data[a + k]? = rom[b + k]? := by
  rw [slice?] at h
  split_ifs at h with hle
  refine ⟨hle, ?_⟩
  intro k hk
  have hat := congrArg (·[k]?) (Option.some.inj h)
  simp only [List.getElem?_take_of_lt hk, List.getElem?_drop] at hat
  exact hat.symm

/-- **A match grown both ways is a copy.** -/
theorem inPlace_grown {floor i romAt : Nat} (hfloor : floor ≤ i) (hi : i + romBlock ≤ data.length)
    (hblock : slice? rom romAt romBlock = some ((data.drop i).take romBlock)) :
    let back := growBack rom data floor i romAt
    let stop := i + romBlock + commonPrefix (data.drop (i + romBlock)) (rom.drop (romAt + romBlock))
    floor ≤ back.1 ∧ back.1 ≤ i ∧ stop ≤ data.length ∧
      (RomCopy.mk back.1 back.2 (stop - back.1)).InPlace rom data := by
  obtain ⟨hlow, n, hstart, hrom, hback⟩ := @growBack_spec rom data floor i romAt hfloor
  obtain ⟨hdataEnd, hromEnd, hmore⟩ :=
    commonPrefix_spec (data.drop (i + romBlock)) (rom.drop (romAt + romBlock))
  obtain ⟨hin, hsame⟩ := getElem?_of_slice? hblock
  generalize growBack rom data floor i romAt = back at hlow hstart hrom hback
  generalize commonPrefix (data.drop (i + romBlock)) (rom.drop (romAt + romBlock)) = more at hdataEnd hromEnd hmore
  obtain ⟨start, romStart⟩ := back
  rw [List.length_drop] at hdataEnd hromEnd
  simp only at hlow hstart hrom hback ⊢
  refine ⟨hlow, by omega, by omega, by simp only; omega, by simp only; omega, take_drop_eq ?_⟩
  intro k hk
  simp only at hk ⊢
  by_cases hfirst : k < n
  · exact hback k hfirst
  · by_cases hmid : k < n + romBlock
    · have hat := hsame (k - n) (by omega)
      rwa [show i + (k - n) = start + k by omega, show romAt + (k - n) = romStart + k by omega]
        at hat
    · have hat := hmore (k - n - romBlock) (by omega)
      rwa [List.getElem?_drop, List.getElem?_drop,
        show i + romBlock + (k - n - romBlock) = start + k by omega,
        show romAt + romBlock + (k - n - romBlock) = romStart + k by omega] at hat

/-- The loop of `find_copies`, whatever the index answers. -/
theorem copiesFrom_findCopiesGo (lookup : Bytes → Option Nat) {fuel floor i : Nat}
    (hfloor : floor ≤ i) (hi : i + romBlock ≤ data.length) :
    CopiesFrom rom data floor (findCopiesGo lookup rom data fuel floor i) := by
  induction fuel generalizing floor i with
  | zero => exact trivial
  | succ fuel ih =>
    rw [findCopiesGo]
    cases hfound : (lookup ((data.drop i).take romBlock)).bind fun romAt ↦
        if slice? rom romAt romBlock = some ((data.drop i).take romBlock) then some romAt
        else none with
    | none =>
      simp only
      split_ifs with hlast
      · exact trivial
      · exact ih (by omega) (by omega)
    | some romAt =>
      obtain ⟨at', -, hat⟩ := Option.bind_eq_some_iff.1 hfound
      split_ifs at hat with hblock
      obtain rfl := Option.some.inj hat
      obtain ⟨hlow, hback, hstop, hcopy⟩ := inPlace_grown hfloor hi hblock
      simp only
      generalize commonPrefix (data.drop (i + romBlock)) (rom.drop (at' + romBlock)) = more
        at hstop hcopy
      generalize growBack rom data floor i at' = back at hlow hback hcopy
      have hend : back.1 + (i + romBlock + more - back.1) = i + romBlock + more := by omega
      have hlen : romBlock ≤ i + romBlock + more - back.1 := by omega
      split_ifs with hlast
      · exact ⟨hlow, hlen, hcopy, trivial⟩
      · refine ⟨hlow, hlen, hcopy, ?_⟩
        show CopiesFrom rom data (back.1 + (i + romBlock + more - back.1)) _
        rw [hend]
        exact ih (by rw [nextMultipleOf4]; omega) (by omega)

/-- **Whatever an index answers, the copies found are in order, apart and in place.** -/
theorem copiesFrom_findCopies (lookup : Bytes → Option Nat) (rom data : Bytes) :
    CopiesFrom rom data 0 (findCopies lookup rom data) := by
  rw [findCopies]
  split_ifs with hlen
  · exact trivial
  · exact copiesFrom_findCopiesGo lookup (Nat.le_refl 0) (by omega)

/-! ## Payloads -/

theorem unzigzag_zigzag {n : Nat} (h : n < 2 ^ 64) : unzigzag (zigzag n) = n := by
  rw [zigzag, unzigzag]
  split_ifs <;> omega

theorem zigzag_lt {n : Nat} (h : n < 2 ^ 64) : zigzag n < 2 ^ 64 := by
  rw [zigzag]
  split_ifs <;> omega

theorem wrappingSub64_lt (a b : Nat) : wrappingSub64 a b < 2 ^ 64 := Nat.mod_lt _ (by decide)

/-- An offset relative to another one gives back the offset. -/
theorem wrappingAdd64_wrappingSub64 {a b : Nat} (ha : a < 2 ^ 64) (hb : b < 2 ^ 64) :
    wrappingAdd64 b (wrappingSub64 a b) = a := by
  rw [wrappingAdd64, wrappingSub64]
  omega

/-- One reference, whose copy lies inside the ROM. -/
theorem spliceCopies_ref {gap delta len romPos fuel : Nat} {refs literal bytes : Bytes}
    (hgap : gap < 2 ^ 64) (hdelta : delta < 2 ^ 64) (hlen : len < 2 ^ 64)
    (hliteral : gap ≤ literal.length)
    (hbytes : slice? rom (wrappingAdd64 romPos (unzigzag delta)) len = some bytes) :
    spliceCopies rom (fuel + 1) (leb128 gap ++ (leb128 delta ++ (leb128 len ++ refs))) literal
        romPos =
      (spliceCopies rom fuel refs (literal.drop gap)
        (wrappingAdd64 romPos (unzigzag delta) + len)).map fun rest ↦
          literal.take gap ++ (bytes ++ rest) := by
  have hnil : leb128 gap ++ (leb128 delta ++ (leb128 len ++ refs)) ≠ [] := by
    intro hempty
    exact leb128_ne_nil _ (List.append_eq_nil_iff.1 hempty).1
  have hone := readLeb128_leb128 hgap (leb128 delta ++ (leb128 len ++ refs))
  have htwo := readLeb128_leb128 hdelta (leb128 len ++ refs)
  have hthree := readLeb128_leb128 hlen refs
  rw [spliceCopies.eq_3 _ _ _ _ _ hnil]
  simp only [hone, htwo, hthree, hbytes, if_neg (Nat.not_lt.2 hliteral)]

variable {copies : List RomCopy}

/-- **Splicing the copies back in** gives the data stream from where they start. -/
theorem spliceCopies_encodeCopies (hrom : rom.length < 2 ^ 63) (hdata : data.length < 2 ^ 63)
    {pos romPos fuel : Nat} (h : CopiesFrom rom data pos copies) (hromPos : romPos < 2 ^ 64)
    (hfuel : (encodeCopies data copies pos romPos).1.length ≤ fuel) :
    spliceCopies rom fuel (encodeCopies data copies pos romPos).1
      (encodeCopies data copies pos romPos).2 romPos = .ok (data.drop pos) := by
  induction copies generalizing pos romPos fuel with
  | nil => rw [encodeCopies, spliceCopies]
  | cons copy copies ih =>
    obtain ⟨hpos, hlen, hcopy, hrest⟩ := h
    have hinData := hcopy.inData
    have hinRom := hcopy.inRom
    rw [encodeCopies] at hfuel ⊢
    have hgap : ((data.drop pos).take (copy.dataOffset - pos)).length = copy.dataOffset - pos := by
      rw [List.length_take, List.length_drop]
      omega
    have hone : 0 < (leb128 (copy.dataOffset - pos)).length :=
      List.length_pos_iff.2 (leb128_ne_nil _)
    simp only [List.length_append] at hfuel
    obtain ⟨fuel, rfl⟩ : ∃ n, fuel = n + 1 := ⟨fuel - 1, by omega⟩
    have hdelta := wrappingSub64_lt copy.romOffset romPos
    have hstart : wrappingAdd64 romPos
        (unzigzag (zigzag (wrappingSub64 copy.romOffset romPos))) = copy.romOffset := by
      rw [unzigzag_zigzag hdelta, wrappingAdd64_wrappingSub64 (by omega) hromPos]
    have hslice : slice? rom (wrappingAdd64 romPos
        (unzigzag (zigzag (wrappingSub64 copy.romOffset romPos)))) copy.len =
          some ((data.drop copy.dataOffset).take copy.len) := by
      rw [hstart, slice?, if_pos hinRom, hcopy.same]
    have hjoin : (data.drop pos).take (copy.dataOffset - pos) ++
        ((data.drop copy.dataOffset).take copy.len ++ data.drop (copy.dataOffset + copy.len)) =
          data.drop pos := by
      rw [← List.drop_drop, List.take_append_drop]
      have hskip : copy.dataOffset = pos + (copy.dataOffset - pos) := by omega
      rw [hskip, ← List.drop_drop, ← hskip, List.take_append_drop]
    rw [spliceCopies_ref (by omega) (zigzag_lt hdelta) (by omega)
      (by rw [List.length_append, hgap]; omega) hslice, hstart, List.drop_left' hgap,
      List.take_left' hgap, ih hrest (by omega) (by omega)]
    exact congrArg Except.ok hjoin

/-- A reference takes ten bytes for each of its numbers at the most. -/
theorem length_leb128Go_le (fuel n : Nat) : (leb128Go fuel n).length ≤ fuel := by
  induction fuel generalizing n with
  | zero => exact Nat.le_refl 0
  | succ fuel ih =>
    rw [leb128Go]
    split_ifs
    · exact Nat.succ_le_succ (Nat.zero_le fuel)
    · exact Nat.succ_le_succ (ih _)

theorem length_refs_le (data : Bytes) (copies : List RomCopy) (pos romPos : Nat) :
    (encodeCopies data copies pos romPos).1.length ≤ 30 * copies.length := by
  induction copies generalizing pos romPos with
  | nil => exact Nat.le_refl 0
  | cons copy copies ih =>
    have hrest := ih (copy.dataOffset + copy.len) (copy.romOffset + copy.len)
    have hgap := length_leb128Go_le 10 (copy.dataOffset - pos)
    have hdelta := length_leb128Go_le 10 (zigzag (wrappingSub64 copy.romOffset romPos))
    have hlen := length_leb128Go_le 10 copy.len
    rw [encodeCopies]
    simp only [List.length_append, List.length_cons, leb128]
    omega

/-- Copies no shorter than a block are no more than fit in the data stream. -/
theorem length_copies_le {pos : Nat} (h : CopiesFrom rom data pos copies) :
    romBlock * copies.length ≤ data.length - pos := by
  induction copies generalizing pos with
  | nil => exact Nat.zero_le _
  | cons copy copies ih =>
    obtain ⟨hpos, hlen, hcopy, hrest⟩ := h
    have hin := hcopy.inData
    have htail := ih hrest
    rw [List.length_cons, Nat.mul_succ]
    omega

/-- A payload comes apart into the control stream, the references and the literal bytes. -/
theorem splitPayloadV9_encodePayloadV9 {control : Bytes} (hcontrol : control.length < 2 ^ 64)
    (hrefs : (encodeCopies data copies 0 0).1.length < 2 ^ 64) :
    splitPayloadV9 (encodePayloadV9 control data copies) =
      .ok ⟨control, (encodeCopies data copies 0 0).1, (encodeCopies data copies 0 0).2⟩ := by
  rw [encodePayloadV9]
  generalize encodeCopies data copies 0 0 = streams at hrefs
  obtain ⟨refs, literal⟩ := streams
  have h8 : (leBytes 8 control.length).length = 8 := length_leBytes 8 _
  have h8' : (leBytes 8 refs.length).length = 8 := length_leBytes 8 _
  have hlen : (leBytes 8 control.length ++
      (leBytes 8 refs.length ++ (control ++ (refs ++ literal)))).drop 16 =
        control ++ (refs ++ literal) := by
    rw [show (16 : Nat) = 8 + 8 by decide, ← List.drop_drop, List.drop_left' h8,
      List.drop_left' h8']
  have hlong : ¬ (leBytes 8 control.length ++
      (leBytes 8 refs.length ++ (control ++ (refs ++ literal)))).length < 16 := by
    simp only [List.length_append, h8, h8']
    omega
  have hrest : ¬ (control ++ (refs ++ literal)).length < control.length := by
    rw [List.length_append]
    omega
  have hrest' : ¬ (refs ++ literal).length < refs.length := by
    rw [List.length_append]
    omega
  rw [splitPayloadV9, if_neg hlong, hlen, List.take_left' h8, List.drop_left' h8,
    List.take_left' h8', ofLeBytes_leBytes (by omega), ofLeBytes_leBytes (by omega)]
  simp only [if_neg hrest, List.drop_left, List.take_left, if_neg hrest']

/-- Splitting a payload and rebuilding its data gives back what it was made of. -/
def Restores (control data : Bytes) (copies : List RomCopy) (rom : Option Bytes) : Prop :=
  ∃ parts, splitPayloadV9 (encodePayloadV9 control data copies) = .ok parts ∧
    parts.control = control ∧ parts.dataInto rom = .ok data

/-- **A payload whose copies are in place gives back its control and its data.** -/
theorem restores_of_copiesFrom {control : Bytes} (hrom : rom.length < 2 ^ 63)
    (hdata : data.length < 2 ^ 63) (hcontrol : control.length < 2 ^ 63)
    (h : CopiesFrom rom data 0 copies) : Restores control data copies (some rom) := by
  have hmany := length_copies_le h
  have hrefs := length_refs_le data copies 0 0
  rw [romBlock] at hmany
  refine ⟨_, splitPayloadV9_encodePayloadV9 (by omega) (by omega), rfl, ?_⟩
  rw [PayloadV9.dataInto]
  split_ifs with hempty
  · cases copies with
    | nil => rfl
    | cons copy copies =>
      rw [List.isEmpty_iff, encodeCopies] at hempty
      exact absurd (List.append_eq_nil_iff.1 hempty).1 (leb128_ne_nil _)
  · exact spliceCopies_encodeCopies hrom hdata h (by decide) (Nat.le_refl _)

/-- A payload without copies needs no ROM. -/
theorem restores_nil {control : Bytes} (hcontrol : control.length < 2 ^ 63) (rom : Option Bytes) :
    Restores control data [] rom :=
  ⟨_, splitPayloadV9_encodePayloadV9 (by omega) (Nat.two_pow_pos 64), rfl, rfl⟩

/-! ## The whole of it -/

/-- The copies of the ROM's `ranges` in a data stream: the ranges merged, indexed and looked through.
`none` is a panic. -/
def romCopies? (rom : Bytes) (ranges : List (UInt64 × UInt64)) (data : Bytes) :
    Option (List RomCopy) := do
  let merged ← mergeRanges (ranges.map fun r ↦ (r.1.toNat, r.2.toNat))
  let index ← RomIndex.build rom merged
  match index with
  | none => some []
  | some index => index.findCopies rom data

/-- **ROM-copy payloads round trip** exactly when no range of the ROM overruns: the index is built and
looked through without a panic, its copies are in place, and the payload gives back its control and
its data, without a ROM if it has no copies. -/
theorem romCopies_roundTrip {rom control data : Bytes} (ranges : List (UInt64 × UInt64))
    (hrom : rom.length < 2 ^ 63) (hdata : data.length < 2 ^ 63)
    (hcontrol : control.length < 2 ^ 63) :
    ((∃ copies, romCopies? rom ranges data = some copies ∧ CopiesFrom rom data 0 copies ∧
        Restores control data copies (some rom)) ∧
      (∀ rom', Restores control data [] rom')) ↔
      ¬ Overruns (sortedRanges (ranges.map fun r ↦ (r.1.toNat, r.2.toNat))) := by
  have hbelow : ∀ r ∈ ranges.map fun r ↦ (r.1.toNat, r.2.toNat), r.1 < 2 ^ 64 := by
    intro r hr
    obtain ⟨r', -, rfl⟩ := List.mem_map.1 hr
    exact r'.1.toNat_lt
  rw [← mergeRanges_eq_none hbelow]
  constructor
  · rintro ⟨⟨copies, hcopies, -, -⟩, -⟩ hnone
    rw [romCopies?, hnone] at hcopies
    exact nomatch hcopies
  · intro hmerge
    refine ⟨?_, restores_nil hcontrol⟩
    obtain ⟨merged, hmerged⟩ := Option.ne_none_iff_exists'.1 hmerge
    obtain ⟨found, hfound, hindex⟩ := RomIndex.build_eq_some hrom (apart_mergeRanges hmerged)
    have hdone : ∃ copies, romCopies? rom ranges data = some copies ∧
        CopiesFrom rom data 0 copies := by
      rw [romCopies?, hmerged]
      simp only [Option.bind_eq_bind, Option.bind_some, hfound]
      cases found with
      | none => exact ⟨[], rfl, trivial⟩
      | some index =>
        obtain ⟨hwf, hroom⟩ := hindex index rfl
        exact ⟨_, hwf.findCopies_eq_some hroom hrom data, copiesFrom_findCopies _ rom data⟩
    obtain ⟨copies, hcopies, hfrom⟩ := hdone
    exact ⟨copies, hcopies, hfrom, restores_of_copiesFrom hrom hdata hcontrol hfrom⟩

/-- A ROM of 100 different bytes, all of it indexed, and data that ends in the middle of it. -/
theorem romCopies_roundTrip_ramp :
    ((∃ copies, romCopies? ((List.range 100).map UInt8.ofNat) [(0, 100)]
          ((List.range 80).map UInt8.ofNat) = some copies ∧
        CopiesFrom ((List.range 100).map UInt8.ofNat) ((List.range 80).map UInt8.ofNat) 0 copies ∧
        Restores [7] ((List.range 80).map UInt8.ofNat) copies
          (some ((List.range 100).map UInt8.ofNat))) ∧
      (∀ rom', Restores [7] ((List.range 80).map UInt8.ofNat) [] rom')) :=
  (romCopies_roundTrip [(0, 100)] (by simp) (by simp) (by simp)).2 (not_overruns_singleton (0, 100))

/-- The copy is found. -/
example : romCopies? ((List.range 100).map UInt8.ofNat) [(0, 100)]
    ((List.range 80).map UInt8.ofNat) = some [⟨0, 0, 80⟩] := by decide +kernel

/-- Two ranges at the last byte a 64-bit offset can name: the sum of the first one's offset and length
overflows when the second is compared with it. -/
theorem romCopies_overflow :
    ¬ ((∃ copies, romCopies? [1, 2, 3, 4] [(0xFFFFFFFFFFFFFFFF, 1), (0xFFFFFFFFFFFFFFFF, 2)]
          [5, 6, 7, 8] = some copies ∧ CopiesFrom [1, 2, 3, 4] [5, 6, 7, 8] 0 copies ∧
        Restores [9] [5, 6, 7, 8] copies (some [1, 2, 3, 4])) ∧
      (∀ rom', Restores [9] [5, 6, 7, 8] [] rom')) := by
  have hpanic : romCopies? [1, 2, 3, 4] [(0xFFFFFFFFFFFFFFFF, 1), (0xFFFFFFFFFFFFFFFF, 2)]
      [5, 6, 7, 8] = none := by decide +kernel
  rintro ⟨⟨copies, hcopies, -⟩, -⟩
  rw [hpanic] at hcopies
  exact nomatch hcopies

end SuperShuckie
