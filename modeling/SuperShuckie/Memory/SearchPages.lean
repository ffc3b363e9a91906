import SuperShuckie.Lib.Lists
import SuperShuckie.Memory.SearchHistory

/-!
# Pages of candidates

`results` gives a page of the candidates: of the bits of a dense state, found through the ranks of
its blocks, or of the list of a sparse one.  `fill` is what both page loops do, and `nthSlot_eq`
says that the ranks find the `n`th bit.

A scan of a dense state compares the layouts, one of the list asks of each candidate where its
address is now; `Moved` is what the second refuses.
-/

set_option autoImplicit false

namespace SuperShuckie.RamSearch

open ByteFormat Bits Fallible

/-! ## Ranks -/

section Ranks

variable {w total n b r : Nat} {words : List Nat}

/-- The candidates in some words. -/
def onesIn (words : List Nat) : Nat := (words.map (countOnes 64)).sum

theorem rankLoop_snd (w total : Nat) (words : List Nat) :
    (rankLoop w total words).2 = total + onesIn words := by
  induction words generalizing w total with
  | nil => rfl
  | cons word words ih =>
    show (rankLoop (w + 1) (total + countOnes 64 word) words).2 = _
    rw [ih, onesIn, onesIn, List.map_cons, List.sum_cons, Nat.add_assoc]

/-- A rank counts what is before a word whose index is a multiple of 64. -/
theorem rankLoop_fst (h : (rankLoop w total words).1[b]? = some r) :
    ∃ j ≤ words.length, w + j = 64 * ((w + 63) / 64 + b) ∧ r = total + onesIn (words.take j) := by
  induction words generalizing w total b with
  | nil => cases h
  | cons word words ih =>
    have hloop : (rankLoop w total (word :: words)).1 =
        if w % 64 = 0 then total :: (rankLoop (w + 1) (total + countOnes 64 word) words).1
        else (rankLoop (w + 1) (total + countOnes 64 word) words).1 := rfl
    have hmore (j : Nat) : total + countOnes 64 word + onesIn (words.take j) =
        total + onesIn ((word :: words).take (j + 1)) := by
      rw [List.take_succ_cons, onesIn, onesIn, List.map_cons, List.sum_cons, Nat.add_assoc]
    rw [hloop] at h
    split_ifs at h with hblock
    · cases b with
      | zero =>
        cases h
        exact ⟨0, Nat.zero_le _, by omega, rfl⟩
      | succ b =>
        obtain ⟨j, hj, heq, hr⟩ := ih h
        exact ⟨j + 1, Nat.succ_le_succ hj, by omega, by rw [hr, hmore]⟩
    · obtain ⟨j, hj, heq, hr⟩ := ih h
      exact ⟨j + 1, Nat.succ_le_succ hj, by omega, by rw [hr, hmore]⟩

theorem count_buildRank (words : List Nat) : (buildRank words).count = (members 64 words).length := by
  rw [length_members]
  exact (rankLoop_snd 0 0 words).trans (Nat.zero_add _)

/-- The loop of `nth_slot` finds a position among those of the words. -/
theorem nthLoop_eq (hwords : ∀ x ∈ words, x < 2 ^ 64) (n w : Nat) :
    nthLoop n w words = (members 64 words)[n]?.map (w * 64 + ·) := by
  induction words generalizing n w with
  | nil => rfl
  | cons word words ih =>
    have hword := hwords word List.mem_cons_self
    rw [nthLoop, members]
    split_ifs with hn
    · rw [← length_ones] at hn
      rw [List.getElem?_append_left hn, trailingZeros_iterate hword hn]
      rfl
    · rw [← length_ones] at hn ⊢
      rw [ih (fun x hx ↦ hwords x (List.mem_cons_of_mem _ hx)),
        List.getElem?_append_right (Nat.le_of_not_lt hn), List.getElem?_map, Option.map_map]
      refine congrArg (Option.map · _) (funext fun s ↦ ?_)
      simp only [Function.comp_apply]
      omega

/-- **`nth_slot` finds the `n`th bit.** -/
theorem nthSlot_eq (hwords : ∀ x ∈ words, x < 2 ^ 64) (n : Nat) :
    (buildRank words).nthSlot n = (members 64 words)[n]? := by
  rw [DenseRegion.nthSlot, count_buildRank]
  split_ifs with hn
  · rw [List.getElem?_eq_none hn]
  · set rank := (buildRank words).rank with hrank
    set kept := rank.takeWhile (· ≤ n) with hkept
    have hne : words ≠ [] := by
      rintro rfl
      exact hn (Nat.zero_le n)
    -- The first block has nothing before it, so one is kept.
    have hpos : 0 < kept.length := by
      obtain ⟨word, more, rfl⟩ := List.exists_cons_of_ne_nil hne
      have hcons : rank = 0 :: (rankLoop 1 (0 + countOnes 64 word) more).1 := rfl
      rw [hkept, hcons, List.takeWhile_cons_of_pos (by simp)]
      exact Nat.succ_pos _
    obtain ⟨r, hr⟩ : ∃ r, kept[kept.length - 1]? = some r :=
      ⟨_, List.getElem?_eq_getElem (by omega)⟩
    have hle : r ≤ n := by
      have hmem := List.mem_takeWhile_imp (List.mem_of_getElem? hr)
      exact of_decide_eq_true hmem
    have hat : rank[kept.length - 1]? = some r := by
      obtain ⟨more, hmore⟩ : kept <+: rank := List.takeWhile_prefix _
      rw [← hmore, List.getElem?_append_left (by omega), hr]
    have hgetD : rank.getD (kept.length - 1) 0 = r := by
      rw [List.getD_eq_getElem?_getD, hat, Option.getD_some]
    obtain ⟨j, hj, heq, hcount⟩ := rankLoop_fst (show (rankLoop 0 0 words).1[kept.length - 1]? = _
      from hat)
    have hj' : j = (kept.length - 1) * 64 := by omega
    rw [Nat.zero_add, onesIn, ← length_members] at hcount
    show nthLoop (n - rank.getD (kept.length - 1) 0) ((kept.length - 1) * 64)
      (words.drop ((kept.length - 1) * 64)) = _
    rw [hgetD, ← hj', nthLoop_eq fun x hx ↦ hwords x (List.mem_of_mem_drop hx)]
    conv_rhs => rw [← List.take_append_drop j words, members_append]
    rw [List.getElem?_append_right (by omega), List.getElem?_map, ← hcount, List.length_take,
      Nat.min_eq_left hj]
    refine congrArg (Option.map · _) (funext fun s ↦ ?_)
    omega

end Ranks

/-! ## Page loops -/

section Fill

variable {α β : Type} (row : α → Option SearchRow) (count : Nat)

/-- Add the rows of candidates until there are enough. -/
def fill : List α → List SearchRow → Option (List SearchRow)
  | [], rows => some rows
  | a :: candidates, rows =>
    if rows.length < count then
      (row a).bind fun next ↦ fill candidates (rows ++ [next])
    else some rows

variable {row} {count}

theorem fill_of_le {candidates : List α} {rows : List SearchRow} (h : count ≤ rows.length) :
    fill row count candidates rows = some rows := by
  cases candidates with
  | nil => rfl
  | cons a candidates => exact if_neg (Nat.not_lt.mpr h)

theorem fill_append (candidates more : List α) (rows : List SearchRow) :
    fill row count (candidates ++ more) rows =
      (fill row count candidates rows).bind (fill row count more) := by
  induction candidates generalizing rows with
  | nil => rfl
  | cons a candidates ih =>
    rw [List.cons_append, fill, fill]
    split_ifs with h
    · rw [Option.bind_assoc]
      exact congrArg _ (funext fun next ↦ ih _)
    · exact (fill_of_le (Nat.le_of_not_lt h)).symm

theorem fill_map (f : β → α) (candidates : List β) (rows : List SearchRow) :
    fill row count (candidates.map f) rows = fill (row ∘ f) count candidates rows := by
  induction candidates generalizing rows with
  | nil => rfl
  | cons b candidates ih =>
    rw [List.map_cons, fill, fill]
    simp only [ih, Function.comp_apply]

/-- What is filled is a page: the rows of the first candidates. -/
theorem fill_eq (candidates : List α) (rows : List SearchRow) : fill row count candidates rows =
      ((candidates.take (count - rows.length)).mapM row).map (rows ++ ·) := by
  induction candidates generalizing rows with
  | nil =>
    rw [List.take_nil, List.mapM_nil]
    exact congrArg some (List.append_nil rows).symm
  | cons a candidates ih =>
    rw [fill]
    split_ifs with h
    · obtain ⟨k, hk⟩ := Nat.exists_eq_succ_of_ne_zero (Nat.sub_ne_zero_of_lt h)
      rw [hk, List.take_succ_cons, List.mapM_cons]
      cases hrow : row a with
      | none => rfl
      | some next =>
        have hk' : count - (rows ++ [next]).length = k := by
          rw [List.length_append, List.length_singleton]
          omega
        rw [Option.bind_some, ih, hk']
        simp only [Option.bind_eq_bind, Option.bind_some, Option.pure_def]
        cases (candidates.take k).mapM row with
        | none => rfl
        | some more => exact congrArg some (List.append_assoc rows [next] more)
    · rw [Nat.sub_eq_zero_of_le (Nat.le_of_not_lt h), List.take_zero, List.mapM_nil]
      exact congrArg some (List.append_nil rows).symm

end Fill

section Loops

variable {row : Nat → Option SearchRow} {count w : Nat} {rows : List SearchRow}

theorem pageBits_eq (bits : List Nat) :
    pageBits row count w bits rows = fill row count (bits.map (w * 64 + ·)) rows := by
  induction bits generalizing rows with
  | nil => rfl
  | cons bit bits ih =>
    rw [pageBits, List.map_cons, fill]
    simp only [ih]
    rfl

/-- The loop over words fills with what is left of the first one and with the others. -/
theorem pageWords_eq {words : List Nat} {bits : Nat} (hbits : bits < 2 ^ 64)
    (hwords : ∀ x ∈ words, x < 2 ^ 64) : pageWords row count words w bits rows =
      fill row count ((ones 64 bits).map (w * 64 + ·) ++
        (members 64 words).map ((w + 1) * 64 + ·)) rows := by
  induction words generalizing w bits rows with
  | nil =>
    rw [pageWords, setBits_eq (length_ones_le 64 bits) hbits, pageBits_eq, members, List.map_nil,
      List.append_nil]
    exact Option.bind_fun_some _
  | cons word words ih =>
    have hword := hwords word List.mem_cons_self
    have hrest : ∀ x ∈ words, x < 2 ^ 64 := fun x hx ↦ hwords x (List.mem_cons_of_mem _ hx)
    rw [pageWords, setBits_eq (length_ones_le 64 bits) hbits, pageBits_eq, fill_append]
    refine congrArg _ (funext fun rows' ↦ ?_)
    have hshift : (members 64 (word :: words)).map ((w + 1) * 64 + ·) =
        (ones 64 word).map ((w + 1) * 64 + ·) ++
          (members 64 words).map ((w + 1 + 1) * 64 + ·) := by
      rw [members, List.map_append, List.map_map]
      refine congrArg _ (List.map_congr_left fun s _ ↦ ?_)
      simp only [Function.comp_apply]
      omega
    rw [hshift]
    split_ifs with henough
    · rw [fill_of_le henough]
      rfl
    · exact ih hword hrest

end Loops

/-! ## Well-formed candidates -/

/-- Words of 64 bits. -/
def WordsFit (words : List Nat) : Prop := ∀ x ∈ words, x < 2 ^ 64

/-- A region's words fit, and its rank is that of its words. -/
def DenseRegion.Ranked (r : DenseRegion) : Prop := r = buildRank r.words ∧ WordsFit r.words

/-- The candidates of the regions from one on: region index and slot. -/
def positionsFrom : Nat → List DenseRegion → List (Nat × Nat)
  | _, [] => []
  | index, dense :: regions =>
    (members 64 dense.words).map (index, ·) ++ positionsFrom (index + 1) regions

namespace Dense

/-- The candidates, in order: region index and slot. -/
def positions (d : Dense) : List (Nat × Nat) := positionsFrom 0 d.regions

/-- The row of a candidate. -/
def row (d : Dense) (len step : Nat) (position : Nat × Nat) : Option SearchRow :=
  (d.view position.1).bind fun view ↦ view.row len step position.1 position.2

/-- The value of a candidate is mapped, at a 32-bit address. -/
def Mapped (d : Dense) (len step : Nat) (position : Nat × Nat) : Prop :=
  ∃ layout, d.previous.layout[position.1]? = some layout ∧
    position.2 * step + len ≤ layout.available ∧
    layout.region.baseAddress + position.2 * step % 2 ^ 32 < 2 ^ 32

end Dense

/-- Words of 64 bits with their ranks, in regions that both snapshots have the bytes of; or lists of
one length. -/
def Candidates.WellFormed (len : Nat) : Candidates → Prop
  | .dense d =>
    (∀ r ∈ d.regions, r.Ranked) ∧
      ∀ index < d.regions.length,
        (d.previous.regionBytes index).isSome ∧ (d.first.regionBytes index).isSome
  | .sparse s =>
    s.regions.length = s.addresses.length ∧ s.previous.length = s.addresses.length * len ∧
      s.first.length = s.addresses.length * len

/-- The rows of all candidates, `none` for one that cannot be read. -/
def Candidates.rows (len step : Nat) : Candidates → List (Option SearchRow)
  | .dense d => d.positions.map (d.row len step)
  | .sparse s => (List.range s.addresses.length).map (s.row len)

/-- A page can be read: its end is a 64-bit number, or its candidates are mapped. -/
def PageFits (len step : Nat) (offset count : Nat) : Candidates → Prop
  | .dense d => ∀ position ∈ (d.positions.drop offset).take count, d.Mapped len step position
  | .sparse s => min offset s.addresses.length + count < 2 ^ 64

section Pages

variable {d : Dense} {s : Sparse} {len step count : Nat} {rows : List SearchRow}

theorem slice?_isSome {bytes : Bytes} {start len : Nat} :
    (slice? bytes start len).isSome ↔ start + len ≤ bytes.length := by
  rw [slice?]
  split_ifs with h <;> simp [h]

theorem length_of_regionBytes {snapshot : MemorySnapshot} {index : Nat} {bytes : Bytes}
    (h : snapshot.regionBytes index = some bytes) :
    ∃ layout, snapshot.layout[index]? = some layout ∧ bytes.length = layout.available := by
  simp only [MemorySnapshot.regionBytes, Option.bind_eq_bind, Option.bind_eq_some_iff] at h
  obtain ⟨layout, hlayout, hslice⟩ := h
  refine ⟨layout, hlayout, ?_⟩
  rw [slice?] at hslice
  split_ifs at hslice with hle
  cases hslice
  rw [List.length_take, List.length_drop]
  omega

/-- **A candidate has a row exactly if it is mapped**, in a region that both snapshots have. -/
theorem row_isSome (hd : (Candidates.dense d).WellFormed len) {position : Nat × Nat}
    (hposition : position.1 < d.regions.length) :
    (d.row len step position).isSome ↔ d.Mapped len step position := by
  obtain ⟨hprev, hfirst⟩ := hd.2 _ hposition
  obtain ⟨prev, hprev⟩ := Option.isSome_iff_exists.mp hprev
  obtain ⟨firsts, hfirst⟩ := Option.isSome_iff_exists.mp hfirst
  obtain ⟨layout, hlayout, hlength⟩ := length_of_regionBytes hprev
  have hview : d.view position.1 = some ⟨layout.region.baseAddress, prev, firsts⟩ := by
    simp only [Dense.view, hlayout, hprev, hfirst]
    rfl
  have hmapped : d.Mapped len step position ↔ position.2 * step + len ≤ prev.length ∧
      layout.region.baseAddress + position.2 * step % 2 ^ 32 < 2 ^ 32 := by
    rw [Dense.Mapped, hlayout, hlength]
    simp only [Option.some.injEq, exists_eq_left']
  rw [Dense.row, hview, Option.bind_some, RegionView.row, hmapped, ← slice?_isSome]
  cases slice? prev (position.2 * step) len with
  | none => simp
  | some previous =>
    simp only [Option.bind_eq_bind, Option.bind_some, Option.isSome_some, true_and]
    split_ifs with h
    · exact iff_of_true rfl h
    · exact iff_of_false Bool.false_ne_true h

theorem mem_positionsFrom {index : Nat} {regions : List DenseRegion} {position : Nat × Nat}
    (h : position ∈ positionsFrom index regions) : position.1 < index + regions.length := by
  induction regions generalizing index with
  | nil => cases h
  | cons dense regions ih =>
    rw [positionsFrom, List.mem_append] at h
    rw [List.length_cons]
    obtain h | h := h
    · obtain ⟨slot, -, rfl⟩ := List.mem_map.mp h
      show index < _
      omega
    · have hlt := ih h
      omega

/-- **The loop over regions fills with the candidates** but for those left out. -/
theorem pageRegions_eq {index skip : Nat} {regions : List DenseRegion}
    (hregions : ∀ r ∈ regions, r.Ranked) (hview : ∀ i < index + regions.length, (d.view i).isSome) :
    pageRegions d len step count index regions skip rows =
      fill (d.row len step) count ((positionsFrom index regions).drop skip) rows := by
  induction regions generalizing index skip rows with
  | nil =>
    rw [positionsFrom, List.drop_nil]
    rfl
  | cons dense regions ih =>
    obtain ⟨hdense, hwords⟩ := hregions dense List.mem_cons_self
    have hrest : ∀ r ∈ regions, r.Ranked := fun r hr ↦ hregions r (List.mem_cons_of_mem _ hr)
    rw [List.length_cons] at hview
    have hviews : ∀ i < index + 1 + regions.length, (d.view i).isSome :=
      fun i hi ↦ hview i (by omega)
    have hcount : dense.count = (members 64 dense.words).length := by
      rw [hdense]
      exact count_buildRank _
    rw [pageRegions]
    split_ifs with henough hskip
    · exact (fill_of_le henough).symm
    · -- The region lies before the page.
      have hdrop : (positionsFrom index (dense :: regions)).drop skip =
          (positionsFrom (index + 1) regions).drop (skip - dense.count) := by
        rw [positionsFrom, List.drop_append, List.length_map, ← hcount,
          List.drop_eq_nil_of_le (by rw [List.length_map, ← hcount]; exact hskip),
          List.nil_append]
      rw [ih hrest hviews, hdrop]
    · -- The page begins in the region, or has begun before it.
      rw [hcount] at hskip
      obtain ⟨slot, hat⟩ : ∃ slot, (members 64 dense.words)[skip]? = some slot :=
        ⟨_, List.getElem?_eq_getElem (Nat.lt_of_not_le hskip)⟩
      have hnth : dense.nthSlot skip = some slot := by
        rw [hdense, nthSlot_eq hwords, hat]
      obtain ⟨view, hview'⟩ := Option.isSome_iff_exists.mp (hview index (by omega))
      have hmem := (mem_members.mp (List.mem_of_getElem? hat)).1
      have hlt : slot / 64 < dense.words.length := by omega
      obtain ⟨word, hword⟩ : ∃ word, dense.words[slot / 64]? = some word :=
        ⟨_, List.getElem?_eq_getElem hlt⟩
      have hbits : word >>> (slot % 64) <<< (slot % 64) < 2 ^ 64 := by
        refine lt_of_le_of_lt ?_ (hwords word (List.mem_of_getElem? hword))
        rw [Nat.shiftRight_eq_div_pow, Nat.shiftLeft_eq]
        exact Nat.div_mul_le_self _ _
      have hdrop : (positionsFrom index (dense :: regions)).drop skip =
          ((members 64 dense.words).drop skip).map (index, ·) ++
            positionsFrom (index + 1) regions := by
        rw [positionsFrom, List.drop_append, List.length_map,
          Nat.sub_eq_zero_of_le (Nat.le_of_lt (Nat.lt_of_not_le hskip)), List.drop_zero,
          List.map_drop]
      have hrow : d.row len step ∘ (index, ·) = view.row len step index := by
        funext slot
        simp only [Function.comp_apply, Dense.row, hview', Option.bind_some]
      rw [hnth, hdrop, fill_append, fill_map, hrow, drop_members_eq (by decide) hat hword]
      simp only [hview', hword, Option.bind_eq_bind, Option.bind_some]
      rw [pageWords_eq hbits fun x hx ↦ hwords x (List.mem_of_mem_drop hx)]
      refine congrArg _ (funext fun rows' ↦ ?_)
      rw [ih hrest hviews, List.drop_zero]

/-- A page is the sub-list of the rows. -/
def PageAgrees (len step : Nat) (c : Candidates) (offset count : Nat) : Prop :=
  ∃ page, results len step c offset count = some page ∧
    ((c.rows len step).drop offset).take count = page.map some

theorem sparse_row_isSome (hs : (Candidates.sparse s).WellFormed len) {i : Nat}
    (hi : i < s.addresses.length) : (s.row len i).isSome := by
  obtain ⟨hregions, hprevious, hfirst⟩ := hs
  have hend : i * len + len ≤ s.addresses.length * len := by
    rw [← Nat.succ_mul]
    exact Nat.mul_le_mul_right len hi
  obtain ⟨previous, hp⟩ := Option.isSome_iff_exists.mp (slice?_isSome.mpr (hprevious ▸ hend))
  obtain ⟨first, hf⟩ := Option.isSome_iff_exists.mp (slice?_isSome.mpr (hfirst ▸ hend))
  rw [Sparse.row, List.getElem?_eq_getElem hi, List.getElem?_eq_getElem (hregions ▸ hi), hp, hf]
  rfl

theorem view_isSome (hd : (Candidates.dense d).WellFormed len) {index : Nat}
    (hindex : index < d.regions.length) : (d.view index).isSome := by
  obtain ⟨hprev, hfirst⟩ := hd.2 index hindex
  obtain ⟨prev, hprev⟩ := Option.isSome_iff_exists.mp hprev
  obtain ⟨firsts, hfirst⟩ := Option.isSome_iff_exists.mp hfirst
  obtain ⟨layout, hlayout, -⟩ := length_of_regionBytes hprev
  simp only [Dense.view, hlayout, hprev, hfirst]
  rfl

/-- **A page is the sub-list of the candidates exactly where it can be read.** -/
theorem pageAgrees_iff {c : Candidates} (hc : c.WellFormed len) (offset count : Nat) :
    PageAgrees len step c offset count ↔ PageFits len step offset count c := by
  cases c with
  | dense d =>
    have hpage : results len step (.dense d) offset count =
        ((d.positions.drop offset).take count).mapM (d.row len step) := by
      show pageRegions d len step count 0 d.regions offset [] = _
      rw [pageRegions_eq hc.1 fun i hi ↦ view_isSome hc (by omega), fill_eq]
      exact Option.map_id'
    rw [PageAgrees, PageFits, hpage, Candidates.rows]
    simp only [← List.map_drop, ← List.map_take, ← mapM_eq_some_iff, and_self]
    rw [← Option.isSome_iff_exists, mapM_isSome_iff]
    refine forall₂_congr fun position hposition ↦ row_isSome hc ?_
    have hmem := mem_positionsFrom (List.mem_of_mem_drop (List.mem_of_mem_take hposition))
    rwa [Nat.zero_add] at hmem
  | sparse s =>
    have hrange : ((List.range s.addresses.length).drop offset).take count =
        List.range' (min offset s.addresses.length) (min (min offset s.addresses.length + count)
          s.addresses.length - min offset s.addresses.length) := by
      rw [List.range_eq_range', List.drop_range', Nat.zero_add, Nat.mul_one]
      obtain hle | hlt := le_or_gt s.addresses.length offset
      · have hzero : s.addresses.length - offset = 0 := Nat.sub_eq_zero_of_le hle
        have hnone : min (min offset s.addresses.length + count) s.addresses.length -
            min offset s.addresses.length = 0 := by omega
        rw [hzero, hnone, List.range'_zero, List.range'_zero, List.take_nil]
      · rw [Nat.min_eq_left (Nat.le_of_lt hlt)]
        obtain hall | hfew := Nat.le_total (s.addresses.length - offset) count
        · have hend : min (offset + count) s.addresses.length - offset =
              s.addresses.length - offset := by omega
          rw [List.take_range'_of_length_le hall, hend]
        · have hend : min (offset + count) s.addresses.length - offset = count := by omega
          rw [List.take_range'_of_length_ge hfew, hend]
    rw [PageAgrees, PageFits, results, Candidates.rows, ← List.map_drop, ← List.map_take, hrange]
    split_ifs with hfits
    · refine iff_of_true ?_ hfits
      simp only [← mapM_eq_some_iff, and_self]
      rw [← Option.isSome_iff_exists, mapM_isSome_iff]
      intro i hi
      have hlt := List.mem_range'_1.mp hi
      exact sparse_row_isSome hc (by omega)
    · exact iff_of_false (fun ⟨_, h, _⟩ ↦ nomatch h) hfits

end Pages

end SuperShuckie.RamSearch
