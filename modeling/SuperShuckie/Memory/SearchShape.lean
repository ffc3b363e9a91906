import SuperShuckie.Memory.SearchPages

/-!
# The shape of a search's candidates

Every scan leaves words of 64 bits with their ranks, or lists of one length: the candidates that any
calls lead to are well formed (`Session.Sound.wellFormed`), and the list a dense state switches to
has the rows of its bits.
-/

set_option autoImplicit false

namespace SuperShuckie.RamSearch

open ByteFormat Bits Fallible

variable {F : Type} {floats : Floats F} {settings : SearchSettings F} {comparison : Comparison F}
  {snapshot previous first : MemorySnapshot} {control : ScanControl} {words : List Nat}
  {index : Nat}

theorem ranked_buildRank (h : WordsFit words) : (buildRank words).Ranked := ⟨rfl, h⟩

/-! ## The first scan -/

theorem wordsFit_setBit {s : Nat} {words' : List Nat} (h : WordsFit words)
    (hset : setBit words s = some words') : WordsFit words' := by
  rw [setBit] at hset
  split_ifs at hset with hs
  cases hset
  have hbit : 1 <<< (s % 64) < 2 ^ 64 := by
    rw [Nat.shiftLeft_eq, Nat.one_mul]
    exact Nat.pow_lt_pow_right (by decide) (Nat.mod_lt s (by decide))
  intro x hx
  obtain ⟨i, hi, rfl⟩ := List.mem_iff_getElem.mp hx
  rw [List.length_modify] at hi
  rw [List.getElem_modify]
  split_ifs
  · exact Nat.or_lt_two_pow (h _ (List.getElem_mem hi)) hbit
  · exact h _ (List.getElem_mem hi)

theorem wordsFit_scanSlots {bytes : Bytes} {slots done s : Nat} {words' : List Nat}
    (h : WordsFit words)
    (hscan : Gives (scanSlots floats settings comparison control index bytes slots done s words)
      words') : WordsFit words' := by
  induction slots generalizing done s words with
  | zero =>
    rw [scanSlots, gives_pure_iff] at hscan
    exact hscan ▸ h
  | succ slots ih =>
    rw [scanSlots] at hscan
    split_ifs at hscan
    · exact absurd hscan not_gives_throw
    · obtain ⟨ok, -, hscan⟩ := gives_bind.mp hscan
      obtain ⟨next, hnext, hscan⟩ := gives_bind.mp hscan
      rw [gives_slice] at hnext
      split_ifs at hnext
      · exact ih (wordsFit_setBit h hnext) hscan
      · cases hnext
        exact ih h hscan

/-- The first scan of a region: its bytes are there, and its words fit. -/
theorem newRegion_ranked {layout : SnapshotRegion} {r : DenseRegion}
    (h : Gives (newRegion floats settings comparison control snapshot index layout) r) :
    r.Ranked ∧ (snapshot.regionBytes index).isSome := by
  obtain ⟨bytes, hbytes, h⟩ := gives_bind.mp h
  obtain ⟨words, hwords, h⟩ := gives_bind.mp h
  obtain rfl := gives_pure_iff.mp h
  rw [gives_slice] at hbytes
  refine ⟨ranked_buildRank (wordsFit_scanSlots (fun x hx ↦ ?_) hwords), by rw [hbytes]; rfl⟩
  rw [List.eq_of_mem_replicate hx]
  decide

theorem newRegions_ranked {layouts : List SnapshotRegion} {regions : List DenseRegion}
    (h : Gives (newRegions floats settings comparison control snapshot index layouts) regions) :
    (∀ r ∈ regions, r.Ranked) ∧
      ∀ i < regions.length, (snapshot.regionBytes (index + i)).isSome := by
  induction layouts generalizing index regions with
  | nil =>
    obtain rfl := gives_pure_iff.mp h
    exact ⟨fun _ hr ↦ (nomatch hr), fun i hi ↦ absurd hi (Nat.not_lt_zero i)⟩
  | cons layout layouts ih =>
    obtain ⟨r, hr, h⟩ := gives_bind.mp h
    obtain ⟨more, hmore, h⟩ := gives_bind.mp h
    obtain rfl := gives_pure_iff.mp h
    obtain ⟨hranked, hbytes⟩ := newRegion_ranked hr
    obtain ⟨hothers, hviews⟩ := ih hmore
    refine ⟨List.forall_mem_cons.mpr ⟨hranked, hothers⟩, fun i hi ↦ ?_⟩
    cases i with
    | zero => exact hbytes
    | succ i =>
      rw [Nat.add_succ, ← Nat.succ_add]
      exact hviews i (Nat.lt_of_succ_lt_succ hi)

/-! ## Further scans -/

section Words

variable {current prev firsts : Bytes} {w word x : Nat}

theorem refineBits_lt {start kept : Nat} {bits : List Nat} (hbits : ∀ bit ∈ bits, bit < 64)
    (hkept : kept < 2 ^ 64)
    (h : refineBits floats settings comparison current prev firsts start bits kept = some x) :
    x < 2 ^ 64 := by
  induction bits generalizing kept with
  | nil =>
    cases h
    exact hkept
  | cons bit bits ih =>
    have hrest : ∀ b ∈ bits, b < 64 := fun b hb ↦ hbits b (List.mem_cons_of_mem _ hb)
    rw [refineBits] at h
    split_ifs at h
    · exact ih hrest hkept h
    · simp only [Option.bind_eq_bind, Option.bind_eq_some_iff] at h
      obtain ⟨value, -, ok, -, h⟩ := h
      refine ih hrest ?_ h
      split_ifs
      · refine Nat.or_lt_two_pow hkept ?_
        rw [Nat.shiftLeft_eq, Nat.one_mul]
        exact Nat.pow_lt_pow_right (by decide) (hbits bit List.mem_cons_self)
      · exact hkept

theorem refineWord_lt (hword : word < 2 ^ 64)
    (h : refineWord floats settings comparison current prev firsts w word = some x) :
    x < 2 ^ 64 := by
  rw [refineWord] at h
  dsimp only at h
  split_ifs at h
  · cases h
    decide
  · cases h
    exact hword
  · cases h
    decide
  · refine refineBits_lt (fun bit hbit ↦ ?_) (by decide) h
    rw [setBits_eq (length_ones_le 64 word) hword] at hbit
    exact lt_of_mem_ones hbit

theorem refineWords_fit {words' : List Nat} (hwords : WordsFit words)
    (h : Gives (refineWords floats settings comparison control current prev firsts index w words)
      words') : WordsFit words' := by
  induction words generalizing w words' with
  | nil =>
    obtain rfl := gives_pure_iff.mp h
    exact hwords
  | cons word words ih =>
    rw [refineWords] at h
    split_ifs at h
    · exact absurd h not_gives_throw
    · obtain ⟨kept, hkept, h⟩ := gives_bind.mp h
      obtain ⟨more, hmore, h⟩ := gives_bind.mp h
      obtain rfl := gives_pure_iff.mp h
      exact List.forall_mem_cons.mpr ⟨refineWord_lt (hwords word List.mem_cons_self)
        (gives_slice.mp hkept), ih (fun x hx ↦ hwords x (List.mem_cons_of_mem _ hx)) hmore⟩

end Words

theorem refineRegions_ranked {regions regions' : List DenseRegion}
    (hregions : ∀ r ∈ regions, r.Ranked)
    (h : Gives (refineRegions floats settings comparison snapshot control previous first index
      regions) regions') : (∀ r ∈ regions', r.Ranked) ∧ ∀ i < regions'.length,
      (snapshot.regionBytes (index + i)).isSome ∧ (first.regionBytes (index + i)).isSome := by
  induction regions generalizing index regions' with
  | nil =>
    obtain rfl := gives_pure_iff.mp h
    exact ⟨hregions, fun i hi ↦ absurd hi (Nat.not_lt_zero i)⟩
  | cons r regions ih =>
    obtain ⟨current, hcurrent, h⟩ := gives_bind.mp h
    obtain ⟨prev, -, h⟩ := gives_bind.mp h
    obtain ⟨firsts, hfirsts, h⟩ := gives_bind.mp h
    obtain ⟨words, hwords, h⟩ := gives_bind.mp h
    obtain ⟨more, hmore, h⟩ := gives_bind.mp h
    obtain rfl := gives_pure_iff.mp h
    rw [gives_slice] at hcurrent hfirsts
    obtain ⟨hothers, hviews⟩ := ih (fun r hr ↦ hregions r (List.mem_cons_of_mem _ hr)) hmore
    have hfit := refineWords_fit (hregions r List.mem_cons_self).2 hwords
    refine ⟨List.forall_mem_cons.mpr ⟨ranked_buildRank hfit, hothers⟩, fun i hi ↦ ?_⟩
    cases i with
    | zero => exact ⟨by rw [Nat.add_zero, hcurrent]; rfl, by rw [Nat.add_zero, hfirsts]; rfl⟩
    | succ i =>
      rw [Nat.add_succ, ← Nat.succ_add]
      exact hviews i (Nat.lt_of_succ_lt_succ hi)

theorem length_of_slice? {bytes value : Bytes} {start len : Nat}
    (h : slice? bytes start len = some value) : value.length = len := by
  rw [slice?] at h
  split_ifs at h
  cases h
  rw [List.length_take, List.length_drop]
  omega

/-- The lists grow together. -/
theorem refineSparse_wellFormed {s new new' : Sparse} {i : Nat} {entries : List (Nat × Nat)}
    (hnew : (Candidates.sparse new).WellFormed settings.format.size)
    (h : Gives (refineSparse floats settings comparison snapshot control s i entries new) new') :
    (Candidates.sparse new').WellFormed settings.format.size := by
  induction entries generalizing i new with
  | nil =>
    obtain rfl := gives_pure_iff.mp h
    exact hnew
  | cons entry entries ih =>
    obtain ⟨address, region⟩ := entry
    rw [refineSparse] at h
    split_ifs at h
    · exact absurd h not_gives_throw
    · split at h
      · exact ih hnew h
      · split_ifs at h
        · exact absurd h not_gives_throw
        · obtain ⟨bytes, -, h⟩ := gives_bind.mp h
          obtain ⟨current, hcurrent, h⟩ := gives_bind.mp h
          obtain ⟨prev, -, h⟩ := gives_bind.mp h
          obtain ⟨firsts, hfirsts, h⟩ := gives_bind.mp h
          obtain ⟨ok, -, h⟩ := gives_bind.mp h
          refine ih ?_ h
          split_ifs
          · obtain ⟨hregions, hprevious, hfirst⟩ := hnew
            have hcurrent := length_of_slice? (gives_slice.mp hcurrent)
            have hfirsts := length_of_slice? (gives_slice.mp hfirsts)
            refine ⟨?_, ?_, ?_⟩
            · simp only [List.length_append, List.length_singleton, hregions]
            · simp only [List.length_append, List.length_singleton, hprevious, hcurrent,
                Nat.add_mul, Nat.one_mul]
            · simp only [List.length_append, List.length_singleton, hfirst, hfirsts, Nat.add_mul,
                Nat.one_mul]
          · exact hnew

/-! ## The switch to a list -/

section Rows

variable {d : Dense} {len step : Nat} {rows : List SearchRow}

theorem rowsOfWords_eq {row : Nat → Option SearchRow} {w : Nat} (h : WordsFit words) :
    rowsOfWords row w words = ((members 64 words).map (w * 64 + ·)).mapM row := by
  induction words generalizing w with
  | nil => rfl
  | cons word words ih =>
    have hshift : (members 64 (word :: words)).map (w * 64 + ·) =
        (ones 64 word).map (w * 64 + ·) ++ (members 64 words).map ((w + 1) * 64 + ·) := by
      rw [members, List.map_append, List.map_map]
      refine congrArg _ (List.map_congr_left fun s _ ↦ ?_)
      simp only [Function.comp_apply]
      omega
    rw [rowsOfWords, setBits_eq (length_ones_le 64 word) (h word List.mem_cons_self),
      ih fun x hx ↦ h x (List.mem_cons_of_mem _ hx), hshift, List.mapM_append,
      List.mapM_map (l := ones 64 word)]
    rfl

/-- **The switch reads the row of every candidate.** -/
theorem rowsOfRegions_eq {regions : List DenseRegion} (hregions : ∀ r ∈ regions, r.Ranked)
    (hview : ∀ i < regions.length, (d.view (index + i)).isSome) :
    rowsOfRegions d len step index regions =
      (positionsFrom index regions).mapM (d.row len step) := by
  induction regions generalizing index with
  | nil => rfl
  | cons r regions ih =>
    obtain ⟨view, hat⟩ := Option.isSome_iff_exists.mp (hview 0 (Nat.succ_pos _))
    have hrow : d.row len step ∘ (index, ·) = view.row len step index := by
      funext slot
      simp only [Function.comp_apply, Dense.row, show d.view index = some view from hat,
        Option.bind_some]
    have hwords : (members 64 r.words).map (0 * 64 + ·) = members 64 r.words := by
      simp only [Nat.zero_mul, Nat.zero_add, List.map_id']
    have hmore := @ih (index + 1) (fun r hr ↦ hregions r (List.mem_cons_of_mem _ hr))
      fun i hi ↦ by
        rw [Nat.add_assoc, Nat.add_comm 1]
        exact hview (i + 1) (Nat.succ_lt_succ hi)
    rw [rowsOfRegions, show d.view index = some view from hat, positionsFrom, List.mapM_append,
      List.mapM_map, hrow, hmore]
    show ((rowsOfWords _ 0 r.words).bind fun rows ↦ _) = _
    rw [rowsOfWords_eq (hregions r List.mem_cons_self).2, hwords]
    rfl

theorem row_shape {position : Nat × Nat} {row : SearchRow}
    (h : d.row len step position = some row) :
    row.region = position.1 ∧ row.previous.length = len ∧ row.first.length = len := by
  simp only [Dense.row, RegionView.row, Option.bind_eq_some_iff, Option.bind_eq_bind] at h
  obtain ⟨view, -, value, hvalue, h⟩ := h
  split_ifs at h
  cases h
  have hlength := length_of_slice? hvalue
  refine ⟨rfl, hlength, ?_⟩
  show ((slice? view.firsts _ len).getD value).length = len
  cases hfirst : slice? view.firsts (position.2 * step) len with
  | none => exact hlength
  | some value' => exact length_of_slice? hfirst

theorem length_flatMap_values {f : SearchRow → Bytes} (h : ∀ row ∈ rows, (f row).length = len) :
    (rows.flatMap f).length = rows.length * len := by
  induction rows with
  | nil => exact (Nat.zero_mul len).symm
  | cons row rows ih =>
    rw [List.flatMap_cons, List.length_append, h row List.mem_cons_self,
      ih fun r hr ↦ h r (List.mem_cons_of_mem _ hr), List.length_cons, Nat.succ_mul, Nat.add_comm]

theorem wellFormed_ofRows (h : ∀ row ∈ rows, row.previous.length = len ∧ row.first.length = len) :
    (Candidates.sparse (.ofRows rows)).WellFormed len := by
  refine ⟨?_, ?_, ?_⟩
  · simp only [Sparse.ofRows, List.length_map]
  · simp only [Sparse.ofRows, List.length_map]
    exact length_flatMap_values fun row hrow ↦ (h row hrow).1
  · simp only [Sparse.ofRows, List.length_map]
    exact length_flatMap_values fun row hrow ↦ (h row hrow).2

theorem maybeMakeSparse_wellFormed {c c' : Candidates} (hc : c.WellFormed len)
    (h : maybeMakeSparse len step c = some c') : c'.WellFormed len := by
  cases c with
  | sparse s =>
    cases h
    exact hc
  | dense d =>
    rw [maybeMakeSparse] at h
    split_ifs at h
    · rw [Option.map_eq_some_iff] at h
      obtain ⟨rows, hrows, rfl⟩ := h
      rw [rowsOfRegions_eq hc.1 fun i hi ↦ view_isSome hc (by omega), mapM_eq_some_iff] at hrows
      refine wellFormed_ofRows fun row hrow ↦ ?_
      have hmem : some row ∈ (positionsFrom 0 d.regions).map (d.row len step) := by
        rw [hrows]
        exact List.mem_map_of_mem hrow
      obtain ⟨position, -, hposition⟩ := List.mem_map.mp hmem
      exact (row_shape hposition).2
    · cases h
      exact hc

end Rows

/-! ## Whole runs -/

theorem scanned_wellFormed {c c' : Candidates} {scan : Scan F}
    (hc : c.WellFormed settings.format.size) (h : scanned floats settings c scan = some c') :
    c'.WellFormed settings.format.size := by
  rw [scanned] at h
  split at h
  · rename_i next hnext
    refine maybeMakeSparse_wellFormed ?_ h
    obtain ⟨-, -, hscan⟩ := gives_bind.mp hnext
    split_ifs at hscan
    · exact absurd hscan not_gives_throw
    · cases c with
      | dense d =>
        simp only at hscan
        split_ifs at hscan
        · obtain ⟨regions, hregions, hscan⟩ := gives_bind.mp hscan
          obtain rfl := gives_pure_iff.mp hscan
          obtain ⟨hranked, hviews⟩ := refineRegions_ranked hc.1 hregions
          simp only [Nat.zero_add] at hviews
          exact ⟨hranked, hviews⟩
        · exact absurd hscan not_gives_throw
      | sparse s =>
        obtain ⟨new, hnew, hscan⟩ := gives_bind.mp hscan
        obtain rfl := gives_pure_iff.mp hscan
        refine refineSparse_wellFormed ⟨rfl, ?_, ?_⟩ hnew
        · exact (Nat.zero_mul _).symm
        · exact (Nat.zero_mul _).symm
  · cases h

theorem new_wellFormed {search : Search F}
    (h : Gives (Search.new floats settings comparison snapshot control) search) :
    search.candidates.WellFormed settings.format.size := by
  obtain ⟨-, -, h⟩ := gives_bind.mp h
  split_ifs at h
  · obtain ⟨regions, hregions, h⟩ := gives_bind.mp h
    obtain ⟨candidates, hcandidates, h⟩ := gives_bind.mp h
    obtain rfl := gives_pure_iff.mp h
    obtain ⟨hranked, hviews⟩ := newRegions_ranked hregions
    simp only [Nat.zero_add] at hviews
    have hdense : (Candidates.dense ⟨regions, snapshot, snapshot, true⟩).WellFormed
        settings.format.size :=
      ⟨hranked, fun i hi ↦ ⟨hviews i hi, hviews i hi⟩⟩
    exact maybeMakeSparse_wellFormed hdense (gives_slice.mp hcandidates)
  · exact absurd h not_gives_throw

/-- **The candidates are well formed after any calls.** -/
theorem Session.wellFormed {search : Search F} {calls : List (Call F)} {s : Session F}
    (hnew : Gives (Search.new floats settings comparison snapshot control) search)
    (hrun : Session.run floats calls ⟨search, [], []⟩ = some s) :
    s.search.candidates.WellFormed settings.format.size ∧ s.search.settings = settings := by
  have hsound := (sound_new hnew).run hrun
  exact ⟨rescan_kept (fun _ _ _ hc h ↦ scanned_wellFormed hc h) (new_wellFormed hnew)
    hsound.rescan_eq, hsound.settings_eq⟩

end SuperShuckie.RamSearch
