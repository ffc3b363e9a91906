import SuperShuckie.Memory.SearchShape

/-!
# Changed layouts

A scan of a dense state fails if the snapshot's regions are not the search's.  A scan of a list only
fails when the region of an address has another index; an address that is in no region is dropped.
`pages_and_layout_iff` says where the two agree, and which pages are what they should be.
-/

set_option autoImplicit false

namespace SuperShuckie.RamSearch

open ByteFormat Fallible

variable {F : Type} {floats : Floats F} {settings : SearchSettings F} {comparison : Comparison F}
  {snapshot previous first : MemorySnapshot} {control : ScanControl} {index : Nat}

/-! ## Values are read without a panic -/

theorem number_isSome {reader : Reader F} {bytes : Bytes} (hsize : reader.format.SizeFits)
    (hlen : reader.len = reader.format.size) (hbytes : bytes.length = reader.len) :
    (reader.number floats bytes 0).isSome := by
  rw [Reader.number, hlen]
  by_cases hty : reader.format.ty.isInteger = true
  · rw [readerNumber_eq floats hsize hty (by omega), decode_eq floats hsize hty (by omega)]
    rfl
  · have hcond : ¬ bytes.length < 0 + reader.format.size := by omega
    have htake : (bytes.drop 0).take reader.format.size = bytes :=
      List.take_of_length_le (by rw [List.length_drop]; omega)
    have hshort : ¬ bytes.length < reader.format.size := by omega
    rw [readerNumber, if_neg hcond, htake]
    cases hcase : reader.format.ty <;>
      simp_all [ValueType.isInteger, ValueType.isNumeric, decodeNumber]

theorem isSome_passed {number : Option (Option (Number F))} {passes : Number F → Option Bool}
    (hnumber : number.isSome) (h : ∀ value, (passes value).isSome) :
    (match number with
      | none => none
      | some none => some false
      | some (some value) => passes value).isSome := by
  obtain ⟨number, rfl⟩ := Option.isSome_iff_exists.mp hnumber
  cases number with
  | none => rfl
  | some value => exact h value

/-- A comparison of values of the reader's length is made. -/
theorem passes_isSome {reader : Reader F} {current : Bytes} {prev firsts : Option Bytes}
    (hsize : reader.format.SizeFits) (hlen : reader.len = reader.format.size)
    (hcurrent : current.length = reader.len) (hprev : ∀ b ∈ prev, b.length = reader.len)
    (hfirsts : ∀ b ∈ firsts, b.length = reader.len) :
    (reader.passes floats comparison current prev firsts).isSome := by
  have hnumber (bytes : Option Bytes) (h : ∀ b ∈ bytes, b.length = reader.len)
      (P : Number F → Bool) : (reader.numberAnd floats bytes P).isSome := by
    rw [Reader.numberAnd, Option.isSome_map]
    cases bytes with
    | none => rfl
    | some b => exact number_isSome hsize hlen (h b rfl)
  have hpassed (h : ∀ value, (reader.passesNumber floats comparison value prev firsts).isSome) :=
    isSome_passed (@number_isSome F floats reader current hsize hlen hcurrent) h
  cases comparison
  case unknown | pattern | changed | unchanged | equalToFirst | notEqualToFirst => rfl
  all_goals
    refine hpassed fun value ↦ ?_
    first
    | rfl
    | exact hnumber prev hprev _
    | exact hnumber firsts hfirsts _

/-! ## Refusals -/

/-- The search can be narrowed by the comparison. -/
def Accepted (settings : SearchSettings F) (comparison : Comparison F) : Prop :=
  Gives (checkComparison settings comparison) () ∧ comparison.isUnknown = false

/-- Every region's bytes are among the snapshot's. -/
def MemorySnapshot.InBounds (s : MemorySnapshot) : Prop :=
  ∀ layout ∈ s.layout, layout.offset + layout.available ≤ s.bytes.length

/-- A candidate of the list, from the `i`th on, is now mapped in a region of another index, and the
scan is not cancelled before it. -/
def Moved (len : Nat) (snapshot : MemorySnapshot) (control : ScanControl) (i : Nat)
    (entries : List (Nat × Nat)) : Prop :=
  ∃ k address region index offset, entries[k]? = some (address, region) ∧
    snapshot.locate address len = some (index, offset) ∧ index ≠ region ∧
    ∀ j ≤ k, ¬ ((i + j) % chunkSlots = 0 ∧ control.cancel 0 ((i + j) / chunkSlots) = true)

theorem not_layoutChanged_refineWords {current prev firsts : Bytes} {w : Nat} {words : List Nat} :
    ¬ Fails (refineWords floats settings comparison control current prev firsts index w words)
      .layoutChanged := by
  induction words generalizing w with
  | nil => exact not_fails_pure
  | cons word words ih =>
    rw [refineWords]
    split_ifs
    · rw [fails_throw_iff]
      intro h
      cases h
    · simp only [fails_bind, not_fails_slice, not_fails_pure, ih, and_false, exists_false,
        or_false, not_false_eq_true]

theorem not_layoutChanged_refineRegions {regions : List DenseRegion} :
    ¬ Fails (refineRegions floats settings comparison snapshot control previous first index regions)
      .layoutChanged := by
  induction regions generalizing index with
  | nil => exact not_fails_pure
  | cons r regions ih =>
    rw [refineRegions]
    simp only [fails_bind, not_fails_slice, not_fails_pure, not_layoutChanged_refineWords, ih,
      and_false, exists_false, or_false, not_false_eq_true]

theorem not_layoutChanged_checkComparison :
    ¬ Fails (checkComparison settings comparison) .layoutChanged := by
  unfold checkComparison
  split_ifs
  · rw [fails_throw_iff]
    exact fun h ↦ nomatch h
  · cases comparison
    case pattern =>
      dsimp only
      split_ifs
      · rw [fails_throw_iff]
        exact fun h ↦ nomatch h
      · exact not_fails_pure
    all_goals exact not_fails_pure

/-- What a refused comparison fails with is not the layout. -/
theorem fails_scan_iff {c : Candidates} :
    Fails (scan floats settings comparison snapshot control c) .layoutChanged ↔
      Accepted settings comparison ∧
        match c with
        | .dense d => snapshot.sameLayout d.previous = false
        | .sparse s => Fails (refineSparse floats settings comparison snapshot control s 0
            (s.addresses.zip s.regions) {}) .layoutChanged := by
  unfold scan
  rw [fails_bind, or_iff_right not_layoutChanged_checkComparison, Accepted, and_assoc,
    Unique.exists_iff]
  refine and_congr_right fun _ ↦ ?_
  split_ifs with hunknown
  · rw [fails_throw_iff, hunknown]
    exact iff_of_false (fun h ↦ nomatch h) fun h ↦ nomatch h.1
  · rw [and_iff_right (Bool.not_eq_true _ ▸ hunknown)]
    cases c with
    | dense d =>
      simp only
      split_ifs with hsame
      · simp only [fails_bind, not_layoutChanged_refineRegions, not_fails_pure, and_false,
          exists_false, or_false, hsame, Bool.true_eq_false]
      · simp only [fails_throw_iff, Bool.not_eq_true _ ▸ hsame]
    | sparse s =>
      simp only [fails_bind, not_fails_pure, and_false, exists_false, or_false]

theorem locateFrom_some {address len : Nat} {layouts : List SnapshotRegion} {at_ : Nat × Nat}
    (h : locateFrom address len index layouts = some at_) :
    ∃ i layout, layouts[i]? = some layout ∧ at_.1 = index + i ∧ at_.2 + len ≤ layout.available := by
  induction layouts generalizing index with
  | nil => cases h
  | cons layout layouts ih =>
    have hlater (h : locateFrom address len (index + 1) layouts = some at_) :
        ∃ i layout', (layout :: layouts)[i]? = some layout' ∧ at_.1 = index + i ∧
          at_.2 + len ≤ layout'.available := by
      obtain ⟨i, layout', hat, hindex, hle⟩ := ih h
      exact ⟨i + 1, layout', hat, by omega, hle⟩
    rw [locateFrom] at h
    split at h
    · split_ifs at h with hle
      · cases h
        exact ⟨0, layout, rfl, rfl, hle⟩
      · exact hlater h
    · exact hlater h

/-- What is located can be read. -/
theorem slice_locate (hsnapshot : snapshot.InBounds) {address len offset : Nat}
    (h : snapshot.locate address len = some (index, offset)) :
    ∃ bytes value, snapshot.regionBytes index = some bytes ∧
      slice? bytes offset len = some value := by
  obtain ⟨i, layout, hat, hindex, hle⟩ := locateFrom_some h
  rw [Nat.zero_add] at hindex
  obtain rfl : index = i := hindex
  have hbounds := hsnapshot layout (List.mem_of_getElem? hat)
  obtain ⟨bytes, hslice⟩ := Option.isSome_iff_exists.mp (slice?_isSome.mpr hbounds)
  have hbytes : snapshot.regionBytes index = some bytes := by
    rw [MemorySnapshot.regionBytes, hat]
    exact hslice
  have hlength := length_of_slice? hslice
  obtain ⟨value, hvalue⟩ := Option.isSome_iff_exists.mp
    (@slice?_isSome bytes offset len |>.mpr (hlength ▸ hle))
  exact ⟨bytes, value, hbytes, hvalue⟩

/-- **A scan of the list fails exactly if a candidate has moved.** -/
theorem fails_refineSparse (hsize : settings.format.SizeFits) (hsnapshot : snapshot.InBounds)
    {s new : Sparse} (hs : (Candidates.sparse s).WellFormed settings.format.size) {i : Nat}
    {entries : List (Nat × Nat)} (hi : i + entries.length ≤ s.addresses.length) :
    Fails (refineSparse floats settings comparison snapshot control s i entries new)
      .layoutChanged ↔ Moved settings.format.size snapshot control i entries := by
  induction entries generalizing i new with
  | nil =>
    refine iff_of_false not_fails_pure ?_
    rintro ⟨k, address, region, index, offset, hat, -⟩
    cases hat
  | cons entry entries ih =>
    obtain ⟨address, region⟩ := entry
    rw [List.length_cons] at hi
    -- A candidate that has not moved leaves the question to the others.
    have hskip (hcancel : ¬ (i % chunkSlots = 0 ∧ control.cancel 0 (i / chunkSlots) = true))
        (hhere : ∀ index offset, snapshot.locate address settings.format.size =
          some (index, offset) → index = region) :
        Moved settings.format.size snapshot control (i + 1) entries ↔
          Moved settings.format.size snapshot control i ((address, region) :: entries) := by
      constructor
      · rintro ⟨k, address', region', index, offset, hat, hlocate, hne, hall⟩
        refine ⟨k + 1, address', region', index, offset, hat, hlocate, hne, fun j hj ↦ ?_⟩
        cases j with
        | zero => exact hcancel
        | succ j =>
          have hj' := hall j (by omega)
          rwa [Nat.add_assoc, Nat.add_comm 1] at hj'
      · rintro ⟨k, address', region', index, offset, hat, hlocate, hne, hall⟩
        cases k with
        | zero =>
          cases hat
          exact absurd (hhere index offset hlocate) hne
        | succ k =>
          refine ⟨k, address', region', index, offset, hat, hlocate, hne, fun j hj ↦ ?_⟩
          have hj' := hall (j + 1) (by omega)
          rwa [← Nat.add_assoc, Nat.add_right_comm] at hj'
    have hnext (new : Sparse) := @ih new (i + 1) (by omega)
    rw [refineSparse]
    split_ifs with hcancel
    · rw [fails_throw_iff]
      refine iff_of_false (fun h ↦ by cases h) ?_
      rintro ⟨k, -, -, -, -, -, -, -, hall⟩
      exact hall 0 (Nat.zero_le k) hcancel
    · split
      · rename_i hnone
        rw [hnext, hskip hcancel fun index offset hsome ↦ by rw [hnone] at hsome; cases hsome]
      · rename_i index offset hlocate
        split_ifs with hmoved
        · rw [fails_throw_iff]
          refine iff_of_true rfl ⟨0, address, region, index, offset, rfl, hlocate, hmoved, ?_⟩
          intro j hj
          obtain rfl := Nat.le_zero.mp hj
          exact hcancel
        · have hhere : ∀ index' offset', snapshot.locate address settings.format.size =
              some (index', offset') → index' = region := by
            intro index' offset' h
            rw [hlocate] at h
            cases h
            exact not_not.mp hmoved
          obtain ⟨bytes, current, hbytes, hcurrent⟩ := slice_locate hsnapshot hlocate
          have hend : i * settings.format.size + settings.format.size ≤
              s.addresses.length * settings.format.size := by
            rw [← Nat.succ_mul]
            exact Nat.mul_le_mul_right _ (by omega)
          obtain ⟨-, hprevious, hfirst⟩ := hs
          obtain ⟨prev, hprev⟩ := Option.isSome_iff_exists.mp
            (slice?_isSome.mpr (hprevious ▸ hend))
          obtain ⟨firsts, hfirsts⟩ := Option.isSome_iff_exists.mp
            (slice?_isSome.mpr (hfirst ▸ hend))
          obtain ⟨ok, hok⟩ := Option.isSome_iff_exists.mp (@passes_isSome F floats comparison
            settings.reader current (some prev) (some firsts) hsize rfl
            (length_of_slice? hcurrent)
            (fun b hb ↦ by cases hb; exact length_of_slice? hprev)
            (fun b hb ↦ by cases hb; exact length_of_slice? hfirsts))
          simp only [hbytes, hcurrent, hprev, hfirsts, hok, slice_some, pure_bind]
          rw [hnext, hskip hcancel hhere]

/-! ## Both representations -/

/-- The list of a dense state's candidates fails with a changed layout exactly when it does. -/
def LayoutAgrees (floats : Floats F) (settings : SearchSettings F) (d : Dense)
    (rows : List SearchRow) (scan : Scan F) : Prop :=
  Fails (RamSearch.scan floats settings scan.comparison scan.snapshot scan.control (.dense d))
      .layoutChanged ↔
    Fails (RamSearch.scan floats settings scan.comparison scan.snapshot scan.control
      (.sparse (.ofRows rows))) .layoutChanged

/-- The snapshot's regions are the search's and no candidate has moved, or both are otherwise; or
the comparison is refused. -/
def LayoutFits (settings : SearchSettings F) (d : Dense) (rows : List SearchRow) (scan : Scan F) :
    Prop :=
  Accepted settings scan.comparison →
    (scan.snapshot.sameLayout d.previous = true ↔
      ¬ Moved settings.format.size scan.snapshot scan.control 0
        (rows.map fun row ↦ (row.address, row.region % 2 ^ 16)))

theorem layoutAgrees_iff (hsize : settings.format.SizeFits) {d : Dense} {rows : List SearchRow}
    (hrows : ∀ row ∈ rows, row.previous.length = settings.format.size ∧
      row.first.length = settings.format.size)
    {scan : Scan F} (hsnapshot : scan.snapshot.InBounds) :
    LayoutAgrees floats settings d rows scan ↔ LayoutFits settings d rows scan := by
  have hentries : (Sparse.ofRows rows).addresses.zip (Sparse.ofRows rows).regions =
      rows.map fun row ↦ (row.address, row.region % 2 ^ 16) := List.zip_map'
  have hlength : 0 + (rows.map fun row ↦ (row.address, row.region % 2 ^ 16)).length ≤
      (Sparse.ofRows rows).addresses.length := by
    rw [Nat.zero_add, List.length_map, Sparse.ofRows, List.length_map]
  rw [LayoutAgrees, LayoutFits, fails_scan_iff, fails_scan_iff]
  dsimp only
  rw [hentries, fails_refineSparse hsize hsnapshot (wellFormed_ofRows hrows) hlength,
    and_congr_right_iff, ← Bool.not_eq_true]
  exact imp_congr_right fun _ ↦ not_iff_comm.trans iff_comm

/-- **Pages and layout checks depend on the representation.**  After any calls a page is the sub-list
of the candidates exactly if it can be read; and the list of a dense state's candidates refuses the
snapshots that the dense state refuses exactly if a changed layout moves one of them. -/
theorem pages_and_layout_iff {search : Search F} {calls : List (Call F)} {s : Session F}
    (hnew : Gives (Search.new floats settings comparison snapshot control) search)
    (hrun : Session.run floats calls ⟨search, [], []⟩ = some s)
    (hsize : settings.format.SizeFits) :
    (∀ offset count,
      (∃ page, s.search.results offset count = some page ∧
        ((s.search.candidates.rows settings.format.size settings.step).drop offset).take count =
          page.map some) ↔
      PageFits settings.format.size settings.step offset count s.search.candidates) ∧
    ∀ d rows (scan : Scan F), (Candidates.dense d).WellFormed settings.format.size →
      rowsOfRegions d settings.format.size settings.step 0 d.regions = some rows →
      scan.snapshot.InBounds →
      (LayoutAgrees floats settings d rows scan ↔ LayoutFits settings d rows scan) := by
  obtain ⟨hwell, hsettings⟩ := Session.wellFormed hnew hrun
  refine ⟨fun offset count ↦ ?_, fun d rows scan hd hrows hsnapshot ↦ ?_⟩
  · rw [Search.results, hsettings]
    exact pageAgrees_iff hwell offset count
  · refine layoutAgrees_iff hsize (fun row hrow ↦ ?_) hsnapshot
    rw [rowsOfRegions_eq hd.1 fun i hi ↦ view_isSome hd (by omega)] at hrows
    have hmem : some row ∈ (positionsFrom 0 d.regions).map
        (d.row settings.format.size settings.step) := by
      rw [mapM_eq_some_iff.mp hrows]
      exact List.mem_map_of_mem hrow
    obtain ⟨position, -, hposition⟩ := List.mem_map.mp hmem
    exact (row_shape hposition).2

/-- A byte is left; its page ends at a 64-bit number. -/
theorem pages_and_layout_fourBytes :
    ∃ s, Session.run noFloats [.refine changedByte] ⟨fourBytes, [], []⟩ = some s ∧
      ∃ page, s.search.results 0 1 = some page ∧
        ((s.search.candidates.rows 1 1).drop 0).take 1 = page.map some := by
  have hrun : Session.run noFloats [.refine changedByte] ⟨fourBytes, [], []⟩ = some _ := rfl
  refine ⟨_, hrun, ((pages_and_layout_iff gives_fourBytes hrun rfl).1 0 1).mpr ?_⟩
  show 0 + 1 < 2 ^ 64
  decide

/-- The four bytes at another address. -/
def elsewhere : MemorySnapshot where
  frame := 2
  epoch := 0
  layout := [⟨⟨⟨0x2000, 4, true⟩, [], [], false⟩, 0, 4⟩]
  bytes := [1, 9, 3, 4]

/-- The candidate that changed, as bits. -/
def changedDense : Dense where
  regions := [⟨[2], 1, [0]⟩]
  previous := snapshotOf 1 [1, 9, 3, 4]
  first := snapshotOf 0 [1, 2, 3, 4]
  shared := false

/-- **The end of a page overflows, and a region that is gone is not noticed**: the byte that changed
is left in a list, whose rows from the second one on are asked for up to the greatest number; the
dense state of that byte refuses a layout without its region, the list drops it. -/
theorem page_overflows :
    ∃ s rows,
      Session.run noFloats [.refine changedByte] ⟨fourBytes, [], []⟩ = some s ∧
      s.search.results 1 (2 ^ 64 - 1) = none ∧
      rowsOfRegions changedDense 1 1 0 changedDense.regions = some rows ∧
      s.search.candidates = .sparse (.ofRows rows) ∧
      (RamSearch.scan noFloats byteSettings .unchanged elsewhere notCancelled
        (.dense changedDense)).run = some (.error .layoutChanged) ∧
      (RamSearch.scan noFloats byteSettings .unchanged elsewhere notCancelled
        (.sparse (.ofRows rows))).run = some (.ok (.sparse {})) :=
  ⟨_, _, rfl, by decide +kernel, rfl, by decide +kernel, by decide +kernel, by decide +kernel⟩

end SuperShuckie.RamSearch
