import SuperShuckie.Memory.Watches

/-!
# The ids of a loaded watch list

`WatchFile.parse` gives the watches without an id of their own the ids after the largest one of the
file.  `LoadedAs` is what the list is meant to be after that, and `parse_loadedAs_iff` says when it is:
the ids given out must not run out, and no valid watch may carry one of them.  The latter goes wrong
when the largest id is the largest there is, since the count then starts again at 1.
-/

set_option autoImplicit false

namespace SuperShuckie

open ByteFormat

namespace WatchFile

/-- The valid watches of a list. -/
def validOf (watches : List Watch) : List Watch := watches.filter fun w ↦ w.validate.isOk

/-- A watch without its id. -/
def withoutId (w : Watch) : Watch := { w with id := 0 }

/-- What loading a list of watches is meant to give: the valid ones in their order, with inactive
freezes and ids of their own, the first watch of each id keeping it. -/
structure LoadedAs (watches kept : List Watch) : Prop where
  same : kept.map withoutId = (validOf watches).map fun w ↦ withoutId (loadInactive w)
  distinct : (kept.map (·.id)).Nodup
  nonzero : ∀ w ∈ kept, w.id ≠ 0
  first : ∀ before w after, validOf watches = before ++ w :: after → w.id ≠ 0 →
    (∀ v ∈ before, v.id ≠ w.id) → kept[before.length]? = some (loadInactive w)
  inactive : ∀ w ∈ kept, ∀ f, w.freeze = some f → f.active = false

/-- The ids that `parse` gives out neither run out nor are carried by a valid watch. -/
def FreshIds (file : WatchFile) : Prop :=
  firstId file.watches + clashes file.watches [] < 2 ^ 32 ∧
    ∀ w ∈ validOf file.watches, w.id < firstId file.watches ∨
      firstId file.watches + clashes file.watches [] ≤ w.id

instance (file : WatchFile) : Decidable file.FreshIds :=
  inferInstanceAs (Decidable (_ ∧ _))

variable {watches kept : List Watch} {taken seen : List Nat} {nextId : Nat} {problems : List String}

/-! ## Valid watches only -/

theorem validOf_cons_error {w : Watch} {e : String} (hw : w.validate = .error e) :
    validOf (w :: watches) = validOf watches := by
  rw [validOf, List.filter_cons_of_neg (by rw [hw]; exact Bool.false_ne_true)]
  rfl

theorem validOf_cons_ok {w : Watch} (hw : w.validate = .ok ()) :
    validOf (w :: watches) = w :: validOf watches := by
  rw [validOf, List.filter_cons_of_pos (by rw [hw]; rfl)]
  rfl

/-- An invalid watch is kept out and leaves everything else as it is. -/
theorem retain_validOf : (retain (validOf watches) taken nextId).map Prod.fst =
      (retain watches taken nextId).map Prod.fst := by
  induction watches generalizing taken nextId with
  | nil => rfl
  | cons w watches ih =>
    cases hw : w.validate with
    | error e =>
      rw [validOf_cons_error hw, ih, retain, hw]
      dsimp only
      rw [Option.map_map]
      rfl
    | ok u =>
      have hmap : ∀ (r : Option (List Watch × List String)) (w' : Watch),
          (r.bind fun x ↦ some (w' :: x.1, x.2)).map Prod.fst =
            (r.map Prod.fst).map fun k ↦ w' :: k := by
        intro r w'
        cases r <;> rfl
      rw [validOf_cons_ok hw, retain, retain, hw]
      dsimp only
      split_ifs
      · simp only [Option.bind_eq_bind]
        cases succ32 nextId with
        | none => rfl
        | some next =>
          rw [Option.bind_some, Option.bind_some]
          exact (hmap _ _).trans ((congrArg _ ih).trans (hmap _ _).symm)
      · exact (hmap _ _).trans ((congrArg _ ih).trans (hmap _ _).symm)

theorem clashes_validOf : clashes (validOf watches) seen = clashes watches seen := by
  induction watches generalizing seen with
  | nil => rfl
  | cons w watches ih =>
    cases hw : w.validate with
    | error e =>
      rw [validOf_cons_error hw, ih, clashes, hw]
      rfl
    | ok u =>
      rw [validOf_cons_ok hw, clashes, clashes, ih, ih]

/-! ## What the loop over valid watches does -/

/-- The loop on one more valid watch: it gets the next id, or keeps its own. -/
theorem retain_cons_ok {w : Watch} (hw : w.validate = .ok ()) : retain (w :: watches) taken nextId =
      if w.id = 0 ∨ w.id ∈ taken then
        (succ32 nextId).bind fun next ↦ (retain watches (nextId :: taken) next).bind fun r ↦
          some (loadInactive { w with id := nextId } :: r.1, r.2)
      else (retain watches (w.id :: taken) nextId).bind fun r ↦ some (loadInactive w :: r.1, r.2) := by
  rw [retain, hw]
  rfl

theorem same_of_retain (hvalid : ∀ w ∈ watches, w.validate = .ok ())
    (h : retain watches taken nextId = some (kept, problems)) :
    kept.map withoutId = watches.map fun w ↦ withoutId (loadInactive w) := by
  induction watches generalizing taken nextId kept problems with
  | nil =>
    obtain ⟨rfl, -⟩ := Prod.mk.inj (Option.some.inj h)
    rfl
  | cons w watches ih =>
    have hrest : ∀ w' ∈ watches, w'.validate = .ok () :=
      fun w' hw' ↦ hvalid w' (List.mem_cons_of_mem _ hw')
    rw [retain_cons_ok (hvalid w List.mem_cons_self)] at h
    split_ifs at h
    · obtain ⟨next, -, h⟩ := Option.bind_eq_some_iff.1 h
      obtain ⟨⟨kept', problems'⟩, hkept, heq⟩ := Option.bind_eq_some_iff.1 h
      obtain ⟨rfl, -⟩ := Prod.mk.inj (Option.some.inj heq)
      rw [List.map_cons, List.map_cons, ih hrest hkept]
      rfl
    · obtain ⟨⟨kept', problems'⟩, hkept, heq⟩ := Option.bind_eq_some_iff.1 h
      obtain ⟨rfl, -⟩ := Prod.mk.inj (Option.some.inj heq)
      rw [List.map_cons, List.map_cons, ih hrest hkept]

/-- What is kept keeps the first watch of each id that was not seen before. -/
def FirstKept (seen : List Nat) (watches kept : List Watch) : Prop :=
  ∀ before w after, watches = before ++ w :: after → w.id ≠ 0 → w.id ∉ seen →
    (∀ v ∈ before, v.id ≠ w.id) → kept[before.length]? = some (loadInactive w)

/-- With new ids to give out, the first watch of each id keeps it. -/
theorem firstKept_of_fresh (hvalid : ∀ w ∈ watches, w.validate = .ok ())
    (hseen : ∀ w ∈ watches, (w.id ∈ taken ↔ w.id ∈ seen))
    (hfresh : Fresh watches taken nextId (clashes watches seen))
    (h : retain watches taken nextId = some (kept, problems)) : FirstKept seen watches kept := by
  induction watches generalizing taken seen nextId kept problems with
  | nil => exact fun before w after heq ↦ by simp at heq
  | cons v watches ih =>
    have hv := hvalid v List.mem_cons_self
    have hrest : ∀ w' ∈ watches, w'.validate = .ok () :=
      fun w' hw' ↦ hvalid w' (List.mem_cons_of_mem _ hw')
    have hseen' : ∀ w' ∈ watches, (w'.id ∈ taken ↔ w'.id ∈ seen) :=
      fun w' hw' ↦ hseen w' (List.mem_cons_of_mem _ hw')
    have hiff := hseen v List.mem_cons_self
    have hok : v.validate.isOk = true := by rw [hv]; rfl
    have hleft := hfresh.left
    rw [retain_cons_ok hv] at h
    by_cases hclash : v.id = 0 ∨ v.id ∈ seen
    · have hcount : clashes (v :: watches) seen = clashes watches seen + 1 := by
        rw [clashes, hok]
        simp only [Bool.not_true, Bool.false_eq_true, if_false, if_pos hclash]
      rw [hcount] at hfresh hleft
      rw [if_pos (hclash.imp_right hiff.2), succ32, if_pos (by omega), Option.bind_some] at h
      obtain ⟨⟨kept', problems'⟩, hkept, heq⟩ := Option.bind_eq_some_iff.1 h
      obtain ⟨rfl, -⟩ := Prod.mk.inj (Option.some.inj heq)
      have hnew : ∀ w' ∈ watches, (w'.id ∈ nextId :: taken ↔ w'.id ∈ seen) := by
        intro w' hw'
        have hlt := hfresh.watches w' (List.mem_cons_of_mem _ hw')
        rw [List.mem_cons, ← hseen' w' hw']
        exact ⟨fun h' ↦ h'.resolve_left (by omega), Or.inr⟩
      have hlater : Fresh watches (nextId :: taken) (nextId + 1) (clashes watches seen) := by
        refine ⟨Nat.succ_pos _, by omega, fun id hid ↦ ?_, fun w' hw' ↦ ?_⟩
        · obtain rfl | hid := List.mem_cons.1 hid
          · exact Or.inl (Nat.lt_succ_self _)
          · have hid := hfresh.taken id hid
            omega
        · have hid := hfresh.watches w' (List.mem_cons_of_mem _ hw')
          omega
      intro before w after hsplit hne hnot hbefore
      cases before with
      | nil =>
        obtain ⟨rfl, rfl⟩ := List.cons.inj hsplit
        exact absurd hclash (by simp [hne, hnot])
      | cons u before =>
        obtain ⟨rfl, hsplit'⟩ := List.cons.inj hsplit
        exact ih hrest hnew hlater hkept before w after hsplit' hne hnot
          fun v' hv' ↦ hbefore v' (List.mem_cons_of_mem _ hv')
    · have hcount : clashes (v :: watches) seen = clashes watches (v.id :: seen) := by
        rw [clashes, hok]
        simp only [Bool.not_true, Bool.false_eq_true, if_false, if_neg hclash]
      rw [hcount] at hfresh
      rw [if_neg (fun h' ↦ hclash (h'.imp_right hiff.1))] at h
      obtain ⟨⟨kept', problems'⟩, hkept, heq⟩ := Option.bind_eq_some_iff.1 h
      obtain ⟨rfl, -⟩ := Prod.mk.inj (Option.some.inj heq)
      have hnew : ∀ w' ∈ watches, (w'.id ∈ v.id :: taken ↔ w'.id ∈ v.id :: seen) := by
        intro w' hw'
        rw [List.mem_cons, List.mem_cons, hseen' w' hw']
      have hlater : Fresh watches (v.id :: taken) nextId (clashes watches (v.id :: seen)) := by
        refine ⟨hfresh.pos, hfresh.left, fun id hid ↦ ?_,
          fun w' hw' ↦ hfresh.watches w' (List.mem_cons_of_mem _ hw')⟩
        obtain rfl | hid := List.mem_cons.1 hid
        · exact hfresh.watches v List.mem_cons_self
        · exact hfresh.taken id hid
      intro before w after hsplit hne hnot hbefore
      cases before with
      | nil =>
        obtain ⟨rfl, rfl⟩ := List.cons.inj hsplit
        rfl
      | cons u before =>
        obtain ⟨rfl, hsplit'⟩ := List.cons.inj hsplit
        have hnot' : w.id ∉ v.id :: seen := by
          rw [List.mem_cons]
          exact fun h' ↦ h'.elim (fun heq ↦ hbefore v List.mem_cons_self heq.symm) hnot
        exact ih hrest hnew hlater hkept before w after hsplit' hne hnot'
          fun v' hv' ↦ hbefore v' (List.mem_cons_of_mem _ hv')

/-- When the first watch of each id keeps it and all ids are distinct, the loop has given out as many
ids, from `nextId` on, as there are clashes, each to a watch that had none of its own. -/
theorem given_of_firstKept (hvalid : ∀ w ∈ watches, w.validate = .ok ())
    (hsub : ∀ id ∈ seen, id ∈ taken) (hfirst : FirstKept seen watches kept)
    (hnodup : (kept.map (·.id)).Nodup) (hapart : ∀ w ∈ kept, w.id ∉ taken)
    (h : retain watches taken nextId = some (kept, problems)) :
    (clashes watches seen = 0 ∨ nextId + clashes watches seen < 2 ^ 32) ∧
      ∀ i, nextId ≤ i → i < nextId + clashes watches seen → ∃ before v after w',
        watches = before ++ v :: after ∧ kept[before.length]? = some w' ∧ w'.id = i ∧
          (v.id = 0 ∨ v.id ∈ seen ∨ ∃ u ∈ before, u.id = v.id) := by
  induction watches generalizing taken seen nextId kept problems with
  | nil => exact ⟨Or.inl rfl, fun i hle hlt ↦ absurd hlt (by rw [clashes]; omega)⟩
  | cons v watches ih =>
    have hv := hvalid v List.mem_cons_self
    have hrest : ∀ w' ∈ watches, w'.validate = .ok () :=
      fun w' hw' ↦ hvalid w' (List.mem_cons_of_mem _ hw')
    have hok : v.validate.isOk = true := by rw [hv]; rfl
    rw [retain_cons_ok hv] at h
    by_cases hclash : v.id = 0 ∨ v.id ∈ seen
    · have hcount : clashes (v :: watches) seen = clashes watches seen + 1 := by
        rw [clashes, hok]
        simp only [Bool.not_true, Bool.false_eq_true, if_false, if_pos hclash]
      rw [if_pos (hclash.imp_right (hsub _))] at h
      obtain ⟨next, hnext, h⟩ := Option.bind_eq_some_iff.1 h
      obtain ⟨⟨kept', problems'⟩, hkept, heq⟩ := Option.bind_eq_some_iff.1 h
      obtain ⟨rfl, -⟩ := Prod.mk.inj (Option.some.inj heq)
      rw [succ32] at hnext
      split_ifs at hnext with hlt
      obtain rfl := Option.some.inj hnext
      rw [List.map_cons, List.nodup_cons] at hnodup
      have hfirst' : FirstKept seen watches kept' := by
        intro before w after hsplit hne hnot hbefore
        refine hfirst (v :: before) w after (by rw [hsplit]; rfl) hne hnot fun u hu ↦ ?_
        obtain rfl | hu := List.mem_cons.1 hu
        · rintro heq
          exact hclash.elim (fun h0 ↦ hne (heq ▸ h0)) fun hin ↦ hnot (heq ▸ hin)
        · exact hbefore u hu
      have hapart' : ∀ w' ∈ kept', w'.id ∉ nextId :: taken := by
        intro w' hw' hin
        obtain hid | hin := List.mem_cons.1 hin
        · exact hnodup.1 (List.mem_map.2 ⟨w', hw', hid⟩)
        · exact hapart w' (List.mem_cons_of_mem _ hw') hin
      obtain ⟨hleft, hgiven⟩ := ih hrest (fun id hid ↦ List.mem_cons_of_mem _ (hsub id hid)) hfirst'
        hnodup.2 hapart' hkept
      rw [hcount]
      refine ⟨Or.inr (by omega), fun i hle hi ↦ ?_⟩
      obtain rfl | hne := eq_or_ne i nextId
      · exact ⟨[], v, watches, _, rfl, rfl, rfl, hclash.imp_right Or.inl⟩
      · obtain ⟨before, u, after, w', hsplit, hat, hid, hwhy⟩ := hgiven i (by omega) (by omega)
        refine ⟨v :: before, u, after, w', by rw [hsplit]; rfl, hat, hid, ?_⟩
        exact hwhy.imp_right (Or.imp_right (Exists.imp fun _ ↦ And.imp_left (List.mem_cons_of_mem _)))
    · have hcount : clashes (v :: watches) seen = clashes watches (v.id :: seen) := by
        rw [clashes, hok]
        simp only [Bool.not_true, Bool.false_eq_true, if_false, if_neg hclash]
      have hown := hfirst [] v watches rfl (fun h0 ↦ hclash (Or.inl h0))
        (fun hin ↦ hclash (Or.inr hin)) (by simp)
      -- it keeps its id, so nobody had it
      have hnot : ¬ (v.id = 0 ∨ v.id ∈ taken) := by
        rintro (h0 | hin)
        · exact hclash (Or.inl h0)
        · exact hapart (loadInactive v) (List.mem_of_getElem? hown) hin
      rw [if_neg hnot] at h
      obtain ⟨⟨kept', problems'⟩, hkept, heq⟩ := Option.bind_eq_some_iff.1 h
      obtain ⟨rfl, -⟩ := Prod.mk.inj (Option.some.inj heq)
      rw [List.map_cons, List.nodup_cons] at hnodup
      have hfirst' : FirstKept (v.id :: seen) watches kept' := by
        intro before w after hsplit hne hnot' hbefore
        refine hfirst (v :: before) w after (by rw [hsplit]; rfl) hne
          (fun hin ↦ hnot' (List.mem_cons_of_mem _ hin)) fun u hu ↦ ?_
        obtain rfl | hu := List.mem_cons.1 hu
        · exact fun heq ↦ hnot' (heq ▸ List.mem_cons_self)
        · exact hbefore u hu
      have hapart' : ∀ w' ∈ kept', w'.id ∉ v.id :: taken := by
        intro w' hw' hin
        obtain hid | hin := List.mem_cons.1 hin
        · exact hnodup.1 (List.mem_map.2 ⟨w', hw', hid⟩)
        · exact hapart w' (List.mem_cons_of_mem _ hw') hin
      have hsub' : ∀ id ∈ v.id :: seen, id ∈ v.id :: taken := by
        intro id hid
        obtain rfl | hid := List.mem_cons.1 hid
        · exact List.mem_cons_self
        · exact List.mem_cons_of_mem _ (hsub id hid)
      obtain ⟨hleft, hgiven⟩ := ih hrest hsub' hfirst' hnodup.2 hapart' hkept
      rw [hcount]
      refine ⟨hleft, fun i hle hi ↦ ?_⟩
      obtain ⟨before, u, after, w', hsplit, hat, hid, hwhy⟩ := hgiven i hle hi
      refine ⟨v :: before, u, after, w', by rw [hsplit]; rfl, hat, hid, ?_⟩
      obtain h0 | hin | ⟨u', hu', heq⟩ := hwhy
      · exact Or.inl h0
      · obtain heq | hin := List.mem_cons.1 hin
        · exact Or.inr (Or.inr ⟨v, List.mem_cons_self, heq.symm⟩)
        · exact Or.inr (Or.inl hin)
      · exact Or.inr (Or.inr ⟨u', List.mem_cons_of_mem _ hu', heq⟩)

/-! ## Loading a file -/

theorem valid_of_mem_validOf {w : Watch} (hw : w ∈ validOf watches) : w.validate = .ok () := by
  have hok := (List.mem_filter.1 hw).2
  cases hv : w.validate with
  | ok u => rfl
  | error e =>
    rw [hv] at hok
    cases hok

/-- A file that is accepted is loaded as the loop over its valid watches keeps them. -/
theorem parse_eq_some_iff {file loaded : WatchFile} {problems : List String}
    (hversion : file.version ≤ watchFileVersion) :
    file.parse = some (.ok (loaded, problems)) ↔ ∃ kept,
      retain file.watches [] (firstId file.watches) = some (kept, problems) ∧
        loaded = { file with watches := kept } := by
  rw [parse, if_neg (Nat.not_lt.2 hversion)]
  simp only [Option.bind_eq_bind, Option.bind_eq_some_iff, Option.some.injEq, Except.ok.injEq,
    Prod.mk.injEq, Prod.exists]
  constructor
  · rintro ⟨kept, problems', hkept, rfl, rfl⟩
    exact ⟨kept, hkept, rfl⟩
  · rintro ⟨kept, hkept, rfl⟩
    exact ⟨kept, problems, hkept, rfl, rfl⟩

theorem firstId_pos : 0 < firstId watches :=
  Nat.lt_of_lt_of_le Nat.zero_lt_one (Nat.le_max_right _ _)

theorem firstId_lt : firstId watches < 2 ^ 32 :=
  max_lt (Nat.mod_lt _ (by decide)) (by decide)

/-- The first watch of a list with the id of another. -/
theorem exists_first {w : Watch} (hw : w ∈ watches) : ∃ before u after,
    watches = before ++ u :: after ∧ u.id = w.id ∧ ∀ v ∈ before, v.id ≠ w.id := by
  have hsome : (watches.find? fun v ↦ decide (v.id = w.id)).isSome :=
    List.find?_isSome.2 ⟨w, hw, decide_eq_true rfl⟩
  obtain ⟨u, hu⟩ := Option.isSome_iff_exists.1 hsome
  obtain ⟨hid, before, after, hsplit, hbefore⟩ := List.find?_eq_some_iff_append.1 hu
  exact ⟨before, u, after, hsplit, of_decide_eq_true hid, fun v hv ↦ by simpa using hbefore v hv⟩

/-- **A watch list is loaded as it is meant to be** exactly when the ids to give out neither run out
nor are carried by a valid watch. -/
theorem parse_loadedAs_iff {file : WatchFile} (hversion : file.version ≤ watchFileVersion)
    (hids : ∀ w ∈ file.watches, w.id < 2 ^ 32) :
    (∃ loaded problems, file.parse = some (.ok (loaded, problems)) ∧
      LoadedAs file.watches loaded.watches) ↔ file.FreshIds := by
  have hvalid : ∀ w ∈ validOf file.watches, w.validate = .ok () := fun w ↦ valid_of_mem_validOf
  have hclashes : clashes (validOf file.watches) [] = clashes file.watches [] := clashes_validOf
  have hfilter := @retain_validOf file.watches [] (firstId file.watches)
  constructor
  · rintro ⟨loaded, problems, hparse, hloaded⟩
    obtain ⟨kept, hkept, rfl⟩ := (parse_eq_some_iff hversion).1 hparse
    rw [hkept, Option.map_some, Option.map_eq_some_iff] at hfilter
    obtain ⟨⟨kept', problems'⟩, hrun, rfl⟩ := hfilter
    have hfirst : FirstKept [] (validOf file.watches) kept' :=
      fun before w after hsplit hne _ ↦ hloaded.first before w after hsplit hne
    obtain ⟨hleft, hgiven⟩ := given_of_firstKept hvalid (fun id hid ↦ hid) hfirst hloaded.distinct
      (fun _ _ ↦ List.not_mem_nil) hrun
    rw [hclashes] at hleft hgiven
    have hlt := @firstId_lt file.watches
    refine ⟨by omega, fun w hw ↦ ?_⟩
    by_contra hcarried
    obtain ⟨before, v, after, w', hsplit, hat, hid, hwhy⟩ := hgiven w.id (by omega) (by omega)
    have hne : w.id ≠ 0 := by
      have := @firstId_pos file.watches
      omega
    -- the first watch with that id keeps it, and it is not the one that the id was given to
    obtain ⟨pre, u, post, hsplit', hu, hpre⟩ := exists_first hw
    have hat' := hloaded.first pre u post hsplit' (hu ▸ hne) (hu ▸ hpre)
    have hat₁ : (kept'.map (·.id))[before.length]? = some w.id := by
      rw [List.getElem?_map, hat, Option.map_some, hid]
    have hat₂ : (kept'.map (·.id))[pre.length]? = some w.id := by
      rw [List.getElem?_map, hat', Option.map_some, id_loadInactive, hu]
    have hlength : before.length = pre.length :=
      (List.getElem?_inj (List.getElem?_eq_some_iff.1 hat₁).1 hloaded.distinct).1
        (hat₁.trans hat₂.symm)
    obtain ⟨rfl, hrest⟩ := List.append_inj (hsplit.symm.trans hsplit') hlength
    obtain ⟨rfl, -⟩ := List.cons.inj hrest
    obtain h0 | hin | ⟨u', hu', heq⟩ := hwhy
    · exact hne (hu ▸ h0)
    · exact List.not_mem_nil hin
    · exact hpre u' hu' (heq.trans hu)
  · rintro ⟨hleft, hnew⟩
    rw [← hclashes] at hleft hnew
    have hfresh : Fresh (validOf file.watches) [] (firstId file.watches)
        (clashes (validOf file.watches) []) :=
      ⟨firstId_pos, hleft, fun _ hid ↦ absurd hid List.not_mem_nil, hnew⟩
    have hids' : ∀ w ∈ validOf file.watches, w.id < 2 ^ 32 :=
      fun w hw ↦ hids w (List.mem_filter.1 hw).1
    obtain ⟨kept, problems, hkept, hnodup, hall, -⟩ :=
      retain_eq_some hids' (fun _ _ ↦ Iff.rfl) (Or.inr hfresh)
    rw [hkept, Option.map_some, eq_comm, Option.map_eq_some_iff] at hfilter
    obtain ⟨⟨kept', problems'⟩, hrun, rfl⟩ := hfilter
    refine ⟨{ file with watches := kept' }, problems',
      (parse_eq_some_iff hversion).2 ⟨kept', hrun, rfl⟩,
      same_of_retain hvalid hkept, hnodup, fun w hw ↦ (hall w hw).nonzero, ?_, fun w hw f hf ↦ ?_⟩
    · intro before w after hsplit hne hbefore
      exact firstKept_of_fresh hvalid (fun _ _ ↦ Iff.rfl) hfresh hkept before w after hsplit hne
        List.not_mem_nil hbefore
    · have hinactive := (hall w hw).inactive
      rw [Watch.activeFreeze, hf] at hinactive
      cases hactive : f.active with
      | false => rfl
      | true =>
        rw [Option.filter_some_pos hactive] at hinactive
        cases hinactive

/-- A file of watches of a byte with the given ids. -/
def byteWatches (ids : List Nat) : WatchFile where
  version := 1
  watches := ids.map fun id ↦ { id, address := ⟨0x10, []⟩, format := ⟨.u8, 1, false⟩ }

/-- A list with a repeated id and one of none. -/
theorem parse_loadedAs_repeated : ∃ loaded problems,
    (byteWatches [7, 7, 0]).parse = some (.ok (loaded, problems)) ∧
      LoadedAs (byteWatches [7, 7, 0]).watches loaded.watches :=
  (parse_loadedAs_iff (by decide) (by decide)).2 (by decide)

/-- **A repeated id at the limit** is replaced by 1, which the first watch carries. -/
theorem parse_repeats_one : ¬ ∃ loaded problems,
    (byteWatches [1, 0xFFFFFFFF, 0xFFFFFFFF]).parse = some (.ok (loaded, problems)) ∧
      LoadedAs (byteWatches [1, 0xFFFFFFFF, 0xFFFFFFFF]).watches loaded.watches := by
  rintro ⟨loaded, problems, hparse, hloaded⟩
  have hids : (byteWatches [1, 0xFFFFFFFF, 0xFFFFFFFF]).parse =
      some (.ok (byteWatches [1, 0xFFFFFFFF, 1], [])) := by decide
  obtain ⟨rfl, -⟩ := Prod.mk.inj (Except.ok.inj (Option.some.inj (hids.symm.trans hparse)))
  exact absurd hloaded.distinct (by decide)

end WatchFile

end SuperShuckie
