import SuperShuckie.Memory.Tools
import SuperShuckie.Lib.Runs

/-!
# The watch list and the core's limits

What the core accepts is limited: `maxTraces` traced watches, `maxFreezes` active freezes of
`maxFreezeBytes` together, and values of their format's length.  `WatchesOk` says that a watch list
keeps to all of it, with distinct ids that fit in 32 bits.

* `watchesOk_exec`: each operation on the list keeps to it.
* `nothingDropped_of_ok`: it is what makes the request complete.
* `watchesOk_run`: it holds along every run, from a watch file that meets `LoadFits`, whose steps meet
  `WatchOp.Held`.

These two leave out what the code does not check: ids past `2 ^ 32 - 1` or given out twice, a file
with more traced watches than the core takes, and an undone or redone freeze whose watch has another
length by now or that no longer fits beside the others.
-/

set_option autoImplicit false

namespace SuperShuckie

open ByteFormat MemoryTools

/-- The active freezes of a watch list. -/
def activeFreezes (watches : List Watch) : List FreezeState := watches.filterMap (·.activeFreeze)

/-- The bytes that freezes hold together. -/
def freezeBytes (freezes : List FreezeState) : Nat := (freezes.map fun f ↦ f.value.length).sum

/-- A watch list the core accepts as it is. -/
structure WatchesOk (watches : List Watch) : Prop where
  nodup : (watches.map (·.id)).Nodup
  nonzero : ∀ w ∈ watches, w.id ≠ 0
  fits : ∀ w ∈ watches, w.id < 2 ^ 32
  valid : ∀ w ∈ watches, w.Valid
  traced : (watches.filter (·.isTraced)).length ≤ maxTraces
  freezes : (activeFreezes watches).length ≤ maxFreezes
  bytes : freezeBytes (activeFreezes watches) ≤ maxFreezeBytes

variable {watches a b : List Watch} {w : Watch} {t : MemoryTools}

theorem watchesOk_nil : WatchesOk [] :=
  ⟨List.nodup_nil, by simp, by simp, by simp, by simp, by simp [activeFreezes],
    by simp [activeFreezes, freezeBytes]⟩

theorem freezeBytes_append (f g : List FreezeState) :
    freezeBytes (f ++ g) = freezeBytes f + freezeBytes g := by
  rw [freezeBytes, List.map_append, List.sum_append]
  rfl

/-- The active freezes of one watch. -/
theorem activeFreezes_cons :
    activeFreezes (w :: watches) = w.activeFreeze.toList ++ activeFreezes watches := by
  rw [activeFreezes, List.filterMap_cons]
  cases w.activeFreeze <;> rfl

/-- Fewer watches are within the limits too. -/
theorem WatchesOk.sublist (h : WatchesOk b) (hsub : a.Sublist b) : WatchesOk a where
  nodup := h.nodup.sublist (hsub.map _)
  nonzero w hw := h.nonzero w (hsub.subset hw)
  fits w hw := h.fits w (hsub.subset hw)
  valid w hw := h.valid w (hsub.subset hw)
  traced := (hsub.filter _).length_le.trans h.traced
  freezes := (hsub.filterMap _).length_le.trans h.freezes
  bytes := ((hsub.filterMap _).map _).sum_le_sum (fun _ _ ↦ Nat.zero_le _) |>.trans h.bytes

/-- **One more watch** is within the limits if it is valid, its id is new, and there is room for its
trace and its freeze beside those of the others. -/
theorem WatchesOk.insert (h : WatchesOk (a ++ b)) (hvalid : w.Valid) (hnonzero : w.id ≠ 0)
    (hfits : w.id < 2 ^ 32) (hnew : ∀ w' ∈ a ++ b, w'.id ≠ w.id)
    (htraced : w.isTraced = true → ((a ++ b).filter (·.isTraced)).length < maxTraces)
    (hfreeze : ∀ f, w.activeFreeze = some f → (activeFreezes (a ++ b)).length < maxFreezes ∧
      freezeBytes (activeFreezes (a ++ b)) + f.value.length ≤ maxFreezeBytes) :
    WatchesOk (a ++ w :: b) := by
  have hperm : (a ++ w :: b).Perm (w :: (a ++ b)) := List.perm_middle
  have hcons : WatchesOk (w :: (a ++ b)) := by
    refine ⟨?_, ?_, ?_, ?_, ?_, ?_, ?_⟩
    · rw [List.map_cons, List.nodup_cons]
      refine ⟨?_, h.nodup⟩
      intro hin
      obtain ⟨w', hw', hid⟩ := List.mem_map.1 hin
      exact hnew w' hw' hid
    · exact List.forall_mem_cons.2 ⟨hnonzero, h.nonzero⟩
    · exact List.forall_mem_cons.2 ⟨hfits, h.fits⟩
    · exact List.forall_mem_cons.2 ⟨hvalid, h.valid⟩
    · rw [List.filter_cons]
      split_ifs with ht
      · exact htraced ht
      · exact h.traced
    · rw [activeFreezes_cons]
      cases hf : w.activeFreeze with
      | none => exact h.freezes
      | some f => exact (hfreeze f hf).1
    · rw [activeFreezes_cons, freezeBytes_append]
      cases hf : w.activeFreeze with
      | none => exact (Nat.zero_add _).trans_le h.bytes
      | some f =>
        have hroom := (hfreeze f hf).2
        show f.value.length + 0 + _ ≤ _
        omega
  exact ⟨(hperm.map _).nodup_iff.2 hcons.nodup, fun w' hw' ↦ hcons.nonzero w' (hperm.subset hw'),
    fun w' hw' ↦ hcons.fits w' (hperm.subset hw'), fun w' hw' ↦ hcons.valid w' (hperm.subset hw'),
    (hperm.filter _).length_eq.trans_le hcons.traced,
    (hperm.filterMap _).length_eq.trans_le hcons.freezes,
    ((hperm.filterMap _).map _).sum_eq.trans_le hcons.bytes⟩

/-- With distinct ids, no other watch has the id of one. -/
theorem id_ne_of_nodup (h : ((a ++ w :: b).map (·.id)).Nodup) : ∀ w' ∈ a ++ b, w'.id ≠ w.id := by
  intro w' hw' hid
  rw [List.map_append, List.map_cons, List.nodup_middle, List.nodup_cons, ← List.map_append] at h
  exact h.1 (List.mem_map.2 ⟨w', hw', hid⟩)

variable {id : Nat}

/-- The first watch with an id, when ids are distinct: it splits the list in two without it. -/
theorem exists_split (hnodup : (watches.map (·.id)).Nodup)
    (h : watches.find? (fun w ↦ w.id = id) = some w) :
    ∃ a b, watches = a ++ w :: b ∧ w.id = id ∧ ∀ w' ∈ a ++ b, w'.id ≠ id := by
  obtain ⟨hid, a, b, rfl, ha⟩ := List.find?_eq_some_iff_append.1 h
  have hid : w.id = id := by simpa using hid
  exact ⟨a, b, rfl, hid, hid ▸ id_ne_of_nodup hnodup⟩

theorem withFreeze_split {freeze : Option FreezeState} (ha : ∀ w' ∈ a, w'.id ≠ id)
    (hw : w.id = id) : withFreeze (a ++ w :: b) id freeze = a ++ { w with freeze } :: b := by
  induction a with
  | nil => rw [List.nil_append, withFreeze, if_pos hw]; rfl
  | cons w' a ih =>
    rw [List.cons_append, withFreeze, if_neg (ha w' List.mem_cons_self),
      ih fun w'' h ↦ ha w'' (List.mem_cons_of_mem _ h)]
    rfl

theorem filter_ne_split (h : ∀ w' ∈ a ++ b, w'.id ≠ id) (hw : w.id = id) :
    (a ++ w :: b).filter (fun w ↦ w.id ≠ id) = a ++ b := by
  rw [List.filter_append, List.filter_cons_of_neg (by simpa using hw), ← List.filter_append,
    List.filter_eq_self]
  exact fun w' hw' ↦ by simpa using h w' hw'

/-- Without a word from `freeze_limit_error` there is room for a freeze beside the others. -/
theorem room_of_freezeLimitError {len : Nat} {rest : List Watch}
    (hrest : watches.filter (fun w ↦ w.id ≠ id) = rest)
    (h : freezeLimitError watches id len = none) : (activeFreezes rest).length < maxFreezes ∧
      freezeBytes (activeFreezes rest) + len ≤ maxFreezeBytes := by
  rw [freezeLimitError, hrest] at h
  split_ifs at h with hcount hbytes
  exact ⟨Nat.not_le.1 hcount, Nat.not_lt.1 hbytes⟩

/-- **Replacing a watch's freeze** keeps the list within the limits if the freeze is of the watch's
length and, when active, fits beside the others. -/
theorem WatchesOk.withFreeze {freeze : Option FreezeState} (h : WatchesOk watches)
    (hfind : watches.find? (fun w ↦ w.id = id) = some w)
    (hlen : ∀ f, freeze = some f → f.value.length = w.format.size)
    (hroom : ∀ f, freeze = some f → f.active = true →
      freezeLimitError watches id f.value.length = none) :
    WatchesOk (withFreeze watches id freeze) := by
  obtain ⟨a, b, rfl, hid, hothers⟩ := exists_split h.nodup hfind
  rw [withFreeze_split (fun w' h ↦ hothers w' (List.mem_append_left _ h)) hid]
  have hmem : w ∈ a ++ w :: b := List.mem_append_right _ List.mem_cons_self
  have hrest : WatchesOk (a ++ b) := h.sublist ((List.sublist_cons_self w b).append_left a)
  have hv := h.valid w hmem
  refine hrest.insert ⟨hv.depth, hv.size, hlen, hv.pause⟩ (h.nonzero w hmem) (h.fits w hmem)
    (fun w' hw' ↦ hid ▸ hothers w' hw') ?_ ?_
  · intro ht
    have htraced := h.traced
    have ht' : w.isTraced = true := ht
    simp only [List.filter_append, List.length_append] at htraced ⊢
    rw [List.filter_cons_of_pos ht', List.length_cons] at htraced
    exact Nat.lt_of_lt_of_le (Nat.lt_succ_self _) htraced
  · intro f hf
    obtain ⟨hf, hactive⟩ := Option.filter_eq_some_iff.1 hf
    exact room_of_freezeLimitError (filter_ne_split hothers hid) (hroom f hf hactive)

/-! ## Adding and replacing watches -/

theorem length_filter_zipIdx {l : List Watch} {n : Nat} {existing : Option Nat}
    (h : ∀ i, n ≤ i → i < n + l.length → some i ≠ existing) :
    ((l.zipIdx n).filter fun (w, i) ↦ some i != existing && w.isTraced).length =
      (l.filter (·.isTraced)).length := by
  induction l generalizing n with
  | nil => rfl
  | cons w l ih =>
    rw [List.length_cons] at h
    have hhead : (some n != existing) = true := by
      simpa using h n (Nat.le_refl n) (by omega)
    rw [List.zipIdx_cons, List.filter_cons, List.filter_cons]
    simp only [hhead, Bool.true_and]
    have hrest := @ih (n + 1) fun i hlo hhi ↦ h i (by omega) (by omega)
    split_ifs
    · rw [List.length_cons, List.length_cons, hrest]
    · exact hrest

theorem tracedBeside_none : tracedBeside watches none =
    (watches.filter (·.isTraced)).length :=
  length_filter_zipIdx fun _ _ _ ↦ Option.some_ne_none _

theorem tracedBeside_some : tracedBeside (a ++ w :: b) (some a.length) =
      ((a ++ b).filter (·.isTraced)).length := by
  have hself : (some (0 + a.length) != some a.length) = false := by simp
  rw [tracedBeside, List.zipIdx_append, List.zipIdx_cons, List.filter_append, List.filter_cons]
  simp only [hself, Bool.false_and, Bool.false_eq_true, if_false]
  rw [List.length_append, length_filter_zipIdx (by intro i hlo hhi; simp; omega),
    length_filter_zipIdx (by intro i hlo hhi; simp; omega), List.filter_append, List.length_append]

/-- The watch that `upsert_watch` replaces. -/
theorem existingWatch_eq_some {index : Nat} (hnodup : (watches.map (·.id)).Nodup)
    (h : existingWatch watches id = some index) :
    ∃ a w b, watches = a ++ w :: b ∧ a.length = index ∧ w.id = id ∧ ∀ w' ∈ a ++ b, w'.id ≠ id := by
  rw [existingWatch] at h
  split_ifs at h with hzero
  obtain ⟨hlt, hat, -⟩ := List.findIdx?_eq_some_iff_getElem.1 h
  have hid : watches[index].id = id := by simpa using hat
  have hsplit : watches = watches.take index ++ watches[index] :: watches.drop (index + 1) := by
    rw [← List.drop_eq_getElem_cons, List.take_append_drop]
  refine ⟨_, _, _, hsplit, List.length_take_of_le (Nat.le_of_lt hlt), hid, ?_⟩
  rw [hsplit] at hnodup
  exact hid ▸ id_ne_of_nodup hnodup

theorem existingWatch_eq_none (hnonzero : ∀ w ∈ watches, w.id ≠ 0)
    (h : existingWatch watches id = none) : ∀ w ∈ watches, w.id ≠ id := by
  rw [existingWatch] at h
  split_ifs at h with hzero
  · exact hzero ▸ hnonzero
  · intro w hw
    simpa using List.findIdx?_eq_none_iff.1 h w hw

@[simp] theorem MemoryTools.watches_pushRequest (t : MemoryTools) :
    t.pushRequest.watches = t.watches := by
  rw [pushRequest]
  split_ifs <;> rfl

@[simp] theorem MemoryTools.watches_watchesChanged (t : MemoryTools) :
    t.watchesChanged.watches = t.watches := t.watches_pushRequest

/-- What `upsert_watch` has checked of a watch it takes. -/
theorem upsertError_eq_none (h : t.upsertError w = none) : w.Valid ∧ (w.isTraced = true →
        tracedBeside t.watches (existingWatch t.watches w.id) < maxTraces) ∧
      ∀ f, w.activeFreeze = some f →
        freezeLimitError t.watches w.id f.value.length = none := by
  rw [upsertError] at h
  split_ifs at h with hgame
  cases hvalid : w.validate with
  | error e => rw [hvalid] at h; exact nomatch h
  | ok _ =>
    rw [hvalid] at h
    simp only at h
    by_cases hmany : (w.isTraced && decide (maxTraces ≤
        tracedBeside t.watches (existingWatch t.watches w.id))) = true
    · rw [if_pos hmany] at h
      exact nomatch h
    · rw [if_neg hmany] at h
      refine ⟨(Watch.validate_eq_ok w).1 hvalid, ?_, ?_⟩
      · intro ht
        simp only [ht, Bool.true_and, decide_eq_true_eq] at hmany
        exact Nat.not_le.1 hmany
      · intro f hf
        simp only [hf] at h
        split at h
        · exact nomatch h
        · exact h

/-- **`upsert_watch` keeps to the limits**, given that the id of a new watch fits. -/
theorem watchesOk_upsertWatch (h : WatchesOk t.watches)
    (hleft : t.upsertError w = none → existingWatch t.watches w.id = none →
      maxId t.watches + 1 < 2 ^ 32) :
    ∃ t' result, t.upsertWatch w = some (t', result) ∧ WatchesOk t'.watches := by
  rw [upsertWatch]
  cases herr : t.upsertError w with
  | some e => exact ⟨t, .error e, rfl, h⟩
  | none =>
    obtain ⟨hvalid, htraced, hfreeze⟩ := upsertError_eq_none herr
    cases hexisting : existingWatch t.watches w.id with
    | some index =>
      obtain ⟨a, old, b, hsplit, rfl, hid, hothers⟩ := existingWatch_eq_some h.nodup hexisting
      refine ⟨_, _, rfl, ?_⟩
      have hset : t.watches.set a.length w = a ++ w :: b := by
        rw [hsplit, List.set_append_right _ _ (Nat.le_refl _), Nat.sub_self, List.set_cons_zero]
      have hmem : old ∈ t.watches := hsplit ▸ List.mem_append_right _ List.mem_cons_self
      have hrest : WatchesOk (a ++ b) :=
        h.sublist (hsplit ▸ (List.sublist_cons_self old b).append_left a)
      rw [watches_watchesChanged]
      show WatchesOk (t.watches.set a.length w)
      rw [hset]
      refine hrest.insert hvalid (hid ▸ h.nonzero old hmem) (hid ▸ h.fits old hmem) hothers ?_ ?_
      · intro ht
        have hlt := htraced ht
        rwa [hexisting, hsplit, tracedBeside_some] at hlt
      · intro f hf
        have hroom := hfreeze f hf
        rw [hsplit] at hroom
        exact room_of_freezeLimitError (filter_ne_split hothers hid) hroom
    | none =>
      have hfits := hleft herr hexisting
      have hothers := existingWatch_eq_none h.nonzero hexisting
      simp only [succ32, if_pos hfits, Option.bind_eq_bind, Option.bind_some]
      refine ⟨_, _, rfl, ?_⟩
      rw [watches_watchesChanged]
      refine WatchesOk.insert (b := []) ?_ ⟨hvalid.depth, hvalid.size, hvalid.freeze, hvalid.pause⟩
        (Nat.succ_ne_zero _) hfits ?_ ?_ ?_
      · rw [List.append_nil]
        exact h
      · intro w' hw'
        rw [List.append_nil] at hw'
        have hle := WatchFile.id_le_maxId hw'
        show w'.id ≠ maxId t.watches + 1
        omega
      · intro ht
        have hlt := htraced ht
        rwa [hexisting, tracedBeside_none, ← List.append_nil t.watches] at hlt
      · intro f hf
        have hall : t.watches.filter (fun w' ↦ w'.id ≠ w.id) = t.watches ++ [] := by
          rw [List.append_nil, List.filter_eq_self]
          exact fun w' hw' ↦ by simpa using hothers w' hw'
        exact room_of_freezeLimitError hall (hfreeze f hf)

/-! ## The other operations -/

theorem MemoryTools.watches_sendEdit (t : MemoryTools) (path : AddressPath) (data : Bytes)
    (origin : EditOrigin) : (t.sendEdit path data origin).1.watches = t.watches := by
  rw [sendEdit]
  cases t.writeBlocked with
  | some reason => rfl
  | none =>
    simp only
    split_ifs
    · rfl
    · exact watches_pushRequest _

/-- **`set_freeze` keeps to the limits.** -/
theorem watchesOk_setFreeze (h : WatchesOk t.watches) (id : Nat) (value : Option Bytes) :
    WatchesOk (t.setFreeze id value).1.watches := by
  rw [setFreeze]
  split
  · exact h
  · cases hfind : t.watches.find? fun w ↦ w.id = id with
    | none => exact h
    | some w =>
      obtain ⟨a, b, -, hid, -⟩ := exists_split h.nodup hfind
      cases hafter : freezeAfter t.watches w value with
      | error e => simp only [hafter]; exact h
      | ok after =>
        simp only [hafter]
        split_ifs
        · exact h
        · rw [watches_watchesChanged]
          show WatchesOk (withFreeze t.watches id after)
          cases value with
          | none =>
            obtain rfl := Except.ok.inj hafter
            refine h.withFreeze hfind ?_ ?_
            · intro f hf
              obtain ⟨f', hf', rfl⟩ := Option.map_eq_some_iff.1 hf
              exact (h.valid w (List.mem_of_find?_eq_some hfind)).freeze f' hf'
            · intro f hf hactive
              obtain ⟨f', -, rfl⟩ := Option.map_eq_some_iff.1 hf
              exact nomatch hactive
          | some value =>
            rw [freezeAfter] at hafter
            split_ifs at hafter with hlen
            cases hlimit : freezeLimitError t.watches w.id value.length with
            | some e => simp only [hlimit] at hafter; exact nomatch hafter
            | none =>
              simp only [hlimit, Except.ok.injEq] at hafter
              subst hafter
              refine h.withFreeze hfind ?_ ?_
              · rintro _ ⟨⟩
                exact Decidable.of_not_not hlen
              · rintro _ ⟨⟩ -
                exact hid ▸ hlimit

/-- The loop of `import_watches`. -/
theorem watchesOk_addImported {imported : List Watch} {nextId : Nat} (h : WatchesOk watches)
    (himported : ∀ w ∈ imported, w.Valid ∧ w.activeFreeze = none) (hpos : 0 < nextId)
    (habove : ∀ w ∈ watches, w.id < nextId) (hleft : nextId + imported.length < 2 ^ 32) :
    ∃ watches', addImported imported nextId watches = some watches' ∧
      WatchesOk watches' := by
  induction imported generalizing nextId watches with
  | nil => exact ⟨watches, rfl, h⟩
  | cons w imported ih =>
    rw [List.length_cons] at hleft
    obtain ⟨hvalid, hfreeze⟩ := himported w List.mem_cons_self
    rw [addImported]
    simp only [succ32, if_pos (show nextId + 1 < 2 ^ 32 by omega), Option.bind_eq_bind,
      Option.bind_some]
    refine ih ?_ (fun w' hw' ↦ himported w' (List.mem_cons_of_mem _ hw')) (Nat.succ_pos _) ?_
      (by omega)
    · have hadd : ∀ w', w'.Valid → w'.id = nextId → w'.activeFreeze = none →
          (w'.isTraced = true → (watches.filter (·.isTraced)).length < maxTraces) →
          WatchesOk (watches ++ [w']) := by
        intro w' hv hid hf ht
        refine WatchesOk.insert (b := []) ?_ hv (by omega) (by omega) ?_ ?_ ?_
        · rw [List.append_nil]
          exact h
        · intro x hx
          rw [List.append_nil] at hx
          have hlt := habove x hx
          omega
        · rw [List.append_nil]
          exact ht
        · rw [hf]
          intro _ h'
          cases h'
      have hvalid' : ({ w with id := nextId } : Watch).Valid :=
        ⟨hvalid.depth, hvalid.size, hvalid.freeze, hvalid.pause⟩
      split_ifs with hmany
      · exact hadd _ ⟨hvalid.depth, hvalid.size, hvalid.freeze, by simp⟩ rfl hfreeze
          (by simp [Watch.isTraced])
      · refine hadd _ hvalid' rfl hfreeze ?_
        intro ht
        simp only [ht, Bool.true_and, decide_eq_true_eq] at hmany
        exact Nat.not_le.1 hmany
    · intro x hx
      obtain hx | hx := List.mem_append.1 hx
      · exact Nat.lt_succ_of_lt (habove x hx)
      · rw [List.mem_singleton] at hx
        rw [hx]
        split_ifs <;> exact Nat.lt_succ_self _

/-- A watch file whose import computes only ids that fit: those `parse` gives out, and one for each
valid watch after the ids of `watches`. -/
structure ImportFits (file : WatchFile) (watches : List Watch) : Prop where
  ids : ∀ w ∈ file.watches, w.id < 2 ^ 32
  parse : file.IdsLeft
  added : maxId watches + 1 + (file.watches.filter fun w ↦ w.validate.isOk).length < 2 ^ 32

instance (file : WatchFile) (watches : List Watch) : Decidable (ImportFits file watches) :=
  decidable_of_iff ((∀ w ∈ file.watches, w.id < 2 ^ 32) ∧ file.IdsLeft ∧
      maxId watches + 1 + (file.watches.filter fun w ↦ w.validate.isOk).length < 2 ^ 32)
    ⟨fun ⟨hids, hparse, hadded⟩ ↦ ⟨hids, hparse, hadded⟩, fun h ↦ ⟨h.ids, h.parse, h.added⟩⟩

/-- **`import_watches` keeps to the limits**, given that the ids it computes fit. -/
theorem watchesOk_importWatches (h : WatchesOk t.watches) {file : Except String WatchFile}
    {replace : Bool} (hfits : ∀ f, file = .ok f → f.version ≤ watchFileVersion →
      ImportFits f (if replace then [] else t.watches)) :
    ∃ t' result, t.importWatches file replace = some (t', result) ∧ WatchesOk t'.watches := by
  cases file with
  | error e => exact ⟨t, .error e, rfl, h⟩
  | ok file =>
    by_cases hversion : file.version ≤ watchFileVersion
    swap
    · obtain ⟨e, he⟩ := WatchFile.parse_newer hversion
      exact ⟨t, .error e, by rw [importWatches, he]; rfl, h⟩
    have hfile := hfits file rfl hversion
    have hadded := hfile.added
    rw [importWatches]
    obtain ⟨e, he⟩ | ⟨loaded, problems, hparse, -, hkept, -, hlength⟩ :=
      WatchFile.parse_eq_some hfile.ids hfile.parse
    · exact ⟨t, .error e, by rw [he]; rfl, h⟩
    · simp only [hparse, Option.bind_eq_bind, Option.bind_some]
      have hbase : (if replace then { t with watches := [], watchRuntime := [] } else t).watches =
          if replace then [] else t.watches := by split_ifs <;> rfl
      have hok : WatchesOk (if replace then [] else t.watches) := by
        split_ifs
        · exact watchesOk_nil
        · exact h
      rw [hbase, succ32, if_pos (by omega), Option.bind_some]
      obtain ⟨watches, hwatches, hlist⟩ := watchesOk_addImported hok
        (fun w hw ↦ ⟨(hkept w hw).valid, (hkept w hw).inactive⟩) (Nat.succ_pos _)
        (fun w hw ↦ Nat.lt_succ_of_le (WatchFile.id_le_maxId hw)) (by rw [hlength]; exact hadded)
      rw [hwatches, Option.bind_some]
      refine ⟨_, _, rfl, ?_⟩
      rw [watches_watchesChanged]
      exact hlist

/-- A watch file that loads within the limits: the ids `parse` gives out are new, and no more watches
are traced than the core takes. -/
structure LoadFits (file : WatchFile) : Prop where
  ids : ∀ w ∈ file.watches, w.id < 2 ^ 32
  parse : file.IdsLeft
  traced : WatchFile.tracedCount file.watches ≤ maxTraces

instance (file : WatchFile) : Decidable (LoadFits file) :=
  decidable_of_iff ((∀ w ∈ file.watches, w.id < 2 ^ 32) ∧ file.IdsLeft ∧
      WatchFile.tracedCount file.watches ≤ maxTraces)
    ⟨fun ⟨hids, hparse, htraced⟩ ↦ ⟨hids, hparse, htraced⟩, fun h ↦ ⟨h.ids, h.parse, h.traced⟩⟩

/-- **A file loads within the limits.** -/
theorem watchesOk_loadWatches {file : Option (Except String WatchFile)}
    (hfits : ∀ f, file = some (.ok f) → f.version ≤ watchFileVersion → LoadFits f) :
    ∃ t', t.loadWatches file = some t' ∧ WatchesOk t'.watches := by
  match file with
  | none => exact ⟨_, rfl, watchesOk_nil⟩
  | some (.error e) => exact ⟨_, rfl, watchesOk_nil⟩
  | some (.ok file) =>
    rw [loadWatches]
    by_cases hversion : file.version ≤ watchFileVersion
    swap
    · obtain ⟨e, he⟩ := WatchFile.parse_newer hversion
      exact ⟨_, by simp only [he]; rfl, watchesOk_nil⟩
    have hfile := hfits file rfl hversion
    obtain ⟨e, he⟩ | ⟨loaded, problems, hparse, hnodup, hkept, htraced, -⟩ :=
      WatchFile.parse_eq_some hfile.ids hfile.parse
    · exact ⟨_, by simp only [he]; rfl, watchesOk_nil⟩
    · have hinactive : activeFreezes loaded.watches = [] :=
        List.filterMap_eq_nil_iff.2 fun w hw ↦ (hkept w hw).inactive
      exact ⟨_, by simp only [hparse]; rfl, hnodup, fun w hw ↦ (hkept w hw).nonzero,
        fun w hw ↦ (hkept w hw).fits, fun w hw ↦ (hkept w hw).valid,
        htraced.trans hfile.traced, by simp [hinactive], by simp [hinactive, freezeBytes]⟩

/-- **Another core** keeps the list or brings its own. -/
theorem watchesOk_coreSwitched (h : WatchesOk t.watches) {regions : List MemoryRegionInfo}
    {game gameChanged searching : Bool} {file : Option (Except String WatchFile)}
    (hfits : game = true → gameChanged = true → ∀ f, file = some (.ok f) →
      f.version ≤ watchFileVersion → LoadFits f) :
    ∃ t', t.coreSwitched regions game gameChanged searching file = some t' ∧
      WatchesOk t'.watches := by
  rw [coreSwitched]
  cases gameChanged with
  | false =>
    refine ⟨_, rfl, ?_⟩
    rw [watches_pushRequest]
    exact h
  | true =>
    obtain ⟨t', hload, hok⟩ := @watchesOk_loadWatches { t with regions, game }
      (if game then file else none) (by
        intro f hf
        split_ifs at hf with hgame
        exact hfits hgame rfl f hf)
    simp only [hload, Option.bind_eq_bind, Option.map_some, Option.bind_some, if_true]
    refine ⟨_, rfl, ?_⟩
    rw [watches_pushRequest]
    exact hok

theorem watchesOk_removeWatch (h : WatchesOk t.watches) (id : Nat) :
    WatchesOk (t.removeWatch id).watches := by
  rw [removeWatch]
  split_ifs
  · rw [watches_watchesChanged]
    exact h.sublist List.filter_sublist
  · exact h

/-- A freeze that its watch can hold now: of the watch's length and, when active, within the limits
beside the others. -/
def FreezeFits (watches : List Watch) (id : Nat) (freeze : Option FreezeState) : Prop :=
  ∀ w ∈ watches.find? (fun w ↦ w.id = id), ∀ f ∈ freeze,
    f.value.length = w.format.size ∧
      (f.active = true → MemoryTools.freezeLimitError watches id f.value.length = none)

instance (watches : List Watch) (id : Nat) (freeze : Option FreezeState) :
    Decidable (FreezeFits watches id freeze) :=
  inferInstanceAs (Decidable (∀ w ∈ watches.find? (fun w ↦ w.id = id), ∀ f ∈ freeze,
    f.value.length = w.format.size ∧
      (f.active = true → MemoryTools.freezeLimitError watches id f.value.length = none)))

/-- What undoing (or redoing) a record needs to keep to the limits. -/
def RecordFits (watches : List Watch) (undo : Bool) : EditRecord → Prop
  | .write _ _ _ _ => True
  | .freeze id before after => FreezeFits watches id (if undo then before else after)

instance (watches : List Watch) (undo : Bool) (record : EditRecord) :
    Decidable (RecordFits watches undo record) := by
  cases record <;> unfold RecordFits <;> infer_instance

theorem watchesOk_applyRecord (h : WatchesOk t.watches) {record : EditRecord} {undo : Bool}
    (hfits : RecordFits t.watches undo record) :
    WatchesOk (t.applyRecord record undo).1.watches := by
  cases record with
  | write address old new epoch =>
    rw [applyRecord]
    split_ifs
    · exact h
    all_goals
      rw [watches_sendEdit]
      exact h
  | freeze id before after =>
    rw [applyRecord]
    cases hfind : t.watches.find? fun w ↦ w.id = id with
    | none => exact h
    | some w =>
      simp only
      rw [watches_watchesChanged]
      have hwatches : ∀ t' : MemoryTools, t'.watches =
          withFreeze t.watches id (if undo then before else after) →
          WatchesOk t'.watches := by
        intro t' ht'
        rw [ht']
        exact h.withFreeze hfind (fun f hf ↦ (hfits w hfind f hf).1)
          fun f hf ↦ (hfits w hfind f hf).2
      exact hwatches _ (by split_ifs <;> rfl)

theorem watchesOk_undo (h : WatchesOk t.watches)
    (hfits : ∀ record ∈ t.undoStack.head?, RecordFits t.watches true record) :
    WatchesOk t.undo.1.watches := by
  rw [undo]
  cases t.writeBlocked with
  | some reason => exact h
  | none =>
    cases hstack : t.undoStack with
    | nil => exact h
    | cons record undoStack =>
      rw [hstack] at hfits
      have hkeep := @watchesOk_applyRecord { t with undoStack } h record true (hfits record rfl)
      exact hkeep

theorem watchesOk_redo (h : WatchesOk t.watches)
    (hfits : ∀ record ∈ t.redoStack.head?, RecordFits t.watches false record) :
    WatchesOk t.redo.1.watches := by
  rw [redo]
  cases t.writeBlocked with
  | some reason => exact h
  | none =>
    cases hstack : t.redoStack with
    | nil => exact h
    | cons record redoStack =>
      rw [hstack] at hfits
      have hkeep := @watchesOk_applyRecord { t with redoStack } h record false (hfits record rfl)
      exact hkeep

/-- The new watch of `freeze_new`. -/
def newWatch (t : MemoryTools) (address : WatchAddress) (format : ValueFormat) (group : String) :
    Watch :=
  { id := 0, label := MemoryTools.formatWatchAddress address t.regions, address, format, group }

/-- **`freeze_new` keeps to the limits**, given that the id of a new watch fits. -/
theorem watchesOk_freezeNew (h : WatchesOk t.watches) (address : WatchAddress)
    (format : ValueFormat) (value : Bytes) (group : String)
    (hleft : t.upsertError (newWatch t address format group) = none →
      existingWatch t.watches 0 = none → maxId t.watches + 1 < 2 ^ 32) :
    ∃ t' result, t.freezeNew address format value group = some (t', result) ∧
      WatchesOk t'.watches := by
  rw [freezeNew]
  cases t.writeBlocked with
  | some reason => exact ⟨t, .error reason, rfl, h⟩
  | none =>
    cases hfind : t.watches.find? fun w ↦ w.address = address ∧ w.format.size = format.size with
    | some w =>
      simp only [Option.bind_eq_bind, Option.bind_some]
      exact ⟨_, _, rfl, watchesOk_setFreeze h w.id (some value)⟩
    | none =>
      obtain ⟨t', result, hupsert, hok⟩ := watchesOk_upsertWatch h hleft
      simp only [newWatch] at hupsert
      simp only [hupsert, Option.bind_eq_bind, Option.bind_some]
      cases result with
      | error e => exact ⟨t', .error e, rfl, hok⟩
      | ok id => exact ⟨_, _, rfl, watchesOk_setFreeze hok id (some value)⟩

/-! ## What does not touch the list -/

theorem watchesOk_write (h : WatchesOk t.watches) (address : WatchAddress) (data : Bytes) :
    WatchesOk (t.write address data).1.watches := by
  rw [write]
  split
  · exact h
  · split
    · exact watchesOk_setFreeze h _ _
    · split
      · exact h
      · rw [watches_sendEdit]
        exact h

theorem MemoryTools.watches_absorbSample (t : MemoryTools) : t.absorbSample.watches = t.watches := by
  rw [absorbSample]
  split_ifs <;> rfl

theorem MemoryTools.watches_takeSample (t : MemoryTools) : t.takeSample.watches = t.watches := by
  rw [takeSample]
  split
  · rw [watches_absorbSample]
  · rfl

theorem MemoryTools.watches_absorbWriteEvent (t : MemoryTools) (event : MonitorEvent) :
    (t.absorbWriteEvent event).watches = t.watches := by
  cases event with
  | written frame editId address old new =>
    simp only [absorbWriteEvent, takePendingEdit]
    cases (t.pendingEdits.find? fun p ↦ p.1 = editId).map (·.2) with
    | none => rfl
    | some origin => cases origin <;> rfl
  | writeFailed editId reason => rfl
  | changed frame id old new => rfl
  | discontinuity frame => rfl
  | pausedByCondition frame id => rfl

theorem MemoryTools.watches_absorbEvent (t : MemoryTools) (event : MonitorEvent) :
    (t.absorbEvent event).watches = t.watches := by
  cases event with
  | changed frame id old new =>
    rw [absorbEvent]
    split_ifs <;> rfl
  | discontinuity frame => rfl
  | pausedByCondition frame id => rfl
  | written frame editId address old new => exact t.watches_absorbWriteEvent _
  | writeFailed editId reason => exact t.watches_absorbWriteEvent _

theorem MemoryTools.watches_absorbEvents (t : MemoryTools) : t.absorbEvents.watches = t.watches := by
  have hfold : ∀ (events : List MonitorEvent) (t : MemoryTools),
      (events.foldl absorbEvent t).watches = t.watches := by
    intro events
    induction events with
    | nil => intro t; rfl
    | cons event events ih =>
      intro t
      rw [List.foldl_cons, ih, watches_absorbEvent]
  exact hfold _ _

theorem MemoryTools.watches_tick (t : MemoryTools) (input : MemoryTools.Tick) :
    (t.tick input).watches = t.watches := by
  rw [tick]
  cases input.searchRows <;>
    simp only [apply_ite watches, watches_pushRequest,
      watches_absorbEvents, watches_takeSample, ite_self]

/-! ## Runs -/

/-- The operations on the watch list, and what happens between them. -/
inductive WatchOp where
  | upsert (w : Watch)
  | remove (id : Nat)
  | importFile (file : Except String WatchFile) (replace : Bool)
  | setFreeze (id : Nat) (value : Option Bytes)
  | freezeNew (address : WatchAddress) (format : ValueFormat) (value : Bytes) (group : String)
  | undo
  | redo
  | write (address : WatchAddress) (data : Bytes)
  | tick (input : MemoryTools.Tick)
  /-- The core thread changed what is shared with it. -/
  | monitor (shared : MemoryMonitorShared)
  /-- Another core took over, of another game if `gameChanged`. -/
  | switch (regions : List MemoryRegionInfo) (game gameChanged searching : Bool)
      (file : Option (Except String WatchFile))

/-- One operation; `none` is the panic of an id computation that overflows. -/
def WatchOp.exec (t : MemoryTools) : WatchOp → Option MemoryTools
  | .upsert w => (t.upsertWatch w).map (·.1)
  | .remove id => some (t.removeWatch id)
  | .importFile file replace => (t.importWatches file replace).map (·.1)
  | .setFreeze id value => some (t.setFreeze id value).1
  | .freezeNew address format value group => (t.freezeNew address format value group).map (·.1)
  | .undo => some t.undo.1
  | .redo => some t.redo.1
  | .write address data => some (t.write address data).1
  | .tick input => some (t.tick input)
  | .monitor shared => some { t with shared }
  | .switch regions game gameChanged searching file =>
    t.coreSwitched regions game gameChanged searching file

/-- A step of a run, which a panic ends. -/
def WatchOp.step (op : WatchOp) (t : Option MemoryTools) : Option MemoryTools := t.bind op.exec

/-- What the operations do not check themselves: a new watch's id fits in 32 bits, and so do those of
imported watches; an undone or redone freeze can be held by its watch. -/
def WatchOp.Held (t : MemoryTools) : WatchOp → Prop
  | .upsert w => t.upsertError w = none → MemoryTools.existingWatch t.watches w.id = none →
      maxId t.watches + 1 < 2 ^ 32
  | .importFile (.ok file) replace => file.version ≤ watchFileVersion →
      ImportFits file (if replace then [] else t.watches)
  | .switch _ true true _ (some (.ok file)) => file.version ≤ watchFileVersion → LoadFits file
  | .freezeNew address format _ group => t.upsertError (newWatch t address format group) = none →
      MemoryTools.existingWatch t.watches 0 = none → maxId t.watches + 1 < 2 ^ 32
  | .undo => ∀ record ∈ t.undoStack.head?, RecordFits t.watches true record
  | .redo => ∀ record ∈ t.redoStack.head?, RecordFits t.watches false record
  | _ => True

/-- **Each operation keeps to the limits**, and panics nowhere. -/
theorem watchesOk_exec (h : WatchesOk t.watches) {op : WatchOp} (hheld : op.Held t) :
    ∃ t', op.exec t = some t' ∧ WatchesOk t'.watches := by
  cases op with
  | upsert w =>
    obtain ⟨t', result, hrun, hok⟩ := watchesOk_upsertWatch h hheld
    exact ⟨t', by rw [WatchOp.exec, hrun]; rfl, hok⟩
  | remove id => exact ⟨_, rfl, watchesOk_removeWatch h id⟩
  | importFile file replace =>
    have hfits : ∀ f, file = .ok f → f.version ≤ watchFileVersion →
        ImportFits f (if replace then [] else t.watches) := by
      rintro f rfl
      exact hheld
    obtain ⟨t', result, hrun, hok⟩ := watchesOk_importWatches h hfits
    exact ⟨t', by rw [WatchOp.exec, hrun]; rfl, hok⟩
  | setFreeze id value => exact ⟨_, rfl, watchesOk_setFreeze h id value⟩
  | freezeNew address format value group =>
    obtain ⟨t', result, hrun, hok⟩ := watchesOk_freezeNew h address format value group hheld
    exact ⟨t', by rw [WatchOp.exec, hrun]; rfl, hok⟩
  | undo => exact ⟨_, rfl, watchesOk_undo h hheld⟩
  | redo => exact ⟨_, rfl, watchesOk_redo h hheld⟩
  | write address data => exact ⟨_, rfl, watchesOk_write h address data⟩
  | tick input => exact ⟨_, rfl, (t.watches_tick input).symm ▸ h⟩
  | monitor shared => exact ⟨_, rfl, h⟩
  | switch regions game gameChanged searching file =>
    refine watchesOk_coreSwitched h ?_
    rintro rfl rfl f rfl
    exact hheld

/-! ## The request -/

/-- The core takes every traced watch and every active freeze over, as the list has them. -/
def NothingDropped (t : MemoryTools) (r : MonitorRequest) : Prop :=
  (t.wantedRequest r).clamp.traces = (t.watches.filter (·.isTraced)).map MemoryTools.traceSpec ∧
    (t.wantedRequest r).clamp.freezes.map (fun f ↦ (f.id, f.path, f.bytes)) =
      t.watches.filterMap fun w ↦ w.activeFreeze.map fun f ↦ (w.id, watchPath w, f.value)

/-- No freeze is dropped on the way into the request. -/
theorem freezeSpecs_of_fits {count bytes : Nat} (hvalid : ∀ w ∈ watches, w.Valid)
    (hcount : count + (activeFreezes watches).length ≤ maxFreezes)
    (hbytes : bytes + freezeBytes (activeFreezes watches) ≤ maxFreezeBytes) :
    (freezeSpecs watches count bytes).map (fun f ↦ (f.id, f.path, f.bytes)) =
      watches.filterMap fun w ↦ w.activeFreeze.map fun f ↦ (w.id, watchPath w, f.value) := by
  induction watches generalizing count bytes with
  | nil => rfl
  | cons w watches ih =>
    have hvalid' : ∀ w' ∈ watches, w'.Valid := fun w' h ↦ hvalid w' (List.mem_cons_of_mem _ h)
    rw [activeFreezes_cons, List.length_append] at hcount
    rw [activeFreezes_cons, freezeBytes_append] at hbytes
    rw [freezeSpecs, List.filterMap_cons]
    cases hf : w.activeFreeze with
    | none =>
      rw [hf] at hcount hbytes
      exact ih hvalid' (by simpa using hcount) (by simpa [freezeBytes] using hbytes)
    | some f =>
      rw [hf] at hcount hbytes
      have hcount' : count + (1 + (activeFreezes watches).length) ≤ maxFreezes := hcount
      have hbytes' : bytes + (f.value.length + 0 + freezeBytes (activeFreezes watches)) ≤
          maxFreezeBytes := hbytes
      have hw := hvalid w List.mem_cons_self
      have hlen : f.value.length = w.format.size := hw.freeze f (Option.filter_eq_some_iff.1 hf).1
      have hspec : 0 < f.value.length ∧ f.value.length ≤ maxValueLen := hlen ▸ hw.size
      have hroom : ¬ (maxFreezes ≤ count ∨ maxFreezeBytes < bytes + f.value.length) := by omega
      simp only [if_neg hroom, FreezeSpec.new, dif_pos hspec, Option.map_some, List.map_cons]
      rw [ih hvalid' (by omega) (by omega)]

/-- **A list within the limits is taken over as it is.** -/
theorem nothingDropped_of_ok (h : WatchesOk t.watches) (r : MonitorRequest) : NothingDropped t r := by
  have hspecs : (freezeSpecs t.watches 0 0).map (fun f ↦ (f.id, f.path, f.bytes)) =
      t.watches.filterMap fun w ↦ w.activeFreeze.map fun f ↦ (w.id, watchPath w, f.value) :=
    freezeSpecs_of_fits h.valid ((Nat.zero_add _).trans_le h.freezes)
      ((Nat.zero_add _).trans_le h.bytes)
  constructor
  · have htake : (t.watches.filter (·.isTraced)).take maxTraces = t.watches.filter (·.isTraced) :=
      List.take_of_length_le h.traced
    have hall : (t.wantedRequest r).traces =
        (t.watches.filter (·.isTraced)).map traceSpec :=
      congrArg (List.map traceSpec) htake
    show ((t.wantedRequest r).traces.take maxTraces).map _ = _
    rw [hall, List.take_of_length_le ((List.length_map _).trans_le h.traced)]
    refine map_clampLen_of_forall ?_
    intro spec hspec
    obtain ⟨w, hw, rfl⟩ := List.mem_map.1 hspec
    have hsize := (h.valid w (List.mem_filter.1 hw).1).size
    have hlen : clampLen w.format.size = w.format.size := clampLen_of_le hsize.1 hsize.2
    rw [traceSpec, hlen]
  · have hlength : (freezeSpecs t.watches 0 0).length ≤ maxFreezes := by
      have heq := congrArg List.length hspecs
      have hactive : (t.watches.filterMap fun w ↦ w.activeFreeze.map fun f ↦
          (w.id, watchPath w, f.value)).length = (activeFreezes t.watches).length := by
        rw [activeFreezes, List.length_filterMap_eq_countP, List.length_filterMap_eq_countP]
        simp
      rw [List.length_map, hactive] at heq
      exact heq.trans_le h.freezes
    have hbytes : ((freezeSpecs t.watches 0 0).map fun f ↦ f.bytes.length).sum ≤
        maxFreezeBytes := by
      have heq := congrArg (fun l ↦ (l.map fun f : Nat × AddressPath × Bytes ↦ f.2.2.length).sum)
        hspecs
      have hactive : (t.watches.filterMap fun w ↦ w.activeFreeze.map fun f ↦
          (w.id, watchPath w, f.value)).map (fun f ↦ f.2.2.length) =
            (activeFreezes t.watches).map fun f ↦ f.value.length := by
        rw [activeFreezes, List.map_filterMap, List.map_filterMap]
        refine List.filterMap_congr fun w _ ↦ ?_
        cases w.activeFreeze <;> rfl
      simp only [hactive, List.map_map] at heq
      exact heq.trans_le h.bytes
    show (clampFreezes ((freezeSpecs t.watches 0 0).take maxFreezes)
      maxFreezeBytes).map _ = _
    rw [List.take_of_length_le hlength, clampFreezes_of_le hbytes]
    exact hspecs

/-! ## Every run -/

instance (t : MemoryTools) (op : WatchOp) : Decidable (op.Held t) := by
  unfold WatchOp.Held
  split <;> infer_instance

/-- What `Held` says of a step of a run. -/
def WatchOp.HeldAt (op : WatchOp) (s : Option MemoryTools) : Prop := ∀ t ∈ s, op.Held t

instance (op : WatchOp) (s : Option MemoryTools) : Decidable (op.HeldAt s) :=
  inferInstanceAs (Decidable (∀ t ∈ s, op.Held t))

/-- The tools once a game with a watch file has been loaded. -/
def MemoryTools.loaded (t : MemoryTools) (regions : List MemoryRegionInfo) (searching : Bool)
    (file : WatchFile) : Option MemoryTools :=
  t.coreSwitched regions true true searching (some (.ok file))

/-- Run the operations after loading a watch file. -/
def runWatches (t : MemoryTools) (regions : List MemoryRegionInfo) (searching : Bool)
    (file : WatchFile) (ops : List WatchOp) : Option MemoryTools :=
  Runs.run WatchOp.step ops (t.loaded regions searching file)

/-- **The watch list stays within what the core accepts**, from any watch file that loads within the
limits on, along every run whose steps are held. -/
theorem watchesOk_run {file : WatchFile} (hfile : LoadFits file) (t : MemoryTools)
    (regions : List MemoryRegionInfo) (searching : Bool) {ops : List WatchOp}
    (hheld : Runs.Along WatchOp.step WatchOp.HeldAt ops (t.loaded regions searching file)) :
    ∃ t', runWatches t regions searching file ops = some t' ∧ WatchesOk t'.watches ∧
      ∀ r, NothingDropped t' r := by
  have hstart : ∃ t', t.loaded regions searching file = some t' ∧ WatchesOk t'.watches := by
    obtain ⟨t', hload, hok⟩ := @watchesOk_coreSwitched
      { t with watches := [], watchRuntime := [] } watchesOk_nil regions true true searching
      (some (.ok file)) (by
        rintro - - f ⟨⟩ -
        exact hfile)
    exact ⟨t', hload, hok⟩
  have hstep : ∀ op (s : Option MemoryTools), (∃ t, s = some t ∧ WatchesOk t.watches) →
      WatchOp.HeldAt op s → ∃ t, op.step s = some t ∧ WatchesOk t.watches := by
    rintro op _ ⟨t, rfl, hok⟩ hheld
    exact watchesOk_exec hok (hheld t rfl)
  obtain ⟨t', hrun, hok⟩ := Runs.run_along hstep hheld hstart
  exact ⟨t', hrun, hok, nothingDropped_of_ok hok⟩

/-- A file with one watch, of two bytes. -/
def oneWatch : WatchFile :=
  { version := 1, watches := [{ id := 1, address := ⟨0xC000, []⟩, format := .new .u16 2 false }] }

/-- The same watch, of one byte. -/
def narrowed : Watch := { id := 1, address := ⟨0xC000, []⟩, format := .new .u8 1 false }

/-- Freezing a watch, adding another and undoing and redoing the freeze is within the limits. -/
theorem watchesOk_run_frozen :
    ∃ t', runWatches {} [] false oneWatch
        [.setFreeze 1 (some [1, 2]), .upsert { narrowed with id := 0 }, .undo, .redo] = some t' ∧
      WatchesOk t'.watches ∧ ∀ r, NothingDropped t' r :=
  watchesOk_run (by decide +kernel) _ _ _ (by decide +kernel)

/-- Making the watch narrower instead, redoing the freeze holds two bytes at a watch of one. -/
theorem not_watchesOk_narrowed :
    ∃ t', runWatches {} [] false oneWatch
        [.setFreeze 1 (some [1, 2]), .upsert narrowed, .undo, .redo] = some t' ∧
      ¬ WatchesOk t'.watches := by
  have hrun : (runWatches {} [] false oneWatch
      [.setFreeze 1 (some [1, 2]), .upsert narrowed, .undo, .redo]).map (·.watches) =
        some [{ narrowed with freeze := some ⟨[1, 2], true⟩ }] := by decide +kernel
  obtain ⟨t', ht', hwatches⟩ := Option.map_eq_some_iff.1 hrun
  refine ⟨t', ht', ?_⟩
  rw [hwatches]
  intro h
  have hlen := (h.valid _ List.mem_cons_self).freeze _ rfl
  exact absurd hlen (by decide)

end SuperShuckie
