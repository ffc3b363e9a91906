import SuperShuckie.Frontend.Requests

/-!
# The bookmark types over a session

In a session of the frontend, replays come and go with type records of their own, and requests about
bookmarks and about types come in any order.  The user's types stay a set in every run whose steps
adopt only what is `Adoptable` (`typesSet_run`).

The program looks at less.  A type that is adopted by id is taken however many types there are and
whatever they are called (`not_typesSet_adopted`), one that an upsert adopts under its own name is
taken whatever the others are called, and one that is adopted by name may have the id 0.
-/

set_option autoImplicit false

namespace SuperShuckie

namespace Frontend

/-- What happens to the frontend's bookmarks. -/
inductive SessionAction (b : Bookmarking)
  /-- A replay is opened, recorded or closed. -/
  | switchReplay (table : BookmarkTable) (target : EditTarget)
  | request (newId : NewTypeId b.settings b.table) (request : BookmarkRequest)
    (allowUpgrade : Bool) (inMoment outMoment : Moment)
  | upsertType (newId : NewTypeId b.settings b.table) (upsert : BookmarkTypeUpsert)
  | deleteType (id : String)
  | setActiveType (id : Option String)

/-- The settings after a request about them. -/
def Bookmarking.withSettings (b : Bookmarking) :
    Except BookmarkError BookmarkSettings → Bookmarking
  | .ok settings => { b with settings }
  | .error _ => b

/-- What it leaves; nothing where a request does not come to an end. -/
def sessionStep (E : Platform) (b : Bookmarking) : SessionAction b → Option Bookmarking
  | .switchReplay table target => some { b with table, target, openRange := none }
  | .request newId request allowUpgrade inMoment outMoment =>
    (handle E b newId request allowUpgrade inMoment outMoment).map Prod.snd
  | .upsertType newId upsert =>
    some (b.withSettings ((upsertBookmarkType E b.settings b.table newId upsert).map Prod.snd))
  | .deleteType id => some (b.withSettings (deleteBookmarkType E b.settings id))
  | .setActiveType id => some (b.withSettings (setActiveBookmarkType E b.settings id))

/-! ## Which type a request comes to -/

/-- The type that adding a bookmark comes to: the one asked for, once the bookmark has its place and
its out point. -/
def typeReachedByAdd (E : Platform) (b : Bookmarking) (params : BookmarkParams)
    (allowUpgrade : Bool) (inMoment outMoment : Moment) : Option TypeChoice :=
  match checkEditable b allowUpgrade, requested E params, (place inMoment params).1 with
  | .ok _, .ok choices, .ok anchor =>
    match outFor outMoment anchor.inFrame choices.1 with
    | .ok _ => choices.2
    | .error _ => none
  | _, _, _ => none

/-- The type that changing a bookmark comes to. -/
def typeReachedByUpdate (E : Platform) (b : Bookmarking) (id : UInt64) (params : BookmarkParams)
    (allowUpgrade : Bool) (inMoment outMoment : Moment) : Option TypeChoice :=
  match checkEditable b allowUpgrade, b.table.bookmarks.find? (·.id = id) with
  | .ok _, some bookmark =>
    match changedBookmark E bookmark params inMoment outMoment,
      requestedType E params.typeId params.typeName with
    | .ok changed, .ok choice => if EndsBefore changed.inFrame changed.out then none else choice
    | _, _ => none
  | _, _ => none

/-- The type that a request comes to. -/
def typeReached (E : Platform) (b : Bookmarking) (request : BookmarkRequest) (allowUpgrade : Bool)
    (inMoment outMoment : Moment) : Option TypeChoice :=
  match request with
  | .add params => typeReachedByAdd E b params allowUpgrade inMoment outMoment
  | .update id params => typeReachedByUpdate E b id params allowUpgrade inMoment outMoment
  | .delete _ => none
  | .toggleRange params =>
    if (startedRange b).isSome then none
    else
      typeReachedByAdd E b { params with frame := none, out := none } allowUpgrade inMoment
        outMoment

/-- The record that a step adopts without a look at all that `Adoptable` asks. -/
def adoptedIn (E : Platform) (b : Bookmarking) : SessionAction b → Option BookmarkTypeRecord
  | .request _ request allowUpgrade inMoment outMoment =>
    (typeReached E b request allowUpgrade inMoment outMoment).bind (adoptedBy E b.settings b.table)
  | .upsertType _ upsert => adoptedByUpsert E b.settings b.table upsert
  | _ => none

/-- What a step adopts may become one of the types. -/
def AdoptsWell (E : Platform) (b : Bookmarking) (action : SessionAction b) : Prop :=
  ∀ record ∈ adoptedIn E b action, Adoptable E b.settings record

/-- The frontend gets from `b` to `b'` in steps with a property. -/
inductive SessionRun (E : Platform) (good : (b : Bookmarking) → SessionAction b → Prop)
    (b : Bookmarking) : Bookmarking → Prop
  | refl : SessionRun E good b b
  | step {mid b' : Bookmarking} (h : SessionRun E good b mid) (action : SessionAction mid)
    (hgood : good mid action) (hstep : sessionStep E mid action = some b') :
    SessionRun E good b b'

/-! ## What a request does to the types -/

variable {E : Platform} {b b' : Bookmarking} {newId : NewTypeId b.settings b.table}
  {allowUpgrade : Bool} {inMoment outMoment : Moment}

/-- The settings are as they were, or as resolving a type leaves them. -/
def ResolvesOnly (E : Platform) (b : Bookmarking) (newId : NewTypeId b.settings b.table)
    (choice : Option TypeChoice) (settings : BookmarkSettings) : Prop :=
  settings = b.settings ∨ ∃ wanted ∈ choice, ∃ id,
    resolveType E b.settings b.table newId wanted = .ok (id, settings)

theorem edit_settings {edited : BookmarkTable} : (edit b edited).settings = b.settings := by
  rw [edit]
  split_ifs <;> rfl

/-- What `typeFor` leaves is what resolving the type leaves, if one is asked for. -/
theorem resolvesOnly_typeFor {choice : Option TypeChoice} {id : UInt64}
    {settings : BookmarkSettings} (h : typeFor E b newId choice = .ok (id, settings)) :
    ResolvesOnly E b newId choice settings := by
  cases choice with
  | none =>
    cases h
    exact Or.inl rfl
  | some wanted => exact Or.inr ⟨wanted, rfl, id, h⟩

variable {params : BookmarkParams}

theorem resolvesOnly_add {r : Except BookmarkError UInt64}
    (h : addBookmark E b newId params allowUpgrade inMoment outMoment = some (r, b')) :
    ResolvesOnly E b newId (typeReachedByAdd E b params allowUpgrade inMoment outMoment)
      b'.settings := by
  rw [addBookmark] at h
  rw [typeReachedByAdd]
  cases hcheck : checkEditable b allowUpgrade with
  | error e =>
    rw [hcheck] at h
    cases h
    exact Or.inl rfl
  | ok target =>
    cases hreq : requested E params with
    | error e =>
      rw [hcheck, hreq] at h
      cases h
      exact Or.inl rfl
    | ok choices =>
      cases hplace : place inMoment params with
      | mk anchor written =>
        rw [hcheck, hreq, hplace] at h
        cases anchor with
        | error e =>
          cases h
          exact Or.inl rfl
        | ok anchor =>
          dsimp only at h ⊢
          cases hrest : outAndType E b newId outMoment anchor.inFrame choices with
          | error e =>
            rw [hrest] at h
            cases h
            exact Or.inl rfl
          | ok rest =>
            obtain ⟨out, typeId, settings⟩ := rest
            obtain ⟨hout, htype⟩ := outAndType_eq_ok.1 hrest
            rw [hrest] at h
            rw [hout]
            dsimp only at h ⊢
            cases hname : nameFor settings b.table typeId params.name with
            | none =>
              rw [hname] at h
              cases h
            | some name =>
              rw [hname] at h
              cases h
              rw [edit_settings]
              exact resolvesOnly_typeFor htype

theorem resolvesOnly_update {id : UInt64} :
    ResolvesOnly E b newId (typeReachedByUpdate E b id params allowUpgrade inMoment outMoment)
      (updateBookmark E b newId id params allowUpgrade inMoment outMoment).2.settings := by
  rw [updateBookmark, typeReachedByUpdate]
  cases hcheck : checkEditable b allowUpgrade with
  | error e => exact Or.inl rfl
  | ok target =>
    cases hfind : b.table.bookmarks.find? (·.id = id) with
    | none => exact Or.inl rfl
    | some bookmark =>
      dsimp only
      rw [updatedBookmark]
      cases hchanged : changedBookmark E bookmark params inMoment outMoment with
      | error e => exact Or.inl rfl
      | ok changed =>
        dsimp only
        by_cases hbefore : EndsBefore changed.inFrame changed.out
        · rw [if_pos hbefore]
          exact Or.inl rfl
        · rw [if_neg hbefore]
          cases htype : requestedType E params.typeId params.typeName with
          | error e => exact Or.inl rfl
          | ok choice =>
            dsimp only
            rw [if_neg hbefore]
            cases choice with
            | none => exact Or.inl edit_settings
            | some wanted =>
              dsimp only
              cases hres : resolveType E b.settings b.table newId wanted with
              | error e => exact Or.inl rfl
              | ok r =>
                refine Or.inr ⟨wanted, rfl, r.1, ?_⟩
                rw [hres]
                dsimp only [Except.map]
                rw [edit_settings]

theorem settings_deleteBookmark {id : UInt64} :
    (deleteBookmark b id allowUpgrade).2.settings = b.settings := by
  rw [deleteBookmark]
  cases hcheck : checkEditable b allowUpgrade with
  | error e => rfl
  | ok target =>
    dsimp only
    cases hremove : b.table.remove id with
    | mk removed table =>
      cases removed with
      | none => rfl
      | some bookmark => exact edit_settings

theorem resolvesOnly_toggle {r : Except BookmarkError (UInt64 × Bool)}
    (h : toggleRangeBookmark E b newId params allowUpgrade inMoment outMoment = some (r, b')) :
    ResolvesOnly E b newId
      (typeReached E b (.toggleRange params) allowUpgrade inMoment outMoment) b'.settings := by
  rw [toggleRangeBookmark] at h
  rw [typeReached]
  cases hcheck : checkEditable b allowUpgrade with
  | error e =>
    rw [hcheck] at h
    cases h
    exact Or.inl rfl
  | ok target =>
    rw [hcheck] at h
    dsimp only at h
    cases hrange : startedRange b with
    | some id =>
      rw [hrange] at h
      cases hnow : bookmarkNow inMoment with
      | error e =>
        rw [hnow] at h
        cases h
        exact Or.inl rfl
      | ok now =>
        rw [hnow] at h
        cases h
        exact Or.inl edit_settings
    | none =>
      rw [hrange] at h
      cases hadd : addBookmark E b newId { params with frame := none, out := none } allowUpgrade
          inMoment outMoment with
      | none =>
        rw [hadd] at h
        cases h
      | some added =>
        obtain ⟨result, after⟩ := added
        have hafter := resolvesOnly_add hadd
        rw [hadd] at h
        cases result with
        | error e =>
          cases h
          exact hafter
        | ok id =>
          cases h
          exact hafter

/-- **A request about bookmarks** changes the user's types only by resolving the type it comes
to. -/
theorem resolvesOnly_handle {request : BookmarkRequest} {refused : Option BookmarkError}
    (h : handle E b newId request allowUpgrade inMoment outMoment = some (refused, b')) :
    ResolvesOnly E b newId (typeReached E b request allowUpgrade inMoment outMoment)
      b'.settings := by
  cases request with
  | add params =>
    obtain ⟨⟨r, after⟩, hadd, heq⟩ := Option.map_eq_some_iff.1 h
    cases heq
    exact resolvesOnly_add hadd
  | update id params =>
    cases h
    exact resolvesOnly_update
  | delete id =>
    cases h
    exact Or.inl settings_deleteBookmark
  | toggleRange params =>
    obtain ⟨⟨r, after⟩, htoggle, heq⟩ := Option.map_eq_some_iff.1 h
    cases heq
    exact resolvesOnly_toggle htoggle

/-! ## Whole sessions -/

/-- A request about the types keeps them a set if what it leaves is one. -/
theorem typesSet_withSettings {r : Except BookmarkError BookmarkSettings}
    (h : TypesSet E b.settings) (hres : ∀ settings, r = .ok settings → TypesSet E settings) :
    TypesSet E (b.withSettings r).settings := by
  cases r with
  | error e => exact h
  | ok settings => exact hres settings rfl

/-- **One step** keeps the types a set, where what it adopts is adoptable. -/
theorem typesSet_step {action : SessionAction b} (h : TypesSet E b.settings)
    (hgood : AdoptsWell E b action) (hstep : sessionStep E b action = some b') :
    TypesSet E b'.settings := by
  cases action with
  | switchReplay table target =>
    cases hstep
    exact h
  | request newId request allowUpgrade inMoment outMoment =>
    obtain ⟨⟨refused, after⟩, hhandle, rfl⟩ := Option.map_eq_some_iff.1 hstep
    obtain hsame | ⟨wanted, hwanted, id, hres⟩ := resolvesOnly_handle hhandle
    · rw [hsame]
      exact h
    · refine typesSet_resolveType h (fun record hrecord ↦ hgood record ?_) hres
      exact Option.bind_eq_some_iff.2 ⟨wanted, hwanted, hrecord⟩
  | upsertType newId upsert =>
    cases hstep
    refine typesSet_withSettings h fun settings hmap ↦ ?_
    cases hres : upsertBookmarkType E b.settings b.table newId upsert with
    | error e =>
      rw [hres] at hmap
      cases hmap
    | ok r =>
      rw [hres] at hmap
      cases hmap
      exact typesSet_upsert h hgood hres
  | deleteType id =>
    cases hstep
    exact typesSet_withSettings h fun settings hres ↦ typesSet_delete h hres
  | setActiveType id =>
    cases hstep
    exact typesSet_withSettings h fun settings hres ↦ typesSet_setActive h hres

/-- **The types over a session.**  They are a set in every state that steps lead to which adopt only
what may become one of the types. -/
theorem typesSet_run (h : TypesSet E b.settings) (hrun : SessionRun E (AdoptsWell E) b b') :
    TypesSet E b'.settings := by
  induction hrun with
  | refl => exact h
  | step _ action hgood hstep ih => exact typesSet_step ih hgood hstep

/-- A platform of which only the letters A to Z have two cases. -/
def asciiPlatform : Platform where
  toLowercase name := String.ofList (name.toList.map Char.toLower)
  quoted text := text
  paletteColor _ := 0

/-- A replay with a type that the user may not have yet, and no types of the user's. -/
def foreignType : Bookmarking where
  settings := ⟨[], 0, true⟩
  table := { BookmarkTable.new with types := [⟨2, "boss", 0⟩] }
  target := .recording
  openRange := none
  forced := 0

/-- The user takes over the type of the replay. -/
theorem typesSet_adopted : TypesSet asciiPlatform ⟨[⟨2, "boss", 0⟩], 0, true⟩ := by
  have hstart : TypesSet asciiPlatform foreignType.settings :=
    ⟨by decide, by decide, by decide, by decide, by decide⟩
  suffices hrun : SessionRun asciiPlatform (AdoptsWell asciiPlatform) foreignType
      { foreignType with settings := ⟨[⟨2, "boss", 0⟩], 0, true⟩ } from typesSet_run hstart hrun
  refine .step .refl (.upsertType ⟨1, by decide⟩ ⟨some "2", none, none⟩) ?_ rfl
  intro record hrecord
  have hadopted : adoptedIn asciiPlatform foreignType
      (.upsertType ⟨1, by decide⟩ ⟨some "2", none, none⟩) = some ⟨2, "boss", 0⟩ := by
    decide +kernel
  rw [hadopted] at hrecord
  cases hrecord
  exact ⟨by decide, by decide, fun _ ht ↦ nomatch ht⟩

/-- The user has a type "Boss", and a bookmark is given the type of the replay by its id: there are
two types of that name. -/
theorem not_typesSet_adopted :
    ¬ ∀ b b' : Bookmarking, TypesSet asciiPlatform b.settings →
      SessionRun asciiPlatform (fun _ _ ↦ True) b b' → TypesSet asciiPlatform b'.settings := by
  intro h
  have hstart : TypesSet asciiPlatform ⟨[⟨1, "Boss", 0⟩], 0, true⟩ :=
    ⟨by decide, by decide, by decide +kernel, by decide, by decide⟩
  have hrun := h { foreignType with settings := ⟨[⟨1, "Boss", 0⟩], 0, true⟩ } _ hstart
    (.step .refl (.request ⟨3, by decide⟩
      (.add ⟨some "here", none, some "2", none, none, none⟩) false
      ⟨.recording 100 1666 false, .inTime, .recording, 100, fun _ ↦ some 0⟩
      ⟨.recording 100 1666 false, .inTime, .recording, 100, fun _ ↦ some 0⟩) trivial rfl)
  exact absurd hrun.names (by decide +kernel)

end Frontend

end SuperShuckie
