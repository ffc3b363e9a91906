import SuperShuckie.Frontend.Types

/-!
# Requests about bookmarks

Bookmarks are added, changed and deleted by requests, which the core is asked about on the way:
where a bookmark goes now, and what time a frame has.  A keyframe bookmark of a recording has a
keyframe written.  The core answers within half a second or not at all, and one that is late may
still have written the keyframe.

A request that is refused leaves everything as it was, and one that is carried out leaves every
range the right way round, exactly under `Meets` (`holds_iff`).  What goes wrong otherwise: a
keyframe is written before the out point and the type are looked at, a name counts up past the
largest number, or the replay brought a range that ends before it starts.
-/

set_option autoImplicit false

namespace SuperShuckie

open Text

namespace Frontend

/-! ## What the core is asked -/

/-- The frames that a keyframe bookmark is after its keyframe. -/
def keyframeBookmarkLeadFrames : UInt64 := 3

/-- The replay that the core has. -/
inductive CoreReplay
  | none
  /-- One that is recorded: its frames and its time, and whether a frame is partly emulated. -/
  | recording (frames millis : UInt64) (midFrame : Bool)
  /-- One that is played back: where it stands, the time of the keyframe on frame 0, and the frames
  and times of the keyframes after it. -/
  | playback (frame millis start : UInt64) (keyframes : List (UInt64 × UInt64))

/-- Where a bookmark requested at the current moment goes. -/
structure BookmarkAnchor where
  inFrame : UInt64
  inMillis : UInt64
  keyframe : Bool

/-- A keyframe is written for the bookmark, now or once the frame is complete. -/
def writesKeyframe (replay : CoreReplay) (keyframe : Bool) : Bool :=
  match replay with
  | .recording .. => keyframe
  | _ => false

/-- Place a bookmark at the current moment. -/
def bookmarkAnchor (replay : CoreReplay) (keyframe : Bool) : Except BookmarkError BookmarkAnchor :=
  match replay with
  | .none => .error .noReplay
  | .recording frames millis midFrame =>
    if ¬ keyframe then .ok ⟨frames, millis, false⟩
    else if midFrame then .ok ⟨frames + 1 + keyframeBookmarkLeadFrames, millis, true⟩
    else .ok ⟨frames + keyframeBookmarkLeadFrames, millis, true⟩
  | .playback frame millis start keyframes =>
    if ¬ keyframe then .ok ⟨frame, millis, false⟩
    else
      let latest :=
        if frame < keyframeBookmarkLeadFrames then 0 else frame - keyframeBookmarkLeadFrames
      let (frame, millis) := ((keyframes.filter (·.1 ≤ latest)).getLast?).getD (0, start)
      .ok ⟨frame + keyframeBookmarkLeadFrames, millis, true⟩

/-- Whether the core answers in time; one that does not may have done what it was asked. -/
inductive Answer
  | inTime
  | late (done : Bool)
deriving DecidableEq

inductive ReplayState
  | noReplay
  | recording
  | playback
deriving DecidableEq

/-- What a request finds when it asks: the core and its answer, what the frontend takes the replay
for, its frames (those recorded so far, when recording), and what times frames have. -/
structure Moment where
  core : CoreReplay
  answer : Answer
  state : ReplayState
  frames : UInt64
  millisAt : UInt64 → Option UInt64

/-- `bookmark_anchor` across the threads, and how many keyframes are written for it. -/
def askAnchor (m : Moment) (keyframe : Bool) : Except BookmarkError BookmarkAnchor × Nat :=
  match m.answer with
  | .inTime => (bookmarkAnchor m.core keyframe, (writesKeyframe m.core keyframe).toNat)
  | .late done => (.error .busy, (done && writesKeyframe m.core keyframe).toNat)

/-- A frame of the replay, and its time. -/
abbrev Point := UInt64 × UInt64

/-- The frame counter now, and the replay time then. -/
def bookmarkNow (m : Moment) : Except BookmarkError Point :=
  (askAnchor m false).1.map fun anchor ↦ (anchor.inFrame, anchor.inMillis)

/-- Check that a frame exists in the replay (so far, when recording). -/
def checkBookmarkFrame (m : Moment) (frame : UInt64) : Except BookmarkError Unit :=
  match m.state with
  | .noReplay => .error .noReplay
  | state =>
    let what := if state = .recording then "recorded so far" else "in the replay"
    if m.frames < frame then
      .error (.invalid s!"Frame {frame} is past the last frame {what} ({m.frames}).")
    else .ok ()

def bookmarkPointAt (m : Moment) (frame : UInt64) : Except BookmarkError Point :=
  match checkBookmarkFrame m frame with
  | .error e => .error e
  | .ok () =>
    match m.answer, m.millisAt frame with
    | .late _, _ => .error .busy
    | .inTime, none => .error .noReplay
    | .inTime, some millis => .ok (frame, millis)

/-- What the `out` of a request asks for. -/
inductive OutChoice
  | clear
  | now
  | frame (frame : UInt64)
deriving DecidableEq

def requestedOut (E : Platform) (out : Option String) : Except BookmarkError (Option OutChoice) :=
  match out.map fun text ↦ trim text.toList with
  | none => .ok none
  | some text =>
    if text = "none".toList ∨ text = [] then .ok (some .clear)
    else if text = "now".toList then .ok (some .now)
    else
      match Numeral.unsigned 64 10 text with
      | some frame => .ok (some (.frame (UInt64.ofNat frame)))
      | none =>
        .error (.invalid (E.quoted (String.ofList text) ++
          " is not a frame (use a frame number, now or none)."))

def resolveOut (m : Moment) : OutChoice → Except BookmarkError (Option Point)
  | .clear => .ok none
  | .now => (bookmarkNow m).map some
  | .frame frame => (bookmarkPointAt m frame).map some

def outBeforeIn : BookmarkError := .invalid "The out frame must not be before the in frame."

/-- The out point ends before the bookmark starts. -/
def EndsBefore (inFrame : UInt64) (out : Option Point) : Prop := ∃ o ∈ out, o.1 < inFrame

instance (inFrame : UInt64) (out : Option Point) : Decidable (EndsBefore inFrame out) :=
  decidable_of_iff (out.any fun o ↦ decide (o.1 < inFrame)) (by cases out <;> simp [EndsBefore])

/-! ## The table -/

/-- Add or replace a type record. -/
def setTypeRecord (record : BookmarkTypeRecord) :
    List BookmarkTypeRecord → List BookmarkTypeRecord
  | [] => [record]
  | t :: types => if t.id = record.id then record :: types else t :: setTypeRecord record types

/-- Make the table's type records match the user's types for every type it uses. -/
def refreshTypeRecords (table : BookmarkTable) (settings : BookmarkSettings) : BookmarkTable :=
  let used := ((table.bookmarks.map (·.typeId)).filter (· ≠ 0)).dedup.insertionSort (· ≤ ·)
  let types := used.foldl (fun types id ↦
    match settings.getType id with
    | some t => setTypeRecord ⟨id, t.name, t.color⟩ types
    | none => types) table.types
  BookmarkTable.pruneTypes { table with types }

/-- The number in a name that is `stem`, a space and a number. -/
def numberAfter (stem : String) (name : String) : Option Nat :=
  ((strip stem.toList name.toList).bind (strip [' '])).bind (Numeral.unsigned 64 10)

/-- The highest number of a generic name in use. -/
def highestNumber (table : BookmarkTable) (stem : String) : Nat :=
  (table.bookmarks.filterMap fun b ↦ numberAfter stem b.name).foldl max 0

/-- `stem` and one more than the highest such number in use; `none` is an overflow. -/
def genericName (table : BookmarkTable) (stem : String) : Option String :=
  let next := highestNumber table stem + 1
  if next < 2 ^ 64 then some s!"{stem} {next}" else none

/-- Change the first bookmark with an id. -/
def changeBookmark (id : UInt64) (change : Bookmark → Bookmark) : List Bookmark → List Bookmark
  | [] => []
  | b :: bookmarks =>
    if b.id = id then change b :: bookmarks else b :: changeBookmark id change bookmarks

/-- End a range at `now`, swapping its ends if `now` is before its start. -/
def endRange (now : Point) (b : Bookmark) : Bookmark :=
  if b.inFrame ≤ now.1 then { b with out := some now }
  else
    { b with
      out := some (b.inFrame, b.inMillis)
      inFrame := now.1
      inMillis := now.2
      keyframe := false }

/-! ## Requests -/

/-- What the bookmarks can be edited in. -/
inductive EditTarget
  | none
  | recording
  | playback (version : Nat) (truncated upgradeConfirmed : Bool)
deriving DecidableEq

/-- The current replay's bookmarks and the user's types. -/
structure Bookmarking where
  settings : BookmarkSettings
  table : BookmarkTable
  target : EditTarget
  /-- The range that was started and not ended yet. -/
  openRange : Option UInt64
  /-- The keyframes that were written into the recording for bookmarks. -/
  forced : Nat

/-- Check that the bookmarks may be changed now.  An old replay needs the upgrade allowed, and stays
allowed then. -/
def checkEditable (b : Bookmarking) (allowUpgrade : Bool) : Except BookmarkError EditTarget :=
  match b.target with
  | .none => .error .noReplay
  | .recording => .ok .recording
  | .playback version truncated upgradeConfirmed =>
    if truncated then .error .damaged
    else if version < 3 then .error (.needsConversion version)
    else if ¬ upgradeConfirmed ∧ b.settings.confirmReplayUpgrade ∧ ¬ allowUpgrade then
      .error (.needsUpgradeConfirmation version)
    else .ok (.playback version truncated true)

/-- Take over an edited table: it is sorted, and its types are refreshed from the settings. -/
def edit (b : Bookmarking) (edited : BookmarkTable) : Bookmarking :=
  let table := refreshTypeRecords edited.sort b.settings
  if table = b.table then b
  else
    { b with
      table
      openRange := b.openRange.filter fun id ↦ table.bookmarks.any (·.id = id) }

structure BookmarkParams where
  name : Option String
  typeName : Option String
  typeId : Option String
  frame : Option UInt64
  out : Option String
  keyframe : Option Bool

/-- What a request asks for, as far as its texts say. -/
def requested (E : Platform) (params : BookmarkParams) :
    Except BookmarkError (Option OutChoice × Option TypeChoice) := do
  let out ← requestedOut E params.out
  let type ← requestedType E params.typeId params.typeName
  pure (out, type)

/-- Where a new bookmark goes, and how many keyframes are written for it. -/
def place (m : Moment) (params : BookmarkParams) : Except BookmarkError BookmarkAnchor × Nat :=
  match params.frame with
  | none => askAnchor m (params.keyframe.getD false)
  | some frame =>
    if params.keyframe.getD false then
      (.error (.invalid ("A keyframe bookmark is always placed at the current frame; leave out " ++
        "the frame.")), 0)
    else ((bookmarkPointAt m frame).map fun point ↦ ⟨point.1, point.2, false⟩, 0)

/-- The type of a new bookmark: the one that is asked for, or else the active one. -/
def typeFor (E : Platform) (b : Bookmarking) (newId : NewTypeId b.settings b.table) :
    Option TypeChoice → Except BookmarkError (UInt64 × BookmarkSettings)
  | some choice => resolveType E b.settings b.table newId choice
  | none => .ok (((b.settings.getType b.settings.activeType).map (·.id)).getD 0, b.settings)

/-- The out point that a new bookmark is asked to have. -/
def wantedOut (m : Moment) : Option OutChoice → Except BookmarkError (Option Point)
  | none => .ok none
  | some choice => resolveOut m choice

/-- The out point of a new bookmark. -/
def outFor (m : Moment) (inFrame : UInt64) (choice : Option OutChoice) :
    Except BookmarkError (Option Point) :=
  match wantedOut m choice with
  | .error e => .error e
  | .ok out => if EndsBefore inFrame out then .error outBeforeIn else .ok out

/-- What is looked at once a new bookmark has its place: its out point and its type. -/
def outAndType (E : Platform) (b : Bookmarking) (newId : NewTypeId b.settings b.table) (m : Moment)
    (inFrame : UInt64) (choices : Option OutChoice × Option TypeChoice) :
    Except BookmarkError (Option Point × UInt64 × BookmarkSettings) :=
  match outFor m inFrame choices.1 with
  | .error e => .error e
  | .ok out => (typeFor E b newId choices.2).map fun r ↦ (out, r)

/-- Name used for untyped generic bookmarks. -/
def genericBookmarkPrefix (settings : BookmarkSettings) (table : BookmarkTable) (typeId : UInt64) :
    String :=
  ((typeView settings table typeId).map (·.name)).getD "Bookmark"

/-- The name of a new bookmark; `none` is an overflow. -/
def nameFor (settings : BookmarkSettings) (table : BookmarkTable) (typeId : UInt64)
    (name : Option String) : Option String :=
  match name.bind cleanName with
  | some name => some name
  | none => genericName table ( genericBookmarkPrefix settings table typeId)

/-- Add a bookmark to the current replay.  `none` is an overflow. -/
def addBookmark (E : Platform) (b : Bookmarking) (newId : NewTypeId b.settings b.table)
    (params : BookmarkParams) (allowUpgrade : Bool) (inMoment outMoment : Moment) :
    Option (Except BookmarkError UInt64 × Bookmarking) :=
  match checkEditable b allowUpgrade with
  | .error e => some (.error e, b)
  | .ok target =>
    match requested E params with
    | .error e => some (.error e, { b with target })
    | .ok choices =>
      let (anchor, written) := place inMoment params
      match anchor with
      | .error e => some (.error e, { b with target, forced := b.forced + written })
      | .ok anchor =>
        match outAndType E b newId outMoment anchor.inFrame choices with
        | .error e => some (.error e, { b with target, forced := b.forced + written })
        | .ok (out, typeId, settings) =>
          match nameFor settings b.table typeId params.name with
          | none => none
          | some name =>
            let (id, table) := b.table.insert
              { id := 0, name, typeId, inFrame := anchor.inFrame, inMillis := anchor.inMillis, out,
                keyframe := anchor.keyframe }
            some (.ok id, edit { b with settings, target, forced := b.forced + written } table)

/-- A bookmark with the name, the in frame and the out point that a request asks for. -/
def changedBookmark (E : Platform) (bookmark : Bookmark) (params : BookmarkParams)
    (inMoment outMoment : Moment) : Except BookmarkError Bookmark := do
  let name ← match params.name with
    | none => pure bookmark.name
    | some text =>
      match cleanName text with
      | some name => pure name
      | none => throw (.invalid "A bookmark needs a name.")
  if params.keyframe = some true ∧ ¬ bookmark.keyframe then
    throw (.invalid "Only a new bookmark at the current frame can be a keyframe bookmark.")
  let keyframe := if params.keyframe = some false then false else bookmark.keyframe
  let bookmark ← match params.frame.filter (· ≠ bookmark.inFrame) with
    | none => pure { bookmark with name, keyframe }
    | some frame => do
      let point ← bookmarkPointAt inMoment frame
      pure { bookmark with name, inFrame := point.1, inMillis := point.2, keyframe := false }
  match ← requestedOut E params.out with
  | none => pure bookmark
  | some choice => do
    let out ← resolveOut outMoment choice
    pure { bookmark with out }

/-- The bookmark that an update leaves, and the settings with the type that it names. -/
def updatedBookmark (E : Platform) (b : Bookmarking) (newId : NewTypeId b.settings b.table)
    (bookmark : Bookmark) (params : BookmarkParams) (inMoment outMoment : Moment) :
    Except BookmarkError (Bookmark × BookmarkSettings) :=
  match changedBookmark E bookmark params inMoment outMoment with
  | .error e => .error e
  | .ok bookmark =>
    if EndsBefore bookmark.inFrame bookmark.out then .error outBeforeIn
    else
      match requestedType E params.typeId params.typeName with
      | .error e => .error e
      | .ok none => .ok (bookmark, b.settings)
      | .ok (some choice) =>
        (resolveType E b.settings b.table newId choice).map fun r ↦
          ({ bookmark with typeId := r.1 }, r.2)

/-- Change a bookmark. -/
def updateBookmark (E : Platform) (b : Bookmarking) (newId : NewTypeId b.settings b.table)
    (id : UInt64) (params : BookmarkParams) (allowUpgrade : Bool) (inMoment outMoment : Moment) :
    Except BookmarkError UInt64 × Bookmarking :=
  match checkEditable b allowUpgrade with
  | .error e => (.error e, b)
  | .ok target =>
    match b.table.bookmarks.find? (·.id = id) with
    | none => (.error (.notFound s!"bookmark {id}"), { b with target })
    | some bookmark =>
      match updatedBookmark E b newId bookmark params inMoment outMoment with
      | .error e => (.error e, { b with target })
      | .ok (bookmark, settings) =>
        (.ok id, edit { b with settings, target } (b.table.insert bookmark).2)

/-- Delete a bookmark. -/
def deleteBookmark (b : Bookmarking) (id : UInt64) (allowUpgrade : Bool) :
    Except BookmarkError Unit × Bookmarking :=
  match checkEditable b allowUpgrade with
  | .error e => (.error e, b)
  | .ok target =>
    match b.table.remove id with
    | (none, _) => (.error (.notFound s!"bookmark {id}"), { b with target })
    | (some _, table) => (.ok (), edit { b with target } table)

/-- The range that was started and is still there. -/
def startedRange (b : Bookmarking) : Option UInt64 :=
  b.openRange.filter fun id ↦ b.table.bookmarks.any (·.id = id)

/-- Start a range at the current frame, or end the one started last. -/
def toggleRangeBookmark (E : Platform) (b : Bookmarking) (newId : NewTypeId b.settings b.table)
    (params : BookmarkParams) (allowUpgrade : Bool) (inMoment outMoment : Moment) :
    Option (Except BookmarkError (UInt64 × Bool) × Bookmarking) :=
  match checkEditable b allowUpgrade with
  | .error e => some (.error e, b)
  | .ok target =>
    match startedRange b with
    | some id =>
      match bookmarkNow inMoment with
      | .error e => some (.error e, { b with target })
      | .ok now =>
        let table := { b.table with
          bookmarks := changeBookmark id (endRange now) b.table.bookmarks }
        some (.ok (id, false), { edit { b with target } table with openRange := none })
    | none =>
      (addBookmark E b newId { params with frame := none, out := none } allowUpgrade inMoment
          outMoment).map fun
        | (.error e, b) => (.error e, b)
        | (.ok id, b) => (.ok (id, true), { b with openRange := some id })

/-- A request about the bookmarks of the current replay. -/
inductive BookmarkRequest
  | add (params : BookmarkParams)
  | update (id : UInt64) (params : BookmarkParams)
  | delete (id : UInt64)
  | toggleRange (params : BookmarkParams)

/-- Why something was refused. -/
def refusal {α : Type} : Except BookmarkError α → Option BookmarkError
  | .error e => some e
  | .ok _ => none

/-- Whether a request is refused, and what it leaves.  `none` is an overflow. -/
def handle (E : Platform) (b : Bookmarking) (newId : NewTypeId b.settings b.table)
    (request : BookmarkRequest) (allowUpgrade : Bool) (inMoment outMoment : Moment) :
    Option (Option BookmarkError × Bookmarking) :=
  match request with
  | .add params =>
    (addBookmark E b newId params allowUpgrade inMoment outMoment).map fun r ↦ (refusal r.1, r.2)
  | .update id params =>
    let r := updateBookmark E b newId id params allowUpgrade inMoment outMoment
    some (refusal r.1, r.2)
  | .delete id =>
    let r := deleteBookmark b id allowUpgrade
    some (refusal r.1, r.2)
  | .toggleRange params =>
    (toggleRangeBookmark E b newId params allowUpgrade inMoment outMoment).map fun r ↦
      (refusal r.1, r.2)

/-! ## What a request should do -/

/-- A bookmark that does not end before it starts. -/
def Proper (b : Bookmark) : Prop := ¬ EndsBefore b.inFrame b.out

instance (b : Bookmark) : Decidable (Proper b) := inferInstanceAs (Decidable (¬ _))

/-- Nothing that a refusal must leave alone has changed: the table, the open range, the user's types
and the keyframes of the recording. -/
structure Kept (b b' : Bookmarking) : Prop where
  table : b'.table = b.table
  openRange : b'.openRange = b.openRange
  settings : b'.settings = b.settings
  forced : b'.forced = b.forced

/-- **A request as it should be**: it does not overflow, one that is refused changes nothing, and
one that is carried out leaves no bookmark that ends before it starts. -/
def Holds (b : Bookmarking) : Option (Option BookmarkError × Bookmarking) → Prop
  | none => False
  | some (some _, b') => Kept b b'
  | some (none, b') => ∀ x ∈ b'.table.bookmarks, Proper x

/-- When adding a bookmark is as it should be.  A keyframe that is written for it is written for one
that has its place, its out point and its type; a generic name has a number left; and the bookmarks
that are there besides are proper. -/
def AddMeets (E : Platform) (b : Bookmarking) (newId : NewTypeId b.settings b.table)
    (params : BookmarkParams) (allowUpgrade : Bool) (inMoment outMoment : Moment) : Prop :=
  ∀ target choices, checkEditable b allowUpgrade = .ok target → requested E params = .ok choices →
    ((place inMoment params).2 ≠ 0 → ∃ anchor r, (place inMoment params).1 = .ok anchor ∧
      outAndType E b newId outMoment anchor.inFrame choices = .ok r) ∧
    ∀ anchor out typeId settings, (place inMoment params).1 = .ok anchor →
      outAndType E b newId outMoment anchor.inFrame choices = .ok (out, typeId, settings) →
      (params.name.bind cleanName = none →
        highestNumber b.table ( genericBookmarkPrefix settings b.table typeId) + 1 < 2 ^ 64) ∧
      ∀ x ∈ b.table.bookmarks, x.id ≠ b.table.allocateId.1 → Proper x

/-- **When a request is as it should be.** -/
def Meets (E : Platform) (b : Bookmarking) (newId : NewTypeId b.settings b.table)
    (request : BookmarkRequest) (allowUpgrade : Bool) (inMoment outMoment : Moment) : Prop :=
  match request with
  | .add params => AddMeets E b newId params allowUpgrade inMoment outMoment
  | .update id params =>
    ∀ target bookmark r, checkEditable b allowUpgrade = .ok target →
      b.table.bookmarks.find? (·.id = id) = some bookmark →
      updatedBookmark E b newId bookmark params inMoment outMoment = .ok r →
      ∀ x ∈ b.table.bookmarks, x.id ≠ (b.table.insert r.1).1 → Proper x
  | .delete id =>
    ∀ target bookmark, checkEditable b allowUpgrade = .ok target →
      b.table.bookmarks.find? (·.id = id) = some bookmark →
      ∀ x ∈ b.table.bookmarks.eraseP (·.id = id), Proper x
  | .toggleRange params =>
    match startedRange b with
    | some id =>
      ∀ target now, checkEditable b allowUpgrade = .ok target → bookmarkNow inMoment = .ok now →
        ∀ x ∈ b.table.bookmarks.eraseP (·.id = id), Proper x
    | none =>
      AddMeets E b newId { params with frame := none, out := none } allowUpgrade inMoment outMoment

/-! ## What an edit leaves -/

theorem mem_sort {t : BookmarkTable} {x : Bookmark} :
    x ∈ t.sort.bookmarks ↔ x ∈ t.bookmarks := List.mem_insertionSort _

/-- The bookmarks after an edit are those of the edited table. -/
theorem mem_edit {b : Bookmarking} {edited : BookmarkTable} {x : Bookmark} :
    x ∈ (edit b edited).table.bookmarks ↔ x ∈ edited.bookmarks := by
  have hrefresh : (refreshTypeRecords edited.sort b.settings).bookmarks = edited.sort.bookmarks :=
    rfl
  rw [edit]
  split_ifs with hsame
  · rw [← hsame, hrefresh, mem_sort]
  · rw [hrefresh, mem_sort]

/-- An inserted bookmark takes the place of the one with its id. -/
theorem mem_insert {t : BookmarkTable} {new x : Bookmark} :
    x ∈ (t.insert new).2.bookmarks ↔ x = { new with id := (t.insert new).1 } ∨
      x ∈ t.bookmarks ∧ x.id ≠ (t.insert new).1 := by
  have hsorted (bookmarks : List Bookmark) (b : Bookmark) :
      x ∈ BookmarkTable.insertSorted (bookmarks.filter (·.id ≠ b.id)) b ↔
        x = b ∨ x ∈ bookmarks ∧ x.id ≠ b.id := by
    rw [(BookmarkTable.perm_insertSorted _ b).mem_iff, List.mem_cons, List.mem_filter,
      decide_eq_true_eq]
  by_cases hzero : new.id = 0
  · have hinsert : t.insert new = (t.allocateId.1, { t.allocateId.2 with
        bookmarks := BookmarkTable.insertSorted (t.bookmarks.filter (·.id ≠ t.allocateId.1))
          { new with id := t.allocateId.1 } }) := by
      rw [BookmarkTable.insert, if_pos hzero]
      rfl
    rw [hinsert]
    exact hsorted t.bookmarks { new with id := t.allocateId.1 }
  · have hinsert : (t.insert new).1 = new.id ∧ (t.insert new).2.bookmarks =
        BookmarkTable.insertSorted (t.bookmarks.filter (·.id ≠ new.id)) new := by
      rw [BookmarkTable.insert, if_neg hzero]
      split_ifs <;> exact ⟨rfl, rfl⟩
    rw [hinsert.1, hinsert.2]
    exact hsorted t.bookmarks new

/-- The first bookmark with an id is the only one that a change reaches. -/
theorem forall_mem_changeBookmark {P : Bookmark → Prop} {id : UInt64}
    {change : Bookmark → Bookmark} (hchange : ∀ x, P (change x)) (bookmarks : List Bookmark) :
    (∀ x ∈ changeBookmark id change bookmarks, P x) ↔
      ∀ x ∈ bookmarks.eraseP (·.id = id), P x := by
  induction bookmarks with
  | nil => exact Iff.rfl
  | cons b bookmarks ih =>
    rw [changeBookmark]
    by_cases hid : b.id = id
    · rw [if_pos hid, List.eraseP_cons_of_pos (by simpa using hid), List.forall_mem_cons]
      exact and_iff_right (hchange b)
    · rw [if_neg hid, List.eraseP_cons_of_neg (by simpa using hid), List.forall_mem_cons,
        List.forall_mem_cons, ih]

theorem proper_endRange (now : Point) (b : Bookmark) : Proper (endRange now b) := by
  rw [endRange, Proper, EndsBefore]
  split_ifs with hle
  · rintro ⟨o, ho, hlt⟩
    cases ho
    exact absurd hle (UInt64.not_le.2 hlt)
  · rintro ⟨o, ho, hlt⟩
    cases ho
    exact hle (UInt64.le_of_lt hlt)

theorem insert_id_of_zero {t : BookmarkTable} {new : Bookmark} (hzero : new.id = 0) :
    (t.insert new).1 = t.allocateId.1 := by
  rw [BookmarkTable.insert, if_pos hzero]

/-! ## Each request -/

variable {E : Platform} {b : Bookmarking} {newId : NewTypeId b.settings b.table}
  {params : BookmarkParams} {allowUpgrade : Bool} {inMoment outMoment : Moment}

/-- An out point that is looked at and not refused is not before the in frame. -/
theorem not_endsBefore_of_outFor {m : Moment} {inFrame : UInt64} {choice : Option OutChoice}
    {out : Option Point} (h : outFor m inFrame choice = .ok out) : ¬ EndsBefore inFrame out := by
  rw [outFor] at h
  split at h
  · cases h
  · rename_i out' _
    by_cases hbefore : EndsBefore inFrame out'
    · rw [if_pos hbefore] at h
      cases h
    · rw [if_neg hbefore] at h
      cases h
      exact hbefore

/-- The out point and the type are had one after the other. -/
theorem outAndType_eq_ok {m : Moment} {inFrame : UInt64}
    {choices : Option OutChoice × Option TypeChoice} {out : Option Point}
    {r : UInt64 × BookmarkSettings} : outAndType E b newId m inFrame choices = .ok (out, r) ↔
      outFor m inFrame choices.1 = .ok out ∧ typeFor E b newId choices.2 = .ok r := by
  rw [outAndType]
  cases hout : outFor m inFrame choices.1 with
  | error e => exact ⟨fun h ↦ (nomatch h), fun h ↦ (nomatch h.1)⟩
  | ok out' =>
    cases htype : typeFor E b newId choices.2 with
    | error e => exact ⟨fun h ↦ (nomatch h), fun h ↦ (nomatch h.2)⟩
    | ok r' =>
      constructor
      · rintro ⟨⟩
        exact ⟨rfl, rfl⟩
      · rintro ⟨⟨⟩, ⟨⟩⟩
        rfl

theorem proper_of_updatedBookmark {bookmark : Bookmark} {r : Bookmark × BookmarkSettings}
    (h : updatedBookmark E b newId bookmark params inMoment outMoment = .ok r) : Proper r.1 := by
  rw [updatedBookmark] at h
  split at h
  · cases h
  · rename_i changed _
    by_cases hbefore : EndsBefore changed.inFrame changed.out
    · rw [if_pos hbefore] at h
      cases h
    · rw [if_neg hbefore] at h
      split at h
      · cases h
      · cases h
        exact hbefore
      · rename_i choice _
        cases htype : resolveType E b.settings b.table newId choice with
        | error e =>
          rw [htype] at h
          cases h
        | ok r' =>
          rw [htype] at h
          cases h
          exact hbefore

/-- A refusal after `written` keyframes changes nothing exactly when there were none. -/
theorem kept_forced (target : EditTarget) (written : Nat) :
    Kept b { b with target, forced := b.forced + written } ↔ written = 0 := by
  constructor
  · intro h
    have := h.forced
    dsimp only at this
    omega
  · rintro rfl
    exact ⟨rfl, rfl, rfl, rfl⟩

theorem nameFor_eq_none {settings : BookmarkSettings} {table : BookmarkTable} {typeId : UInt64}
    {name : Option String} : nameFor settings table typeId name = none ↔
      name.bind cleanName = none ∧
        ¬ highestNumber table ( genericBookmarkPrefix settings table typeId) + 1 < 2 ^ 64 := by
  rw [nameFor]
  cases hname : name.bind cleanName with
  | some name => exact ⟨fun h ↦ (nomatch h), fun h ↦ (nomatch h.1)⟩
  | none =>
    dsimp only
    rw [genericName]
    split_ifs with hroom
    · exact ⟨fun h ↦ (nomatch h), fun h ↦ absurd hroom h.2⟩
    · exact ⟨fun _ ↦ ⟨rfl, hroom⟩, fun _ ↦ rfl⟩

/-- **Adding a bookmark** is as it should be exactly under `AddMeets`. -/
theorem holds_add_iff : Holds b ((addBookmark E b newId params allowUpgrade inMoment outMoment).map
      fun r ↦ (refusal r.1, r.2)) ↔
    AddMeets E b newId params allowUpgrade inMoment outMoment := by
  rw [addBookmark, AddMeets]
  cases hcheck : checkEditable b allowUpgrade with
  | error e => exact ⟨fun _ _ _ h ↦ (nomatch h), fun _ ↦ ⟨rfl, rfl, rfl, rfl⟩⟩
  | ok target =>
    cases hreq : requested E params with
    | error e => exact ⟨fun _ _ _ _ h ↦ (nomatch h), fun _ ↦ ⟨rfl, rfl, rfl, rfl⟩⟩
    | ok choices =>
      cases hplace : place inMoment params with
      | mk anchor written =>
        cases anchor with
        | error e =>
          refine (kept_forced target written).trans ⟨fun hzero _ _ _ _ ↦ ?_, fun h ↦ ?_⟩
          · exact ⟨fun hne ↦ absurd hzero hne, fun _ _ _ _ h ↦ nomatch h⟩
          · by_contra hne
            obtain ⟨anchor, r, hanchor, -⟩ := (h target choices rfl rfl).1 hne
            cases hanchor
        | ok anchor =>
          cases hrest : outAndType E b newId outMoment anchor.inFrame choices with
          | error e =>
            dsimp only
            rw [hrest]
            refine (kept_forced target written).trans ⟨fun hzero _ _ _ hchoices ↦ ?_, fun h ↦ ?_⟩
            · cases hchoices
              refine ⟨fun hne ↦ absurd hzero hne, fun anchor' _ _ _ hanchor hok ↦ ?_⟩
              cases hanchor
              rw [hrest] at hok
              cases hok
            · by_contra hne
              obtain ⟨anchor', r, hanchor, hok⟩ := (h target choices rfl rfl).1 hne
              cases hanchor
              rw [hrest] at hok
              cases hok
          | ok r =>
            obtain ⟨out, typeId, settings⟩ := r
            dsimp only
            rw [hrest]
            dsimp only
            cases hname : nameFor settings b.table typeId params.name with
            | none =>
              obtain ⟨hnone, hfull⟩ := nameFor_eq_none.1 hname
              refine ⟨fun h ↦ h.elim, fun h ↦ ?_⟩
              have hall := (h target choices rfl rfl).2 anchor out typeId settings rfl hrest
              exact hfull (hall.1 hnone)
            | some name =>
              have hid := @insert_id_of_zero b.table ⟨0, name, typeId, anchor.inFrame,
                anchor.inMillis, out, anchor.keyframe⟩ rfl
              have hroom : params.name.bind cleanName = none →
                  highestNumber b.table ( genericBookmarkPrefix settings b.table typeId) + 1 <
                    2 ^ 64 := by
                intro hnone
                by_contra hfull
                rw [nameFor_eq_none.2 ⟨hnone, hfull⟩] at hname
                cases hname
              have hproper : ¬ EndsBefore anchor.inFrame out :=
                not_endsBefore_of_outFor (outAndType_eq_ok.1 hrest).1
              constructor
              · rintro h _ _ ⟨⟩ ⟨⟩
                refine ⟨fun _ ↦ ⟨anchor, _, rfl, hrest⟩, ?_⟩
                rintro _ _ _ _ ⟨⟩ hok
                rw [hrest] at hok
                cases hok
                refine ⟨hroom, fun x hx hne ↦ h x (mem_edit.2 (mem_insert.2 (Or.inr ⟨hx, ?_⟩)))⟩
                rw [hid]
                exact hne
              · intro h x hx
                obtain rfl | ⟨hx, hne⟩ := mem_insert.1 (mem_edit.1 hx)
                · exact hproper
                · have hall := (h target choices rfl rfl).2 anchor out typeId settings rfl hrest
                  rw [hid] at hne
                  exact hall.2 x hx hne

theorem holds_update_iff {id : UInt64} :
    Holds b (handle E b newId (.update id params) allowUpgrade inMoment outMoment) ↔
      Meets E b newId (.update id params) allowUpgrade inMoment outMoment := by
  rw [handle, Meets, updateBookmark]
  cases hcheck : checkEditable b allowUpgrade with
  | error e => exact ⟨fun _ _ _ _ h ↦ (nomatch h), fun _ ↦ ⟨rfl, rfl, rfl, rfl⟩⟩
  | ok target =>
    cases hfind : b.table.bookmarks.find? (·.id = id) with
    | none => exact ⟨fun _ _ _ _ _ h ↦ (nomatch h), fun _ ↦ ⟨rfl, rfl, rfl, rfl⟩⟩
    | some bookmark =>
      cases hupdate : updatedBookmark E b newId bookmark params inMoment outMoment with
      | error e =>
        dsimp only
        rw [hupdate]
        refine ⟨fun _ _ _ _ _ hfound hok ↦ ?_, fun _ ↦ ⟨rfl, rfl, rfl, rfl⟩⟩
        cases hfound
        rw [hupdate] at hok
        cases hok
      | ok r =>
        obtain ⟨updated, settings⟩ := r
        dsimp only
        rw [hupdate]
        have hproper : Proper updated := proper_of_updatedBookmark hupdate
        constructor
        · rintro h _ _ _ - ⟨⟩ hok x hx hne
          rw [hupdate] at hok
          cases hok
          exact h x (mem_edit.2 (mem_insert.2 (Or.inr ⟨hx, hne⟩)))
        · intro h x hx
          obtain rfl | ⟨hx, hne⟩ := mem_insert.1 (mem_edit.1 hx)
          · exact hproper
          · exact h target bookmark _ rfl rfl hupdate x hx hne

theorem holds_delete_iff {id : UInt64} :
    Holds b (handle E b newId (.delete id) allowUpgrade inMoment outMoment) ↔
      Meets E b newId (.delete id) allowUpgrade inMoment outMoment := by
  rw [handle, Meets, deleteBookmark]
  cases hcheck : checkEditable b allowUpgrade with
  | error e => exact ⟨fun _ _ _ h ↦ (nomatch h), fun _ ↦ ⟨rfl, rfl, rfl, rfl⟩⟩
  | ok target =>
    cases hfind : b.table.bookmarks.find? (·.id = id) with
    | none =>
      rw [BookmarkTable.remove, hfind]
      exact ⟨fun _ _ _ _ h ↦ (nomatch h), fun _ ↦ ⟨rfl, rfl, rfl, rfl⟩⟩
    | some bookmark =>
      rw [BookmarkTable.remove, hfind]
      constructor
      · intro h _ _ _ _ x hx
        exact h x (mem_edit.2 hx)
      · intro h x hx
        exact h target bookmark rfl rfl x (mem_edit.1 hx)

theorem holds_toggle_iff :
    Holds b (handle E b newId (.toggleRange params) allowUpgrade inMoment outMoment) ↔
      Meets E b newId (.toggleRange params) allowUpgrade inMoment outMoment := by
  rw [handle, Meets, toggleRangeBookmark]
  cases hcheck : checkEditable b allowUpgrade with
  | error e =>
    cases hrange : startedRange b with
    | some id => exact ⟨fun _ _ _ h ↦ (nomatch h), fun _ ↦ ⟨rfl, rfl, rfl, rfl⟩⟩
    | none =>
      refine ⟨fun _ target choices h ↦ ?_, fun _ ↦ ⟨rfl, rfl, rfl, rfl⟩⟩
      rw [hcheck] at h
      cases h
  | ok target =>
    cases hrange : startedRange b with
    | some id =>
      cases hnow : bookmarkNow inMoment with
      | error e => exact ⟨fun _ _ _ _ h ↦ (nomatch h), fun _ ↦ ⟨rfl, rfl, rfl, rfl⟩⟩
      | ok now =>
        have hchange := @forall_mem_changeBookmark Proper id _ (proper_endRange now)
          b.table.bookmarks
        constructor
        · rintro h _ _ - ⟨⟩
          exact hchange.1 fun x hx ↦ h x (mem_edit.2 hx)
        · intro h x hx
          exact hchange.2 (h target now rfl rfl) x (mem_edit.1 hx)
    | none =>
      dsimp only
      rw [← holds_add_iff]
      -- What is added is told by the table alone, and the open range is not part of that.
      rcases addBookmark E b newId { params with frame := none, out := none } allowUpgrade inMoment
        outMoment with _ | ⟨_ | id, after⟩
      · exact Iff.rfl
      · exact Iff.rfl
      · exact Iff.rfl

end Frontend

end SuperShuckie
