import SuperShuckie.Recording.Streamed
import SuperShuckie.Lib.Tiers

/-!
# The course of a Nintendo 3DS recording

How the next keyframe and the next picture are stored depends on a few fields of the recorder: the
counters of the levels, the last picture and its place in its group (`Course`).  Every call but three
leaves them as they are; what these do to them is `Course.afterKeyframe`, `Course.afterPicture` and a
frame more.  The header at the start of the file is always the recorder's.
-/

set_option autoImplicit false

namespace SuperShuckie

open ByteFormat

/-- A part that a call adds: no bytes follow a packet, and keyframes are encoded by the recorder. -/
def Part.Own : Part → Prop
  | .packet p extra => extra = [] ∧ ∀ k, p ≠ .storedKeyframe k
  | .keyframe _ => True

namespace Recorder

/-! ## The fields -/

/-- The counters that the level of the next keyframe comes from. -/
def StoredKeyframes.levelCounters (stored : StoredKeyframes) : Tiers.Counters :=
  ⟨stored.hasLevel0, stored.sinceLevel0, stored.sinceLevel1⟩

/-- A header without the marks of the start and the end. -/
def unmarked (header : ReplayHeaderRaw) : ReplayHeaderRaw :=
  { header with
    cropStart := 0, cropEnd := 0, cropStartFrame := 0, cropStartMillis := 0, cropEndFrame := 0
    cropEndMillis := 0, cropTimerOffset := 0 }

/-- What decides how the next keyframe and the next picture are stored, and what never changes. -/
structure Course where
  levels : Tiers.Counters
  thumbnail : Option (Screen × Screen)
  thumbnailsInGroup : Nat
  elapsedFrames : UnsignedInteger
  settings : RecorderSettings
  header : ReplayHeaderRaw

/-- The course of a recorder with stored keyframes. -/
def course (r : Recorder) : Option Course :=
  r.stored.map fun stored ↦
    { levels := StoredKeyframes.levelCounters stored
      thumbnail := stored.thumbnail
      thumbnailsInGroup := stored.thumbnailsInGroup
      elapsedFrames := r.elapsedFrames
      settings := r.settings
      header := unmarked r.header }

namespace Course

/-- The level of the next keyframe. -/
def nextLevel (c : Course) (encoding : KeyframeEncoding) : Level :=
  c.levels.next (saturatingMul32 c.settings.storedKeyframeLevels.1 c.settings.storedKeyframeLevels.2)
    c.settings.storedKeyframeLevels.2 (decide (encoding = .full))

/-- A keyframe was inserted. -/
def afterKeyframe (c : Course) (encoding : KeyframeEncoding) : Course :=
  { c with levels := c.levels.count (c.nextLevel encoding) }

/-- The picture that the next one of the same group is stored against. -/
def previous (c : Course) (top bottom : Screen) : Option (Screen × Screen) :=
  match c.thumbnail with
  | none => none
  | some (pt, pb) =>
    let sameSize (p s : Screen) := p.1 = s.1 ∧ p.2.1 = s.2.1 ∧ p.2.2.length = s.2.2.length
    if sameSize pt top ∧ sameSize pb bottom ∧ c.thumbnailsInGroup < thumbnailGroup then
      some (pt, pb)
    else none

/-- A picture was stored. -/
def afterPicture (c : Course) (top bottom : Screen) : Course :=
  if 0 < c.settings.storedThumbnailJpegQuality then
    { c with thumbnail := none, thumbnailsInGroup := 0 }
  else
    { c with
      thumbnail := some (top, bottom)
      thumbnailsInGroup := if (c.previous top bottom).isSome then c.thumbnailsInGroup + 1 else 1 }

/-- What a call that succeeds makes of the course. -/
def after (c : Course) : Call → Course
  | .insertKeyframe _ _ encoding => c.afterKeyframe encoding
  | .thumbnail top bottom => c.afterPicture top bottom
  | .nextFrame _ => { c with elapsedFrames := saturatingSucc c.elapsedFrames }
  | _ => c

theorem after_header (c : Course) (call : Call) : (c.after call).header = c.header := by
  cases call with
  | thumbnail top bottom =>
    rw [after, afterPicture]
    split <;> rfl
  | _ => rfl

end Course

variable {x : Externals} {c : Course} {r r' : Recorder}

theorem nextLevel_eq {stored : StoredKeyframes} (hstored : r.stored = some stored)
    (hcourse : r.course = some c) (encoding : KeyframeEncoding) :
    nextLevel r.settings stored encoding = c.nextLevel encoding := by
  rw [course, hstored] at hcourse
  cases hcourse
  rw [nextLevel, Course.nextLevel, Tiers.Counters.next]
  simp only [StoredKeyframes.levelCounters, decide_eq_true_eq]
  rfl

theorem previousThumbnail_eq (hcourse : r.course = some c) (top bottom : Screen) :
    r.previousThumbnail top bottom = c.previous top bottom := by
  rw [course] at hcourse
  cases hstored : r.stored with
  | none =>
    rw [hstored] at hcourse
    cases hcourse
  | some stored =>
    rw [hstored] at hcourse
    cases hcourse
    rw [previousThumbnail, hstored]
    rfl

/-! ## Keeping it -/

/-- A recorder with stored keyframes on its course, whose files start with its header. -/
structure Steady (c : Course) (r : Recorder) : Prop where
  course : r.course = some c
  blob : r.currentBlob = []
  keyframes : r.currentBlobKeyframes = []
  files : ∃ file, HasFiles file r ∧ file.take headerLen = r.header.asBytes

theorem Steady.congr (h : Steady c r) {c' : Course} (hcourse : r'.course = some c')
    (hsink : r'.sink = r.sink) (hoffset : r'.currentBlobOffset = r.currentBlobOffset)
    (hblob : r'.currentBlob = r.currentBlob)
    (hkeyframes : r'.currentBlobKeyframes = r.currentBlobKeyframes)
    (hheader : r'.header = r.header) : Steady c' r' := by
  obtain ⟨file, hfile, htake⟩ := h.files
  exact ⟨hcourse, hblob.trans h.blob, hkeyframes.trans h.keyframes, file,
    hfile.congr hsink hoffset hblob, hheader ▸ htake⟩

/-- More is written behind the header. -/
theorem Steady.grow (h : Steady c r) {file bytes : Bytes} (hfile : HasFiles file r)
    (hfile' : HasFiles (file ++ bytes) r') (hsame : OtherFiles r r') : Steady c r' := by
  obtain ⟨file', hfile₁, htake⟩ := h.files
  cases hfile.unique hfile₁
  refine ⟨?_, ?_, ?_, file ++ bytes, hfile', ?_⟩
  · rw [hsame]
    exact h.course
  · rw [hsame]
    exact h.blob
  · rw [hsame]
    exact h.keyframes
  · rw [List.take_append_of_le_length hfile.header, htake, hsame]

/-- The operation leaves the recorder on its course, whether it fails or not. -/
def Keeps {α : Type} (c : Course) (f : RecorderAction α) : Prop :=
  Act.Triple (Steady c) f (fun _ ↦ Steady c) fun _ ↦ Steady c

variable {α : Type}

theorem Keeps.pure (a : α) : Keeps c (Pure.pure a) := Act.Triple.pure fun _ h ↦ h

theorem Keeps.fail (e : ReplayFileWriteError) : Keeps c (Act.fail e : RecorderAction α) :=
  Act.Triple.fail fun _ h ↦ h

theorem Keeps.bind {β : Type} {f : RecorderAction α} {g : α → RecorderAction β} (hf : Keeps c f)
    (hg : ∀ a, Keeps c (g a)) : Keeps c (f >>= g) := Act.Triple.bind hf hg

theorem Keeps.get_bind {f : Recorder → RecorderAction α} (h : ∀ r, Steady c r → Keeps c (f r)) :
    Keeps c (Act.get >>= f) :=
  Act.Triple.get_bind fun r hr ↦ (h r hr).pre (fun _ heq ↦ heq ▸ hr)

theorem Keeps.ite {q : Prop} [Decidable q] {f g : RecorderAction α} (hf : q → Keeps c f)
    (hg : ¬ q → Keeps c g) : Keeps c (if q then f else g) := by
  split
  · exact hf ‹_›
  · exact hg ‹_›

/-- A change of fields that the course does not depend on. -/
theorem Keeps.modify {f : Recorder → Recorder} (hcourse : ∀ r, (f r).course = r.course)
    (hsink : ∀ r, (f r).sink = r.sink)
    (hoffset : ∀ r, (f r).currentBlobOffset = r.currentBlobOffset)
    (hblob : ∀ r, (f r).currentBlob = r.currentBlob)
    (hkeyframes : ∀ r, (f r).currentBlobKeyframes = r.currentBlobKeyframes)
    (hheader : ∀ r, (f r).header = r.header) : Keeps c (Act.modify f) :=
  Act.Triple.modify fun r h ↦ h.congr ((hcourse r).trans h.course) (hsink r) (hoffset r) (hblob r)
    (hkeyframes r) (hheader r)

theorem keeps_assertNotClosed : Keeps c assertNotClosed := by
  intro r hr
  obtain ⟨file, hfile, -⟩ := hr.files
  rw [hfile.assertNotClosed]
  exact hr

theorem keeps_refuseIfFinalFailed : Keeps c refuseIfFinalFailed := by
  intro r hr
  obtain ⟨file, hfile, -⟩ := hr.files
  rw [hfile.refuseIfFinalFailed]
  exact hr

/-- What only grows the files keeps the course. -/
theorem Keeps.of_grows {f : RecorderAction Unit} {bytes : Bytes}
    (h : ∀ {r : Recorder} {file : Bytes}, HasFiles file r → r.currentBlob = [] →
      Grows file bytes r (f r)) : Keeps c f := by
  intro r hr
  obtain ⟨file, hfile, -⟩ := hr.files
  have hgrows := h hfile hr.blob
  cases hrun : f r with
  | ok u r' =>
    rw [hrun] at hgrows
    exact hr.grow hfile hgrows.1 hgrows.2
  | error e r' =>
    rw [hrun] at hgrows
    exact hgrows.elim
  | abort => trivial

theorem keeps_writeDirectNow (packet extra : Bytes) : Keeps c (writeDirectNow packet extra) :=
  .of_grows fun hfile hblob ↦ grows_writeDirectNow hfile hblob packet extra

/-- A recorder on its course stores keyframes. -/
theorem Steady.stored (h : Steady c r) : ∃ stored, r.stored = some stored := by
  have hcourse := h.course
  rw [Recorder.course] at hcourse
  cases hstored : r.stored with
  | none =>
    rw [hstored] at hcourse
    cases hcourse
  | some stored => exact ⟨stored, rfl⟩

/-- What waits is no part of the course. -/
theorem Steady.withPending (h : Steady c r) {stored stored' : StoredKeyframes}
    (hstored : r.stored = some stored)
    (hlevels : StoredKeyframes.levelCounters stored' = StoredKeyframes.levelCounters stored)
    (hthumbnail : stored'.thumbnail = stored.thumbnail)
    (hgroup : stored'.thumbnailsInGroup = stored.thumbnailsInGroup) :
    Steady c { r with stored := some stored' } := by
  refine h.congr ?_ rfl rfl rfl rfl rfl
  rw [← h.course, Recorder.course, Recorder.course, hstored]
  simp only [Option.map_some, hlevels, hthumbnail, hgroup]

theorem keeps_writeDirect (packet extra : Bytes) : Keeps c (writeDirect packet extra) := by
  intro r hr
  obtain ⟨stored, hstored⟩ := hr.stored
  rw [writeDirect, Act.get_bind_apply, hstored]
  dsimp only
  by_cases hpending : stored.pending.isSome = true
  · obtain ⟨file, hfile, -⟩ := hr.files
    have hwith : ∀ packets, Steady c { r with stored := some { stored with
        pendingPackets := packets } } := fun packets ↦ hr.withPending hstored rfl rfl rfl
    rw [if_pos hpending, Act.bind_apply, hfile.assertNotClosed]
    dsimp only
    cases vecWritePacketData stored.pendingPackets packet with
    | error e => exact hr
    | ok packets =>
      simp only [Act.ofExcept, Act.pure_bind_apply, Act.modify_bind_apply]
      cases vecWriteBytes packets extra with
      | error e => exact hwith packets
      | ok packets' => exact hwith packets'
  · rw [if_neg hpending]
    exact keeps_writeDirectNow packet extra r hr

theorem keeps_writePacketData (packet : Packet) : Keeps c (writePacketData packet) := by
  refine .get_bind fun r hr ↦ ?_
  obtain ⟨stored, hstored⟩ := hr.stored
  have hsome : r.stored.isSome = true := by
    rw [hstored]
    rfl
  rw [if_pos hsome]
  exact keeps_writeDirect _ _

theorem keeps_writeBookmarkSnapshot : Keeps c writeBookmarkSnapshot := by
  refine Keeps.bind ?_ fun _ ↦ .get_bind fun _ _ ↦ keeps_writePacketData _
  exact .modify (fun _ ↦ rfl) (fun _ ↦ rfl) (fun _ ↦ rfl) (fun _ ↦ rfl) (fun _ ↦ rfl) fun _ ↦ rfl

/-! ## Keyframes -/

/-- A change of the stored keyframes that the course does not depend on. -/
theorem Keeps.modifyStored {f : StoredKeyframes → StoredKeyframes}
    (hlevels : ∀ s, StoredKeyframes.levelCounters (f s) = StoredKeyframes.levelCounters s)
    (hthumbnail : ∀ s, (f s).thumbnail = s.thumbnail)
    (hgroup : ∀ s, (f s).thumbnailsInGroup = s.thumbnailsInGroup) :
    Keeps c (Act.modify fun r : Recorder ↦ { r with stored := r.stored.map f }) := by
  refine .modify (fun r ↦ ?_) (fun _ ↦ rfl) (fun _ ↦ rfl) (fun _ ↦ rfl) (fun _ ↦ rfl) fun _ ↦ rfl
  rw [course, course, Option.map_map]
  cases r.stored with
  | none => rfl
  | some stored => simp only [Option.map_some, Function.comp_apply, hlevels, hthumbnail, hgroup]

theorem keeps_encodeStoredKeyframe (keyframe : PendingKeyframe) (access : Option (List UInt8)) :
    Keeps c (encodeStoredKeyframe x keyframe access) := by
  refine .get_bind fun r hr ↦ ?_
  obtain ⟨stored, hstored⟩ := hr.stored
  rw [hstored]
  dsimp only
  split
  · exact Act.Triple.abort
  · split
    · exact .fail _
    · refine (keeps_writeDirectNow _ _).bind fun _ ↦ Keeps.bind ?_ fun _ ↦ .get_bind fun r _ ↦
        .ite (fun _ ↦ keeps_writeBookmarkSnapshot) fun _ ↦ .pure _
      exact .modifyStored (fun _ ↦ rfl) (fun _ ↦ rfl) fun _ ↦ rfl

theorem keeps_flushPendingPackets : Keeps c flushPendingPackets := by
  refine .get_bind fun r hr ↦ ?_
  obtain ⟨stored, hstored⟩ := hr.stored
  rw [hstored]
  dsimp only
  refine .ite (fun _ ↦ .pure _) fun _ ↦ Keeps.bind ?_ fun _ ↦ keeps_assertNotClosed.bind fun _ ↦
    keeps_refuseIfFinalFailed.bind fun _ ↦ ?_
  · exact .modifyStored (fun _ ↦ rfl) (fun _ ↦ rfl) fun _ ↦ rfl
  · exact .of_grows fun hfile hblob ↦ grows_append hfile hblob
      (Sink.appends_writeBytes stored.pendingPackets)
      (Sink.appends_writeBytes stored.pendingPackets) rfl

theorem keeps_finishPendingStoredKeyframe : Keeps c (finishPendingStoredKeyframe x) := by
  refine .get_bind fun r _ ↦ ?_
  split
  · exact .pure _
  · refine Keeps.bind ?_ fun _ ↦ (keeps_encodeStoredKeyframe _ _).bind fun _ ↦
      keeps_flushPendingPackets
    exact .modifyStored (fun _ ↦ rfl) (fun _ ↦ rfl) fun _ ↦ rfl

/-- The change of the course that an operation makes when it succeeds; when it fails it has made
that change or none. -/
def Turns {α : Type} (c c' : Course) (f : RecorderAction α) : Prop :=
  Act.Triple (Steady c) f (fun _ ↦ Steady c') fun _ r ↦ Steady c r ∨ Steady c' r

theorem Turns.of_keeps {f : RecorderAction α} (h : Keeps c f) : Turns c c f :=
  h.conseq (fun _ h ↦ h) (fun _ _ h ↦ h) fun _ _ h ↦ .inl h

/-- First what keeps the course, then what turns it. -/
theorem Turns.after {α β : Type} {c' : Course} {f : RecorderAction α} {g : α → RecorderAction β}
    (hf : Keeps c f) (hg : ∀ a, Turns c c' (g a)) : Turns c c' (f >>= g) :=
  Act.Triple.bind (hf.conseq (fun _ h ↦ h) (fun _ _ h ↦ h) fun _ _ h ↦ .inl h) hg

/-- First what turns the course, then what keeps it. -/
theorem Turns.before {β : Type} {c' : Course} {f : RecorderAction α} {g : α → RecorderAction β}
    (hf : Turns c c' f) (hg : ∀ a, Keeps c' (g a)) : Turns c c' (f >>= g) :=
  Act.Triple.bind hf fun a ↦ (hg a).conseq (fun _ h ↦ h) (fun _ _ h ↦ h) fun _ _ h ↦ .inr h

theorem turns_insertStoredKeyframe (state : Bytes) (now : TimestampMillis)
    (encoding : KeyframeEncoding) :
    Turns c (c.afterKeyframe encoding) (insertStoredKeyframe x state now encoding) := by
  refine .after keeps_assertNotClosed fun _ ↦ ?_
  intro r hr
  obtain ⟨stored, hstored⟩ := hr.stored
  rw [Act.get_bind_apply]
  by_cases hbackwards : now < r.elapsedMillis
  · rw [if_pos hbackwards]
    exact .inl hr
  rw [if_neg hbackwards, hstored]
  dsimp only
  rw [Act.modify_bind_apply]
  have hcounted : Steady (c.afterKeyframe encoding) { r with
      elapsedMillis := now
      stored := some (StoredKeyframes.countLevel stored (nextLevel r.settings stored encoding)) } := by
    refine hr.congr ?_ rfl rfl rfl rfl rfl
    have hcourse := hr.course
    rw [nextLevel_eq hstored hcourse]
    rw [course, hstored] at hcourse
    cases hcourse
    rfl
  refine Act.Triple.conseq ?_ (fun _ h ↦ h) (fun _ _ h ↦ h) (fun _ _ h ↦ .inr h) _ hcounted
  refine Keeps.ite (fun _ ↦ ?_) fun _ ↦ (keeps_encodeStoredKeyframe _ _).bind fun _ ↦
    .get_bind fun _ _ ↦ .pure _
  have hwait : ∀ keyframe : PendingKeyframe, Keeps (c.afterKeyframe encoding) (do
      Act.modify fun r : Recorder ↦ { r with
        stored := r.stored.map fun stored ↦ { stored with
          accessSince := stored.accessSince.map fun _ ↦ 0
          pending := some keyframe } }
      let r ← Act.get
      pure r.elapsedFrames) := by
    intro keyframe
    refine Keeps.bind ?_ fun _ ↦ .get_bind fun _ _ ↦ .pure _
    exact .modifyStored (fun _ ↦ rfl) (fun _ ↦ rfl) fun _ ↦ rfl
  cases stored.pending with
  | none => exact hwait _
  | some previous =>
    refine Keeps.bind ?_ fun _ ↦ (keeps_encodeStoredKeyframe _ _).bind fun _ ↦
      keeps_flushPendingPackets.bind fun _ ↦ Keeps.bind ?_ fun _ ↦ hwait _
    · exact .modifyStored (fun _ ↦ rfl) (fun _ ↦ rfl) fun _ ↦ rfl
    · exact .modifyStored (fun _ ↦ rfl) (fun _ ↦ rfl) fun _ ↦ rfl

/-! ## Calls -/

theorem turns_nextFrame (now : TimestampMillis) :
    Turns c { c with elapsedFrames := saturatingSucc c.elapsedFrames } (nextFrame now) := by
  intro r hr
  rw [nextFrame, Act.get_bind_apply]
  split_ifs with hbackwards hroom
  · exact .inl hr
  · rw [Act.modify_bind_apply]
    have hnext : Steady { c with elapsedFrames := saturatingSucc c.elapsedFrames } { r with
        elapsedFrames := r.elapsedFrames + 1
        elapsedMillis := now } := by
      refine hr.congr ?_ rfl rfl rfl rfl rfl
      obtain ⟨stored, hstored⟩ := hr.stored
      have hcourse := hr.course
      rw [course, hstored] at hcourse
      cases hcourse
      rw [course, hstored]
      have hsucc : saturatingSucc r.elapsedFrames = r.elapsedFrames + 1 := if_pos hroom
      simp only [Option.map_some, hsucc]
    exact (keeps_writePacketData _).conseq (fun _ h ↦ h) (fun _ _ h ↦ h) (fun _ _ h ↦ .inr h) _ hnext
  · trivial

/-- The stored picture and its place in its group are replaced. -/
theorem turns_setPicture (picture : Option (Screen × Screen)) (inGroup : Nat → Nat) :
    Act.Triple (Steady c) (Act.modify fun r : Recorder ↦ { r with
        stored := r.stored.map fun stored ↦ { stored with
          thumbnailsInGroup := inGroup stored.thumbnailsInGroup
          thumbnail := picture } })
      (fun _ ↦ Steady
        { c with thumbnail := picture, thumbnailsInGroup := inGroup c.thumbnailsInGroup })
      fun _ : ReplayFileWriteError ↦ Steady c := by
  refine Act.Triple.modify fun r hr ↦ hr.congr ?_ rfl rfl rfl rfl rfl
  obtain ⟨stored, hstored⟩ := hr.stored
  have hcourse := hr.course
  rw [course, hstored] at hcourse
  cases hcourse
  rw [course, hstored]
  rfl

/-- A picture that fails is not noted. -/
theorem turns_thumbnail (top bottom : Screen) :
    Act.Triple (Steady c) (thumbnail x top bottom) (fun _ ↦ Steady (c.afterPicture top bottom))
      fun _ ↦ Steady c := by
  refine Act.Triple.bind keeps_assertNotClosed fun _ ↦ ?_
  intro r hr
  have hsettings : r.settings = c.settings := by
    obtain ⟨stored, hstored⟩ := hr.stored
    have hcourse := hr.course
    rw [course, hstored] at hcourse
    cases hcourse
    rfl
  have hsome : r.stored.isSome = true := by
    obtain ⟨stored, hstored⟩ := hr.stored
    rw [hstored]
    rfl
  rw [Act.get_bind_apply, Course.afterPicture, ← hsettings]
  by_cases hjpeg : 0 < r.settings.storedThumbnailJpegQuality
  · rw [if_pos ⟨hsome, hjpeg⟩, if_pos hjpeg]
    cases x.encodeJpeg top.1 top.2.1 top.2.2 r.settings.storedThumbnailJpegQuality with
    | error e => exact hr
    | ok topData =>
      cases x.encodeJpeg bottom.1 bottom.2.1 bottom.2.2 r.settings.storedThumbnailJpegQuality with
      | error e => exact hr
      | ok bottomData =>
        rw [hsettings]
        exact Act.Triple.bind (keeps_writePacketData _) (fun _ ↦ turns_setPicture none fun _ ↦ 0) r hr
  · rw [if_neg fun h ↦ hjpeg h.2, if_neg hjpeg, previousThumbnail_eq hr.course]
    cases encodeScreen x ((c.previous top bottom).map Prod.fst) top with
    | error e => exact hr
    | ok topData =>
      cases encodeScreen x ((c.previous top bottom).map Prod.snd) bottom with
      | error e => exact hr
      | ok bottomData =>
        rw [hsettings]
        exact Act.Triple.bind (keeps_writePacketData _) (fun _ ↦ turns_setPicture (some (top, bottom))
          fun n ↦ if (c.previous top bottom).isSome then n + 1 else 1) r hr

/-- The marks of the header are no part of the course. -/
theorem keeps_mark {mark : Recorder → ReplayHeaderRaw}
    (hmark : ∀ r, unmarked (mark r) = unmarked r.header) : Keeps c (do
      Act.modify fun r : Recorder ↦ { r with header := mark r }
      syncHeader) := by
  intro r hr
  obtain ⟨file, hfile, -⟩ := hr.files
  obtain ⟨r', hrun, hfile', hsame⟩ :=
    syncHeader_of_files (r := { r with header := mark r }) (hfile.congr rfl rfl rfl)
  rw [Act.modify_bind_apply, hrun]
  refine ⟨?_, ?_, ?_, _, hfile', ?_⟩
  · rw [hsame, ← hr.course, course, course]
    simp only [hmark]
  · rw [hsame]
    exact hr.blob
  · rw [hsame]
    exact hr.keyframes
  · rw [List.take_append_of_le_length (ReplayHeaderRaw.length_asBytes _).ge,
      List.take_of_length_le (ReplayHeaderRaw.length_asBytes _).le, hsame]

theorem keeps_setBookmarkTable (table : BookmarkTable) : Keeps c (setBookmarkTable table) := by
  refine keeps_assertNotClosed.bind fun _ ↦ .get_bind fun r _ ↦ .ite (fun _ ↦ .pure _) fun _ ↦
    Keeps.bind ?_ fun _ ↦ .ite (fun _ ↦ ?_) fun _ ↦ keeps_writeBookmarkSnapshot
  · exact .modify (fun _ ↦ rfl) (fun _ ↦ rfl) (fun _ ↦ rfl) (fun _ ↦ rfl) (fun _ ↦ rfl) fun _ ↦ rfl
  · exact .modify (fun _ ↦ rfl) (fun _ ↦ rfl) (fun _ ↦ rfl) (fun _ ↦ rfl) (fun _ ↦ rfl) fun _ ↦ rfl

theorem keeps_setInput (input : InputBuffer) : Keeps c (setInput input) := by
  refine .get_bind fun r _ ↦ .ite (fun _ ↦ .pure _) fun _ ↦ Keeps.bind ?_ fun _ ↦
    keeps_writePacketData _
  exact .modify (fun _ ↦ rfl) (fun _ ↦ rfl) (fun _ ↦ rfl) (fun _ ↦ rfl) (fun _ ↦ rfl) fun _ ↦ rfl

theorem keeps_setSpeed (speed : Speed) : Keeps c (setSpeed speed) := by
  refine .get_bind fun r _ ↦ .ite (fun _ ↦ .pure _) fun _ ↦ Keeps.bind ?_ fun _ ↦
    keeps_writePacketData _
  exact .modify (fun _ ↦ rfl) (fun _ ↦ rfl) (fun _ ↦ rfl) (fun _ ↦ rfl) (fun _ ↦ rfl) fun _ ↦ rfl

theorem keeps_changeCounter (name : String) (delta : SignedInteger) :
    Keeps c (changeCounter name delta) := by
  refine keeps_assertNotClosed.bind fun _ ↦ Keeps.bind ?_ fun _ ↦ keeps_writePacketData _
  exact .modify (fun _ ↦ rfl) (fun _ ↦ rfl) (fun _ ↦ rfl) (fun _ ↦ rfl) (fun _ ↦ rfl) fun _ ↦ rfl

theorem keeps_romReads (reads : List (Nat × Nat)) : Keeps c (romReads reads) := by
  intro r hr
  obtain ⟨stored, hstored⟩ := hr.stored
  rw [romReads, Act.get_bind_apply, hstored]
  dsimp only
  cases addReads reads (stored.readsSince 1) with
  | none => trivial
  | some reads1 =>
    cases addReads reads (stored.readsSince 2) with
    | none => trivial
    | some reads2 => exact hr.withPending hstored rfl rfl rfl

/-- **What every call does to the course.** -/
theorem perform_turns (call : Call) : Turns c (c.after call) (perform x call) := by
  cases call with
  | nextFrame timestamp => exact turns_nextFrame timestamp
  | insertKeyframe state elapsedMillis encoding =>
    refine Turns.before (Act.Triple.get_bind fun r hr ↦ ?_) fun _ ↦ .pure _
    obtain ⟨stored, hstored⟩ := hr.stored
    have hsome : r.stored.isSome = true := by
      rw [hstored]
      rfl
    rw [if_pos hsome]
    exact (turns_insertStoredKeyframe state elapsedMillis encoding).pre (fun _ h ↦ h ▸ hr)
  | setInput input => exact .of_keeps (keeps_setInput input)
  | setSpeed speed => exact .of_keeps (keeps_setSpeed speed)
  | writeMemory address data => exact .of_keeps (keeps_writePacketData _)
  | resetConsole => exact .of_keeps (keeps_writePacketData _)
  | loadSaveState state => exact .of_keeps (keeps_writePacketData _)
  | serialIn data => exact .of_keeps (.ite (fun _ ↦ .pure _) fun _ ↦ keeps_writePacketData _)
  | changeCounter name delta => exact .of_keeps (keeps_changeCounter name delta)
  | setBookmarkTable table => exact .of_keeps (keeps_setBookmarkTable table)
  | thumbnail top bottom =>
    exact (turns_thumbnail top bottom).conseq (fun _ h ↦ h) (fun _ _ h ↦ h) fun _ _ h ↦ .inl h
  | romReads reads => exact .of_keeps (keeps_romReads reads)
  | transientPageAccess access =>
    exact .of_keeps (.modifyStored (fun _ ↦ rfl) (fun _ ↦ rfl) fun _ ↦ rfl)
  | setRom rom =>
    exact .of_keeps (.modify (fun _ ↦ rfl) (fun _ ↦ rfl) (fun _ ↦ rfl) (fun _ ↦ rfl) (fun _ ↦ rfl)
      fun _ ↦ rfl)
  | setRomReadsUnknown unknown =>
    exact .of_keeps (.modify (fun _ ↦ rfl) (fun _ ↦ rfl) (fun _ ↦ rfl) (fun _ ↦ rfl) (fun _ ↦ rfl)
      fun _ ↦ rfl)
  | markStart timerOffset => exact .of_keeps (keeps_mark fun _ ↦ rfl)
  | markEnd => exact .of_keeps (keeps_mark fun _ ↦ rfl)

/-! ## Runs -/

variable {patch : Bytes} {log : List Part}

/-- A recorder of a Nintendo 3DS file, what was given to it, and its course. -/
structure OnCourse (patch : Bytes) (log : List Part) (c : Course) (r : Recorder) : Prop where
  mirrors : Mirrors true patch log r
  steady : Steady c r
  own : ∀ part ∈ log, part.Own

theorem own_part {packet : Packet} (h : ∀ k, packet ≠ .storedKeyframe k) :
    ∀ part ∈ r.part packet, part.Own := by
  intro part hpart
  rw [Recorder.part] at hpart
  split_ifs at hpart
  · rw [List.mem_singleton] at hpart
    subst hpart
    exact ⟨rfl, h⟩
  · cases hpart

theorem own_thumbnail (top bottom : Screen) :
    ∀ part ∈ (thumbnailOf x r top bottom).toOption.elim [] r.part, part.Own := by
  intro part hpart
  cases hof : thumbnailOf x r top bottom with
  | error e =>
    rw [hof] at hpart
    cases hpart
  | ok packet =>
    rw [hof] at hpart
    refine own_part (fun k hk ↦ ?_) part hpart
    subst hk
    rw [thumbnailOf] at hof
    dsimp only at hof
    split_ifs at hof
    · cases htop : x.encodeJpeg top.1 top.2.1 top.2.2 r.settings.storedThumbnailJpegQuality with
      | error e =>
        rw [htop] at hof
        cases hof
      | ok topData =>
        cases hbottom : x.encodeJpeg bottom.1 bottom.2.1 bottom.2.2
            r.settings.storedThumbnailJpegQuality with
        | error e =>
          rw [htop, hbottom] at hof
          cases hof
        | ok bottomData =>
          rw [htop, hbottom] at hof
          cases hof
    · cases htop : encodeScreen x ((r.previousThumbnail top bottom).map Prod.fst) top with
      | error e =>
        rw [htop] at hof
        cases hof
      | ok topData =>
        cases hbottom : encodeScreen x ((r.previousThumbnail top bottom).map Prod.snd) bottom with
        | error e =>
          rw [htop, hbottom] at hof
          cases hof
        | ok bottomData =>
          rw [htop, hbottom] at hof
          cases hof

/-- What a call adds is its own. -/
theorem own_added (call : Call) : ∀ part ∈ added x r call, part.Own := by
  have hnil : ∀ part ∈ ([] : List Part), part.Own := fun part hpart ↦ absurd hpart List.not_mem_nil
  cases call with
  | insertKeyframe state elapsedMillis encoding =>
    intro part hpart
    rw [added] at hpart
    cases hstored : r.stored with
    | none =>
      rw [hstored] at hpart
      cases hpart
    | some stored =>
      rw [hstored] at hpart
      cases List.mem_singleton.mp hpart
      trivial
  | thumbnail top bottom => exact own_thumbnail top bottom
  | setInput | setSpeed | serialIn | setBookmarkTable =>
    rw [added]
    split_ifs
    · exact hnil
    · exact own_part fun k hk ↦ by cases hk
  | nextFrame | writeMemory | resetConsole | loadSaveState | changeCounter =>
    exact own_part fun k hk ↦ by cases hk
  | _ => exact hnil

/-- **One call**: it adds its parts to the stream and turns the course, or it fails and adds nothing;
a frame that fails may have been counted. -/
theorem OnCourse.perform (hx : Compresses x) (h : OnCourse patch log c r) (call : Call) :
    match perform x call r with
    | .ok _ r' => OnCourse patch (log ++ added x r call) (c.after call) r'
    | .error _ r' => OnCourse patch log c r' ∨
        OnCourse patch log { c with elapsedFrames := saturatingSucc c.elapsedFrames } r'
    | .abort => True := by
  have hends := ends_perform h.mirrors (fun _ ↦ hx) call
  have hturns := perform_turns (x := x) call r h.steady
  cases hrun : Recorder.perform x call r with
  | ok u r' =>
    rw [hrun] at hends hturns
    refine ⟨hends, hturns, fun part hpart ↦ ?_⟩
    rcases List.mem_append.mp hpart with hold | hnew
    · exact h.own part hold
    · exact own_added call part hnew
  | error e r' =>
    rw [hrun] at hends hturns
    cases call with
    | nextFrame timestamp =>
      exact hturns.imp (fun hc ↦ ⟨hends, hc, h.own⟩) fun hc ↦ ⟨hends, hc, h.own⟩
    | insertKeyframe state elapsedMillis encoding =>
      obtain ⟨stored, hstored⟩ := h.steady.stored
      have hinsert : insertStoredKeyframe x state elapsedMillis encoding r = .error e r' := by
        rw [Recorder.perform, Act.bind_eq_error, insertKeyframeWith, Act.get_bind_apply, hstored] at hrun
        rcases hrun with hrun | ⟨_, _, -, hrun⟩
        · exact hrun
        · cases hrun
      cases insertStoredKeyframe_error hx h.mirrors hstored hinsert
      exact .inl h
    | thumbnail top bottom =>
      exact .inl ⟨hends, (turns_thumbnail top bottom).error h.steady hrun, h.own⟩
    | _ => exact .inl ⟨hends, hturns.elim id id, h.own⟩
  | abort => trivial

/-- The calls of a run that succeed, with the recorders that they are made on. -/
def accepted (x : Externals) : List Call → Recorder → List (Recorder × Call)
  | [], _ => []
  | call :: calls, r =>
    match Recorder.perform x call r with
    | .ok _ r' => (r, call) :: accepted x calls r'
    | .error _ r' => accepted x calls r'
    | .abort => []

/-- What holds of a recorder on its course, of what was given to it and of the calls that succeeded
after each call holds after a run. -/
theorem OnCourse.run_accepted {I : List (Recorder × Call) → List Part → Course → Prop}
    (hx : Compresses x) {calls : List Call}
    (hok : ∀ {made log c r r' call}, call ∈ calls → OnCourse patch log c r → I made log c →
      Recorder.perform x call r = .ok () r' →
      I (made ++ [(r, call)]) (log ++ added x r call) (c.after call))
    (hcounted : ∀ {made log c}, I made log c →
      I made log { c with elapsedFrames := saturatingSucc c.elapsedFrames })
    {results : List (Except ReplayFileWriteError Unit)} (made : List (Recorder × Call))
    (h : OnCourse patch log c r) (hI : I made log c) (hrun : run x calls r = some (results, r')) :
    ∃ log' c', log <+: log' ∧ OnCourse patch log' c' r' ∧ I (made ++ accepted x calls r) log' c' ∧
      c'.header = c.header := by
  induction calls generalizing log c r results made with
  | nil =>
    cases hrun
    rw [accepted, List.append_nil]
    exact ⟨log, c, List.prefix_rfl, h, hI, rfl⟩
  | cons call calls ih =>
    have hone := h.perform hx call
    have hrest : ∀ {made log c r r' call}, call ∈ calls → OnCourse patch log c r → I made log c →
        Recorder.perform x call r = .ok () r' →
        I (made ++ [(r, call)]) (log ++ added x r call) (c.after call) :=
      fun hmem ↦ hok (List.mem_cons_of_mem _ hmem)
    rw [Recorder.run] at hrun
    rw [accepted]
    cases hperform : Recorder.perform x call r with
    | ok u r₁ =>
      rw [hperform] at hone hrun
      obtain ⟨⟨results', r₂⟩, hrunRest, heq⟩ := Option.map_eq_some_iff.mp hrun
      cases heq
      obtain ⟨log', c', hbegins, hcourse, hI', hheader⟩ :=
        ih hrest _ hone (hok List.mem_cons_self h hI hperform) hrunRest
      rw [List.append_assoc, List.singleton_append] at hI'
      exact ⟨log', c', (List.prefix_append _ _).trans hbegins, hcourse, hI',
        hheader.trans (c.after_header call)⟩
    | error e r₁ =>
      rw [hperform] at hone hrun
      obtain ⟨⟨results', r₂⟩, hrunRest, heq⟩ := Option.map_eq_some_iff.mp hrun
      cases heq
      rcases hone with hone | hone
      · exact ih hrest made hone hI hrunRest
      · have hcounted' := ih hrest made hone (hcounted hI) hrunRest
        exact hcounted'
    | abort =>
      rw [hperform] at hrun
      cases hrun

/-- What holds of a recorder on its course and what was given to it after each call holds after a
run. -/
theorem OnCourse.run {I : List Part → Course → Prop} (hx : Compresses x)
    (hok : ∀ {log c r r' call}, OnCourse patch log c r → I log c →
      Recorder.perform x call r = .ok () r' → I (log ++ added x r call) (c.after call))
    (hcounted : ∀ {log c}, I log c → I log { c with elapsedFrames := saturatingSucc c.elapsedFrames })
    {calls : List Call} {results : List (Except ReplayFileWriteError Unit)}
    (h : OnCourse patch log c r) (hI : I log c) (hrun : run x calls r = some (results, r')) :
    ∃ log' c', log <+: log' ∧ OnCourse patch log' c' r' ∧ I log' c' ∧ c'.header = c.header :=
  OnCourse.run_accepted (I := fun _ ↦ I) hx (fun _ ↦ hok) hcounted [] h hI hrun

end Recorder

end SuperShuckie
