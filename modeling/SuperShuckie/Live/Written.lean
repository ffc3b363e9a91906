import SuperShuckie.Recording.Reliable
import SuperShuckie.Live.Session

/-!
# What the steps of a session write

Each operation of a core that follows another player is described by the calls it makes of the
file's recorder, and by what it leaves alone.  What matters of a list of calls is how many frames it
ends (`framesEnded`), what it adds to each counter (`added`), what it gives the console when the
file is played (`callMarks`) and the times it is made for.
-/

set_option autoImplicit false

namespace SuperShuckie

open ByteFormat Live

/-! ## Lists of calls -/

def Call.isNextFrame : Call → Bool
  | .nextFrame _ => true
  | _ => false

def Call.isKeyframe : Call → Bool
  | .insertKeyframe .. => true
  | _ => false

/-- What a call adds to a counter. -/
def Call.adds (name : String) : Call → SignedInteger
  | .changeCounter changed delta => if changed = name then delta else 0
  | _ => 0

/-- What a call gives to the console when the file is played. -/
def Call.marks : Call → List Mark
  | .nextFrame _ => [.frame]
  | .setInput input => [.input input]
  | .serialIn data => [.serialIn data]
  | .loadSaveState state => [.loadState state]
  | _ => []

/-- The frames that calls end. -/
def framesEnded (calls : List Call) : Nat := calls.countP Call.isNextFrame

/-- What calls add to a counter. -/
def added (name : String) : List Call → SignedInteger
  | [] => 0
  | call :: calls => call.adds name + added name calls

/-- What calls give to the console when the file is played. -/
def callMarks (calls : List Call) : List Mark := calls.flatMap Call.marks

@[simp] theorem framesEnded_nil : framesEnded [] = 0 := rfl

@[simp] theorem framesEnded_append (a b : List Call) :
    framesEnded (a ++ b) = framesEnded a + framesEnded b := List.countP_append

@[simp] theorem callMarks_nil : callMarks [] = [] := rfl

@[simp] theorem callMarks_append (a b : List Call) : callMarks (a ++ b) = callMarks a ++ callMarks b :=
  List.flatMap_append

@[simp] theorem added_nil (name : String) : added name [] = 0 := rfl

@[simp] theorem added_cons (name : String) (call : Call) (calls : List Call) :
    added name (call :: calls) = call.adds name + added name calls := rfl

@[simp] theorem added_append (name : String) (a b : List Call) :
    added name (a ++ b) = added name a + added name b := by
  induction a with
  | nil => exact (Int64.zero_add _).symm
  | cons call a ih => rw [List.cons_append, added_cons, added_cons, ih, Int64.add_assoc]

/-- The value of a counter after a call. -/
theorem counterValue_countersAfter (name : String) (call : Call) (c : OrdMap String SignedInteger) :
    SuperShuckieCore.counterValue (call.countersAfter c) name =
      SuperShuckieCore.counterValue c name + call.adds name := by
  cases call with
  | changeCounter changed delta =>
    rw [Call.countersAfter, SuperShuckieCore.counterValue, OrdMap.get?_alter,
      SuperShuckieCore.counterValue, Call.adds]
    by_cases h : changed = name
    · subst h
      rw [if_pos rfl, if_pos rfl]
      cases c.get? changed with
      | none => exact (Int64.zero_add delta).symm
      | some v => rfl
    · rw [if_neg (Ne.symm h), if_neg h]
      exact (Int64.add_zero _).symm
  | _ => exact (Int64.add_zero _).symm

/-- The value of a counter after calls. -/
theorem counterValue_foldl (name : String) (calls : List Call) (c : OrdMap String SignedInteger) :
    SuperShuckieCore.counterValue (calls.foldl (fun c call ↦ call.countersAfter c) c) name =
      SuperShuckieCore.counterValue c name + added name calls := by
  induction calls generalizing c with
  | nil => exact (Int64.add_zero _).symm
  | cons call calls ih =>
    rw [List.foldl_cons, ih, counterValue_countersAfter, added_cons, Int64.add_assoc]

/-- Calls made for the time `now`, if for any, that do not change counters. -/
def Steady (now : TimestampMillis) (calls : List Call) : Prop :=
  ∀ call ∈ calls, (∀ name, call.adds name = 0) ∧ (call.time? = none ∨ call.time? = some now)

variable {now : TimestampMillis}

theorem Steady.append {a b : List Call} (ha : Steady now a) (hb : Steady now b) :
    Steady now (a ++ b) := by
  intro call hmem
  rcases List.mem_append.mp hmem with hmem | hmem
  · exact ha call hmem
  · exact hb call hmem

theorem Steady.added {calls : List Call} (h : Steady now calls) (name : String) :
    added name calls = 0 := by
  induction calls with
  | nil => rfl
  | cons call calls ih =>
    rw [added_cons, (h call (.head _)).1 name,
      ih fun call hmem ↦ h call (List.mem_cons_of_mem _ hmem)]
    rfl

/-- Besides, they end no frame and give nothing to the console. -/
def Silent (now : TimestampMillis) (calls : List Call) : Prop :=
  Steady now calls ∧ framesEnded calls = 0 ∧ callMarks calls = []

theorem Silent.nil (now : TimestampMillis) : Silent now [] :=
  ⟨fun call hmem ↦ (by cases hmem), rfl, rfl⟩

theorem Silent.append {a b : List Call} (ha : Silent now a) (hb : Silent now b) :
    Silent now (a ++ b) :=
  ⟨ha.1.append hb.1, by rw [framesEnded_append, ha.2.1, hb.2.1],
    by rw [callMarks_append, ha.2.2, hb.2.2]; rfl⟩

theorem Silent.single {call : Call} (hadds : ∀ name, call.adds name = 0)
    (htime : call.time? = none ∨ call.time? = some now) (hframe : call.isNextFrame = false)
    (hmarks : call.marks = []) : Silent now [call] := by
  refine ⟨fun c hmem ↦ ?_, ?_, ?_⟩
  · cases List.mem_singleton.mp hmem
    exact ⟨hadds, htime⟩
  · exact List.countP_eq_zero.mpr fun c hmem ↦ by
      rw [List.mem_singleton.mp hmem, hframe]; exact Bool.false_ne_true
  · rw [callMarks, List.flatMap_singleton, hmarks]

/-! ## What a core that runs leaves alone -/

namespace SuperShuckieCore

variable {C : Type} (E : EmulatorCore C)

/-- `s'` has made the calls `calls` of the recorder of `s`, and follows as `s` does. -/
structure Wrote (s s' : SuperShuckieCore C) (calls : List Call) : Prop where
  file : s'.replayFileRecorder =
    s.replayFileRecorder.map fun file ↦ { file with calls := file.calls ++ calls }
  follower : s'.follower.map FollowerState.pendingRecording =
    s.follower.map FollowerState.pendingRecording
  stopped : s'.replayPlaybackStopped = s.replayPlaybackStopped
  waiting : s'.replayWaiting = s.replayWaiting
  stalled : s'.replayStalled = s.replayStalled
  origin : s'.streamTimeOrigin = s.streamTimeOrigin
  link : s'.linkPartner.isSome = s.linkPartner.isSome

/-- Besides, the clock, the counters and the frame it is in are those of `s`. -/
structure Ran (s s' : SuperShuckieCore C) (calls : List Call) : Prop extends Wrote s s' calls where
  millis : s'.totalMilliseconds = s.totalMilliseconds
  counters : s'.replayCounters = s.replayCounters
  pending : s'.replayFramePending = s.replayFramePending
  midFrame : E.isMidFrame s'.core = E.isMidFrame s.core

variable {E}

/-- The core follows another player, and has not stopped. -/
def Following (s : SuperShuckieCore C) : Prop :=
  s.follower.isSome = true ∧ s.replayPlaybackStopped = false

variable {s s' s'' : SuperShuckieCore C} {calls : List Call}

theorem Following.isPlayingBack (h : s.Following) : s.isPlayingBack = true := by
  rw [SuperShuckieCore.isPlayingBack, h.1, h.2, Bool.or_true]
  rfl

theorem Wrote.isSome_follower (h : Wrote s s' calls) : s'.follower.isSome = s.follower.isSome := by
  have := congrArg Option.isSome h.follower
  rwa [Option.isSome_map, Option.isSome_map] at this

theorem Wrote.following (h : Wrote s s' calls) (hs : s.Following) : s'.Following :=
  ⟨h.isSome_follower.trans hs.1, h.stopped.trans hs.2⟩

theorem append_calls_nil (file : Option FileRecorder) :
    file.map (fun file ↦ { file with calls := file.calls ++ [] }) = file := by
  cases file with
  | none => rfl
  | some file => rw [Option.map_some, List.append_nil]

theorem record_nil (s : SuperShuckieCore C) : s.record [] = s := by
  rw [record, append_calls_nil]

theorem Wrote.refl (s : SuperShuckieCore C) : Wrote s s [] :=
  ⟨(append_calls_nil _).symm, rfl, rfl, rfl, rfl, rfl, rfl⟩

theorem Wrote.trans {a b : List Call} (h : Wrote s s' a) (h' : Wrote s' s'' b) :
    Wrote s s'' (a ++ b) where
  file := by
    rw [h'.file, h.file, Option.map_map]
    exact congrArg (Option.map · _) (funext fun file ↦ by
      rw [Function.comp_apply, List.append_assoc])
  follower := h'.follower.trans h.follower
  stopped := h'.stopped.trans h.stopped
  waiting := h'.waiting.trans h.waiting
  stalled := h'.stalled.trans h.stalled
  origin := h'.origin.trans h.origin
  link := h'.link.trans h.link

theorem wrote_record (s : SuperShuckieCore C) (calls : List Call) : Wrote s (s.record calls) calls :=
  ⟨rfl, rfl, rfl, rfl, rfl, rfl, rfl⟩

theorem Ran.refl (s : SuperShuckieCore C) : Ran E s s [] := ⟨.refl s, rfl, rfl, rfl, rfl⟩

theorem Ran.trans {a b : List Call} (h : Ran E s s' a) (h' : Ran E s' s'' b) :
    Ran E s s'' (a ++ b) where
  toWrote := h.toWrote.trans h'.toWrote
  millis := h'.millis.trans h.millis
  counters := h'.counters.trans h.counters
  pending := h'.pending.trans h.pending
  midFrame := h'.midFrame.trans h.midFrame

theorem Ran.recordingMillis (h : Ran E s s' calls) : s'.recordingMillis = s.recordingMillis := by
  rw [SuperShuckieCore.recordingMillis, h.millis, h.origin]
  rfl

theorem ran_record (s : SuperShuckieCore C) (calls : List Call) : Ran E s (s.record calls) calls :=
  ⟨wrote_record s calls, rfl, rfl, rfl, rfl⟩

/-- Only the console changes, and it does not run. -/
theorem ran_core (s : SuperShuckieCore C) {core : C}
    (h : E.isMidFrame core = E.isMidFrame s.core) : Ran E s { s with core } [] :=
  ⟨⟨(append_calls_nil _).symm, rfl, rfl, rfl, rfl, rfl, rfl⟩, rfl, rfl, rfl, h⟩

/-! ## Keyframes and pictures -/

variable (E)

/-- What `s'` has done since `s` is silent. -/
def RanSilently (s s' : SuperShuckieCore C) : Prop :=
  ∃ calls, Ran E s s' calls ∧ Silent s.recordingMillis calls

variable {E}

theorem RanSilently.trans (h : RanSilently E s s') (h' : RanSilently E s' s'') :
    RanSilently E s s'' := by
  obtain ⟨a, hran, ha⟩ := h
  obtain ⟨b, hran', hb⟩ := h'
  rw [hran.recordingMillis] at hb
  exact ⟨a ++ b, hran.trans hran', ha.append hb⟩

theorem RanSilently.refl (s : SuperShuckieCore C) : RanSilently E s s :=
  ⟨[], .refl s, .nil _⟩

theorem ranSilently_record (h : Silent s.recordingMillis calls) :
    RanSilently E s (s.record calls) :=
  ⟨calls, ran_record s calls, h⟩

theorem ranSilently_core (s : SuperShuckieCore C) {core : C}
    (h : E.isMidFrame core = E.isMidFrame s.core) : RanSilently E s { s with core } :=
  ⟨[], ran_core s h, .nil _⟩

/-- The bookkeeping of keyframes is not part of what following is about. -/
theorem ranSilently_keyframes (s : SuperShuckieCore C) (since : UInt64) (full : Bool) :
    RanSilently E s { s with framesSinceLastKeyframe := since, fullKeyframePending := full } :=
  ⟨[], ⟨⟨(append_calls_nil _).symm, rfl, rfl, rfl, rfl, rfl, rfl⟩, rfl, rfl, rfl, rfl⟩, .nil _⟩

theorem ranSilently_recordRomReads (s : SuperShuckieCore C) :
    RanSilently E s (s.recordRomReads E) := by
  have hcore := ranSilently_core (E := E) s (E.isMidFrame_takeRomReads s.core)
  rw [recordRomReads]
  dsimp only
  split
  · exact hcore
  · exact hcore.trans (ranSilently_record (.single (fun _ ↦ rfl) (.inl rfl) rfl rfl))

theorem ranSilently_recordPageAccess (s : SuperShuckieCore C) :
    RanSilently E s (s.recordPageAccess E) := by
  have hcore := ranSilently_core (E := E) s (E.isMidFrame_takeTransientPageAccess s.core)
  rw [recordPageAccess]
  dsimp only
  split
  · exact hcore.trans (ranSilently_record (.single (fun _ ↦ rfl) (.inl rfl) rfl rfl))
  · exact hcore

theorem ranSilently_writeKeyframe (full : Bool) (s : SuperShuckieCore C) :
    RanSilently E s (s.writeKeyframe E full) := by
  have hreports := (ranSilently_recordRomReads (E := E) s).trans
    (ranSilently_recordPageAccess (s.recordRomReads E))
  rw [writeKeyframe]
  split
  · refine (hreports.trans (ranSilently_keyframes _ 0 _)).trans
      (ranSilently_record (.single (fun _ ↦ rfl) (.inr ?_) rfl rfl))
    obtain ⟨_, hran, _⟩ := hreports
    exact congrArg some hran.recordingMillis.symm
  · exact hreports.trans (ranSilently_keyframes _ _ _)

theorem ranSilently_pushKeyframeIfNeeded (time : RunTime) (env : Surroundings)
    (s : SuperShuckieCore C) : RanSilently E s (s.pushKeyframeIfNeeded E time env) := by
  rw [pushKeyframeIfNeeded]
  split
  · exact .refl s
  · dsimp only
    split
    · exact .refl s
    · have hflag := ranSilently_keyframes (E := E) s s.framesSinceLastKeyframe false
      split
      · exact hflag.trans (ranSilently_writeKeyframe _ _)
      · exact hflag

theorem ranSilently_pushThumbnailIfNeeded (time : RunTime) (s : SuperShuckieCore C) :
    RanSilently E s (s.pushThumbnailIfNeeded E time) := by
  rw [pushThumbnailIfNeeded]
  split
  · exact .refl s
  · split
    · exact ranSilently_record (.single (fun _ ↦ rfl) (.inl rfl) rfl rfl)
    · exact .refl s

/-! ## Completing a frame -/

/-- The core once a frame of its console has completed. -/
def frameDone (frames : UInt64) (s : SuperShuckieCore C) : SuperShuckieCore C :=
  if 0 < frames then { s with replayFramePending := false }.linkFrameCompleted frames else s

/-- The call that records what came in over the link cable. -/
def serialCalls (E : EmulatorCore C) (core : C) : List Call :=
  match E.linkPort with
  | none => []
  | some port =>
    if (port.takeSerialIn core).1.isEmpty then [] else [.serialIn (port.takeSerialIn core).1]

theorem callMarks_serialCalls (core : C) : callMarks (serialCalls E core) = serialMarks E core := by
  rw [serialCalls, serialMarks]
  cases E.linkPort with
  | none => rfl
  | some port =>
    dsimp only
    split <;> rfl

theorem framesEnded_serialCalls (core : C) : framesEnded (serialCalls E core) = 0 := by
  rw [serialCalls]
  cases E.linkPort with
  | none => rfl
  | some port =>
    dsimp only
    split <;> rfl

theorem steady_serialCalls (now : TimestampMillis) (core : C) :
    Steady now (serialCalls E core) := by
  rw [serialCalls]
  cases E.linkPort with
  | none => exact fun call hmem ↦ (by cases hmem)
  | some port =>
    dsimp only
    split
    · exact fun call hmem ↦ (by cases hmem)
    · intro call hmem
      cases List.mem_singleton.mp hmem
      exact ⟨fun _ ↦ rfl, .inl rfl⟩

theorem ran_recordSerialIn (s : SuperShuckieCore C) :
    Ran E s (s.recordSerialIn E) (serialCalls E s.core) := by
  rw [recordSerialIn, takeSerialInBytes, serialCalls]
  cases hport : E.linkPort with
  | none => exact .refl s
  | some port =>
    have hcore := ran_core (E := E) s (E.isMidFrame_takeSerialIn port s.core hport)
    dsimp only
    split
    · exact hcore
    · exact hcore.trans (ran_record _ _)

/-- The markers of the frames a linked console completes. -/
def markerCalls (frames : UInt64) (s : SuperShuckieCore C) : List Call :=
  if s.linkPartner.isSome then .replicate frames.toNat (.nextFrame s.recordingMillis) else []

theorem steady_markerCalls (frames : UInt64) (s : SuperShuckieCore C) :
    Steady s.recordingMillis (markerCalls frames s) := by
  intro call hmem
  rw [markerCalls] at hmem
  split at hmem
  · cases (List.mem_replicate.mp hmem).2
    exact ⟨fun _ ↦ rfl, .inr rfl⟩
  · cases hmem

theorem recordFrames_eq (frames : UInt64) (now : TimestampMillis) (hs : s.Following) :
    s.recordFrames frames now = s.record (markerCalls frames s) := by
  rw [recordFrames, if_pos hs.isPlayingBack, markerCalls]
  split
  · rfl
  · exact (record_nil s).symm

/-- The calls made when the console has completed `frames` frames. -/
def frameCalls (E : EmulatorCore C) (frames : UInt64) (s : SuperShuckieCore C) : List Call :=
  if 0 < frames then serialCalls E s.core ++ markerCalls frames s else []

theorem steady_frameCalls (frames : UInt64) (s : SuperShuckieCore C) :
    Steady s.recordingMillis (frameCalls E frames s) := by
  rw [frameCalls]
  split
  · exact (steady_serialCalls _ _).append (steady_markerCalls _ _)
  · exact fun call hmem ↦ (by cases hmem)

theorem framesEnded_frameCalls (frames : UInt64) (s : SuperShuckieCore C) :
    framesEnded (frameCalls E frames s) =
      if s.linkPartner.isSome then frames.toNat else 0 := by
  rw [frameCalls]
  split
  · rw [framesEnded_append, framesEnded_serialCalls, Nat.zero_add, markerCalls]
    split
    · rw [framesEnded, List.countP_replicate]
      rfl
    · rfl
  · have hzero : frames = 0 := by
      have := UInt64.le_iff_toNat_le.mp (UInt64.not_lt.mp ‹_›)
      exact UInt64.toNat_inj.mp (Nat.le_zero.mp this)
    subst hzero
    split <;> rfl

/-- What a frame's calls give to the console: the link traffic, then the frame's end if the console
is linked. -/
theorem callMarks_frameCalls {frames : UInt64} (hone : frames = 1) (s : SuperShuckieCore C) :
    callMarks (frameCalls E frames s) =
      serialMarks E s.core ++ if s.linkPartner.isSome then [.frame] else [] := by
  subst hone
  rw [frameCalls, if_pos (by decide), callMarks_append, callMarks_serialCalls, markerCalls]
  split <;> rfl

theorem Ran.linkFrameCompleted (h : Ran E s s' calls) (frames : UInt64) :
    Ran E (s.linkFrameCompleted frames) (s'.linkFrameCompleted frames) calls where
  file := h.file
  follower := h.follower
  stopped := h.stopped
  waiting := h.waiting
  stalled := h.stalled
  origin := h.origin
  link := by
    rw [SuperShuckieCore.linkFrameCompleted, SuperShuckieCore.linkFrameCompleted,
      Option.isSome_map, Option.isSome_map]
    exact h.link
  millis := h.millis
  counters := h.counters
  pending := h.pending
  midFrame := h.midFrame

theorem ran_doFrameTimekeeping (time : RunTime) (now : TimestampMillis) (hs : s.Following) :
    Ran E (s.frameDone time.frames) (s.doFrameTimekeeping E time now)
      (frameCalls E time.frames s) := by
  rw [doFrameTimekeeping, frameDone, frameCalls]
  dsimp only
  split
  · have hstart : Ran E { s with replayFramePending := false } { s with
        framesSinceLastKeyframe := s.framesSinceLastKeyframe + time.frames
        totalFrames := s.totalFrames + time.frames
        replayFramePending := false } [] :=
      ⟨⟨(append_calls_nil _).symm, rfl, rfl, rfl, rfl, rfl, rfl⟩, rfl, rfl, rfl, rfl⟩
    have hserial := hstart.trans (ran_recordSerialIn _)
    rw [recordFrames_eq time.frames now (hserial.following ⟨hs.1, hs.2⟩)]
    have hmarkers : ∀ u : SuperShuckieCore C, u.linkPartner.isSome = s.linkPartner.isSome →
        u.recordingMillis = s.recordingMillis →
        markerCalls time.frames u = markerCalls time.frames s := by
      intro u hlink hmillis
      rw [markerCalls, markerCalls, hlink, hmillis]
    rw [hmarkers _ hserial.link hserial.recordingMillis]
    exact (hserial.trans (ran_record _ _)).linkFrameCompleted time.frames
  · exact ⟨⟨(append_calls_nil _).symm, rfl, rfl, rfl, rfl, rfl, rfl⟩, rfl, rfl, rfl, rfl⟩

theorem recordingMillis_frameDone (frames : UInt64) (s : SuperShuckieCore C) :
    (s.frameDone frames).recordingMillis = s.recordingMillis := by
  rw [frameDone]
  split <;> rfl

/-- **What a core does after a run of its console**: the calls of the frame, if one has completed,
and then calls that are silent. -/
theorem ran_afterRun (time : RunTime) (env : Surroundings) (hs : s.Following) :
    ∃ silent, Ran E (s.frameDone time.frames) (s.afterRun E time env)
        (frameCalls E time.frames s ++ silent) ∧ Silent s.recordingMillis silent := by
  have hframe := ran_doFrameTimekeeping (E := E) time env.now hs
  obtain ⟨silent, hran, hsilent⟩ := (ranSilently_pushKeyframeIfNeeded time env
    (s.doFrameTimekeeping E time env.now)).trans (ranSilently_pushThumbnailIfNeeded time _)
  rw [hframe.recordingMillis, recordingMillis_frameDone] at hsilent
  exact ⟨silent, hframe.trans hran, hsilent⟩

end SuperShuckieCore

end SuperShuckie
