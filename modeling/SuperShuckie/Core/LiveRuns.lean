import SuperShuckie.Core.Input
import SuperShuckie.Live.Written

/-!
# Runs of a live core

What a run of a live core leaves alone, what it tells a recorder and a publisher of the input, and
what time it gives the frame that it completes (`stayed_afterRun`, `doRunFn_eq`).
-/

set_option autoImplicit false

namespace SuperShuckie

open ByteFormat

variable {C : Type}

/-! ## Calls -/

/-- The input that calls of a recorder or a publisher tell last. -/
def toldInput (calls : List Call) : Option InputBuffer :=
  (callMarks calls).reverse.findSome? fun
    | .input data => some data
    | _ => none

/-- Calls that tell no input. -/
def TellsNoInput (calls : List Call) : Prop := ∀ data, .input data ∉ callMarks calls

theorem tellsNoInput_nil : TellsNoInput [] := fun _ h ↦ nomatch h

theorem TellsNoInput.append {calls more : List Call} (h : TellsNoInput calls)
    (h' : TellsNoInput more) : TellsNoInput (calls ++ more) := by
  intro data
  rw [callMarks_append, List.mem_append]
  exact not_or.mpr ⟨h data, h' data⟩

theorem toldInput_append {calls more : List Call} (h : TellsNoInput more) :
    toldInput (calls ++ more) = toldInput calls := by
  have hnone : (callMarks more).reverse.findSome? (fun
      | .input data => some data
      | _ => none) = none := by
    rw [List.findSome?_eq_none_iff]
    intro mark hmark
    cases mark with
    | input data => exact absurd (List.mem_reverse.mp hmark) (h data)
    | _ => rfl
  rw [toldInput, callMarks_append, List.reverse_append, List.findSome?_append, hnone]
  rfl

theorem toldInput_setInput (calls : List Call) (data : InputBuffer) :
    toldInput (calls ++ [.setInput data]) = some data := by
  rw [toldInput, callMarks_append, List.reverse_append]
  rfl

/-- The times that calls give the frames they end. -/
def frameTimes (calls : List Call) : List TimestampMillis :=
  calls.filterMap fun
    | .nextFrame ms => some ms
    | _ => none

@[simp] theorem frameTimes_nil : frameTimes [] = [] := rfl

@[simp] theorem frameTimes_append (calls more : List Call) :
    frameTimes (calls ++ more) = frameTimes calls ++ frameTimes more := List.filterMap_append

theorem frameTimes_replicate (frames : Nat) (ms : TimestampMillis) :
    frameTimes (.replicate frames (.nextFrame ms)) = .replicate frames ms :=
  List.filterMap_replicate_of_some rfl

theorem frameTimes_eq_nil {calls : List Call} (h : framesEnded calls = 0) :
    frameTimes calls = [] := by
  rw [frameTimes, List.filterMap_eq_nil_iff]
  intro call hcall
  have hnot := List.countP_eq_zero.mp h call hcall
  cases call with
  | nextFrame ms => exact absurd rfl hnot
  | _ => rfl

theorem tellsNoInput_frames (frames : Nat) (ms : TimestampMillis) :
    TellsNoInput (.replicate frames (.nextFrame ms)) := by
  intro data hmem
  obtain ⟨call, hcall, hmark⟩ := List.mem_flatMap.mp hmem
  rw [List.eq_of_mem_replicate hcall] at hmark
  cases List.mem_singleton.mp hmark

/-! ## What follows a run -/

section AfterRun

variable {E : EmulatorCore C} {s s' s'' : SuperShuckieCore C} {calls more : List Call}

/-- The clock, the frame it is in and what drives the core are left as they are. -/
structure Untouched (s s' : SuperShuckieCore C) : Prop where
  player : s'.replayPlayer = s.replayPlayer
  stopped : s'.replayPlaybackStopped = s.replayPlaybackStopped
  paused : s'.pausedTimerAt = s.pausedTimerAt
  starting : s'.startingMilliseconds = s.startingMilliseconds
  frames : s'.totalFrames = s.totalFrames

theorem Untouched.refl (s : SuperShuckieCore C) : Untouched s s := ⟨rfl, rfl, rfl, rfl, rfl⟩

theorem Untouched.trans (h : Untouched s s') (h' : Untouched s' s'') : Untouched s s'' :=
  ⟨h'.player.trans h.player, h'.stopped.trans h.stopped, h'.paused.trans h.paused,
    h'.starting.trans h.starting, h'.frames.trans h.frames⟩

theorem untouched_writeKeyframe (full : Bool) (s : SuperShuckieCore C) :
    Untouched s (s.writeKeyframe E full) := by
  have hreads : Untouched s (s.recordRomReads E) := by
    rw [SuperShuckieCore.recordRomReads]
    dsimp only
    split
    · exact ⟨rfl, rfl, rfl, rfl, rfl⟩
    · exact ⟨rfl, rfl, rfl, rfl, rfl⟩
  have haccess : Untouched s ((s.recordRomReads E).recordPageAccess E) := by
    rw [SuperShuckieCore.recordPageAccess]
    dsimp only
    split
    · exact hreads.trans ⟨rfl, rfl, rfl, rfl, rfl⟩
    · exact hreads.trans ⟨rfl, rfl, rfl, rfl, rfl⟩
  rw [SuperShuckieCore.writeKeyframe]
  split
  · exact haccess.trans ⟨rfl, rfl, rfl, rfl, rfl⟩
  · exact haccess.trans ⟨rfl, rfl, rfl, rfl, rfl⟩

theorem untouched_pushKeyframeIfNeeded (time : RunTime) (env : Surroundings)
    (s : SuperShuckieCore C) : Untouched s (s.pushKeyframeIfNeeded E time env) := by
  rw [SuperShuckieCore.pushKeyframeIfNeeded]
  split
  · exact .refl s
  · dsimp only
    split
    · exact .refl s
    · split
      · have hwrite := untouched_writeKeyframe (E := E) s.fullKeyframePending
          { s with fullKeyframePending := false }
        exact ⟨hwrite.player, hwrite.stopped, hwrite.paused, hwrite.starting, hwrite.frames⟩
      · exact ⟨rfl, rfl, rfl, rfl, rfl⟩

theorem untouched_pushThumbnailIfNeeded (time : RunTime) (s : SuperShuckieCore C) :
    Untouched s (s.pushThumbnailIfNeeded E time) := by
  rw [SuperShuckieCore.pushThumbnailIfNeeded]
  split
  · exact .refl s
  · split
    · exact ⟨rfl, rfl, rfl, rfl, rfl⟩
    · exact .refl s

theorem untouched_recordSerialIn (s : SuperShuckieCore C) : Untouched s (s.recordSerialIn E) := by
  rw [SuperShuckieCore.recordSerialIn, SuperShuckieCore.takeSerialInBytes]
  cases E.linkPort with
  | none => exact .refl s
  | some port =>
    dsimp only
    split
    · exact ⟨rfl, rfl, rfl, rfl, rfl⟩
    · exact ⟨rfl, rfl, rfl, rfl, rfl⟩

/-- Calls of the recorder are made that tell nothing of the input; the clock and what drives the
core are left as they are. -/
structure Stayed (E : EmulatorCore C) (s s' : SuperShuckieCore C) (calls : List Call) : Prop
    extends Untouched s s' where
  file : s'.replayFileRecorder =
    s.replayFileRecorder.map fun file ↦ { file with calls := file.calls ++ calls }
  quiet : TellsNoInput calls
  follower : s'.follower.isSome = s.follower.isSome
  stalled : s'.replayStalled = s.replayStalled
  waiting : s'.replayWaiting = s.replayWaiting
  midFrame : E.isMidFrame s'.core = E.isMidFrame s.core

theorem Stayed.trans (h : Stayed E s s' calls) (h' : Stayed E s' s'' more) :
    Stayed E s s'' (calls ++ more) where
  toUntouched := h.toUntouched.trans h'.toUntouched
  file := by
    rw [h'.file, h.file, Option.map_map]
    refine congrArg (Option.map · _) (funext fun file ↦ ?_)
    rw [Function.comp_apply, List.append_assoc]
  quiet := h.quiet.append h'.quiet
  follower := h'.follower.trans h.follower
  stalled := h'.stalled.trans h.stalled
  waiting := h'.waiting.trans h.waiting
  midFrame := h'.midFrame.trans h.midFrame

theorem stayed_of_ran (h : SuperShuckieCore.Ran E s s' calls) (huntouched : Untouched s s')
    (hcalls : TellsNoInput calls) : Stayed E s s' calls :=
  ⟨huntouched, h.file, hcalls, h.isSome_follower, h.stalled, h.waiting, h.midFrame⟩

theorem stayed_record (h : TellsNoInput calls) (s : SuperShuckieCore C) :
    Stayed E s (s.record calls) calls :=
  ⟨⟨rfl, rfl, rfl, rfl, rfl⟩, rfl, h, rfl, rfl, rfl, rfl⟩

/-- Keyframes and pictures that are due: no frame ends, and the time stays. -/
theorem stayed_pushes (time : RunTime) (env : Surroundings) (s : SuperShuckieCore C) :
    ∃ calls, Stayed E s ((s.pushKeyframeIfNeeded E time env).pushThumbnailIfNeeded E time) calls ∧
      frameTimes calls = [] ∧
      ((s.pushKeyframeIfNeeded E time env).pushThumbnailIfNeeded E time).totalMilliseconds =
        s.totalMilliseconds := by
  obtain ⟨calls, hran, -, hframes, hmarks⟩ :=
    (SuperShuckieCore.ranSilently_pushKeyframeIfNeeded (E := E) time env s).trans
      (SuperShuckieCore.ranSilently_pushThumbnailIfNeeded time _)
  refine ⟨calls, stayed_of_ran hran ((untouched_pushKeyframeIfNeeded time env s).trans
    (untouched_pushThumbnailIfNeeded time _)) (fun data ↦ ?_), frameTimes_eq_nil hframes, hran.millis⟩
  rw [hmarks]
  exact List.not_mem_nil

theorem stayed_recordSerialIn (s : SuperShuckieCore C) :
    Stayed E s (s.recordSerialIn E) (SuperShuckieCore.serialCalls E s.core) := by
  refine stayed_of_ran (SuperShuckieCore.ran_recordSerialIn s) (untouched_recordSerialIn s) ?_
  intro data
  rw [SuperShuckieCore.serialCalls]
  split
  · exact tellsNoInput_nil data
  · split
    · exact tellsNoInput_nil data
    · intro h
      cases List.mem_singleton.mp h

theorem Stayed.isPlayingBack (h : Stayed E s s' calls) : s'.isPlayingBack = s.isPlayingBack := by
  rw [SuperShuckieCore.isPlayingBack, h.player, h.follower, h.stopped]
  rfl

theorem stayed_linkFrameCompleted (frames : UInt64) (s : SuperShuckieCore C) :
    Stayed E s (s.linkFrameCompleted frames) [] :=
  ⟨⟨rfl, rfl, rfl, rfl, rfl⟩, (SuperShuckieCore.append_calls_nil _).symm, tellsNoInput_nil, rfl, rfl,
    rfl, rfl⟩

theorem stayed_recordFrames (frames : UInt64) (now : TimestampMillis) (s : SuperShuckieCore C) :
    ∃ calls, Stayed E s (s.recordFrames frames now) calls ∧
      (s.isPlayingBack = false →
        frameTimes calls = .replicate frames.toNat (s.currentTimerMillis now) ∧
        (s.recordFrames frames now).totalMilliseconds = s.currentTimerMillis now) := by
  rw [SuperShuckieCore.recordFrames]
  split_ifs with hplaying hlinked
  · exact ⟨_, stayed_record (tellsNoInput_frames _ _) s,
      fun hnot ↦ absurd (hnot.symm.trans hplaying) Bool.noConfusion⟩
  · exact ⟨[], ⟨.refl s, (SuperShuckieCore.append_calls_nil _).symm, tellsNoInput_nil, rfl, rfl, rfl,
      rfl⟩, fun hnot ↦ absurd (hnot.symm.trans hplaying) Bool.noConfusion⟩
  · exact ⟨_, ⟨⟨rfl, rfl, rfl, rfl, rfl⟩, rfl, tellsNoInput_frames _ _, rfl, rfl, rfl, rfl⟩,
      fun _ ↦ ⟨frameTimes_replicate _ _, rfl⟩⟩

/-- The counts of frames go on. -/
def SuperShuckieCore.counted (time : RunTime) (s : SuperShuckieCore C) : SuperShuckieCore C :=
  { s with
    framesSinceLastKeyframe := s.framesSinceLastKeyframe + time.frames
    totalFrames := s.totalFrames + time.frames
    replayFramePending := if 0 < time.frames then false else s.replayFramePending }

/-- **What follows a run** tells nothing of the input.  Unless something else drives the core, a
completed frame ends at the time that the timer shows. -/
theorem stayed_afterRun (time : RunTime) (env : Surroundings) (s : SuperShuckieCore C) :
    ∃ calls, Stayed E (s.counted time) (s.afterRun E time env) calls ∧
      (s.isPlayingBack = false →
        frameTimes calls = .replicate time.frames.toNat (s.currentTimerMillis env.now) ∧
        (s.afterRun E time env).totalMilliseconds =
          if 0 < time.frames then s.currentTimerMillis env.now else s.totalMilliseconds) := by
  have hkept : ∃ calls, Stayed E (s.counted time) (s.doFrameTimekeeping E time env.now) calls ∧
      (s.isPlayingBack = false →
        frameTimes calls = .replicate time.frames.toNat (s.currentTimerMillis env.now) ∧
        (s.doFrameTimekeeping E time env.now).totalMilliseconds =
          if 0 < time.frames then s.currentTimerMillis env.now else s.totalMilliseconds) := by
    rw [SuperShuckieCore.doFrameTimekeeping, SuperShuckieCore.counted]
    dsimp only
    split_ifs with hframes
    · have hserial := stayed_recordSerialIn (E := E) { s with
        framesSinceLastKeyframe := s.framesSinceLastKeyframe + time.frames
        totalFrames := s.totalFrames + time.frames
        replayFramePending := false }
      obtain ⟨calls, hframe, htimes⟩ := stayed_recordFrames (E := E) time.frames env.now
        ({ s with
          framesSinceLastKeyframe := s.framesSinceLastKeyframe + time.frames
          totalFrames := s.totalFrames + time.frames
          replayFramePending := false }.recordSerialIn E)
      refine ⟨_, hserial.trans (hframe.trans (stayed_linkFrameCompleted _ _)), fun hplaying ↦ ?_⟩
      obtain ⟨hcalls, hmillis⟩ := htimes (hserial.isPlayingBack.trans hplaying)
      have htimer : ({ s with
          framesSinceLastKeyframe := s.framesSinceLastKeyframe + time.frames
          totalFrames := s.totalFrames + time.frames
          replayFramePending := false }.recordSerialIn E).currentTimerMillis env.now =
          s.currentTimerMillis env.now := by
        rw [SuperShuckieCore.currentTimerMillis, hserial.paused, hserial.starting]
        rfl
      rw [frameTimes_append, frameTimes_append, frameTimes_nil, List.append_nil, hcalls, htimer,
        frameTimes_eq_nil (SuperShuckieCore.framesEnded_serialCalls _)]
      exact ⟨rfl, hmillis.trans htimer⟩
    · have hnone : time.frames.toNat = 0 := by
        rw [UInt64.lt_iff_toNat_lt] at hframes
        simpa using hframes
      refine ⟨[], ⟨.refl _, (SuperShuckieCore.append_calls_nil _).symm, tellsNoInput_nil, rfl, rfl,
        rfl, rfl⟩, fun _ ↦ ⟨?_, rfl⟩⟩
      rw [hnone]
      rfl
  obtain ⟨calls, hkept, htimes⟩ := hkept
  obtain ⟨pushed, hpushed, hnone, hmillis⟩ :=
    stayed_pushes (E := E) time env (s.doFrameTimekeeping E time env.now)
  refine ⟨calls ++ pushed, hkept.trans hpushed, fun hplaying ↦ ?_⟩
  obtain ⟨hcalls, htime⟩ := htimes hplaying
  rw [frameTimes_append, hcalls, hnone, List.append_nil]
  exact ⟨rfl, hmillis.trans htime⟩

end AfterRun

/-! ## Runs -/

/-- Whoever listens was told the input last. -/
def Told (listener : Option (List Call)) (data : Bytes) : Prop :=
  ∀ calls ∈ listener, toldInput calls = some data

theorem told_append {listener : Option (List Call)} {data : Bytes} {more : List Call}
    (h : Told listener data) (hmore : TellsNoInput more) :
    Told (listener.map (· ++ more)) data := by
  intro calls hcalls
  obtain ⟨old, hold, rfl⟩ := Option.map_eq_some_iff.mp hcalls
  rw [toldInput_append hmore]
  exact h old hold

section Runs

variable {E : PacedCore C} {live : LiveCore C} {kind : RunKind}

/-- The console runs, and nothing but the user drives it. -/
structure LiveCore.Runs (live : LiveCore C) : Prop where
  playing : live.session.isPlayingBack = false
  stalled : live.session.replayStalled = false
  waiting : live.session.replayWaiting = false

theorem frames_runAs (kind : RunKind) (c : C) : (E.runAs kind c).1.frames ≤ 1 := by
  cases kind with
  | paced => exact E.frames_run_le c
  | unlocked => exact E.frames_le c
  | hidden => exact E.frames_runHidden_le c

theorem toNat_frames_runAs (kind : RunKind) (c : C) (hframes : (E.runAs kind c).1.frames ≠ 0) :
    (E.runAs kind c).1.frames.toNat = 1 := by
  have hone := frames_runAs (E := E) kind c
  rw [UInt64.le_iff_toNat_le, UInt64.toNat_one] at hone
  rw [Ne, ← UInt64.toNat_inj, UInt64.toNat_zero] at hframes
  omega

theorem isMidFrame_runAs (kind : RunKind) (c : C) (hframes : (E.runAs kind c).1.frames ≠ 0) :
    E.isMidFrame (E.runAs kind c).2 = false := by
  cases kind with
  | paced => exact E.isMidFrame_run c hframes
  | unlocked => exact E.isMidFrame_runUnlocked c hframes
  | hidden => exact E.isMidFrame_runHidden c hframes

theorem unfinished_runAs (kind : RunKind) (c : C) (hmid : E.isMidFrame c = true)
    (hframes : (E.runAs kind c).1.frames = 0) : E.isMidFrame (E.runAs kind c).2 = true := by
  cases kind with
  | paced => exact E.unfinished_run c hmid hframes
  | unlocked => exact E.unfinished_runUnlocked c hmid hframes
  | hidden => exact E.unfinished_runHidden c hmid hframes

theorem published_publishFrames {frames : Nat} {now : TimestampMillis} {data : Bytes}
    (h : Told live.publisher data) : Told (live.publishFrames E frames now).publisher data := by
  have hserial (received : Bytes) : TellsNoInput [.serialIn received] :=
    fun _ h ↦ nomatch List.mem_singleton.mp h
  rw [LiveCore.publishFrames]
  split <;> split
  · exact h
  · exact told_append h (tellsNoInput_frames _ _)
  · exact told_append h (hserial _)
  · exact told_append (told_append h (hserial _)) (tellsNoInput_frames _ _)

theorem publishFrames_eq {frames : Nat} {now : TimestampMillis} : live.publishFrames E frames now =
      { live with publisher := (live.publishFrames E frames now).publisher } := by
  rw [LiveCore.publishFrames]
  split <;> split <;> rfl

/-- In the middle of a frame the console is handed nothing. -/
theorem updateInput_midFrame (hlive : live.Runs) (hmid : E.isMidFrame live.session.core = true) :
    live.updateInput E = live := by
  rw [LiveCore.updateInput, if_neg (Bool.not_eq_true _ ▸ hlive.playing), if_pos hmid]

/-- The run of a core that runs. -/
theorem doRunFn_eq (hlive : live.Runs) (hbegun : (live.updateInput E).Runs) (kind : RunKind)
    (env : Surroundings) : live.doRunFn E kind env =
      { live.updateInput E with
        session := { (live.updateInput E).session with
          core := (E.runAs kind (live.updateInput E).session.core).2 } }.afterRun E
        (E.runAs kind (live.updateInput E).session.core).1 env := by
  rw [LiveCore.doRunFn, if_neg (Bool.not_eq_true _ ▸ hlive.stalled),
    if_neg (Bool.not_eq_true _ ▸ hbegun.waiting)]

end Runs

end SuperShuckie
