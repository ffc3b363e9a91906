import SuperShuckie.Core.Exclusion

/-!
# The wrapper of a core on its thread

A core runs on a thread of its own, and everybody else has a wrapper that sends it commands.  The
wrapper keeps its own account of the replay file that is attached: each call changes it according to
what the thread answered, or without waiting for an answer.

The account is right whenever the queue of commands is empty, unless a recording is started while a
replay file is attached, or a stopped replay is exported, or the file has 2^32 frames or more
(`wrapper_agrees`).
-/

set_option autoImplicit false

namespace SuperShuckie

/-- A core with its wrapper (`ThreadedSuperShuckieCore`), and the commands sent to its thread that it
has not handled yet. -/
structure ThreadedCore where
  playbackTotalFrames : UnsignedInteger
  playback : Bool
  playbackStopped : Bool
  core : CoreModes
  queue : List CoreModes.Event

namespace ThreadedCore

open CoreModes

def new (console : Option ReplayConsoleType) : ThreadedCore :=
  { playbackTotalFrames := 0
    playback := false
    playbackStopped := false
    core := .new console
    queue := [] }

/-! ## What the wrapper says -/

def isPlayingBack (w : ThreadedCore) : Bool := w.playback && !w.playbackStopped

def hasReplayAttached (w : ThreadedCore) : Bool := w.playback

def isReplayPlaybackStopped (w : ThreadedCore) : Bool := w.playback && w.playbackStopped

def getPlaybackTotalFrames (w : ThreadedCore) : UInt32 := w.playbackTotalFrames.toUInt32

/-! ## Calls -/

/-- A call of the wrapper, with how its command ends on the thread. -/
inductive Call
  | startRecordingReplay (starts : Bool)
  | resumeRecordingReplay (outcome : ResumeOutcome)
  | stopRecordingReplay
  | exportReplay (loaded : Option Counters)
  | stopReplayPlayback
  | resumeReplayPlayback (loaded : Option Counters)
  | goToReplayResumePoint (loaded : Option Counters)
  | attachReplayPlayer (totalFrames : UnsignedInteger) (outcome : AttachOutcome)
  | detachReplayPlayer
  | changeReplayCounter (name : String) (delta : SignedInteger)
  | startStreamPublishing
  | stopStreamPublishing
  | attachLiveReplaySource (compatible : Bool)
  | detachLiveReplaySource
  | startRecordingFollowerReplay (midFrame starts : Bool)
  | linkHold (port : Bool)
  | linkRelease
  | beginLink (ready : Bool)
  | endLink

/-- The command that a call sends. -/
def Call.command : Call → Event
  | .startRecordingReplay starts => .startRecordingReplay starts
  | .resumeRecordingReplay outcome => .resumeRecordingReplay outcome
  | .stopRecordingReplay => .stopRecordingReplay
  | .exportReplay loaded => .exportFrames loaded
  | .stopReplayPlayback => .stopReplayPlayback
  | .resumeReplayPlayback loaded => .resumeReplayPlayback loaded
  | .goToReplayResumePoint loaded => .goToReplayResumePoint loaded
  | .attachReplayPlayer totalFrames outcome => .attachReplayPlayer totalFrames outcome
  | .detachReplayPlayer => .detachReplayPlayer
  | .changeReplayCounter name delta => .changeReplayCounter name delta
  | .startStreamPublishing => .startStreamPublishing
  | .stopStreamPublishing => .stopStreamPublishing
  | .attachLiveReplaySource compatible => .attachLiveReplaySource compatible
  | .detachLiveReplaySource => .detachLiveSource
  | .startRecordingFollowerReplay midFrame starts => .startRecordingFollowerReplay midFrame starts
  | .linkHold port => .linkHold port
  | .linkRelease => .linkRelease
  | .beginLink ready => .beginLink ready
  | .endLink => .endLink

/-- Whether the call waits for the thread's answer. -/
def Call.waits : Call → Bool
  | .exportReplay _ | .goToReplayResumePoint _ | .detachReplayPlayer | .changeReplayCounter _ _ =>
    false
  | _ => true

/-- Whether the call returns at once, because of what the wrapper itself says. -/
def returnsEarly (w : ThreadedCore) : Call → Bool
  | .stopReplayPlayback => !w.isPlayingBack
  | .resumeReplayPlayback _ | .goToReplayResumePoint _ => !w.isReplayPlaybackStopped
  | _ => false

/-- No replay is attached, as far as the wrapper knows. -/
def clear (w : ThreadedCore) : ThreadedCore :=
  { w with playbackTotalFrames := 0, playback := false, playbackStopped := false }

/-- What a call changes before it sends its command. -/
def before (w : ThreadedCore) : Call → ThreadedCore
  | .detachReplayPlayer => w.clear
  | .resumeReplayPlayback _ => { w with playbackStopped := false }
  | _ => w

/-- What the thread answers to a request to attach a replay file. -/
inductive AttachAnswer
  | attached
  | failed
  /-- The file does not fit, or cannot be attached now; nothing was touched. -/
  | refused
deriving DecidableEq

/-- The answer of a core that is asked to attach a replay file. -/
def attachAnswer (outcome : AttachOutcome) (s : CoreModes) : AttachAnswer :=
  if s.streamPublisher ∨ s.linkHolding ∨ s.isLinked then .refused
  else
    match outcome with
    | .mismatched => .refused
    | .noFirstKeyframe | .cannotSeek _ => .failed
    | .attached _ => .attached

/-- Whether a core that is asked to resume a recording does. -/
def resumes (outcome : ResumeOutcome) (s : CoreModes) : Bool :=
  match s.replayPlayer, outcome with
  | some _, .resumed _ => true
  | _, _ => false

/-- What a call that waits changes when it gets its answer, which comes from a core in state `s`. -/
def after (s : CoreModes) (w : ThreadedCore) : Call → ThreadedCore
  | .resumeRecordingReplay outcome => if resumes outcome s then w.clear else w
  | .stopReplayPlayback => { w with playbackStopped := true }
  | .attachReplayPlayer totalFrames outcome =>
    match attachAnswer outcome s with
    | .attached =>
      { w with playbackTotalFrames := totalFrames, playback := true, playbackStopped := false }
    | .failed => w.clear
    | .refused => w
  | .attachLiveReplaySource compatible =>
    if compatible = false ∨ s.streamPublisher then w else w.clear
  | _ => w

/-! ## Runs -/

/-- What the thread does of its own accord between two commands. -/
inductive Work
  | goToReplayFrame (loaded : Option Counters)
  | playIncrementCounter (name : String) (delta : SignedInteger)
  | applyStreamSnapshot (loads : Bool) (counters : Counters) (starts : Bool)
  /-- The recording could not be written. -/
  | forceStopRecordingReplay
  | beginLinkPartner (ready : Bool)
  | endLink
  | endLinkPartner

def Work.event : Work → Event
  | .goToReplayFrame loaded => .goToReplayFrame loaded
  | .playIncrementCounter name delta => .playIncrementCounter name delta
  | .applyStreamSnapshot loads counters starts => .applyStreamSnapshot loads counters starts
  | .forceStopRecordingReplay => .forceStopRecordingReplay
  | .beginLinkPartner ready => .beginLinkPartner ready
  | .endLink => .endLink
  | .endLinkPartner => .endLinkPartner

/-- A step of the wrapper or of the thread. -/
inductive Event
  | call (call : Call)
  /-- The thread handles the next command. -/
  | handle
  | work (work : Work)

/-- Take a step; `none` when the thread panics.  A call that waits gets its answer once every command
before its own has been handled. -/
def step : Event → ThreadedCore → Option ThreadedCore
  | .call call, w =>
    if w.returnsEarly call then some w
    else if call.waits then do
      let s ← CoreModes.run w.queue w.core
      let s' ← CoreModes.step call.command s
      pure (after s { w.before call with core := s', queue := [] } call)
    else some { w.before call with queue := w.queue ++ [call.command] }
  | .handle, w =>
    match w.queue with
    | [] => some w
    | command :: queue => do
      let s ← CoreModes.step command w.core
      pure { w with core := s, queue }
  | .work work, w => do
    let s ← CoreModes.step work.event w.core
    pure { w with core := s }

/-! ## What is to be agreed on -/

/-- The replay file attached to a core, whether it is stopped, and the console. -/
structure View where
  player : Option UnsignedInteger
  stopped : Bool
  console : Option ReplayConsoleType

def view (s : CoreModes) : View :=
  ⟨s.replayPlayer, s.isReplayPlaybackStopped, s.replayConsoleType⟩

/-- What a command that nobody waits for makes of it. -/
def View.after (v : View) : CoreModes.Event → View
  | .detachReplayPlayer => { v with player := none, stopped := false }
  | .exportFrames _ => { v with stopped := false }
  | _ => v

/-- The view of the core once every command sent so far has been handled. -/
def settled (w : ThreadedCore) : View := w.queue.foldl View.after (view w.core)

/-- A replay file and a followed player never drive the same core. -/
def Apart (s : CoreModes) : Prop := s.replayPlayer = none ∨ s.follower = none

variable {s s' : CoreModes} {w w' : ThreadedCore}

theorem view_goToReplayFrame (loaded : Option Counters) :
    view (s.goToReplayFrame loaded) = view s := by
  unfold goToReplayFrame
  split <;> rfl

theorem view_startPendingFollowerRecording (starts : Bool) :
    view (s.startPendingFollowerRecording starts) = view s := by
  unfold startPendingFollowerRecording
  split <;> rfl

theorem view_changeReplayCounterMap {name : String} {delta : SignedInteger}
    (h : s.changeReplayCounterMap name delta = some s') : view s' = view s := by
  obtain ⟨counters, -, rfl⟩ := Option.map_eq_some_iff.mp h
  rfl

/-- A command that nobody waits for. -/
theorem view_of_sent {call : Call} (hwaits : call.waits = false)
    (h : CoreModes.step call.command s = some s') : view s' = (view s).after call.command := by
  cases call with
  | exportReplay loaded =>
    cases h
    unfold exportFrames
    cases hplayer : s.replayPlayer with
    | none => simp [view, View.after, CoreModes.isReplayPlaybackStopped, hplayer, Call.command]
    | some frames =>
      rw [view_goToReplayFrame]
      simp [view, View.after, CoreModes.isReplayPlaybackStopped, hplayer, Call.command]
  | goToReplayResumePoint loaded =>
    cases h
    unfold goToReplayResumePoint
    split
    · exact view_goToReplayFrame loaded
    · rfl
  | detachReplayPlayer =>
    cases h
    unfold CoreModes.detachReplayPlayer
    cases hplayer : s.replayPlayer <;>
      simp [view, View.after, CoreModes.isReplayPlaybackStopped, hplayer, Call.command]
  | changeReplayCounter name delta =>
    rw [Call.command, CoreModes.step, changeReplayCounter] at h
    split at h
    · exact view_changeReplayCounterMap h
    · cases h
      rfl
  | _ => cases hwaits

theorem view_of_work {work : Work} (h : CoreModes.step work.event s = some s') :
    view s' = view s := by
  cases work with
  | goToReplayFrame loaded =>
    cases h
    exact view_goToReplayFrame loaded
  | playIncrementCounter name delta =>
    rw [Work.event, CoreModes.step, playIncrementCounter] at h
    split at h
    · exact view_changeReplayCounterMap h
    · cases h
      rfl
  | applyStreamSnapshot loads counters starts =>
    cases h
    unfold applyStreamSnapshot
    split
    · rfl
    · split
      · dsimp only
        split
        · rfl
        · rw [view_startPendingFollowerRecording]
          rfl
      · rfl
  | forceStopRecordingReplay =>
    cases h
    rfl
  | beginLinkPartner ready =>
    cases h
    unfold CoreModes.beginLinkPartner
    split <;> rfl
  | endLink =>
    cases h
    rfl
  | endLinkPartner =>
    cases h
    rfl

/-! ## Who drives the console -/

section

variable (h : Apart s)
include h

theorem Apart.goToReplayFrame (loaded : Option Counters) : Apart (s.goToReplayFrame loaded) := by
  unfold CoreModes.goToReplayFrame
  split
  · exact h
  · exact h

/-- What does not touch the two keeps them apart. -/
theorem Apart.of_eq (hplayer : s'.replayPlayer = s.replayPlayer)
    (hfollower : s'.follower = s.follower) : Apart s' := by
  rw [Apart, hplayer, hfollower]
  exact h

theorem Apart.changeReplayCounterMap {name : String} {delta : SignedInteger}
    (hstep : s.changeReplayCounterMap name delta = some s') : Apart s' := by
  obtain ⟨counters, -, rfl⟩ := Option.map_eq_some_iff.mp hstep
  exact h

theorem Apart.startPendingFollowerRecording (starts : Bool) :
    Apart (s.startPendingFollowerRecording starts) := by
  unfold CoreModes.startPendingFollowerRecording
  split
  · rename_i hfollower
    rw [Apart, hfollower] at h
    exact .inl (h.resolve_right (Option.some_ne_none _))
  · exact h

theorem Apart.attachReplayPlayer (totalFrames : UnsignedInteger)
    (outcome : AttachOutcome) : Apart (s.attachReplayPlayer totalFrames outcome) := by
  unfold CoreModes.attachReplayPlayer
  split
  · exact h
  · cases outcome with
    | mismatched => exact h
    | noFirstKeyframe => exact .inr detachLiveSource_follower
    | cannotSeek loaded => exact .inl detachReplayPlayer_replayPlayer
    | attached loaded =>
      apply Apart.goToReplayFrame
      exact .inr detachLiveSource_follower

theorem Apart.resumeRecordingReplay (outcome : ResumeOutcome) :
    Apart (s.resumeRecordingReplay outcome) := by
  unfold CoreModes.resumeRecordingReplay
  split
  · exact h
  · cases outcome with
    | cannotSeek loaded => exact h.goToReplayFrame loaded
    | cannotBuild loaded again => exact (h.goToReplayFrame loaded).goToReplayFrame again
    | resumed counters => exact .inl rfl

theorem Apart.startRecordingFollowerReplay (midFrame starts : Bool) :
    Apart (s.startRecordingFollowerReplay midFrame starts) := by
  unfold CoreModes.startRecordingFollowerReplay
  split
  · exact h
  · rename_i follower hfollower
    rw [Apart, hfollower] at h
    have hplayer : s.replayPlayer = none := h.resolve_right (Option.some_ne_none _)
    have hasked : Apart { s.stopRecordingReplay with
        follower := some { follower with pendingRecording := true } } :=
      .inl (by rw [stopRecordingReplay_replayPlayer]; exact hplayer)
    dsimp only
    split
    · exact hasked.startPendingFollowerRecording starts
    · exact hasked

theorem Apart.applyStreamSnapshot (loads : Bool) (counters : Counters)
    (starts : Bool) : Apart (s.applyStreamSnapshot loads counters starts) := by
  unfold CoreModes.applyStreamSnapshot
  split
  · exact h
  · rename_i follower hfollower
    rw [Apart, hfollower] at h
    have hplayer : s.replayPlayer = none := h.resolve_right (Option.some_ne_none _)
    split
    · dsimp only
      split
      · exact .inl hplayer
      · apply Apart.startPendingFollowerRecording
        exact .inl hplayer
    · exact .inl hplayer

/-- **Attaching either detaches the other.** -/
theorem Apart.step {event : CoreModes.Event}
    (hstep : CoreModes.step event s = some s') : Apart s' := by
  cases event with
  | changeReplayCounter name delta =>
    rw [CoreModes.step, changeReplayCounter] at hstep
    split at hstep
    · exact h.changeReplayCounterMap hstep
    · cases hstep
      exact h
  | playIncrementCounter name delta =>
    rw [CoreModes.step, playIncrementCounter] at hstep
    split at hstep
    · exact h.changeReplayCounterMap hstep
    · cases hstep
      exact h
  | startRecordingReplay starts =>
    cases hstep
    unfold CoreModes.startRecordingReplay
    split
    · exact h
    · dsimp only
      split <;> exact .inl detachReplayPlayer_replayPlayer
  | resumeRecordingReplay outcome =>
    cases hstep
    exact h.resumeRecordingReplay outcome
  | stopRecordingReplay =>
    cases hstep
    exact h.of_eq stopRecordingReplay_replayPlayer stopRecordingReplay_follower
  | forceStopRecordingReplay =>
    cases hstep
    exact h
  | attachReplayPlayer totalFrames outcome =>
    cases hstep
    exact h.attachReplayPlayer totalFrames outcome
  | detachReplayPlayer =>
    cases hstep
    exact .inl detachReplayPlayer_replayPlayer
  | stopReplayPlayback =>
    cases hstep
    unfold CoreModes.stopReplayPlayback
    split <;> exact h
  | resumeReplayPlayback loaded =>
    cases hstep
    unfold CoreModes.resumeReplayPlayback
    split
    · apply Apart.goToReplayFrame
      exact h
    · exact h
  | goToReplayResumePoint loaded =>
    cases hstep
    unfold CoreModes.goToReplayResumePoint
    split
    · exact h.goToReplayFrame loaded
    · exact h
  | goToReplayFrame loaded =>
    cases hstep
    exact h.goToReplayFrame loaded
  | exportFrames loaded =>
    cases hstep
    unfold CoreModes.exportFrames
    split
    · exact h
    · apply Apart.goToReplayFrame
      exact h
  | startStreamPublishing =>
    cases hstep
    unfold CoreModes.startStreamPublishing
    split <;> exact h
  | stopStreamPublishing =>
    cases hstep
    exact h
  | attachLiveReplaySource compatible =>
    cases hstep
    unfold CoreModes.attachLiveReplaySource
    split
    · exact h
    · exact .inl (by simp)
  | detachLiveSource =>
    cases hstep
    exact .inr detachLiveSource_follower
  | startRecordingFollowerReplay midFrame starts =>
    cases hstep
    exact h.startRecordingFollowerReplay midFrame starts
  | applyStreamSnapshot loads counters starts =>
    cases hstep
    exact h.applyStreamSnapshot loads counters starts
  | linkHold port =>
    cases hstep
    unfold CoreModes.linkHold
    split <;> exact h
  | beginLink ready =>
    cases hstep
    unfold CoreModes.beginLink
    split <;> exact h
  | beginLinkPartner ready =>
    cases hstep
    unfold CoreModes.beginLinkPartner
    split <;> exact h
  | linkRelease =>
    cases hstep
    exact h
  | endLink =>
    cases hstep
    exact h
  | endLinkPartner =>
    cases hstep
    exact h

end

/-! ## Agreement -/

/-- The wrapper says what is to be seen. -/
structure Shows (w : ThreadedCore) (v : View) : Prop where
  playback : w.hasReplayAttached = v.player.isSome
  stopped : w.isReplayPlaybackStopped = v.stopped
  frames : w.playbackTotalFrames = v.player.getD 0

/-- The wrapper says what the core will show once the queue is empty. -/
structure Agrees (w : ThreadedCore) : Prop where
  shows_settled : w.Shows (settled w)
  frames_lt : w.playbackTotalFrames.toNat < 2 ^ 32
  apart : Apart w.core
  sent : ∀ command ∈ w.queue, ∃ call : Call, call.waits = false ∧ call.command = command

/-- What the wrapper must not miss of a call, when the core shows `v`: it does not hear that a
recording that is started detaches the replay file, nor that an export restarts one that is stopped,
and it counts no more than 2^32 frames. -/
def Call.Heard (v : View) : Call → Prop
  | .startRecordingReplay _ => v.player = none ∨ v.console = none
  | .exportReplay _ => v.stopped = false
  | .attachReplayPlayer totalFrames (.attached _) => totalFrames.toNat < 2 ^ 32
  | _ => True

/-- Nothing is called that the wrapper does not hear of. -/
def Hears (w : ThreadedCore) : Event → Prop
  | .call call => call.Heard (settled w)
  | .handle | .work _ => True

/-- The commands that nobody waited for. -/
theorem view_run {queue : List CoreModes.Event}
    (hsent : ∀ command ∈ queue, ∃ call : Call, call.waits = false ∧ call.command = command)
    (h : CoreModes.run queue s = some s') (hs : Apart s) :
    view s' = queue.foldl View.after (view s) ∧ Apart s' := by
  induction queue generalizing s with
  | nil =>
    cases h
    exact ⟨rfl, hs⟩
  | cons command queue ih =>
    obtain ⟨⟨call, hwaits, hcommand⟩, hrest⟩ := List.forall_mem_cons.mp hsent
    rw [CoreModes.run, List.foldlM_cons] at h
    obtain ⟨s₁, hstep, hrun⟩ := Option.bind_eq_some_iff.mp h
    rw [List.foldl_cons, ← hcommand, ← view_of_sent hwaits (hcommand ▸ hstep)]
    exact ih hrest hrun (hs.step hstep)

/-- A core that shows the same, or a wrapper that says the same. -/
theorem Shows.of_eq {v v' : View} (h : w.Shows v) (hplayer : v'.player = v.player)
    (hstopped : v'.stopped = v.stopped) : w.Shows v' :=
  ⟨by rw [hplayer]; exact h.playback, by rw [hstopped]; exact h.stopped,
    by rw [hplayer]; exact h.frames⟩

theorem shows_clear (hplayer : s.replayPlayer = none) : w.clear.Shows (view s) := by
  refine ⟨?_, ?_, ?_⟩ <;>
    simp [view, clear, hasReplayAttached, ThreadedCore.isReplayPlaybackStopped,
      CoreModes.isReplayPlaybackStopped, hplayer]

theorem shows_attachReplayPlayer (h : w.Shows (view s)) (totalFrames : UnsignedInteger)
    (outcome : AttachOutcome) : (after s w (.attachReplayPlayer totalFrames outcome)).Shows
      (view (s.attachReplayPlayer totalFrames outcome)) := by
  unfold after CoreModes.attachReplayPlayer attachAnswer
  split_ifs with hrefused
  · exact h
  · cases outcome with
    | mismatched => exact h
    | noFirstKeyframe =>
      exact shows_clear (by simp)
    | cannotSeek loaded => exact shows_clear (by simp)
    | attached loaded =>
      dsimp only
      rw [view_goToReplayFrame]
      exact ⟨rfl, rfl, rfl⟩

theorem view_of_none (hplayer : s.replayPlayer = none) :
    view s = ⟨none, false, s.replayConsoleType⟩ := by
  simp [view, CoreModes.isReplayPlaybackStopped, hplayer]

theorem view_stopRecordingReplay : view s.stopRecordingReplay = view s := by
  unfold CoreModes.stopRecordingReplay
  split <;> rfl

theorem view_startRecordingFollowerReplay (midFrame starts : Bool) :
    view (s.startRecordingFollowerReplay midFrame starts) = view s := by
  unfold CoreModes.startRecordingFollowerReplay
  split
  · rfl
  · dsimp only
    split
    · rw [view_startPendingFollowerRecording]
      exact view_stopRecordingReplay
    · exact view_stopRecordingReplay

section

variable (h : w.Shows (view s))
include h

theorem shows_startRecordingReplay (starts : Bool)
    (hfree : s.replayPlayer = none ∨ s.replayConsoleType = none) :
    w.Shows (view (s.startRecordingReplay starts)) := by
  unfold CoreModes.startRecordingReplay
  split
  · exact h
  · rename_i console hconsole
    have hplayer : s.replayPlayer = none :=
      hfree.resolve_right (by rw [hconsole]; exact Option.some_ne_none _)
    rw [view_of_none hplayer] at h
    dsimp only
    split <;>
    · rw [view_of_none (by exact detachReplayPlayer_replayPlayer)]
      exact h.of_eq rfl rfl

theorem shows_resumeRecordingReplay (outcome : ResumeOutcome) :
    (after s w (.resumeRecordingReplay outcome)).Shows (view (s.resumeRecordingReplay outcome)) := by
  unfold after CoreModes.resumeRecordingReplay resumes
  cases hplayer : s.replayPlayer with
  | none => exact h
  | some frames =>
    cases outcome with
    | cannotSeek loaded =>
      dsimp only
      rw [view_goToReplayFrame]
      exact h
    | cannotBuild loaded again =>
      dsimp only
      rw [view_goToReplayFrame, view_goToReplayFrame]
      exact h
    | resumed counters => exact shows_clear rfl

/-- The wrapper only asks the thread to stop a replay that drives the console. -/
theorem shows_stopReplayPlayback (hplaying : w.isPlayingBack = true) :
    (after s w .stopReplayPlayback).Shows (view s.stopReplayPlayback) := by
  obtain ⟨hplayback, hstopped, hframes⟩ := h
  have hattached : w.playback = true := by grind [ThreadedCore.isPlayingBack]
  have hplayer : s.replayPlayer.isSome = true := hplayback.symm.trans hattached
  have hdrives : s.isPlayingBack = true := by
    grind [CoreModes.isPlayingBack, view, CoreModes.isReplayPlaybackStopped,
      ThreadedCore.isReplayPlaybackStopped, ThreadedCore.isPlayingBack]
  rw [CoreModes.stopReplayPlayback, if_pos hdrives]
  refine ⟨hplayback, ?_, hframes⟩
  simp [view, after, ThreadedCore.isReplayPlaybackStopped, CoreModes.isReplayPlaybackStopped,
    hattached, hplayer]

theorem shows_resumeReplayPlayback
    (hstopped : w.isReplayPlaybackStopped = true) (loaded : Option Counters) :
    (w.before (.resumeReplayPlayback loaded)).Shows (view (s.resumeReplayPlayback loaded)) := by
  have hcore : s.isReplayPlaybackStopped = true := h.stopped.symm.trans hstopped
  rw [CoreModes.resumeReplayPlayback, if_pos hcore, view_goToReplayFrame]
  refine ⟨h.playback, ?_, h.frames⟩
  simp [view, before, ThreadedCore.isReplayPlaybackStopped, CoreModes.isReplayPlaybackStopped]

theorem shows_attachLiveReplaySource (compatible : Bool) :
    (after s w (.attachLiveReplaySource compatible)).Shows
      (view (s.attachLiveReplaySource compatible)) := by
  unfold after CoreModes.attachLiveReplaySource
  dsimp only
  split
  · exact h
  · exact shows_clear (by simp)

/-- Who follows another player has no replay file that could be stopped. -/
theorem shows_detachLiveSource (hs : Apart s) : w.Shows (view s.detachLiveSource) := by
  unfold CoreModes.detachLiveSource
  split
  · exact h
  · rename_i follower hfollower
    have hplayer : s.replayPlayer = none :=
      hs.resolve_right (by rw [hfollower]; exact Option.some_ne_none _)
    rw [view_of_none hplayer] at h
    rw [view_of_none (by dsimp only; rw [stopRecordingReplay_replayPlayer]; exact hplayer)]
    exact h.of_eq rfl rfl

/-- **A call that waits** leaves the wrapper with what the core then shows. -/
theorem shows_answer {call : Call} (hs : Apart s)
    (hearly : w.returnsEarly call = false) (hwaits : call.waits = true)
    (hheard : call.Heard (view s)) (hstep : CoreModes.step call.command s = some s') :
    (after s (w.before call) call).Shows (view s') := by
  cases call with
  | exportReplay loaded => cases hwaits
  | goToReplayResumePoint loaded => cases hwaits
  | detachReplayPlayer => cases hwaits
  | changeReplayCounter name delta => cases hwaits
  | startRecordingReplay starts =>
    cases hstep
    exact shows_startRecordingReplay h starts hheard
  | resumeRecordingReplay outcome =>
    cases hstep
    exact shows_resumeRecordingReplay h outcome
  | stopRecordingReplay =>
    cases hstep
    rw [view_stopRecordingReplay]
    exact h
  | stopReplayPlayback =>
    cases hstep
    have hplaying : w.isPlayingBack = true := by simpa [returnsEarly] using hearly
    exact shows_stopReplayPlayback h hplaying
  | resumeReplayPlayback loaded =>
    cases hstep
    have hstopped : w.isReplayPlaybackStopped = true := by simpa [returnsEarly] using hearly
    exact shows_resumeReplayPlayback h hstopped loaded
  | attachReplayPlayer totalFrames outcome =>
    cases hstep
    exact shows_attachReplayPlayer h totalFrames outcome
  | startStreamPublishing =>
    cases hstep
    unfold CoreModes.startStreamPublishing
    split <;> exact h
  | stopStreamPublishing =>
    cases hstep
    exact h
  | attachLiveReplaySource compatible =>
    cases hstep
    exact shows_attachLiveReplaySource h compatible
  | detachLiveReplaySource =>
    cases hstep
    exact shows_detachLiveSource h hs
  | startRecordingFollowerReplay midFrame starts =>
    cases hstep
    rw [view_startRecordingFollowerReplay]
    exact h
  | linkHold port =>
    cases hstep
    unfold CoreModes.linkHold
    split <;> exact h
  | linkRelease =>
    cases hstep
    exact h
  | beginLink ready =>
    cases hstep
    unfold CoreModes.beginLink
    split <;> exact h
  | endLink =>
    cases hstep
    exact h

end

/-- A call that does not wait says at once what its command will leave. -/
theorem shows_before {call : Call} {v : View} (h : w.Shows v) (hwaits : call.waits = false)
    (hheard : call.Heard v) : (w.before call).Shows (v.after call.command) := by
  cases call with
  | exportReplay loaded => exact h.of_eq rfl hheard.symm
  | goToReplayResumePoint loaded => exact h
  | detachReplayPlayer => exact ⟨rfl, rfl, rfl⟩
  | changeReplayCounter name delta => exact h
  | _ => cases hwaits

/-- The frames that the wrapper counts fit. -/
theorem frames_before (call : Call) (h : w.playbackTotalFrames.toNat < 2 ^ 32) :
    (w.before call).playbackTotalFrames.toNat < 2 ^ 32 := by
  cases call with
  | detachReplayPlayer => exact Nat.two_pow_pos 32
  | _ => exact h

theorem frames_after {call : Call} {v : View} (h : w.playbackTotalFrames.toNat < 2 ^ 32)
    (hheard : call.Heard v) : (after s w call).playbackTotalFrames.toNat < 2 ^ 32 := by
  cases call with
  | resumeRecordingReplay outcome =>
    rw [after]
    split
    · exact Nat.two_pow_pos 32
    · exact h
  | attachReplayPlayer totalFrames outcome =>
    unfold after attachAnswer
    split_ifs
    · exact h
    · cases outcome with
      | mismatched => exact h
      | noFirstKeyframe => exact Nat.two_pow_pos 32
      | cannotSeek loaded => exact Nat.two_pow_pos 32
      | attached loaded => exact hheard
  | attachLiveReplaySource compatible =>
    rw [after]
    split
    · exact h
    · exact Nat.two_pow_pos 32
  | _ => exact h

/-- What the wrapper changes is its own. -/
theorem before_core (call : Call) : (w.before call).core = w.core := by
  cases call <;> rfl

theorem after_with (core : CoreModes) (queue : List CoreModes.Event) (call : Call) :
    after s { w with core, queue } call = { after s w call with core, queue } := by
  unfold after
  cases call with
  | resumeRecordingReplay outcome =>
    dsimp only
    split <;> rfl
  | attachReplayPlayer totalFrames outcome =>
    dsimp only
    split <;> rfl
  | attachLiveReplaySource compatible =>
    dsimp only
    split <;> rfl
  | _ => rfl

/-- **One step keeps the agreement**, if the wrapper hears of it. -/
theorem Agrees.step {event : Event} (h : Agrees w) (hhears : w.Hears event)
    (hstep : step event w = some w') : Agrees w' := by
  obtain ⟨hshows, hframes, happart, hsent⟩ := h
  cases event with
  | call call =>
    rw [ThreadedCore.step] at hstep
    split_ifs at hstep with hearly hwaits
    · cases hstep
      exact ⟨hshows, hframes, happart, hsent⟩
    · obtain ⟨s, hrun, hstep⟩ := Option.bind_eq_some_iff.mp hstep
      obtain ⟨s', hcommand, hstep⟩ := Option.bind_eq_some_iff.mp hstep
      obtain rfl := Option.some.inj hstep
      obtain ⟨hview, hs⟩ := view_run hsent hrun happart
      rw [settled, ← hview] at hshows
      rw [Hears, settled, ← hview] at hhears
      have hanswer := shows_answer hshows hs (Bool.eq_false_iff.mpr hearly) hwaits hhears hcommand
      rw [after_with]
      exact ⟨⟨hanswer.playback, hanswer.stopped, hanswer.frames⟩,
        frames_after (frames_before call hframes) hhears, hs.step hcommand,
        fun command hmem ↦ absurd hmem List.not_mem_nil⟩
    · obtain rfl := Option.some.inj hstep
      have hwaits : call.waits = false := Bool.eq_false_iff.mpr hwaits
      have hbefore := shows_before hshows hwaits hhears
      refine ⟨?_, frames_before call hframes, (before_core call).symm ▸ happart, ?_⟩
      · rw [settled, List.foldl_append]
        dsimp only
        rw [before_core]
        exact ⟨hbefore.playback, hbefore.stopped, hbefore.frames⟩
      · intro command hmem
        rcases List.mem_append.mp hmem with hmem | hmem
        · exact hsent command hmem
        · exact ⟨call, hwaits, (List.mem_singleton.mp hmem).symm⟩
  | handle =>
    rw [ThreadedCore.step] at hstep
    split at hstep
    · cases hstep
      exact ⟨hshows, hframes, happart, hsent⟩
    · rename_i command queue hqueue
      obtain ⟨s, hcommand, hstep⟩ := Option.bind_eq_some_iff.mp hstep
      obtain rfl := Option.some.inj hstep
      rw [hqueue] at hsent
      obtain ⟨⟨call, hwaits, hcall⟩, hrest⟩ := List.forall_mem_cons.mp hsent
      have hview := view_of_sent hwaits (hcall ▸ hcommand)
      refine ⟨?_, hframes, happart.step hcommand, hrest⟩
      rw [settled, hqueue, List.foldl_cons, ← hcall, ← hview] at hshows
      exact ⟨hshows.playback, hshows.stopped, hshows.frames⟩
  | work work =>
    obtain ⟨s, hwork, hstep⟩ := Option.bind_eq_some_iff.mp hstep
    obtain rfl := Option.some.inj hstep
    refine ⟨?_, hframes, happart.step hwork, hsent⟩
    rw [settled, ← view_of_work hwork] at hshows
    exact ⟨hshows.playback, hshows.stopped, hshows.frames⟩

theorem agrees_new (console : Option ReplayConsoleType) : Agrees (new console) :=
  ⟨⟨rfl, rfl, rfl⟩, Nat.two_pow_pos 32, .inl rfl, fun _ h ↦ absurd h List.not_mem_nil⟩

/-- Take steps one after the other; `none` once the thread has panicked. -/
def run (events : List Event) (w : ThreadedCore) : Option ThreadedCore :=
  events.foldlM (fun w event ↦ step event w) w

theorem run_snoc (events : List Event) (event : Event) :
    run (events ++ [event]) w = (run events w).bind (step event) := by
  rw [run, List.foldlM_append]
  simp [run]

/-- **The wrapper's account of playback is the core's** whenever the queue of commands is empty, in
every run on a live thread in which no recording is started while a replay file is attached, no
stopped replay is exported, and no file of 2^32 frames is attached. -/
theorem wrapper_agrees (console : Option ReplayConsoleType) (events : List Event)
    (hhears : ∀ before event, before ++ [event] <+: events → ∀ w, run before (new console) = some w →
      w.Hears event)
    (before : List Event) (hbefore : before <+: events) (w : ThreadedCore)
    (hrun : run before (new console) = some w) (hqueue : w.queue = []) :
    w.hasReplayAttached = w.core.replayPlayer.isSome ∧
      w.isReplayPlaybackStopped = w.core.isReplayPlaybackStopped ∧
      w.getPlaybackTotalFrames.toNat = (w.core.replayPlayer.getD 0).toNat := by
  have hagrees : Agrees w := by
    clear hqueue
    induction before using List.reverseRecOn generalizing w with
    | nil =>
      obtain rfl := Option.some.inj hrun
      exact agrees_new console
    | append_singleton before event ih =>
      rw [run_snoc] at hrun
      obtain ⟨w₁, hrun₁, hstep⟩ := Option.bind_eq_some_iff.mp hrun
      exact (ih ((List.prefix_append _ _).trans hbefore) w₁ hrun₁).step
        (hhears before event hbefore w₁ hrun₁) hstep
  obtain ⟨hshows, hframes, -, -⟩ := hagrees
  rw [settled, hqueue] at hshows
  refine ⟨hshows.playback, hshows.stopped, ?_⟩
  rw [getPlaybackTotalFrames, UInt64.toNat_toUInt32, Nat.mod_eq_of_lt hframes, hshows.frames]
  rfl

/-- A replay that is attached, stopped and sought in. -/
theorem wrapper_agrees_stopped :
    ∃ w, run [.call (.attachReplayPlayer 600 (.attached none)), .call .stopReplayPlayback,
      .call (.goToReplayResumePoint none), .handle] (new (some .gameBoy)) = some w ∧
      w.hasReplayAttached = w.core.replayPlayer.isSome ∧
      w.isReplayPlaybackStopped = w.core.isReplayPlaybackStopped ∧
      w.getPlaybackTotalFrames.toNat = (w.core.replayPlayer.getD 0).toNat := by
  refine ⟨_, rfl, wrapper_agrees (some .gameBoy)
    [.call (.attachReplayPlayer 600 (.attached none)), .call .stopReplayPlayback,
      .call (.goToReplayResumePoint none), .handle] ?_ _ List.prefix_rfl _ rfl rfl⟩
  intro before event hbefore w hrun
  have hmem : event ∈ _ := hbefore.subset (List.mem_append_right before (List.mem_singleton_self _))
  simp only [List.mem_cons, List.not_mem_nil, or_false] at hmem
  rcases hmem with rfl | rfl | rfl | rfl
  · show UInt64.toNat 600 < 2 ^ 32
    decide
  · exact trivial
  · exact trivial
  · exact trivial

/-- A recording is started while a replay file is attached, which the wrapper goes on showing; a
stopped replay is exported, and the wrapper goes on showing it stopped. -/
theorem wrapper_disagrees :
    (∃ w, run [.call (.attachReplayPlayer 600 (.attached none)),
        .call (.startRecordingReplay true)] (new (some .gameBoy)) = some w ∧ w.queue = [] ∧
      w.hasReplayAttached = true ∧ w.core.replayPlayer.isSome = false ∧
      w.getPlaybackTotalFrames = 600) ∧
    ∃ w, run [.call (.attachReplayPlayer 600 (.attached none)), .call .stopReplayPlayback,
        .call (.exportReplay none), .handle] (new (some .gameBoy)) = some w ∧ w.queue = [] ∧
      w.isReplayPlaybackStopped = true ∧ w.core.isReplayPlaybackStopped = false :=
  ⟨⟨_, rfl, rfl, rfl, rfl, rfl⟩, ⟨_, rfl, rfl, rfl, rfl⟩⟩

end ThreadedCore

end SuperShuckie
