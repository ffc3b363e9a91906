import SuperShuckie.Core.State
import SuperShuckie.Lib.Runs

/-!
# The modes of a session

What a core is doing, besides running its console: it may be recording, playing a replay file,
following another player, publishing its game to others, or be one end of a link cable.  Most of the
operations that start one of these tear down some of the others, and the counters of the session are
shared by all of them.

Each operation is given what it does not decide by itself: whether a replay is compatible, whether
the files could be written, what a seek found.  `step` is `none` where the program panics.
-/

set_option autoImplicit false

namespace SuperShuckie

/-- The counters of a session. -/
abbrev Counters := OrdMap String SignedInteger

/-- The call that a recording was started by. -/
inductive StartedBy
  | startRecordingReplay
  | resumeRecordingReplay
  | startRecordingFollowerReplay
deriving DecidableEq

/-- What a core that follows another player keeps of its modes. -/
structure FollowerModes where
  /-- A file was asked for before there was a state to start it from. -/
  pendingRecording : Bool
  /-- A snapshot has been applied. -/
  haveState : Bool
deriving DecidableEq

/-- The modes of a core. -/
structure CoreModes where
  replayConsoleType : Option ReplayConsoleType
  replayFileRecorder : Option StartedBy
  /-- The replay file attached: the frames it has. -/
  replayPlayer : Option UnsignedInteger
  replayPlaybackStopped : Bool
  follower : Option FollowerModes
  streamPublisher : Bool
  replayCounters : Option Counters
  /-- This is the local end of a link cable. -/
  link : Bool
  /-- This is the partner's end of a link cable. -/
  linkPartner : Bool
  linkHolding : Bool

namespace CoreModes

/-- A core that has just been created. -/
def new (console : Option ReplayConsoleType) : CoreModes :=
  { replayConsoleType := console
    replayFileRecorder := none
    replayPlayer := none
    replayPlaybackStopped := false
    follower := none
    streamPublisher := false
    replayCounters := none
    link := false
    linkPartner := false
    linkHolding := false }

/-- Whether a replay, from a file or from another player, drives the console. -/
def isPlayingBack (s : CoreModes) : Bool :=
  (s.replayPlayer.isSome || s.follower.isSome) && !s.replayPlaybackStopped

/-- Whether an attached replay file is stopped. -/
def isReplayPlaybackStopped (s : CoreModes) : Bool :=
  s.replayPlayer.isSome && s.replayPlaybackStopped

def isLinked (s : CoreModes) : Bool := s.link || s.linkPartner

/-- Whether anything captures the session. -/
def isCapturing (s : CoreModes) : Bool := s.replayFileRecorder.isSome || s.streamPublisher

/-! ## Stopping -/

/-- Stop recording.  The counters stay while somebody else counts. -/
def stopRecordingReplay (s : CoreModes) : CoreModes :=
  match s.replayFileRecorder with
  | none => s
  | some _ =>
    { s with
      replayFileRecorder := none
      replayCounters :=
        if s.streamPublisher = false ∧ s.follower = none then none else s.replayCounters }

/-- Drop the recording without closing it. -/
def forceStopRecordingReplay (s : CoreModes) : CoreModes := { s with replayFileRecorder := none }

def detachReplayPlayer (s : CoreModes) : CoreModes :=
  match s.replayPlayer with
  | none => s
  | some _ =>
    { s with
      replayPlaybackStopped := false
      replayPlayer := none
      replayCounters := none }

/-- Stop following; the follower's own file is closed. -/
def detachLiveSource (s : CoreModes) : CoreModes :=
  match s.follower with
  | none => s
  | some _ =>
    { ({ s with follower := none } : CoreModes).stopRecordingReplay with
      replayPlaybackStopped := false
      replayCounters := none }

def stopStreamPublishing (s : CoreModes) : CoreModes :=
  { s with
    streamPublisher := false
    replayCounters :=
      if s.replayFileRecorder = none ∧ s.follower = none then none else s.replayCounters }

/-! ## Replay files -/

/-- A seek in the attached replay file.  `loaded` are the counters it leaves, unless it could not
load a keyframe. -/
def goToReplayFrame (loaded : Option Counters) (s : CoreModes) : CoreModes :=
  match s.replayPlayer, loaded with
  | some _, some counters => { s with replayCounters := some counters }
  | _, _ => s

/-- How attaching a replay file ends. -/
inductive AttachOutcome
  /-- The file is for another console, or for another ROM. -/
  | mismatched
  | noFirstKeyframe
  /-- The state of the first keyframe does not load, or no keyframe is found any more. -/
  | cannotSeek (loaded : Option Counters)
  | attached (loaded : Option Counters)

/-- Attach a replay file with so many frames. -/
def attachReplayPlayer (totalFrames : UnsignedInteger) (outcome : AttachOutcome) (s : CoreModes) :
    CoreModes :=
  if s.streamPublisher ∨ s.linkHolding ∨ s.isLinked then s
  else
    match outcome with
    | .mismatched => s
    | .noFirstKeyframe => s.stopRecordingReplay.detachReplayPlayer.detachLiveSource
    | .cannotSeek loaded =>
      let s := s.stopRecordingReplay.detachReplayPlayer.detachLiveSource
      (({ s with
          replayPlayer := some totalFrames
          replayCounters := some OrdMap.empty
          replayPlaybackStopped := false } : CoreModes).goToReplayFrame loaded).detachReplayPlayer
    | .attached loaded =>
      let s := s.stopRecordingReplay.detachReplayPlayer.detachLiveSource
      ({ s with
          replayPlayer := some totalFrames
          replayCounters := some OrdMap.empty
          replayPlaybackStopped := false } : CoreModes).goToReplayFrame loaded

/-- Stop the replay from driving the console; it stays attached. -/
def stopReplayPlayback (s : CoreModes) : CoreModes :=
  if s.isPlayingBack then { s with replayPlaybackStopped := true } else s

def resumeReplayPlayback (loaded : Option Counters) (s : CoreModes) : CoreModes :=
  if s.isReplayPlaybackStopped then
    ({ s with replayPlaybackStopped := false } : CoreModes).goToReplayFrame loaded
  else s

/-- Put a stopped replay back where it resumes from; the user stays in control. -/
def goToReplayResumePoint (loaded : Option Counters) (s : CoreModes) : CoreModes :=
  if s.isReplayPlaybackStopped then s.goToReplayFrame loaded else s

/-- Export a video of the attached replay file, which steps through it. -/
def exportFrames (loaded : Option Counters) (s : CoreModes) : CoreModes :=
  match s.replayPlayer with
  | none => s
  | some _ => ({ s with replayPlaybackStopped := false } : CoreModes).goToReplayFrame loaded

/-! ## Recording -/

/-- Start recording; `starts` unless the files cannot be written. -/
def startRecordingReplay (starts : Bool) (s : CoreModes) : CoreModes :=
  match s.replayConsoleType with
  | none => s
  | some _ =>
    let s := s.stopRecordingReplay.detachReplayPlayer
    if starts then
      { s with
        replayFileRecorder := some .startRecordingReplay
        replayCounters := some OrdMap.empty }
    else s

/-- How resuming a recording ends. -/
inductive ResumeOutcome
  | cannotSeek (loaded : Option Counters)
  /-- The new file cannot be built: the replay is put back, and sought in again. -/
  | cannotBuild (loaded again : Option Counters)
  | resumed (counters : Counters)

/-- Resume a recording from the attached replay file, which is used up. -/
def resumeRecordingReplay (outcome : ResumeOutcome) (s : CoreModes) : CoreModes :=
  match s.replayPlayer with
  | none => s
  | some _ =>
    match outcome with
    | .cannotSeek loaded => s.goToReplayFrame loaded
    | .cannotBuild loaded again => (s.goToReplayFrame loaded).goToReplayFrame again
    | .resumed counters =>
      { s with
        replayPlayer := none
        replayPlaybackStopped := false
        replayCounters := some counters
        replayFileRecorder := some .resumeRecordingReplay }

/-! ## Other players -/

/-- Start publishing the session.  Refused without a console or while a replay is attached. -/
def startStreamPublishing (s : CoreModes) : CoreModes :=
  if s.replayConsoleType = none ∨ s.replayPlayer.isSome ∨ s.follower.isSome then s
  else
    let s := s.stopStreamPublishing
    { s with
      streamPublisher := true
      replayCounters := some (s.replayCounters.getD OrdMap.empty) }

/-- Follow another player's game. -/
def attachLiveReplaySource (compatible : Bool) (s : CoreModes) : CoreModes :=
  if compatible = false ∨ s.streamPublisher then s
  else
    { s.stopRecordingReplay.detachReplayPlayer.detachLiveSource with
      replayCounters := some OrdMap.empty
      replayPlaybackStopped := false
      follower := some ⟨false, false⟩ }

/-- Start the file that was asked for, if one was. -/
def startPendingFollowerRecording (starts : Bool) (s : CoreModes) : CoreModes :=
  match s.follower with
  | some ⟨true, haveState⟩ =>
    { s with
      follower := some ⟨false, haveState⟩
      replayFileRecorder :=
        if starts then some .startRecordingFollowerReplay else s.replayFileRecorder }
  | _ => s

/-- Also write the followed game to a file: at once when there is a state and no frame is in
progress. -/
def startRecordingFollowerReplay (midFrame starts : Bool) (s : CoreModes) : CoreModes :=
  match s.follower with
  | none => s
  | some follower =>
    let s := { s.stopRecordingReplay with follower := some { follower with pendingRecording := true } }
    if follower.haveState ∧ midFrame = false then s.startPendingFollowerRecording starts else s

/-- A snapshot of the game that is followed. -/
def applyStreamSnapshot (loads : Bool) (counters : Counters) (starts : Bool) (s : CoreModes) :
    CoreModes :=
  match s.follower with
  | none => s
  | some follower =>
    if loads then
      let s := { s with
        replayCounters := some counters
        follower := some { follower with haveState := true } }
      if s.replayFileRecorder.isSome then s else s.startPendingFollowerRecording starts
    else s

/-! ## Link cables -/

def linkHold (port : Bool) (s : CoreModes) : CoreModes :=
  if s.isPlayingBack ∨ s.replayPlayer.isSome ∨ s.isLinked ∨ port = false then s
  else { s with linkHolding := true }

def linkRelease (s : CoreModes) : CoreModes := { s with linkHolding := false }

/-- Plug the cable in at the local end; `ready` if nothing else is in the way. -/
def beginLink (ready : Bool) (s : CoreModes) : CoreModes :=
  if s.linkHolding ∧ s.isLinked = false ∧ ready then { s with link := true, linkHolding := false }
  else s

/-- Plug the cable in at the partner's end. -/
def beginLinkPartner (ready : Bool) (s : CoreModes) : CoreModes :=
  if s.isLinked = false ∧ s.follower.isSome ∧ ready then { s with linkPartner := true } else s

def endLink (s : CoreModes) : CoreModes := { s with link := false, linkHolding := false }

def endLinkPartner (s : CoreModes) : CoreModes := { s with linkPartner := false }

/-! ## Counters -/

/-- Add to a counter.  Without counters this panics. -/
def changeReplayCounterMap (name : String) (delta : SignedInteger) (s : CoreModes) :
    Option CoreModes :=
  s.replayCounters.map fun counters ↦
    { s with replayCounters := some (counters.alter name fun
      | some v => v + delta
      | none => delta) }

/-- Modify a counter of the session that is captured. -/
def changeReplayCounter (name : String) (delta : SignedInteger) (s : CoreModes) :
    Option CoreModes :=
  if s.isCapturing then s.changeReplayCounterMap name delta else some s

/-- The replay that drives the console has an `IncrementCounter` packet. -/
def playIncrementCounter (name : String) (delta : SignedInteger) (s : CoreModes) :
    Option CoreModes :=
  if s.isPlayingBack then s.changeReplayCounterMap name delta else some s

/-! ## Runs -/

/-- An operation of a core, with how it ends. -/
inductive Event
  | startRecordingReplay (starts : Bool)
  | resumeRecordingReplay (outcome : ResumeOutcome)
  | stopRecordingReplay
  | forceStopRecordingReplay
  | attachReplayPlayer (totalFrames : UnsignedInteger) (outcome : AttachOutcome)
  | detachReplayPlayer
  | stopReplayPlayback
  | resumeReplayPlayback (loaded : Option Counters)
  | goToReplayResumePoint (loaded : Option Counters)
  | goToReplayFrame (loaded : Option Counters)
  | exportFrames (loaded : Option Counters)
  | startStreamPublishing
  | stopStreamPublishing
  | attachLiveReplaySource (compatible : Bool)
  | detachLiveSource
  | startRecordingFollowerReplay (midFrame starts : Bool)
  | applyStreamSnapshot (loads : Bool) (counters : Counters) (starts : Bool)
  | linkHold (port : Bool)
  | linkRelease
  | beginLink (ready : Bool)
  | beginLinkPartner (ready : Bool)
  | endLink
  | endLinkPartner
  | changeReplayCounter (name : String) (delta : SignedInteger)
  | playIncrementCounter (name : String) (delta : SignedInteger)

/-- Make an operation; `none` is a panic. -/
def step : Event → CoreModes → Option CoreModes
  | .startRecordingReplay starts, s => some (s.startRecordingReplay starts)
  | .resumeRecordingReplay outcome, s => some (s.resumeRecordingReplay outcome)
  | .stopRecordingReplay, s => some s.stopRecordingReplay
  | .forceStopRecordingReplay, s => some s.forceStopRecordingReplay
  | .attachReplayPlayer totalFrames outcome, s => some (s.attachReplayPlayer totalFrames outcome)
  | .detachReplayPlayer, s => some s.detachReplayPlayer
  | .stopReplayPlayback, s => some s.stopReplayPlayback
  | .resumeReplayPlayback loaded, s => some (s.resumeReplayPlayback loaded)
  | .goToReplayResumePoint loaded, s => some (s.goToReplayResumePoint loaded)
  | .goToReplayFrame loaded, s => some (s.goToReplayFrame loaded)
  | .exportFrames loaded, s => some (s.exportFrames loaded)
  | .startStreamPublishing, s => some s.startStreamPublishing
  | .stopStreamPublishing, s => some s.stopStreamPublishing
  | .attachLiveReplaySource compatible, s => some (s.attachLiveReplaySource compatible)
  | .detachLiveSource, s => some s.detachLiveSource
  | .startRecordingFollowerReplay midFrame starts, s =>
    some (s.startRecordingFollowerReplay midFrame starts)
  | .applyStreamSnapshot loads counters starts, s =>
    some (s.applyStreamSnapshot loads counters starts)
  | .linkHold port, s => some (s.linkHold port)
  | .linkRelease, s => some s.linkRelease
  | .beginLink ready, s => some (s.beginLink ready)
  | .beginLinkPartner ready, s => some (s.beginLinkPartner ready)
  | .endLink, s => some s.endLink
  | .endLinkPartner, s => some s.endLinkPartner
  | .changeReplayCounter name delta, s => s.changeReplayCounter name delta
  | .playIncrementCounter name delta, s => s.playIncrementCounter name delta

/-- Make operations one after the other; `none` once one of them panics. -/
def run (events : List Event) (s : CoreModes) : Option CoreModes :=
  events.foldlM (fun s event ↦ step event s) s

theorem run_snoc {s : CoreModes} (events : List Event) (event : Event) :
    run (events ++ [event]) s = (run events s).bind (step event) := by
  rw [run, List.foldlM_append]
  simp [run]

end CoreModes

end SuperShuckie
