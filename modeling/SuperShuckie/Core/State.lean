import SuperShuckie.Core.Console
import SuperShuckie.Player.State

/-!
# The state of a core

`SuperShuckieCore` is what a `SuperShuckieCore` keeps besides its console: the replay that is being
recorded, the replay that drives it (a file, or another player's game that it follows), its clocks
and its counters.

A replay is recorded on a thread of its own, which makes the calls it is sent in their order; so a
recording is the recorder it started with and the calls sent to it.
-/

set_option autoImplicit false

namespace SuperShuckie

open ByteFormat

/-- A replay being recorded (`NonBlockingReplayFileRecorder`). -/
structure FileRecorder where
  recorder : Recorder
  /-- The calls sent so far. -/
  calls : List Call

/-- A file recording asked for before there was a state to start it from. -/
structure PendingFollowerRecording where
  metadata : ReplayFileMetadata
  patchData : ByteVec
  settings : RecorderSettings
  finalFile : Sink
  tempFile : Sink
  framesPerKeyframe : UInt64

/-- What a core following another player's game keeps. -/
structure FollowerState where
  /-- The console's current input as the publisher encoded it. -/
  lastInput : InputBuffer
  pendingRecording : Option PendingFollowerRecording
  errors : List String
  /-- Snapshots in a row that would not load. -/
  failedLoads : Nat
  /-- Snapshots applied since it was attached. -/
  snapshotsApplied : Nat

/-- The partner side of a link cable, on the core that follows the partner. -/
structure LinkPartnerState where
  delay : UInt64
  /-- The input of the first `delay` frames. -/
  prefillInput : InputBuffer
  /-- The partner's link frame about to run. -/
  frame : UInt64
  /-- Whether the events for `frame` have been applied. -/
  framePrepared : Bool

/-- A core, with a console of type `C`. -/
structure SuperShuckieCore (C : Type) where
  core : C
  replayFileRecorder : Option FileRecorder
  replayPlayer : Option ReplayFilePlayer
  follower : Option FollowerState
  linkPartner : Option LinkPartnerState
  replayCounters : Option (OrdMap String SignedInteger)
  totalFrames : UInt64
  totalMilliseconds : TimestampMillis
  startingMilliseconds : TimestampMillis
  pausedTimerAt : Option TimestampMillis
  /-- The replay time a follower's own recording started at. -/
  streamTimeOrigin : TimestampMillis
  framesSinceLastKeyframe : UInt64
  framesPerKeyframe : UInt64
  /-- A full keyframe is to be written when the frame in progress completes. -/
  fullKeyframePending : Bool
  gameSpeed : Speed
  replayPlaybackSpeed : Speed
  ignoreSpeedChangesInReplays : Bool
  autoResyncKeyframesInReplays : Bool
  replayStalled : Bool
  /-- A live replay has nothing to run yet. -/
  replayWaiting : Bool
  /-- The replay's packets for the next frame have been read. -/
  replayFramePending : Bool
  replayPlaybackStopped : Bool
  /-- Frame of the replay keyframe the last seek loaded. -/
  replayKeyframeLoaded : UInt64
  replayWriteFailures : Nat
  replayHiddenStateResyncs : Nat

/-- What a run depends on besides the core: the time, and whether the thread that records is too far
behind for another keyframe. -/
structure Surroundings where
  now : TimestampMillis
  keyframesInFlight : Nat

namespace SuperShuckieCore

variable {C : Type}

/-- A core that has just been created, at time `now`. -/
def new (core : C) (now : TimestampMillis) : SuperShuckieCore C :=
  { core
    replayFileRecorder := none
    replayPlayer := none
    follower := none
    linkPartner := none
    replayCounters := none
    totalFrames := 0
    totalMilliseconds := 0
    startingMilliseconds := now
    pausedTimerAt := none
    streamTimeOrigin := 0
    framesSinceLastKeyframe := 0
    framesPerKeyframe := 0
    fullKeyframePending := false
    gameSpeed := Speed.default
    replayPlaybackSpeed := Speed.default
    ignoreSpeedChangesInReplays := false
    autoResyncKeyframesInReplays := false
    replayStalled := false
    replayWaiting := false
    replayFramePending := false
    replayPlaybackStopped := false
    replayKeyframeLoaded := 0
    replayWriteFailures := 0
    replayHiddenStateResyncs := 0 }

/-- Whether an attached replay is driving the emulator. -/
def isPlayingBack (s : SuperShuckieCore C) : Bool :=
  (s.replayPlayer.isSome || s.follower.isSome) && !s.replayPlaybackStopped

/-- The time the replay being recorded is at. -/
def recordingMillis (s : SuperShuckieCore C) : TimestampMillis :=
  s.totalMilliseconds - s.streamTimeOrigin

/-- Make calls of the recorder, if a replay is being recorded (`with_recorder`). -/
def record (calls : List Call) (s : SuperShuckieCore C) : SuperShuckieCore C :=
  { s with
    replayFileRecorder := s.replayFileRecorder.map fun file ↦ { file with calls := file.calls ++ calls } }

/-- The time since the timer was started, or the time it was paused at. -/
def currentTimerMillis (s : SuperShuckieCore C) (now : TimestampMillis) : TimestampMillis :=
  s.pausedTimerAt.getD now - s.startingMilliseconds

/-- `change_replay_counter_map`: add to a counter, which wraps around. -/
def changeReplayCounterMap (name : String) (delta : SignedInteger) (s : SuperShuckieCore C) :
    SuperShuckieCore C :=
  { s with
    replayCounters := s.replayCounters.map fun counters ↦ counters.alter name fun
      | some v => v + delta
      | none => delta }

end SuperShuckieCore

end SuperShuckie
