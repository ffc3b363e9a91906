import SuperShuckie.Core.Packets
import SuperShuckie.Live.Queue

/-!
# Following another player's game

A core that follows another player reads their packets from the live queue, up to the next frame
marker, and runs the frame.  A snapshot puts the console where the publisher's is.  The core may
write a replay file of its own: it starts from a snapshot, or from the console's state, counts time
from there, and gets everything the core reads.

The queue itself is the subject of `Live.Queue`; here a run is given what its reads return.
-/

set_option autoImplicit false

namespace SuperShuckie

open ByteFormat Live

namespace FollowerState

def noteFailedLoad (e : String) (f : FollowerState) : FollowerState :=
  { f with
    errors := if f.failedLoads = 0 then
        f.errors ++ [s!"the other player's state could not be loaded (asking for another): {e}"]
      else f.errors
    failedLoads := min (f.failedLoads + 1) (2 ^ 32 - 1) }

def noteSnapshot (metadata : KeyframeMetadata) (f : FollowerState) : FollowerState :=
  { f with
    failedLoads := 0
    lastInput := metadata.input
    snapshotsApplied := f.snapshotsApplied + 1 }

def noteFileError (e : ReplayFileWriteError) (f : FollowerState) : FollowerState :=
  { f with errors := f.errors ++ [s!"the replay file could not be started: {e.toText}"] }

end FollowerState

namespace SuperShuckieCore

variable {C : Type} (E : EmulatorCore C) (x : Externals)

/-! ## The follower's own file -/

/-- Start the file that was asked for, if one was, from a state.  Its time starts at zero here. -/
def startPendingFollowerRecording (state : Bytes) (s : SuperShuckieCore C) :
    SuperShuckieCore C × Except ReplayFileWriteError Unit :=
  match s.follower with
  | none => (s, .ok ())
  | some follower =>
    match follower.pendingRecording with
    | none => (s, .ok ())
    | some pending =>
      let s := { s with follower := some { follower with pendingRecording := none } }
      match Recorder.newWithMetadata x pending.metadata pending.patchData pending.settings 0
          follower.lastInput s.replayPlaybackSpeed state pending.finalFile pending.tempFile with
      | .error e _ => (s, .error e)
      | .abort => (s, .ok ())
      | .ok recorder _ =>
        ({ s with
          streamTimeOrigin := s.totalMilliseconds
          framesPerKeyframe := pending.framesPerKeyframe
          framesSinceLastKeyframe := 0
          fullKeyframePending := false
          replayFileRecorder := some ⟨recorder, []⟩ }, .ok ())

/-- Stop recording; the file is closed.  The counters are those of the stream, and stay. -/
def stopRecordingReplay (s : SuperShuckieCore C) : SuperShuckieCore C :=
  match s.replayFileRecorder with
  | none => s
  | some _ =>
    { s with
      replayFileRecorder := none
      replayCounters := if s.follower.isSome then s.replayCounters else none }

/-- Also write the followed game to a replay file of its own: from the next snapshot on, or right
away when one has been applied and the console sits at a frame boundary. -/
def startRecordingFollowerReplay (recording : PendingFollowerRecording)
    (s : SuperShuckieCore C) : SuperShuckieCore C × Except ReplayFileWriteError Unit :=
  match s.follower with
  | none => (s, .error (.badInput "not following another player's game"))
  | some follower =>
    let metadata := { recording.metadata with
      cropStart := none
      cropEnd := none
      timerOffset := none }
    let s := { s.stopRecordingReplay with
      follower := some { follower with pendingRecording := some { recording with metadata } } }
    if 0 < follower.snapshotsApplied ∧ E.isMidFrame s.core = false then
      s.startPendingFollowerRecording x (E.createSaveState s.core)
    else (s, .ok ())

/-! ## Snapshots -/

/-- The value of a counter that may not be there. -/
def counterValue (counters : OrdMap String SignedInteger) (name : String) : SignedInteger :=
  (counters.get? name).getD 0

/-- The calls that take the file's counters from those before a snapshot to those after it. -/
def counterChanges (previous : OrdMap String SignedInteger) (metadata : KeyframeMetadata) :
    List Call :=
  (metadata.counters.filter fun c ↦ c.value - counterValue previous c.name ≠ 0).map fun c ↦
    .changeCounter c.name (c.value - counterValue previous c.name)

/-- A snapshot that would not load: what was queued after it is useless, but the next one may load.
The first of a run of them is reported. -/
def noteFailedLoad (e : String) (s : SuperShuckieCore C) : SuperShuckieCore C :=
  { s with follower := s.follower.map (FollowerState.noteFailedLoad e) }

/-- The clock of the file keeps counting when the publisher's went back. -/
def keepFileClock (before : TimestampMillis) (elapsedMillis : TimestampMillis)
    (s : SuperShuckieCore C) : SuperShuckieCore C :=
  if s.replayFileRecorder.isSome ∧ s.recordingMillis.toInt64 < before.toInt64 then
    { s with streamTimeOrigin := elapsedMillis - before }
  else s

/-- A snapshot has been loaded: the counters, the speed and the input are the publisher's. -/
def adoptSnapshot (metadata : KeyframeMetadata) (s : SuperShuckieCore C) : SuperShuckieCore C :=
  { s with
    replayCounters := some (snapshotCounters metadata)
    replayPlaybackSpeed := metadata.speed
    replayFramePending := false
    replayStalled := false
    framesSinceLastKeyframe := 0
    follower := s.follower.map (FollowerState.noteSnapshot metadata) }

/-- The console is put where the publisher's is, and the clock with it. -/
def moveToSnapshot (core : C) (metadata : KeyframeMetadata) (s : SuperShuckieCore C) :
    SuperShuckieCore C :=
  let moved : SuperShuckieCore C := { s with
    -- save states do not carry the buttons held
    core := E.setInputEncoded metadata.input core
    totalFrames := metadata.elapsedFrames
    totalMilliseconds := metadata.elapsedMillis }
  (moved.keepFileClock s.recordingMillis metadata.elapsedMillis).adoptSnapshot metadata

/-- What a snapshot that has been loaded is to the file: it jumps too, with a state load, and then a
full keyframe so that the jump is seekable. -/
def recordSnapshot (previousCounters : OrdMap String SignedInteger) (metadata : KeyframeMetadata)
    (state : Bytes) (s : SuperShuckieCore C) : SuperShuckieCore C :=
  if s.replayFileRecorder.isSome then
    s.record ([.loadSaveState state, .setInput metadata.input, .setSpeed metadata.speed] ++
      counterChanges previousCounters metadata ++
      [.insertKeyframe state s.recordingMillis .full])
  else
    match s.startPendingFollowerRecording x state with
    | (s, .ok _) => s
    | (s, .error e) => { s with follower := s.follower.map (FollowerState.noteFileError e) }

/-- Load a snapshot the publisher sent. -/
def applyStreamSnapshot (metadata : KeyframeMetadata) (state : Bytes) (s : SuperShuckieCore C) :
    SuperShuckieCore C :=
  match E.loadSaveState state s.core with
  | (.error e, core) => { s with core }.noteFailedLoad e
  | (.ok _, core) =>
    (s.moveToSnapshot E core metadata).recordSnapshot x (s.replayCounters.getD OrdMap.empty)
      metadata state

/-! ## Reading -/

/-- One turn of the loop that reads the live replay: what the read returned is applied.  Returns
whether the loop goes on. -/
def readLive (poll : LivePoll) (s : SuperShuckieCore C) : Bool × SuperShuckieCore C :=
  match poll with
  | .waiting => (false, { s with replayWaiting := true })
  | .ended => (false, { s with replayWaiting := false, replayStalled := true })
  -- a hash that differs asks for a snapshot, and playing continues meanwhile
  | .item (.syncHash ..) => (true, s)
  | .item (.packet (.keyframe metadata state)) =>
    let s := s.applyStreamSnapshot E x metadata state
    (!s.replayStalled, s)
  | .item (.packet packet) =>
    let s := s.applyPlaybackPacket E packet none
    match packet with
    | .nextFrame _ => (false, { s with replayWaiting := false })
    | _ => (true, s)

/-- Read the live replay up to the next frame marker.  The reads return `polls`, and then that there
is nothing more yet. -/
def handleLiveReplay : List LivePoll → SuperShuckieCore C → SuperShuckieCore C
  | [], s => (s.readLive E x .waiting).2
  | poll :: polls, s =>
    match s.readLive E x poll with
    | (true, s) => handleLiveReplay polls s
    | (false, s) => s

/-- One run of a core that follows another player and is not linked (`do_run_fn`): the replay drives
it, so the user's input and writes do nothing. -/
def runFollowing (polls : List LivePoll) (env : Surroundings) (s : SuperShuckieCore C) :
    SuperShuckieCore C :=
  if s.linkPartner.isSome then s
  else (if s.readsReplay E then s.handleLiveReplay E x polls else s).emulate E env

end SuperShuckieCore

end SuperShuckie
