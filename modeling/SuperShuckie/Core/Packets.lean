import SuperShuckie.Core.Frames

/-!
# Applying the packets of a replay

What a core does with a packet of the replay that drives it, whether it comes from a file or from
another player.  A core that follows another player mirrors the packet into its own recording.
-/

set_option autoImplicit false

namespace SuperShuckie

open ByteFormat

namespace SuperShuckieCore

variable {C : Type} (E : EmulatorCore C)

/-! ## Speed and states -/

/-- Set the speed multiplier of the game. -/
def setSpeed (speed : Speed) (s : SuperShuckieCore C) : SuperShuckieCore C :=
  { s with gameSpeed := speed }.record [.setSpeed speed]

def matchReplayPlaybackSpeed (s : SuperShuckieCore C) : SuperShuckieCore C :=
  if s.ignoreSpeedChangesInReplays then s else s.setSpeed s.replayPlaybackSpeed

/-- Copy the console's own regenerated output buffers over those of a keyframe that is about to be
loaded while the console is already at its frame. -/
def spliceLiveTransientBuffers (s : SuperShuckieCore C) (state : Bytes) : Bytes :=
  match E.console with
  | none => state
  | some console =>
    let ranges := transientRanges console state
    if ranges.isEmpty then state
    else
      let live := E.createSaveState s.core
      if transientRanges console live ≠ ranges then state
      else
        ranges.foldl (fun spliced r ↦
          overwrite spliced r.start ((live.drop r.start).take (r.stop - r.start))) state

/-- Put the console back on a file replay's keyframe it has just reached. -/
def resyncFromKeyframe (state : Bytes) (s : SuperShuckieCore C) : SuperShuckieCore C :=
  { s with core := (E.loadSaveState (s.spliceLiveTransientBuffers E state) s.core).2 }

/-! ## Packets -/

/-- `WriteMemory`: an address outside of 32 bits is not mapped.  Returns whether it was written. -/
def applyWrite (address : UnsignedInteger) (data : Bytes) (s : SuperShuckieCore C) :
    Bool × SuperShuckieCore C :=
  if address.toNat < 2 ^ 32 then
    match E.writeRam address.toUInt32 data s.core with
    | (true, core) => (true, { s with core })
    | (false, core) => (false, { s with core, replayWriteFailures := s.replayWriteFailures + 1 })
  else (false, { s with replayWriteFailures := s.replayWriteFailures + 1 })

/-- `SerialIn`: replayed into the console's port, if it has one. -/
def applySerialIn (data : Bytes) (s : SuperShuckieCore C) : SuperShuckieCore C :=
  match E.linkPort with
  | none => s
  | some port =>
    match port.queueSerialIn data s.core with
    | (true, core) => { s with core }
    | (false, core) => { s with core, replayWriteFailures := s.replayWriteFailures + 1 }

/-- Mirror a live replay's packet into the follower's own file recording. -/
def followerMirror (packet : Packet) (wrote : Bool) (s : SuperShuckieCore C) : SuperShuckieCore C :=
  match s.follower with
  | none => s
  | some follower =>
    match packet with
    | .changeInput data =>
      { s with follower := some { follower with lastInput := data } }.record [.setInput data]
    | .nextFrame _ => s.record [.nextFrame s.recordingMillis]
    | .writeMemory address data => if wrote then s.record [.writeMemory address data] else s
    | .changeSpeed speed => s.record [.setSpeed speed]
    | .resetConsole => s.record [.resetConsole]
    | .loadSaveState state => s.record [.loadSaveState state]
    | .incrementCounter name delta => s.record [.changeCounter name delta]
    | .serialIn data => s.record [.serialIn data]
    | _ => s

/-- What a packet does to the core, and whether it wrote to the memory. -/
def applyToCore (packet : Packet) (keyframeState : Option Bytes) (s : SuperShuckieCore C) :
    Bool × SuperShuckieCore C :=
  match packet with
  | .nextFrame delta =>
    -- nothing more is read from the replay until this frame has run
    (false, { s with
      totalMilliseconds := s.totalMilliseconds + delta
      replayFramePending := true })
  | .writeMemory address data => s.applyWrite E address data
  | .changeInput data => (false, { s with core := E.setInputEncoded data s.core })
  | .changeSpeed speed => (false, { s with replayPlaybackSpeed := speed }.matchReplayPlaybackSpeed)
  | .resetConsole => (false, { s with core := E.hardReset s.core })
  | .loadSaveState state => (false, { s with core := (E.loadSaveState state s.core).2 })
  | .keyframe .. =>
    match keyframeState with
    | some state =>
      (false, if s.autoResyncKeyframesInReplays then s.resyncFromKeyframe E state else s)
    | none => (false, s)
  | .incrementCounter name delta => (false, s.changeReplayCounterMap name delta)
  | .serialIn data => (false, s.applySerialIn E data)
  | _ => (false, s)

/-- Apply one packet of a replay being played back, from a file or live. -/
def applyPlaybackPacket (packet : Packet) (keyframeState : Option Bytes) (s : SuperShuckieCore C) :
    SuperShuckieCore C :=
  let (wrote, s) := s.applyToCore E packet keyframeState
  s.followerMirror packet wrote

/-! ## Running -/

/-- The counters of a keyframe. -/
def snapshotCounters (metadata : KeyframeMetadata) : OrdMap String SignedInteger :=
  metadata.counters.foldl (fun m c ↦ m.alter c.name fun _ ↦ c.value) OrdMap.empty

/-- Whether the next packets of the replay are to be read now. -/
def readsReplay (s : SuperShuckieCore C) : Bool :=
  !s.replayStalled && !s.replayFramePending && !s.replayPlaybackStopped && !E.isMidFrame s.core

/-- Run the console, unless the replay has nothing to run. -/
def emulate (env : Surroundings) (s : SuperShuckieCore C) : SuperShuckieCore C :=
  if s.replayStalled ∨ s.replayWaiting then s
  else
    let (time, core) := E.runUnlocked s.core
    { s with core }.afterRun E time env

end SuperShuckieCore

namespace Live

/-- Where in a run the core is. -/
inductive Phase
  /-- Between two runs. -/
  | idle
  /-- In the loop that reads the replay. -/
  | reading
  /-- About to run the console. -/
  | running
deriving DecidableEq

end Live

end SuperShuckie
