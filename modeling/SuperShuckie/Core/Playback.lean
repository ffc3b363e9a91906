import SuperShuckie.Core.Packets
import SuperShuckie.Player.Cursor

/-!
# Playing a replay file

A core that plays a replay file reads its packets up to the next frame marker and runs the frame.
Passing a keyframe, it may load the keyframe's state again.  A seek moves the player to a keyframe
and loads it.

The loop that reads is given one turn at a time (`ReplayTurn`).  A panic of the player would end the
program; here it counts as a file that cannot be read.
-/

set_option autoImplicit false

namespace SuperShuckie

open ByteFormat

/-- How the program prints an error of a player. -/
def ReplayFileReadError.debug : ReplayFileReadError → String
  | .invalidReplayFile explanation =>
    "InvalidReplayFile \x7b explanation: " ++ explanation.quote ++ " \x7d"
  | .brokenPacket explanation => "BrokenPacket \x7b explanation: " ++ explanation.quote ++ " \x7d"
  | .other explanation => "Other \x7b explanation: " ++ explanation.quote ++ " \x7d"

/-- What a turn of the loop that reads a replay file does. -/
structure ReplayTurn (C : Type) where
  /-- Whether the loop goes on. -/
  goesOn : Bool
  core : SuperShuckieCore C
  /-- A keyframe that was passed, and the state that was loaded for it. -/
  resynced : Option (KeyframeMetadata × Bytes)

namespace SuperShuckieCore

variable {C : Type} (E : EmulatorCore C) (x : Externals)

/-! ## Reading -/

/-- The player has moved on. -/
def withPlayer (player : ReplayFilePlayer) (s : SuperShuckieCore C) : SuperShuckieCore C :=
  { s with replayPlayer := some player }

/-- The end of the replay, or of what can be read of it. -/
def stall (s : SuperShuckieCore C) : SuperShuckieCore C := { s with replayStalled := true }

/-- A keyframe has been passed.  The packets of delta keyframes come without a state, so it is the
player's current one that is loaded: always, or when the console finds that it has parted ways with
the recording. -/
def passKeyframe (metadata : KeyframeMetadata) (state : Bytes) (s : SuperShuckieCore C) :
    ReplayTurn C :=
  if s.autoResyncKeyframesInReplays then
    ⟨true, s.resyncFromKeyframe E state, some (metadata, state)⟩
  else
    match E.checkReplayKeyframe state s.core with
    | (true, core) =>
      let s := { s with core, replayHiddenStateResyncs := s.replayHiddenStateResyncs + 1 }
      ⟨true, s.resyncFromKeyframe E state, some (metadata, state)⟩
    | (false, core) => ⟨true, { s with core }, none⟩

/-- One turn of the loop in `handle_replay`. -/
def handleReplayTurn (s : SuperShuckieCore C) : ReplayTurn C :=
  match s.replayPlayer with
  | none => ⟨false, s, none⟩
  | some player =>
    match player.nextPacket x with
    | .ok none player => ⟨false, (s.withPlayer player).stall, none⟩
    | .ok (some (.keyframe metadata _)) player =>
      (s.withPlayer player).passKeyframe E metadata player.currentKeyframeState
    | .ok (some packet) player =>
      let s := (s.withPlayer player).applyPlaybackPacket E packet none
      match packet with
      | .nextFrame _ => ⟨false, s, none⟩
      | _ => ⟨true, s, none⟩
    | .error _ player => ⟨false, (s.withPlayer player).stall, none⟩
    | .abort => ⟨false, s.stall, none⟩

/-! ## Seeking -/

/-- Move a player to the last keyframe at or before a frame, which only ever goes down.  Returns its
frame. -/
def seekKeyframe : Nat → UnsignedInteger → ReplayFilePlayer →
    Except String UnsignedInteger × ReplayFilePlayer
  | 0, frame, player => (.error s!"no keyframe at or before frame {frame}", player)
  | fuel + 1, frame, player =>
    match player.goToKeyframe x frame.toNat with
    | .ok _ player => (.ok frame, player)
    | .error (.noSuchKeyframe _ best) player =>
      if frame.toNat ≤ best then (.error s!"no keyframe at or before frame {frame}", player)
      else seekKeyframe fuel (UInt64.ofNat best) player
    | .error (.readError error) player =>
      (.error s!"cannot read the keyframe at frame {frame}: {error.debug}", player)
    | .abort => (.error s!"cannot read the keyframe at frame {frame}", player)

/-- Everything recorded alongside a keyframe whose state has been loaded. -/
def adoptKeyframe (core : C) (metadata : KeyframeMetadata) (s : SuperShuckieCore C) :
    SuperShuckieCore C :=
  { s with
    -- save states do not carry the buttons held
    core := E.setInputEncoded metadata.input (E.adoptReplayKeyframe core)
    replayKeyframeLoaded := metadata.elapsedFrames
    totalFrames := metadata.elapsedFrames
    totalMilliseconds := metadata.elapsedMillis
    replayStalled := false
    replayFramePending := false
    framesSinceLastKeyframe := 0
    replayCounters := some (snapshotCounters metadata)
    replayPlaybackSpeed := metadata.speed }.matchReplayPlaybackSpeed

/-- Load the keyframe that the player has just handed out. -/
def loadKeyframe (frame : UnsignedInteger) (metadata : KeyframeMetadata)
    (player : ReplayFilePlayer) (s : SuperShuckieCore C) : Except String Unit × SuperShuckieCore C :=
  let state := player.currentKeyframeState
  let loaded :=
    if player.keyframeTransientsStale then E.loadSaveStateWithStaleOutput state s.core
    else E.loadSaveState state s.core
  match loaded with
  | (.error e, core) =>
    (.error (s!"replay file is broken (cannot load the save state at frame {frame}): " ++ e),
      { s with core }.stall)
  | (.ok _, core) => (.ok (), s.adoptKeyframe E core metadata)

/-- Move to the last keyframe at or before a frame, and load it.  No frame is run. -/
def loadReplayKeyframeAtOrBefore (frame : UnsignedInteger) (s : SuperShuckieCore C) :
    Except String Unit × SuperShuckieCore C :=
  match s.replayPlayer with
  | none => (.error "no replay is attached", s)
  | some player =>
    match seekKeyframe x (frame.toNat + 1) frame player with
    | (.error e, player) => (.error e, (s.withPlayer player).stall)
    | (.ok frame, player) =>
      match player.nextPacket x with
      | .ok (some (.keyframe metadata _)) player =>
        (s.withPlayer player).loadKeyframe E frame metadata player
      | .ok _ player | .error _ player =>
        (.error s!"replay file is broken (no keyframe found at frame {frame})",
          (s.withPlayer player).stall)
      | .abort =>
        (.error s!"replay file is broken (no keyframe found at frame {frame})",
          (s.withPlayer player).stall)

end SuperShuckieCore

end SuperShuckie
