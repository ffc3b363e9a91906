import SuperShuckie.Packet.Types
import SuperShuckie.VideoExport.Pictures

/-!
# Seeking in a replay for a picture

A core that plays a replay reads the packets of the next frame and runs the console until that frame
is complete; only the frames that somebody looks at need to be drawn.  A seek loads a keyframe and
runs on from there.  The console says what its picture lacks after that: output that a stale keyframe
left out, or what was drawn in a frame whose drawing was skipped.

A replay file is given by what a player reads from it (`Footage`).  A loop that runs the console ends
once enough frames are complete; `none` is one that is still running after `fuel` runs.
-/

set_option autoImplicit false

namespace SuperShuckie

namespace VideoExport

open ByteFormat

/-! ## Consoles and files -/

/-- A console whose pictures are looked at. -/
structure PicturedCore (C : Type) where
  /-- Run the console, drawn or not.  Returns how many frames have been completed. -/
  run : Bool → C → Nat × C
  isMidFrame : C → Bool
  /-- What the packets that are read before a frame do to the console. -/
  play : List Packet → C → C
  loadSaveState : Bytes → C → Except String Unit × C
  /-- Load a keyframe whose output buffers are those of an earlier one. -/
  loadSaveStateWithStaleOutput : Bytes → C → Except String Unit × C
  adoptReplayKeyframe : C → C
  setInputEncoded : Bytes → C → C
  screens : C → List ScreenData
  frameRate : C → UInt32 × UInt32
  /-- Whether the frame last run lacks output that a stale keyframe left out. -/
  showsStaleOutput : C → Bool
  /-- How many frames ago the oldest draw was skipped that nothing has redrawn since. -/
  skippedDrawsLeftStale : C → Option Nat
  /-- How many frames before its target a seek draws. -/
  seekDrawTailFrames : C → Nat

/-- A keyframe as a player hands it out. -/
structure Keyframe where
  elapsedFrames : Nat
  input : Bytes
  state : Bytes
  /-- Its output buffers are those of an earlier keyframe. -/
  stale : Bool

/-- Load the state of a keyframe. -/
def PicturedCore.loadKeyframeState {C : Type} (E : PicturedCore C) (keyframe : Keyframe) (core : C) :
    Except String Unit × C :=
  if keyframe.stale then E.loadSaveStateWithStaleOutput keyframe.state core
  else E.loadSaveState keyframe.state core

/-- What comes of looking for the keyframe at a frame, and reading it. -/
inductive KeyframeRead
  | keyframe (keyframe : Keyframe)
  | noSuchKeyframe (best : Nat)
  | readError (error : String)
  /-- There is no keyframe where one should be. -/
  | noKeyframeFound

/-- A replay file as a player reads it. -/
structure Footage where
  totalFrames : Nat
  /-- The frames that have keyframes, in order. -/
  keyframes : List Nat
  read : Nat → KeyframeRead
  /-- The packets that are read at a frame, all of them or those behind its keyframe, and whether
  the marker of the next frame was read. -/
  packetsAt : Nat → Bool → List Packet × Bool

/-- A core with a replay attached. -/
structure ReplayCore (C : Type) where
  core : C
  totalFrames : Nat
  replayStalled : Bool
  /-- The packets of the next frame have been read. -/
  replayFramePending : Bool
  replayPlaybackStopped : Bool
  /-- The player is right behind a keyframe. -/
  behindKeyframe : Bool
  /-- Frame of the last keyframe that was loaded. -/
  replayKeyframeLoaded : Nat
  replaySeekRedraws : Nat
deriving DecidableEq

/-- `a.saturating_add(b)` of frames. -/
def saturatingAdd (a b : Nat) : Nat := min (a + b) (2 ^ 64 - 1)

namespace ReplayCore

variable {C : Type} (E : PicturedCore C) (r : Footage)

/-! ## Running -/

/-- Read the packets of the next frame, if it has not begun. -/
def handleReplay (s : ReplayCore C) : ReplayCore C :=
  if s.replayFramePending ∨ s.replayPlaybackStopped ∨ E.isMidFrame s.core then s
  else
    let (packets, marker) := r.packetsAt s.totalFrames s.behindKeyframe
    let s := { s with core := E.play packets s.core, behindKeyframe := false }
    if marker then { s with replayFramePending := true } else { s with replayStalled := true }

/-- Run the console, and count the frames that it completed. -/
def runCore (drawn : Bool) (s : ReplayCore C) : ReplayCore C :=
  let (frames, core) := E.run drawn s.core
  { s with
    core
    totalFrames := s.totalFrames + frames
    replayFramePending := if frames = 0 then s.replayFramePending else false }

/-- `run_unlocked` and `run_unlocked_hidden`. -/
def runUnlocked (drawn : Bool) (s : ReplayCore C) : ReplayCore C :=
  if s.replayStalled then s
  else
    let s := s.handleReplay E r
    if s.replayStalled then s else s.runCore E drawn

/-! ## Seeking -/

/-- Fewest frames that are run between the keyframe of a seek and its target. -/
def postLoadFrames : Nat := 3

/-- The keyframes before the one it loaded that an exact seek starts again from, in turn. -/
def staleFallbackKeyframes : List Nat := [1, 4]

/-- The keyframe has been loaded: everything recorded alongside it is restored. -/
def adoptKeyframe (keyframe : Keyframe) (core : C) (s : ReplayCore C) : ReplayCore C :=
  { s with
    core := E.setInputEncoded keyframe.input (E.adoptReplayKeyframe core)
    replayKeyframeLoaded := keyframe.elapsedFrames
    totalFrames := keyframe.elapsedFrames
    replayStalled := false
    replayFramePending := false
    behindKeyframe := true }

/-- Load the nearest keyframe at or before a frame.  No frame is run. -/
def loadReplayKeyframeAtOrBefore : Nat → Nat → ReplayCore C → Except String Unit × ReplayCore C
  | 0, frame, s =>
    (.error s!"no keyframe at or before frame {frame}", { s with replayStalled := true })
  | fuel + 1, frame, s =>
    match r.read frame with
    | .noSuchKeyframe best =>
      if frame ≤ best then
        (.error s!"no keyframe at or before frame {frame}", { s with replayStalled := true })
      else loadReplayKeyframeAtOrBefore fuel best s
    | .readError error =>
      (.error (s!"cannot read the keyframe at frame {frame}: " ++ error),
        { s with replayStalled := true })
    | .noKeyframeFound =>
      (.error s!"replay file is broken (no keyframe found at frame {frame})",
        { s with replayStalled := true })
    | .keyframe keyframe =>
      match E.loadKeyframeState keyframe s.core with
      | (.error e, core) =>
        (.error (s!"replay file is broken (cannot load the save state at frame {frame}): " ++ e),
          { s with core, replayStalled := true })
      | (.ok _, core) => (.ok (), s.adoptKeyframe E keyframe core)

/-- Run until `target` frames are complete; which of them are drawn may depend on how many are. -/
def runFrames (drawn : Nat → Bool) (target : Nat) : Nat → ReplayCore C → Option (ReplayCore C)
  | 0, s => if s.totalFrames < target ∧ s.replayStalled = false then none else some s
  | fuel + 1, s =>
    if s.totalFrames < target ∧ s.replayStalled = false then
      runFrames drawn target fuel (s.runUnlocked E r (drawn s.totalFrames))
    else some s

/-- Run the replay until `desired` frames are complete and the next one is drawn; the frames from
`drawFrom` on are drawn as well. -/
def runReplayToDrawingFrom (fuel desired drawFrom : Nat) (s : ReplayCore C) :
    Option (ReplayCore C) :=
  let lead := E.seekDrawTailFrames s.core
  s.runFrames E r
    (fun total ↦ !(decide (saturatingAdd total lead < desired) && decide (total < drawFrom)))
    (desired + 1) fuel

def runReplayTo (fuel desired : Nat) (s : ReplayCore C) : Option (ReplayCore C) :=
  s.runReplayToDrawingFrom E r fuel desired (2 ^ 64 - 1)

/-- Run the replay from a keyframe that has just been loaded, and once more with what was skipped
drawn if that is missing. -/
def runReplayToCompletePicture (fuel desired : Nat) (s : ReplayCore C) :
    Option (Except String Unit × ReplayCore C) := do
  let s ← s.runReplayTo E r fuel desired
  match E.skippedDrawsLeftStale s.core with
  | none => some (.ok (), s)
  | some framesAgo =>
    if s.replayStalled then some (.ok (), s)
    else
      let drawFrom := s.totalFrames - framesAgo
      let s := { s with replaySeekRedraws := s.replaySeekRedraws + 1 }
      match s.loadReplayKeyframeAtOrBefore E r (s.replayKeyframeLoaded + 1)
        s.replayKeyframeLoaded with
      | (.error e, s) => some (.error e, s)
      | (.ok _, s) => do
        let s ← s.runReplayToDrawingFrom E r fuel desired drawFrom
        some (.ok (), s)

/-- The keyframe that is `back` keyframes before another. -/
def keyframeBefore (keyframe back : Nat) : Option Nat :=
  (r.keyframes.filter (· < keyframe)).reverse[back - 1]?

/-- The loop of an exact seek whose picture lacks output: start again from earlier keyframes. -/
def fallBack (fuel desired keyframe : Nat) :
    List Nat → ReplayCore C → Option (Except String Unit × ReplayCore C)
  | [], s => some (.ok (), s)
  | back :: rest, s =>
    if E.showsStaleOutput s.core then
      match keyframeBefore r keyframe back with
      | none => some (.ok (), s)
      | some earlier =>
        match s.loadReplayKeyframeAtOrBefore E r (earlier + 1) earlier with
        | (.error _, s) =>
          -- Unreadable: settle for the picture the first keyframe gave.
          match s.loadReplayKeyframeAtOrBefore E r (keyframe + 1) keyframe with
          | (.error e, s) => some (.error e, s)
          | (.ok _, s) => do
            let s ← s.runReplayTo E r fuel desired
            some (.ok (), s)
        | (.ok _, s) => do
          let s ← s.runReplayTo E r fuel desired
          fallBack fuel desired keyframe rest s
    else some (.ok (), s)

/-- The seek itself, to an exact frame. -/
def seekInReplay (fuel frame desired : Nat) (s : ReplayCore C) :
    Option (Except String Unit × ReplayCore C) := do
  let desired := min desired (r.totalFrames - 1)
  if r.totalFrames ≤ desired then some (.ok (), s)
  else
    match s.loadReplayKeyframeAtOrBefore E r (frame + 1) frame with
    | (.error e, s) => some (.error e, s)
    | (.ok _, s) => do
      let (result, s) ← s.runReplayToCompletePicture E r fuel desired
      match result with
      | .error e => some (.error e, s)
      | .ok _ =>
        if E.showsStaleOutput s.core then
          fallBack E r fuel desired s.replayKeyframeLoaded staleFallbackKeyframes s
        else some (.ok (), s)

/-- Seek to a frame, with the replay driving. -/
def goToReplayFrame (fuel frame : Nat) (s : ReplayCore C) :
    Option (Except String Unit × ReplayCore C) :=
  s.seekInReplay E r fuel (frame - postLoadFrames) (frame - 1)

end ReplayCore

end VideoExport

end SuperShuckie
