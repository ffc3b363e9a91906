import SuperShuckie.CoreThread.Positions

/-!
# Seeks that are asked of a paused core

The user seeks in a replay while the core's thread has a loop of its own: a frame to go to and a
number of frames to step by wait in two atomics, each overwritten by the next, until the thread's
next pass takes them; everything else comes through the queue of commands.

While the timeline is dragged, playback is frozen and a seek only comes near its frame, or shows a
picture that was recorded with the replay.  The frame is remembered then, and sought for good when
the drag ends.

`ExactThread` is what this is for: every seek is exact, and belongs to the replay that it was asked
for.  The two swaps of a pass count as one step: what is stored between them might as well have been
stored before or after.
-/

set_option autoImplicit false

namespace SuperShuckie

namespace CoreThread

/-! ## The core -/

/-- A paused core, and the replay that is attached to it. -/
structure ReplayCore where
  replay : Option SeekableReplay
  played : PlayedCore
  /-- The replay does not drive the console. -/
  replayPlaybackStopped : Bool
  /-- Where a stopped replay goes on. -/
  replayResumePoint : Nat

/-- Most frames that a coarse seek runs on until its picture is complete. -/
def maxCoarseSettleFrames : Nat := 12

/-- `a.saturating_add_signed(b)`. -/
def saturatingAddSigned (a : Nat) (b : Int) : Nat := min (a + b).toNat (2 ^ 64 - 1)

/-- The frame that a coarse seek goes to: as near before its frame as a keyframe gets. -/
def coarseReplayFrame (r : SeekableReplay) (frame : Nat) : Nat :=
  match r.keyframeAtOrBefore (frame - postLoadFrames) with
  | some k => min (saturatingAdd k postLoadFrames) frame
  | none => frame

/-- Run on for some frames, to the end of the replay at most. -/
def PlayedCore.runOn (r : SeekableReplay) (frames : Nat) (c : PlayedCore) : PlayedCore :=
  if c.totalFrames < r.totalFrames ∧ 0 < frames then
    { c with
      totalFrames := min (c.totalFrames + frames) r.totalFrames
      screens := some (min (c.totalFrames + frames) r.totalFrames)
      lastFramePresented := true
      runSerial := c.runSerial + 1 }
  else c

namespace ReplayCore

variable (c : ReplayCore)

/-- `go_to_replay_frame_inner`.  A stopped replay drives the console only during the seek, and goes
on from there. -/
def goToReplayFrameInner (seek : SeekableReplay → PlayedCore → PlayedCore) : ReplayCore :=
  match c.replay with
  | none => c
  | some r =>
    { c with
      played := seek r c.played
      replayResumePoint :=
        if c.replayPlaybackStopped then (seek r c.played).totalFrames else c.replayResumePoint }

def goToReplayFrame (frame : Nat) : ReplayCore :=
  c.goToReplayFrameInner fun r played ↦ played.goToReplayFrame r frame

/-- A seek while the timeline is dragged, which runs `settle` frames on for the sake of its
picture. -/
def goToReplayFrameCoarse (frame settle : Nat) : ReplayCore :=
  c.goToReplayFrameInner fun r played ↦
    (played.goToReplayFrame r (coarseReplayFrame r frame)).runOn r
      (min settle maxCoarseSettleFrames)

def attachReplayPlayer (r : SeekableReplay) : ReplayCore :=
  { c with replay := some r, played := .attached r, replayPlaybackStopped := false }

def detachReplayPlayer : ReplayCore :=
  if c.replay.isNone then c else { c with replay := none, replayPlaybackStopped := false }

/-- Hand the console to the user at the current frame. -/
def stopReplayPlayback : ReplayCore :=
  if c.replay.isSome ∧ ¬ c.replayPlaybackStopped then
    { c with replayPlaybackStopped := true, replayResumePoint := c.played.totalFrames }
  else c

/-- Play a stopped replay on from its resume point. -/
def resumeReplayPlayback : ReplayCore :=
  if c.replay.isSome ∧ c.replayPlaybackStopped then
    { c with replayPlaybackStopped := false }.goToReplayFrame c.replayResumePoint
  else c

/-- Put a stopped replay back to its resume point. -/
def goToReplayResumePoint : ReplayCore :=
  if c.replay.isSome ∧ c.replayPlaybackStopped then c.goToReplayFrame c.replayResumePoint else c

/-- Step by some frames. -/
def advance (delta : Int) : ReplayCore :=
  if delta ≠ 0 then c.goToReplayFrame (saturatingAddSigned c.played.totalFrames delta) else c

end ReplayCore

/-! ## The thread -/

/-- No frame to go to, `u32::MAX`. -/
def noFrame : Nat := 2 ^ 32 - 1

/-- A thread that takes seeks. -/
structure SeekingThread where
  core : ReplayCore
  playbackFrozen : Bool
  coarseSeekWhileFrozen : Bool
  /-- The frame of a seek that has only come near it. -/
  pendingExactFrame : Option Nat
  desiredReplayFrame : Nat
  deltaReplayFrames : Int

/-- What happens to a thread. -/
inductive SeekEvent
  | goToReplayFrame (frame : UInt32)
  | advancePlaybackFrames (amount : Int)
  | setPlaybackFrozen (frozen : Bool)
  | setCoarseSeekWhileFrozen (coarse : Bool)
  | attachReplayPlayer (r : SeekableReplay)
  | detachReplayPlayer
  | stopReplayPlayback
  | resumeReplayPlayback
  | goToReplayResumePoint
  /-- The thread takes what waits for it.  There may be a timeline picture for the frame, and a
  coarse seek may run some frames on. -/
  | pass (thumbnail : Bool) (settle : Nat)

namespace SeekingThread

/-- A thread without a replay. -/
def start (core : ReplayCore) : SeekingThread where
  core := { core with replay := none, replayPlaybackStopped := false }
  playbackFrozen := false
  coarseSeekWhileFrozen := true
  pendingExactFrame := none
  desiredReplayFrame := noFrame
  deltaReplayFrames := 0

variable (t : SeekingThread)

/-- Seeks are coarse while the timeline is dragged. -/
def coarse : Bool := t.playbackFrozen && t.coarseSeekWhileFrozen

/-- The absolute seek of a pass. -/
def seekDesired (thumbnail : Bool) (settle frame : Nat) : SeekingThread :=
  if frame = noFrame then t
  else if t.coarse ∧ thumbnail ∧ t.core.replay.isSome then { t with pendingExactFrame := some frame }
  else
    let core :=
      if t.coarse then t.core.goToReplayFrameCoarse frame settle else t.core.goToReplayFrame frame
    { t with
      core
      pendingExactFrame := if t.coarse ∧ core.played.totalFrames ≠ frame then some frame else none }

/-- The frame to go to and the frames to step by have been taken. -/
def taken : SeekingThread := { t with desiredReplayFrame := noFrame, deltaReplayFrames := 0 }

/-- Take the frame to go to and the frames to step by: the absolute seek applies first. -/
def goToDesiredFrame (thumbnail : Bool) (settle : Nat) : SeekingThread :=
  let sought := t.taken.seekDesired thumbnail settle t.desiredReplayFrame
  { sought with core := sought.core.advance t.deltaReplayFrames }

/-- The drag has ended: its frame is sought for good, unless a newer request waits already. -/
def unfreeze : SeekingThread :=
  { t with
    playbackFrozen := false
    pendingExactFrame := none
    desiredReplayFrame :=
      if t.desiredReplayFrame = noFrame then t.pendingExactFrame.getD noFrame
      else t.desiredReplayFrame }

def setPlaybackFrozen (frozen : Bool) : SeekingThread :=
  if frozen then { t with playbackFrozen := true } else t.unfreeze

def step (event : SeekEvent) : SeekingThread :=
  match event with
  | .goToReplayFrame frame => { t with desiredReplayFrame := frame.toNat }
  | .advancePlaybackFrames amount => { t with deltaReplayFrames := amount }
  | .setPlaybackFrozen frozen => t.setPlaybackFrozen frozen
  | .setCoarseSeekWhileFrozen coarse => { t with coarseSeekWhileFrozen := coarse }
  | .attachReplayPlayer r => { t with core := t.core.attachReplayPlayer r }
  | .detachReplayPlayer =>
    { t with core := t.core.detachReplayPlayer, pendingExactFrame := none }
  | .stopReplayPlayback => { t with core := t.core.stopReplayPlayback }
  | .resumeReplayPlayback => { t with core := t.core.resumeReplayPlayback }
  | .goToReplayResumePoint => { t with core := t.core.goToReplayResumePoint }
  | .pass thumbnail settle => t.goToDesiredFrame thumbnail settle

end SeekingThread

/-! ## What it is for -/

/-- A thread whose seeks are all exact, and go with their replay. -/
structure ExactThread where
  core : ReplayCore
  desired : Option Nat
  delta : Int

namespace ExactThread

/-- A thread without a replay. -/
def start (core : ReplayCore) : ExactThread where
  core := { core with replay := none, replayPlaybackStopped := false }
  desired := none
  delta := 0

variable (e : ExactThread)

/-- The absolute seek of a pass. -/
def seekDesired : ReplayCore :=
  match e.desired with
  | some frame => e.core.goToReplayFrame frame
  | none => e.core

def step (event : SeekEvent) : ExactThread :=
  match event with
  | .goToReplayFrame frame => { e with desired := some frame.toNat }
  | .advancePlaybackFrames amount => { e with delta := amount }
  | .setPlaybackFrozen _ | .setCoarseSeekWhileFrozen _ => e
  | .attachReplayPlayer r => ⟨e.core.attachReplayPlayer r, none, 0⟩
  | .detachReplayPlayer => { e with core := e.core.detachReplayPlayer }
  | .stopReplayPlayback => { e with core := e.core.stopReplayPlayback }
  | .resumeReplayPlayback => { e with core := e.core.resumeReplayPlayback }
  | .goToReplayResumePoint => { e with core := e.core.goToReplayResumePoint }
  | .pass _ _ => ⟨e.seekDesired.advance e.delta, none, 0⟩

end ExactThread

end CoreThread

end SuperShuckie
