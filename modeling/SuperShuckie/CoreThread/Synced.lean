import SuperShuckie.CoreThread.Positions

/-!
# A replay that is driven by a target time

Replays played side by side are kept on one timer: a thread with a replay to compare publishes no
clock of its own, but runs its replay until the replay's time reaches a target that somebody else
sets.  It seeks when the target has gone back past the frame before, or lies far ahead with a
keyframe on the way.

A pass of the thread first hands on what the screens show (`refreshScreenData`), then does one of
these (`runOneSynced`).  The pass ends after some turns of its loop, as many as its time allows.
-/

set_option autoImplicit false

namespace SuperShuckie

namespace CoreThread

/-! ## Times -/

/-- `x as i64`. -/
def asI64 (x : UInt64) : Int := if x.toNat < 2 ^ 63 then x.toNat else x.toNat - 2 ^ 64

/-- The value of an operation on `i64`; `none` is an overflow. -/
def checkedI64 (x : Int) : Option Int := if -2 ^ 63 ≤ x ∧ x < 2 ^ 63 then some x else none

/-- A replay file whose frames do not go back in time. -/
structure TimedReplay extends SeekableReplay where
  /-- The replay's time when that many frames have been run, in milliseconds. -/
  millis : Nat → UInt64
  mono : ∀ {f g : Nat}, f ≤ g → millis f ≤ millis g

/-- The time of a frame, as a thread compares it. -/
def TimedReplay.time (r : TimedReplay) (frame : Nat) : Int := asI64 (r.millis frame)

/-- The last keyframe at or before a time. -/
def TimedReplay.replayKeyframeAtOrBeforeMillis (r : TimedReplay) (millis : Nat) : Option Nat :=
  (r.keyframes.takeWhile fun k ↦ decide ((r.millis k).toNat ≤ millis)).getLast?

/-- The time a synced core is to show. -/
structure ReplaySyncTarget where
  millis : Int
  fits : -2 ^ 63 ≤ millis ∧ millis < 2 ^ 63

namespace ReplaySyncTarget

/-- Stored while there is no target. -/
def hold : ReplaySyncTarget := ⟨-2 ^ 63, by decide⟩

def set (millis : Int) (fits : -2 ^ 63 ≤ millis ∧ millis < 2 ^ 63) : ReplaySyncTarget :=
  ⟨max millis (-2 ^ 63 + 1), by omega⟩

/-- The current target, `none` while holding. -/
def get (target : ReplaySyncTarget) : Option Int :=
  if target.millis ≠ hold.millis then some target.millis else none

end ReplaySyncTarget

/-! ## The thread -/

/-- A synced core's bookkeeping. -/
structure SyncLoopState where
  /-- The time of the frame before the current one, while known. -/
  prevMillis : Option Int
  /-- The target the last seek was made for. -/
  seekedFor : Option Int
  /-- How far the last frame moved the replay's time. -/
  lastDelta : Int
deriving DecidableEq

/-- A thread with a replay to compare. -/
structure SyncedThread where
  core : PlayedCore
  sync : SyncLoopState
  /-- The frame whose picture was handed on last. -/
  published : Option Nat
  publishedRunSerial : Nat
deriving DecidableEq

/-- A thread whose replay has been attached while it was paused. -/
def SyncedThread.start (r : TimedReplay) (published : Option Nat) : SyncedThread where
  core := .attached r.toSeekableReplay
  sync := ⟨none, none, 16⟩
  published
  publishedRunSerial := 0

/-- How a turn of a pass goes. -/
inductive Turn
  /-- A frame is run, after enough time since the last one that was drawn or not. -/
  | frame (drawDue : Bool)
  /-- The pass's time is over before a frame is complete, or even before anything has run. -/
  | cut (begun : Bool)

/-- What a pass depends on besides its thread. -/
structure PassInput where
  target : ReplaySyncTarget
  /-- The thread is not paused. -/
  running : Bool
  /-- The turns that the pass has time for. -/
  turns : List Turn

/-- What a pass does. -/
inductive PassKind
  | parked
  | seeked
  | ran
deriving DecidableEq

namespace SyncedThread

variable (r : TimedReplay)

/-- `get_recording_milliseconds`: once a frame has begun, the time is that of the frame. -/
def current (s : SyncedThread) : Int :=
  r.time (if s.core.replayFramePending then s.core.totalFrames + 1 else s.core.totalFrames)

/-- Hand on what the screens show, if the last run has drawn something. -/
def refreshScreenData (running : Bool) (s : SyncedThread) : SyncedThread :=
  if running ∧ s.core.replayFramePending then s
  else if s.core.runSerial = s.publishedRunSerial then s
  else if s.core.lastFramePresented then
    { s with publishedRunSerial := s.core.runSerial, published := s.core.screens }
  else { s with publishedRunSerial := s.core.runSerial }

/-- The frame that a seek for a target asks for: a few frames past the keyframe, or the first. -/
def seekFrame (target : Int) : Nat :=
  match r.replayKeyframeAtOrBeforeMillis (max target 0).toNat with
  | some k => if 0 < k then saturatingAdd k postLoadFrames else 0
  | none => 0

/-- Put the replay as near to its target as a keyframe gets. -/
def seekSynced (target : Int) (s : SyncedThread) : SyncedThread :=
  let core := s.core.goToReplayFrame r.toSeekableReplay (seekFrame r target)
  { core
    sync := { s.sync with prevMillis := none, seekedFor := some target }
    published := core.screens
    publishedRunSerial := core.runSerial }

/-- An earlier frame may reach the target too.  After a seek the time of the frame before is not
known; the frame that the seek landed on stands until the target goes back further. -/
def PassedBy (target : Int) (sync : SyncLoopState) : Prop :=
  match sync.prevMillis with
  | some prev => target ≤ prev
  | none => ∀ seekedFor ∈ sync.seekedFor, target < seekedFor

instance (target : Int) : (sync : SyncLoopState) → Decidable (PassedBy target sync)
  | ⟨some prev, _, _⟩ => inferInstanceAs (Decidable (target ≤ prev))
  | ⟨none, seekedFor, _⟩ => inferInstanceAs (Decidable (∀ t ∈ seekedFor, target < t))

/-- The target has gone back past the frame before. -/
def WentBack (target : Int) (s : SyncedThread) : Prop :=
  target < s.current r ∧ PassedBy target s.sync

instance (target : Int) (s : SyncedThread) : Decidable (s.WentBack r target) :=
  inferInstanceAs (Decidable (_ ∧ _))

def syncSeekAheadMillis : Int := 3000

def syncSeekMinSkipFrames : Nat := 120

/-- The target lies far enough ahead that a keyframe saves frames on the way.  `ahead` is how
far. -/
def JumpAhead (target ahead : Int) (s : SyncedThread) : Prop :=
  syncSeekAheadMillis < ahead ∧ s.core.replayStalled = false ∧
    ∃ k ∈ r.replayKeyframeAtOrBeforeMillis (max target 0).toNat,
      saturatingAdd s.core.totalFrames syncSeekMinSkipFrames < k

instance (target ahead : Int) (s : SyncedThread) : Decidable (s.JumpAhead r target ahead) :=
  inferInstanceAs (Decidable (_ ∧ _ ∧ ∃ k ∈ r.replayKeyframeAtOrBeforeMillis _, _))

/-- A frame that has been run, drawn or not, when the time was `before`. -/
def ranFrame (drawn : Bool) (before delta : Int) (s : SyncedThread) : SyncedThread :=
  { s with
    core := { s.core with
      totalFrames := s.core.totalFrames + 1
      replayFramePending := false
      screens := if drawn then some (s.core.totalFrames + 1) else s.core.screens
      lastFramePresented := drawn
      runSerial := s.core.runSerial + 1 }
    sync := { s.sync with prevMillis := some before, lastDelta := max delta 1 } }

/-- Run a frame, to be drawn or not. -/
def runFrame (drawn : Bool) (s : SyncedThread) : Option SyncedThread :=
  (checkedI64 (r.time (s.core.totalFrames + 1) - s.current r)).map fun delta ↦
    s.ranFrame drawn (s.current r) delta

/-- Read on past the last frame: nothing is run. -/
def stall (s : SyncedThread) : SyncedThread :=
  { s with core := { s.core with replayStalled := true, lastFramePresented := false } }

/-- Run a part of a frame. -/
def beginFrame (s : SyncedThread) : SyncedThread :=
  { s with
    core := { s.core with
      replayFramePending := true
      lastFramePresented := false
      runSerial := s.core.runSerial + 1 } }

/-- The loop of a pass: a frame that is expected to reach the target is drawn, and one now and then
on the way.  Some consoles draw every frame, whatever they are asked for. -/
def runTurns (drawsAll : Bool) (target : Int) : List Turn → SyncedThread → Option SyncedThread
  | [], s => some s
  | turn :: turns, s => do
    let before := s.current r
    if target ≤ before ∨ s.core.replayStalled then return s
    let reached ← checkedI64 (before + s.sync.lastDelta)
    match turn with
    | .cut false => return s
    | .cut true => return if s.core.totalFrames < r.totalFrames then s.beginFrame else s.stall
    | .frame drawDue =>
      if s.core.totalFrames < r.totalFrames then
        runTurns drawsAll target turns
          (← s.runFrame r (decide (target ≤ reached) || drawDue || drawsAll))
      else return s.stall

/-- Follow the target: seek, run frames until its time is reached, or park. -/
def runOneSynced (drawsAll : Bool) (input : PassInput) (s : SyncedThread) :
    Option (PassKind × SyncedThread) :=
  match input.target.get with
  | none => some (.parked, s)
  | some target =>
    let current := s.current r
    if s.WentBack r target then some (.seeked, s.seekSynced r target)
    else do
      let ahead ← checkedI64 (target - current)
      if s.JumpAhead r target ahead then return (.seeked, s.seekSynced r target)
      if target ≤ current ∨ s.core.replayStalled then return (.parked, s)
      return (.ran, ← s.runTurns r drawsAll target input.turns)

/-- One pass of the thread.  `none` is an overflow. -/
def pass (drawsAll : Bool) (input : PassInput) (s : SyncedThread) :
    Option (PassKind × SyncedThread) :=
  (s.refreshScreenData input.running).runOneSynced r drawsAll input

/-- The thread before each of its passes. -/
def passes (drawsAll : Bool) (inputs : Nat → PassInput) (s : SyncedThread) :
    Nat → Option SyncedThread
  | 0 => some s
  | n + 1 => (passes drawsAll inputs s n).bind fun s ↦
      (s.pass r drawsAll (inputs n)).map Prod.snd

end SyncedThread

end CoreThread

end SuperShuckie
