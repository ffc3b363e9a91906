import SuperShuckie.Core.Packets

/-!
# The input of a live console

What the user holds, what an external program holds, toggled buttons, rapid fire and presses for a
number of frames are layers over one another.  `updateInput` puts them together and hands them to the
console once before each frame, and again when one of them changes before the frame has begun.

A `LiveCore` is a core that is neither linked nor driven by a replay; it records its game, publishes
it, or both.
-/

set_option autoImplicit false

namespace SuperShuckie

open ByteFormat

/-! ## Inputs -/

/-- An input state. -/
structure Input where
  a : Bool := false
  b : Bool := false
  start : Bool := false
  select : Bool := false
  dUp : Bool := false
  dDown : Bool := false
  dLeft : Bool := false
  dRight : Bool := false
  l : Bool := false
  r : Bool := false
  x : Bool := false
  y : Bool := false
  zl : Bool := false
  zr : Bool := false
  circle : Int8 × Int8 := (0, 0)
  cStick : Int8 × Int8 := (0, 0)
  touch : Option (UInt16 × UInt16) := none
deriving DecidableEq

namespace Input

def isEmpty (input : Input) : Bool := input == {}

/-- `self | rhs`.  Sticks are not bit sets: the first one that is not neutral wins. -/
def or (self rhs : Input) : Input where
  a := self.a || rhs.a
  b := self.b || rhs.b
  start := self.start || rhs.start
  select := self.select || rhs.select
  dUp := self.dUp || rhs.dUp
  dDown := self.dDown || rhs.dDown
  dLeft := self.dLeft || rhs.dLeft
  dRight := self.dRight || rhs.dRight
  l := self.l || rhs.l
  r := self.r || rhs.r
  x := self.x || rhs.x
  y := self.y || rhs.y
  zl := self.zl || rhs.zl
  zr := self.zr || rhs.zr
  circle := if self.circle ≠ (0, 0) then self.circle else rhs.circle
  cStick := if self.cStick ≠ (0, 0) then self.cStick else rhs.cStick
  touch := self.touch <|> rhs.touch

/-- Layers over an input, the first one on top of it. -/
def union (input : Input) (layers : List Input) : Input := layers.foldl or input

end Input

/-- Parameters of rapid fire, and where in its cycle it is. -/
structure RapidFire where
  input : Input
  /-- Frames the buttons are held down between intervals. -/
  holdLength : ℕ+
  /-- Frames the buttons are released between intervals. -/
  interval : ℕ+
  currentFrame : Nat := 0
  totalFrames : Nat := 0
deriving DecidableEq

/-- `hold_length.saturating_add(interval)` -/
def RapidFire.cycle (rf : RapidFire) : Nat := min (rf.holdLength + rf.interval) (2 ^ 64 - 1)

/-- A press and how many more frames it is held for. -/
structure TimedPress where
  input : Input
  framesLeft : Nat
deriving DecidableEq

/-! ## Consoles that are paced -/

/-- The ways to run a console. -/
inductive RunKind where
  /-- As far as the time is ripe for. -/
  | paced
  /-- Without any timing, drawn or not. -/
  | unlocked
  | hidden
deriving DecidableEq

/-- A console with its pacing, and how it encodes an input.  It is in the middle of a frame until
that is completed, and what it is told to hold is not a run. -/
structure PacedCore (C : Type) extends EmulatorCore C where
  run : C → RunTime × C
  runHidden : C → RunTime × C
  encodeInput : Input → Bytes
  frames_run_le : ∀ c, (run c).1.frames ≤ 1
  frames_runHidden_le : ∀ c, (runHidden c).1.frames ≤ 1
  isMidFrame_run : ∀ c, (run c).1.frames ≠ 0 → isMidFrame (run c).2 = false
  isMidFrame_runHidden : ∀ c, (runHidden c).1.frames ≠ 0 → isMidFrame (runHidden c).2 = false
  isMidFrame_setInputEncoded : ∀ input c, isMidFrame (setInputEncoded input c) = isMidFrame c
  unfinished_run : ∀ c, isMidFrame c → (run c).1.frames = 0 → isMidFrame (run c).2
  unfinished_runHidden : ∀ c, isMidFrame c → (runHidden c).1.frames = 0 → isMidFrame (runHidden c).2
  unfinished_runUnlocked : ∀ c, isMidFrame c → (runUnlocked c).1.frames = 0 →
    isMidFrame (runUnlocked c).2

variable {C : Type}

/-- One run of the console. -/
def PacedCore.runAs (E : PacedCore C) : RunKind → C → RunTime × C
  | .paced => E.run
  | .unlocked => E.runUnlocked
  | .hidden => E.runHidden

/-! ## Layers -/

/-- What makes up the input. -/
structure InputLayers where
  /-- What the user holds. -/
  baseInput : Input := {}
  /-- What the user holds from the next frame on. -/
  nextInput : Option Input := none
  rapidFireInput : Option RapidFire := none
  toggledInput : Option Input := none
  /-- What an external program holds. -/
  botInput : Option Input := none
  /-- Presses that no frame has run with yet. -/
  pendingTimedPresses : List TimedPress := []
  /-- Presses held for the frame being run, or about to be. -/
  timedPresses : List TimedPress := []
  /-- The total input that was applied last. -/
  currentInput : Input := {}
  /-- The input for the next frame has been applied. -/
  inputLatched : Bool := false
deriving DecidableEq

namespace InputLayers

/-- The input the next frame gets; the pending presses become active. -/
def computePendingInput (layers : InputLayers) : Input × InputLayers :=
  let baseInput := layers.nextInput.getD layers.baseInput
  let rapid := layers.rapidFireInput.filter fun rf ↦ rf.currentFrame < rf.holdLength
  let timedPresses := layers.timedPresses ++ layers.pendingTimedPresses
  let input := baseInput.union ((rapid.map (·.input)).toList ++ layers.toggledInput.toList ++
    layers.botInput.toList ++ timedPresses.map (·.input))
  (input, { layers with baseInput, nextInput := none, timedPresses, pendingTimedPresses := [] })

/-- Enqueue an input for the next frame. -/
def enqueueInput (input : Input) (layers : InputLayers) : InputLayers :=
  { layers with nextInput := some input }

/-- Set the current rapid fire input, in the middle of a frame or not. -/
def setRapidFireInput (midFrame : Bool) (input : Option RapidFire) (layers : InputLayers) :
    InputLayers :=
  match input with
  | none => { layers with rapidFireInput := none, inputLatched := false }
  | some input =>
    -- The buttons are to go down on the very next frame.
    let reset := if midFrame then input.cycle - 1 else 0
    let currentFrame :=
      match layers.rapidFireInput with
      | some old =>
        if input.holdLength = old.holdLength ∧ input.interval = old.interval then old.currentFrame
        else reset
      | none => reset
    { layers with
      rapidFireInput := some { input with currentFrame, totalFrames := input.cycle }
      inputLatched := false }

/-- Set the current toggled input. -/
def setToggledInput (input : Option Input) (layers : InputLayers) : InputLayers :=
  { layers with toggledInput := input, inputLatched := false }

/-- Set what an external program holds. -/
def setBotInput (input : Option Input) (layers : InputLayers) : InputLayers :=
  { layers with botInput := input.filter (!·.isEmpty), inputLatched := false }

/-- Hold an input for so many frames. -/
def pressForFrames (input : Input) (frames : ℕ+) (layers : InputLayers) : InputLayers :=
  { layers with
    pendingTimedPresses := layers.pendingTimedPresses ++ [⟨input, frames⟩]
    inputLatched := false }

/-- What `do_frame_timekeeping` does with the layers when frames have completed. -/
def framesCompleted (frames : Nat) (layers : InputLayers) : InputLayers :=
  { layers with
    inputLatched := false
    timedPresses := (layers.timedPresses.map fun press ↦
      { press with framesLeft := press.framesLeft - frames }).filter (0 < ·.framesLeft)
    rapidFireInput := layers.rapidFireInput.map fun rf ↦
      { rf with currentFrame := (rf.currentFrame + frames % rf.totalFrames) % rf.totalFrames } }

end InputLayers

/-! ## Live cores -/

/-- A core that runs live. -/
structure LiveCore (C : Type) where
  session : SuperShuckieCore C
  layers : InputLayers
  /-- What a publisher was told, if the game is published. -/
  publisher : Option (List Call)
  /-- What the console was last told to hold. -/
  held : Bytes

namespace LiveCore

variable (E : PacedCore C)

/-- Tell the publisher, if there is one. -/
def publish (calls : List Call) (s : LiveCore C) : LiveCore C :=
  { s with publisher := s.publisher.map (· ++ calls) }

/-- Hand the console its input for the next frame. -/
def updateInput (s : LiveCore C) : LiveCore C :=
  if s.session.isPlayingBack then s
  else if E.isMidFrame s.session.core then s
  -- A paced console is polled many times for each frame.
  else if s.layers.inputLatched ∧ s.layers.nextInput.isNone then s
  else
    let (input, layers) := { s.layers with inputLatched := true }.computePendingInput
    let data := E.encodeInput input
    { s with
      session := { s.session with core := E.setInputEncoded data s.session.core }.record
        [.setInput data]
      layers := { layers with currentInput := input }
      held := data }.publish [.setInput data]

/-- What a publisher is told of completed frames: what came in over the link cable, and the time. -/
def publishFrames (frames : Nat) (now : TimestampMillis) (s : LiveCore C) : LiveCore C :=
  let received := (s.session.takeSerialInBytes E.toEmulatorCore).1
  let s := if received.isEmpty then s else s.publish [.serialIn received]
  if s.session.isPlayingBack then s
  else s.publish (.replicate frames (.nextFrame (s.session.currentTimerMillis now)))

def afterRun (time : RunTime) (env : Surroundings) (s : LiveCore C) : LiveCore C :=
  let s := if time.frames = 0 then s
    else { s.publishFrames E time.frames.toNat env.now with
      layers := s.layers.framesCompleted time.frames.toNat }
  { s with session := s.session.afterRun E.toEmulatorCore time env }

/-- Run the console once. -/
def doRunFn (kind : RunKind) (env : Surroundings) (s : LiveCore C) : LiveCore C :=
  if s.session.replayStalled then s
  else
    let s := s.updateInput E
    if s.session.replayWaiting then s
    else
      let (time, core) := E.runAs kind s.session.core
      { s with session := { s.session with core } }.afterRun E time env

end LiveCore

end SuperShuckie
