import SuperShuckie.FrameServer.Protocol
import SuperShuckie.Lib.Fuel
import SuperShuckie.Lib.LittleEndian

/-!
# The frame server

The serve loop takes one request after the other and walks a core to the frames asked for.  While it
walks, it polls for newer requests, which supersede the one it works on.

The core is a parameter (`ServedCore`), and so is what `Open` does with the files it is given.  What
arrives is a list of batches: a poll takes what is left of the first one, and a blocking read takes
the first message that there is.  Every timing of the messages is such a list.
-/

set_option autoImplicit false

namespace SuperShuckie.FrameServer

open ByteFormat

/-- What the server uses of a core that plays a recording. -/
structure ServedCore (C : Type) where
  totalFrames : C → UInt64
  isReplayStalled : C → Bool
  lastFramePresented : C → Bool
  showsStaleOutput : C → Bool
  drawLeadFrames : C → UInt64
  runUnlocked : C → C
  runUnlockedHidden : C → C
  runUnlockedAudible : C → C
  goToReplayKeyframe : UInt64 → C → Except String UInt64 × C
  goToReplayFrame : UInt64 → C → Except String Unit × C
  /-- The screens composited in a layout. -/
  compositeScreens : UInt8 → C → List UInt32
  readRam : UInt32 → Nat → C → Option Bytes
  statsJson : C → String
  audioEnabled : C → Bool
  enableAudio : C → C
  /-- Give it a ring that takes its samples. -/
  installAudio : C → C
  /-- Make room in the ring for some milliseconds, and empty it. -/
  clearAudio : UInt32 → C → C
  /-- Take all samples out of the ring. -/
  readAudio : C → List Int16 × C

/-- One opened ROM and recording. -/
structure Session (C : Type) where
  /-- `none` when the ROM did not match. -/
  core : Option C
  layout : UInt8
  /-- Pictures in the source. -/
  frames : UInt64
  fps : UInt32 × UInt32
  /-- The frames emulated when the picture on the screens was drawn, if they hold a drawn one. -/
  drawn : Option UInt64
  /-- Whether the core has a ring. -/
  audio : Bool
  /-- The recording's keyframes, in order. -/
  keyframes : List UInt64

/-- What a message was sent for. -/
inductive Sent
  /-- The request that is being worked on. -/
  | answer (reply : Reply)
  /-- A message that did not decode. -/
  | complaint (message : String)
deriving DecidableEq

structure Server (C : Type) where
  channel : List (List Inbound)
  /-- Requests taken off the channel while polling. -/
  pending : List Request
  session : Option (Session C)
  /-- What has been sent so far. -/
  out : List Sent

/-- Why a walk stopped short of its target. -/
inductive Stop
  /-- A newer request, a `cancel` for this one, or `close` arrived. -/
  | superseded
  | failed (message : String)

abbrev ServerAction (C : Type) := Act Stop (Server C)

/-- A frame this far ahead, or nearer, is reached by stepping. -/
def stepLimit : UInt64 := 240

/-- A keyframe this far ahead, or nearer, is stepped through. -/
def nearKeyframe : UInt64 := 16

/-- The channel is checked every this many runs of a walk. -/
def pollEvery : UInt32 := 8

/-- Frames emulated at least after loading a keyframe. -/
def postLoadFrames : UInt64 := 3

def serverName : String := "supershuckie-frame-server 0.5.3"

/-- The consoles whose recordings can be served. -/
def consoleNames : List String :=
  ["Game Boy", "Super Game Boy 2", "Game Boy Color", "Game Boy Advance", "Nintendo DS"]

/-- `a.saturating_sub(b)`. -/
def saturatingSub (a b : UInt64) : UInt64 := if b ≤ a then a - b else 0

/-- How many frames must have been emulated for the screens to hold a picture. -/
def pictureOf (index : UInt64) : UInt64 := max index 1

/-- The last of some keyframes, in order, at or before a frame. -/
def keyframeAtOrBefore (keyframes : List UInt64) (frame : UInt64) : Option UInt64 :=
  (keyframes.filter (· ≤ frame)).getLast?

/-- A newer request that ends the work on the request `id`. -/
def Request.supersedes (id : UInt32) : Request → Bool
  | .frame .. | .run .. | .memory .. | .stats .. | .close => true
  | .cancel cancelled => cancelled = id
  | _ => false

variable {C : Type} (E : ServedCore C)

/-! ## Replies and requests -/

def Server.send (sent : Sent) (σ : Server C) : Server C := { σ with out := σ.out ++ [sent] }

/-- Reply to the request that is being worked on. -/
def reply (r : Reply) : ServerAction C Unit := Act.modify (Server.send (.answer r))

/-- Take what has arrived: requests wait, and malformed messages are answered.  The end of the input
is treated like a `close`, and nothing comes after it. -/
def takeArrived : List Inbound → Server C → Server C
  | [], σ => σ
  | .request request :: items, σ => takeArrived items { σ with pending := σ.pending ++ [request] }
  | .malformed message :: items, σ => takeArrived items (σ.send (.complaint message))
  | .ended :: _, σ => { σ with pending := σ.pending ++ [.close] }

/-- Take everything that has arrived off the channel, and say whether the request `id` has been
superseded by any of it. -/
def poll (id : UInt32) : ServerAction C Bool := do
  Act.modify fun σ ↦ takeArrived (σ.channel.headD []) { σ with channel := σ.channel.tail }
  let σ ← Act.get
  pure (σ.pending.any (Request.supersedes id))

/-! ## The session -/

/-- The open session, which a request checks that it has. -/
def session : ServerAction C (Session C) := do
  let σ ← Act.get
  match σ.session with
  | some s => pure s
  | none => Act.abort

/-- Its core. -/
def core : ServerAction C C := do
  match (← session).core with
  | some c => pure c
  | none => Act.abort

def modifySession (f : Session C → Session C) : ServerAction C Unit :=
  Act.modify fun σ ↦ { σ with session := σ.session.map f }

def setCore (c : C) : ServerAction C Unit := modifySession fun s ↦ { s with core := some c }

def setDrawn (drawn : Option UInt64) : ServerAction C Unit := modifySession fun s ↦ { s with drawn }

/-- Run a step of the core that may fail. -/
def attemptCore {α : Type} (f : C → Except String α × C) : ServerAction C α := do
  let (result, c) := f (← core)
  setCore c
  match result with
  | .ok a => pure a
  | .error message => Act.fail (.failed message)

/-! ## Positioning -/

/-- Load the keyframe that a seek to `target` would. -/
def loadKeyframeBefore (target : UInt64) : ServerAction C Unit := do
  setDrawn none
  let _ ← attemptCore (E.goToReplayKeyframe (saturatingSub target postLoadFrames))
  pure ()

/-- One turn of the walk of hidden frames, after `runs` runs. -/
def stepHiddenTurn (id : UInt32) (target : UInt64) (runs : UInt32) :
    ServerAction C (UInt32 ⊕ Unit) := do
  let c ← core
  if target ≤ E.totalFrames c then pure (.inr ())
  else if E.isReplayStalled c then
    Act.fail (.failed s!"the replay ended at frame {E.totalFrames c}")
  else
    setDrawn none
    setCore (E.runUnlockedHidden c)
    let runs := runs + 1
    if runs % pollEvery = 0 then
      if ← poll id then Act.fail .superseded else pure (.inl runs)
    else pure (.inl runs)

/-- Run hidden frames up to `target`, checking for a superseding request every few runs. -/
def stepHiddenTo (id : UInt32) (target : UInt64) (fuel : Nat) : ServerAction C Unit :=
  Act.loop (stepHiddenTurn E id target) fuel 0

/-- One turn of drawing the next frame. -/
def drawTurn (target : UInt64) (_ : Unit) : ServerAction C (Unit ⊕ Unit) := do
  let c ← core
  if target ≤ E.totalFrames c then pure (.inr ())
  else if E.isReplayStalled c then
    Act.fail (.failed s!"the replay ended at frame {E.totalFrames c}")
  else
    setCore (E.runUnlocked c)
    pure (.inl ())

/-- Draw the frame that brings the core to `target` emulated frames. -/
def drawNext (target : UInt64) (fuel : Nat) : ServerAction C Unit := do
  setDrawn none
  Act.loop (drawTurn E target) fuel ()
  if E.lastFramePresented (← core) then setDrawn (some target)
  else Act.fail (.failed s!"the core did not draw frame {target}")

/-- Whether a keyframe is loaded on the way to `target`: unless it is a short way ahead, and then
too if a keyframe lies well past where the core is. -/
def loadsKeyframe (keyframes : List UInt64) (cur target : UInt64) : Bool :=
  !(decide (cur < target) && decide (target - cur ≤ stepLimit)) ||
    (keyframeAtOrBefore keyframes (saturatingSub target postLoadFrames)).any fun k ↦
      cur + nearKeyframe < k

/-- Seek as `go_to_replay_frame` does: the keyframe just loaded left buffers out that the game has
not rebuilt yet. -/
def drawFromEarlier (target : UInt64) : ServerAction C Unit := do
  setDrawn none
  attemptCore (E.goToReplayFrame target)
  let c ← core
  if E.totalFrames c = target ∧ E.lastFramePresented c then setDrawn (some target)
  else Act.fail (.failed s!"the core did not draw frame {target}")

/-- Make the screens hold the picture after `target` emulated frames. -/
def positionDrawn (id : UInt32) (target : UInt64) (fuel : Nat) : ServerAction C Unit := do
  let s ← session
  let c ← core
  let cur := E.totalFrames c
  if cur = target ∧ s.drawn = some target then pure ()
  else
    let load := loadsKeyframe s.keyframes cur target
    Act.when load (loadKeyframeBefore E target)
    -- the frames that the core needs drawn before the target are left to `drawNext`
    let lead := E.drawLeadFrames (← core)
    stepHiddenTo E id (saturatingSub (target - 1) lead) fuel
    drawNext E target fuel
    let c ← core
    Act.when (load ∧ E.showsStaleOutput c) (drawFromEarlier E target)

/-- Bring the core to exactly `target` emulated frames without drawing anything. -/
def positionHidden (id : UInt32) (target : UInt64) (fuel : Nat) : ServerAction C Unit := do
  let cur := E.totalFrames (← core)
  if cur = target then pure ()
  else
    Act.when (¬ (cur < target ∧ target - cur ≤ stepLimit)) (loadKeyframeBefore E target)
    stepHiddenTo E id target fuel

/-! ## Requests -/

/-- Why there is no usable core, if there is none. -/
def usable (σ : Server C) : Option String :=
  match σ.session with
  | none => some "no source is open (send Open first)"
  | some s =>
    if s.core.isNone then some "the ROM does not match the recording" else none

/-- The reply for a walk that stopped short. -/
def Stop.reply (id : UInt32) : Stop → Reply
  | .superseded => .cancelled id
  | .failed message => .error id message

/-- Composite the screens and send them as a picture. -/
def sendFrame (id : UInt32) (index : UInt64) : ServerAction C Unit := do
  let s ← session
  let c ← core
  reply (.frame id index ((E.compositeScreens s.layout c).flatMap fun word ↦ leBytes 4 word.toNat))

/-- Start on a request: unless there is a core and nothing supersedes it, it is answered at once. -/
def whenUsable (id : UInt32) (work : ServerAction C Unit) : ServerAction C Unit := do
  let σ ← Act.get
  match usable σ with
  | some message => reply (.error id message)
  | none =>
    if ← poll id then reply (.cancelled id) else work

/-- Produce a picture and then do something with it. -/
def afterDrawing (id : UInt32) (index : UInt64) (fuel : Nat) (work : ServerAction C Unit) :
    ServerAction C Unit := do
  match ← Act.attempt (positionDrawn E id (pictureOf index) fuel) with
  | .ok _ => work
  | .error stop => reply (stop.reply id)

def frame (id : UInt32) (index : UInt64) (fuel : Nat) : ServerAction C Unit :=
  whenUsable id do
    let frames := (← session).frames
    if frames ≤ index then
      reply (.error id s!"frame {index} is past the end ({frames} frames)")
    else afterDrawing E id index fuel (sendFrame E id index)

/-- The pictures of a run, of which `count` are left. -/
def runFrom (id : UInt32) (fuel : Nat) : Nat → UInt64 → ServerAction C Unit
  | 0, _ => reply (.done id)
  | count + 1, index => do
    match ← Act.attempt (positionDrawn E id (pictureOf index) fuel) with
    | .ok _ =>
      sendFrame E id index
      if ← poll id then reply (.cancelled id) else runFrom id fuel count (index + 1)
    | .error stop => reply (stop.reply id)

def run (id : UInt32) (start stop : UInt64) (fuel : Nat) : ServerAction C Unit :=
  whenUsable id do
    let frames := (← session).frames
    if frames < stop ∨ stop < start then
      reply (.error id s!"range {start}..{stop} is not inside the {frames} frames")
    else runFrom E id fuel (stop.toNat - start.toNat) start

/-- One turn of running frames that are heard, after `runs` runs. -/
def audibleTurn (id : UInt32) (stop : UInt64) (runs : UInt32) :
    ServerAction C (UInt32 ⊕ Unit) := do
  let c ← core
  if stop ≤ E.totalFrames c then pure (.inr ())
  else if E.isReplayStalled c then
    Act.fail (.failed s!"the replay ended at frame {E.totalFrames c}")
  else
    let c := E.runUnlockedAudible c
    setCore c
    setDrawn (if E.lastFramePresented c then some (E.totalFrames c) else none)
    let runs := runs + 1
    if runs % pollEvery = 0 then
      if ← poll id then Act.fail .superseded else pure (.inl runs)
    else pure (.inl runs)

/-- The milliseconds that some frames take, and a second of slack, as the ring is told. -/
def audioMillis (fps : UInt32 × UInt32) (frames : UInt32) : UInt32 :=
  let (num, den) := fps
  let millis := (frames.toUInt64 * 1000 * den.toUInt64).toNat
  let rate := (max num 1).toNat
  let millis := UInt64.ofNat ((millis + rate - 1) / rate) + 1000
  if millis.toNat < 2 ^ 32 then millis.toUInt32 else 0xFFFFFFFF

/-- Give the core an empty ring with room for some frames. -/
def prepareAudio (frames : UInt32) : ServerAction C Unit := do
  let c ← core
  Act.when (E.audioEnabled c = false) (setCore (E.enableAudio c))
  let s ← session
  Act.when (s.audio = false) do
    setCore (E.installAudio (← core))
    modifySession fun s ↦ { s with audio := true }
  setCore (E.clearAudio (audioMillis s.fps frames) (← core))

/-- The sound of picture `i` is what the run that produced it emitted. -/
def audio (id : UInt32) (firstFrame : UInt64) (frames : UInt32) (fuel : Nat) :
    ServerAction C Unit :=
  whenUsable id do
    let total := (← session).frames
    if total ≤ firstFrame ∨ total - firstFrame < frames.toUInt64 then
      reply (.error id s!"audio range {firstFrame}+{frames} is not inside the {total} frames")
    else
      let start := pictureOf firstFrame - 1
      match ← Act.attempt (positionHidden E id start fuel) with
      | .error stop => reply (stop.reply id)
      | .ok _ =>
        prepareAudio E frames
        match ← Act.attempt (Act.loop (audibleTurn E id (start + frames.toUInt64)) fuel 0) with
        | .error stop => reply (stop.reply id)
        | .ok _ =>
          let (samples, c) := E.readAudio (← core)
          setCore c
          reply (.audio id firstFrame frames samples)

/-- The bytes of some blocks; a block that cannot be read is zeros. -/
def readBlocks (c : C) (blocks : List (UInt32 × UInt32)) : Bytes :=
  blocks.flatMap fun block ↦
    (E.readRam block.1 block.2.toNat c).getD (List.replicate block.2.toNat 0)

def memory (id : UInt32) (index : UInt64) (blocks : List (UInt32 × UInt32)) (fuel : Nat) :
    ServerAction C Unit :=
  whenUsable id do
    let frames := (← session).frames
    let total := (blocks.map fun block ↦ block.2.toNat).sum
    if frames ≤ index then
      reply (.error id s!"frame {index} is past the end ({frames} frames)")
    else if maxMemoryBytes < total then
      reply (.error id s!"memory request of {total} bytes is more than {maxMemoryBytes}")
    else
      afterDrawing E id index fuel do
        let c ← core
        reply (.memory id index (readBlocks E c blocks))

def stats (id : UInt32) (index : UInt64) (fuel : Nat) : ServerAction C Unit :=
  whenUsable id do
    let frames := (← session).frames
    if frames ≤ index then
      reply (.error id s!"frame {index} is past the end ({frames} frames)")
    else
      afterDrawing E id index fuel do
        let c ← core
        reply (.stats id index (E.statsJson c))

/-! ## The serve loop -/

/-- What `Open` makes of its files: what the source is like, and the session with it. -/
abbrev SourceOpener (C : Type) := String → String → UInt8 → Bool → Except String (Info × Session C)

/-- How the server ends. -/
inductive Ending
  | exited (code : UInt8)
  /-- It waits for input, and none comes. -/
  | blocked
deriving DecidableEq

/-- Handle a request.  Returns the exit code, if the server ends. -/
def handle (opener : SourceOpener C) (fuel : Nat) : Request → ServerAction C (Option UInt8)
  | .hello protocol =>
    if protocol = protocolVersion then do
      reply (.hello protocolVersion serverName consoleNames)
      pure none
    else do
      reply (.error 0
        s!"this server speaks protocol {protocolVersion}, the client asked for {protocol}")
      pure (some 1)
  | .openSource rom replay layout audio => do
    -- whatever was open is let go of first
    Act.modify fun σ ↦ { σ with session := none }
    match opener rom replay layout audio with
    | .ok (info, s) =>
      Act.modify fun σ ↦ { σ with session := some s }
      reply (.info info)
    | .error message => reply (.error 0 message)
    pure none
  | .frame id index => do
    frame E id index fuel
    pure none
  | .run id start stop => do
    run E id start stop fuel
    pure none
  | .audio id firstFrame frames => do
    audio E id firstFrame frames fuel
    pure none
  | .memory id index blocks => do
    memory E id index blocks fuel
    pure none
  | .stats id index => do
    stats E id index fuel
    pure none
  | .cancel _ => pure none
  | .close => pure (some 0)

/-- Look for a request, or the end of the input, among messages.  Returns it, what is left after it,
and the malformed messages before it. -/
def receiveBatch : List Inbound → Option (Except Ending Request × List Inbound) × List Sent
  | [] => (none, [])
  | .request request :: items => (some (.ok request, items), [])
  | .malformed message :: items =>
    let (found, complaints) := receiveBatch items
    (found, .complaint message :: complaints)
  | .ended :: _ => (some (.error (.exited 0), []), [])

/-- Wait for a request.  The malformed messages before it are answered. -/
def receive : List (List Inbound) → Except Ending Request × List (List Inbound) × List Sent
  | [] => (.error .blocked, [], [])
  | batch :: batches =>
    match receiveBatch batch with
    | (some (found, items), complaints) => (found, items :: batches, complaints)
    | (none, complaints) =>
      let (found, channel, more) := receive batches
      (found, channel, complaints ++ more)

/-- The next request to handle: what polling already took off the channel first, then a blocking
read. -/
def nextRequest : ServerAction C (Except Ending Request) := do
  let σ ← Act.get
  match σ.pending with
  | request :: pending =>
    Act.modify fun σ ↦ { σ with pending }
    pure (.ok request)
  | [] =>
    let (found, channel, complaints) := receive σ.channel
    Act.modify fun σ ↦ { σ with channel, out := σ.out ++ complaints }
    pure found

/-- One turn of the serve loop. -/
def serveTurn (opener : SourceOpener C) (fuel : Nat) (_ : Unit) :
    ServerAction C (Unit ⊕ Ending) := do
  match ← nextRequest with
  | .error ending => pure (.inr ending)
  | .ok request =>
    match ← handle E opener fuel request with
    | some code => pure (.inr (.exited code))
    | none => pure (.inl ())

/-- `run_loop`. -/
def runLoop (opener : SourceOpener C) (fuel : Nat) : ServerAction C Ending :=
  Act.loop (serveTurn E opener fuel) fuel ()

/-- A server that has just been started, and the messages that it will get. -/
def Server.start (channel : List (List Inbound)) : Server C := ⟨channel, [], none, []⟩

end SuperShuckie.FrameServer
