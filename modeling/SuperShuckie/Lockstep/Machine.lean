import SuperShuckie.Lib.OrdMap
import SuperShuckie.Packet.Types

/-!
# A machine that runs a linked pair

Two players link their consoles.  Each player's machine runs both: its own console and its copy of
the partner's.  What a console is given before a frame (the events of the link frame) is scheduled
`delay` frames ahead on its own machine and sent to the other one.

Frame numbers are unbounded here.  A machine keeps three logs that it never reads: the writes and
resets that came up on it (`raised`), the events of the frames it has scheduled (`scheduled`), and
what it has done with the pair (`moves`).
-/

set_option autoImplicit false

namespace SuperShuckie

namespace Lockstep

open ByteFormat

/-! ## Consoles -/

/-- Why a link operation failed. -/
inductive LinkError
  | incompatiblePartner
  | notConnected
  | badSerialData (what : String)
  /-- Both consoles of the pair are waiting for each other. -/
  | deadlock
  | emulator (what : String)
deriving DecidableEq

def LinkError.display : LinkError → String
  | .incompatiblePartner => "the other console cannot be linked to this one"
  | .notConnected => "the link port is not connected"
  | .badSerialData what => "the recorded link traffic is malformed: " ++ what
  | .deadlock => "both linked consoles are waiting on each other"
  | .emulator what => "the emulator failed: " ++ what

/-- The two consoles of a pair: the interleave is stated in terms of these, so that both machines run
the same one. -/
inductive Side
  | first
  | second
deriving DecidableEq

def Side.other : Side → Side
  | .first => .second
  | .second => .first

/-- What an event does not change: whose turn it is, and that a console is between frames. -/
structure Undisturbed {C : Type} (linkTime : C → Nat) (isAsleep isMidFrame : C → Bool) (f : C → C) :
    Prop where
  linkTime_eq : ∀ c, linkTime (f c) = linkTime c
  isAsleep_eq : ∀ c, isAsleep (f c) = isAsleep c
  isMidFrame_eq : ∀ c, isMidFrame c = false → isMidFrame (f c) = false

/-- A console with a link port. -/
structure LinkedCore (C : Type) where
  /-- Run a step of the console with another one at the other end of the cable, which is not run.
  Returns how many frames have been completed. -/
  stepLinked : C → C → Except LinkError (Nat × C × C)
  linkTime : C → Nat
  isAsleep : C → Bool
  isMidFrame : C → Bool
  setInputEncoded : Bytes → C → C
  /-- Write to the RAM; whether it could. -/
  writeRam : UInt32 → Bytes → C → Bool × C
  hardReset : C → C
  syncHash : C → Option Bytes
  /-- The hash of some slices. -/
  hashSlices : List Bytes → Bytes
  frames_le : ∀ {c d n c' d'}, stepLinked c d = .ok (n, c', d') → n ≤ 1
  isMidFrame_stepLinked : ∀ {c d n c' d'}, stepLinked c d = .ok (n, c', d') → n ≠ 0 →
    isMidFrame c' = false
  isMidFrame_other : ∀ {c d n c' d'}, stepLinked c d = .ok (n, c', d') →
    isMidFrame d' = isMidFrame d
  setInput_undisturbed : ∀ data, Undisturbed linkTime isAsleep isMidFrame (setInputEncoded data)
  writeRam_undisturbed : ∀ address data,
    Undisturbed linkTime isAsleep isMidFrame fun c ↦ (writeRam address data c).2
  hardReset_undisturbed : Undisturbed linkTime isAsleep isMidFrame hardReset

namespace LinkedCore

variable {C : Type} (E : LinkedCore C)

/-- Which console steps next: the one that is behind, unless it sleeps. -/
def secondRunsNext (first second : C) : Except LinkError Bool :=
  match E.isAsleep first, E.isAsleep second with
  | true, true => .error .deadlock
  | true, false => .ok true
  | false, true => .ok false
  | false, false => .ok (decide (E.linkTime second < E.linkTime first))

/-- Write to the RAM, if the address is one. -/
def writeMemory (address : UnsignedInteger) (data : Bytes) (c : C) : C :=
  if address.toNat < 2 ^ 32 then (E.writeRam address.toUInt32 data c).2 else c

/-- Apply an event to the local console. -/
def applyScheduled (c : C) : Packet → C
  | .resetConsole => E.hardReset c
  | .changeInput data => E.setInputEncoded data c
  | .writeMemory address data => E.writeMemory address data c
  | _ => c

/-- Apply an event that the partner's machine sent to the copy of their console. -/
def applyReceived (c : C) : Packet → C
  | .noOp => c
  | .changeInput data => E.setInputEncoded data c
  | .writeMemory address data => E.writeMemory address data c
  | .resetConsole => E.hardReset c
  -- Not something a link frame may carry.
  | _ => c

/-- The hash of both consoles' work RAM. -/
def pairHash (first second : C) : Bytes :=
  E.hashSlices [(E.syncHash first).getD (.replicate 32 0), (E.syncHash second).getD (.replicate 32 0)]

end LinkedCore

/-! ## Link frames -/

/-- One link frame's worth of a console's events, as sent between the machines. -/
structure LinkFrame where
  events : List Packet
  /-- The sender's recording clock when it sent the frame. -/
  elapsedMillis : TimestampMillis
  /-- The sender's pair hash for a frame of the first console, if one is due. -/
  pairHash : Option (Nat × Bytes)

/-- Most link frames an inbox holds ahead of the frame being run. -/
def maxInboxAheadFrames : Nat := 600

/-- Where the partner's link frames arrive. -/
structure LinkInbox where
  frames : OrdMap Nat LinkFrame
  /-- Frames below are moot. -/
  applied : Nat
  ended : Bool

namespace LinkInbox

/-- A frame that has been run, or is too far ahead. -/
def refuses (inbox : LinkInbox) (frame : Nat) : Bool :=
  decide (frame < inbox.applied ∨ inbox.applied + maxInboxAheadFrames < frame)

def push (frame : Nat) (linkFrame : LinkFrame) (inbox : LinkInbox) : LinkInbox :=
  if inbox.refuses frame then inbox
  else { inbox with frames := inbox.frames.insert frame linkFrame }

def take (frame : Nat) (inbox : LinkInbox) : Option (LinkFrame × LinkInbox) :=
  match inbox.frames.get? frame with
  | none => none
  | some linkFrame =>
    -- Anything older is moot.
    some (linkFrame, { inbox with
      frames  := inbox.frames.filter fun other ↦ decide (frame < other)
      applied := frame + 1 })

end LinkInbox

/-- Why a link ended on its own. -/
inductive LinkFailure
  /-- The machines computed different pair hashes for a frame of the first console. -/
  | pairHashMismatch (frame : Nat)
  | partnerEnded
  | timeout
  | emulator (what : String)
deriving DecidableEq

/-! ## A machine -/

/-- A console of the pair, the link frame it is about to run, and whether the events of that have been
applied. -/
structure Seat (C : Type) where
  core : C
  frame : Nat
  prepared : Bool

/-- Something done with the pair. -/
inductive Move
  /-- The events of a frame were applied. -/
  | prepare (side : Side) (frame : Nat) (events : List Packet)
  | step (side : Side) (frames : Nat)
deriving DecidableEq

/-- Pair hashes remembered on each side while waiting for the other side's. -/
def pairHashWindow : Nat := 8

def pairHashIntervalFrames : Nat := 60

/-- A machine that runs a linked pair. -/
structure Machine (C : Type) where
  /-- Which of the consoles is the local one. -/
  side : Side
  seats : Side → Seat C
  delay : Nat
  /-- The input the partner held when the cable went in. -/
  prefillInput : Bytes
  /-- Events scheduled for link frames not yet run. -/
  queue : OrdMap Nat (List Packet)
  /-- The link frame the next local event is scheduled for. -/
  nextSendFrame : Nat
  inbox : LinkInbox
  partnerMillis : TimestampMillis
  /-- What has been sent and has not arrived. -/
  outbox : List (Nat × LinkFrame)
  computedHashes : List (Nat × Bytes)
  receivedHashes : List (Nat × Bytes)
  pendingHash : Option (Nat × Bytes)
  hashDueAt : Option Nat
  firstFrames : Nat
  stalled : Bool
  failure : Option LinkFailure
  /-- The writes and resets so far. -/
  raised : List Packet
  /-- The events of the frames scheduled so far, the ones never sent included. -/
  scheduled : List (List Packet)
  /-- What has been done with the pair so far. -/
  moves : List Move

/-- What a call of `run_linked` did. -/
inductive LinkRunOutcome
  | ran (localFrames partnerFrames : Nat)
  | stalled
  | failed (failure : LinkFailure)
deriving DecidableEq

namespace Machine

variable {C : Type} (E : LinkedCore C)

/-- The two consoles of a pair, before anything has run. -/
def start (first second : C) : Side → Seat C
  | .first => ⟨first, 0, false⟩
  | .second => ⟨second, 0, false⟩

/-- The first `delay` frames of a console use the input it held when the cable went in. -/
def prefill (delay : Nat) (input : Bytes) : List (Nat × List Packet) :=
  (List.range delay).map fun frame ↦ (frame, [.changeInput input])

/-- Schedule an event for the next frame to send; resets go first. -/
def schedule (packet : Packet) (m : Machine C) : Machine C :=
  { m with
    queue := m.queue.alter m.nextSendFrame fun scheduled ↦
      match packet with
      | .resetConsole => packet :: scheduled.getD []
      | other => scheduled.getD [] ++ [other]
    raised := m.raised ++ [packet] }

/-- A machine whose cable has just gone in. -/
def plugged (side : Side) (first second : C) (delay : Nat) (localInput partnerInput : Bytes)
    (clock : TimestampMillis) : Machine C where
  side
  seats          := start first second
  delay
  prefillInput   := partnerInput
  queue          := .ofList (prefill delay localInput)
  nextSendFrame  := delay
  inbox          := ⟨.empty, 0, false⟩
  partnerMillis  := clock
  outbox         := []
  computedHashes := []
  receivedHashes := []
  pendingHash    := none
  hashDueAt      := none
  firstFrames    := 0
  stalled        := false
  failure        := none
  raised         := []
  scheduled      := .replicate delay [.changeInput localInput]
  moves          := []

/-- Plug the cable in, once both consoles are known to be held at a frame boundary.  Writes held back
belong to the first frame that can be scheduled. -/
def beginLink (side : Side) (first second : C) (delay : Nat) (localInput partnerInput : Bytes)
    (clock : TimestampMillis) (heldWrites : List Packet) : Except String (Machine C) :=
  if delay = 0 then .error "the input delay must be at least one frame"
  else
    .ok (heldWrites.foldl (fun m packet ↦ m.schedule packet)
      (plugged side first second delay localInput partnerInput clock))

def fail (failure : LinkFailure) (m : Machine C) : LinkRunOutcome × Machine C :=
  (.failed failure, { m with failure := some failure })

/-! ### Pair hashes -/

/-- Match every received hash against the computed ones, dropping what matched or is too old. -/
def linkMatchHashes (m : Machine C) : Option LinkFailure × Machine C :=
  let oldest := (m.computedHashes.head?.map Prod.fst).getD 0
  let mismatch := m.receivedHashes.findSome? fun (frame, hash) ↦
    (m.computedHashes.find? (·.1 = frame)).bind fun (_, mine) ↦
      if mine ≠ hash then some (LinkFailure.pairHashMismatch frame) else none
  let kept := m.receivedHashes.filter fun (frame, _) ↦
    (m.computedHashes.find? (·.1 = frame)).isNone && decide (oldest ≤ frame)
  (mismatch, { m with receivedHashes := kept.drop (kept.length - pairHashWindow) })

/-- Record a pair hash computed here, and compare it. -/
def linkNoteComputedHash (frame : Nat) (hash : Bytes) (m : Machine C) :
    Option LinkFailure × Machine C :=
  let computed := m.computedHashes ++ [(frame, hash)]
  { m with
    pendingHash    := some (frame, hash)
    computedHashes := computed.drop (computed.length - pairHashWindow) }.linkMatchHashes

/-- Take the pair hash that is due, if the second console has caught up. -/
def takeDueHash (secondRuns : Bool) (m : Machine C) : Option LinkFailure × Machine C :=
  match secondRuns, m.hashDueAt with
  | false, some frame =>
    { m with hashDueAt := none }.linkNoteComputedHash frame
      (E.pairHash (m.seats .first).core (m.seats .second).core)
  | _, _ => (none, m)

/-- The first console completed a frame: mark a pair hash due when it is time for one. -/
def linkFirstFrameCompleted (m : Machine C) : Machine C :=
  let frames := m.firstFrames + 1
  { m with
    firstFrames := frames
    hashDueAt   := if frames % pairHashIntervalFrames = 0 then some frames else m.hashDueAt }

/-! ### Frames -/

/-- The events of a console's frame have been found: apply them. -/
def applyEvents (side : Side) (apply : C → Packet → C) (events : List Packet) (m : Machine C) :
    Machine C :=
  let seat := m.seats side
  { m with
    seats := Function.update m.seats side
      { seat with core := events.foldl apply seat.core, prepared := true }
    moves := m.moves ++ [.prepare side seat.frame events] }

/-- At a frame boundary of the local console: schedule the fresh input, send that frame, and apply
the events of the frame about to run. -/
def linkPrepareLocalFrame (input : Bytes) (clock : TimestampMillis) (m : Machine C) : Machine C :=
  let events := (m.queue.get? m.nextSendFrame).getD [] ++ [.changeInput input]
  let queue := m.queue.insert m.nextSendFrame events
  let frame := (m.seats m.side).frame
  let m : Machine C := { m with
    queue         := queue.filter fun other ↦ decide (other ≠ frame)
    pendingHash   := none
    outbox        := m.outbox ++ [(m.nextSendFrame, ⟨events, clock, m.pendingHash⟩)]
    nextSendFrame := m.nextSendFrame + 1
    scheduled     := m.scheduled ++ [events] }
  m.applyEvents m.side E.applyScheduled ((queue.get? frame).getD [])

/-- What `linkPreparePartnerFrame` found. -/
inductive PartnerFrame
  | ready
  | waiting
  | ended

/-- Apply a link frame to the partner's console, and note any pair hash that came with it. -/
def applyLinkFrame (linkFrame : LinkFrame) (m : Machine C) :
    Except LinkFailure PartnerFrame × Machine C :=
  let m := m.applyEvents m.side.other E.applyReceived linkFrame.events
  -- The sender's clock, never backwards.
  let m := { m with partnerMillis := max linkFrame.elapsedMillis m.partnerMillis }
  match linkFrame.pairHash with
  | none => (.ok .ready, m)
  | some hash =>
    match { m with receivedHashes := m.receivedHashes ++ [hash] }.linkMatchHashes with
    | (some failure, m) => (.error failure, m)
    | (none, m) => (.ok .ready, m)

/-- The partner's link frame that is about to run: the input held at the start for the first `delay`
frames, then what has arrived. -/
def partnerLinkFrame (m : Machine C) : Option (LinkFrame × LinkInbox) :=
  let frame := (m.seats m.side.other).frame
  if frame < m.delay then some (⟨[.changeInput m.prefillInput], m.partnerMillis, none⟩, m.inbox)
  else m.inbox.take frame

/-- At a frame boundary of the partner's console: apply its events for the frame about to run. -/
def linkPreparePartnerFrame (m : Machine C) : Except LinkFailure PartnerFrame × Machine C :=
  match m.partnerLinkFrame with
  | none => (.ok (if m.inbox.ended then .ended else .waiting), m)
  | some (linkFrame, inbox) => { m with inbox }.applyLinkFrame E linkFrame

/-- One step of a console.  A step that is not due does nothing. -/
def linkStep (side : Side) (due : Bool) (m : Machine C) : Except LinkError (Nat × Machine C) :=
  if due then
    match E.stepLinked (m.seats side).core (m.seats side.other).core with
    | .error e => .error e
    | .ok (frames, core, other) =>
      let seat := m.seats side
      let seats := Function.update m.seats side.other { m.seats side.other with core := other }
      .ok (frames, { m with
        seats := Function.update seats side
          { core
            frame    := seat.frame + frames
            prepared := if frames = 0 then seat.prepared else false }
        moves := m.moves ++ [.step side frames] })
  else .ok (0, m)

/-- Count a frame of the first console. -/
def noteFrames (side : Side) (frames : Nat) (m : Machine C) : Machine C :=
  if 0 < frames ∧ side = .first then m.linkFirstFrameCompleted else m

/-- A console is at a frame boundary whose events have not been applied. -/
def unprepared (side : Side) (m : Machine C) : Bool :=
  !E.isMidFrame (m.seats side).core && !(m.seats side).prepared

/-- The turn of the local console, which ends a call of `run_linked`. -/
def localTurn (due : Bool) (input : Bytes) (clock : TimestampMillis) (partnerFrames : Nat)
    (m : Machine C) : LinkRunOutcome × Machine C :=
  let m := if m.unprepared E m.side then m.linkPrepareLocalFrame E input clock else m
  match m.linkStep E m.side due with
  | .error e => m.fail (.emulator ("the local console failed: " ++ e.display))
  | .ok (frames, m) =>
    (.ran frames partnerFrames, { m.noteFrames m.side frames with stalled := false })

/-- The step of the partner's console: how many frames it completed, or how the call ends. -/
def partnerStep (m : Machine C) : (Nat ⊕ LinkRunOutcome) × Machine C :=
  match m.linkStep E m.side.other true with
  | .error e =>
    let (outcome, m) := m.fail (.emulator ("the other player's console failed: " ++ e.display))
    (.inr outcome, m)
  | .ok (frames, m) => (.inl frames, m.noteFrames m.side.other frames)

/-- The turn of the partner's console. -/
def partnerTurn (m : Machine C) : (Nat ⊕ LinkRunOutcome) × Machine C :=
  let (found, m) := if m.unprepared E m.side.other then m.linkPreparePartnerFrame E
    else (.ok .ready, m)
  match found with
  | .ok .ready => m.partnerStep E
  | .ok .waiting => (.inr .stalled, { m with stalled := true })
  | .ok .ended =>
    let (outcome, m) := m.fail .partnerEnded
    (.inr outcome, m)
  | .error failure =>
    let (outcome, m) := m.fail failure
    (.inr outcome, m)

/-- The loop of `run_linked`, for `fuel` turns at most. -/
def turns (due : Bool) (input : Bytes) (clock : TimestampMillis) :
    Nat → Nat → Machine C → LinkRunOutcome × Machine C
  | 0, _, m => m.fail (.emulator "the linked consoles stopped making progress")
  | fuel + 1, partnerFrames, m =>
    match E.secondRunsNext (m.seats .first).core (m.seats .second).core with
    | .error e => m.fail (.emulator e.display)
    | .ok secondRuns =>
      match m.takeDueHash E secondRuns with
      | (some failure, m) => m.fail failure
      | (none, m) =>
        if (if secondRuns then Side.second else .first) = m.side then
          m.localTurn E due input clock partnerFrames
        else
          match m.partnerTurn E with
          | (.inr outcome, m) => (outcome, m)
          | (.inl frames, m) => turns due input clock fuel (partnerFrames + frames) m

/-- Turns before the pair is declared stuck. -/
def maxSteps : Nat := 1000000

/-- Step the pair: the local console once, with the partner kept in step. -/
def runLinked (due : Bool) (input : Bytes) (clock : TimestampMillis) (m : Machine C) :
    LinkRunOutcome × Machine C :=
  match m.failure with
  | some failure => (.failed failure, m)
  | none => m.turns E due input clock maxSteps 0

end Machine

end Lockstep

end SuperShuckie
