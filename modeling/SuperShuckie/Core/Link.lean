import SuperShuckie.Core.Packets

/-!
# The partner's end of a link cable

While a link cable is in, the core that follows the partner is lent to the pair: instead of the
partner's stream, it applies the link frames that the partner's machine sends, one before each of
its frames, and its console is stepped with the local console at the other end of the cable.

What decides whose turn it is, and the local console's own end, is left to whoever runs the pair:
the partner's core sees its turns, the local console's steps, and the two ends of the cable.
-/

set_option autoImplicit false

namespace SuperShuckie

open ByteFormat

/-- How the cable is configured, as far as the partner's core is concerned. -/
structure LinkSettings where
  /-- How many frames ahead inputs are scheduled. -/
  delayFrames : UInt64
  localIsFirst : Bool
  /-- The frame the partner's console was held at. -/
  partnerStartFrame : UInt64
  /-- The input the partner held at that frame. -/
  partnerStartInput : InputBuffer

/-- One link frame's worth of a console's events. -/
structure LinkFrame where
  events : List Packet
  /-- The sender's recording clock when it sent the frame. -/
  elapsedMillis : TimestampMillis
  pairHash : Option (UInt64 × Bytes)

/-- What `linkPreparePartnerFrame` found. -/
inductive PartnerFrame
  | ready
  | waiting
  | ended
deriving DecidableEq

/-- The packets a link frame may carry. -/
def LinkFrame.carries : Packet → Bool
  | .noOp | .changeInput _ | .writeMemory _ _ | .resetConsole => true
  | _ => false

namespace SuperShuckieCore

variable {C : Type} (E : EmulatorCore C)

/-- Plug the cable in at the partner's end (`begin_link`, once the local console is known to be held
at a frame boundary and its end is in). -/
def beginLinkPartner (settings : LinkSettings) (s : SuperShuckieCore C) :
    Except String Unit × SuperShuckieCore C :=
  if s.linkPartner.isSome then (.error "already linked", s)
  else if s.follower.isNone then (.error "the other player's game is not being followed", s)
  else if E.isMidFrame s.core ∨ s.totalFrames ≠ settings.partnerStartFrame then
    (.error (s!"the other player's game is at frame {s.totalFrames} " ++
      s!"rather than {settings.partnerStartFrame}"), s)
  else if settings.delayFrames = 0 then
    (.error "the input delay must be at least one frame", s)
  else
    match E.linkPort with
    | none => (.error "one of the consoles has no link port", s)
    | some port =>
      match port.connect (!settings.localIsFirst) s.core with
      | .error e => (.error s!"cannot plug the other player's console in: {e}", s)
      | .ok core =>
        (.ok (), { s with
          core
          linkPartner := some
            { delay := settings.delayFrames
              prefillInput := settings.partnerStartInput
              frame := 0
              framePrepared := false }
          replayWaiting := false
          replayStalled := false
          replayFramePending := false })

/-- Pull the cable out at the partner's end (`end_link`).  A frame in progress may finish on its
own. -/
def endLinkPartner (s : SuperShuckieCore C) : SuperShuckieCore C :=
  { s with
    core := match E.linkPort with
      | some port => port.disconnect s.core
      | none => s.core
    linkPartner := none
    replayFramePending := false
    replayWaiting := false }

/-- The events of a link frame, and the clock its sender had (which never turns time backwards). -/
def applyLinkFrame (frame : LinkFrame) (s : SuperShuckieCore C) : SuperShuckieCore C :=
  let applied := (frame.events.filter LinkFrame.carries).foldl
    (fun s packet ↦ s.applyPlaybackPacket E packet none) s
  { applied with totalMilliseconds := max frame.elapsedMillis s.totalMilliseconds }

/-- The events for the partner's frame about to run have been found. -/
def notePrepared (partner : LinkPartnerState) (s : SuperShuckieCore C) : SuperShuckieCore C :=
  { s with linkPartner := some { partner with framePrepared := true } }

/-- Apply the partner's events for the frame about to run: the input held at the start for the first
`delay` frames, then what has arrived. -/
def linkPreparePartnerFrame (arrived : Option LinkFrame) (inboxEnded : Bool)
    (partner : LinkPartnerState) (s : SuperShuckieCore C) : PartnerFrame × SuperShuckieCore C :=
  if partner.frame < partner.delay then
    (.ready, (s.notePrepared partner).applyLinkFrame E
      ⟨[.changeInput partner.prefillInput], s.totalMilliseconds, none⟩)
  else
    match arrived with
    | some frame => (.ready, (s.notePrepared partner).applyLinkFrame E frame)
    | none => (if inboxEnded then .ended else .waiting, s)

/-- One step of the partner's console, with the local console at the other end of the cable. -/
def linkStep (port : LinkPort C) (other : C) (env : Surroundings) (s : SuperShuckieCore C) :
    SuperShuckieCore C :=
  match port.stepLinked s.core other with
  | (.ok time, core, _) => { s with core }.afterRun E time env
  | (.error _, core, _) => { s with core }

/-- The partner's turn in `run_linked`: at a frame boundary the next link frame is prepared first,
and nothing runs when it has not arrived or its pair hash shows that the games differ. -/
def partnerTurn (arrived : Option LinkFrame) (inboxEnded hashesMatch : Bool) (other : C)
    (env : Surroundings) (s : SuperShuckieCore C) : SuperShuckieCore C :=
  match s.linkPartner, E.linkPort with
  | some partner, some port =>
    if E.isMidFrame s.core = false ∧ partner.framePrepared = false then
      match s.linkPreparePartnerFrame E arrived inboxEnded partner with
      | (.ready, s) => if hashesMatch then s.linkStep E port other env else s
      | (_, s) => s
    else s.linkStep E port other env
  | _, _ => s

/-- The local console's step in `run_linked`, as far as it reaches the partner's console. -/
def localTurn (other : C) (s : SuperShuckieCore C) : SuperShuckieCore C :=
  match s.linkPartner, E.linkPort with
  | some _, some port => { s with core := (port.stepLinked other s.core).2.2 }
  | _, _ => s

end SuperShuckieCore

end SuperShuckie
