import SuperShuckie.PlayTogether.Outbound
import SuperShuckie.PlayTogether.Framing

/-!
# Following a publisher

What a receiver does with the streams, snapshots and sync hashes of one publisher.  A sink awaits a
snapshot and is live from then on, as long as every stream starts at the frame that the one before
ended at.

What a sink has been told is kept with it, so that `seen` can say what it was shown: snapshots,
packets with the frame that each belongs to, hashes, and the end.
-/

set_option autoImplicit false

namespace SuperShuckie

open ByteFormat

namespace PlayTogether

/-! ## The follow state -/

/-- One call of a sink. -/
inductive SinkCall
  | snapshot (data : SnapshotData)
  | packets (firstFrame : UInt64) (packets : List Packet)
  | syncHash (frame : UInt64) (hash : Blake3Hash)
  | ended (reason : LeaveReason)
deriving DecidableEq

/-- The follow state of one publisher. -/
structure FollowState where
  /-- The sink, as all that it has been told. -/
  sink : Option (List SinkCall)
  /-- The frame that the next stream has to start at, while live. -/
  live : Option UInt64
  /-- The sinks that were dropped. -/
  dropped : List (List SinkCall)
deriving DecidableEq

/-- What a stream did to the follow state. -/
inductive StreamOutcome
  /-- Not live, or no sink. -/
  | discarded
  | delivered
  /-- The slot is awaiting a snapshot again. -/
  | gap (expected got : UInt64)
deriving DecidableEq

namespace FollowState

def new : FollowState := ⟨none, none, []⟩

/-- Install a sink.  The slot awaits a snapshot; any previous sink is dropped. -/
def setSink (s : FollowState) : FollowState := ⟨some [], none, s.dropped ++ s.sink.toList⟩

/-- Remove the sink without telling it anything. -/
def clearSink (s : FollowState) : FollowState := ⟨none, none, s.dropped ++ s.sink.toList⟩

/-- Tell the sink that the publisher is gone and drop it (`end`). -/
def finish (reason : LeaveReason) (s : FollowState) : FollowState :=
  ⟨none, none, s.dropped ++ (s.sink.map (· ++ [.ended reason])).toList⟩

def hasSink (s : FollowState) : Bool := s.sink.isSome

def isLive (s : FollowState) : Bool := s.live.isSome

/-- A snapshot addressed to us arrived: go live at its frame. -/
def onSnapshot (data : SnapshotData) (s : FollowState) : Bool × FollowState :=
  match s.sink with
  | none => (false, s)
  | some calls => (true, { s with sink := some (calls ++ [.snapshot data]), live := some data.frame })

/-- A stream arrived. -/
def onStream (firstFrame : UInt64) (packets : List Packet) (s : FollowState) :
    StreamOutcome × FollowState :=
  match s.live with
  | none => (.discarded, s)
  | some expected =>
    if firstFrame ≠ expected then (.gap expected firstFrame, { s with live := none })
    else
      match s.sink with
      | some calls =>
        (.delivered, { s with
          sink := some (calls ++ [.packets firstFrame packets])
          live := some (expected + countFrames packets) })
      | none => (.discarded, { s with live := none })

/-- A sync hash arrived; it is delivered only while live. -/
def onSyncHash (frame : UInt64) (hash : Blake3Hash) (s : FollowState) : Bool × FollowState :=
  if s.live.isNone then (false, s)
  else
    match s.sink with
    | some calls => (true, { s with sink := some (calls ++ [.syncHash frame hash]) })
    | none => (false, s)

end FollowState

/-- What others do to a slot while messages arrive. -/
inductive SlotOp
  | setSink
  | clearSink
  | finish (reason : LeaveReason)
deriving DecidableEq

def SlotOp.apply : SlotOp → FollowState → FollowState
  | .setSink => FollowState.setSink
  | .clearSink => FollowState.clearSink
  | .finish reason => FollowState.finish reason

/-- Several of them, in order. -/
def SlotOp.applyAll (ops : List SlotOp) (s : FollowState) : FollowState :=
  ops.foldl (fun s o ↦ o.apply s) s

/-! ## The reader -/

/-- What a reader makes of a frame that arrives: its message, nothing if its kind is not known, or a
protocol error. -/
def readMessage (frame : Bytes) : Except DecodeError (Option Message) :=
  if maxLengthOf ((frame.drop 4).headD 0) < (frame.drop 4).length then
    .error (.tooLong (UInt32.ofNat (frame.drop 4).length))
  else
    match Message.decodeFrame frame with
    | .ok m => .ok (some m)
    | .error (.unknownTag _) => .ok none
    | .error e => .error e

/-- Who follows the publisher: the host, on the publisher's own connection, or a client. -/
inductive Receiver
  | host
  | client (localId : PeerId)
deriving DecidableEq

/-- The host's own peer id. -/
def hostPeerId : PeerId := 1

def Receiver.localId : Receiver → PeerId
  | .host => hostPeerId
  | .client localId => localId

/-- Whether what arrives is the publisher's.  A client goes by the sender that the message names. -/
def Receiver.isFrom (r : Receiver) (publisher sender : PeerId) : Bool :=
  match r with
  | .host => true
  | .client _ => sender == publisher

/-- A receiver, as far as one publisher goes. -/
structure Following where
  slot : FollowState
  /-- The connection has not been closed. -/
  isOpen : Bool
deriving DecidableEq

namespace Following

def new : Following := ⟨.new, true⟩

def ops (between : List SlotOp) (f : Following) : Following :=
  { f with slot := SlotOp.applyAll between f.slot }

/-- Close the connection over a message that breaks the protocol. -/
def protocolError (f : Following) : Following := ⟨f.slot.finish .protocolError, false⟩

section

variable (r : Receiver) (z : Zstd) (publisher : PeerId)

/-- One message of the connection (`handle_message`, `handle_admitted`).  The slot is looked at and,
once the message has been decoded, changed; others may change it `between`. -/
def onMessage (between : List SlotOp) (m : Message) (f : Following) : Following :=
  match m with
  | .stream sender firstFrame bytes =>
    if r.isFrom publisher sender = false then f.ops between
    -- a client discards what it is not live for before it decodes it
    else if r ≠ .host ∧ f.slot.isLive = false then f.ops between
    else
      match decodePackets bytes with
      | .error _ => (f.ops between).protocolError
      | .ok packets =>
        { f with slot := ((SlotOp.applyAll between f.slot).onStream firstFrame packets).2 }
  | .snapshot wire =>
    if wire.target ≠ 0 ∧ wire.target ≠ r.localId then f.ops between
    else if r.isFrom publisher wire.fromPeer = false then f.ops between
    else if f.slot.hasSink = false then f.ops between
    else
      match wire.intoSnapshot z with
      | .error _ => (f.ops between).protocolError
      | .ok data => { f with slot := ((SlotOp.applyAll between f.slot).onSnapshot data).2 }
  | .syncHash sender frame hash =>
    if r.isFrom publisher sender = false then f.ops between
    else { f with slot := ((SlotOp.applyAll between f.slot).onSyncHash frame hash).2 }
  | _ => f.ops between

/-- One frame of the connection. -/
def onFrame (between : List SlotOp) (frame : Bytes) (f : Following) : Following :=
  if f.isOpen = false then f.ops between
  else
    match readMessage frame with
    | .error _ => (f.ops between).protocolError
    | .ok none => f.ops between
    | .ok (some m) => f.onMessage r z publisher between m

end

end Following

/-! ## What a sink is shown -/

/-- Packets with the frame count before each. -/
def label : UInt64 → List Packet → List (UInt64 × Packet)
  | _, [] => []
  | frame, p :: packets => (frame, p) :: label (frame + countFrames [p]) packets

/-- One thing a sink is shown. -/
inductive Seen
  | snapshot (data : SnapshotData)
  | packet (frame : UInt64) (p : Packet)
  | syncHash (frame : UInt64) (hash : Blake3Hash)
  | ended (reason : LeaveReason)
deriving DecidableEq

def SinkCall.seen : SinkCall → List Seen
  | .snapshot data => [.snapshot data]
  | .packets firstFrame run => (label firstFrame run).map fun l ↦ .packet l.1 l.2
  | .syncHash frame hash => [.syncHash frame hash]
  | .ended reason => [.ended reason]

/-- What a sink has been shown. -/
def seen (calls : List SinkCall) : List Seen := calls.flatMap SinkCall.seen

/-- What has been shown by a receiver to its sinks, and where the publisher's streams go on. -/
structure Shown where
  sink : Option (List Seen)
  live : Option UInt64
  dropped : List (List Seen)
  isOpen : Bool
deriving DecidableEq

def Following.shown (f : Following) : Shown :=
  ⟨f.slot.sink.map seen, f.slot.live, f.slot.dropped.map seen, f.isOpen⟩

theorem label_append (frame : UInt64) (packets packets' : List Packet) :
    label frame (packets ++ packets') =
      label frame packets ++ label (frame + countFrames packets) packets' := by
  induction packets generalizing frame with
  | nil => simp [label, countFrames]
  | cons p packets ih =>
    have hcount : countFrames (p :: packets) = countFrames [p] + countFrames packets :=
      countFrames_append [p] packets
    rw [List.cons_append, label, ih, label, hcount, ← UInt64.add_assoc, List.cons_append]

theorem seen_append (calls calls' : List SinkCall) :
    seen (calls ++ calls') = seen calls ++ seen calls' := List.flatMap_append

/-- Two calls show what one call with all the packets shows. -/
theorem seen_packets_append (frame : UInt64) (packets packets' : List Packet) :
    seen [.packets frame (packets ++ packets')] =
      seen [.packets frame packets, .packets (frame + countFrames packets) packets'] := by
  simp [seen, SinkCall.seen, label_append]

end PlayTogether

end SuperShuckie
