import SuperShuckie.PlayTogether.Outbound

/-!
# Publishing

What an application hands to a session for sending (`Published`, `LinkMessage`), and the queue in
which it waits.  A queue holds so many bytes and items, and refuses what would be more.
-/

set_option autoImplicit false

namespace SuperShuckie

open ByteFormat

namespace PlayTogether

/-! ## Link cable messages -/

/-- A link cable message as the application sends it. -/
inductive LinkMessage
  | request (target : PeerId) (nonce console : UInt32)
  | accept (target : PeerId) (nonce : UInt32)
  | decline (target : PeerId) (nonce : UInt32) (reason : LinkDeclineReason)
  | start (target : PeerId) (nonce : UInt32) (frame : UInt64) (input : InputBuffer)
      (rttMillis : UInt32) (delaySetting : UInt8) (speed : Speed)
  | frame (target : PeerId) (frame elapsedMillis : UInt64) (events : List Packet)
      (pairHash : Option (UInt64 × Blake3Hash))
  | unlink (target : PeerId) (reason : UnlinkReason)

/-- The other end. -/
def LinkMessage.target : LinkMessage → PeerId
  | .request target _ _ | .accept target _ | .decline target _ _ | .start target _ _ _ _ _ _
  | .frame target _ _ _ _ | .unlink target _ => target

/-- A hash that is all zero. -/
def zeroHash : Blake3Hash := ⟨List.replicate 32 0, List.length_replicate⟩

/-- The pair hash fields of a link frame: an all-zero hash means none. -/
def pairHashFields (pairHash : Option (UInt64 × Blake3Hash)) : UInt64 × Blake3Hash :=
  pairHash.getD (0, zeroHash)

/-- The message of a link cable message. -/
def Message.fromLink (sender : PeerId) : LinkMessage → Message
  | .request target nonce console => .linkRequest sender target nonce console
  | .accept target nonce => .linkAccept sender target nonce
  | .decline target nonce reason => .linkDecline sender target nonce reason
  | .start target nonce frame input rttMillis delaySetting speed =>
    .linkStart sender target nonce frame input rttMillis delaySetting speed
  | .frame target frame elapsedMillis events pairHash =>
    .linkFrame sender target frame elapsedMillis (encodePackets events) (pairHashFields pairHash).1
      (pairHashFields pairHash).2
  | .unlink target reason => .unlink sender target reason

/-- What is queued of a link cable message; one to nobody, or to ourselves, is refused. -/
def sendLink (sender : PeerId) (m : LinkMessage) : Option Bytes :=
  if m.target = 0 ∨ m.target = sender then none else some (Message.fromLink sender m).encode

/-! ## What a publisher publishes -/

/-- What an application publishes of its game. -/
inductive Published
  /-- Whole packets, whose frame count before the first `NextFrame` is `firstFrame`. -/
  | packets (firstFrame : UInt64) (packets : List Packet)
  | snapshot (data : SnapshotData) (target : PeerId)
  | startState (data : StartStateData)
  | syncHash (frame : UInt64) (hash : Blake3Hash)

/-- The item that is queued. -/
def Published.item (sender : PeerId) : Published → Outbound
  | .packets firstFrame run => .stream firstFrame (encodePackets run)
  | .snapshot data target => .snapshot data target
  | .startState data => .startState data
  | .syncHash frame hash => .encoded (Message.syncHash sender frame hash).encode

/-! ## The queue -/

/-- Most bytes a queue holds before it overflows. -/
def maxQueueBytes : Nat := 64 * 2 ^ 20

/-- Most items a queue holds before it overflows. -/
def maxQueueItems : Nat := 16384

/-- The bytes an item counts for. -/
def Outbound.cost : Outbound → Nat
  | .stream _ bytes => bytes.length + 16
  | .snapshot data _ => data.state.length + 64
  | .startState data => data.state.length + 64
  | .encoded bytes => bytes.length

/-- Why an item could not be queued. -/
inductive PushError
  | full (queuedBytes : UInt64)
  | closed
deriving DecidableEq

/-- What waits to be written on a connection. -/
structure OutboundQueue where
  items : List Outbound
  /-- Framed link cable messages, sent ahead of everything in `items`. -/
  urgent : List Bytes
  bytes : Nat
  closed : Bool
  bytes_eq : bytes = (items.map Outbound.cost).sum + (urgent.map List.length).sum
  bytes_le : bytes ≤ maxQueueBytes
  items_le : items.length ≤ maxQueueItems

namespace OutboundQueue

/-- An empty, open queue. -/
def new : OutboundQueue := ⟨[], [], 0, false, rfl, Nat.zero_le _, Nat.zero_le _⟩

/-- Queue an item.  Over the caps the queue stays as it was. -/
def tryPush (q : OutboundQueue) (item : Outbound) : Except PushError OutboundQueue :=
  if q.closed then .error .closed
  else if h : maxQueueBytes < q.bytes + item.cost ∨ maxQueueItems < q.items.length + 1 then
    .error (.full (UInt64.ofNat q.bytes))
  else
    .ok
      { q with
        items := q.items ++ [item]
        bytes := q.bytes + item.cost
        bytes_eq := by
          have := q.bytes_eq
          simp
          omega
        bytes_le := by omega
        items_le := by
          rw [List.length_append, List.length_singleton]
          omega }

/-- Queue a framed message on the urgent lane. -/
def tryPushUrgent (q : OutboundQueue) (frame : Bytes) : Except PushError OutboundQueue :=
  if q.closed then .error .closed
  else if h : maxQueueBytes < q.bytes + frame.length ∨
      maxQueueItems < q.items.length + q.urgent.length + 1 then
    .error (.full (UInt64.ofNat q.bytes))
  else
    .ok
      { q with
        urgent := q.urgent ++ [frame]
        bytes := q.bytes + frame.length
        bytes_eq := by
          have := q.bytes_eq
          simp
          omega
        bytes_le := by omega }

/-- No item is larger than what a queue holds. -/
theorem cost_le {q : OutboundQueue} {item : Outbound} (h : item ∈ q.items) :
    item.cost ≤ maxQueueBytes := by
  obtain ⟨before, after, hitems⟩ := List.append_of_mem h
  have hbytes := q.bytes_eq
  have hle := q.bytes_le
  rw [hitems] at hbytes
  simp only [List.map_append, List.map_cons, List.sum_append, List.sum_cons] at hbytes
  omega

/-- Neither is a frame of the urgent lane. -/
theorem length_urgent_le {q : OutboundQueue} {frame : Bytes} (h : frame ∈ q.urgent) :
    frame.length ≤ maxQueueBytes := by
  obtain ⟨before, after, hurgent⟩ := List.append_of_mem h
  have hbytes := q.bytes_eq
  have hle := q.bytes_le
  rw [hurgent] at hbytes
  simp only [List.map_append, List.map_cons, List.sum_append, List.sum_cons] at hbytes
  omega

end OutboundQueue

end PlayTogether

end SuperShuckie
