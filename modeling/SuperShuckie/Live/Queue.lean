import SuperShuckie.Packet.Types

/-!
# The queue of a live replay

A publisher's packets are pushed into the queue by a network reader, and read from it by the
follower's core.  Both sides take the same lock, so that every call is one step; `QueueEvent` lists
the calls and `Shared.step` says what each does.

A snapshot (a keyframe with its state) replaces everything queued before it.  When the queue
overflows, or the follower could not load the last snapshot, everything is dropped up to the next
snapshot, and one is requested.
-/

set_option autoImplicit false

namespace SuperShuckie
namespace Live

open ByteFormat

/-- Frames a feeder holds before it gives up on the backlog. -/
def maxQueuedFrames : UInt64 := 1200

/-- Shortest time between two snapshot requests, in nanoseconds, unless a snapshot arrived in
between. -/
def snapshotRequestInterval : Nat := 2 * 10 ^ 9

/-- Why a follower asks its publisher for a snapshot. -/
inductive SnapshotRequestReason
  | join | hashMismatch | tooFarBehind | queueOverflow | gap | loadFailed
deriving DecidableEq

/-- One thing a follower reads from its publisher, in order. -/
inductive LiveItem
  | packet (packet : Packet)
  /-- The publisher's work RAM hash after `frame`. -/
  | syncHash (frame : UInt64) (hash : FixedBytes 32)
deriving DecidableEq

/-- What a read of the queue found. -/
inductive LivePoll
  | item (item : LiveItem)
  | waiting
  | ended
deriving DecidableEq

/-- A point in time, in nanoseconds. -/
abbrev Instant := Nat

structure Queue where
  items : List LiveItem
  /-- `nextFrame` items in `items`. -/
  framesQueued : UInt64
  newestFrame : UInt64
  /-- Whether a snapshot has been queued, and nothing dropped since. -/
  haveSnapshot : Bool
  /-- Snapshot requests are held back until then, unless a snapshot arrives first. -/
  requestAllowedAt : Option Instant

/-- The counters that the two halves keep up to date. -/
structure FollowerStats where
  newestPublisherFrame : UInt64
  snapshotRequests : UInt64

/-- What the feeder and the source share. -/
structure Shared where
  queue : Queue
  ended : Bool
  stats : FollowerStats
  /-- The snapshot requests sent to the publisher so far. -/
  upstream : List SnapshotRequestReason

/-- A connected feeder and source (`live_replay_channel`). -/
def liveReplayChannel : Shared :=
  { queue :=
      { items := [], framesQueued := 0, newestFrame := 0, haveSnapshot := false
        requestAllowedAt := none }
    ended := false
    stats := { newestPublisherFrame := 0, snapshotRequests := 0 }
    upstream := [] }

/-! ## The calls -/

namespace Shared

/-- Whether requests are held back. -/
def requestHeldBack (s : Shared) (now : Instant) : Bool :=
  s.queue.requestAllowedAt.any fun t ↦ now < t

def requestSnapshot (s : Shared) (reason : SnapshotRequestReason) (now : Instant) : Shared :=
  if s.requestHeldBack now then s
  else
    { s with
      queue := { s.queue with requestAllowedAt := some (now + snapshotRequestInterval) }
      stats := { s.stats with snapshotRequests := s.stats.snapshotRequests + 1 }
      upstream := s.upstream ++ [reason] }

/-- Drop everything queued, and what follows up to the next snapshot. -/
def dropQueued (s : Shared) : Shared :=
  { s with queue := { s.queue with items := [], framesQueued := 0, haveSnapshot := false } }

/-- The end of `push_packet`: the packet is queued. -/
def enqueue (s : Shared) (packet : Packet) : Shared :=
  { s with
    stats := { s.stats with newestPublisherFrame := s.queue.newestFrame }
    queue := { s.queue with items := s.queue.items ++ [.packet packet] } }

/-- A snapshot clears what was queued before it, and answers the request that was outstanding. -/
def startSnapshot (s : Shared) (metadata : KeyframeMetadata) : Shared :=
  { s with
    queue :=
      { items := [], framesQueued := 0, newestFrame := metadata.elapsedFrames
        haveSnapshot := true, requestAllowedAt := none } }

/-- Count a frame that is queued. -/
def countFrame (s : Shared) : Shared :=
  { s with
    queue := { s.queue with
      framesQueued := s.queue.framesQueued + 1
      newestFrame := s.queue.newestFrame + 1 } }

/-- Queue a packet.  Before the first snapshot everything else is dropped. -/
def pushPacket (s : Shared) (packet : Packet) (now : Instant) : Shared :=
  match packet with
  | .keyframe metadata _ => (s.startSnapshot metadata).enqueue packet
  | .nextFrame _ =>
    if s.queue.haveSnapshot = false then s
    else if maxQueuedFrames ≤ s.queue.framesQueued then s.dropQueued.requestSnapshot .queueOverflow now
    else s.countFrame.enqueue packet
  | _ => if s.queue.haveSnapshot = false then s else s.enqueue packet

/-- Queue a sync hash. -/
def pushSyncHash (s : Shared) (frame : UInt64) (hash : FixedBytes 32) : Shared :=
  if s.queue.haveSnapshot = false then s
  else { s with queue := { s.queue with items := s.queue.items ++ [.syncHash frame hash] } }

/-- The publisher is gone. -/
def endStream (s : Shared) : Shared := { s with ended := true }

def isNextFrameItem : LiveItem → Bool
  | .packet (.nextFrame _) => true
  | _ => false

/-- Take the next item, if any. -/
def pop (s : Shared) : Shared × LivePoll :=
  match s.queue.items with
  | item :: items =>
    let framesQueued :=
      if isNextFrameItem item then s.queue.framesQueued - 1 else s.queue.framesQueued
    ({ s with queue := { s.queue with items, framesQueued } }, .item item)
  | [] => (s, if s.ended then .ended else .waiting)

/-- Drop everything queued, ignore what follows until the next snapshot, and ask for one. -/
def discardUntilSnapshot (s : Shared) (reason : SnapshotRequestReason) (now : Instant) : Shared :=
  s.dropQueued.requestSnapshot reason now

end Shared

/-! ## Runs -/

/-- A call of the feeder or of the source, at the time it is made. -/
inductive QueueEvent
  | pushPacket (packet : Packet) (now : Instant)
  | pushSyncHash (frame : UInt64) (hash : FixedBytes 32)
  | endStream
  | pop
  | requestSnapshot (reason : SnapshotRequestReason) (now : Instant)
  | discardUntilSnapshot (reason : SnapshotRequestReason) (now : Instant)

/-- Make a call; only `pop` returns something. -/
def Shared.step (s : Shared) : QueueEvent → Shared × Option LivePoll
  | .pushPacket packet now => (s.pushPacket packet now, none)
  | .pushSyncHash frame hash => (s.pushSyncHash frame hash, none)
  | .endStream => (s.endStream, none)
  | .pop => ((s.pop).1, some (s.pop).2)
  | .requestSnapshot reason now => (s.requestSnapshot reason now, none)
  | .discardUntilSnapshot reason now => (s.discardUntilSnapshot reason now, none)

/-- The item that a call popped, if it did. -/
def poppedItem : Option LivePoll → List LiveItem
  | some (.item item) => [item]
  | _ => []

/-- Make the calls of both sides in the order in which they took the lock; returns the items popped,
in order. -/
def Shared.run (s : Shared) : List QueueEvent → Shared × List LiveItem
  | [] => (s, [])
  | event :: events =>
    let (s', result) := s.step event
    let (s'', items) := s'.run events
    (s'', poppedItem result ++ items)

end Live
end SuperShuckie
