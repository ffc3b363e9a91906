import SuperShuckie.PlayTogether.Follow
import SuperShuckie.Live.Follower

/-!
# The frame numbers of a publisher

A publisher's snapshots and streams carry the publisher's own 64-bit frame numbers and clocks.  They
go through the slot of the publisher, the queue that its sink feeds, and the core that reads the
queue; each adds to them.  `Watcher` is the three together, and its `step` is `none` where one of the
sums does not fit in 64 bits, which is a panic.

`Watcher.Fits` says when an event's sums fit, by the numbers it meets; `Watcher.run_iff` that a run
panics exactly at the first event for which they do not, and that until then a stream is delivered
only at the frame that follows what the sink has been told.
-/

set_option autoImplicit false

namespace SuperShuckie

open ByteFormat PlayTogether Live

/-! ## What a sink has been told -/

/-- The frames that packets run. -/
def framesRun (packets : List Packet) : Nat :=
  packets.countP fun p ↦ match p with
    | .nextFrame _ => true
    | _ => false

/-- The frame that follows what one more call told, if `frame` was the one before. -/
def SinkCall.follow (frame : Option Nat) : SinkCall → Option Nat
  | .snapshot data => some data.frame.toNat
  | .packets _ packets => frame.map (· + framesRun packets)
  | .syncHash .. | .ended _ => frame

/-- The frame that follows what a sink has been told: that of the last snapshot, and the frames told
since. -/
def followingFrame (calls : List SinkCall) : Option Nat := calls.foldl SinkCall.follow none

/-! ## Sums -/

/-- `a + n` on 64 bits. -/
def addFrames (a : UInt64) (n : Nat) : Option UInt64 :=
  if a.toNat + n < 2 ^ 64 then some (a + UInt64.ofNat n) else none

/-- Frames after a snapshot whose hashes are not compared (`POST_LOAD_FRAMES`). -/
def hashSuppressedFrames : Nat := 3

/-- A snapshot as a packet. -/
def snapshotPacket (data : SnapshotData) : Packet :=
  .keyframe
    { input := data.input
      speed := data.speed
      elapsedFrames := data.frame
      elapsedMillis := data.elapsedMillis
      counters := data.counters.map fun c ↦ ⟨c.1, c.2⟩ }
    data.state

/-- `push_packet`, with the sum it counts frames by. -/
def feedPacket (packet : Packet) (now : Instant) (feed : Shared) : Option Shared :=
  match packet with
  | .nextFrame _ =>
    if feed.queue.haveSnapshot ∧ feed.queue.framesQueued < maxQueuedFrames then
      (addFrames feed.queue.newestFrame 1).map fun _ ↦ feed.pushPacket packet now
    else some (feed.pushPacket packet now)
  | _ => some (feed.pushPacket packet now)

/-- The packets of a stream. -/
def feedPackets (now : Instant) : List Packet → Shared → Option Shared
  | [], feed => some feed
  | packet :: packets, feed => (feedPacket packet now feed).bind (feedPackets now packets)

variable {a b : UInt64} {n : Nat} {packets : List Packet} {feed feed' : Shared} {now : Instant}

theorem toNat_addFrames (h : a.toNat + n < 2 ^ 64) : (a + UInt64.ofNat n).toNat = a.toNat + n := by
  rw [UInt64.toNat_add, UInt64.toNat_ofNat', Nat.add_mod_mod, Nat.mod_eq_of_lt h]

theorem addFrames_of_lt (h : a.toNat + n < 2 ^ 64) : addFrames a n = some (a + UInt64.ofNat n) :=
  if_pos h

theorem addFrames_of_le (h : 2 ^ 64 ≤ a.toNat + n) : addFrames a n = none :=
  if_neg (Nat.not_lt.mpr h)

theorem framesRun_cons (packet : Packet) (packets : List Packet) :
    framesRun (packet :: packets) = framesRun [packet] + framesRun packets := by
  rw [framesRun, framesRun, framesRun, ← List.countP_append]
  rfl

/-- What was decoded as a stream has no packet that a stream may not have. -/
theorem forbiddenKind_of_decodePackets {bytes : Bytes} (h : decodePackets bytes = .ok packets) :
    ∀ p ∈ packets, forbiddenKind p = none := by
  rw [decodePackets, parsePackets] at h
  generalize bytes.length = fuel at h
  induction fuel generalizing bytes packets with
  | zero =>
    cases h
    simp
  | succ fuel ih =>
    rw [parsePacketsGo] at h
    split_ifs at h with hnil
    · cases h
      simp
    · split at h
      · cases h
      · rename_i packet rest hread
        split at h
        · cases h
        · rename_i hkind
          cases hrest : parsePacketsGo forbiddenKind fuel rest with
          | error e =>
            rw [hrest] at h
            cases h
          | ok more =>
            rw [hrest] at h
            cases h
            exact List.forall_mem_cons.mpr ⟨hkind, ih hrest⟩

/-- The queue counts up to `n`, as long as it holds what was pushed. -/
def CountsTo (feed : Shared) (n : Nat) : Prop :=
  feed.queue.haveSnapshot = true → feed.queue.newestFrame.toNat = n

theorem haveSnapshot_requestSnapshot (feed : Shared) (reason : SnapshotRequestReason)
    (now : Instant) :
    (feed.requestSnapshot reason now).queue.haveSnapshot = feed.queue.haveSnapshot := by
  rw [Shared.requestSnapshot]
  split_ifs <;> rfl

theorem newestFrame_requestSnapshot (feed : Shared) (reason : SnapshotRequestReason)
    (now : Instant) :
    (feed.requestSnapshot reason now).queue.newestFrame = feed.queue.newestFrame := by
  rw [Shared.requestSnapshot]
  split_ifs <;> rfl

/-- One packet of a stream moves the count on by its frame, if the sum fits. -/
theorem feedPacket_counts {packet : Packet} (hkind : forbiddenKind packet = none)
    (h : CountsTo feed n) (hfits : n + framesRun [packet] < 2 ^ 64) :
    ∃ feed', feedPacket packet now feed = some feed' ∧ CountsTo feed' (n + framesRun [packet]) := by
  have hother (hpush : feed.pushPacket packet now =
      if feed.queue.haveSnapshot = false then feed else feed.enqueue packet) :
      CountsTo (feed.pushPacket packet now) n := by
    rw [hpush]
    split_ifs with hnone
    · exact h
    · exact h
  cases packet with
  | nextFrame delta =>
    change n + 1 < 2 ^ 64 at hfits
    change ∃ feed', _ ∧ CountsTo feed' (n + 1)
    rw [feedPacket]
    split_ifs with hroom
    · have hnewest : feed.queue.newestFrame.toNat + 1 < 2 ^ 64 := by
        rw [h hroom.1]
        exact hfits
      refine ⟨_, by rw [addFrames_of_lt hnewest, Option.map_some], fun _ ↦ ?_⟩
      rw [Shared.pushPacket, if_neg (by simp [hroom.1]), if_neg (UInt64.not_le.mpr hroom.2)]
      exact (toNat_addFrames hnewest).trans (congrArg (· + 1) (h hroom.1))
    · -- Nothing is held after this: nothing was, or the backlog is dropped.
      refine ⟨_, rfl, fun hholds ↦ ?_⟩
      exfalso
      rw [Shared.pushPacket] at hholds
      split_ifs at hholds with hnone hfull
      · rw [hnone] at hholds
        cases hholds
      · rw [haveSnapshot_requestSnapshot] at hholds
        cases hholds
      · exact hroom ⟨by simpa using hnone, UInt64.not_le.mp hfull⟩
  | keyframe => cases hkind
  | _ => exact ⟨_, rfl, hother rfl⟩

theorem feedPackets_counts (hkinds : ∀ p ∈ packets, forbiddenKind p = none)
    (h : CountsTo feed n) (hfits : n + framesRun packets < 2 ^ 64) :
    ∃ feed', feedPackets now packets feed = some feed' ∧
      CountsTo feed' (n + framesRun packets) := by
  induction packets generalizing feed n with
  | nil => exact ⟨feed, rfl, h⟩
  | cons packet packets ih =>
    rw [List.forall_mem_cons] at hkinds
    rw [framesRun_cons] at hfits ⊢
    obtain ⟨next, hnext, hcounts⟩ : ∃ next, feedPacket packet now feed = some next ∧
        CountsTo next (n + framesRun [packet]) := feedPacket_counts hkinds.1 h (by omega)
    obtain ⟨last, hlast, hcounts'⟩ := ih hkinds.2 hcounts (by omega)
    refine ⟨last, ?_, by rwa [Nat.add_assoc] at hcounts'⟩
    rw [feedPackets, hnext, Option.bind_some, hlast]

/-! ## A follower -/

/-- A follower of one publisher. -/
structure Watcher (C : Type) where
  /-- The slot that the publisher's messages go through. -/
  slot : FollowState
  /-- The queue that the sink feeds. -/
  feed : Shared
  /-- The core that reads the queue. -/
  core : SuperShuckieCore C
  /-- Sync hashes before this frame are not compared. -/
  hashSuppressedUntil : UInt64

/-- What happens to a follower: a message that was decoded, a call on the slot, and what the core
does. -/
inductive WatchEvent (C : Type)
  | snapshot (data : SnapshotData) (now : Instant)
  | stream (firstFrame : UInt64) (bytes : Bytes) (packets : List Packet)
      (decoded : decodePackets bytes = .ok packets) (now : Instant)
  | syncHash (frame : UInt64) (hash : Blake3Hash)
  | slot (op : SlotOp)
  /-- The core reads the queue and applies what it read. -/
  | poll (now : Instant)
  | request (reason : SnapshotRequestReason) (now : Instant)
  /-- The core does something else. -/
  | core (change : SuperShuckieCore C → SuperShuckieCore C)

namespace Watcher

variable {C : Type} (E : EmulatorCore C) (x : Externals)

/-- A follower that has not been told anything. -/
def start (core : SuperShuckieCore C) : Watcher C := ⟨.new, liveReplayChannel, core, 0⟩

/-- A stream: its packets are queued, and the frame that the next one starts at is the sum. -/
def onStream (firstFrame : UInt64) (packets : List Packet) (now : Instant) (w : Watcher C) :
    Option (Watcher C) :=
  let slot := (w.slot.onStream firstFrame packets).2
  if w.slot.live = some firstFrame ∧ w.slot.sink.isSome then do
    let feed ← feedPackets now packets w.feed
    let _ ← addFrames firstFrame (framesRun packets)
    pure { w with slot, feed }
  else some { w with slot }

/-- The core reads the queue, if it follows one.  A snapshot that loads suppresses the hashes of the
frames right after it; one that does not is followed by nothing until the next. -/
def poll (now : Instant) (w : Watcher C) : Option (Watcher C) :=
  if w.core.follower.isNone then some w
  else
    let (feed, poll) := w.feed.pop
    let core := (w.core.readLive E x poll).2
    match poll with
    | .item (.packet (.keyframe metadata state)) =>
      match (E.loadSaveState state w.core.core).1 with
      | .error _ => some { w with feed := feed.discardUntilSnapshot .loadFailed now, core }
      | .ok _ =>
        (addFrames metadata.elapsedFrames hashSuppressedFrames).map fun hashSuppressedUntil ↦
          { w with feed, core, hashSuppressedUntil }
    | _ => some { w with feed, core }

/-- One event; `none` is a panic. -/
def step (w : Watcher C) : WatchEvent C → Option (Watcher C)
  | .snapshot data now =>
    let feed := if w.slot.hasSink then w.feed.pushPacket (snapshotPacket data) now else w.feed
    some { w with slot := (w.slot.onSnapshot data).2, feed }
  | .stream firstFrame _ packets _ now => w.onStream firstFrame packets now
  | .syncHash frame hash =>
    let feed := if (w.slot.onSyncHash frame hash).1 then w.feed.pushSyncHash frame hash else w.feed
    some { w with slot := (w.slot.onSyncHash frame hash).2, feed }
  | .slot op =>
    let feed := match op, w.slot.sink with
      | .finish _, some _ => w.feed.endStream
      | _, _ => w.feed
    some { w with slot := op.apply w.slot, feed }
  | .poll now => w.poll E x now
  | .request reason now => some { w with feed := w.feed.requestSnapshot reason now }
  | .core change => some { w with core := change w.core }

/-- Events in the order in which they happen. -/
def run : List (WatchEvent C) → Watcher C → Option (Watcher C)
  | [], w => some w
  | event :: events, w => (w.step E x event).bind (run events)

/-- The numbers that an event adds to leave room for it: the frame that a stream starts at for the
frames in it, if it is accepted, and the frame of the snapshot that the core loads for the frames
whose hashes are not compared. -/
def Fits (w : Watcher C) : WatchEvent C → Prop
  | .stream firstFrame _ packets _ _ =>
    w.slot.live = some firstFrame → firstFrame.toNat + framesRun packets < 2 ^ 64
  | .poll _ => w.core.follower.isNone = false →
      ∀ metadata state a, w.feed.pop.2 = .item (.packet (.keyframe metadata state)) →
        (E.loadSaveState state w.core.core).1 = .ok a →
        metadata.elapsedFrames.toNat + hashSuppressedFrames < 2 ^ 64
  | _ => True

/-- Every event's numbers leave room, in the state it meets. -/
def AllFit : List (WatchEvent C) → Watcher C → Prop
  | [], _ => True
  | event :: events, w =>
    w.Fits E event ∧ ∀ w', w.step E x event = some w' → AllFit events w'

/-- The slot and the queue count the frames that the sink was told. -/
structure Counted (w : Watcher C) : Prop where
  slot : ∀ frame, w.slot.live = some frame →
    ∃ calls, w.slot.sink = some calls ∧ followingFrame calls = some frame.toNat
  feed : ∀ frame, w.slot.live = some frame → CountsTo w.feed frame.toNat

variable {E} {x} {w w' : Watcher C} {event : WatchEvent C}

theorem counted_start (core : SuperShuckieCore C) : (start core).Counted :=
  ⟨fun _ h ↦ (nomatch h), fun _ h ↦ (nomatch h)⟩

/-- A slot that is not live counts nothing. -/
theorem counted_of_not_live (h : w.slot.live = none) : w.Counted := by
  refine ⟨fun frame hlive ↦ ?_, fun frame hlive ↦ ?_⟩
  all_goals
    rw [h] at hlive
    cases hlive

theorem followingFrame_append (calls : List SinkCall) (call : SinkCall) :
    followingFrame (calls ++ [call]) = SinkCall.follow (followingFrame calls) call := by
  rw [followingFrame, List.foldl_append]
  rfl

/-- The numbers fit, and what results is counted; or they do not, and it is a panic. -/
def CountedIff (fits : Prop) (result : Option (Watcher C)) : Prop :=
  (fits ∧ ∃ w', result = some w' ∧ w'.Counted) ∨ (¬ fits ∧ result = none)

/-- **A stream panics exactly if its frames do not fit**, and is counted otherwise. -/
theorem onStream_counted (h : w.Counted) {firstFrame : UInt64} {packets : List Packet}
    (hkinds : ∀ p ∈ packets, forbiddenKind p = none) (now : Instant) :
    CountedIff (w.slot.live = some firstFrame → firstFrame.toNat + framesRun packets < 2 ^ 64)
      (w.onStream firstFrame packets now) := by
  rw [onStream]
  by_cases hlive : w.slot.live = some firstFrame
  · obtain ⟨calls, hsink, hframe⟩ := h.slot firstFrame hlive
    have haccepted : (w.slot.onStream firstFrame packets).2 =
        { w.slot with
          sink := some (calls ++ [.packets firstFrame packets])
          live := some (firstFrame + UInt64.ofNat (framesRun packets)) } := by
      simp only [FollowState.onStream, hlive, hsink, ne_eq, not_true_eq_false, if_false]
      rfl
    rw [if_pos ⟨hlive, by rw [hsink]; rfl⟩, haccepted]
    by_cases hfits : firstFrame.toNat + framesRun packets < 2 ^ 64
    · obtain ⟨feed', hfeed, hcounts⟩ := @feedPackets_counts firstFrame.toNat packets w.feed now hkinds
        (h.feed firstFrame hlive) hfits
      refine .inl ⟨fun _ ↦ hfits, _, by rw [hfeed, addFrames_of_lt hfits]; rfl, ?_, ?_⟩
      · rintro frame ⟨⟩
        refine ⟨_, rfl, ?_⟩
        rw [followingFrame_append, hframe, toNat_addFrames hfits]
        rfl
      · rintro frame ⟨⟩
        rw [toNat_addFrames hfits]
        exact hcounts
    · refine .inr ⟨fun hall ↦ hfits (hall hlive), ?_⟩
      rw [addFrames_of_le (Nat.not_lt.mp hfits)]
      cases feedPackets now packets w.feed <;> rfl
  · rw [if_neg fun haccepted ↦ hlive haccepted.1]
    refine .inl ⟨fun h ↦ absurd h hlive, _, rfl, counted_of_not_live ?_⟩
    change (w.slot.onStream firstFrame packets).2.live = none
    rw [FollowState.onStream]
    cases hexpected : w.slot.live with
    | none => exact hexpected
    | some expected =>
      have hne : firstFrame ≠ expected := fun heq ↦ hlive (heq ▸ hexpected)
      simp only [if_pos hne]

theorem pop_queue (feed : Shared) : feed.pop.1.queue.haveSnapshot = feed.queue.haveSnapshot ∧
      feed.pop.1.queue.newestFrame = feed.queue.newestFrame := by
  rw [Shared.pop]
  split <;> exact ⟨rfl, rfl⟩

theorem countsTo_pop (h : CountsTo feed n) : CountsTo feed.pop.1 n := by
  obtain ⟨hholds, hnewest⟩ := pop_queue feed
  rw [CountsTo, hholds, hnewest]
  exact h

theorem countsTo_discard (feed : Shared) (reason : SnapshotRequestReason) (now : Instant) (n : Nat) :
    CountsTo (feed.discardUntilSnapshot reason now) n := by
  rw [CountsTo, Shared.discardUntilSnapshot, haveSnapshot_requestSnapshot]
  exact fun h ↦ nomatch h

/-- **Reading the queue panics exactly at a snapshot that loads and leaves no room.** -/
theorem poll_counted (h : w.Counted) (now : Instant) : CountedIff
      (w.core.follower.isNone = false →
        ∀ metadata state a, w.feed.pop.2 = .item (.packet (.keyframe metadata state)) →
          (E.loadSaveState state w.core.core).1 = .ok a →
          metadata.elapsedFrames.toNat + hashSuppressedFrames < 2 ^ 64)
      (w.poll E x now) := by
  rw [poll]
  cases hfollows : w.core.follower.isNone with
  | true => exact .inl ⟨fun h ↦ (nomatch h), w, rfl, h⟩
  | false =>
    simp only [Bool.false_eq_true, if_false, forall_const]
    split
    · rename_i metadata state hpop
      split
      · rename_i e hload
        refine .inl ⟨?_, _, rfl, h.slot, fun frame _ ↦ countsTo_discard _ _ _ _⟩
        intro metadata' state' a hpop' hload'
        rw [hpop] at hpop'
        cases hpop'
        rw [hload] at hload'
        cases hload'
      · rename_i a hload
        by_cases hfits : metadata.elapsedFrames.toNat + hashSuppressedFrames < 2 ^ 64
        · rw [addFrames_of_lt hfits]
          refine .inl ⟨?_, _, rfl, h.slot, fun frame hlive ↦ countsTo_pop (h.feed frame hlive)⟩
          intro metadata' state' a' hpop' _
          rw [hpop] at hpop'
          cases hpop'
          exact hfits
        · rw [addFrames_of_le (Nat.not_lt.mp hfits)]
          exact .inr ⟨fun hall ↦ hfits (hall metadata state a hpop hload), rfl⟩
    · rename_i hother
      refine .inl ⟨?_, _, rfl, h.slot, fun frame hlive ↦ countsTo_pop (h.feed frame hlive)⟩
      exact fun metadata state _ hpop _ ↦ absurd hpop (hother metadata state)

/-- A snapshot that a sink takes is where the count starts. -/
theorem snapshot_counted (h : w.Counted) (data : SnapshotData) (now : Instant) : ({ w with
        slot := (w.slot.onSnapshot data).2
        feed := if w.slot.hasSink then w.feed.pushPacket (snapshotPacket data) now
          else w.feed } : Watcher C).Counted := by
  rw [FollowState.onSnapshot, FollowState.hasSink]
  cases hsink : w.slot.sink with
  | none =>
    simp only [Option.isSome_none, Bool.false_eq_true, if_false]
    exact ⟨h.slot, h.feed⟩
  | some calls =>
    simp only [Option.isSome_some, if_true]
    refine ⟨?_, ?_⟩
    · rintro frame ⟨⟩
      exact ⟨_, rfl, followingFrame_append calls _⟩
    · rintro frame ⟨⟩ -
      rfl

theorem syncHash_counted (h : w.Counted) (frame : UInt64) (hash : Blake3Hash) : ({ w with
        slot := (w.slot.onSyncHash frame hash).2
        feed := if (w.slot.onSyncHash frame hash).1 then w.feed.pushSyncHash frame hash
          else w.feed } : Watcher C).Counted := by
  rw [FollowState.onSyncHash]
  cases hlive : w.slot.live with
  | none => exact counted_of_not_live hlive
  | some expected =>
    obtain ⟨calls, hsink, hframe⟩ := h.slot expected hlive
    simp only [hsink, Option.isNone_some, Bool.false_eq_true, if_false, if_true]
    refine ⟨?_, ?_⟩
    · rintro frame' ⟨⟩
      exact ⟨_, rfl, (followingFrame_append calls _).trans hframe⟩
    · rintro frame' ⟨⟩
      change CountsTo (w.feed.pushSyncHash frame hash) expected.toNat
      rw [Shared.pushSyncHash]
      split_ifs
      · exact h.feed expected hlive
      · exact h.feed expected hlive

theorem countsTo_requestSnapshot (h : CountsTo feed n) (reason : SnapshotRequestReason)
    (now : Instant) : CountsTo (feed.requestSnapshot reason now) n := by
  rw [CountsTo, haveSnapshot_requestSnapshot, newestFrame_requestSnapshot]
  exact h

/-- **An event panics exactly if its numbers do not fit**, and is counted otherwise. -/
theorem step_counted (h : w.Counted) (event : WatchEvent C) :
    CountedIff (w.Fits E event) (w.step E x event) := by
  cases event with
  | snapshot data now => exact .inl ⟨trivial, _, rfl, snapshot_counted h data now⟩
  | stream firstFrame bytes packets decoded now =>
    exact onStream_counted h (forbiddenKind_of_decodePackets decoded) now
  | syncHash frame hash => exact .inl ⟨trivial, _, rfl, syncHash_counted h frame hash⟩
  | slot op => exact .inl ⟨trivial, _, rfl, counted_of_not_live (by cases op <;> rfl)⟩
  | poll now => exact poll_counted h now
  | request reason now =>
    refine .inl ⟨trivial, _, rfl, h.slot, fun frame hlive ↦ ?_⟩
    exact countsTo_requestSnapshot (h.feed frame hlive) reason now
  | core change => exact .inl ⟨trivial, _, rfl, h.slot, h.feed⟩

theorem run_counted (h : w.Counted) (events : List (WatchEvent C)) :
    CountedIff (AllFit E x events w) (run E x events w) := by
  induction events generalizing w with
  | nil => exact .inl ⟨trivial, w, rfl, h⟩
  | cons event events ih =>
    rw [AllFit, run]
    obtain ⟨hfits, w', hstep, hcounted⟩ | ⟨hfits, hpanics⟩ := @step_counted C E x w h event
    · rw [hstep, Option.bind_some]
      obtain ⟨hall, hrun⟩ | ⟨hall, hpanics⟩ := ih hcounted
      · refine .inl ⟨⟨hfits, ?_⟩, hrun⟩
        rintro w'' ⟨⟩
        exact hall
      · exact .inr ⟨fun h ↦ hall (h.2 w' rfl), hpanics⟩
    · rw [hpanics]
      exact .inr ⟨fun h ↦ hfits h.1, rfl⟩

/-- What is delivered starts at the frame that the sink has been told up to. -/
theorem delivered_at (h : w.Counted) {firstFrame : UInt64} {packets : List Packet}
    (hdelivered : (w.slot.onStream firstFrame packets).1 = .delivered) :
    ∃ calls, w.slot.sink = some calls ∧ followingFrame calls = some firstFrame.toNat := by
  rw [FollowState.onStream] at hdelivered
  cases hlive : w.slot.live with
  | none =>
    rw [hlive] at hdelivered
    cases hdelivered
  | some expected =>
    simp only [hlive] at hdelivered
    split_ifs at hdelivered with hne
    rw [not_not.mp hne]
    exact h.slot expected hlive

/-- **A publisher's numbers never overflow in a run exactly if each event's leave room.**  In every
state that a run reaches, a stream is delivered only at the frame that follows what the sink has
been told. -/
theorem run_iff (core : SuperShuckieCore C) (events : List (WatchEvent C)) :
    ((∃ w, run E x events (start core) = some w) ∧
      ∀ before after w, events = before ++ after → run E x before (start core) = some w →
        ∀ firstFrame packets, (w.slot.onStream firstFrame packets).1 = .delivered →
          ∃ calls, w.slot.sink = some calls ∧ followingFrame calls = some firstFrame.toNat) ↔
      AllFit E x events (start core) := by
  rw [and_iff_left]
  · obtain ⟨hall, w, hrun, -⟩ | ⟨hall, hpanics⟩ :=
      @run_counted C E x (start core) (counted_start core) events
    · exact iff_of_true ⟨w, hrun⟩ hall
    · refine iff_of_false ?_ hall
      rintro ⟨w, hrun⟩
      rw [hpanics] at hrun
      cases hrun
  · intro before after w _ hrun firstFrame packets hdelivered
    obtain ⟨-, w', hrun', hcounted⟩ | ⟨-, hpanics⟩ :=
      @run_counted C E x (start core) (counted_start core) before
    · rw [hrun] at hrun'
      cases hrun'
      exact delivered_at hcounted hdelivered
    · rw [hpanics] at hrun
      cases hrun

/-- A snapshot at the last frame is loaded, and the sum with the frames right after it overflows. -/
theorem run_panics :
    (run SlicedConsole.core .plain
      [.slot .setSink, .snapshot ⟨2 ^ 64 - 1, 0, [], Speed.default, [], [1]⟩ 0, .poll 1]
      (start { SuperShuckieCore.new SlicedConsole.fresh 0 with
        follower := some ⟨[], none, [], 0, 0⟩ })).isNone = true := by
  decide +kernel

end Watcher

end SuperShuckie
