import SuperShuckie.Live.Queue

/-!
# What a follower reads

An `Observer` watches the calls of a run and what they return.  It divides the run into segments: a
segment is opened by a snapshot, or by an overflow or a discard, after which nothing is queued until
the next snapshot.  Of each it keeps what was pushed and what was popped while it lasted.

`Follows` ties the queue to the segment in progress: the queue holds what was pushed since the
snapshot and is not popped yet.  Every call keeps it (`step_follows`), and so every run does
(`run_follows`).
-/

set_option autoImplicit false

namespace SuperShuckie
namespace Live

/-- What opened a segment of a run. -/
inductive SegmentKind
  /-- The start of the run, before the first snapshot. -/
  | beforeFirst
  | snapshot
  /-- An overflow or a discard. -/
  | dropped
deriving DecidableEq

/-- What happened in a run from one snapshot, overflow or discard to the next. -/
structure Segment where
  kind : SegmentKind
  /-- What was pushed, the first item being what opened the segment, if that was an item. -/
  pushed : List LiveItem
  popped : List LiveItem
deriving DecidableEq

namespace Segment

/-- The frames of a segment that were pushed and not popped. -/
def backlog (seg : Segment) : Nat := (seg.pushed.drop seg.popped.length).countP Shared.isNextFrameItem

/-- The frame of the snapshot that opened a segment. -/
def frame (seg : Segment) : UInt64 :=
  match seg.pushed with
  | .packet (.keyframe metadata _) :: _ => metadata.elapsedFrames
  | _ => 0

/-- How many frames were pushed in a segment. -/
def frames (seg : Segment) : Nat := seg.pushed.countP Shared.isNextFrameItem

/-- A segment that is read in order: what was popped of it is the start of what was pushed, from its
snapshot on, and without a snapshot nothing was. -/
structure InOrder (seg : Segment) : Prop where
  snapshot : seg.kind = .snapshot → ∃ metadata state rest,
    seg.pushed = .packet (.keyframe metadata state) :: rest ∧ seg.popped <+: seg.pushed
  other : seg.kind ≠ .snapshot → seg.popped = []

/-- More was pushed, and more popped. -/
def add (seg : Segment) (pushed popped : List LiveItem) : Segment :=
  { seg with pushed := seg.pushed ++ pushed, popped := seg.popped ++ popped }

end Segment

/-- Someone who watches the calls. -/
structure Observer where
  /-- The segments that have ended, in order. -/
  ended : List Segment
  current : Segment
  /-- How many requests had been sent when the last snapshot was pushed. -/
  sentBefore : Nat

namespace Observer

/-- The observer before the first call. -/
def start : Observer := { ended := [], current := ⟨.beforeFirst, [], []⟩, sentBefore := 0 }

def segments (o : Observer) : List Segment := o.ended ++ [o.current]

/-- The segment of the last snapshot. -/
def lastSnapshot (o : Observer) : Option Segment :=
  o.segments.reverse.find? fun seg ↦ decide (seg.kind = .snapshot)

/-- A new segment begins. -/
def cut (o : Observer) (kind : SegmentKind) (pushed : List LiveItem) : Observer :=
  { o with ended := o.segments, current := ⟨kind, pushed, []⟩ }

/-- More is pushed and popped in the segment in progress. -/
def add (o : Observer) (pushed popped : List LiveItem) : Observer :=
  { o with current := o.current.add pushed popped }

/-- Whether one more frame is too much for the segment in progress. -/
def overflows (o : Observer) : Bool :=
  decide (o.current.kind = .snapshot) && decide (maxQueuedFrames.toNat ≤ o.current.backlog)

/-- What the observer makes of a call that is made in the state `s`. -/
def observe (o : Observer) (s : Shared) : QueueEvent → Observer
  | .pushPacket packet _ =>
    match packet with
    | .keyframe .. =>
      { o.cut .snapshot [.packet packet] with sentBefore := s.upstream.length }
    | .nextFrame _ =>
      if o.overflows then o.cut .dropped [.packet packet] else o.add [.packet packet] []
    | _ => o.add [.packet packet] []
  | .pushSyncHash frame hash => o.add [.syncHash frame hash] []
  | .pop => o.add [] (poppedItem (s.step .pop).2)
  | .discardUntilSnapshot .. => o.cut .dropped []
  | _ => o

/-- What the observer makes of a run. -/
def observeAll (o : Observer) (s : Shared) : List QueueEvent → Observer
  | [] => o
  | event :: events => (o.observe s event).observeAll (s.step event).1 events

end Observer

/-- The queue holds what the segment in progress leaves to pop. -/
structure Queued (s : Shared) (o : Observer) : Prop where
  haveSnapshot : s.queue.haveSnapshot = decide (o.current.kind = .snapshot)
  pushed : o.current.kind = .snapshot → o.current.pushed = o.current.popped ++ s.queue.items
  items : o.current.kind ≠ .snapshot → s.queue.items = []
  inOrder : ∀ seg ∈ o.segments, seg.InOrder
  framesQueued : s.queue.framesQueued.toNat = s.queue.items.countP Shared.isNextFrameItem
  bounded : s.queue.framesQueued ≤ maxQueuedFrames
  newestFrame : ∀ seg, o.lastSnapshot = some seg →
    s.queue.newestFrame = seg.frame + UInt64.ofNat seg.frames
  sent : o.sentBefore ≤ s.upstream.length
  requested : s.queue.requestAllowedAt.isSome = true → o.sentBefore < s.upstream.length

/-- Besides, while the queue drops what is pushed, a request is out. -/
structure Follows (s : Shared) (o : Observer) : Prop where
  queued : Queued s o
  dropped : o.current.kind = .dropped → s.queue.requestAllowedAt.isSome = true

/-! ## Segments -/

theorem Segment.frames_add (seg : Segment) (pushed popped : List LiveItem) :
    (seg.add pushed popped).frames = seg.frames + pushed.countP Shared.isNextFrameItem := by
  simp [Segment.add, Segment.frames]

theorem Segment.frame_add {seg : Segment} (h : seg.pushed ≠ []) (pushed popped : List LiveItem) :
    (seg.add pushed popped).frame = seg.frame := by
  obtain ⟨item, rest, hcons⟩ := List.exists_cons_of_ne_nil h
  simp only [Segment.frame, Segment.add, hcons, List.cons_append]
  cases item with
  | packet packet => cases packet <;> rfl
  | syncHash => rfl

namespace Observer

variable {o : Observer}

theorem lastSnapshot_eq (o : Observer) : o.lastSnapshot =
    if o.current.kind = .snapshot then some o.current
    else o.ended.reverse.find? fun seg ↦ decide (seg.kind = .snapshot) := by
  rw [lastSnapshot, segments, List.reverse_append, List.reverse_singleton, List.singleton_append,
    List.find?_cons]
  by_cases h : o.current.kind = .snapshot <;> simp [h]

theorem lastSnapshot_of_live (h : o.current.kind = .snapshot) :
    o.lastSnapshot = some o.current := by
  rw [lastSnapshot_eq, if_pos h]

theorem lastSnapshot_cut_dropped (pushed : List LiveItem) :
    (o.cut .dropped pushed).lastSnapshot = o.lastSnapshot := by
  rw [lastSnapshot_eq, if_neg (by simp [cut])]
  rfl

theorem lastSnapshot_add_of_ne (h : o.current.kind ≠ .snapshot) (pushed popped : List LiveItem) :
    (o.add pushed popped).lastSnapshot = o.lastSnapshot := by
  have h' : (o.add pushed popped).current.kind ≠ .snapshot := h
  rw [lastSnapshot_eq, lastSnapshot_eq, if_neg h, if_neg h']
  rfl

theorem mem_segments_cut {kind : SegmentKind} {pushed : List LiveItem} {seg : Segment} :
    seg ∈ (o.cut kind pushed).segments ↔ seg ∈ o.segments ∨ seg = ⟨kind, pushed, []⟩ := by
  simp [cut, segments, or_assoc]

theorem mem_segments_add {pushed popped : List LiveItem} {seg : Segment}
    (h : seg ∈ (o.add pushed popped).segments) :
    seg ∈ o.segments ∨ seg = o.current.add pushed popped := by
  rcases List.mem_append.mp h with h | h
  · exact .inl (List.mem_append_left _ h)
  · exact .inr (List.mem_singleton.mp h)

end Observer

/-! ## What each call does -/

theorem zero_le_max : (0 : UInt64) ≤ maxQueuedFrames := by decide

namespace Queued

variable {s : Shared} {o : Observer}

/-- A request is out after one was asked for, whether it was held back or not. -/
theorem requestSnapshot (h : Queued s o) (reason : SnapshotRequestReason) (now : Instant) :
    Follows (s.requestSnapshot reason now) o := by
  rw [Shared.requestSnapshot]
  split
  · rename_i hheld
    refine ⟨h, fun _ ↦ ?_⟩
    rw [Shared.requestHeldBack, Option.any_eq_true] at hheld
    obtain ⟨t, ht, -⟩ := hheld
    rw [ht]
    rfl
  · refine ⟨⟨h.haveSnapshot, h.pushed, h.items, h.inOrder, h.framesQueued, h.bounded, h.newestFrame,
      ?_, fun _ ↦ ?_⟩, fun _ ↦ rfl⟩
    · simp only [List.length_append]
      exact Nat.le_add_right_of_le h.sent
    · simp only [List.length_append, List.length_singleton]
      exact Nat.lt_succ_of_le h.sent

/-- What is queued is dropped. -/
theorem dropQueued (h : Queued s o) (pushed : List LiveItem) :
    Queued s.dropQueued (o.cut .dropped pushed) := by
  refine ⟨rfl, fun hkind ↦ (by cases hkind), fun _ ↦ rfl, fun seg hseg ↦ ?_, rfl, zero_le_max,
    fun seg hseg ↦ h.newestFrame seg (Observer.lastSnapshot_cut_dropped pushed ▸ hseg), h.sent,
    h.requested⟩
  rcases Observer.mem_segments_cut.mp hseg with hseg | rfl
  · exact h.inOrder seg hseg
  · exact ⟨fun hkind ↦ (by cases hkind), fun _ ↦ rfl⟩

/-- A snapshot begins a new segment. -/
theorem snapshot (h : Queued s o) (metadata : KeyframeMetadata) (state : ByteVec) :
    Follows ((s.startSnapshot metadata).enqueue (.keyframe metadata state))
      { o.cut .snapshot [.packet (.keyframe metadata state)] with
        sentBefore := s.upstream.length } := by
  refine ⟨⟨rfl, fun _ ↦ rfl, fun hkind ↦ (hkind rfl).elim, fun seg hseg ↦ ?_, rfl, zero_le_max,
    fun seg hseg ↦ ?_, Nat.le_refl _, fun hsome ↦ (by cases hsome)⟩, fun hkind ↦ (by cases hkind)⟩
  · rcases Observer.mem_segments_cut.mp hseg with hseg | rfl
    · exact h.inOrder seg hseg
    · exact ⟨fun _ ↦ ⟨metadata, state, [], rfl, List.nil_prefix⟩, fun hkind ↦ (hkind rfl).elim⟩
  · cases (Observer.lastSnapshot_of_live (o := { o.cut .snapshot [.packet (.keyframe metadata state)]
      with sentBefore := s.upstream.length }) rfl).symm.trans hseg
    exact (UInt64.add_zero _).symm

/-- Whatever is pushed while nothing is queued is dropped. -/
theorem push_dropped (h : Queued s o) (hkind : o.current.kind ≠ .snapshot)
    (pushed : List LiveItem) : Queued s (o.add pushed []) := by
  refine ⟨h.haveSnapshot, fun hkind' ↦ (hkind hkind').elim, h.items, fun seg hseg ↦ ?_,
    h.framesQueued, h.bounded,
    fun seg hseg ↦ h.newestFrame seg (Observer.lastSnapshot_add_of_ne hkind pushed [] ▸ hseg),
    h.sent, h.requested⟩
  rcases Observer.mem_segments_add hseg with hseg | rfl
  · exact h.inOrder seg hseg
  · refine ⟨fun hkind' ↦ (hkind hkind').elim, fun _ ↦ ?_⟩
    have hold := (h.inOrder o.current (by simp [Observer.segments])).other hkind
    simp [Segment.add, hold]

/-- One frame more or none. -/
def frameOf (item : LiveItem) : UInt64 := if Shared.isNextFrameItem item then 1 else 0

/-- What is pushed after a snapshot goes to the end of the queue. -/
theorem push (h : Queued s o) (hkind : o.current.kind = .snapshot) {s' : Shared} {item : LiveItem}
    (hitems : s'.queue.items = s.queue.items ++ [item])
    (hsame : s'.queue.haveSnapshot = s.queue.haveSnapshot ∧ s'.upstream = s.upstream ∧
      s'.queue.requestAllowedAt = s.queue.requestAllowedAt)
    (hframes : s'.queue.framesQueued = s.queue.framesQueued + frameOf item)
    (hnewest : s'.queue.newestFrame = s.queue.newestFrame + frameOf item)
    (hroom : Shared.isNextFrameItem item = true → s.queue.framesQueued < maxQueuedFrames) :
    Queued s' (o.add [item] []) := by
  obtain ⟨hhave, hupstream, hallowed⟩ := hsame
  have hcurrent : o.current ∈ o.segments := by simp [Observer.segments]
  obtain ⟨metadata, state, rest, hpushed, hbefore⟩ := (h.inOrder o.current hcurrent).snapshot hkind
  have hmax : maxQueuedFrames.toNat = 1200 := rfl
  have hbounded := UInt64.le_iff_toNat_le.mp h.bounded
  have hcount : s'.queue.framesQueued.toNat =
      s.queue.framesQueued.toNat + if Shared.isNextFrameItem item then 1 else 0 := by
    rw [hframes, frameOf]
    split
    · rw [UInt64.toNat_add, show (1 : UInt64).toNat = 1 from rfl]
      omega
    · simp
  refine ⟨hhave.trans h.haveSnapshot, fun _ ↦ ?_, fun hkind' ↦ (hkind' hkind).elim,
    fun seg hseg ↦ ?_, ?_, ?_, fun seg hseg ↦ ?_, hupstream ▸ h.sent, fun hsome ↦ ?_⟩
  · simp only [Observer.add, Segment.add, List.append_nil]
    rw [h.pushed hkind, hitems, List.append_assoc]
  · rcases Observer.mem_segments_add hseg with hseg | rfl
    · exact h.inOrder seg hseg
    · refine ⟨fun _ ↦ ⟨metadata, state, rest ++ [item], ?_, ?_⟩, fun hkind' ↦ (hkind' hkind).elim⟩
      · simp [Segment.add, hpushed]
      · simp only [Segment.add, List.append_nil]
        exact hbefore.trans (List.prefix_append _ _)
  · rw [hcount, hitems, List.countP_append, h.framesQueued]
    simp [List.countP_cons]
  · rw [UInt64.le_iff_toNat_le, hcount]
    split
    · rename_i hframe
      have := UInt64.lt_iff_toNat_lt.mp (hroom hframe)
      omega
    · omega
  · have hlast := Observer.lastSnapshot_of_live (o := o.add [item] []) hkind
    cases hlast.symm.trans hseg
    have hold := h.newestFrame o.current (Observer.lastSnapshot_of_live hkind)
    simp only [Observer.add]
    rw [hnewest, hold, Segment.frames_add, Segment.frame_add (by simp [hpushed]), UInt64.add_assoc,
      frameOf]
    congr 1
    simp only [List.countP_cons, List.countP_nil, Nat.zero_add]
    split
    · exact (UInt64.ofNat_add _ 1).symm
    · exact UInt64.add_zero _
  · rw [hallowed] at hsome
    rw [hupstream]
    exact h.requested hsome

/-- The first item of the queue is popped. -/
theorem pop (h : Queued s o) {item : LiveItem} {items : List LiveItem}
    (hitems : s.queue.items = item :: items) : Queued s.pop.1 (o.add [] [item]) := by
  have hkind : o.current.kind = .snapshot := by
    by_contra hne
    rw [h.items hne] at hitems
    cases hitems
  have hpopped : s.pop.1.queue = { s.queue with
      items
      framesQueued := if Shared.isNextFrameItem item then s.queue.framesQueued - 1
        else s.queue.framesQueued } := by
    rw [Shared.pop, hitems]
  have hupstream : s.pop.1.upstream = s.upstream := by
    rw [Shared.pop, hitems]
  have hcount := h.framesQueued
  rw [hitems, List.countP_cons] at hcount
  have hbounded := UInt64.le_iff_toNat_le.mp h.bounded
  have hleft : (if Shared.isNextFrameItem item then s.queue.framesQueued - 1
      else s.queue.framesQueued).toNat = items.countP Shared.isNextFrameItem := by
    split
    · rename_i hframe
      rw [if_pos hframe] at hcount
      rw [UInt64.toNat_sub_of_le _ _ (by rw [UInt64.le_iff_toNat_le, hcount]; simp), hcount]
      rfl
    · rename_i hframe
      rw [if_neg hframe] at hcount
      exact hcount
  refine ⟨?_, fun _ ↦ ?_, fun hkind' ↦ (hkind' hkind).elim, fun seg hseg ↦ ?_, ?_, ?_,
    fun seg hseg ↦ ?_, ?_, fun hsome ↦ ?_⟩
  · rw [hpopped]
    exact h.haveSnapshot
  · rw [hpopped]
    simp only [Observer.add, Segment.add, List.append_nil]
    rw [h.pushed hkind, hitems, List.append_assoc]
    rfl
  · rcases Observer.mem_segments_add hseg with hseg | rfl
    · exact h.inOrder seg hseg
    · have hcurrent : o.current ∈ o.segments := by simp [Observer.segments]
      obtain ⟨metadata, state, rest, hpushed, -⟩ := (h.inOrder o.current hcurrent).snapshot hkind
      refine ⟨fun _ ↦ ⟨metadata, state, rest, ?_, ?_⟩, fun hkind' ↦ (hkind' hkind).elim⟩
      · simpa [Segment.add] using hpushed
      · simp only [Segment.add, List.append_nil]
        rw [h.pushed hkind, hitems]
        exact ⟨items, by simp⟩
  · rw [hpopped]
    exact hleft
  · rw [hpopped, UInt64.le_iff_toNat_le]
    dsimp only
    rw [hleft]
    omega
  · have hlast := Observer.lastSnapshot_of_live (o := o.add [] [item]) hkind
    cases hlast.symm.trans hseg
    rw [hpopped]
    have hold := h.newestFrame o.current (Observer.lastSnapshot_of_live hkind)
    simpa [Observer.add, Segment.add, Segment.frame, Segment.frames] using hold
  · rw [hupstream]
    exact h.sent
  · rw [hpopped] at hsome
    rw [hupstream]
    exact h.requested hsome

end Queued

/-! ## Runs -/

namespace Follows

variable {s : Shared} {o : Observer}

/-- What is pushed into a queue that is not dropping goes to its end; else it is dropped. -/
theorem push (h : Follows s o) {s' : Shared} {item : LiveItem}
    (hdropped : s.queue.haveSnapshot = false → s' = s)
    (hitems : s.queue.haveSnapshot = true → s'.queue = { s.queue with
      items := s.queue.items ++ [item]
      framesQueued := s.queue.framesQueued + Queued.frameOf item
      newestFrame := s.queue.newestFrame + Queued.frameOf item } ∧ s'.upstream = s.upstream)
    (hroom : s.queue.haveSnapshot = true → Shared.isNextFrameItem item = true →
      s.queue.framesQueued < maxQueuedFrames) : Follows s' (o.add [item] []) := by
  have hhave := h.queued.haveSnapshot
  by_cases hkind : o.current.kind = .snapshot
  · rw [decide_eq_true hkind] at hhave
    obtain ⟨hqueue, hupstream⟩ := hitems hhave
    refine ⟨h.queued.push hkind ?_ ⟨?_, hupstream, ?_⟩ ?_ ?_ (hroom hhave), fun hdrop ↦ ?_⟩
    · rw [hqueue]
    · rw [hqueue]
    · rw [hqueue]
    · rw [hqueue]
    · rw [hqueue]
    · cases hkind.symm.trans hdrop
  · rw [decide_eq_false hkind] at hhave
    rw [hdropped hhave]
    exact ⟨h.queued.push_dropped hkind [item], h.dropped⟩

/-- The observer sees an overflow when the queue does. -/
theorem overflows_iff (h : Follows s o) : o.overflows = true ↔
    s.queue.haveSnapshot = true ∧ maxQueuedFrames ≤ s.queue.framesQueued := by
  rw [Observer.overflows, Bool.and_eq_true, h.queued.haveSnapshot]
  refine and_congr_right fun hkind ↦ ?_
  have hkind := of_decide_eq_true hkind
  have hbacklog : o.current.backlog = s.queue.framesQueued.toNat := by
    rw [Segment.backlog, h.queued.pushed hkind, List.drop_left, h.queued.framesQueued]
  rw [decide_eq_true_iff, hbacklog, UInt64.le_iff_toNat_le]

/-- A packet that is neither a snapshot nor a frame. -/
theorem push_other (h : Follows s o) {packet : Packet}
    (hframe : Shared.isNextFrameItem (.packet packet) = false) :
    Follows (if s.queue.haveSnapshot = false then s else s.enqueue packet)
      (o.add [.packet packet] []) := by
  refine h.push (fun hno ↦ if_pos hno) (fun hhave ↦ ?_) fun _ hyes ↦ ?_
  · rw [if_neg (by simp [hhave])]
    refine ⟨?_, rfl⟩
    simp [Shared.enqueue, Queued.frameOf, hframe]
  · rw [hframe] at hyes
    cases hyes

theorem pushPacket (h : Follows s o) (packet : Packet) (now : Instant) :
    Follows (s.pushPacket packet now) (o.observe s (.pushPacket packet now)) := by
  cases packet with
  | keyframe metadata state => exact h.queued.snapshot metadata state
  | nextFrame delta =>
    rw [Shared.pushPacket, Observer.observe]
    by_cases hover : o.overflows = true
    · obtain ⟨hhave, hmax⟩ := h.overflows_iff.mp hover
      rw [if_neg (by simp [hhave]), if_pos hmax, if_pos hover]
      exact (h.queued.dropQueued _).requestSnapshot _ now
    · rw [if_neg hover]
      have hnot : s.queue.haveSnapshot = true → ¬ maxQueuedFrames ≤ s.queue.framesQueued :=
        fun hhave hmax ↦ hover (h.overflows_iff.mpr ⟨hhave, hmax⟩)
      refine h.push (fun hno ↦ if_pos hno) (fun hhave ↦ ?_) fun hhave _ ↦ ?_
      · rw [if_neg (by simp [hhave]), if_neg (hnot hhave)]
        exact ⟨rfl, rfl⟩
      · exact UInt64.not_le.mp (hnot hhave)
  | _ => exact h.push_other rfl

theorem pop (h : Follows s o) : Follows s.pop.1 (o.observe s .pop) := by
  rw [Observer.observe, Shared.step]
  cases hitems : s.queue.items with
  | nil =>
    have hpop : s.pop = (s, if s.ended then .ended else .waiting) := by
      rw [Shared.pop, hitems]
    have hnothing : poppedItem (some s.pop.2) = [] := by
      rw [hpop]
      cases s.ended <;> rfl
    rw [hpop] at hnothing ⊢
    rw [hnothing]
    have hself : o.add [] [] = o := by
      simp [Observer.add, Segment.add]
    rwa [hself]
  | cons item items =>
    have hpop : s.pop.2 = .item item := by
      rw [Shared.pop, hitems]
    rw [hpop]
    refine ⟨h.queued.pop hitems, fun hdrop ↦ ?_⟩
    have hkind : o.current.kind = .dropped := hdrop
    rw [h.queued.items (by rw [hkind]; exact fun h ↦ by cases h)] at hitems
    cases hitems

/-- **One call** keeps the queue and the observer together. -/
theorem step (h : Follows s o) (event : QueueEvent) :
    Follows (s.step event).1 (o.observe s event) := by
  cases event with
  | pushPacket packet now => exact h.pushPacket packet now
  | pushSyncHash frame hash =>
    refine h.push (fun hno ↦ if_pos hno) (fun hhave ↦ ?_) fun _ hyes ↦ (by cases hyes)
    have hstep : (s.step (.pushSyncHash frame hash)).1 = { s with queue := { s.queue with
        items := s.queue.items ++ [.syncHash frame hash] } } := if_neg (by simp [hhave])
    rw [hstep]
    exact ⟨by simp [Queued.frameOf, Shared.isNextFrameItem], rfl⟩
  | endStream =>
    exact ⟨⟨h.queued.haveSnapshot, h.queued.pushed, h.queued.items, h.queued.inOrder,
      h.queued.framesQueued, h.queued.bounded, h.queued.newestFrame, h.queued.sent,
      h.queued.requested⟩, h.dropped⟩
  | pop => exact h.pop
  | requestSnapshot reason now => exact h.queued.requestSnapshot reason now
  | discardUntilSnapshot reason now => exact (h.queued.dropQueued []).requestSnapshot reason now

/-- **A run** keeps them together. -/
theorem run (h : Follows s o) (events : List QueueEvent) :
    Follows (s.run events).1 (o.observeAll s events) := by
  induction events generalizing s o with
  | nil => exact h
  | cons event events ih => exact ih (h.step event)

end Follows

/-- The queue starts empty, before the first snapshot. -/
theorem follows_start : Follows liveReplayChannel Observer.start := by
  refine ⟨⟨rfl, fun hkind ↦ (by cases hkind), fun _ ↦ rfl, fun seg hseg ↦ ?_, rfl, by decide,
    fun seg hseg ↦ (by cases hseg), Nat.le_refl _, fun hsome ↦ (by cases hsome)⟩,
    fun hkind ↦ (by cases hkind)⟩
  rw [List.mem_singleton.mp hseg]
  exact ⟨fun hkind ↦ (by cases hkind), fun _ ↦ rfl⟩

namespace Observer

/-- What was popped, in the order of the segments. -/
def popped (o : Observer) : List LiveItem := o.segments.flatMap Segment.popped

theorem popped_cut (o : Observer) (kind : SegmentKind) (pushed : List LiveItem) :
    (o.cut kind pushed).popped = o.popped := by
  simp [popped, cut, segments]

theorem popped_add (o : Observer) (pushed items : List LiveItem) :
    (o.add pushed items).popped = o.popped ++ items := by
  simp [popped, add, segments, Segment.add, List.append_assoc]

/-- The observer notes what a call pops. -/
theorem popped_observe (o : Observer) (s : Shared) (event : QueueEvent) :
    (o.observe s event).popped = o.popped ++ poppedItem (s.step event).2 := by
  cases event with
  | pushPacket packet now =>
    cases packet with
    | keyframe metadata state => exact (popped_cut o _ _).trans (List.append_nil _).symm
    | nextFrame delta =>
      rw [observe]
      split
      · exact (popped_cut o _ _).trans (List.append_nil _).symm
      · exact popped_add o _ _
    | _ => exact popped_add o _ _
  | pushSyncHash frame hash => exact popped_add o _ _
  | pop => exact popped_add o _ _
  | discardUntilSnapshot reason now => exact (popped_cut o _ _).trans (List.append_nil _).symm
  | _ => exact (List.append_nil _).symm

theorem popped_observeAll (o : Observer) (s : Shared) (events : List QueueEvent) :
    (o.observeAll s events).popped = o.popped ++ (s.run events).2 := by
  induction events generalizing o s with
  | nil => exact (List.append_nil _).symm
  | cons event events ih =>
    rw [observeAll, ih, popped_observe, List.append_assoc]
    rfl

end Observer

/-! ## The queue hands over contiguous runs -/

/-- **What is popped in any run.**  The items popped are those of the segments, one after the other:
of a segment that a snapshot opened, the start of what was pushed from the snapshot on; of any other
segment, nothing.  The counters are right: `framesQueued` is the number of frames queued, and at most
the maximum; `newestFrame` is the frame of the last snapshot plus the frames that were pushed in its
segment.  And while the queue drops what is pushed after an overflow or a discard, a request has been
sent since the last snapshot was pushed. -/
theorem live_queue_hands_over_runs (events : List QueueEvent) :
    let queue := (liveReplayChannel.run events).1.queue
    let o := Observer.start.observeAll liveReplayChannel events
    (liveReplayChannel.run events).2 = o.segments.flatMap Segment.popped ∧
      (∀ seg ∈ o.segments, seg.InOrder) ∧
      queue.framesQueued.toNat = queue.items.countP Shared.isNextFrameItem ∧
      queue.framesQueued ≤ maxQueuedFrames ∧
      (∀ seg, o.lastSnapshot = some seg →
        queue.newestFrame = seg.frame + UInt64.ofNat seg.frames) ∧
      (o.current.kind = .dropped →
        o.sentBefore < (liveReplayChannel.run events).1.upstream.length) := by
  intro queue o
  have h := follows_start.run events
  have hpopped := Observer.popped_observeAll Observer.start liveReplayChannel events
  exact ⟨hpopped.symm, h.queued.inOrder, h.queued.framesQueued, h.queued.bounded,
    h.queued.newestFrame, fun hkind ↦ h.queued.requested (h.dropped hkind)⟩

/-- Whether a call pushes a frame. -/
def QueueEvent.pushesFrame : QueueEvent → Bool
  | .pushPacket (.nextFrame _) _ => true
  | _ => false

/-- **A frame that is pushed while the queue is dropping is not counted**: after a discard,
`newestFrame` stays where it was. -/
theorem newestFrame_after_discard :
    let metadata : KeyframeMetadata := ⟨[], Speed.default, 10, 0, []⟩
    let since : List QueueEvent := [.discardUntilSnapshot .loadFailed 1, .pushPacket (.nextFrame 16) 2]
    (liveReplayChannel.run (.pushPacket (.keyframe metadata [1]) 0 :: since)).1.queue.newestFrame ≠
      metadata.elapsedFrames + UInt64.ofNat (since.countP QueueEvent.pushesFrame) := by
  decide

end Live
end SuperShuckie
