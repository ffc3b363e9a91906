import SuperShuckie.PlayTogether.Stream
import SuperShuckie.Zstd

/-!
# What is sent

What waits to be written on a connection, and how the writer turns it into messages: consecutive
streams are merged into one message up to a limit, snapshots and start states are compressed, and what
is already framed is copied through.

`groups` says which items go out together; `encodeOutbound_holds` says that the writer's bytes are
those of the groups, one after the other, and that its boundaries are where they end.
-/

set_option autoImplicit false

namespace SuperShuckie

open ByteFormat

namespace PlayTogether

/-! ## Snapshots and start states -/

/-- A publisher's state at one frame, as the application sees it. -/
structure SnapshotData where
  /-- Streams that follow start here. -/
  frame : UInt64
  elapsedMillis : UInt64
  input : InputBuffer
  speed : Speed
  counters : List (String × Int64)
  /-- The raw save state. -/
  state : Bytes
deriving DecidableEq

/-- The save state every participant's own game is loaded from, as the application sees it. -/
structure StartStateData where
  romChecksum : Blake3Hash
  state : Bytes
deriving DecidableEq

def snapshotZstdLevel : Int := 3

/-- Compress a state as a snapshot carries it. -/
def compressState (z : Zstd) (state : Bytes) : Option Bytes :=
  (z.compressData state snapshotZstdLevel).toOption

namespace WireSnapshot

/-- Wrap a snapshot around an already encoded state. -/
def withState (data : SnapshotData) (sender target : PeerId) (encoding : StateEncoding)
    (state : Bytes) : WireSnapshot :=
  { fromPeer := sender
    target
    frame := data.frame
    elapsedMillis := data.elapsedMillis
    input := data.input
    speed := data.speed
    counters := data.counters
    encoding
    stateLen := UInt64.ofNat data.state.length
    state }

/-- Wrap a snapshot with its state compressed, or raw if that fails. -/
def ofData (z : Zstd) (data : SnapshotData) (sender target : PeerId) : WireSnapshot :=
  match compressState z data.state with
  | some state => withState data sender target .zstd state
  | none => withState data sender target .raw data.state

end WireSnapshot

namespace WireStartState

def withState (data : StartStateData) (encoding : StateEncoding) (state : Bytes) :
    WireStartState :=
  { romChecksum := data.romChecksum
    encoding
    stateLen := UInt64.ofNat data.state.length
    state }

/-- Wrap a start state with its state compressed, or raw if that fails. -/
def ofData (z : Zstd) (data : StartStateData) : WireStartState :=
  match compressState z data.state with
  | some state => withState data .zstd state
  | none => withState data .raw data.state

/-- Whether this clears the start state. -/
def isCleared (s : WireStartState) : Bool := s.stateLen == 0 && s.state.isEmpty

end WireStartState

/-- Decode a state that is carried so.  Its length is checked before anything is allocated. -/
def decodeState (z : Zstd) (encoding : StateEncoding) (stateLen : UInt64) (state : Bytes) :
    Except DecodeError Bytes :=
  if maxStateLength < stateLen.toNat then .error (.stateTooLarge stateLen)
  else
    match encoding with
    | .raw =>
      if state.length ≠ stateLen.toNat then
        .error (.badState s!"raw state is {state.length} bytes but state_len says {stateLen}")
      else .ok state
    | .zstd =>
      match z.decompressData state stateLen.toNat with
      | .ok state => .ok state
      | .error e => .error (.badState e)

/-- The snapshot as the application sees it. -/
def WireSnapshot.intoSnapshot (z : Zstd) (s : WireSnapshot) : Except DecodeError SnapshotData := do
  let state ← decodeState z s.encoding s.stateLen s.state
  pure
    { frame := s.frame
      elapsedMillis := s.elapsedMillis
      input := s.input
      speed := s.speed
      counters := s.counters
      state }

/-- The start state as the application sees it, `none` when it is cleared. -/
def WireStartState.intoState (z : Zstd) (s : WireStartState) :
    Except DecodeError (Option StartStateData) :=
  if s.isCleared then .ok none
  else do
    let state ← decodeState z s.encoding s.stateLen s.state
    pure (some ⟨s.romChecksum, state⟩)

/-! ## The writer -/

/-- One thing waiting to be written. -/
inductive Outbound
  /-- A run of whole packets from the local publisher, whose frame count before the first
  `NextFrame` in it is `firstFrame`. -/
  | stream (firstFrame : UInt64) (bytes : Bytes)
  | snapshot (data : SnapshotData) (target : PeerId)
  | startState (data : StartStateData)
  /-- An already framed message. -/
  | encoded (bytes : Bytes)

/-- What the writer produces of a batch of items. -/
structure EncodedBatch where
  bytes : Bytes
  messages : Nat
  /-- Where each message in `bytes` ends. -/
  boundaries : List Nat
  /-- Items that could not be sent, described. -/
  dropped : List String

/-- An empty batch. -/
def EncodedBatch.empty : EncodedBatch := ⟨[], 0, [], []⟩

/-- Append a framed message. -/
def EncodedBatch.push (batch : EncodedBatch) (encoded : Bytes) : EncodedBatch :=
  { batch with
    bytes := batch.bytes ++ encoded
    messages := batch.messages + 1
    boundaries := batch.boundaries ++ [(batch.bytes ++ encoded).length] }

/-- Append a framed message, unless it is too large. -/
def EncodedBatch.pushOrDrop (batch : EncodedBatch) (encoded : Bytes) (text : String) :
    EncodedBatch :=
  if maxMessageLength < encoded.length - 4 then
    { batch with dropped := batch.dropped ++ [text] }
  else batch.push encoded

/-- Send what has been merged so far. -/
def EncodedBatch.flush (sender : PeerId) (batch : EncodedBatch) :
    Option (UInt64 × Bytes) → EncodedBatch
  | some (firstFrame, bytes) => batch.push (Message.stream sender firstFrame bytes).encode
  | none => batch

/-- The message of a snapshot. -/
def snapshotMessage (z : Zstd) (sender : PeerId) (data : SnapshotData) (target : PeerId) :
    Message := .snapshot (.ofData z data sender target)

/-- The message of a start state. -/
def startStateMessage (z : Zstd) (data : StartStateData) : Message := .startState (.ofData z data)

/-- How a snapshot that is too large is described. -/
def snapshotDropped (data : SnapshotData) : String :=
  s!"a snapshot of {data.state.length} bytes (frame {data.frame}) is too large to send"

/-- How a start state that is too large is described. -/
def startStateDropped (data : StartStateData) : String :=
  s!"a start state of {data.state.length} bytes is too large to send"

/-- Write one item. -/
def encodeItem (z : Zstd) (sender : PeerId) :
    Option (UInt64 × Bytes) × EncodedBatch → Outbound → Option (UInt64 × Bytes) × EncodedBatch
  | (pending, batch), .stream firstFrame bytes =>
    let merged := match pending with
      | some (first, buf) => (first, buf ++ bytes)
      | none => (firstFrame, bytes)
    -- a single item larger than the limit goes out with whatever it was merged into
    if streamMergeLimit ≤ merged.2.length then (none, batch.flush sender (some merged))
    else (some merged, batch)
  | (pending, batch), .snapshot data target =>
    (none, (batch.flush sender pending).pushOrDrop (snapshotMessage z sender data target).encode
      (snapshotDropped data))
  | (pending, batch), .startState data =>
    (none, (batch.flush sender pending).pushOrDrop (startStateMessage z data).encode
      (startStateDropped data))
  | (pending, batch), .encoded bytes => (none, (batch.flush sender pending).push bytes)

/-- Turn items into bytes. -/
def encodeOutbound (z : Zstd) (items : List Outbound) (sender : PeerId) : EncodedBatch :=
  let (pending, batch) := items.foldl (encodeItem z sender) (none, .empty)
  batch.flush sender pending

/-! ## What goes out together -/

/-- A stream item: its first frame and its bytes. -/
abbrev StreamItem := UInt64 × Bytes

/-- Items that go out as one message. -/
inductive Group
  | streams (first : StreamItem) (more : List StreamItem)
  | single (item : Outbound)

/-- The bytes of merged streams. -/
def mergedBytes (first : StreamItem) (more : List StreamItem) : Bytes :=
  first.2 ++ more.flatMap Prod.snd

/-- What is sent: a message, or bytes that are framed already. -/
inductive Sent
  | message (m : Message)
  | raw (bytes : Bytes)

def Sent.frame : Sent → Bytes
  | .message m => m.encode
  | .raw bytes => bytes

/-- A message of its own, unless it is too large. -/
def sentOrDropped (m : Message) : Option Sent :=
  if maxMessageLength < m.encode.length - 4 then none else some (.message m)

/-- What is sent of a group. -/
def Group.sent (z : Zstd) (sender : PeerId) : Group → Option Sent
  | .streams first more => some (.message (.stream sender first.1 (mergedBytes first more)))
  | .single (.stream firstFrame bytes) => some (.message (.stream sender firstFrame bytes))
  | .single (.snapshot data target) => sentOrDropped (snapshotMessage z sender data target)
  | .single (.startState data) => sentOrDropped (startStateMessage z data)
  | .single (.encoded bytes) => some (.raw bytes)

/-- The streams that have been merged so far. -/
abbrev Pending := Option (StreamItem × List StreamItem)

/-- Merge one more stream. -/
def Pending.add (item : StreamItem) : Pending → StreamItem × List StreamItem
  | none => (item, [])
  | some (first, more) => (first, more ++ [item])

/-- The merged streams go out. -/
def Pending.close : Pending → List Group
  | none => []
  | some (first, more) => [.streams first more]

/-- The groups of the items that follow what is pending. -/
def groupsGo : Pending → List Outbound → List Group
  | pending, [] => pending.close
  | pending, .stream firstFrame bytes :: items =>
    let merged := pending.add (firstFrame, bytes)
    if streamMergeLimit ≤ (mergedBytes merged.1 merged.2).length then
      .streams merged.1 merged.2 :: groupsGo none items
    else groupsGo (some merged) items
  | pending, item :: items => pending.close ++ .single item :: groupsGo none items

/-- Which items go out together. -/
def groups (items : List Outbound) : List Group := groupsGo none items

/-- What the writer has pending of them. -/
def Pending.buffer : Pending → Option (UInt64 × Bytes)
  | none => none
  | some (first, more) => some (first.1, mergedBytes first more)

theorem mergedBytes_append (first item : StreamItem) (more : List StreamItem) :
    mergedBytes first (more ++ [item]) = mergedBytes first more ++ item.2 := by
  simp [mergedBytes]

/-- A stream is merged into what is pending, which goes out once it reaches the limit. -/
theorem encodeItem_stream (z : Zstd) (sender : PeerId) (pending : Pending) (batch : EncodedBatch)
    (firstFrame : UInt64) (bytes : Bytes) :
    encodeItem z sender (pending.buffer, batch) (.stream firstFrame bytes) =
      let merged := pending.add (firstFrame, bytes)
      if streamMergeLimit ≤ (mergedBytes merged.1 merged.2).length then
        (Pending.buffer none, batch.flush sender (Pending.buffer (some merged)))
      else (Pending.buffer (some merged), batch) := by
  cases pending with
  | none =>
    have hmerged : mergedBytes (firstFrame, bytes) [] = bytes := List.append_nil bytes
    simp only [encodeItem, Pending.buffer, Pending.add, hmerged]
    by_cases h : streamMergeLimit ≤ bytes.length
    · exact (if_pos h).trans (if_pos h).symm
    · exact (if_neg h).trans (if_neg h).symm
  | some merged =>
    obtain ⟨first, more⟩ := merged
    simp only [encodeItem, Pending.buffer, Pending.add, mergedBytes_append]
    by_cases h : streamMergeLimit ≤ (mergedBytes first more ++ bytes).length
    · exact (if_pos h).trans (if_pos h).symm
    · exact (if_neg h).trans (if_neg h).symm

/-! ### The bytes of a batch -/

/-- Where each of the frames ends, when the first starts at `start`. -/
def frameEnds : Nat → List Bytes → List Nat
  | _, [] => []
  | start, frame :: frames =>
    (start + frame.length) :: frameEnds (start + frame.length) frames

theorem frameEnds_append {start : Nat} {frames more : List Bytes} :
    frameEnds start (frames ++ more) =
      frameEnds start frames ++ frameEnds (start + frames.flatten.length) more := by
  induction frames generalizing start with
  | nil => rfl
  | cons frame frames ih =>
    simp only [List.cons_append, frameEnds, ih, List.flatten_cons, List.length_append, Nat.add_assoc]

/-- The batch is these frames, and its boundaries are where they end. -/
def EncodedBatch.Holds (batch : EncodedBatch) (frames : List Bytes) : Prop :=
  batch.bytes = frames.flatten ∧ batch.boundaries = frameEnds 0 frames

namespace EncodedBatch.Holds

variable {batch : EncodedBatch} {frames : List Bytes}

theorem push (h : batch.Holds frames) (encoded : Bytes) :
    (batch.push encoded).Holds (frames ++ [encoded]) := by
  refine ⟨?_, ?_⟩
  · show batch.bytes ++ encoded = _
    rw [h.1, List.flatten_concat]
  · show batch.boundaries ++ [(batch.bytes ++ encoded).length] = _
    rw [h.2, h.1, frameEnds_append, Nat.zero_add, List.length_append]
    rfl

theorem pushOrDrop (h : batch.Holds frames) (m : Message) (text : String) :
    (batch.pushOrDrop m.encode text).Holds (frames ++ (sentOrDropped m).toList.map Sent.frame) := by
  rw [EncodedBatch.pushOrDrop, sentOrDropped]
  split
  · exact ⟨h.1.trans (by simp), h.2.trans (by simp)⟩
  · exact h.push m.encode

theorem flush (h : batch.Holds frames) (z : Zstd) (sender : PeerId) (pending : Pending) :
    (batch.flush sender pending.buffer).Holds
      (frames ++ (pending.close.filterMap (Group.sent z sender)).map Sent.frame) := by
  cases pending with
  | none => exact ⟨h.1.trans (by simp [Pending.close]), h.2.trans (by simp [Pending.close])⟩
  | some merged => exact h.push _

end EncodedBatch.Holds

/-- The frames that the writer makes of items. -/
def sentFrames (z : Zstd) (sender : PeerId) (gs : List Group) : List Bytes :=
  (gs.filterMap (Group.sent z sender)).map Sent.frame

theorem sentFrames_append (z : Zstd) (sender : PeerId) (gs more : List Group) :
    sentFrames z sender (gs ++ more) = sentFrames z sender gs ++ sentFrames z sender more := by
  rw [sentFrames, List.filterMap_append, List.map_append]
  rfl

theorem sentFrames_cons (z : Zstd) (sender : PeerId) (g : Group) (gs : List Group) :
    sentFrames z sender (g :: gs) =
      (g.sent z sender).toList.map Sent.frame ++ sentFrames z sender gs := by
  rw [sentFrames, List.filterMap_cons]
  cases g.sent z sender <;> rfl

/-- **A batch is the frames of the groups**, one after the other, and says where each ends. -/
theorem encodeOutbound_holds (z : Zstd) (items : List Outbound) (sender : PeerId) :
    (encodeOutbound z items sender).Holds (sentFrames z sender (groups items)) := by
  suffices key : ∀ (pending : Pending) (batch : EncodedBatch) (frames : List Bytes),
      batch.Holds frames →
      ((items.foldl (encodeItem z sender) (pending.buffer, batch)).2.flush sender
        (items.foldl (encodeItem z sender) (pending.buffer, batch)).1).Holds
      (frames ++ sentFrames z sender (groupsGo pending items)) from
    key none .empty [] ⟨rfl, rfl⟩
  induction items with
  | nil => exact fun pending batch frames h ↦ h.flush z sender pending
  | cons item items ih =>
    intro pending batch frames h
    -- what is pending goes out before an item that is not merged
    have hsingle : ∀ batch' : EncodedBatch, batch'.Holds
        ((frames ++ sentFrames z sender pending.close) ++
          ((Group.single item).sent z sender).toList.map Sent.frame) →
        ((items.foldl (encodeItem z sender) (none, batch')).2.flush sender
          (items.foldl (encodeItem z sender) (none, batch')).1).Holds
        (frames ++ sentFrames z sender (pending.close ++ .single item :: groupsGo none items)) := by
      intro batch' hbatch'
      rw [sentFrames_append, sentFrames_cons, ← List.append_assoc, ← List.append_assoc]
      exact ih none batch' _ hbatch'
    have hflush := h.flush z sender pending
    cases item with
    | stream firstFrame bytes =>
      rw [List.foldl_cons, encodeItem_stream, groupsGo]
      dsimp only
      split
      · have hrest := ih none _ _ (h.flush z sender (some (pending.add (firstFrame, bytes))))
        rw [sentFrames_cons, ← List.append_assoc]
        exact hrest
      · exact ih (some (pending.add (firstFrame, bytes))) batch frames h
    | snapshot data target => exact hsingle _ (hflush.pushOrDrop _ _)
    | startState data => exact hsingle _ (hflush.pushOrDrop _ _)
    | encoded bytes => exact hsingle _ (hflush.push bytes)

/-- **The writer's bytes are those of the groups**, one after the other. -/
theorem encodeOutbound_bytes (z : Zstd) (items : List Outbound) (sender : PeerId) :
    (encodeOutbound z items sender).bytes =
      ((groups items).filterMap (Group.sent z sender)).flatMap Sent.frame := by
  rw [(encodeOutbound_holds z items sender).1, sentFrames, List.flatMap]

/-- How an item that is too large to be sent is described. -/
def Outbound.droppedText (z : Zstd) (sender : PeerId) : Outbound → Option String
  | .snapshot data target =>
    if maxMessageLength < (snapshotMessage z sender data target).encode.length - 4 then
      some (snapshotDropped data)
    else none
  | .startState data =>
    if maxMessageLength < (startStateMessage z data).encode.length - 4 then
      some (startStateDropped data)
    else none
  | _ => none

theorem dropped_flush (sender : PeerId) (batch : EncodedBatch) (pending : Option (UInt64 × Bytes)) :
    (batch.flush sender pending).dropped = batch.dropped := by
  cases pending <;> rfl

theorem dropped_pushOrDrop (batch : EncodedBatch) (encoded : Bytes) (text : String) :
    (batch.pushOrDrop encoded text).dropped = batch.dropped ++
      (if maxMessageLength < encoded.length - 4 then some text else none).toList := by
  rw [EncodedBatch.pushOrDrop]
  split
  · rfl
  · exact (List.append_nil _).symm

/-- **What is not sent is reported.** -/
theorem encodeOutbound_dropped (z : Zstd) (items : List Outbound) (sender : PeerId) :
    (encodeOutbound z items sender).dropped = items.filterMap (Outbound.droppedText z sender) := by
  have hstep : ∀ (state : Option (UInt64 × Bytes) × EncodedBatch) (item : Outbound),
      (encodeItem z sender state item).2.dropped =
        state.2.dropped ++ (item.droppedText z sender).toList := by
    rintro ⟨pending, batch⟩ item
    cases item with
    | stream firstFrame bytes =>
      unfold encodeItem
      refine Eq.trans ?_ (List.append_nil _).symm
      dsimp only
      generalize (match pending with
        | some (first, buf) => (first, buf ++ bytes)
        | none => (firstFrame, bytes)) = merged
      split_ifs
      · exact dropped_flush _ _ _
      · rfl
    | snapshot data target => rw [encodeItem, dropped_pushOrDrop, dropped_flush]; rfl
    | startState data => rw [encodeItem, dropped_pushOrDrop, dropped_flush]; rfl
    | encoded bytes =>
      rw [encodeItem]
      exact (dropped_flush _ _ _).trans (List.append_nil _).symm
  have hall : ∀ state : Option (UInt64 × Bytes) × EncodedBatch,
      (items.foldl (encodeItem z sender) state).2.dropped =
        state.2.dropped ++ items.filterMap (Outbound.droppedText z sender) := by
    induction items with
    | nil => exact fun state ↦ (List.append_nil _).symm
    | cons item items ih =>
      intro state
      rw [List.foldl_cons, ih, hstep, List.filterMap_cons, List.append_assoc]
      cases item.droppedText z sender <;> rfl
  have hfinal := dropped_flush sender (items.foldl (encodeItem z sender) (none, .empty)).2
    (items.foldl (encodeItem z sender) (none, .empty)).1
  exact hfinal.trans (hall (none, .empty))

/-- The items of a group. -/
def Group.items : Group → List Outbound
  | .streams first more => (first :: more).map fun item ↦ .stream item.1 item.2
  | .single item => [item]

/-- **Nothing is lost or reordered**: the items of the groups are the items. -/
theorem items_groups (items : List Outbound) : (groups items).flatMap Group.items = items := by
  have hadd : ∀ (pending : Pending) (firstFrame : UInt64) (bytes : Bytes),
      (Group.streams (pending.add (firstFrame, bytes)).1 (pending.add (firstFrame, bytes)).2).items =
        pending.close.flatMap Group.items ++ [.stream firstFrame bytes] := by
    intro pending firstFrame bytes
    cases pending <;> simp [Pending.add, Pending.close, Group.items]
  suffices key : ∀ pending : Pending,
      (groupsGo pending items).flatMap Group.items = pending.close.flatMap Group.items ++ items from
    key none
  induction items with
  | nil =>
    intro pending
    rw [groupsGo, List.append_nil]
  | cons item items ih =>
    intro pending
    have hsingle : (pending.close ++ .single item :: groupsGo none items).flatMap Group.items =
        pending.close.flatMap Group.items ++ item :: items := by
      rw [List.flatMap_append, List.flatMap_cons, ih none]
      rfl
    cases item with
    | stream firstFrame bytes =>
      rw [groupsGo]
      split
      · rw [List.flatMap_cons, ih none, hadd]
        simp [Pending.close]
      · rw [ih, Pending.close, List.flatMap_cons, hadd]
        simp
    | snapshot data target => exact hsingle
    | startState data => exact hsingle
    | encoded bytes => exact hsingle

/-- A stream never goes out on its own: it is the first of what is merged. -/
theorem single_stream_not_mem_groups {items : List Outbound} {firstFrame : UInt64} {bytes : Bytes} :
    Group.single (.stream firstFrame bytes) ∉ groups items := by
  have hclose : ∀ pending : Pending,
      Group.single (.stream firstFrame bytes) ∉ pending.close := by
    intro pending
    cases pending <;> simp [Pending.close]
  suffices key : ∀ pending, Group.single (.stream firstFrame bytes) ∉ groupsGo pending items from
    key none
  induction items with
  | nil => exact hclose
  | cons item items ih =>
    intro pending
    cases item with
    | stream first more =>
      rw [groupsGo]
      split
      · simp [ih none]
      · exact ih _
    | _ => simp [groupsGo, hclose, ih none]

end PlayTogether

end SuperShuckie
