import SuperShuckie.Recorder.Write

/-!
# Inserting keyframes

A keyframe is stored in full, or as a region diff against the keyframe before it when that is
smaller.  A Nintendo 3DS keyframe has a level: level 0 is stored in full, a delta of level 1 or 2
against the latest keyframe of at most its level.  When transient pages are masked, such a keyframe
waits until the report of the interval after it is in, and the packets in between wait behind it.
-/

set_option autoImplicit false

namespace SuperShuckie

open ByteFormat

namespace Recorder

variable (x : Externals)

/-! ## Blobs -/

/-- The delta of `state` against the previous keyframe, if it is to be stored as one: the state as
it will be reconstructed, what masking overwrote in it, and the diff. -/
def keyframeDelta (r : Recorder) (state : Bytes) (encoding : KeyframeEncoding) :
    Bytes × List (Nat × Bytes) × Option RegionDiff :=
  let console := r.header.consoleTypeOrDefault
  let resizing := decide (console = .nintendo3DS)
  match r.lastStateToDiff with
  | none => (state, [], none)
  | some previous =>
    if encoding = .auto ∧ (previous.length = state.length ∨ resizing = true) then
      let (state, masked) :=
        if r.settings.maskTransientBuffers ∧ previous.length = state.length then
          applyMasks console previous state
        else (state, [])
      let diff := regionDiffResizing previous state
      (state, masked, if diff.encodedLen < state.length then some diff else none)
    else (state, [], none)

/-- The packet of a keyframe and the state it reconstructs to, which the next delta is taken
against.  A full keyframe is exact: what masking overwrote is put back. -/
def keyframePacket (r : Recorder) (metadata : KeyframeMetadata) (state : Bytes)
    (encoding : KeyframeEncoding) : Packet × Bytes :=
  match r.keyframeDelta state encoding with
  | (state, _, some diff) =>
    (.regionDeltaKeyframe metadata (UInt64.ofNat state.length) diff.control diff.data, state)
  | (state, masked, none) => (.keyframe metadata (unmask state masked), unmask state masked)

/-- Note a keyframe of the blob in progress, which starts at its end. -/
def pushKeyframe (r : Recorder) (metadata : KeyframeMetadata) : Recorder :=
  { r with
    currentBlobKeyframes := r.currentBlobKeyframes ++ [metadata]
    currentBlobKeyframeOffsets :=
      r.currentBlobKeyframeOffsets ++ [UInt64.ofNat r.currentBlob.length] }

/-! ## Stored keyframes -/

/-- Make the transient pages of `state` that nothing read in the interval after it equal to
`reference`, from page `i` on. -/
def maskUnreadPages (reference : Bytes) (offset page : Nat) : List UInt8 → Nat → Bytes → Bytes
  | [], _, state => state
  | first :: access, i, state =>
    let start := offset + i * page
    let stop := start + page
    if state.length < stop ∨ reference.length < stop then state
    else if (state.drop start).take page = (reference.drop start).take page ∨ first = 1 then
      maskUnreadPages reference offset page access (i + 1) state
    else
      maskUnreadPages reference offset page access (i + 1)
        (overwrite state start ((reference.drop start).take page))

/-- The ROM copies of a delta's data stream; `none` aborts. -/
def romCopies (r : Recorder) (reads : List (Nat × Nat)) (data : Bytes) : Option (List RomCopy) :=
  match r.rom with
  | none => some []
  | some rom =>
    if r.romReadsUnknown || !reads.isEmpty then do
      let ranges ← mergeRanges (if r.romReadsUnknown then [(0, rom.length)] else reads)
      match x.romIndex rom ranges with
      | some lookup => pure (findCopies lookup rom data)
      | none => pure []
    else some []

/-- The state of a keyframe as a player rebuilds it, and its payload before compression with the
prefix it is compressed with.  `none` aborts. -/
def storedPayload (r : Recorder) (stored : StoredKeyframes) (keyframe : PendingKeyframe)
    (access : Option (List UInt8)) : Option (Bytes × Bytes × Bytes) :=
  if keyframe.level = 0 then some (keyframe.state, keyframe.state, [])
  else do
    let reference ← stored.states keyframe.level
    let state := match access, stored.accessRange with
      | some access, some (offset, page) =>
        maskUnreadPages reference offset page access 0 keyframe.state
      | _, _ => keyframe.state
    let diff := regionDiffResizing reference state
    let copies ← r.romCopies x keyframe.reads diff.data
    pure (state, encodePayloadV9 diff.control diff.data copies, reference)

/-- Compress a payload: a full state over the default window, a delta with the reference state as
prefix. -/
def compressPayload (r : Recorder) (level : Level) (payload reference : Bytes) :
    Except String Bytes :=
  if level = 0 then
    x.zstd.compressDataWithPrefix payload r.settings.storedKeyframeCompressionLevel []
  else x.zstd.compressDataWithStatePrefix payload r.settings.storedKeyframeCompressionLevel reference

/-- Write a Nintendo 3DS keyframe.  With `access`, the changed pages that nothing read are left out
of it, and the state kept as a reference has them as the reference had. -/
def encodeStoredKeyframe (keyframe : PendingKeyframe) (access : Option (List UInt8)) :
    RecorderAction Unit := do
  let r ← Act.get
  match r.stored with
  | none => Act.abort
  | some stored =>
    match r.storedPayload x stored keyframe access with
    | none => Act.abort
    | some (state, payload, reference) =>
      match r.compressPayload x keyframe.level payload reference with
      | .error e => Act.fail (.other s!"keyframe compression failed: {e}")
      | .ok frame =>
        let packet := Packet.storedKeyframe
          { metadata := keyframe.metadata
            level := UInt8.ofNat keyframe.level.val
            stateLen := UInt64.ofNat state.length
            uncompressedLen := UInt64.ofNat payload.length
            frameLen := UInt64.ofNat frame.length
            frameOffset := 0 }
        writeDirectNow packet.write frame
        Act.modify fun r ↦ { r with
          stored := r.stored.map fun stored ↦ { stored with
            states := fun m ↦ if keyframe.level ≤ m then some state else stored.states m } }
        let r ← Act.get
        -- what the start of a blob does elsewhere: repeat the table after every full keyframe
        if keyframe.level = 0 ∧ (r.bookmarkSnapshotPending ∨ r.bookmarksWritten) then
          writeBookmarkSnapshot

/-- Write out the packets held back behind a keyframe that is written now.  They are dropped from
memory even when that fails. -/
def flushPendingPackets : RecorderAction Unit := do
  let r ← Act.get
  match r.stored with
  | none => pure ()
  | some stored =>
    if stored.pendingPackets.isEmpty then pure ()
    else
      let bytes := stored.pendingPackets
      Act.modify fun r ↦ { r with
        stored := r.stored.map fun stored ↦ { stored with pendingPackets := [] } }
      assertNotClosed
      refuseIfFinalFailed
      finalWrite (Sink.writeBytes bytes)
      let r ← Act.get
      advanceOffset r.currentBlobOffset bytes.length
      tempWrite (Sink.writeBytes bytes)

/-- Write the keyframe that still waits for a report; nothing is left out of it. -/
def finishPendingStoredKeyframe : RecorderAction Unit := do
  let r ← Act.get
  match r.stored.bind fun stored ↦ stored.pending with
  | none => pure ()
  | some pending =>
    Act.modify fun r ↦ { r with
      stored := r.stored.map fun stored ↦ { stored with pending := none } }
    encodeStoredKeyframe x pending none
    flushPendingPackets

/-- `u32::saturating_mul`. -/
def saturatingMul32 (a b : Nat) : Nat := min (a * b) (2 ^ 32 - 1)

/-- The level of the next keyframe. -/
def nextLevel (settings : RecorderSettings) (stored : StoredKeyframes)
    (encoding : KeyframeEncoding) : Level :=
  let (level0EveryLevel1s, level1Every) := settings.storedKeyframeLevels
  if stored.hasLevel0 = false ∨ encoding = .full ∨
      saturatingMul32 level0EveryLevel1s level1Every ≤ stored.sinceLevel0 then 0
  else if level1Every ≤ stored.sinceLevel1 then 1
  else 2

/-- Count a keyframe of a level, and take the ROM ranges read since its reference. -/
def StoredKeyframes.countLevel (stored : StoredKeyframes) (level : Level) : StoredKeyframes :=
  { stored with
    hasLevel0 := stored.hasLevel0 || decide (level = 0)
    sinceLevel0 := if level = 0 then 0 else stored.sinceLevel0 + 1
    sinceLevel1 := if level = 2 then stored.sinceLevel1 + 1 else 0
    readsSince := fun m ↦ if level ≤ m then [] else stored.readsSince m }

/-- `keyframe timestamp went backwards`. -/
def backwardsError (old new : TimestampMillis) : ReplayFileWriteError :=
  .badInput s!"keyframe timestamp went backwards ({old.toNat} -> {new.toNat})"

/-- The Nintendo 3DS keyframe. -/
def insertStoredKeyframe (state : Bytes) (elapsedMillis : TimestampMillis)
    (encoding : KeyframeEncoding) : RecorderAction UnsignedInteger := do
  assertNotClosed
  let r ← Act.get
  if elapsedMillis < r.elapsedMillis then
    Act.fail (backwardsError r.elapsedMillis elapsedMillis)
  else
    match r.stored with
    | none => Act.abort
    | some stored =>
      let level := nextLevel r.settings stored encoding
      let keyframe : PendingKeyframe :=
        { state, metadata := r.keyframeMetadata elapsedMillis, level
          reads := if level = 0 then [] else stored.readsSince level }
      Act.modify fun r ↦ { r with
        elapsedMillis
        stored := some (StoredKeyframes.countLevel stored level) }
      if r.settings.storedKeyframeMaskTransients then
        match stored.pending with
        | some previous =>
          Act.modify fun r ↦ { r with
            stored := r.stored.map fun stored ↦ { stored with pending := none, accessSince := [] } }
          encodeStoredKeyframe x previous (some stored.accessSince)
          flushPendingPackets
          Act.modify fun r ↦ { r with
            stored := r.stored.map fun s ↦ { s with accessSince := stored.accessSince } }
        | none => pure ()
        Act.modify fun r ↦ { r with
          stored := r.stored.map fun stored ↦ { stored with
            accessSince := stored.accessSince.map fun _ ↦ 0
            pending := some keyframe } }
      else encodeStoredKeyframe x keyframe none
      let r ← Act.get
      pure r.elapsedFrames

/-! ## Keyframes of every console -/

/-- The blob in progress is closed first when it has reached its limit; the next delta then has no
base. -/
def splitBlob : RecorderAction Unit := do
  let r ← Act.get
  if r.blobLimitReached then
    nextBlob x
    Act.modify fun r ↦ { r with lastStateToDiff := none }

/-- Add a keyframe stored as `encoding` asks.  Returns the frame it is on. -/
def insertKeyframeWith (state : Bytes) (elapsedMillis : TimestampMillis)
    (encoding : KeyframeEncoding) : RecorderAction UnsignedInteger := do
  let r ← Act.get
  if r.stored.isSome then insertStoredKeyframe x state elapsedMillis encoding
  else
    assertNotClosed
    if elapsedMillis < r.elapsedMillis then
      Act.fail (backwardsError r.elapsedMillis elapsedMillis)
    else
      Act.modify fun r ↦ { r with elapsedMillis }
      splitBlob x
      let r ← Act.get
      let metadata := r.keyframeMetadata elapsedMillis
      Act.modify fun r ↦ r.pushKeyframe metadata
      let (packet, state) := r.keyframePacket metadata state encoding
      writePacketData packet
      Act.modify fun r ↦ { r with lastStateToDiff := some state }
      let r ← Act.get
      -- a blob that starts after bookmarks were written repeats the table
      if r.bookmarkSnapshotPending ∨ (r.currentBlobKeyframes.length = 1 ∧ r.bookmarksWritten) then
        writeBookmarkSnapshot
      let r ← Act.get
      pure r.elapsedFrames

/-- Add a keyframe. -/
def insertKeyframe (state : Bytes) (elapsedMillis : TimestampMillis) :
    RecorderAction UnsignedInteger := insertKeyframeWith x state elapsedMillis .auto

end Recorder

end SuperShuckie
