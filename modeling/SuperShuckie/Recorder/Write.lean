import SuperShuckie.Recorder.State

/-!
# Writing a replay file

The operations of a recorder on its sinks.  The final sink is written first and the temp sink
second.  A failure of the final sink is returned and the data kept, so that the operation can be
tried again; a failure of the temp sink is returned once, and after it the temp sink is left alone.

The packets of a recording are gathered in the blob in progress and reach the final sink as a whole
compressed blob (`nextBlob`); the packets of a Nintendo 3DS file are written directly, or wait
behind a keyframe that is not written yet.
-/

set_option autoImplicit false

namespace SuperShuckie

open ByteFormat

namespace Recorder

def isClosed (r : Recorder) : Bool := r.sink.isNone

def assertNotClosed : RecorderAction Unit := fun r ↦
  if r.isClosed then .error .streamClosed r else .ok () r

/-- Refuse a write while an earlier failure of the final sink is unresolved. -/
def refuseIfFinalFailed : RecorderAction Unit := fun r ↦
  if r.sink.any fun s ↦ s.finalFailed then .error .poisoned r else .ok () r

/-- Attempt a write to the final sink, and note whether it failed. -/
def finalWrite {α : Type} (f : Act ReplayFileWriteError Sink α) : RecorderAction α := fun r ↦
  match r.sink with
  | none => .error .streamClosed r
  | some sink =>
    match f sink.finalSink with
    | .ok v s => .ok v { r with sink := some { sink with finalSink := s, finalFailed := false } }
    | .error e s => .error e { r with sink := some { sink with finalSink := s, finalFailed := true } }
    | .abort => .abort

/-- Attempt a write to the temp sink.  Once it has failed, every later call does nothing: the first
failure is the only one ever returned. -/
def tempWrite (f : Act ReplayFileWriteError Sink Unit) : RecorderAction Unit := fun r ↦
  match r.sink with
  | none => .error .streamClosed r
  | some sink =>
    if sink.tempFailed.isSome then .ok () r
    else
      match f sink.tempSink with
      | .ok _ s => .ok () { r with sink := some { sink with tempSink := s } }
      | .error e s =>
        .error (.tempSink s!"Temp file error: {e.toText}")
          { r with sink := some { sink with tempSink := s, tempFailed := some e } }
      | .abort => .abort

/-- Rewrite the header in place. -/
def syncHeader : RecorderAction Unit := do
  assertNotClosed
  refuseIfFinalFailed
  let r ← Act.get
  finalWrite (Sink.overwriteHeader r.header.asBytes)
  tempWrite (Sink.overwriteHeader r.header.asBytes)

/-- `checked_add` on the stream position. -/
def advanceOffset (offset written : Nat) : RecorderAction Unit :=
  if offset + written < 2 ^ 64 then Act.modify fun r ↦ { r with currentBlobOffset := offset + written }
  else Act.abort

/-- Write a packet, and `extra` bytes right after it, to both sinks. -/
def writeDirectNow (packet extra : Bytes) : RecorderAction Unit := do
  assertNotClosed
  refuseIfFinalFailed
  finalWrite do
    let _ ← Sink.writePacketData packet
    Sink.writeBytes extra
  let r ← Act.get
  advanceOffset r.currentBlobOffset (packet.length + extra.length)
  tempWrite do
    let _ ← Sink.writePacketData packet
    Sink.writeBytes extra

/-- `writeDirectNow`, or behind the keyframe that waits to be written. -/
def writeDirect (packet extra : Bytes) : RecorderAction Unit := do
  let r ← Act.get
  match r.stored with
  | some stored =>
    if stored.pending.isSome then
      assertNotClosed
      let packets ← Act.ofExcept (vecWritePacketData stored.pendingPackets packet)
      Act.modify fun r ↦ { r with stored := some { stored with pendingPackets := packets } }
      let packets' ← Act.ofExcept (vecWriteBytes packets extra)
      Act.modify fun r ↦ { r with stored := some { stored with pendingPackets := packets' } }
    else writeDirectNow packet extra
  | none => writeDirectNow packet extra

/-- Write a packet to the blob in progress, then to the temp sink. -/
def writePacketData (packet : Packet) : RecorderAction Unit := do
  let r ← Act.get
  if r.stored.isSome then writeDirect packet.write []
  else
    assertNotClosed
    let blob ← Act.ofExcept (vecWritePacketData r.currentBlob packet.write)
    Act.modify fun r ↦ { r with currentBlob := blob }
    tempWrite do
      let _ ← Sink.writePacketData packet.write
      pure ()

def writeBookmarkSnapshot : RecorderAction Unit := do
  Act.modify fun r ↦ { r with bookmarkSnapshotPending := false }
  let r ← Act.get
  writePacketData (.bookmarkTable r.bookmarks)

/-- Whether the blob in progress is to be closed before the next keyframe. -/
def blobLimitReached (r : Recorder) : Bool :=
  if r.stored.isSome then false
  else
    match r.currentBlobKeyframes with
    | [] => false
    | first :: _ =>
      let framesInBlob := r.elapsedFrames.toNat - first.elapsedFrames.toNat
      (decide (0 < r.settings.maxFramesPerBlob) &&
          decide (r.settings.maxFramesPerBlob ≤ framesInBlob)) ||
        decide (r.settings.minimumUncompressedBytesPerBlob ≤ r.currentBlob.length)

variable (x : Externals)

/-- The blob in progress as a packet, given its compressed bytes and its first keyframe. -/
def compressedBlob (r : Recorder) (compressed : Bytes) (first : KeyframeMetadata) :
    CompressedBlob :=
  { keyframes := r.currentBlobKeyframes
    keyframeOffsets := r.currentBlobKeyframeOffsets
    bookmarks := []
    compressedData := compressed
    uncompressedSize := UInt64.ofNat r.currentBlob.length
    timestampStart := first.elapsedMillis
    timestampEnd := r.elapsedMillis
    elapsedFramesStart := first.elapsedFrames
    elapsedFramesEnd := r.elapsedFrames }

/-- Forget the blob in progress, which the final sink holds now. -/
def clearBlob (r : Recorder) : Recorder :=
  { r with currentBlob := [], currentBlobKeyframes := [], currentBlobKeyframeOffsets := [] }

/-- Compress and flush the blob in progress to both sinks, if it holds any keyframes.  If the final
sink fails, the blob is left exactly as it was, and a later call writes the same bytes again. -/
def nextBlob : RecorderAction Unit := do
  assertNotClosed
  let r ← Act.get
  match r.currentBlobKeyframes with
  | [] => pure ()
  | first :: _ =>
    match x.zstd.compressData r.currentBlob r.settings.compressionLevel with
    | .error e => Act.fail (.other s!"next_blob failed to compress: {e}")
    | .ok compressed =>
      let packet := (Packet.compressedBlob (r.compressedBlob compressed first)).write
      let offset := r.currentBlobOffset
      let written ← finalWrite do
        -- undo what an earlier attempt at this blob left behind
        Sink.truncate offset
        let written ← Sink.writePacketData packet
        Sink.flush
        pure written
      Act.modify clearBlob
      advanceOffset offset written
      tempWrite do
        Sink.truncate offset
        let _ ← Sink.writePacketData packet
        pure ()

end Recorder

end SuperShuckie
