import SuperShuckie.Recorder.Calls

/-!
# Entry points of a resume

A recording that is resumed starts without a first keyframe.  What is known to stay is copied to the
sinks as it is: whole blobs, or the packets of a Nintendo 3DS file.  Then the recorder is primed with
the metadata of a keyframe, and goes on like any other.
-/

set_option autoImplicit false

namespace SuperShuckie

open ByteFormat

namespace Recorder

/-- Append a compressed blob to both sinks without decompressing it.  The blob in progress has to be
empty. -/
def appendCompressedBlobVerbatim (blob : CompressedBlob) : RecorderAction Unit := do
  assertNotClosed
  refuseIfFinalFailed
  let packet := (Packet.compressedBlob blob).write
  let r ← Act.get
  let offset := r.currentBlobOffset
  let written ← finalWrite do
    Sink.truncate offset
    let written ← Sink.writePacketData packet
    Sink.flush
    pure written
  advanceOffset offset written
  tempWrite do
    Sink.truncate offset
    let _ ← Sink.writePacketData packet
    pure ()

/-- Append a packet of a Nintendo 3DS file as it is, with the bytes that follow it there. -/
def appendStoredPacketVerbatim (packet : Packet) (extra : Bytes) : RecorderAction Unit :=
  writeDirect packet.write extra

/-- Continue from an existing keyframe: the next one starts a blob. -/
def primeForResume (keyframe : KeyframeMetadata) (r : Recorder) : Recorder :=
  { r with
    elapsedFrames := keyframe.elapsedFrames
    elapsedMillis := keyframe.elapsedMillis
    currentInput := keyframe.input
    currentSpeed := keyframe.speed
    counters := keyframe.counters.foldl (fun counters c ↦
      counters.alter c.name fun _ ↦ c.value) OrdMap.empty
    lastStateToDiff := none
    currentBlob := []
    currentBlobKeyframes := []
    currentBlobKeyframeOffsets := []
    stored := r.stored.map fun _ ↦ StoredKeyframes.default }

/-- Start the bookmarks of a resumed recording: the next keyframe is followed by a snapshot. -/
def seedBookmarkTable (table : BookmarkTable) (r : Recorder) : Recorder :=
  { r with bookmarks := table, bookmarksWritten := true, bookmarkSnapshotPending := true }

end Recorder

end SuperShuckie
