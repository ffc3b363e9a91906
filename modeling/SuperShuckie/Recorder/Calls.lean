import SuperShuckie.Recorder.Keyframes

/-!
# The calls of a recorder

`new` writes the header and the patch and inserts the first keyframe; the calls in between are
gathered in `Call`, with `perform` saying what each does, and `close` ends the file.  `run` makes a
list of calls one after the other, whatever each of them returns.
-/

set_option autoImplicit false

namespace SuperShuckie

open ByteFormat

/-- A call of a recorder. -/
inductive Call
  | nextFrame (timestamp : TimestampMillis)
  | insertKeyframe (state : Bytes) (elapsedMillis : TimestampMillis) (encoding : KeyframeEncoding)
  | setInput (input : InputBuffer)
  | setSpeed (speed : Speed)
  | writeMemory (address : UnsignedInteger) (data : ByteVec)
  | resetConsole
  | loadSaveState (state : ByteVec)
  | serialIn (data : ByteVec)
  | changeCounter (name : String) (delta : SignedInteger)
  | setBookmarkTable (table : BookmarkTable)
  | thumbnail (top bottom : Screen)
  | romReads (reads : List (Nat × Nat))
  | transientPageAccess (access : TransientPageAccess)
  | setRom (rom : Bytes)
  | setRomReadsUnknown (unknown : Bool)
  | markStart (timerOffset : TimestampMillis)
  | markEnd

namespace Recorder

/-! ## Starting a file -/

/-- Write to the temp sink of a recorder that does not exist yet; a failure is only noted. -/
def tryTemp (sink : Sink) (failed : Option ReplayFileWriteError) (bytes : Bytes) :
    Sink × Option ReplayFileWriteError :=
  if failed.isSome then (sink, failed)
  else
    match Sink.writeBytes bytes sink with
    | .ok _ sink => (sink, failed)
    | .error e sink => (sink, some e)
    | .abort => (sink, failed)

/-- The recorder before any packet, at the given position of the file. -/
def blank (header : ReplayHeaderRaw) (settings : RecorderSettings) (offset : Nat)
    (input : InputBuffer) (speed : Speed) (sink : SinkTuple) : Recorder :=
  { settings
    currentBlob := []
    currentBlobKeyframes := []
    currentBlobKeyframeOffsets := []
    currentBlobOffset := offset
    elapsedFrames := 0
    elapsedMillis := 0
    lastStateToDiff := none
    currentSpeed := speed
    currentInput := input
    sink := some sink
    stored := if header.consoleTypeOrDefault = .nintendo3DS then some StoredKeyframes.default
      else none
    rom := none
    romReadsUnknown := false
    header
    counters := OrdMap.empty
    bookmarks := BookmarkTable.new
    bookmarksWritten := false
    bookmarkSnapshotPending := false }

/-- The settings a recorder works with: a blob size of zero stands for 512 MiB. -/
def normaliseSettings (settings : RecorderSettings) : RecorderSettings :=
  if settings.minimumUncompressedBytesPerBlob = 0 then
    { settings with minimumUncompressedBytesPerBlob := 1024 * 1024 * 512 }
  else settings

/-- Start a file: the header and the patch go to both sinks.  A failure of the final sink is an
error; one of the temp sink is kept for the first write. -/
def newBlank (metadata : ReplayFileMetadata) (patchData : ByteVec) (settings : RecorderSettings)
    (input : InputBuffer) (speed : Speed) (finalSink tempSink : Sink) :
    Outcome ReplayFileWriteError Unit Recorder :=
  match metadata.asRawHeader with
  | .error e => .error (.other e) ()
  | .ok header =>
    if 2 ^ 64 ≤ patchData.length then .error (.other "patch data too large") ()
    else
      let header := { header with patchDataLength := UInt64.ofNat patchData.length }
      let bytes := header.asBytes
      let (tempSink, tempFailed) := tryTemp tempSink none bytes
      match Sink.writeBytes bytes finalSink with
      | .abort => .abort
      | .error e _ => .error e ()
      | .ok _ finalSink =>
        let (tempSink, tempFailed) := tryTemp tempSink tempFailed patchData
        match Sink.writeBytes patchData finalSink with
        | .abort => .abort
        | .error e _ => .error e ()
        | .ok _ finalSink =>
          .ok (blank header (normaliseSettings settings) (bytes.length + patchData.length) input
            speed ⟨finalSink, tempSink, false, tempFailed⟩) ()

variable (x : Externals)

/-- Start a file with its first keyframe. -/
def newWithMetadata (metadata : ReplayFileMetadata) (patchData : ByteVec)
    (settings : RecorderSettings) (startingTimestamp : TimestampMillis) (input : InputBuffer)
    (speed : Speed) (initialKeyframeState : ByteVec) (finalSink tempSink : Sink) :
    Outcome ReplayFileWriteError Unit Recorder :=
  match newBlank metadata patchData settings input speed finalSink tempSink with
  | .abort => .abort
  | .error e _ => .error e ()
  | .ok r _ =>
    match insertKeyframe x initialKeyframeState startingTimestamp r with
    | .ok _ r => .ok r ()
    | .error e _ => .error e ()
    | .abort => .abort

/-! ## The calls -/

/-- Advance a frame.  Running out of frame numbers aborts. -/
def nextFrame (timestamp : TimestampMillis) : RecorderAction Unit := do
  let r ← Act.get
  if timestamp < r.elapsedMillis then
    Act.fail (.badInput
      s!"Timestamp overflowed ({r.elapsedMillis.toNat} -> {timestamp.toNat}")
  else if r.elapsedFrames.toNat + 1 < 2 ^ 64 then
    Act.modify fun r ↦ { r with
      elapsedFrames := r.elapsedFrames + 1
      elapsedMillis := timestamp }
    writePacketData (.nextFrame (timestamp - r.elapsedMillis))
  else Act.abort

/-- Replace the bookmarks.  The table is written after the next keyframe when the blob in progress
has none yet. -/
def setBookmarkTable (table : BookmarkTable) : RecorderAction Unit := do
  assertNotClosed
  let r ← Act.get
  if table = r.bookmarks then pure ()
  else
    Act.modify fun r ↦ { r with bookmarks := table, bookmarksWritten := true }
    if r.currentBlobKeyframes.isEmpty then
      Act.modify fun r ↦ { r with bookmarkSnapshotPending := true }
    else writeBookmarkSnapshot

/-- Set the input; a Nintendo 3DS file stores it only when it changes. -/
def setInput (input : InputBuffer) : RecorderAction Unit := do
  let r ← Act.get
  if r.stored.isSome ∧ input = r.currentInput then pure ()
  else
    Act.modify fun r ↦ { r with currentInput := input }
    writePacketData (.changeInput input)

def setSpeed (speed : Speed) : RecorderAction Unit := do
  let r ← Act.get
  if r.currentSpeed = speed then pure ()
  else
    Act.modify fun r ↦ { r with currentSpeed := speed }
    writePacketData (.changeSpeed speed)

def resetConsole : RecorderAction Unit := writePacketData .resetConsole

def writeMemory (address : UnsignedInteger) (data : ByteVec) : RecorderAction Unit :=
  writePacketData (.writeMemory address data)

def loadSaveState (state : ByteVec) : RecorderAction Unit := writePacketData (.loadSaveState state)

/-- What arrived over the link cable during the frame being recorded, if anything did. -/
def serialIn (data : ByteVec) : RecorderAction Unit :=
  if data.isEmpty then pure () else writePacketData (.serialIn data)

/-- Add to a counter; counters wrap around. -/
def changeCounter (name : String) (delta : SignedInteger) : RecorderAction Unit := do
  assertNotClosed
  Act.modify fun r ↦ { r with
    counters := r.counters.alter name fun
      | some v => v + delta
      | none => delta }
  writePacketData (.incrementCounter name delta)

/-! ## Timeline pictures -/

/-- A Nintendo 3DS file's timeline pictures come in groups of this many. -/
def thumbnailGroup : Nat := 60

/-- The picture that the next one of the same group is stored against. -/
def previousThumbnail (r : Recorder) (top bottom : Screen) : Option (Screen × Screen) :=
  match r.stored with
  | none => none
  | some stored =>
    match stored.thumbnail with
    | none => none
    | some (pt, pb) =>
      let sameSize (p s : Screen) := p.1 = s.1 ∧ p.2.1 = s.2.1 ∧ p.2.2.length = s.2.2.length
      if sameSize pt top ∧ sameSize pb bottom ∧ stored.thumbnailsInGroup < thumbnailGroup then
        some (pt, pb)
      else none

/-- A lossless screen: nothing when it did not change since the previous picture. -/
def encodeScreen (previous : Option Screen) (screen : Screen) : Except String ByteVec :=
  match previous with
  | some p =>
    if p.2.2 = screen.2.2 then .ok []
    else x.zstd.compressSmallDataWithPrefix screen.2.2 3 p.2.2
  | none => x.zstd.compressData screen.2.2 3

def thumbnailError (e : String) : ReplayFileWriteError :=
  .other s!"thumbnail compression failed: {e}"

/-- The packet of a picture. -/
def thumbnailPacket (r : Recorder) (top bottom : Screen) (topData bottomData : ByteVec)
    (againstPrevious jpeg : Bool) : Packet :=
  .thumbnail
    { elapsedFrames := r.elapsedFrames
      topWidth := UInt64.ofNat top.1
      topHeight := UInt64.ofNat top.2.1
      bottomWidth := UInt64.ofNat bottom.1
      bottomHeight := UInt64.ofNat bottom.2.1
      top := topData
      bottom := bottomData
      againstPrevious
      jpeg }

/-- Store a picture of both screens. -/
def thumbnail (top bottom : Screen) : RecorderAction Unit := do
  assertNotClosed
  let r ← Act.get
  let quality := r.settings.storedThumbnailJpegQuality
  if r.stored.isSome ∧ 0 < quality then
    let encoded := do
      let topData ← x.encodeJpeg top.1 top.2.1 top.2.2 quality
      let bottomData ← x.encodeJpeg bottom.1 bottom.2.1 bottom.2.2 quality
      pure (topData, bottomData)
    match encoded with
    | .error e => Act.fail (thumbnailError e)
    | .ok (topData, bottomData) =>
      writePacketData (thumbnailPacket r top bottom topData bottomData false true)
      Act.modify fun r ↦ { r with
        stored := r.stored.map fun stored ↦ { stored with
          thumbnailsInGroup := 0
          thumbnail := none } }
  else
    let previous := r.previousThumbnail top bottom
    let encoded := do
      let topData ← encodeScreen x (previous.map Prod.fst) top
      let bottomData ← encodeScreen x (previous.map Prod.snd) bottom
      pure (topData, bottomData)
    match encoded with
    | .error e => Act.fail (thumbnailError e)
    | .ok (topData, bottomData) =>
      writePacketData (thumbnailPacket r top bottom topData bottomData previous.isSome false)
      Act.modify fun r ↦ { r with
        stored := r.stored.map fun stored ↦ { stored with
          thumbnailsInGroup := if previous.isSome then stored.thumbnailsInGroup + 1 else 1
          thumbnail := some (top, bottom) } }

/-! ## What the emulator reports -/

/-- Longest list of ROM reads kept before it is merged. -/
def romReadsBeforeMerge : Nat := 4096

/-- Add ranges to a list of ROM reads. -/
def addReads (reads ranges : List (Nat × Nat)) : Option (List (Nat × Nat)) :=
  let ranges := ranges ++ reads
  if romReadsBeforeMerge < ranges.length then mergeRanges ranges else some ranges

/-- Note the ranges of the ROM that were read, for the deltas of levels 1 and 2. -/
def romReads (reads : List (Nat × Nat)) : RecorderAction Unit := do
  let r ← Act.get
  match r.stored with
  | none => pure ()
  | some stored =>
    match addReads reads (stored.readsSince 1), addReads reads (stored.readsSince 2) with
    | some reads1, some reads2 =>
      let readsSince : Level → List (Nat × Nat) := fun m ↦
        if m = 0 then stored.readsSince 0 else if m = 1 then reads1 else reads2
      Act.modify fun r ↦ { r with stored := some { stored with readsSince } }
    | _, _ => Act.abort

/-- Merge a report of first accesses into the ones since the last keyframe. -/
def mergeAccess (stored : StoredKeyframes) (access : TransientPageAccess) : StoredKeyframes :=
  let range := (access.stateOffset, access.pageSize)
  let kept :=
    if stored.accessRange ≠ some range ∨ stored.accessSince.length ≠ access.firstAccess.length then
      List.replicate access.firstAccess.length 0
    else stored.accessSince
  { stored with
    accessRange := some range
    accessSince := kept.zipWith (fun kept first ↦ if kept = 0 then first else kept)
      access.firstAccess }

def transientPageAccess (access : TransientPageAccess) : RecorderAction Unit :=
  Act.modify fun r ↦ { r with
    stored := r.stored.map fun stored ↦ mergeAccess stored access }

def setRom (rom : Bytes) : RecorderAction Unit := Act.modify fun r ↦ { r with rom := some rom }

def setRomReadsUnknown (unknown : Bool) : RecorderAction Unit :=
  Act.modify fun r ↦ { r with romReadsUnknown := unknown }

/-! ## Marks in the header -/

/-- Mark the current position as the start. -/
def markStart (timerOffset : TimestampMillis) : RecorderAction Unit := do
  Act.modify fun r ↦ { r with
    header := { r.header with
      cropStartFrame := r.elapsedFrames
      cropStartMillis := r.elapsedMillis
      cropStart := 1
      cropTimerOffset := timerOffset } }
  syncHeader

/-- Mark the current position as the end. -/
def markEnd : RecorderAction Unit := do
  Act.modify fun r ↦ { r with
    header := { r.header with
      cropEndFrame := r.elapsedFrames
      cropEndMillis := r.elapsedMillis
      cropEnd := 1 } }
  syncHeader

/-! ## Closing -/

/-- Whether a result is an error other than the notice of a failed temp sink. -/
def genuine : Except ReplayFileWriteError Unit → Bool
  | .ok _ => false
  | .error e => !isTempSinkError e

/-- The first genuine error of some results. -/
def firstGenuine (results : List (Except ReplayFileWriteError Unit)) :
    Option ReplayFileWriteError :=
  results.findSome? fun
    | .ok _ => none
    | .error e => if isTempSinkError e then none else some e

/-- End the packet stream: record its end in the header, then append the bookmark section.  A
failure of the temp sink is returned at the end. -/
def writeBookmarkSection : RecorderAction Unit := do
  Act.modify fun r ↦ { r with
    header := { r.header with packetStreamEnd := UInt64.ofNat r.currentBlobOffset } }
  let headerResult ← Act.attempt syncHeader
  if genuine headerResult then Act.ofExcept headerResult
  else
    let r ← Act.get
    let sectionBytes := encodeBookmarkSection x.blake3 r.bookmarks
    finalWrite (Sink.writeBytes sectionBytes)
    let sectionResult ← Act.attempt (tempWrite (Sink.writeBytes sectionBytes))
    -- the temp sink reports its failure once, so at most one of the two is an error
    Act.ofExcept (headerResult.bind fun _ ↦ sectionResult)

/-- Close the recorder: write what is waiting, the blob in progress and the bookmark section, and
hand back the sinks with the first genuine error.  Closing twice aborts. -/
def close : RecorderAction (Sink × Sink × Option ReplayFileWriteError) := do
  let r ← Act.get
  if r.isClosed then Act.abort
  else
    let pendingResult ← Act.attempt (finishPendingStoredKeyframe x)
    let blobResult ← Act.attempt (nextBlob x)
    let sectionResult ←
      if genuine pendingResult ∨ genuine blobResult then pure (.ok ())
      else Act.attempt (writeBookmarkSection x)
    let r ← Act.get
    match r.sink with
    | none => Act.abort
    | some sink =>
      Act.modify fun r ↦ { r with sink := none }
      pure (sink.finalSink, sink.tempSink, firstGenuine [pendingResult, blobResult, sectionResult])

/-! ## Runs -/

/-- Make a call; the frame number that `insertKeyframeWith` returns is left out. -/
def perform : Call → RecorderAction Unit
  | .nextFrame timestamp => nextFrame timestamp
  | .insertKeyframe state elapsedMillis encoding => do
    let _ ← insertKeyframeWith x state elapsedMillis encoding
    pure ()
  | .setInput input => setInput input
  | .setSpeed speed => setSpeed speed
  | .writeMemory address data => writeMemory address data
  | .resetConsole => resetConsole
  | .loadSaveState state => loadSaveState state
  | .serialIn data => serialIn data
  | .changeCounter name delta => changeCounter name delta
  | .setBookmarkTable table => setBookmarkTable table
  | .thumbnail top bottom => thumbnail x top bottom
  | .romReads reads => romReads reads
  | .transientPageAccess access => transientPageAccess access
  | .setRom rom => setRom rom
  | .setRomReadsUnknown unknown => setRomReadsUnknown unknown
  | .markStart timerOffset => markStart timerOffset
  | .markEnd => markEnd

/-- Make calls one after the other; each returns a result, and the next is made whatever it is.
`none` is an abort. -/
def run : List Call → Recorder → Option (List (Except ReplayFileWriteError Unit) × Recorder)
  | [], r => some ([], r)
  | call :: calls, r =>
    match perform x call r with
    | .ok _ r => (run calls r).map fun (results, r) ↦ (.ok () :: results, r)
    | .error e r => (run calls r).map fun (results, r) ↦ (.error e :: results, r)
    | .abort => none

/-- Make calls that all succeed. -/
def runOk (calls : List Call) : RecorderAction Unit := calls.forM (perform x)

end Recorder

end SuperShuckie
