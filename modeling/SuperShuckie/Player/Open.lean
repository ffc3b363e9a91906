import SuperShuckie.Player.Cursor

/-!
# Opening a replay file

`build` reads the header, the patch and every top-level packet of a file, checks that each delta
keyframe can be reached from a full one, and indexes the keyframes, blobs and bookmarks.
-/

set_option autoImplicit false

namespace SuperShuckie

open ByteFormat

abbrev Opening (α : Type) := Except ReplayFileReadError α

namespace OpenedFile

/-! ## The parts of the file -/

/-- The patch, which follows the header, and where it ends. -/
def readPatch (header : ReplayHeaderRaw) (bytes : Bytes) : Opening (Option Bytes × Nat) :=
  let patchLength := header.patchDataLength.toNat
  if 2 ^ 64 ≤ patchLength + headerLen then
    .error (.invalidReplayFile "Cannot read patch end (overflowed usize)")
  else if patchLength = 0 then .ok (none, headerLen)
  else
    match slice? bytes headerLen patchLength with
    | none => .error (.invalidReplayFile "Cannot read patch end (out-of-bounds)")
    | some patch => .ok (some patch, headerLen + patchLength)

/-- Where the packets end, and whether the header claims an end past the file. -/
def readStreamEnd (header : ReplayHeaderRaw) (patchEnd fileLen : Nat)
    (allowSomeCorruption : Bool) : Opening (Nat × Bool) :=
  match header.streamEnd with
  | none => .ok (fileLen, false)
  | some stop =>
    if patchEnd ≤ stop ∧ stop ≤ fileLen then .ok (stop, false)
    else if patchEnd ≤ stop ∧ allowSomeCorruption = true then .ok (fileLen, true)
    else
      .error (.invalidReplayFile
        s!"The packet stream ends out of bounds (byte {stop} of a {fileLen}-byte file)")

/-- A packet that was read, a stored keyframe with the position of its frame in the file: the frame
is the tail of what the packet took. -/
def withFrameOffset (streamEnd : Nat) (placed : PlacedPacket) : Packet :=
  match placed.packet with
  | .storedKeyframe k =>
    .storedKeyframe { k with
      frameOffset := UInt64.ofNat (streamEnd - placed.after - k.frameLen.toNat) }
  | packet => packet

/-- The top-level packets, and whether some were dropped. -/
def readPackets (version streamEnd : Nat) (stream : Bytes) (allowSomeCorruption : Bool) :
    Opening (List Packet × Bool) :=
  let (placed, error) := readStream version stream
  let packets := placed.map (withFrameOffset streamEnd)
  match error with
  | none => .ok (packets, false)
  | some e =>
    if allowSomeCorruption then .ok (packets, true)
    else
      match e with
      | .notEnoughData => .error (.brokenPacket "not enough data for a packet")
      | .parseFail explanation => .error (.brokenPacket s!"Parse failure: {explanation}")

/-! ## Checks -/

/-- The number of packets before the first delta keyframe without a full keyframe before it in the
top-level list (and after any blob); `have` says whether there is one so far. -/
def reachablePrefix : Bool → List Packet → Nat
  | _, [] => 0
  | haveKeyframe, packet :: packets =>
    match packet with
    | .keyframe .. => reachablePrefix true packets + 1
    | .compressedBlob _ => reachablePrefix false packets + 1
    | .deltaKeyframe .. => if haveKeyframe then reachablePrefix true packets + 1 else 0
    | .regionDeltaKeyframe .. => if haveKeyframe then reachablePrefix true packets + 1 else 0
    | .storedKeyframe k =>
      if k.level = 0 then reachablePrefix true packets + 1
      else if haveKeyframe then reachablePrefix true packets + 1
      else 0
    | _ => reachablePrefix haveKeyframe packets + 1

/-- Drop the packets from the first unreachable delta keyframe on, or refuse the file. -/
def checkReachable (packets : List Packet) (allowSomeCorruption : Bool) :
    Opening (List Packet × Bool) :=
  if reachablePrefix false packets = packets.length then .ok (packets, false)
  else if allowSomeCorruption then .ok (packets.take (reachablePrefix false packets), true)
  else .error (.brokenPacket "Delta keyframe without a prior keyframe")

/-- A file starts with a keyframe, or with a blob that lists one. -/
def checkFirst (packets : List Packet) : Opening Unit :=
  match packets with
  | [] => .error (.invalidReplayFile "No packets detected in replay file")
  | .compressedBlob blob :: _ =>
    if blob.keyframes.isEmpty then
      .error (.invalidReplayFile "Replay starts with a compressed blob with no keyframes")
    else .ok ()
  | .keyframe .. :: _ => .ok ()
  | .storedKeyframe k :: _ =>
    if k.level = 0 then .ok ()
    else .error (.invalidReplayFile "Replay does not start with a keyframe")
  | _ :: _ => .error (.invalidReplayFile "Replay does not start with a keyframe")

/-! ## The index -/

/-- What is indexed of the top-level packets. -/
structure PacketIndex where
  keyframes : OrdMap Nat (List KeyframeMetadata)
  bookmarks : OrdMap String (List BookmarkMetadata)
  totalFrameCount : Nat
  totalMillis : Nat
  thumbnails : List (UnsignedInteger × Nat)
  storedKeyframes : List StoredKeyframeInfo
  /-- The most recent stored keyframe of a level at most `m`: what a delta of level `m` is
  against. -/
  latestAtMost : Level → Option Nat
  blobIndices : List Nat

namespace PacketIndex

def empty : PacketIndex :=
  { keyframes := OrdMap.empty, bookmarks := OrdMap.empty, totalFrameCount := 0, totalMillis := 0
    thumbnails := [], storedKeyframes := [], latestAtMost := fun _ ↦ none, blobIndices := [] }

def addKeyframe (index : PacketIndex) (metadata : KeyframeMetadata) : PacketIndex :=
  { index with
    totalFrameCount := metadata.elapsedFrames.toNat
    keyframes := index.keyframes.alter metadata.elapsedFrames.toNat fun
      | some there => there ++ [metadata]
      | none => [metadata] }

def addBookmark (index : PacketIndex) (metadata : BookmarkMetadata) : PacketIndex :=
  { index with
    bookmarks := index.bookmarks.alter metadata.name fun
      | some there => there ++ [metadata]
      | none => [metadata] }

/-- The index of the level of a stored keyframe, an unknown level counting as 2. -/
def levelIndex (level : UInt8) : Level :=
  if level = 0 then 0 else if level = 1 then 1 else 2

def addStored (index : PacketIndex) (i : Nat) (keyframe : StoredKeyframe) : PacketIndex :=
  let index := index.addKeyframe keyframe.metadata
  let level := levelIndex keyframe.level
  let reference := if keyframe.level = 0 then none else index.latestAtMost level
  { index with
    storedKeyframes := index.storedKeyframes ++ [⟨i, keyframe.level, reference⟩]
    latestAtMost := fun m ↦
      if level ≤ m then some index.storedKeyframes.length else index.latestAtMost m }

def addBlob (index : PacketIndex) (i : Nat) (blob : CompressedBlob) : Opening PacketIndex :=
  if isizeMax < blob.uncompressedSize.toNat then
    .error (.other ("Replay has a compressed blob that decompressed beyond the current " ++
      "architectural limits"))
  else if blob.keyframes.isEmpty then
    .error (.invalidReplayFile "Replay has a compressed blob with no keyframes")
  else
    let index := blob.bookmarks.foldl addBookmark (blob.keyframes.foldl addKeyframe index)
    .ok { index with
      blobIndices := index.blobIndices ++ [i]
      totalFrameCount := blob.elapsedFramesEnd.toNat
      totalMillis := blob.timestampEnd.toNat }

/-- Index the packet at position `i`. -/
def add (index : PacketIndex) (i : Nat) (packet : Packet) : Opening PacketIndex :=
  match packet with
  | .compressedBlob blob => index.addBlob i blob
  | .storedKeyframe keyframe => .ok (index.addStored i keyframe)
  | .keyframe metadata _ => .ok (index.addKeyframe metadata)
  | .deltaKeyframe metadata _ => .ok (index.addKeyframe metadata)
  | .regionDeltaKeyframe metadata .. => .ok (index.addKeyframe metadata)
  | .nextFrame delta =>
    if index.totalFrameCount + 1 < 2 ^ 64 ∧ index.totalMillis + delta.toNat < 2 ^ 64 then
      .ok { index with
        totalFrameCount := index.totalFrameCount + 1
        totalMillis := index.totalMillis + delta.toNat }
    else .error (.invalidReplayFile "frame or time counter overflowed")
  | .bookmark metadata =>
    .ok { index.addBookmark metadata with totalMillis := metadata.elapsedMillis.toNat }
  | .thumbnail picture =>
    .ok { index with thumbnails := index.thumbnails ++ [(picture.elapsedFrames, i)] }
  | _ => .ok index

/-- Index packets from position `i` on. -/
def addAll : PacketIndex → Nat → List Packet → Opening PacketIndex
  | index, _, [] => .ok index
  | index, i, packet :: packets =>
    match index.add i packet with
    | .error e => .error e
    | .ok index => addAll index (i + 1) packets

end PacketIndex

/-! ## Bookmarks -/

/-- The newest bookmark table among the packets of a blob; `none` also when one cannot be read. -/
def newestInBlob (z : Zstd) (version : Nat) (blob : CompressedBlob) : Option BookmarkTable :=
  match z.decompressData blob.compressedData blob.uncompressedSize.toNat with
  | .error _ => none
  | .ok raw =>
    match readStream version raw with
    | (_, some _) => none
    | (packets, none) =>
      (packets.filterMap fun p ↦
        match p.packet with
        | .bookmarkTable table => some table
        | _ => none).getLast?

/-- The newest bookmark table of a stream: in the uncompressed tail, or else in the last blob. -/
def newestStreamSnapshot (z : Zstd) (version : Nat) : List Packet → Option BookmarkTable
  | [] => none
  | .bookmarkTable table :: _ => some table
  | .compressedBlob blob :: _ => newestInBlob z version blob
  | _ :: packets => newestStreamSnapshot z version packets

/-- `BookmarkTable::from_legacy`: untyped points, in the order of their frames and names. -/
def fromLegacy (legacy : List BookmarkMetadata) : BookmarkTable :=
  (legacy.insertionSort fun a b ↦
    a.elapsedFrames < b.elapsedFrames ∨ (a.elapsedFrames = b.elapsedFrames ∧ a.name ≤ b.name)).foldl
    (fun table metadata ↦
      let id := max table.nextId 1
      { table with
        nextId := saturatingSucc id
        bookmarks := table.bookmarks ++
          [⟨id, metadata.name, 0, metadata.elapsedFrames, metadata.elapsedMillis, none, false⟩] })
    BookmarkTable.new

/-- The bookmarks: the section of a closed file, else the newest table of the stream, else the
legacy bookmark packets. -/
def resolveBookmarks (x : Externals) (header : ReplayHeaderRaw) (section' : Option Bytes)
    (packets : List Packet) (legacy : OrdMap String (List BookmarkMetadata)) :
    BookmarkTable × BookmarkTableSource × Option BookmarkSectionError :=
  let decoded := section'.map (decodeBookmarkSection x.blake3)
  match decoded with
  | some (.ok table) => (table, .ofSection, none)
  | _ =>
    let sectionError := match decoded with
      | some (.error e) => some e
      | _ => none
    let snapshot :=
      if replayVersionBookmarkSection ≤ header.replayVersion.toNat then
        newestStreamSnapshot x.zstd header.replayVersion.toNat packets.reverse
      else none
    match snapshot with
    | some table => (table, .streamSnapshot, sectionError)
    | none =>
      if legacy.entries.isEmpty then (BookmarkTable.new, .none, sectionError)
      else (fromLegacy (legacy.entries.flatMap Prod.snd), .legacy, sectionError)

/-! ## Opening -/

def readHeader (bytes : Bytes) : Opening ReplayHeaderRaw :=
  match ReplayHeaderRaw.fromBytes bytes with
  | .ok (header, _) => .ok header
  | .error _ => .error (.invalidReplayFile "cannot read header")

def readMetadata (header : ReplayHeaderRaw) : Opening ReplayFileMetadata :=
  match header.parse with
  | .ok metadata => .ok metadata
  | .error e => .error (.invalidReplayFile s!"Failed to read header: {e}")

/-- The bytes of the packets. -/
def packetBytes (bytes : Bytes) (patchEnd streamEnd : Nat) : Opening Bytes :=
  match slice? bytes patchEnd (streamEnd - patchEnd) with
  | some stream => .ok stream
  | none => .error (.invalidReplayFile "Cannot read replay data (out-of-bounds)")

/-- A replay can be played from its first frame. -/
def checkStart (index : PacketIndex) : Opening Unit :=
  if (index.keyframes.get? 0).isNone then
    .error (.invalidReplayFile "Replay has no keyframe at index 0")
  else .ok ()

/-- What is read of a file, put together. -/
def assemble (x : Externals) (bytes : Bytes) (source : Option Bytes) (headerRaw : ReplayHeaderRaw)
    (metadata : ReplayFileMetadata) (patchData : Option Bytes) (streamEnd : Nat)
    (streamTruncated : Bool) (packets : List Packet) (index : PacketIndex) : OpenedFile :=
  let section' :=
    if headerRaw.streamEnd.isSome ∧ streamTruncated = false then some (bytes.drop streamEnd)
    else none
  let (bookmarkTable, bookmarkTableSource, bookmarkSectionError) :=
    resolveBookmarks x headerRaw section' packets index.bookmarks
  { metadata, headerRaw, patchData, packets
    keyframes := index.keyframes
    legacyBookmarks := index.bookmarks
    bookmarkTable, bookmarkTableSource, bookmarkSectionError, streamTruncated
    totalFrameCount := index.totalFrameCount
    totalMillis := index.totalMillis
    blobIndices := index.blobIndices
    source
    storedKeyframes := index.storedKeyframes
    thumbnails := index.thumbnails }

/-- Read a file.  With `allowSomeCorruption`, what cannot be read at its end is dropped. -/
def read (x : Externals) (bytes : Bytes) (source : Option Bytes) (allowSomeCorruption : Bool) :
    Opening OpenedFile := do
  let headerRaw ← readHeader bytes
  let metadata ← readMetadata headerRaw
  let (patchData, patchEnd) ← readPatch headerRaw bytes
  let (streamEnd, endTruncated) ←
    readStreamEnd headerRaw patchEnd bytes.length allowSomeCorruption
  let stream ← packetBytes bytes patchEnd streamEnd
  let (packets, readTruncated) ←
    readPackets headerRaw.replayVersion.toNat streamEnd stream allowSomeCorruption
  let (packets, deltaTruncated) ← checkReachable packets allowSomeCorruption
  checkFirst packets
  let index ← PacketIndex.addAll PacketIndex.empty 0 packets
  checkStart index
  pure (assemble x bytes source headerRaw metadata patchData streamEnd
    (endTruncated || readTruncated || deltaTruncated) packets index)

end OpenedFile

namespace ReplayFilePlayer

/-- A player at the start of a file. -/
def start (file : OpenedFile) : ReplayFilePlayer :=
  { file
    decodedBlobs := fun _ ↦ none
    cleanupEnabled := true
    nextUncompressedPacketIndex := 0
    nextBlobOffset := none
    chain := ChainState.new (decide (file.metadata.consoleType = .nintendo3DS))
    rom := none
    materialiseNext := false
    keyframeStatesWanted := true
    materialiseEveryKeyframe := false
    keyframeTransientsStale := false }

def build (x : Externals) (bytes : Bytes) (source : Option Bytes) (allowSomeCorruption : Bool) :
    Opening ReplayFilePlayer :=
  start <$> OpenedFile.read x bytes source allowSomeCorruption

/-- Open the bytes of a file; those of a Nintendo 3DS file are kept. -/
def new (x : Externals) (bytes : Bytes) (allowSomeCorruption : Bool) : Opening ReplayFilePlayer :=
  let is3DS := match slice? bytes 8 4 with
    | some b => decide (ofLeBytes b = ReplayConsoleType.nintendo3DS.toNat)
    | none => false
  build x bytes (if is3DS then some bytes else none) allowSomeCorruption

end ReplayFilePlayer

end SuperShuckie
