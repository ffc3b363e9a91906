import SuperShuckie.Bookmarks
import SuperShuckie.Header

/-!
# Reading and writing packets

A packet is a discriminator byte and its fields in order.  `Packet.write` is the concatenation of
the write instructions of a packet, `Packet.readAll` takes one packet off the front of a stream.

A stored keyframe is the one packet that is not read back by itself: its instructions leave out the
frame that follows it, which `readAll` skips (`StoredKeyframe.reads`).  For every other packet the
writer can produce, `Packet.reads` is the round trip.
-/

set_option autoImplicit false

namespace SuperShuckie

open ByteFormat ByteFormat.Reader Packet

/-! ## Discriminators -/

/-- What kind of packet follows in the raw data. -/
inductive PacketDiscriminator
  | noOp | nextFrame | changeInput8 | changeInput16 | changeInput32 | changeInputVar
  | writeMemory8 | writeMemory16 | writeMemory32 | writeMemoryVar | keyframe | bookmark
  | changeSpeed | resetConsole | loadSaveState | deltaKeyframe | incrementCounter
  | regionDeltaKeyframe | bookmarkTable | indexedCompressedBlob | serialIn | storedKeyframe
  | thumbnail | thumbnailAgainstPrevious | thumbnailJpeg | compressedBlob
deriving DecidableEq

namespace PacketDiscriminator

def toByte : PacketDiscriminator → UInt8
  | noOp => 0x00
  | nextFrame => 0x80
  | changeInput8 => 0x81
  | changeInput16 => 0x82
  | changeInput32 => 0x83
  | changeInputVar => 0x84
  | writeMemory8 => 0x85
  | writeMemory16 => 0x86
  | writeMemory32 => 0x87
  | writeMemoryVar => 0x88
  | keyframe => 0xF0
  | bookmark => 0xF1
  | changeSpeed => 0xF2
  | resetConsole => 0xF3
  | loadSaveState => 0xF4
  | deltaKeyframe => 0xF5
  | incrementCounter => 0xF6
  | regionDeltaKeyframe => 0xF7
  | bookmarkTable => 0xF8
  | indexedCompressedBlob => 0xF9
  | serialIn => 0xFA
  | storedKeyframe => 0xFB
  | thumbnail => 0xFC
  | thumbnailAgainstPrevious => 0xFD
  | thumbnailJpeg => 0xEF
  | compressedBlob => 0xFE

/-- Every discriminator. -/
def all : List PacketDiscriminator :=
  [noOp, nextFrame, changeInput8, changeInput16, changeInput32, changeInputVar, writeMemory8,
    writeMemory16, writeMemory32, writeMemoryVar, keyframe, bookmark, changeSpeed, resetConsole,
    loadSaveState, deltaKeyframe, incrementCounter, regionDeltaKeyframe, bookmarkTable,
    indexedCompressedBlob, serialIn, storedKeyframe, thumbnail, thumbnailAgainstPrevious,
    thumbnailJpeg, compressedBlob]

/-- The discriminator with a given byte, if there is one (`try_from`). -/
def tryFrom (b : UInt8) : Option PacketDiscriminator := all.find? fun d ↦ d.toByte == b

theorem tryFrom_toByte (d : PacketDiscriminator) : tryFrom d.toByte = some d := by
  cases d <;> rfl

end PacketDiscriminator

/-- A byte string of one, two or four bytes is written without its length. -/
def hasFixedWidth (data : ByteVec) : Bool :=
  data.length == 1 || data.length == 2 || data.length == 4

def Packet.discriminator : Packet → PacketDiscriminator
  | .noOp => .noOp
  | .resetConsole => .resetConsole
  | .loadSaveState _ => .loadSaveState
  | .nextFrame _ => .nextFrame
  | .writeMemory _ data =>
    if data.length = 1 then .writeMemory8
    else if data.length = 2 then .writeMemory16
    else if data.length = 4 then .writeMemory32
    else .writeMemoryVar
  | .changeInput data =>
    if data.length = 1 then .changeInput8
    else if data.length = 2 then .changeInput16
    else if data.length = 4 then .changeInput32
    else .changeInputVar
  | .changeSpeed _ => .changeSpeed
  | .bookmark _ => .bookmark
  | .bookmarkTable _ => .bookmarkTable
  | .keyframe _ _ => .keyframe
  | .deltaKeyframe _ _ => .deltaKeyframe
  | .regionDeltaKeyframe _ _ _ _ => .regionDeltaKeyframe
  | .compressedBlob blob =>
    if blob.keyframeOffsets.isEmpty then .compressedBlob else .indexedCompressedBlob
  | .incrementCounter _ _ => .incrementCounter
  | .serialIn _ => .serialIn
  | .storedKeyframe _ => .storedKeyframe
  | .thumbnail picture =>
    if picture.jpeg then .thumbnailJpeg
    else if picture.againstPrevious then .thumbnailAgainstPrevious
    else .thumbnail

/-! ## Writing -/

/-- The bytes of `data`, preceded by their number unless the discriminator tells it. -/
def writeSized (data : ByteVec) : Bytes := if hasFixedWidth data then data else ByteVec.write data

/-- The fields of a blob after its keyframes and their offsets. -/
def CompressedBlob.writeTail (blob : CompressedBlob) : Bytes :=
  Vec.write BookmarkMetadata.write blob.bookmarks ++ (ByteVec.write blob.compressedData ++
    (UnsignedInteger.write blob.uncompressedSize ++ (UnsignedInteger.write blob.timestampStart ++
      (UnsignedInteger.write blob.timestampEnd ++ (UnsignedInteger.write blob.elapsedFramesStart ++
        UnsignedInteger.write blob.elapsedFramesEnd)))))

/-- A blob without an offset table is written in the form that has none. -/
def CompressedBlob.write (blob : CompressedBlob) : Bytes :=
  Vec.write KeyframeMetadata.write blob.keyframes ++
    ((if blob.keyframeOffsets.isEmpty then []
      else Vec.write UnsignedInteger.write blob.keyframeOffsets) ++ blob.writeTail)

def StoredKeyframe.write (k : StoredKeyframe) : Bytes :=
  KeyframeMetadata.write k.metadata ++ ([k.level] ++ (UnsignedInteger.write k.stateLen ++
    (UnsignedInteger.write k.uncompressedLen ++ UnsignedInteger.write k.frameLen)))

def Thumbnail.write (t : Thumbnail) : Bytes :=
  UnsignedInteger.write t.elapsedFrames ++ (UnsignedInteger.write t.topWidth ++
    (UnsignedInteger.write t.topHeight ++ (UnsignedInteger.write t.bottomWidth ++
      (UnsignedInteger.write t.bottomHeight ++ (ByteVec.write t.top ++ ByteVec.write t.bottom)))))

/-- The fields of a packet. -/
def Packet.writePayload : Packet → Bytes
  | .noOp => []
  | .resetConsole => []
  | .nextFrame timestampDelta => UnsignedInteger.write timestampDelta
  | .changeInput data => writeSized data
  | .writeMemory address data => UnsignedInteger.write address ++ writeSized data
  | .compressedBlob blob => blob.write
  | .keyframe metadata state => KeyframeMetadata.write metadata ++ ByteVec.write state
  | .deltaKeyframe metadata diff =>
    KeyframeMetadata.write metadata ++ Vec.write UnsignedInteger.write diff
  | .regionDeltaKeyframe metadata stateLen control data =>
    KeyframeMetadata.write metadata ++ (UnsignedInteger.write stateLen ++
      (ByteVec.write control ++ ByteVec.write data))
  | .bookmark metadata => BookmarkMetadata.write metadata
  | .bookmarkTable table => table.write
  | .changeSpeed speed => Speed.write speed
  | .loadSaveState state => ByteVec.write state
  | .incrementCounter name delta => Str.write name ++ SignedInteger.write delta
  | .serialIn data => ByteVec.write data
  | .storedKeyframe k => k.write
  | .thumbnail picture => picture.write

/-- What the write instructions of a packet (`write_packet_instructions`) put into the stream. -/
def Packet.write (p : Packet) : Bytes := p.discriminator.toByte :: p.writePayload

/-! ## Reading -/

/-- `n` raw bytes, as the readers of the fixed-width discriminators take them. -/
def readFixed (n : Nat) : PacketReader ByteVec := takeBytes .notEnoughData n

def CompressedBlob.readAll (version : Nat) (indexed : Bool) : PacketReader CompressedBlob := do
  let keyframes ← Vec.readAll (KeyframeMetadata.readAll version)
  let keyframeOffsets ← bif indexed then Vec.readAll UnsignedInteger.readAll else pure []
  let bookmarks ← Vec.readAll BookmarkMetadata.readAll
  let compressedData ← ByteVec.readAll
  let uncompressedSize ← UnsignedInteger.readAll
  let timestampStart ← UnsignedInteger.readAll
  let timestampEnd ← UnsignedInteger.readAll
  let elapsedFramesStart ← UnsignedInteger.readAll
  let elapsedFramesEnd ← UnsignedInteger.readAll
  pure
    { keyframes, keyframeOffsets, bookmarks, compressedData, uncompressedSize, timestampStart
      timestampEnd, elapsedFramesStart, elapsedFramesEnd }

/-- The frame that follows the packet is left in the file: it is skipped. -/
def StoredKeyframe.readAll (version : Nat) : PacketReader StoredKeyframe := do
  let metadata ← KeyframeMetadata.readAll version
  let level ← U8.readAll
  let stateLen ← UnsignedInteger.readAll
  let uncompressedLen ← UnsignedInteger.readAll
  let frameLen ← UnsignedInteger.readAll
  let _ ← takeBytes .notEnoughData frameLen.toNat
  pure { metadata, level, stateLen, uncompressedLen, frameLen, frameOffset := 0 }

def Thumbnail.readAll (againstPrevious jpeg : Bool) : PacketReader Thumbnail := do
  let elapsedFrames ← UnsignedInteger.readAll
  let topWidth ← UnsignedInteger.readAll
  let topHeight ← UnsignedInteger.readAll
  let bottomWidth ← UnsignedInteger.readAll
  let bottomHeight ← UnsignedInteger.readAll
  let top ← ByteVec.readAll
  let bottom ← ByteVec.readAll
  pure
    { elapsedFrames, topWidth, topHeight, bottomWidth, bottomHeight, top, bottom
      againstPrevious, jpeg }

/-- The length is checked before the bytes are copied: a corrupt file must not make a frame of link
traffic look like a state-sized allocation. -/
def readSerialIn : PacketReader ByteVec := do
  let len ← Usize.readAll
  if maxSerialInBytes < len then
    throw (.parseFail
      s!"SerialIn packet of {len} bytes is longer than the {maxSerialInBytes} allowed")
  else takeBytes .notEnoughData len

/-- The memory write whose data is read by `data`. -/
def readWriteMemory (data : PacketReader ByteVec) : PacketReader Packet := do
  let address ← UnsignedInteger.readAll
  let data ← data
  pure (.writeMemory address data)

/-- The packet behind a discriminator. -/
def Packet.readPayload (version : Nat) : PacketDiscriminator → PacketReader Packet
  | .noOp => pure .noOp
  | .resetConsole => pure .resetConsole
  | .nextFrame => Packet.nextFrame <$> UnsignedInteger.readAll
  | .loadSaveState => Packet.loadSaveState <$> ByteVec.readAll
  | .changeInput8 => Packet.changeInput <$> readFixed 1
  | .changeInput16 => Packet.changeInput <$> readFixed 2
  | .changeInput32 => Packet.changeInput <$> readFixed 4
  | .changeInputVar => Packet.changeInput <$> ByteVec.readAll
  | .writeMemory8 => readWriteMemory (readFixed 1)
  | .writeMemory16 => readWriteMemory (readFixed 2)
  | .writeMemory32 => readWriteMemory (readFixed 4)
  | .writeMemoryVar => readWriteMemory ByteVec.readAll
  | .keyframe => do
    let metadata ← KeyframeMetadata.readAll version
    let state ← ByteVec.readAll
    pure (.keyframe metadata state)
  | .deltaKeyframe => do
    let metadata ← KeyframeMetadata.readAll version
    let diff ← Vec.readAll UnsignedInteger.readAll
    pure (.deltaKeyframe metadata diff)
  | .regionDeltaKeyframe => do
    let metadata ← KeyframeMetadata.readAll version
    let stateLen ← UnsignedInteger.readAll
    let control ← ByteVec.readAll
    let data ← ByteVec.readAll
    pure (.regionDeltaKeyframe metadata stateLen control data)
  | .storedKeyframe => Packet.storedKeyframe <$> StoredKeyframe.readAll version
  | .thumbnail => Packet.thumbnail <$> Thumbnail.readAll false false
  | .thumbnailAgainstPrevious => Packet.thumbnail <$> Thumbnail.readAll true false
  | .thumbnailJpeg => Packet.thumbnail <$> Thumbnail.readAll false true
  | .bookmark => Packet.bookmark <$> BookmarkMetadata.readAll
  | .bookmarkTable => Packet.bookmarkTable <$> BookmarkTable.readAll
  | .changeSpeed => Packet.changeSpeed <$> Speed.readAll
  | .compressedBlob => Packet.compressedBlob <$> CompressedBlob.readAll version false
  | .indexedCompressedBlob => Packet.compressedBlob <$> CompressedBlob.readAll version true
  | .incrementCounter => do
    let name ← Str.readAll
    let delta ← SignedInteger.readAll
    pure (.incrementCounter name delta)
  | .serialIn => Packet.serialIn <$> readSerialIn

/-- Take one packet off the front of the stream. -/
def Packet.readAll (version : Nat) : PacketReader Packet := do
  let discriminatorByte ← U8.readAll
  match PacketDiscriminator.tryFrom discriminatorByte with
  | some d => Packet.readPayload version d
  | none => throw (.parseFail s!"Unknown packet discriminator 0x{hex8 discriminatorByte.toNat}")

/-- A packet is read as its first byte says. -/
theorem Packet.readAll_cons (version : Nat) (b : UInt8) (bs : Bytes) :
    Packet.readAll version (b :: bs) = (match PacketDiscriminator.tryFrom b with
      | some d => Packet.readPayload version d
      | none => throw (.parseFail s!"Unknown packet discriminator 0x{hex8 b.toNat}") :
        PacketReader Packet) bs := rfl

/-! ## Stability -/

theorem CompressedBlob.stable (version : Nat) (indexed : Bool) :
    Stable (CompressedBlob.readAll version indexed) := by
  have hoffsets : Stable (bif indexed then Vec.readAll UnsignedInteger.readAll else pure []) := by
    cases indexed
    · exact stable_pure _
    · exact Vec.stable UnsignedInteger.stable
  exact (Vec.stable (KeyframeMetadata.stable version)).bind fun _ ↦ hoffsets.bind fun _ ↦
    (Vec.stable BookmarkMetadata.stable).bind fun _ ↦ ByteVec.stable.bind fun _ ↦
    UnsignedInteger.stable.bind fun _ ↦ UnsignedInteger.stable.bind fun _ ↦
    UnsignedInteger.stable.bind fun _ ↦ UnsignedInteger.stable.bind fun _ ↦
    UnsignedInteger.stable.bind fun _ ↦ stable_pure _

theorem StoredKeyframe.stable (version : Nat) : Stable (StoredKeyframe.readAll version) :=
  (KeyframeMetadata.stable version).bind fun _ ↦ (stable_takeByte _).bind fun _ ↦
    UnsignedInteger.stable.bind fun _ ↦ UnsignedInteger.stable.bind fun _ ↦
    UnsignedInteger.stable.bind fun _ ↦ (stable_takeBytes _ _).bind fun _ ↦ stable_pure _

theorem Thumbnail.stable (againstPrevious jpeg : Bool) :
    Stable (Thumbnail.readAll againstPrevious jpeg) :=
  UnsignedInteger.stable.bind fun _ ↦ UnsignedInteger.stable.bind fun _ ↦
    UnsignedInteger.stable.bind fun _ ↦ UnsignedInteger.stable.bind fun _ ↦
    UnsignedInteger.stable.bind fun _ ↦ ByteVec.stable.bind fun _ ↦ ByteVec.stable.bind fun _ ↦
    stable_pure _

theorem stable_readSerialIn : Stable readSerialIn :=
  Usize.stable.bind fun _ ↦ Stable.ite (stable_throw _) (stable_takeBytes _ _)

theorem stable_readWriteMemory {data : PacketReader ByteVec} (h : Stable data) :
    Stable (readWriteMemory data) :=
  UnsignedInteger.stable.bind fun _ ↦ h.bind fun _ ↦ stable_pure _

theorem Packet.stable_payload (version : Nat) (d : PacketDiscriminator) :
    Stable (readPayload version d) := by
  have hmeta := KeyframeMetadata.stable version
  cases d with
  | noOp => exact stable_pure _
  | resetConsole => exact stable_pure _
  | nextFrame => exact UnsignedInteger.stable.map _
  | loadSaveState => exact ByteVec.stable.map _
  | changeInput8 => exact (stable_takeBytes _ _).map _
  | changeInput16 => exact (stable_takeBytes _ _).map _
  | changeInput32 => exact (stable_takeBytes _ _).map _
  | changeInputVar => exact ByteVec.stable.map _
  | writeMemory8 => exact stable_readWriteMemory (stable_takeBytes _ _)
  | writeMemory16 => exact stable_readWriteMemory (stable_takeBytes _ _)
  | writeMemory32 => exact stable_readWriteMemory (stable_takeBytes _ _)
  | writeMemoryVar => exact stable_readWriteMemory ByteVec.stable
  | keyframe => exact hmeta.bind fun _ ↦ ByteVec.stable.bind fun _ ↦ stable_pure _
  | deltaKeyframe =>
    exact hmeta.bind fun _ ↦ (Vec.stable UnsignedInteger.stable).bind fun _ ↦ stable_pure _
  | regionDeltaKeyframe =>
    exact hmeta.bind fun _ ↦ UnsignedInteger.stable.bind fun _ ↦ ByteVec.stable.bind fun _ ↦
      ByteVec.stable.bind fun _ ↦ stable_pure _
  | storedKeyframe => exact (StoredKeyframe.stable version).map _
  | thumbnail => exact (Thumbnail.stable _ _).map _
  | thumbnailAgainstPrevious => exact (Thumbnail.stable _ _).map _
  | thumbnailJpeg => exact (Thumbnail.stable _ _).map _
  | bookmark => exact BookmarkMetadata.stable.map _
  | bookmarkTable => exact BookmarkTable.stable.map _
  | changeSpeed => exact Speed.stable.map _
  | compressedBlob => exact (CompressedBlob.stable version _).map _
  | indexedCompressedBlob => exact (CompressedBlob.stable version _).map _
  | incrementCounter => exact Str.stable.bind fun _ ↦ SignedInteger.stable.bind fun _ ↦ stable_pure _
  | serialIn => exact stable_readSerialIn.map _

/-- **A packet is read from its own bytes alone**, whatever follows them in the stream. -/
theorem Packet.stable (version : Nat) : Stable (readAll version) := by
  refine (stable_takeByte _).bind fun b ↦ ?_
  cases PacketDiscriminator.tryFrom b with
  | none => exact stable_throw _
  | some d => exact stable_payload version d

/-! ## Round trips -/

/-- A packet comes back from its own write instructions: link traffic within the limit, and no
stored keyframe, whose frame follows it. -/
def Packet.Readable : Packet → Prop
  | .serialIn data => data.length ≤ maxSerialInBytes
  | .storedKeyframe _ => False
  | _ => True

/-- What comes back: the packet, with the fields that are not stored at their defaults. -/
def Packet.readBack : Packet → Packet
  | .bookmarkTable table => .bookmarkTable table.normalised
  | .thumbnail picture =>
    .thumbnail { picture with againstPrevious := picture.againstPrevious && !picture.jpeg }
  | p => p

theorem CompressedBlob.reads {blob : CompressedBlob} {version : Nat} (hv : 3 ≤ version)
    (h : blob.write.length < 2 ^ 64) :
    Reads (CompressedBlob.readAll version (!blob.keyframeOffsets.isEmpty)) blob.write blob := by
  simp only [CompressedBlob.write, CompressedBlob.writeTail, List.length_append] at h
  have hkeyframes : Reads (Vec.readAll (KeyframeMetadata.readAll version))
      (Vec.write KeyframeMetadata.write blob.keyframes) blob.keyframes :=
    Vec.reads (fun m _ ↦ m.write_ne_nil) (fun _ _ ↦ KeyframeMetadata.reads hv) (by omega)
  have hbookmarks : Reads (Vec.readAll BookmarkMetadata.readAll)
      (Vec.write BookmarkMetadata.write blob.bookmarks) blob.bookmarks :=
    Vec.reads (fun m _ ↦ m.write_ne_nil) (fun _ _ ↦ BookmarkMetadata.reads) (by omega)
  have hoffsets : Reads
      (bif !blob.keyframeOffsets.isEmpty then Vec.readAll UnsignedInteger.readAll else pure [])
      (if blob.keyframeOffsets.isEmpty then [] else
        Vec.write UnsignedInteger.write blob.keyframeOffsets) blob.keyframeOffsets := by
    cases hnil : blob.keyframeOffsets with
    | nil => exact reads_pure []
    | cons o os =>
      rw [hnil] at h
      exact Vec.reads (fun n _ ↦ UnsignedInteger.write_ne_nil n)
        (fun n _ _ ↦ UnsignedInteger.reads n) (by simp at h ⊢; omega)
  exact hkeyframes.bind <| hoffsets.bind <| hbookmarks.bind <| (ByteVec.reads (by omega)).bind <|
    (UnsignedInteger.reads _).bind <| (UnsignedInteger.reads _).bind <|
    (UnsignedInteger.reads _).bind <| (UnsignedInteger.reads _).bind
    (UnsignedInteger.reads _).bind_pure

theorem StoredKeyframe.reads {k : StoredKeyframe} {version : Nat} (hv : 3 ≤ version)
    (h : k.write.length < 2 ^ 64) {frame : Bytes} (hframe : frame.length = k.frameLen.toNat) :
    Reads (StoredKeyframe.readAll version) (k.write ++ frame) { k with frameOffset := 0 } := by
  have hmeta : (KeyframeMetadata.write k.metadata).length < 2 ^ 64 := by
    simp only [StoredKeyframe.write, List.length_append] at h
    omega
  simp only [StoredKeyframe.write, List.append_assoc]
  exact (KeyframeMetadata.reads hv hmeta).bind <| (reads_takeByte _ _).bind <|
    (UnsignedInteger.reads _).bind <| (UnsignedInteger.reads _).bind <|
    (UnsignedInteger.reads _).bind (reads_takeBytes_of_length hframe).bind_pure

theorem Thumbnail.reads {t : Thumbnail} (h : t.write.length < 2 ^ 64) (againstPrevious jpeg : Bool) :
    Reads (Thumbnail.readAll againstPrevious jpeg) t.write
      { t with againstPrevious := againstPrevious, jpeg := jpeg } := by
  simp only [Thumbnail.write, List.length_append] at h
  exact (UnsignedInteger.reads _).bind <| (UnsignedInteger.reads _).bind <|
    (UnsignedInteger.reads _).bind <| (UnsignedInteger.reads _).bind <|
    (UnsignedInteger.reads _).bind <| (ByteVec.reads (by omega)).bind
    (ByteVec.reads (by omega)).bind_pure

theorem reads_readSerialIn {data : ByteVec} (hcap : data.length ≤ maxSerialInBytes) :
    Reads readSerialIn (ByteVec.write data) data := by
  have hcap' : data.length ≤ 65536 := hcap
  refine (Usize.reads (by omega)).bind ?_
  rw [if_neg (by omega)]
  exact reads_takeBytes _ _

/-- The reader of `data` that goes with its length. -/
def readSized (data : ByteVec) : PacketReader ByteVec :=
  if hasFixedWidth data then readFixed data.length else ByteVec.readAll

theorem reads_writeSized {data : ByteVec} (h : (writeSized data).length < 2 ^ 64) :
    Reads (readSized data) (writeSized data) data := by
  rw [writeSized] at h ⊢
  rw [readSized]
  split
  · exact reads_takeBytes _ _
  · rename_i hvar
    rw [if_neg hvar] at h
    exact ByteVec.reads h

/-- The discriminator of an input change selects the reader that goes with the length. -/
theorem readPayload_changeInput (version : Nat) (data : InputBuffer) :
    readPayload version (changeInput data).discriminator =
      changeInput <$> readSized data := by
  simp only [discriminator, readSized, hasFixedWidth]
  by_cases h1 : data.length = 1
  · simp [h1, readPayload]
  · by_cases h2 : data.length = 2
    · simp [h2, readPayload]
    · by_cases h4 : data.length = 4 <;> simp [h1, h2, h4, readPayload]

/-- The discriminator of a memory write selects the reader that goes with the length. -/
theorem readPayload_writeMemory (version : Nat) (address : UnsignedInteger) (data : ByteVec) :
    readPayload version (writeMemory address data).discriminator =
      readWriteMemory (readSized data) := by
  simp only [discriminator, readSized, hasFixedWidth]
  by_cases h1 : data.length = 1
  · simp [h1, readPayload]
  · by_cases h2 : data.length = 2
    · simp [h2, readPayload]
    · by_cases h4 : data.length = 4 <;> simp [h1, h2, h4, readPayload]

theorem Packet.reads_payload {p : Packet} {version : Nat} (hv : 3 ≤ version) (hp : p.Readable)
    (h : p.writePayload.length < 2 ^ 64) :
    Reads (readPayload version p.discriminator) p.writePayload p.readBack := by
  cases p with
  | noOp => exact reads_pure _
  | resetConsole => exact reads_pure _
  | nextFrame timestampDelta => exact (UnsignedInteger.reads _).map
  | writeMemory address data =>
    simp only [writePayload, List.length_append] at h
    rw [readPayload_writeMemory]
    exact (UnsignedInteger.reads _).bind (reads_writeSized (by omega)).bind_pure
  | changeInput data =>
    rw [readPayload_changeInput]
    exact (reads_writeSized h).map
  | changeSpeed speed => exact (Speed.reads _).map
  | loadSaveState state => exact (ByteVec.reads h).map
  | bookmark metadata => exact (BookmarkMetadata.reads h).map
  | bookmarkTable table => exact (BookmarkTable.reads h).map
  | keyframe metadata state =>
    simp only [writePayload, List.length_append] at h
    exact (KeyframeMetadata.reads hv (by omega)).bind (ByteVec.reads (by omega)).bind_pure
  | deltaKeyframe metadata diff =>
    simp only [writePayload, List.length_append] at h
    exact (KeyframeMetadata.reads hv (by omega)).bind
      (Vec.reads (fun n _ ↦ UnsignedInteger.write_ne_nil n)
        (fun n _ _ ↦ UnsignedInteger.reads n) (by omega)).bind_pure
  | regionDeltaKeyframe metadata stateLen control data =>
    simp only [writePayload, List.length_append] at h
    exact (KeyframeMetadata.reads hv (by omega)).bind <| (UnsignedInteger.reads _).bind <|
      (ByteVec.reads (by omega)).bind (ByteVec.reads (by omega)).bind_pure
  | compressedBlob blob =>
    have hblob := (CompressedBlob.reads hv h).map (f := compressedBlob)
    simp only [discriminator]
    cases hnil : blob.keyframeOffsets.isEmpty
    · rw [hnil] at hblob
      exact hblob
    · rw [hnil] at hblob
      exact hblob
  | incrementCounter name delta =>
    simp only [writePayload, List.length_append] at h
    exact (Str.reads (by omega)).bind (SignedInteger.reads _).bind_pure
  | storedKeyframe k => exact hp.elim
  | thumbnail picture =>
    have hread := fun a j ↦ (Thumbnail.reads h a j).map (f := thumbnail)
    obtain ⟨f, tw, th, bw, bh, top, bottom, againstPrevious, jpeg⟩ := picture
    cases jpeg <;> cases againstPrevious <;> exact hread _ _
  | serialIn data => exact (reads_readSerialIn hp).map

/-- **Packet round trip**: reading takes exactly the bytes a packet writes, whatever follows. -/
theorem Packet.reads {p : Packet} {version : Nat} (hv : 3 ≤ version) (hp : p.Readable)
    (h : p.write.length < 2 ^ 64) : Reads (readAll version) p.write p.readBack := by
  rw [write, List.length_cons] at h
  refine (reads_takeByte _ p.discriminator.toByte).bind ?_
  simp only [PacketDiscriminator.tryFrom_toByte]
  exact reads_payload hv hp (by omega)

/-- A stored keyframe and the frame that follows it are taken together. -/
theorem Packet.reads_storedKeyframe {k : StoredKeyframe} {version : Nat} (hv : 3 ≤ version)
    (h : (storedKeyframe k).write.length < 2 ^ 64) {frame : Bytes}
    (hframe : frame.length = k.frameLen.toNat) :
    Reads (readAll version) ((storedKeyframe k).write ++ frame)
      (.storedKeyframe { k with frameOffset := 0 }) := by
  rw [write, List.length_cons] at h
  have hpayload : Reads (readPayload version .storedKeyframe) (k.write ++ frame)
      (.storedKeyframe { k with frameOffset := 0 }) :=
    (StoredKeyframe.reads hv (Nat.lt_of_succ_lt h) hframe).map
  exact (reads_takeByte _ PacketDiscriminator.storedKeyframe.toByte).bind hpayload

end SuperShuckie
