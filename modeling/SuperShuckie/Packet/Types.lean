import SuperShuckie.Lib.Reader

/-!
# Packets

The data types of a replay stream: the packets themselves, the metadata they carry and the bookmark
table.  Lengths inside the program are natural numbers; what is stored in the file is a 64-bit
integer, as in the program.
-/

set_option autoImplicit false

namespace SuperShuckie

open ByteFormat

abbrev UnsignedInteger := UInt64
abbrev SignedInteger := Int64

/-- Milliseconds since the start of the replay. -/
abbrev TimestampMillis := UInt64

/-- An owned byte string (`ByteVec`, `InputBuffer`). -/
abbrev ByteVec := Bytes
abbrev InputBuffer := Bytes

/-- A speed as a fixed point number with eight fractional bits, which is never zero. -/
structure Speed where
  speedOver256 : UInt16
  ne_zero : speedOver256 ≠ 0
deriving DecidableEq

/-- The normal speed (a multiplier of 1.0). -/
def Speed.default : Speed := ⟨256, by decide⟩

/-- A counter shown with the replay. -/
structure Counter where
  name : String
  value : SignedInteger
deriving DecidableEq

/-- What a keyframe stores besides the save state. -/
structure KeyframeMetadata where
  input : InputBuffer
  speed : Speed
  elapsedFrames : UnsignedInteger
  elapsedMillis : TimestampMillis
  counters : List Counter
deriving DecidableEq

/-- A named point of a replay (formats 2 to 4). -/
structure BookmarkMetadata where
  name : String
  elapsedFrames : UnsignedInteger
  elapsedMillis : TimestampMillis
deriving DecidableEq

/-- A named point or range of a replay. -/
structure Bookmark where
  id : UnsignedInteger
  name : String
  typeId : UnsignedInteger
  inFrame : UnsignedInteger
  inMillis : TimestampMillis
  /-- Frame and time the bookmark ends on, for a range. -/
  out : Option (UnsignedInteger × TimestampMillis)
  keyframe : Bool
deriving DecidableEq

/-- A bookmark type as recorded in a replay. -/
structure BookmarkTypeRecord where
  id : UnsignedInteger
  name : String
  color : UInt32
deriving DecidableEq

/-- Every bookmark of a replay, and the types they use.  A table is kept sorted by the frame and
the id of its bookmarks. -/
structure BookmarkTable where
  /-- The id the next new bookmark gets. -/
  nextId : UnsignedInteger
  types : List BookmarkTypeRecord
  bookmarks : List Bookmark
deriving DecidableEq

/-- An empty table. -/
def BookmarkTable.new : BookmarkTable := ⟨1, [], []⟩

/-- `Packet::CompressedBlob`: a compressed stretch of the stream.  `keyframeOffsets`, when it is
not empty, is parallel to `keyframes`. -/
structure CompressedBlob where
  keyframes : List KeyframeMetadata
  keyframeOffsets : List UnsignedInteger
  bookmarks : List BookmarkMetadata
  compressedData : ByteVec
  uncompressedSize : UnsignedInteger
  timestampStart : TimestampMillis
  timestampEnd : TimestampMillis
  elapsedFramesStart : UnsignedInteger
  elapsedFramesEnd : UnsignedInteger
deriving DecidableEq

/-- `Packet::StoredKeyframe`: a keyframe of a Nintendo 3DS file, followed in the stream by
`frameLen` bytes that stay in the file.  `frameOffset` is where they are; it is not stored. -/
structure StoredKeyframe where
  metadata : KeyframeMetadata
  level : UInt8
  stateLen : UnsignedInteger
  uncompressedLen : UnsignedInteger
  frameLen : UnsignedInteger
  frameOffset : UnsignedInteger
deriving DecidableEq

/-- `Packet::Thumbnail`: a small picture of both screens. -/
structure Thumbnail where
  elapsedFrames : UnsignedInteger
  topWidth : UnsignedInteger
  topHeight : UnsignedInteger
  bottomWidth : UnsignedInteger
  bottomHeight : UnsignedInteger
  top : ByteVec
  bottom : ByteVec
  againstPrevious : Bool
  jpeg : Bool
deriving DecidableEq

/-- An individual packet. -/
inductive Packet
  | noOp
  /-- Run the emulator for one frame, `timestampDelta` after the last one. -/
  | nextFrame (timestampDelta : TimestampMillis)
  | writeMemory (address : UnsignedInteger) (data : ByteVec)
  | changeInput (data : InputBuffer)
  | changeSpeed (speed : Speed)
  | resetConsole
  | loadSaveState (state : ByteVec)
  | bookmark (metadata : BookmarkMetadata)
  | bookmarkTable (table : BookmarkTable)
  | keyframe (metadata : KeyframeMetadata) (state : ByteVec)
  /-- A keyframe of formats 2 and 3, stored as a word diff. -/
  | deltaKeyframe (metadata : KeyframeMetadata) (diff : List UnsignedInteger)
  /-- A keyframe stored as a region diff against the keyframe before it. -/
  | regionDeltaKeyframe (metadata : KeyframeMetadata) (stateLen : UnsignedInteger)
      (control data : ByteVec)
  | compressedBlob (blob : CompressedBlob)
  | incrementCounter (name : String) (delta : SignedInteger)
  | storedKeyframe (keyframe : StoredKeyframe)
  | thumbnail (picture : Thumbnail)
  | serialIn (data : ByteVec)
deriving DecidableEq

/-- Longest `serialIn` payload accepted when reading. -/
def maxSerialInBytes : Nat := 64 * 1024

/-- Why a packet could not be read. -/
inductive PacketReadError
  | notEnoughData
  | parseFail (explanation : String)
deriving DecidableEq

end SuperShuckie
