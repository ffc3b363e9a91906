import SuperShuckie.Packet.Stream
import SuperShuckie.Recorder.State

/-!
# The state of a replay file player

`ReplayFilePlayer` reads the packets of a replay file in order and seeks to keyframes.  What was
read from the file when it was opened is its `file`, which never changes.  The rest is the cursor,
what is decoded of each blob, and the keyframe chain: the state of the keyframe folded last, which
delta keyframes are applied to.
-/

set_option autoImplicit false

namespace SuperShuckie

open ByteFormat

inductive ReplayFileReadError
  | invalidReplayFile (explanation : String)
  | brokenPacket (explanation : String)
  | other (explanation : String)
deriving DecidableEq

/-- Why a seek failed; without a keyframe on the frame, `best` is the last one before it. -/
inductive ReplaySeekError
  | noSuchKeyframe (given best : Nat)
  | readError (error : ReplayFileReadError)
deriving DecidableEq

/-- Where the bookmarks of a player came from. -/
inductive BookmarkTableSource
  | ofSection | streamSnapshot | legacy | none
deriving DecidableEq

/-- Which packets a chain position refers to: those of the top-level list, by index, or those of a
blob, by byte offset in its decompressed bytes. -/
inductive ListId
  | topLevel
  | blob (index : Nat)
deriving DecidableEq

/-- A blob's bytes, decoded as far as they were needed so far. -/
structure DecodedBlob where
  raw : Bytes
  size : Nat
  /-- `none` once the frame is complete. -/
  decoder : Option Zstd.BlobDecoder
  /-- Byte offset of every keyframe; `none` until the blob is scanned, when it has no table. -/
  keyframeOffsets : Option (List Nat)

/-- A stored keyframe of a Nintendo 3DS file: its top-level index, and the keyframe (an index into
the list of stored keyframes) that a delta is against. -/
structure StoredKeyframeInfo where
  packet : Nat
  level : UInt8
  reference : Option Nat
deriving DecidableEq

/-- The working states of a Nintendo 3DS file's keyframe chain, one buffer for each level. -/
structure StoredBuffers where
  states : Level → Bytes
  /-- The stored keyframe each buffer holds. -/
  holds : Level → Option Nat
  /-- Format 8: the decoded payload of the keyframe each buffer holds. -/
  payloads : Level → Bytes
  /-- The buffer holding the keyframe folded last. -/
  current : Option Level

def StoredBuffers.default : StoredBuffers :=
  { states := fun _ ↦ [], holds := fun _ ↦ none, payloads := fun _ ↦ [], current := none }

/-- The state of the keyframe most recently passed by the cursor, and where it came from. -/
structure ChainState where
  /-- The list `lastApplied` refers to. -/
  list : Option ListId
  /-- Position of the keyframe folded last. -/
  lastApplied : Option Nat
  state : Bytes
  /-- Whether a region delta may change the state's length (Nintendo 3DS files only). -/
  resizing : Bool
  stored : StoredBuffers

/-- What is read from a replay file when it is opened. -/
structure OpenedFile where
  metadata : ReplayFileMetadata
  headerRaw : ReplayHeaderRaw
  patchData : Option Bytes
  /-- `all_uncompressed_packets`: the top-level packets. -/
  packets : List Packet
  /-- The keyframes on each frame. -/
  keyframes : OrdMap Nat (List KeyframeMetadata)
  legacyBookmarks : OrdMap String (List BookmarkMetadata)
  bookmarkTable : BookmarkTable
  bookmarkTableSource : BookmarkTableSource
  bookmarkSectionError : Option BookmarkSectionError
  streamTruncated : Bool
  totalFrameCount : Nat
  totalMillis : Nat
  /-- The indices of the compressed blobs among the top-level packets. -/
  blobIndices : List Nat
  /-- The file's bytes, kept for the keyframes of Nintendo 3DS files. -/
  source : Option Bytes
  storedKeyframes : List StoredKeyframeInfo
  /-- Frame and top-level index of every timeline picture. -/
  thumbnails : List (UnsignedInteger × Nat)

structure ReplayFilePlayer where
  file : OpenedFile
  decodedBlobs : Nat → Option DecodedBlob
  cleanupEnabled : Bool
  /-- The index of the next top-level packet, or of the blob the cursor is in. -/
  nextUncompressedPacketIndex : Nat
  /-- The byte offset of the next packet, while the cursor is in a blob. -/
  nextBlobOffset : Option Nat
  chain : ChainState
  rom : Option Bytes
  /-- Set by a seek: the next stored keyframe is materialised even when states are not wanted. -/
  materialiseNext : Bool
  keyframeStatesWanted : Bool
  materialiseEveryKeyframe : Bool
  keyframeTransientsStale : Bool

abbrev PlayerAction (α : Type) := Act ReplayFileReadError ReplayFilePlayer α

def brokenPacket {σ α : Type} (explanation : String) : Act ReplayFileReadError σ α :=
  Act.fail (.brokenPacket explanation)

/-- How the program prints a packet error. -/
def PacketReadError.debug : PacketReadError → String
  | .notEnoughData => "NotEnoughData"
  | .parseFail explanation => "ParseFail \x7b explanation: " ++ explanation.quote ++ " \x7d"

end SuperShuckie
