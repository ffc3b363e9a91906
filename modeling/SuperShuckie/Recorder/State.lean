import SuperShuckie.Recorder.Sink
import SuperShuckie.BookmarkSection
import SuperShuckie.StoredPayload
import SuperShuckie.RegionDiff
import SuperShuckie.Zstd
import SuperShuckie.Lib.OrdMap
import SuperShuckie.Lib.Tiers

/-!
# The state of a replay file recorder

`Recorder` is the data of a `ReplayFileRecorder`: the blob in progress, the clock, the delta base of
the next keyframe, the two sinks, and for Nintendo 3DS files the reference states and what waits
behind a keyframe that is not written yet.

The 64-bit frame counter and stream position abort the program when they overflow.
-/

set_option autoImplicit false

namespace SuperShuckie

open ByteFormat

/-- The third-party code and the ROM index that a recorder and a player call. -/
structure Externals where
  zstd : Zstd
  blake3 : Bytes → FixedBytes 32
  /-- `thumbnail_jpeg::encode_rgb565`: width, height, pixels and quality. -/
  encodeJpeg : Nat → Nat → Bytes → Nat → Except String Bytes
  /-- `RomIndex::build` on some ranges of a ROM, and its `lookup` of a block. -/
  romIndex : Bytes → List (Nat × Nat) → Option (Bytes → Option Nat)

/-- The least that can stand for them: frames of raw blocks, a hash that is zero, no pictures and no
index. -/
def Externals.plain : Externals :=
  { zstd := rawZstd
    blake3 := fun _ ↦ FixedBytes.zero 32
    encodeJpeg := fun _ _ _ _ ↦ .error "cannot encode"
    romIndex := fun _ _ ↦ none }

/-- Settings of a recorder. -/
structure RecorderSettings where
  minimumUncompressedBytesPerBlob : Nat
  maxFramesPerBlob : Nat
  compressionLevel : Int
  maskTransientBuffers : Bool
  storedKeyframeLevels : Nat × Nat
  storedKeyframeCompressionLevel : Int
  storedKeyframeMaskTransients : Bool
  storedThumbnailJpegQuality : Nat
deriving DecidableEq

/-- How a keyframe is stored: as a delta when that is smaller, or always in full. -/
inductive KeyframeEncoding
  | auto | full
deriving DecidableEq

/-- What touched each page of a console's transient memory first: 0 nothing, 1 a read, 2 a write. -/
structure TransientPageAccess where
  stateOffset : Nat
  pageSize : Nat
  firstAccess : List UInt8
deriving DecidableEq

/-- The level of a stored keyframe. -/
abbrev Level := Fin 3

/-- A Nintendo 3DS keyframe decided on but not yet written. -/
structure PendingKeyframe where
  state : Bytes
  metadata : KeyframeMetadata
  level : Level
  reads : List (Nat × Nat)

/-- A screen of a timeline picture: width, height and pixels. -/
abbrev Screen := Nat × Nat × Bytes

/-- What the next stored keyframe of a Nintendo 3DS file diffs against, and the timeline
pictures. -/
structure StoredKeyframes where
  /-- The state after the most recent keyframe of level at most `i`. -/
  states : Level → Option Bytes
  sinceLevel0 : Nat
  sinceLevel1 : Nat
  /-- ROM ranges read since the most recent keyframe of level at most `i`. -/
  readsSince : Level → List (Nat × Nat)
  thumbnail : Option (Screen × Screen)
  thumbnailsInGroup : Nat
  hasLevel0 : Bool
  accessSince : List UInt8
  accessRange : Option (Nat × Nat)
  /-- The keyframe waiting for the report of the interval after it, and the packets since. -/
  pending : Option PendingKeyframe
  pendingPackets : Bytes

def StoredKeyframes.default : StoredKeyframes :=
  { states := fun _ ↦ none, sinceLevel0 := 0, sinceLevel1 := 0, readsSince := fun _ ↦ []
    thumbnail := none, thumbnailsInGroup := 0, hasLevel0 := false, accessSince := []
    accessRange := none, pending := none, pendingPackets := [] }

/-- The two sinks and what is known of their failures. -/
structure SinkTuple where
  finalSink : Sink
  tempSink : Sink
  finalFailed : Bool
  tempFailed : Option ReplayFileWriteError

/-- A replay file recorder. -/
structure Recorder where
  settings : RecorderSettings
  currentBlob : Bytes
  currentBlobKeyframes : List KeyframeMetadata
  /-- Byte offset in `currentBlob` of each keyframe-class packet. -/
  currentBlobKeyframeOffsets : List UInt64
  currentBlobOffset : Nat
  elapsedFrames : UnsignedInteger
  elapsedMillis : TimestampMillis
  lastStateToDiff : Option Bytes
  currentSpeed : Speed
  currentInput : InputBuffer
  /-- `none` once the recorder is closed. -/
  sink : Option SinkTuple
  /-- Nintendo 3DS files only. -/
  stored : Option StoredKeyframes
  rom : Option Bytes
  romReadsUnknown : Bool
  header : ReplayHeaderRaw
  counters : OrdMap String SignedInteger
  bookmarks : BookmarkTable
  /-- Whether a bookmark table was ever written; from then on every blob repeats it. -/
  bookmarksWritten : Bool
  bookmarkSnapshotPending : Bool

abbrev RecorderAction (α : Type) := Act ReplayFileWriteError Recorder α

/-- The metadata of a keyframe inserted at `elapsedMillis`. -/
def Recorder.keyframeMetadata (r : Recorder) (elapsedMillis : TimestampMillis) : KeyframeMetadata :=
  { input := r.currentInput
    speed := r.currentSpeed
    elapsedFrames := r.elapsedFrames
    elapsedMillis
    counters := r.counters.entries.map fun e ↦ ⟨e.1, e.2⟩ }

end SuperShuckie
