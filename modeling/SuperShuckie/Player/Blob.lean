import SuperShuckie.Player.State

/-!
# Blobs decoded on demand

A blob is decompressed only as far as its packets are needed.  A packet that cannot be parsed yet
may be cut short by the end of what is decoded, so an error counts only when the blob is complete.
A blob without a usable table of keyframe offsets is scanned for it once.
-/

set_option autoImplicit false

namespace SuperShuckie

open ByteFormat

/-- A blob packet's own table of keyframe offsets, if it is usable: one entry for each keyframe,
starting at 0, strictly ascending and inside the blob. -/
def validateOffsetTable (offsets : List UnsignedInteger) (keyframes : Nat)
    (size : UnsignedInteger) : Option (List Nat) :=
  match offsets with
  | [] => none
  | first :: _ =>
    if offsets.length ≠ keyframes ∨ first ≠ 0 then none
    else if (offsets.all fun o ↦ o < size) && (offsets.zip offsets.tail).all fun o ↦ o.1 < o.2 then
      some (offsets.map UInt64.toNat)
    else none

/-- The usable offset table of a blob packet. -/
def packetOffsetTable (blob : CompressedBlob) : Option (List Nat) :=
  validateOffsetTable blob.keyframeOffsets blob.keyframes.length blob.uncompressedSize

abbrev BlobAction (α : Type) := Act ReplayFileReadError DecodedBlob α

namespace DecodedBlob

/-- A blob with nothing decoded yet. -/
def begin (z : Zstd) (compressed : Bytes) (size : Nat) (table : Option (List Nat)) :
    Except ReplayFileReadError DecodedBlob :=
  match z.blobDecoder compressed size with
  | .error e => .error (.other s!"Decompression error: {e}")
  | .ok decoder => .ok ⟨[], size, some decoder, table⟩

def isComplete (blob : DecodedBlob) : Bool := decide (blob.size ≤ blob.raw.length)

/-- `compressed blob decompressed to … bytes but claims …`. -/
def wrongSize (decoded size : Nat) : ReplayFileReadError :=
  .brokenPacket s!"compressed blob decompressed to {decoded} bytes but claims {size}"

/-- Step the decoder until `upto` bytes are there.  A step that fails leaves everything as it is. -/
def decodeSteps (size upto : Nat) :
    Zstd.BlobDecoder → Bytes → Outcome ReplayFileReadError (Option Zstd.BlobDecoder × Bytes) Unit
  | decoder, raw =>
    if upto ≤ raw.length then .ok () (some decoder, raw)
    else
      match decoder with
      | [] =>
        .error (.other "Decompression error: zstd frame ended before producing its declared content")
          (some decoder, raw)
      | .error e :: _ => .error (.other s!"Decompression error: {e}") (some decoder, raw)
      | .ok (chunk, true) :: _ =>
        -- the frame is complete, so this is the last turn of the loop
        if (raw ++ chunk).length ≠ size then
          .error (wrongSize (raw ++ chunk).length size) (none, raw ++ chunk)
        else .ok () (none, raw ++ chunk)
      | .ok (chunk, false) :: decoder => decodeSteps size upto decoder (raw ++ chunk)

/-- Decode until at least `upto` bytes, or the whole blob, are available. -/
def ensureDecoded (upto : Nat) : BlobAction Unit := fun blob ↦
  let upto := min upto blob.size
  match blob.decoder with
  | none =>
    if upto ≤ blob.raw.length then .ok () blob
    else .error (wrongSize blob.raw.length blob.size) blob
  | some decoder =>
    match decodeSteps blob.size upto decoder blob.raw with
    | .ok _ (decoder, raw) => .ok () { blob with decoder, raw }
    | .error e (decoder, raw) => .error e { blob with decoder, raw }
    | .abort => .abort

def ensureComplete : BlobAction Unit := do
  let blob ← Act.get
  ensureDecoded blob.size

def failedToRead (e : PacketReadError) : ReplayFileReadError :=
  .brokenPacket s!"Failed to read packet - {e.debug}"

/-- The byte offsets of the keyframes among the packets of a blob of `size` bytes. -/
def scanOffsets (version size : Nat) (raw : Bytes) : Except ReplayFileReadError (List Nat) :=
  match readStream version raw with
  | (_, some e) => .error (failedToRead e)
  | (packets, none) =>
    .ok ((packets.filter fun p ↦ isKeyframeClass p.packet).map fun p ↦ size - p.before)

/-- Scan a blob that has no table of keyframe offsets; it is decoded in full for that. -/
def scanTable (version : Nat) : BlobAction Unit := do
  let blob ← Act.get
  if blob.keyframeOffsets.isSome then pure ()
  else
    ensureComplete
    let blob ← Act.get
    let scanned ← Act.ofExcept (scanOffsets version blob.size blob.raw)
    Act.modify fun blob ↦ { blob with keyframeOffsets := some scanned }

/-- The table of keyframe offsets; a blob that has none is scanned for it. -/
def offsets (version : Nat) : BlobAction (List Nat) := do
  scanTable version
  ensureDecoded 1
  let blob ← Act.get
  match blob.keyframeOffsets with
  | none => Act.abort
  | some offsets =>
    if offsets.head? ≠ some 0 ∨ blob.raw.head? ≠ some PacketDiscriminator.keyframe.toByte then
      Act.fail (.invalidReplayFile "first packet in a blob was not a keyframe")
    else pure offsets

/-- The loop of `parseAt`.  Every turn but the last decodes a byte more. -/
def parseAtGo (version offset : Nat) : Nat → BlobAction (Packet × Nat)
  | 0 => Act.abort
  | fuel + 1 => do
    ensureDecoded (offset + 1)
    let blob ← Act.get
    match Packet.readAll version (blob.raw.drop offset) with
    | .ok (packet, rest) => pure (packet, blob.raw.length - rest.length)
    | .error e =>
      if blob.isComplete then Act.fail (failedToRead e)
      else
        ensureDecoded (blob.raw.length + 1)
        parseAtGo version offset fuel

/-- Parse the packet at byte `offset`.  Returns it and the offset of the one after it. -/
def parseAt (version offset : Nat) : BlobAction (Packet × Nat) := do
  let blob ← Act.get
  if blob.size ≤ offset then brokenPacket "packet offset is past the end of its blob"
  else parseAtGo version offset (blob.size + 1)

/-- Whether the packet at `offset` is a full keyframe, by its discriminator. -/
def isFullKeyframeAt (offset : Nat) : BlobAction Bool := do
  ensureDecoded (offset + 1)
  let blob ← Act.get
  pure (decide (blob.raw[offset]? = some PacketDiscriminator.keyframe.toByte))

/-- Whether a keyframe lies strictly between the offsets `a` and `b`. -/
def keyframeBetween (offsets : List Nat) (a b : Nat) : Bool :=
  match offsets.dropWhile fun o ↦ o ≤ a with
  | [] => false
  | o :: _ => decide (o < b)

end DecodedBlob

end SuperShuckie
