import SuperShuckie.Player.Chain
import SuperShuckie.Lib.Lists

/-!
# Seeking and reading

`goToKeyframe` moves the cursor to the last keyframe on a frame, and `nextPacket` hands out the
packets from the cursor on, every delta keyframe as the full keyframe it stands for.
-/

set_option autoImplicit false

namespace SuperShuckie

open ByteFormat

namespace ReplayFilePlayer

variable (x : Externals)

/-! ## Locating a keyframe -/

/-- Whether a keyframe is on a frame. -/
def onFrame (frame : Nat) (keyframe : KeyframeMetadata) : Bool :=
  decide (keyframe.elapsedFrames.toNat = frame)

/-- The last list that holds a keyframe on `frame`, and where: an index into the top-level packets,
or into the keyframes of a blob.  Keyframes on one frame are never separated by a frame, so the scan
stops at the first frame, or blob without such a keyframe, after a match. -/
def locateIn (frame : Nat) :
    List Packet → Nat → Option (ListId × Nat) → Option (ListId × Nat)
  | [], _, location => location
  | packet :: packets, i, location =>
    match packet with
    | .compressedBlob blob =>
      match rposition (onFrame frame) blob.keyframes with
      | some j => locateIn frame packets (i + 1) (some (.blob i, j))
      | none => if location.isSome then location else locateIn frame packets (i + 1) location
    | .nextFrame _ =>
      if location.isSome then location else locateIn frame packets (i + 1) location
    | _ =>
      if (keyframeMetadata packet).any (onFrame frame) then
        locateIn frame packets (i + 1) (some (.topLevel, i))
      else locateIn frame packets (i + 1) location

/-- Make sure that the blob at `index` can be decoded on demand. -/
def decompressImmediately (index : Nat) : PlayerAction Unit := do
  let p ← Act.get
  if (p.decodedBlobs index).isSome then pure ()
  else
    match p.file.packets[index]? with
    | some (.compressedBlob blob) =>
      let decoded ← Act.ofExcept (DecodedBlob.begin x.zstd blob.compressedData
        blob.uncompressedSize.toNat (packetOffsetTable blob))
      Act.modify fun p ↦ { p with
        decodedBlobs := fun i ↦ if i = index then some decoded else p.decodedBlobs i }
    | _ => Act.abort

/-- Find the list and position of the last keyframe on a frame that has one. -/
def locatePosition (frame : Nat) : PlayerAction (ListId × Nat) := do
  let p ← Act.get
  match locateIn frame p.file.packets 0 none with
  | none => Act.fail (.other "keyframe is in the index but not in the packet stream")
  | some (.topLevel, index) => pure (.topLevel, index)
  | some (.blob top, index) =>
    decompressImmediately x top
    let offsets ← onBlob top (DecodedBlob.offsets p.version)
    match offsets[index]? with
    | none => brokenPacket "keyframe listed in the blob metadata is not in the blob"
    | some target => pure (.blob top, target)

/-! ## Bringing the chain to a keyframe -/

/-- The last of some keyframe offsets of a blob, given from the last one back, at which there is a
full keyframe, as an index into them. -/
def restartInBlob (index : Nat) : List (Nat × Nat) → PlayerAction (Option Nat)
  | [] => pure none
  | (offset, i) :: offsets => do
    if ← onBlob index (DecodedBlob.isFullKeyframeAt offset) then pure (some i)
    else restartInBlob index offsets

/-- Bring the chain to the keyframe just before `target`. -/
def fastForwardChain (list : ListId) (target : Nat) : PlayerAction Unit := do
  let p ← Act.get
  match list with
  | .topLevel =>
    match p.file.packets[target]? with
    | none => Act.abort
    | some (.storedKeyframe _) => fastForwardStoredChain x target
    | some _ =>
      match rposition isFullKeyframe (p.file.packets.take (target + 1)) with
      | none => brokenPacket "delta keyframe with no full keyframe before it"
      | some restart =>
        let start := match p.chain.lastApplied with
          | some last =>
            if p.chain.list = some list ∧ last ≤ target then max (last + 1) restart else restart
          | none => restart
        (List.range' start (target - start)).forM (foldTopLevel x)
  | .blob top =>
    let offsets ← onBlob top (DecodedBlob.offsets p.version)
    let upTo := offsets.takeWhile fun o ↦ o ≤ target
    if upTo.getLast? ≠ some target then
      brokenPacket "seek target is not a keyframe of its blob"
    else
      match ← restartInBlob top upTo.zipIdx.reverse with
      | none => brokenPacket "delta keyframe with no full keyframe before it"
      | some restart =>
        let start := match p.chain.lastApplied with
          | some last =>
            if p.chain.list = some list ∧ last ≤ target then
              max (upTo.takeWhile fun o ↦ o ≤ last).length restart
            else restart
          | none => restart
        (upTo.dropLast.drop start).forM fun offset ↦ do
          let _ ← foldInBlob top offset
          pure ()

/-! ## Seeking -/

/-- An action of the player as part of a seek. -/
abbrev SeekAction (α : Type) := Act ReplaySeekError ReplayFilePlayer α

/-- Errors of reading are errors of the seek. -/
def seekRead {α : Type} (f : PlayerAction α) : SeekAction α := fun p ↦
  match f p with
  | .ok a p => .ok a p
  | .error e p => .error (.readError e) p
  | .abort => .abort

/-- Find the list and position of the last keyframe on a frame. -/
def locateKeyframe (frame : Nat) : SeekAction (ListId × Nat) := do
  let p ← Act.get
  if (p.file.keyframes.get? frame).isNone then
    match (p.file.keyframes.entries.filter fun e ↦ e.1 ≤ frame).getLast? with
    | some best => Act.fail (.noSuchKeyframe frame best.1)
    | none => Act.abort
  else seekRead (locatePosition x frame)

/-- Go to the last keyframe on a frame: `nextPacket` hands it out next. -/
def goToKeyframe (frame : Nat) : SeekAction Unit := do
  let (list, target) ← locateKeyframe x frame
  seekRead (fastForwardChain x list target)
  Act.modify fun p ↦ { p with materialiseNext := true }
  match list with
  | .topLevel =>
    Act.modify fun p ↦ { p with
      nextUncompressedPacketIndex := target
      nextBlobOffset := none }
  | .blob top =>
    Act.modify fun p ↦ { p with
      nextUncompressedPacketIndex := top
      nextBlobOffset := some target }

/-- Whether the keyframe that `goToKeyframe` would use is stored in full. -/
def keyframeIsStoredFull (frame : Nat) : SeekAction Bool := do
  let (list, target) ← locateKeyframe x frame
  match list with
  | .topLevel =>
    let p ← Act.get
    match p.file.packets[target]? with
    | none => Act.abort
    | some (.keyframe ..) => pure true
    | some (.storedKeyframe k) => pure (decide (k.level = 0))
    | some _ => pure false
  | .blob top => seekRead (onBlob top (DecodedBlob.isFullKeyframeAt target))

/-! ## Reading -/

/-- Forget every blob before the last one that the cursor has passed. -/
def cleanup (p : ReplayFilePlayer) : ReplayFilePlayer :=
  if p.cleanupEnabled then
    match (p.file.blobIndices.filter fun i ↦ i < p.nextUncompressedPacketIndex).getLast? with
    | some last =>
      { p with decodedBlobs := fun i ↦ if i < last then none else p.decodedBlobs i }
    | none => p
  else p

/-- Whether a keyframe just folded left the transient ranges as they were. -/
def leavesTransients (p : ReplayFilePlayer) : Packet → Bool
  | .regionDeltaKeyframe _ _ control _ =>
    let ranges := transientRanges p.file.metadata.consoleType p.chain.current
    !ranges.isEmpty && ranges.all fun r ↦ !regionDiffTouches control r.start r.stop
  | .storedKeyframe k =>
    decide (0 < k.level) && decide (replayVersionNintendo3DSStaleVram ≤ p.version)
  | _ => false

/-- A keyframe as it is handed out. -/
def handedKeyframe (p : ReplayFilePlayer) (metadata : KeyframeMetadata) : Packet :=
  .keyframe metadata (if p.keyframeStatesWanted then p.chain.current else [])

/-- What the caller sees for a packet that has just been folded into the chain. -/
def handOut (packet : Packet) : PlayerAction Packet := do
  Act.modify fun p ↦
    if isKeyframeClass packet then
      { p with keyframeTransientsStale := p.leavesTransients packet }
    else p
  let p ← Act.get
  match packet with
  | .deltaKeyframe metadata _ => pure (p.handedKeyframe metadata)
  | .regionDeltaKeyframe metadata .. => pure (p.handedKeyframe metadata)
  | .storedKeyframe k => pure (p.handedKeyframe k.metadata)
  | _ => pure packet

/-- Hand out the top-level packet at `index`.  A stored keyframe met in a plain read is not
materialised unless its state is wanted. -/
def nextTopLevel (index : Nat) (packet : Packet) : PlayerAction Packet := do
  Act.modify fun p ↦ { p with nextUncompressedPacketIndex := index + 1 }
  let p ← Act.get
  match packet with
  | .storedKeyframe k =>
    if !p.keyframeStatesWanted && !p.materialiseNext && !p.materialiseEveryKeyframe then
      Act.modify fun p ↦ { p with keyframeTransientsStale := false }
      pure (.keyframe k.metadata [])
    else
      Act.modify fun p ↦ { p with materialiseNext := false }
      foldTopLevel x index
      handOut packet
  | _ =>
    Act.modify fun p ↦ { p with materialiseNext := false }
    foldTopLevel x index
    handOut packet

/-- The loop of `nextPacket`.  Every turn but the last passes the end of a blob. -/
def nextPacketGo : Nat → PlayerAction (Option Packet)
  | 0 => Act.abort
  | fuel + 1 => do
    let p ← Act.get
    let index := p.nextUncompressedPacketIndex
    match p.file.packets[index]? with
    | none => pure none
    | some packet =>
      Act.modify cleanup
      match packet with
      | .compressedBlob _ =>
        decompressImmediately x index
        let p ← Act.get
        let offset := p.nextBlobOffset.getD 0
        match p.decodedBlobs index with
        | none => Act.abort
        | some blob =>
          if blob.size ≤ offset then
            Act.modify fun p ↦ { p with
              nextBlobOffset := none
              nextUncompressedPacketIndex := index + 1 }
            nextPacketGo fuel
          else
            let (packet, next) ← foldInBlob index offset
            Act.modify fun p ↦ { p with nextBlobOffset := some next }
            some <$> handOut packet
      | _ => some <$> nextTopLevel x index packet

/-- Hand out the next packet; nothing at the end of the stream. -/
def nextPacket : PlayerAction (Option Packet) := do
  let p ← Act.get
  nextPacketGo x (p.file.packets.length + 1)

/-! ## Settings -/

def setRom (rom : Bytes) (p : ReplayFilePlayer) : ReplayFilePlayer := { p with rom := some rom }

def setKeyframeStatesWanted (wanted : Bool) (p : ReplayFilePlayer) : ReplayFilePlayer :=
  { p with keyframeStatesWanted := wanted }

def setMaterialiseEveryKeyframe (materialise : Bool) (p : ReplayFilePlayer) : ReplayFilePlayer :=
  { p with materialiseEveryKeyframe := materialise }

/-- The state of the keyframe handed out last. -/
def currentKeyframeState (p : ReplayFilePlayer) : Bytes := p.chain.current

end ReplayFilePlayer

end SuperShuckie
