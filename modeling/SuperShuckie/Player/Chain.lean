import SuperShuckie.Player.Blob
import SuperShuckie.RegionDiff.Touches

/-!
# The keyframe chain

Delta keyframes stay compact in the file and are folded into the running state of the chain
(`ChainState.fold`).  The keyframes of a Nintendo 3DS file are stored one by one; they are
materialised into one buffer for each level (`foldStored`).
-/

set_option autoImplicit false

namespace SuperShuckie

open ByteFormat

/-! ## Word diffs -/

/-- Apply a word diff of formats 2 and 3: in each entry the upper half is the offset and the lower
half the new word.  `none` leaves the state untouched: a word lies past the end. -/
def applyDiffInPlace (state : Bytes) (diff : List UnsignedInteger) : Option Bytes :=
  let paddedLen := (state.length + 3) / 4 * 4
  if diff.any fun d ↦ paddedLen < d.toNat / 2 ^ 32 + 4 then none
  else
    some ((diff.foldl (fun state d ↦
      overwrite state (d.toNat / 2 ^ 32) (leBytes 4 (d.toNat % 2 ^ 32)))
      (resizeZero state paddedLen)).take state.length)

/-! ## The chain state -/

namespace ChainState

def new (resizing : Bool) : ChainState :=
  { list := none, lastApplied := none, state := [], resizing, stored := StoredBuffers.default }

/-- The materialised state of the last folded keyframe. -/
def current (c : ChainState) : Bytes :=
  match c.stored.current with
  | some b => c.stored.states b
  | none => c.state

def isAt (c : ChainState) (list : ListId) (position : Nat) : Bool :=
  decide (c.list = some list) && decide (c.lastApplied = some position)

def setFull (c : ChainState) (list : ListId) (position : Nat) (state : Bytes) : ChainState :=
  { c with
    stored := { c.stored with current := none }
    state
    list := some list
    lastApplied := some position }

/-- Whether the chain holds the state of the keyframe immediately before `position` in `list`;
`between a b` says whether a keyframe lies strictly between two positions of that list. -/
def holdsPredecessorOf (c : ChainState) (list : ListId) (position : Nat)
    (between : Nat → Nat → Bool) : Bool :=
  decide (c.list = some list) &&
    c.lastApplied.any fun last ↦ decide (last < position) && !between last position

abbrev ChainAction (α : Type) := Act ReplayFileReadError ChainState α

/-- The longest state a delta may turn a state of `len` bytes into (saturating at 64 bits). -/
def plausibleLen (len : Nat) : Nat := max (min (len * 2) (2 ^ 64 - 1)) (2 ^ 20)

/-- Make the state as long as a region delta wants it. -/
def fitState (stateLen : UnsignedInteger) : ChainAction Unit := do
  let c ← Act.get
  let wanted := stateLen.toNat
  if wanted ≠ c.state.length then
    if c.resizing = false ∨ plausibleLen c.state.length < wanted then
      brokenPacket s!"region delta keyframe expects a {stateLen.toNat}-byte state but the chain holds {c.state.length} bytes"
    else Act.modify fun c ↦ { c with state := resizeZero c.state wanted }

/-- Fold `packet`, which sits at `position` of `list`, into the chain.  A delta needs its
predecessor to be held. -/
def fold (list : ListId) (position : Nat) (packet : Packet) (predecessorHeld : Bool) :
    ChainAction Unit :=
  match packet with
  | .keyframe _ state => Act.modify fun c ↦ c.setFull list position state
  | .deltaKeyframe _ diff =>
    if predecessorHeld then do
      let c ← Act.get
      match applyDiffInPlace c.state diff with
      | none => brokenPacket "delta keyframe failed to apply"
      | some state => Act.modify fun c ↦ { c with state, lastApplied := some position }
    else brokenPacket "delta keyframe is not preceded by a keyframe in its chain"
  | .regionDeltaKeyframe _ stateLen control data =>
    if predecessorHeld then do
      fitState stateLen
      let c ← Act.get
      match applyRegionDiffInPlace c.state control data with
      | none => brokenPacket "region delta keyframe is malformed"
      | some state => Act.modify fun c ↦ { c with state, lastApplied := some position }
    else brokenPacket "delta keyframe is not preceded by a keyframe in its chain"
  | _ => pure ()

end ChainState

/-! ## Stored keyframes -/

namespace StoredBuffers

/-- The buffer holding stored keyframe `k`. -/
def holding (s : StoredBuffers) (k : Nat) : Option Level :=
  [0, 1, 2].find? fun b ↦ s.holds b = some k

/-- Forget what buffer `b` held. -/
def dropBuffer (s : StoredBuffers) (b : Level) : StoredBuffers :=
  { s with
    holds := fun m ↦ if m = b then none else s.holds m
    payloads := fun m ↦ if m = b then [] else s.payloads m
    current := if s.current = some b then none else s.current }

/-- Set the bytes of buffer `b`. -/
def setState (s : StoredBuffers) (b : Level) (state : Bytes) : StoredBuffers :=
  { s with states := fun m ↦ if m = b then state else s.states m }

/-- Note that buffer `b` holds stored keyframe `k` now. -/
def hold (s : StoredBuffers) (b : Level) (k : Nat) : StoredBuffers :=
  { s with
    holds := fun m ↦ if m = b then some k else s.holds m
    current := some b }

end StoredBuffers

/-- The level of a stored keyframe, `none` when it is unknown. -/
def levelOf (level : UInt8) : Option Level :=
  if level = 0 then some 0 else if level = 1 then some 1 else if level = 2 then some 2 else none

def decodeError (e : String) : ReplayFileReadError :=
  .brokenPacket s!"3DS keyframe failed to decode: {e}"

namespace OpenedFile

/-- Whether the deltas of a file copy bytes from the ROM and have their reference as prefix. -/
def isV9 (file : OpenedFile) : Bool :=
  decide (replayVersionNintendo3DSRomReferences ≤ file.headerRaw.replayVersion.toNat)

/-- Decode the payload of a delta against a state, or against the payload it was made from: the
payload, its control stream and its data stream. -/
def decodeDelta (file : OpenedFile) (z : Zstd) (rom : Option Bytes) (frame : Bytes)
    (uncompressed : Nat) (state payload : Bytes) :
    Except ReplayFileReadError (Bytes × Bytes × Bytes) :=
  let pfx := if file.isV9 then state else payload
  match z.decompressDataWithPrefix frame uncompressed pfx with
  | .error e => .error (decodeError e)
  | .ok payload =>
    if file.isV9 then
      match splitPayloadV9 payload with
      | .error e => .error (.brokenPacket e)
      | .ok parts =>
        match parts.dataInto rom with
        | .error e => .error (decodeError e)
        | .ok data => .ok (payload, parts.control, data)
    else
      match splitPayloadV8 payload with
      | .error e => .error (.brokenPacket e)
      | .ok (control, data) => .ok (payload, control, data)

/-- The frame of a stored keyframe. -/
def storedFrame (file : OpenedFile) (keyframe : StoredKeyframe) :
    Except ReplayFileReadError Bytes :=
  match file.source with
  | none =>
    .error (.other "3DS keyframe data is not available: the replay file is not kept open")
  | some source =>
    match slice? source keyframe.frameOffset.toNat keyframe.frameLen.toNat with
    | none => .error (.brokenPacket "3DS keyframe frame is outside the file")
    | some frame => .ok frame

/-- The index among the stored keyframes of the one at top-level index `packet`. -/
def storedIndexOf (file : OpenedFile) (packet : Nat) : Except ReplayFileReadError Nat :=
  match file.storedKeyframes.findIdx? fun info ↦ info.packet = packet with
  | some k => .ok k
  | none => .error (.brokenPacket "3DS keyframe is not in the keyframe list")

end OpenedFile

namespace ReplayFilePlayer

variable (x : Externals)

def setStored (p : ReplayFilePlayer) (f : StoredBuffers → StoredBuffers) : ReplayFilePlayer :=
  { p with chain := { p.chain with stored := f p.chain.stored } }

/-- Decode full stored keyframe `k` into buffer 0. -/
def materialiseFull (k : Nat) (keyframe : StoredKeyframe) (frame : Bytes) : PlayerAction Unit := do
  Act.modify fun p ↦ p.setStored fun s ↦ (s.dropBuffer 0).setState 0 []
  match x.zstd.decompressDataWithPrefix frame keyframe.uncompressedLen.toNat [] with
  | .error e => Act.fail (decodeError e)
  | .ok state =>
    Act.modify fun p ↦ p.setStored fun s ↦ s.setState 0 state
    if state.length ≠ keyframe.stateLen.toNat then
      brokenPacket "3DS full keyframe length disagrees with its state length"
    else Act.modify fun p ↦ p.setStored fun s ↦ s.hold 0 k

/-- Decode stored keyframe `k`, a delta, into buffer `level`, on top of its reference. -/
def materialiseDelta (k : Nat) (info : StoredKeyframeInfo) (keyframe : StoredKeyframe)
    (level : Level) (frame : Bytes) : PlayerAction Unit := do
  let p ← Act.get
  match info.reference with
  | none => brokenPacket "3DS delta keyframe with no keyframe before it to apply to"
  | some reference =>
    match p.chain.stored.holding reference with
    | none => brokenPacket "3DS delta keyframe's reference keyframe is not in its chain"
    | some source =>
      let wanted := keyframe.stateLen.toNat
      if ChainState.plausibleLen (p.chain.stored.states source).length < wanted then
        brokenPacket "3DS delta keyframe state length is implausible"
      else
        let (payload, control, data) ←
          Act.ofExcept (p.file.decodeDelta x.zstd p.rom frame
            keyframe.uncompressedLen.toNat (p.chain.stored.states source)
            (p.chain.stored.payloads source))
        -- the buffer starts as a copy of the reference, of the wanted length
        let start := resizeZero (p.chain.stored.states source) wanted
        Act.modify fun p ↦ p.setStored fun s ↦ (s.dropBuffer level).setState level start
        match applyRegionDiffInPlace start control data with
        | none => brokenPacket "3DS delta keyframe failed to apply"
        | some state =>
          Act.modify fun p ↦ p.setStored fun s ↦
            let s := s.setState level state
            let s := if p.file.isV9 then s else
              { s with payloads := fun m ↦ if m = level then payload else s.payloads m }
            s.hold level k

/-- Decode stored keyframe `k` into the buffer of its level. -/
def materialiseStored (k : Nat) : PlayerAction Unit := do
  let p ← Act.get
  match p.file.storedKeyframes[k]? with
  | none => Act.abort
  | some info =>
    match p.file.packets[info.packet]? with
    | none => Act.abort
    | some (.storedKeyframe keyframe) =>
      match levelOf keyframe.level with
      | none => brokenPacket "3DS keyframe has an unknown level"
      | some level =>
        let frame ← Act.ofExcept (p.file.storedFrame keyframe)
        if level = 0 then materialiseFull x k keyframe frame
        else materialiseDelta x k info keyframe level frame
    | some _ => brokenPacket "3DS keyframe list is out of step with the packets"

/-- The keyframes to materialise for stored keyframe `at'`, from the last one back: its references
down to a keyframe that a buffer holds, or to a full one.  A reference comes before its keyframe,
so `fuel` need not exceed `at' + 1`. -/
def referenceWalk (p : ReplayFilePlayer) :
    Nat → Nat → Except ReplayFileReadError (Option (List Nat))
  | 0, _ => .ok none
  | fuel + 1, at' =>
    if (p.chain.stored.holding at').isSome then .ok (some [])
    else
      match p.file.storedKeyframes[at']? with
      | none => .ok none
      | some info =>
        if info.level = 0 then .ok (some [at'])
        else
          match info.reference with
          | none =>
            .error (.brokenPacket "3DS delta keyframe with no keyframe before it to apply to")
          | some reference =>
            (referenceWalk p fuel reference).map fun walk ↦ walk.map (at' :: ·)

/-- Make stored keyframe `k` the chain's current keyframe. -/
def foldStored (k : Nat) : PlayerAction Unit := do
  let p ← Act.get
  match ← Act.ofExcept (p.referenceWalk (k + 1) k) with
  | none => Act.abort
  | some walk =>
    walk.reverse.forM (materialiseStored x)
    let p ← Act.get
    match p.chain.stored.holding k, p.file.storedKeyframes[k]? with
    | some b, some info =>
      Act.modify fun p ↦ { p with chain := { p.chain with
        stored := { p.chain.stored with current := some b }
        list := some .topLevel
        lastApplied := some info.packet } }
    | _, _ => Act.abort

/-- Materialise the reference of the stored keyframe at top-level index `target`. -/
def fastForwardStoredChain (target : Nat) : PlayerAction Unit := do
  let p ← Act.get
  let k ← Act.ofExcept (p.file.storedIndexOf target)
  if (p.chain.stored.holding k).isSome then pure ()
  else
    match p.file.storedKeyframes[k]? with
    | none => Act.abort
    | some info =>
      match info.reference with
      | some reference => if 0 < info.level then foldStored x reference else pure ()
      | none => pure ()

/-! ## Folding packets -/

/-- Run an action on the chain. -/
def onChain {α : Type} (f : ChainState.ChainAction α) : PlayerAction α :=
  Act.focus (fun p ↦ some p.chain) (fun chain p ↦ { p with chain }) f

/-- Run an action on what is decoded of the blob at `index`. -/
def onBlob {α : Type} (index : Nat) (f : BlobAction α) : PlayerAction α :=
  Act.focus (fun p ↦ p.decodedBlobs index)
    (fun blob p ↦ { p with
      decodedBlobs := fun i ↦ if i = index then some blob else p.decodedBlobs i }) f

/-- The format version the packets are read as. -/
def version (p : ReplayFilePlayer) : Nat := p.file.headerRaw.replayVersion.toNat

/-- Fold the top-level packet at `index` into the chain. -/
def foldTopLevel (index : Nat) : PlayerAction Unit := do
  let p ← Act.get
  match p.file.packets[index]? with
  | none => Act.abort
  | some packet =>
    match packet with
    | .storedKeyframe _ => do
      let k ← Act.ofExcept (p.file.storedIndexOf index)
      foldStored x k
    | _ =>
      if isKeyframeClass packet = false ∨ p.chain.isAt .topLevel index then pure ()
      else
        let held := p.chain.holdsPredecessorOf .topLevel index fun a b ↦
          ((p.file.packets.drop (a + 1)).take (b - (a + 1))).any isKeyframeClass
        onChain (ChainState.fold .topLevel index packet held)

/-- Parse the packet at byte `offset` of the blob at `index` and fold it into the chain; returns it
and the offset of the packet after it. -/
def foldInBlob (index offset : Nat) : PlayerAction (Packet × Nat) := do
  let p ← Act.get
  let (packet, next) ← onBlob index (DecodedBlob.parseAt p.version offset)
  if isKeyframeClass packet then
    let offsets ← onBlob index (DecodedBlob.offsets p.version)
    let p ← Act.get
    -- a repeated seek to the same delta finds it already folded
    if p.chain.isAt (.blob index) offset then pure ()
    else
      let held := p.chain.holdsPredecessorOf (.blob index) offset (DecodedBlob.keyframeBetween offsets)
      onChain (ChainState.fold (.blob index) offset packet held)
  pure (packet, next)

variable {x}

theorem foldTopLevel_of_not_stored {p : ReplayFilePlayer} {index : Nat} {packet : Packet}
    (hat : p.file.packets[index]? = some packet) (hstored : ∀ k, packet ≠ .storedKeyframe k) :
    foldTopLevel x index p =
      (if isKeyframeClass packet = false ∨ p.chain.isAt .topLevel index = true then pure ()
      else onChain (ChainState.fold .topLevel index packet
        (p.chain.holdsPredecessorOf .topLevel index fun a b ↦
          ((p.file.packets.drop (a + 1)).take (b - (a + 1))).any isKeyframeClass)) :
        PlayerAction Unit) p := by
  rw [foldTopLevel, Act.get_bind_apply, hat]
  cases packet <;> first | rfl | exact (hstored _ rfl).elim

theorem foldInBlob_apply (index offset : Nat) (p : ReplayFilePlayer) : foldInBlob index offset p =
    ((onBlob index (DecodedBlob.parseAt p.version offset)) >>= fun r ↦ do
      if isKeyframeClass r.1 then
        let offsets ← onBlob index (DecodedBlob.offsets p.version)
        let q ← Act.get
        if q.chain.isAt (.blob index) offset then pure ()
        else
          onChain (ChainState.fold (.blob index) offset r.1
            (q.chain.holdsPredecessorOf (.blob index) offset (DecodedBlob.keyframeBetween offsets)))
      pure r) p :=
  rfl

end ReplayFilePlayer

end SuperShuckie
