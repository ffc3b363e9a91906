import SuperShuckie.Player.Landing

/-!
# Opening any bytes

The lengths in a file may be anything.  Where the frame of a stored keyframe is in the file is computed
without a check, from what its packet took of the stream; the packet took the frame, so nothing
overflows (`placeFrame_eq`) and the frame is inside the stream.  A file that is accepted without
corruption is, from its patch to the end of its stream, packets that stand one behind the other
(`opening_safe`).
-/

set_option autoImplicit false

namespace SuperShuckie

open ByteFormat ByteFormat.Reader

/-! ## The frame of a stored keyframe -/

/-- A stored keyframe that was read took its frame. -/
theorem StoredKeyframe.frameLen_le {version : Nat} {bs rest : Bytes} {k : StoredKeyframe}
    (h : StoredKeyframe.readAll version bs = .ok (k, rest)) :
    k.frameLen.toNat + rest.length ≤ bs.length := by
  obtain ⟨metadata, mid₁, h₁, h⟩ := bind_eq_ok.1 h
  obtain ⟨level, mid₂, h₂, h⟩ := bind_eq_ok.1 h
  obtain ⟨stateLen, mid₃, h₃, h⟩ := bind_eq_ok.1 h
  obtain ⟨uncompressedLen, mid₄, h₄, h⟩ := bind_eq_ok.1 h
  obtain ⟨frameLen, mid₅, h₅, h⟩ := bind_eq_ok.1 h
  obtain ⟨frame, mid₆, h₆, h⟩ := bind_eq_ok.1 h
  cases h
  have hle₁ := (KeyframeMetadata.stable version).length_le h₁
  have hle₂ := (stable_takeByte _).length_le h₂
  have hle₃ := UnsignedInteger.stable.length_le h₃
  have hle₄ := UnsignedInteger.stable.length_le h₄
  have hle₅ := UnsignedInteger.stable.length_le h₅
  have hframe : frameLen.toNat + rest.length = mid₅.length := by
    rw [takeBytes] at h₆
    split at h₆
    · rename_i hle
      cases h₆
      rw [List.length_drop]
      omega
    · cases h₆
  dsimp only
  omega

/-- Only the discriminator of a stored keyframe gives one. -/
theorem Packet.returns_notStored (version : Nat) {d : PacketDiscriminator} (hd : d ≠ .storedKeyframe) :
    Returns (fun p ↦ ∀ k, p ≠ Packet.storedKeyframe k) (Packet.readPayload version d) := by
  have hpure : ∀ {p : Packet}, (∀ k, p ≠ .storedKeyframe k) →
      Returns (fun p ↦ ∀ k, p ≠ Packet.storedKeyframe k) (pure p : PacketReader Packet) :=
    fun h ↦ Returns.pure h
  cases d with
  | storedKeyframe => exact absurd rfl hd
  | noOp | resetConsole => exact hpure fun k h ↦ by cases h
  | keyframe | deltaKeyframe | incrementCounter =>
    exact Returns.bind fun _ ↦ Returns.bind fun _ ↦ hpure fun k h ↦ by cases h
  | regionDeltaKeyframe =>
    exact Returns.bind fun _ ↦ Returns.bind fun _ ↦ Returns.bind fun _ ↦ Returns.bind fun _ ↦
      hpure fun k h ↦ by cases h
  | writeMemory8 | writeMemory16 | writeMemory32 | writeMemoryVar =>
    exact Returns.bind fun _ ↦ Returns.bind fun _ ↦ hpure fun k h ↦ by cases h
  | _ => exact Returns.map fun _ k h ↦ by cases h

/-- The packet of a stored keyframe took its frame. -/
theorem Packet.frameLen_le {version : Nat} {bs rest : Bytes} {k : StoredKeyframe}
    (h : Packet.readAll version bs = .ok (.storedKeyframe k, rest)) :
    k.frameLen.toNat + rest.length ≤ bs.length := by
  obtain ⟨b, mid, hb, h⟩ := bind_eq_ok.1 h
  have hle := (stable_takeByte _).length_le hb
  cases hd : PacketDiscriminator.tryFrom b with
  | none =>
    rw [hd] at h
    cases h
  | some d =>
    rw [hd] at h
    dsimp only at h
    by_cases hstored : d = .storedKeyframe
    · subst hstored
      have hmap : Packet.readPayload version .storedKeyframe mid =
          (fun r ↦ (Packet.storedKeyframe r.1, r.2)) <$> StoredKeyframe.readAll version mid := rfl
      rw [hmap] at h
      cases hread : StoredKeyframe.readAll version mid with
      | error e =>
        rw [hread] at h
        cases h
      | ok r =>
        rw [hread] at h
        cases h
        have hframe := StoredKeyframe.frameLen_le hread
        omega
    · exact absurd rfl (Packet.returns_notStored version hstored _ _ _ h k)

namespace OpenedFile

variable {version patchEnd streamEnd : Nat} {stream : Bytes} {q : PlacedPacket}

/-- The position of a frame as `build` computes it, with operators that panic on an overflow:
`patch_end + (stream_len - before) + consumed - frame_len`. -/
def placeFrame (patchEnd streamLen : Nat) (placed : PlacedPacket) : Option Packet :=
  match placed.packet with
  | .storedKeyframe k => do
    let consumed ← Checked.sub placed.before placed.after
    let skipped ← Checked.sub streamLen placed.before
    let start ← Checked.add patchEnd skipped
    let stop ← Checked.add start consumed
    let offset ← Checked.sub stop k.frameLen.toNat
    pure (.storedKeyframe { k with frameOffset := UInt64.ofNat offset })
  | packet => some packet

/-- **The unchecked position**: nothing overflows. -/
theorem placeFrame_eq (hend : patchEnd + stream.length = streamEnd) (hlen : streamEnd < 2 ^ 64)
    (hq : q ∈ (readStream version stream).1) :
    placeFrame patchEnd stream.length q = some (withFrameOffset streamEnd q) := by
  obtain ⟨hafter, hbefore, hread⟩ := readAll_of_mem_readStream hq
  rw [placeFrame, withFrameOffset]
  cases hpacket : q.packet with
  | storedKeyframe k =>
    rw [hpacket] at hread
    have hframe := Packet.frameLen_le hread
    rw [List.length_drop, List.length_drop] at hframe
    dsimp only
    rw [Checked.sub_of_le (by omega)]
    dsimp only [Option.bind_eq_bind, Option.bind_some]
    rw [Checked.sub_of_le (by omega)]
    dsimp only [Option.bind_some]
    rw [Checked.add_of_lt (by omega)]
    dsimp only [Option.bind_some]
    rw [Checked.add_of_lt (by omega)]
    dsimp only [Option.bind_some]
    rw [Checked.sub_of_le (by omega)]
    dsimp only [Option.bind_some]
    rw [show patchEnd + (stream.length - q.before) + (q.before - q.after) = streamEnd - q.after by
      omega]
    rfl
  | _ => rfl

/-- The frame is inside the stream. -/
theorem frame_inside (hend : patchEnd + stream.length = streamEnd) (hlen : streamEnd < 2 ^ 64)
    (hq : q ∈ (readStream version stream).1) {k : StoredKeyframe}
    (hk : withFrameOffset streamEnd q = .storedKeyframe k) :
    patchEnd ≤ k.frameOffset.toNat ∧ k.frameOffset.toNat + k.frameLen.toNat ≤ streamEnd := by
  obtain ⟨hafter, hbefore, hread⟩ := readAll_of_mem_readStream hq
  rw [withFrameOffset] at hk
  cases hpacket : q.packet with
  | storedKeyframe k' =>
    rw [hpacket] at hread hk
    have hframe := Packet.frameLen_le hread
    rw [List.length_drop, List.length_drop] at hframe
    dsimp only at hk
    cases hk
    dsimp only
    rw [UInt64.toNat_ofNat', Nat.mod_eq_of_lt (by omega)]
    omega
  | _ =>
    rw [hpacket] at hk
    cases hk

/-! ## Opening -/

/-- Where the header of a file says that its packets are. -/
structure HasStream (bytes : Bytes) (allow : Bool) (header : ReplayHeaderRaw)
    (patchEnd streamEnd : Nat) : Prop where
  headerRead : readHeader bytes = .ok header
  patch : ∃ patch, readPatch header bytes = .ok (patch, patchEnd)
  stop : ∃ truncated, readStreamEnd header patchEnd bytes.length allow = .ok (streamEnd, truncated)

variable {bytes : Bytes} {allow : Bool} {header : ReplayHeaderRaw}

/-- Without corruption the stream ends where the header says, or with the file. -/
theorem HasStream.streamEnd_eq (h : HasStream bytes false header patchEnd streamEnd) :
    streamEnd = header.streamEnd.getD bytes.length := by
  obtain ⟨truncated, hstop⟩ := h.stop
  rw [readStreamEnd] at hstop
  cases hheader : header.streamEnd with
  | none =>
    rw [hheader] at hstop
    cases hstop
    rfl
  | some stop =>
    rw [hheader] at hstop
    dsimp only at hstop
    split_ifs at hstop with hin hcorrupt
    · cases hstop
      rfl
    · exact hcorrupt.2.elim

/-- The bytes of the packets are those between the patch and the end of the stream. -/
theorem packetBytes_eq_ok : packetBytes bytes patchEnd streamEnd = .ok stream ↔
    slice? bytes patchEnd (streamEnd - patchEnd) = some stream := by
  rw [packetBytes]
  cases slice? bytes patchEnd (streamEnd - patchEnd) <;> simp

theorem length_of_slice?_eq_some {start len : Nat} (h : slice? bytes start len = some stream) :
    start + len ≤ bytes.length ∧ stream.length = len := by
  rw [slice?] at h
  split at h
  · cases h
    rw [List.length_take, List.length_drop]
    omega
  · cases h

/-- The stream starts after the patch and ends inside the file. -/
theorem HasStream.bounds (h : HasStream bytes allow header patchEnd streamEnd)
    (hstream : packetBytes bytes patchEnd streamEnd = .ok stream) :
    patchEnd + stream.length = streamEnd ∧ streamEnd ≤ bytes.length := by
  obtain ⟨hle, hlength⟩ := length_of_slice?_eq_some (packetBytes_eq_ok.1 hstream)
  have hstop : patchEnd ≤ streamEnd := by
    obtain ⟨truncated, hstop⟩ := h.stop
    rw [readStreamEnd] at hstop
    split at hstop
    · cases hstop
      omega
    · split_ifs at hstop with hin hcorrupt
      · cases hstop
        exact hin.1
      · cases hstop
        omega
  omega

/-- What the packets of an opened file are. -/
theorem packets_of_read {x : Externals} {source : Option Bytes} {file : OpenedFile}
    (h : read x bytes source allow = .ok file) : ∃ header patchEnd streamEnd stream,
      HasStream bytes allow header patchEnd streamEnd ∧
      packetBytes bytes patchEnd streamEnd = .ok stream ∧
      file.packets <+:
        (readStream header.replayVersion.toNat stream).1.map (withFrameOffset streamEnd) ∧
      (allow = false → (readStream header.replayVersion.toNat stream).2 = none ∧
        file.packets =
          (readStream header.replayVersion.toNat stream).1.map (withFrameOffset streamEnd)) := by
  rw [read] at h
  obtain ⟨header, hheader, h⟩ := Opening.bind_eq_ok.mp h
  obtain ⟨metadata, -, h⟩ := Opening.bind_eq_ok.mp h
  obtain ⟨⟨patch, patchEnd⟩, hpatch, h⟩ := Opening.bind_eq_ok.mp h
  obtain ⟨⟨streamEnd, endTruncated⟩, hstop, h⟩ := Opening.bind_eq_ok.mp h
  obtain ⟨stream, hstream, h⟩ := Opening.bind_eq_ok.mp h
  obtain ⟨⟨packets, readTruncated⟩, hpackets, h⟩ := Opening.bind_eq_ok.mp h
  obtain ⟨⟨packets', deltaTruncated⟩, hreachable, h⟩ := Opening.bind_eq_ok.mp h
  obtain ⟨-, -, h⟩ := Opening.bind_eq_ok.mp h
  obtain ⟨index, -, h⟩ := Opening.bind_eq_ok.mp h
  obtain ⟨-, -, h⟩ := Opening.bind_eq_ok.mp h
  cases h
  refine ⟨header, patchEnd, streamEnd, stream, ⟨hheader, ⟨patch, hpatch⟩, endTruncated, hstop⟩,
    hstream, ?_⟩
  have hread : packets =
      (readStream header.replayVersion.toNat stream).1.map (withFrameOffset streamEnd) ∧
      (allow = false → (readStream header.replayVersion.toNat stream).2 = none) := by
    rw [readPackets] at hpackets
    dsimp only at hpackets
    cases herror : (readStream header.replayVersion.toNat stream).2 with
    | none =>
      rw [herror] at hpackets
      cases hpackets
      exact ⟨rfl, fun _ ↦ rfl⟩
    | some e =>
      rw [herror] at hpackets
      cases allow with
      | true =>
        cases hpackets
        exact ⟨rfl, fun h ↦ by cases h⟩
      | false => cases e <;> cases hpackets
  obtain ⟨rfl, hnone⟩ := hread
  rw [checkReachable] at hreachable
  split_ifs at hreachable with hall hcorrupt
  · cases hreachable
    exact ⟨List.prefix_rfl, fun hallow ↦ ⟨hnone hallow, rfl⟩⟩
  · cases hreachable
    exact ⟨ List.take_prefix _ _, fun hallow ↦ absurd (hallow ▸ hcorrupt) Bool.false_ne_true⟩

/-- The packets of an opened file are where its header says: the frames of stored keyframes are inside
the stream, and without corruption the packets are what is read of pieces that stand one behind the
other, from the end of the patch to where the header says that the stream ends, or to the end of the
file. -/
def WellPlaced (bytes : Bytes) (allow : Bool) (file : OpenedFile) : Prop :=
  ∃ header patchEnd streamEnd, HasStream bytes allow header patchEnd streamEnd ∧
    patchEnd ≤ streamEnd ∧ streamEnd ≤ bytes.length ∧
    (∀ k, Packet.storedKeyframe k ∈ file.packets →
      patchEnd ≤ k.frameOffset.toNat ∧ k.frameOffset.toNat + k.frameLen.toNat ≤ streamEnd) ∧
    (allow = false → streamEnd = header.streamEnd.getD bytes.length ∧
      ∃ pieces : List (Bytes × Packet),
        (∀ e ∈ pieces, Reads (Packet.readAll header.replayVersion.toNat) e.1 e.2) ∧
        slice? bytes patchEnd (streamEnd - patchEnd) = some (writeStream pieces) ∧
        file.packets = (placeStream pieces 0).map (withFrameOffset streamEnd))

end OpenedFile

namespace ReplayFilePlayer

open OpenedFile

/-- **Opening any bytes is safe.**  Nothing that `build` computes without a check overflows; and a file
is refused, or accepted with its packets where they should be. -/
theorem opening_safe {bytes : Bytes} (hlen : bytes.length < 2 ^ 63) (x : Externals) (allow : Bool) :
    (∀ header patchEnd streamEnd stream, HasStream bytes allow header patchEnd streamEnd →
      packetBytes bytes patchEnd streamEnd = .ok stream →
      ∀ q ∈ (readStream header.replayVersion.toNat stream).1,
        placeFrame patchEnd stream.length q = some (withFrameOffset streamEnd q)) ∧
    ((∃ e, new x bytes allow = .error e) ∨
      ∃ player, new x bytes allow = .ok player ∧ WellPlaced bytes allow player.file) := by
  constructor
  · intro header patchEnd streamEnd stream hhas hstream q hq
    obtain ⟨hend, hle⟩ := hhas.bounds hstream
    exact placeFrame_eq hend (by omega) hq
  cases hnew : new x bytes allow with
  | error e => exact Or.inl ⟨e, rfl⟩
  | ok player =>
    obtain ⟨source, file, hread, rfl⟩ := read_of_new hnew
    obtain ⟨header, patchEnd, streamEnd, stream, hhas, hstream, hsub, hexact⟩ := packets_of_read hread
    obtain ⟨hend, hle⟩ := hhas.bounds hstream
    refine Or.inr ⟨start file, rfl, header, patchEnd, streamEnd, hhas, by omega, hle, ?_, ?_⟩
    · intro k hk
      obtain ⟨q, hq, hplaced⟩ := List.mem_map.1 (hsub.mem hk)
      exact frame_inside hend (by omega) hq hplaced
    · rintro rfl
      obtain ⟨hnone, hpackets⟩ := hexact rfl
      obtain ⟨pieces, tail, hreads, hsplit, hplaced, htail⟩ :=
        readStream_split header.replayVersion.toNat stream
      rw [hnone] at htail
      dsimp only at htail
      subst htail
      rw [List.append_nil] at hsplit
      refine ⟨hhas.streamEnd_eq, pieces, hreads, ?_, ?_⟩
      · rw [← hsplit]
        exact packetBytes_eq_ok.1 hstream
      · rw [← List.length_nil, ← hplaced]
        exact hpackets

theorem opening_safe_blobFile : ∃ player, new .plain (blobFile 0) false = .ok player ∧
    WellPlaced (blobFile 0) false player.file := by
  have hlen : (blobFile 0).length < 2 ^ 63 := by decide +kernel
  obtain ⟨player, hnew, -⟩ := exists_ok_of_any (e := new .plain (blobFile 0) false)
    (f := fun _ ↦ true) (by decide +kernel)
  obtain ⟨e, herror⟩ | hok := (opening_safe hlen .plain false).2
  · rw [hnew] at herror
    cases herror
  · exact hok

end ReplayFilePlayer

end SuperShuckie
