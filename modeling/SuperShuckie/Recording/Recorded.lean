import SuperShuckie.Recording.Opening
import SuperShuckie.Recording.Steps
import SuperShuckie.Recording.Tape

/-!
# What a recorder holds

`Recorded` ties the state of a recorder to the packets that it was given: those of the blobs that the
final sink holds, and those of the blob in progress.  All of them together play as the events that
were recorded, and the delta base is the state that they end in, or there is none.  Every step of a
recorder keeps it.
-/

set_option autoImplicit false

namespace SuperShuckie

open ByteFormat

/-- The bytes of blobs in a file. -/
def blobBytes (blobs : List (CompressedBlob × List Packet)) : Bytes :=
  blobs.flatMap fun b ↦ (Packet.compressedBlob b.1).write

/-- The packets of blobs. -/
def blobPackets (blobs : List (CompressedBlob × List Packet)) : List Packet :=
  blobs.flatMap Prod.snd

/-- The final sink holds a header, the patch and some blobs. -/
structure OnDisk (z : Zstd) (metadata : ReplayFileMetadata) (patch : Bytes)
    (blobs : List (CompressedBlob × List Packet)) (r : Recorder) : Prop where
  console : metadata.consoleType ≠ .nintendo3DS
  sameReplay : ∃ raw, metadata.asRawHeader = .ok raw ∧ r.header.SameReplay raw
  patchLength : r.header.patchDataLength.toNat = patch.length
  sink : ∃ sink, r.sink = some sink ∧ ∃ start : Bytes, start.length = headerLen ∧
    sink.finalSink.bytes = start ++ patch ++ blobBytes blobs
  offset : r.currentBlobOffset = headerLen + patch.length + (blobBytes blobs).length
  sealed : ∀ b ∈ blobs, Sealed z b.1 b.2 ∧ Openable b.1

/-- The blob in progress holds some packets. -/
structure InBlob (packets : List Packet) (r : Recorder) : Prop where
  blob : r.currentBlob = streamBytes packets
  size : (streamBytes packets).length ≤ isizeMax
  keyframes : r.currentBlobKeyframes = packets.filterMap keyframeMetadata
  offsets : r.currentBlobKeyframeOffsets.map UInt64.toNat = keyframeOffsets 0 packets
  readable : ∀ packet ∈ packets, packet.Readable

/-- All packets together play as the events, up to the delta base. -/
structure PlaysAs (packets : List Packet) (events : List Packet) (r : Recorder) : Prop where
  plays : ∃ s out, Plays false none packets s out ∧ out.filter isEvent = events ∧
    ∀ base, r.lastStateToDiff = some base → s = some base ∧ base.length ≤ isizeMax
  framed : Framed 0 packets
  count : r.elapsedFrames.toNat = frameCount packets

/-- What a recorder holds. -/
structure Recorded (z : Zstd) (metadata : ReplayFileMetadata) (patch : Bytes)
    (events : List Packet) (blobs : List (CompressedBlob × List Packet)) (packets : List Packet)
    (r : Recorder) : Prop where
  stored : r.stored = none
  exact : r.settings.maskTransientBuffers = false
  disk : OnDisk z metadata patch blobs r
  blob : InBlob packets r
  plays : PlaysAs (blobPackets blobs ++ packets) events r
  starts : packets = [] ∧ r.lastStateToDiff = none ∨ StartsFull packets

theorem blobPackets_append (blobs blobs' : List (CompressedBlob × List Packet)) :
    blobPackets (blobs ++ blobs') = blobPackets blobs ++ blobPackets blobs' := List.flatMap_append

theorem blobBytes_append (blobs blobs' : List (CompressedBlob × List Packet)) :
    blobBytes (blobs ++ blobs') = blobBytes blobs ++ blobBytes blobs' := List.flatMap_append

theorem StartsFull.append {packets : List Packet} (h : StartsFull packets)
    (packets' : List Packet) : StartsFull (packets ++ packets') := by
  obtain ⟨metadata, state, rest, rfl⟩ := h
  exact ⟨metadata, state, rest ++ packets', rfl⟩

namespace Recorded

variable {z : Zstd} {metadata : ReplayFileMetadata} {patch : Bytes} {events packets : List Packet}
  {blobs : List (CompressedBlob × List Packet)} {r r' : Recorder}

theorem console_eq (h : OnDisk z metadata patch blobs r) :
    r.header.consoleTypeOrDefault = metadata.consoleType := by
  obtain ⟨raw, hraw, hsame⟩ := h.sameReplay
  obtain ⟨-, -, -, hconsole, -⟩ := ReplayFileMetadata.asRawHeader_ok hraw
  rw [ReplayHeaderRaw.consoleTypeOrDefault, hsame.consoleType, hconsole,
    ReplayConsoleType.ofNat?_toNat]
  rfl

/-- The clock, the input, the counters and the bookmarks are no part of it. -/
theorem set (h : Recorded z metadata patch events blobs packets r)
    (millis : TimestampMillis) (input : InputBuffer) (speed : Speed)
    (counters : OrdMap String SignedInteger) (bookmarks : BookmarkTable) (written pending : Bool) :
    Recorded z metadata patch events blobs packets { r with
      elapsedMillis := millis, currentInput := input, currentSpeed := speed, counters := counters
      bookmarks := bookmarks, bookmarksWritten := written, bookmarkSnapshotPending := pending } :=
  ⟨h.stored, h.exact,
    ⟨h.disk.console, h.disk.sameReplay, h.disk.patchLength, h.disk.sink, h.disk.offset,
      h.disk.sealed⟩,
    ⟨h.blob.blob, h.blob.size, h.blob.keyframes, h.blob.offsets, h.blob.readable⟩,
    ⟨h.plays.plays, h.plays.framed, h.plays.count⟩, h.starts⟩

/-- Nor is the temp sink. -/
theorem sameFile (h : Recorded z metadata patch events blobs packets r)
    (hsame : Recorder.SameFile r r') : Recorded z metadata patch events blobs packets r' := by
  obtain ⟨sink, sink', hsink, hfinal, -, rfl⟩ := hsame
  obtain ⟨sink₀, hsink₀, hbytes⟩ := h.disk.sink
  rw [hsink] at hsink₀
  cases hsink₀
  exact ⟨h.stored, h.exact,
    ⟨h.disk.console, h.disk.sameReplay, h.disk.patchLength, ⟨sink', rfl, hfinal ▸ hbytes⟩,
      h.disk.offset, h.disk.sealed⟩,
    ⟨h.blob.blob, h.blob.size, h.blob.keyframes, h.blob.offsets, h.blob.readable⟩,
    ⟨h.plays.plays, h.plays.framed, h.plays.count⟩, h.starts⟩

/-! ## A packet -/

/-- **A packet that is no keyframe** goes to the end of the blob in progress. -/
theorem append (h : Recorded z metadata patch events blobs packets r) (hne : packets ≠ [])
    (packet : Packet) (frames : UnsignedInteger) (hclass : isKeyframeClass packet = false) (hreadable : packet.Readable)
    (hback : isEvent packet = true → packet.readBack = packet)
    (hkind : isEvent packet.readBack = isEvent packet)
    (hframes : frames.toNat = r.elapsedFrames.toNat + if isNextFrame packet then 1 else 0)
    (hwrite : Recorder.EndsIn (Recorder.writePacketData packet { r with elapsedFrames := frames }) r') :
    Recorded z metadata patch (events ++ if isEvent packet then [packet] else []) blobs
      (packets ++ [packet]) r' := by
  obtain ⟨hlt, hsame⟩ := Recorder.writePacketData_ends (r := { r with elapsedFrames := frames })
    h.stored hwrite
  refine sameFile ?_ hsame
  have hmax : isizeMax = 2 ^ 63 - 1 := rfl
  have hnone : keyframeMetadata packet = none := by
    rw [← Option.not_isSome_iff_eq_none, isSome_keyframeMetadata, hclass]
    exact Bool.false_ne_true
  obtain ⟨s, out, hplays, hevents, hbase⟩ := h.plays.plays
  refine ⟨h.stored, h.exact, ⟨h.disk.console, h.disk.sameReplay, h.disk.patchLength, h.disk.sink,
    h.disk.offset, h.disk.sealed⟩, ⟨?_, ?_, ?_, ?_, ?_⟩, ⟨⟨s, out ++ [packet.readBack], ?_, ?_,
    hbase⟩, ?_, ?_⟩, .inr ?_⟩
  · rw [streamBytes_append, streamBytes_singleton, ← h.blob.blob]
  · rw [streamBytes_append, streamBytes_singleton, ← h.blob.blob, List.length_append]
    dsimp only at hlt
    omega
  · rw [List.filterMap_append, List.filterMap_cons, hnone, List.filterMap_nil, List.append_nil]
    exact h.blob.keyframes
  · rw [keyframeOffsets_append, keyframeOffsets, hclass]
    simpa [keyframeOffsets] using h.blob.offsets
  · intro p hp
    rcases List.mem_append.mp hp with hp | hp
    · exact h.blob.readable p hp
    · rw [List.mem_singleton.mp hp]
      exact hreadable
  · rw [← List.append_assoc]
    exact hplays.snoc (.other hclass)
  · rw [List.filter_append, hevents]
    congr 1
    cases hevent : isEvent packet with
    | true => simp [hevent, hback hevent]
    | false => simp [hkind, hevent]
  · rw [← List.append_assoc]
    exact h.plays.framed.append (framed_singleton fun m hm ↦ by rw [hnone] at hm; cases hm)
  · rw [← List.append_assoc, frameCount_append, ← h.plays.count]
    simp [hframes, frameCount, List.countP_cons]
  · rcases h.starts with ⟨hnil, -⟩ | hstarts
    · exact (hne hnil).elim
    · exact hstarts.append _

/-! ## A keyframe -/

theorem length_le_write_keyframe (metadata : KeyframeMetadata) (state : ByteVec) :
    state.length ≤ (Packet.keyframe metadata state).write.length := by
  simp only [Packet.write, Packet.writePayload, ByteVec.write, List.length_cons, List.length_append]
  omega

/-- The packet of a keyframe plays as the keyframe: it is stored in full, or as a delta against a
state of the same length. -/
theorem keyframePacket_plays (hexact : r.settings.maskTransientBuffers = false)
    (hconsole : r.header.consoleTypeOrDefault ≠ .nintendo3DS) {s : Option Bytes}
    (hbase : ∀ base, r.lastStateToDiff = some base → s = some base ∧ base.length ≤ isizeMax)
    (metadata : KeyframeMetadata) (state : Bytes) (encoding : KeyframeEncoding) :
    ∃ packet, r.keyframePacket metadata state encoding = (packet, state) ∧
      PlaysOne false s packet (some state) (.keyframe metadata state) ∧
      packet.Readable ∧ keyframeMetadata packet = some metadata ∧
      (r.lastStateToDiff = none → packet = .keyframe metadata state) ∧
      (packet = .keyframe metadata state ∨ state.length ≤ isizeMax) := by
  have hfull : ∃ packet, (Packet.keyframe metadata state, state) = (packet, state) ∧
      PlaysOne false s packet (some state) (.keyframe metadata state) ∧
      packet.Readable ∧ keyframeMetadata packet = some metadata ∧
      (r.lastStateToDiff = none → packet = .keyframe metadata state) ∧
      (packet = .keyframe metadata state ∨ state.length ≤ isizeMax) :=
    ⟨_, rfl, .full metadata state, trivial, rfl, fun _ ↦ rfl, .inl rfl⟩
  rw [Recorder.keyframePacket, Recorder.keyframeDelta]
  cases hlast : r.lastStateToDiff with
  | none => simpa [unmask, hlast] using hfull
  | some base =>
    obtain ⟨hs, hlen⟩ := hbase base hlast
    simp only [hexact, Bool.false_eq_true, false_and, if_false, hconsole, decide_false, or_false]
    by_cases hdelta : encoding = .auto ∧ base.length = state.length
    · simp only [hdelta, and_self, if_true]
      split
      · rename_i state' masked diff heq
        obtain ⟨rfl, rfl, hdiff⟩ : state = state' ∧ [] = masked ∧
            (if (regionDiffResizing base state).encodedLen < state.length then
              some (regionDiffResizing base state) else none) = some diff := by
          simpa using heq
        split at hdiff
        · cases hdiff
          have hmax : isizeMax = 2 ^ 63 - 1 := rfl
          have hstate : state.length ≤ isizeMax := hdelta.2 ▸ hlen
          have hlenEq : (UInt64.ofNat state.length).toNat = base.length := by
            rw [UInt64.toNat_ofNat', hdelta.2]
            omega
          have happly := applyRegionDiffInPlace_regionDiffResizing
            (show base.length < 2 ^ 64 by omega) (show state.length < 2 ^ 64 by omega)
          rw [show resizeZero base state.length = base by simp [resizeZero, ← hdelta.2]] at happly
          refine ⟨_, rfl, .delta hs ?_ rfl, trivial, rfl, fun hnone ↦ (by cases hnone), .inr hstate⟩
          rw [OpenedFile.applyDelta, if_pos hlenEq, happly]
        · cases hdiff
      · rename_i state' masked heq
        obtain ⟨rfl, rfl, -⟩ : state = state' ∧ [] = masked ∧ _ := by
          simpa using heq
        simpa [unmask, hlast] using hfull
    · simp only [hdelta, if_false]
      simpa [unmask, hlast] using hfull

/-- **A keyframe** goes to the end of the blob in progress, and its state becomes the delta base. -/
theorem keyframe (h : Recorded z metadata patch events blobs packets r) {m : KeyframeMetadata}
    (hm : m.elapsedFrames = r.elapsedFrames) (state : Bytes) (encoding : KeyframeEncoding)
    (hwrite : Recorder.EndsIn (Recorder.writePacketData (r.keyframePacket m state encoding).1
      (r.pushKeyframe m)) r') :
    ∃ packet, Recorded z metadata patch (events ++ [.keyframe m state]) blobs (packets ++ [packet])
      { r' with lastStateToDiff := some (r.keyframePacket m state encoding).2 } := by
  obtain ⟨s, out, hplays, hevents, hbase⟩ := h.plays.plays
  obtain ⟨packet, hpacket, hone, hreadable, hmeta, hfirst, hlength⟩ :=
    keyframePacket_plays h.exact (by rw [console_eq h.disk]; exact h.disk.console) hbase m state
      encoding
  rw [hpacket] at hwrite ⊢
  obtain ⟨hlt, hsame⟩ := Recorder.writePacketData_ends (r := r.pushKeyframe m) h.stored hwrite
  refine ⟨packet, ?_⟩
  have hmax : isizeMax = 2 ^ 63 - 1 := rfl
  have hclass : isKeyframeClass packet = true := by
    rw [← isSome_keyframeMetadata, hmeta]
    rfl
  have hlt' : r.currentBlob.length + packet.write.length < 2 ^ 63 := hlt
  have hstate : state.length ≤ isizeMax := by
    rcases hlength with rfl | hle
    · have := length_le_write_keyframe m state
      omega
    · exact hle
  have hoffset : (UInt64.ofNat r.currentBlob.length).toNat = (streamBytes packets).length := by
    rw [UInt64.toNat_ofNat', ← h.blob.blob]
    omega
  obtain ⟨sink, sink', hsink, hfinal, -, rfl⟩ := hsame
  obtain ⟨sink₀, hsink₀, hbytes⟩ := h.disk.sink
  cases hsink₀.symm.trans hsink
  refine ⟨h.stored, h.exact, ⟨h.disk.console, h.disk.sameReplay, h.disk.patchLength,
    ⟨sink', rfl, hfinal ▸ hbytes⟩, h.disk.offset, h.disk.sealed⟩, ⟨?_, ?_, ?_, ?_, ?_⟩,
    ⟨⟨some state, out ++ [.keyframe m state], ?_, ?_, fun base hb ↦ ?_⟩, ?_, ?_⟩, .inr ?_⟩
  · rw [streamBytes_append, streamBytes_singleton, ← h.blob.blob]
    rfl
  · rw [streamBytes_append, streamBytes_singleton, ← h.blob.blob, List.length_append]
    omega
  · rw [List.filterMap_append, List.filterMap_cons, hmeta, List.filterMap_nil, ← h.blob.keyframes]
    rfl
  · rw [keyframeOffsets_append, keyframeOffsets, if_pos hclass, ← h.blob.offsets, Nat.zero_add,
      ← hoffset, keyframeOffsets]
    simp [Recorder.pushKeyframe]
  · intro p hp
    rcases List.mem_append.mp hp with hp | hp
    · exact h.blob.readable p hp
    · rw [List.mem_singleton.mp hp]
      exact hreadable
  · rw [← List.append_assoc]
    exact hplays.snoc hone
  · rw [List.filter_append, hevents]
    rfl
  · cases hb
    exact ⟨rfl, hstate⟩
  · rw [← List.append_assoc]
    refine h.plays.framed.append (framed_singleton fun m' hm' ↦ ?_)
    rw [hmeta] at hm'
    cases hm'
    rw [hm, h.plays.count, Nat.zero_add]
  · have hframe : isNextFrame packet = false := by
      cases packet <;> first | rfl | cases hclass
    rw [← List.append_assoc, frameCount_append]
    have : frameCount [packet] = 0 := by simp [frameCount, hframe]
    rw [this, Nat.add_zero]
    exact h.plays.count
  · rcases h.starts with ⟨rfl, hnone⟩ | hstarts
    · exact ⟨m, state, [], by rw [hfirst hnone]; rfl⟩
    · exact hstarts.append _

/-! ## A blob -/

/-- **The blob in progress goes to the final sink**, as a blob that holds its packets. -/
theorem sealBlob {x : Externals} (hz : x.zstd.Lossless)
    (h : Recorded x.zstd metadata patch events blobs packets r) (hstarts : StartsFull packets)
    (hends : Recorder.EndsIn (Recorder.nextBlob x r) r') :
    ∃ blob, Recorded x.zstd metadata patch events (blobs ++ [(blob, packets)]) []
      { r' with lastStateToDiff := none } := by
  obtain ⟨first, rest, hkeyframes⟩ : ∃ first rest, r.currentBlobKeyframes = first :: rest := by
    obtain ⟨m, state, rest, rfl⟩ := hstarts
    exact ⟨m, _, h.blob.keyframes⟩
  obtain ⟨compressed, sink, s, hcompressed, hsink, hbytes, hlt, hsame⟩ :=
    Recorder.nextBlob_ends hkeyframes hends
  have hmax : isizeMax = 2 ^ 63 - 1 := rfl
  have hsize := h.blob.size
  have hlen : (UInt64.ofNat r.currentBlob.length).toNat = (streamBytes packets).length := by
    rw [UInt64.toNat_ofNat', h.blob.blob]
    omega
  have hsealed : Sealed x.zstd (r.compressedBlob compressed first) packets := by
    refine ⟨?_, hlen, hsize, h.blob.keyframes, h.blob.offsets, hstarts, h.blob.readable⟩
    rw [Recorder.compressedBlob, hlen]
    rw [h.blob.blob] at hcompressed
    exact hz.blobDecoder hcompressed hsize
  have hopenable : Openable (r.compressedBlob compressed first) := by
    refine ⟨?_, hlen ▸ hsize, ?_⟩
    · exact (Nat.le_add_left _ _).trans_lt hlt
    · rw [Recorder.compressedBlob, hkeyframes]
      exact List.cons_ne_nil _ _
  refine ⟨r.compressedBlob compressed first, ?_⟩
  obtain ⟨sink₁, sink', hsink₁, hfinal, -, rfl⟩ := hsame
  cases hsink₁
  obtain ⟨sink₀, hsink₀, start, hstart, hold⟩ := h.disk.sink
  cases hsink₀.symm.trans hsink
  have htake : sink.finalSink.bytes.take r.currentBlobOffset = sink.finalSink.bytes := by
    refine List.take_of_length_le ?_
    rw [hold, h.disk.offset, ← hstart]
    simp only [List.length_append, le_refl]
  rw [htake, hold] at hbytes
  have hall : blobPackets (blobs ++ [(r.compressedBlob compressed first, packets)]) ++ [] =
      blobPackets blobs ++ packets := by
    rw [List.append_nil, blobPackets_append]
    simp [blobPackets]
  have hblobBytes : blobBytes (blobs ++ [(r.compressedBlob compressed first, packets)]) =
      blobBytes blobs ++ (r.blobPacket compressed first).write := by
    rw [blobBytes_append]
    simp [blobBytes, Recorder.blobPacket]
  obtain ⟨t, out, hplays, hevents, -⟩ := h.plays.plays
  refine ⟨h.stored, h.exact, ⟨h.disk.console, h.disk.sameReplay, h.disk.patchLength,
    ⟨sink', rfl, start, hstart, ?_⟩, ?_, ?_⟩, ⟨rfl, Nat.zero_le _, rfl, rfl, fun p hp ↦ ?_⟩,
    ⟨⟨t, out, hall ▸ hplays, hevents, fun base hb ↦ ?_⟩, hall ▸ h.plays.framed,
      hall ▸ h.plays.count⟩, .inl ⟨rfl, rfl⟩⟩
  · rw [hfinal, hblobBytes, ← List.append_assoc]
    exact hbytes
  · rw [hblobBytes, List.length_append, ← Nat.add_assoc, ← h.disk.offset]
  · intro b hb
    rcases List.mem_append.mp hb with hb | hb
    · exact h.disk.sealed b hb
    · rw [List.mem_singleton.mp hb]
      exact ⟨hsealed, hopenable⟩
  · cases hp
  · cases hb

end Recorded

end SuperShuckie
