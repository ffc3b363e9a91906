import SuperShuckie.Recording.Plays

/-!
# Files of blobs

A recording of any console but the Nintendo 3DS is a list of compressed blobs.  `Sealed` says that a
blob holds a stretch of packets: it decodes to their bytes, and its lists of keyframes and offsets
are theirs.  Of such a blob, the packet at every position is known, and the state of every keyframe
is the one that `Plays` gives it.
-/

set_option autoImplicit false

namespace SuperShuckie

open ByteFormat ByteFormat.Reader

/-- A stretch starts with a full keyframe. -/
def StartsFull (packets : List Packet) : Prop :=
  ∃ metadata state rest, packets = .keyframe metadata state :: rest

/-- A blob holds a stretch of packets. -/
structure Sealed (z : Zstd) (blob : CompressedBlob) (packets : List Packet) : Prop where
  decodes : ∃ steps, z.blobDecoder blob.compressedData blob.uncompressedSize.toNat = .ok steps ∧
    StepsDecode steps (streamBytes packets)
  size : blob.uncompressedSize.toNat = (streamBytes packets).length
  size_le : (streamBytes packets).length ≤ isizeMax
  keyframes : blob.keyframes = packets.filterMap keyframeMetadata
  offsets : blob.keyframeOffsets.map UInt64.toNat = keyframeOffsets 0 packets
  starts : StartsFull packets
  readable : ∀ packet ∈ packets, packet.Readable

/-- What a blob of a stretch shows. -/
def viewOf (packets : List Packet) : BlobView :=
  ⟨(streamBytes packets).length, streamBytes packets, some (keyframeOffsets 0 packets)⟩

namespace Sealed

variable {z : Zstd} {blob : CompressedBlob} {packets : List Packet}

theorem head_offsets (h : StartsFull packets) : (keyframeOffsets 0 packets).head? = some 0 := by
  obtain ⟨metadata, state, rest, rfl⟩ := h
  rfl

/-- The table of offsets is usable. -/
theorem packetOffsetTable_eq (h : Sealed z blob packets) :
    packetOffsetTable blob = some (keyframeOffsets 0 packets) := by
  have hhead := head_offsets h.starts
  have hsorted := keyframeOffsets_sorted 0 packets
  have hlt : ∀ o ∈ keyframeOffsets 0 packets, o < (streamBytes packets).length := by
    intro o ho
    obtain ⟨before, packet, after, rfl, -, rfl⟩ := mem_keyframeOffsets.mp ho
    have := length_write_pos packet
    simp only [streamBytes_append, streamBytes_cons, List.length_append]
    omega
  have hcount : blob.keyframeOffsets.length = blob.keyframes.length := by
    rw [h.keyframes, ← length_keyframeOffsets 0, ← h.offsets, List.length_map]
  rw [← h.offsets] at hhead hsorted hlt ⊢
  rw [← h.size] at hlt
  cases hoffsets : blob.keyframeOffsets with
  | nil =>
    rw [hoffsets] at hhead
    cases hhead
  | cons first rest =>
    rw [hoffsets] at hhead hsorted hlt hcount
    have hfirst : first = 0 := by
      have : first.toNat = 0 := by simpa using hhead
      exact UInt64.toNat_inj.mp this
    have hinside : (first :: rest).all (fun o ↦ decide (o < blob.uncompressedSize)) = true := by
      rw [List.all_eq_true]
      intro o ho
      exact decide_eq_true (UInt64.lt_iff_toNat_lt.mpr (hlt _ (List.mem_map_of_mem ho)))
    have hascending : ∀ l : List UInt64, (l.map UInt64.toNat).Pairwise (· < ·) →
        (l.zip l.tail).all (fun o ↦ decide (o.1 < o.2)) = true := by
      intro l hl
      induction l with
      | nil => rfl
      | cons a l ih =>
        cases l with
        | nil => rfl
        | cons b l =>
          rw [List.map_cons, List.pairwise_cons] at hl
          have hab := hl.1 b.toNat (by simp)
          rw [List.tail_cons, List.zip_cons_cons, List.all_cons, Bool.and_eq_true]
          exact ⟨decide_eq_true (UInt64.lt_iff_toNat_lt.mpr hab), ih hl.2⟩
    have hrefused : ¬ ((first :: rest).length ≠ blob.keyframes.length ∨ first ≠ 0) := by
      rw [hcount, hfirst]
      simp
    simp only [packetOffsetTable, hoffsets, validateOffsetTable, if_neg hrefused, hinside,
      hascending _ hsorted, Bool.and_self, if_true]

theorem blobView_eq (h : Sealed z blob packets) {file : OpenedFile} {i : Nat}
    (hat : file.packets[i]? = some (.compressedBlob blob)) :
    file.blobView z i = some (viewOf packets) := by
  obtain ⟨steps, hsteps, hdecode⟩ := h.decodes
  rw [OpenedFile.blobView, hat]
  simp only
  rw [hsteps]
  simp only [hdecode.delivered_eq, h.packetOffsetTable_eq, h.size, viewOf]

theorem offsets_viewOf (h : StartsFull packets) (version : Nat) :
    (viewOf packets).offsets version = some (keyframeOffsets 0 packets) := by
  have hhead := head_offsets h
  have hcontent : (streamBytes packets).head? = some PacketDiscriminator.keyframe.toByte := by
    obtain ⟨metadata, state, rest, rfl⟩ := h
    rfl
  simp only [BlobView.offsets, BlobView.usedTable, viewOf, hhead, hcontent, and_self, if_true]

/-- A packet of the stretch is read at its place. -/
theorem parseAt_viewOf {version : Nat} (hversion : 3 ≤ version) {before after : List Packet}
    {packet : Packet} (hpackets : packets = before ++ packet :: after)
    (hreadable : packet.Readable) (hsize : (streamBytes packets).length < 2 ^ 64) :
    (viewOf packets).parseAt version (streamBytes before).length =
      some (packet.readBack, (streamBytes (before ++ [packet])).length) := by
  subst hpackets
  have hpos := length_write_pos packet
  simp only [streamBytes_append, streamBytes_cons, List.length_append] at hsize
  have hread := Packet.reads hversion hreadable (by omega) (streamBytes after)
  have hdrop : (streamBytes (before ++ packet :: after)).drop (streamBytes before).length =
      packet.write ++ streamBytes after := by
    rw [streamBytes_append, streamBytes_cons, List.drop_left]
  rw [BlobView.parseAt, viewOf]
  simp only
  rw [if_neg (by simp only [streamBytes_append, streamBytes_cons, List.length_append]; omega),
    hdrop, hread]
  simp only [streamBytes_append, streamBytes_cons, streamBytes_nil, List.append_nil,
    List.length_append, Option.some.injEq, Prod.mk.injEq, true_and]
  omega

end Sealed

/-! ## A file of blobs -/

/-- The top-level packets of a file are blobs that hold the given stretches. -/
structure OpenedFile.Holds (z : Zstd) (file : OpenedFile) (blobs : List (List Packet)) :
    Prop where
  version : 3 ≤ file.version
  length_eq : file.packets.length = blobs.length
  blob : ∀ (i : Nat) packets, blobs[i]? = some packets → ∃ blob,
    file.packets[i]? = some (.compressedBlob blob) ∧ Sealed z blob packets

namespace OpenedFile.Holds

variable {z : Zstd} {file : OpenedFile} {blobs : List (List Packet)} {i : Nat}
  {packets : List Packet} (h : file.Holds z blobs) (hi : blobs[i]? = some packets)
include h hi

theorem view : file.blobView z i = some (viewOf packets) := by
  obtain ⟨blob, hat, hsealed⟩ := h.blob i packets hi
  exact hsealed.blobView_eq hat

theorem starts : StartsFull packets := by
  obtain ⟨blob, hat, hsealed⟩ := h.blob i packets hi
  exact hsealed.starts

theorem parseAt {before after : List Packet} {packet : Packet}
    (hpackets : packets = before ++ packet :: after) :
    (viewOf packets).parseAt file.version (streamBytes before).length =
      some (packet.readBack, (streamBytes (before ++ [packet])).length) := by
  obtain ⟨blob, hat, hsealed⟩ := h.blob i packets hi
  have hmax : isizeMax < 2 ^ 64 := by decide
  exact Sealed.parseAt_viewOf h.version hpackets
    (hsealed.readable packet (hpackets ▸ List.mem_append_right _ List.mem_cons_self))
    (hsealed.size_le.trans_lt hmax)

theorem packetAt {before after : List Packet} {packet : Packet}
    (hpackets : packets = before ++ packet :: after) :
    file.packetAt z (.blob i) (streamBytes before).length = some packet.readBack := by
  simp only [OpenedFile.packetAt, h.view hi, Option.bind_some, h.parseAt hi hpackets,
    Option.map_some]

theorem isKeyframePos_iff {pos : Nat} :
    file.IsKeyframePos z (.blob i) pos ↔ pos ∈ keyframeOffsets 0 packets := by
  have hoffsets := Sealed.offsets_viewOf (h.starts hi) file.version
  constructor
  · rintro ⟨v, t, hv, ht, hmem⟩
    rw [h.view hi] at hv
    cases hv
    rw [hoffsets] at ht
    cases ht
    exact hmem
  · exact fun hmem ↦ ⟨_, _, h.view hi, hoffsets, hmem⟩

/-- Reading back does not change what kind of keyframe a packet is. -/
theorem isKeyframePos_of_split {before after : List Packet} {packet : Packet}
    (hpackets : packets = before ++ packet :: after) (hclass : isKeyframeClass packet = true) :
    file.IsKeyframePos z (.blob i) (streamBytes before).length :=
  (h.isKeyframePos_iff hi).mpr
    (mem_keyframeOffsets.mpr ⟨before, packet, after, hpackets, hclass, (Nat.zero_add _).symm⟩)

end OpenedFile.Holds

end SuperShuckie
