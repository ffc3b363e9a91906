import SuperShuckie.Recording.Locating

/-!
# Opening a file of blobs

A file made of a header, a patch and blobs opens, with the blobs as its top-level packets; so does
one that was closed, where a bookmark section follows the end that the header records.
-/

set_option autoImplicit false

namespace SuperShuckie

open ByteFormat ByteFormat.Reader

/-- The layout of a file of blobs: a header made from metadata, the patch, the blobs up to the end
that the header records, and a bookmark section. -/
structure BlobFile (metadata : ReplayFileMetadata) (header : ReplayHeaderRaw) (patch : Bytes)
    (blobs : List CompressedBlob) (bookmarkSection bytes : Bytes) : Prop where
  bytes_eq : bytes = header.asBytes ++ patch ++ blobs.flatMap (fun b ↦ (Packet.compressedBlob b).write)
    ++ bookmarkSection
  sameReplay : ∃ raw, metadata.asRawHeader = .ok raw ∧ header.SameReplay raw
  console : metadata.consoleType ≠ .nintendo3DS
  patchLength : header.patchDataLength.toNat = patch.length
  streamEnd : header.packetStreamEnd.toNat = headerLen + patch.length +
    (blobs.flatMap fun b ↦ (Packet.compressedBlob b).write).length

/-- A blob can be read back and indexed. -/
structure Openable (blob : CompressedBlob) : Prop where
  length : (Packet.compressedBlob blob).write.length < 2 ^ 64
  size : blob.uncompressedSize.toNat ≤ isizeMax
  keyframes : blob.keyframes ≠ []

namespace OpenedFile

/-! ## The steps of opening -/

theorem slice?_append (a b c : Bytes) : slice? (a ++ b ++ c) a.length b.length = some b := by
  rw [slice?, if_pos (by simp only [List.length_append]; omega), List.append_assoc, List.drop_left,
    List.take_left]

theorem readHeader_append (header : ReplayHeaderRaw) (rest : Bytes) :
    readHeader (header.asBytes ++ rest) = .ok header := by
  rw [readHeader, header.reads rest]

theorem readPatch_append {header : ReplayHeaderRaw} {patch rest : Bytes}
    (hlen : header.patchDataLength.toNat = patch.length) (hmax : patch.length + headerLen < 2 ^ 64) :
    ∃ patchData, readPatch header (header.asBytes ++ (patch ++ rest)) =
      .ok (patchData, headerLen + patch.length) := by
  simp only [readPatch, hlen]
  rw [if_neg (by omega)]
  split
  · rename_i hzero
    exact ⟨none, by rw [hzero, Nat.add_zero]⟩
  · have hslice := slice?_append header.asBytes patch rest
    rw [List.append_assoc, ReplayHeaderRaw.length_asBytes] at hslice
    rw [hslice]
    exact ⟨some patch, rfl⟩

theorem reachablePrefix_blobs (have' : Bool) (blobs : List CompressedBlob) :
    reachablePrefix have' (blobs.map .compressedBlob) = blobs.length := by
  induction blobs generalizing have' with
  | nil => rfl
  | cons blob blobs ih => rw [List.map_cons, reachablePrefix, ih, List.length_cons]

/-- The blobs are read back. -/
theorem readPackets_blobs {version : Nat} (hversion : 3 ≤ version) (streamEnd : Nat)
    {blobs : List CompressedBlob} (hblobs : ∀ b ∈ blobs, Openable b) (allow : Bool) :
    readPackets version streamEnd (blobs.flatMap fun b ↦ (Packet.compressedBlob b).write) allow =
      .ok (blobs.map .compressedBlob, false) := by
  have hreads : ∀ e ∈ blobs.map (fun b ↦ ((Packet.compressedBlob b).write, Packet.compressedBlob b)),
      Reads (Packet.readAll version) e.1 e.2 := by
    intro e he
    obtain ⟨b, hb, rfl⟩ := List.mem_map.mp he
    exact Packet.reads hversion trivial (hblobs b hb).length
  have hstream := readStream_append hreads []
  rw [writeStream, List.flatMap_map, List.append_nil, readStream_nil, List.append_nil] at hstream
  have hmap : ∀ (l : List CompressedBlob) (more : Nat), (placeStream (l.map fun b ↦
      ((Packet.compressedBlob b).write, Packet.compressedBlob b)) more).map
        (withFrameOffset streamEnd) = l.map .compressedBlob := by
    intro l more
    induction l with
    | nil => rfl
    | cons b l ih =>
      rw [List.map_cons, placeStream, List.map_cons, ih]
      rfl
  simp only [readPackets, hstream, hmap]

namespace PacketIndex

/-- A keyframe that is added is indexed, and those that were stay so. -/
theorem isSome_addKeyframe {index : PacketIndex} {metadata : KeyframeMetadata} {frame : Nat}
    (h : metadata.elapsedFrames.toNat = frame ∨ (index.keyframes.get? frame).isSome = true) :
    ((index.addKeyframe metadata).keyframes.get? frame).isSome = true := by
  rw [addKeyframe]
  simp only [OrdMap.get?_alter]
  split
  · rfl
  · rename_i hne
    exact h.resolve_left fun h ↦ hne h.symm

theorem isSome_foldl_addKeyframe {keyframes : List KeyframeMetadata} {index : PacketIndex}
    {frame : Nat} (h : (∃ m ∈ keyframes, m.elapsedFrames.toNat = frame) ∨
      (index.keyframes.get? frame).isSome = true) :
    ((keyframes.foldl addKeyframe index).keyframes.get? frame).isSome = true := by
  induction keyframes generalizing index with
  | nil =>
    rcases h with ⟨m, hm, -⟩ | h
    · cases hm
    · exact h
  | cons m keyframes ih =>
    refine ih ?_
    rcases h with ⟨m', hm', hframe⟩ | h
    · rcases List.mem_cons.mp hm' with rfl | hm'
      · exact .inr (isSome_addKeyframe (.inl hframe))
      · exact .inl ⟨m', hm', hframe⟩
    · exact .inr (isSome_addKeyframe (.inr h))

theorem keyframes_foldl_addBookmark (bookmarks : List BookmarkMetadata) (index : PacketIndex) :
    (bookmarks.foldl addBookmark index).keyframes = index.keyframes := by
  induction bookmarks generalizing index with
  | nil => rfl
  | cons b bookmarks ih => rw [List.foldl_cons, ih, addBookmark]

theorem addAll_blobs {blobs : List CompressedBlob} (hblobs : ∀ b ∈ blobs, Openable b)
    (index : PacketIndex) (i : Nat) :
    ∃ index', addAll index i (blobs.map .compressedBlob) = .ok index' ∧
      ∀ frame, ((∃ b ∈ blobs, ∃ m ∈ b.keyframes, m.elapsedFrames.toNat = frame) ∨
        (index.keyframes.get? frame).isSome = true) →
        (index'.keyframes.get? frame).isSome = true := by
  induction blobs generalizing index i with
  | nil =>
    refine ⟨index, rfl, fun frame h ↦ ?_⟩
    rcases h with ⟨b, hb, -⟩ | h
    · cases hb
    · exact h
  | cons b blobs ih =>
    have hb := hblobs b List.mem_cons_self
    obtain ⟨index₁, hadd, hkeyframes⟩ : ∃ index₁, index.addBlob i b = .ok index₁ ∧
        index₁.keyframes = (b.keyframes.foldl addKeyframe index).keyframes := by
      rw [addBlob, if_neg (by have := hb.size; omega), if_neg (by simpa using hb.keyframes)]
      exact ⟨_, rfl, keyframes_foldl_addBookmark _ _⟩
    obtain ⟨index', hall, hframes⟩ := ih (fun b hb ↦ hblobs b (List.mem_cons_of_mem _ hb)) index₁
      (i + 1)
    refine ⟨index', ?_, fun frame h ↦ hframes frame ?_⟩
    · rw [List.map_cons, addAll]
      simp only [add, hadd]
      exact hall
    · rw [hkeyframes]
      rcases h with ⟨b', hb', hm⟩ | h
      · rcases List.mem_cons.mp hb' with rfl | hb'
        · exact .inr (isSome_foldl_addKeyframe (.inl hm))
        · exact .inl ⟨b', hb', hm⟩
      · exact .inr (isSome_foldl_addKeyframe (.inr h))

end PacketIndex

/-! ## Opening -/

theorem checkFirst_blobs {blob : CompressedBlob} (h : blob.keyframes ≠ [])
    (blobs : List CompressedBlob) : checkFirst ((blob :: blobs).map .compressedBlob) = .ok () := by
  rw [List.map_cons, checkFirst, if_neg (by simpa using h)]

end OpenedFile

open OpenedFile in
/-- **A file of blobs opens**, with the blobs as its top-level packets. -/
theorem ReplayFilePlayer.new_of_blobFile (x : Externals) {metadata : ReplayFileMetadata}
    {header : ReplayHeaderRaw} {patch bookmarkSection bytes : Bytes} {blobs : List CompressedBlob}
    (h : BlobFile metadata header patch blobs bookmarkSection bytes)
    (hpatch : patch.length + headerLen < 2 ^ 64) (hblobs : ∀ b ∈ blobs, Openable b)
    (hfirst : ∃ b rest, blobs = b :: rest ∧ ∃ m ∈ b.keyframes, m.elapsedFrames.toNat = 0)
    (allow : Bool) :
    ∃ file, ReplayFilePlayer.new x bytes allow = .ok (start file) ∧
      file.packets = blobs.map .compressedBlob ∧ 3 ≤ file.version ∧ file.resizing = false ∧
      ∀ frame, (∃ b ∈ blobs, ∃ m ∈ b.keyframes, m.elapsedFrames.toNat = frame) →
        (file.keyframes.get? frame).isSome = true := by
  obtain ⟨source, hsource⟩ : ∃ source, new x bytes allow = build x bytes source allow := ⟨_, rfl⟩
  obtain ⟨raw, hraw, hsame⟩ := h.sameReplay
  obtain ⟨parsed, hparse, hconsole⟩ := ReplayHeaderRaw.parse_of_sameReplay hraw hsame
  obtain ⟨-, -, hversion, -⟩ := ReplayFileMetadata.asRawHeader_ok hraw
  rw [if_neg h.console, ← hsame.replayVersion] at hversion
  have hversion3 : 3 ≤ header.replayVersion.toNat := by
    rw [hversion]
    decide
  obtain ⟨b, rest, rfl, m, hm, hframe⟩ := hfirst
  have hkeyframes : b.keyframes ≠ [] := List.ne_nil_of_mem hm
  have hbytes := h.bytes_eq
  generalize hstream : (b :: rest).flatMap (fun b ↦ (Packet.compressedBlob b).write) = stream
    at hbytes
  have hend := h.streamEnd
  rw [hstream] at hend
  have hheader := header.length_asBytes
  have hpos : headerLen = 2048 := rfl
  have hstreamEnd : header.streamEnd = some (headerLen + patch.length + stream.length) := by
    rw [ReplayHeaderRaw.streamEnd, if_pos, hend]
    refine ⟨by rw [hversion]; decide, fun hzero ↦ ?_⟩
    rw [hzero] at hend
    have : (0 : UInt64).toNat = 0 := rfl
    omega
  have hreadHeader : readHeader bytes = .ok header := by
    rw [hbytes, List.append_assoc, List.append_assoc]
    exact readHeader_append header _
  have hreadMetadata : readMetadata header = .ok parsed := by rw [readMetadata, hparse]
  obtain ⟨patchData, hreadPatch⟩ : ∃ patchData,
      readPatch header bytes = .ok (patchData, headerLen + patch.length) := by
    obtain ⟨patchData, hpatchData⟩ := readPatch_append
      h.patchLength hpatch
    refine ⟨patchData, ?_⟩
    rw [hbytes, List.append_assoc, List.append_assoc]
    exact hpatchData
  have hlength : bytes.length =
      headerLen + patch.length + stream.length + bookmarkSection.length := by
    rw [hbytes]
    simp only [List.length_append, hheader]
  have hreadEnd : readStreamEnd header (headerLen + patch.length) bytes.length allow =
      .ok (headerLen + patch.length + stream.length, false) := by
    simp only [readStreamEnd, hstreamEnd]
    rw [if_pos (by omega)]
  have hpacketBytes : packetBytes bytes (headerLen + patch.length)
      (headerLen + patch.length + stream.length) = .ok stream := by
    have hslice := slice?_append (header.asBytes ++ patch) stream bookmarkSection
    rw [List.length_append, hheader] at hslice
    rw [packetBytes, Nat.add_sub_cancel_left, hbytes, hslice]
  have hreadPackets : readPackets header.replayVersion.toNat
      (headerLen + patch.length + stream.length) stream allow =
        .ok ((b :: rest).map .compressedBlob, false) := by
    rw [← hstream]
    exact readPackets_blobs hversion3 _ hblobs allow
  have hreachable : checkReachable ((b :: rest).map .compressedBlob) allow =
      .ok ((b :: rest).map .compressedBlob, false) := by
    rw [checkReachable, if_pos (by rw [reachablePrefix_blobs, List.length_map])]
  obtain ⟨index, hindex, hframes⟩ := PacketIndex.addAll_blobs hblobs PacketIndex.empty 0
  have hstart : checkStart index = .ok () := by
    have hzero := hframes 0 (.inl ⟨b, List.mem_cons_self, m, hm, hframe⟩)
    rw [checkStart, if_neg]
    rw [Option.isNone_iff_eq_none]
    intro hnone
    rw [hnone] at hzero
    cases hzero
  refine ⟨assemble x bytes source header parsed patchData
    (headerLen + patch.length + stream.length) (false || false || false)
    ((b :: rest).map .compressedBlob) index, ?_, rfl, hversion3, ?_, fun frame hframe ↦ ?_⟩
  · rw [hsource, build, OpenedFile.read, hreadHeader]
    simp only [Opening.ok_bind, hreadMetadata, hreadPatch, hreadEnd, hpacketBytes, hreadPackets,
      hreachable, checkFirst_blobs hkeyframes, hindex, hstart]
    rfl
  · rw [OpenedFile.resizing, decide_eq_false_iff_not]
    exact fun h3DS ↦ h.console (hconsole ▸ h3DS)
  · exact hframes frame (.inl hframe)

end SuperShuckie
