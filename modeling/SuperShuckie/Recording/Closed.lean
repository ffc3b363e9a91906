import SuperShuckie.Recording.Run

/-!
# From the first call to the closed file

A file begins with its first keyframe (`newWithMetadata_on`), and closing it leaves a file of blobs
that play as what is on the tape (`close_on`).
-/

set_option autoImplicit false

namespace SuperShuckie

open ByteFormat

/-- A closed file of blobs that play as some events. -/
structure ClosedFile (z : Zstd) (metadata : ReplayFileMetadata) (patch : Bytes)
    (events : List Packet) (blobs : List (CompressedBlob × List Packet)) (bytes : Bytes) : Prop where
  file : ∃ header bookmarkSection,
    BlobFile metadata header patch (blobs.map Prod.fst) bookmarkSection bytes
  room : patch.length + headerLen < 2 ^ 64
  sealed : ∀ b ∈ blobs, Sealed z b.1 b.2 ∧ Openable b.1
  ne_nil : blobs ≠ []
  plays : ∃ s out, Plays false none (blobPackets blobs) s out ∧ out.filter isEvent = events
  framed : Framed 0 (blobPackets blobs)

namespace Recorder

variable {x : Externals} {metadata : ReplayFileMetadata} {patch : Bytes} {tape : Tape}
  {r r' : Recorder}

/-! ## The first keyframe -/

/-- A recorder before its first keyframe holds nothing. -/
theorem newBlank_recorded {z : Zstd} {settings : RecorderSettings} {input : InputBuffer}
    {speed : Speed} {finalSink tempSink : Sink} (hconsole : metadata.consoleType ≠ .nintendo3DS)
    (hexact : settings.maskTransientBuffers = false) (hempty : finalSink.bytes = [])
    (h : newBlank metadata patch settings input speed finalSink tempSink = .ok r ()) :
    Recorded z metadata patch [] [] [] r ∧ (Tape.blank input speed).Matches r := by
  obtain ⟨raw, sink, hraw, hpatch, hbytes, rfl⟩ := newBlank_ok h
  have hsame : (headerWithPatch raw patch).SameReplay raw := ⟨rfl, rfl, rfl, rfl, rfl, rfl, rfl, rfl⟩
  have hdisk : OnDisk z metadata patch [] (blank (headerWithPatch raw patch)
      (normaliseSettings settings) (headerLen + patch.length) input speed sink) := by
    refine ⟨hconsole, ⟨raw, hraw, hsame⟩, ?_, ⟨sink, rfl, (headerWithPatch raw patch).asBytes,
      ReplayHeaderRaw.length_asBytes _, ?_⟩, rfl, fun b hb ↦ by cases hb⟩
    · exact UInt64.toNat_ofNat_of_lt' hpatch
    · rw [hbytes, hempty, List.nil_append]
      exact (List.append_nil _).symm
  have hstored : (headerWithPatch raw patch).consoleTypeOrDefault ≠ .nintendo3DS := by
    rw [← Recorded.console_eq hdisk] at hconsole
    exact hconsole
  refine ⟨⟨?_, ?_, hdisk, ⟨rfl, Nat.zero_le _, rfl, rfl, fun p hp ↦ by cases hp⟩,
    ⟨⟨none, [], .nil none, rfl, fun base hbase ↦ by cases hbase⟩, framed_nil 0, rfl⟩,
    .inl ⟨rfl, rfl⟩⟩, ⟨rfl, rfl, rfl, rfl, rfl⟩⟩
  · rw [blank, if_neg hstored]
  · rw [blank, normaliseSettings]
    split
    · exact hexact
    · exact hexact

/-- **A new file holds its first keyframe.** -/
theorem newWithMetadata_on (hz : x.zstd.Lossless) {settings : RecorderSettings}
    {startingTimestamp : TimestampMillis} {input : InputBuffer} {speed : Speed} {state : Bytes}
    {finalSink tempSink : Sink} (hconsole : metadata.consoleType ≠ .nintendo3DS)
    (hexact : settings.maskTransientBuffers = false) (hempty : finalSink.bytes = [])
    (h : newWithMetadata x metadata patch settings startingTimestamp input speed state finalSink
      tempSink = .ok r ()) :
    ((Tape.blank input speed).record (.insertKeyframe state startingTimestamp .auto)).On x.zstd
      metadata patch r := by
  rw [newWithMetadata] at h
  cases hblank : newBlank metadata patch settings input speed finalSink tempSink with
  | abort =>
    rw [hblank] at h
    cases h
  | error e u =>
    rw [hblank] at h
    cases h
  | ok r₀ u =>
    rw [hblank] at h
    simp only at h
    cases hinsert : insertKeyframe x state startingTimestamp r₀ with
    | abort =>
      rw [hinsert] at h
      cases h
    | error e u =>
      rw [hinsert] at h
      cases h
    | ok frame r₁ =>
      rw [hinsert] at h
      cases h
      obtain ⟨hrecorded, hmatches⟩ := newBlank_recorded (z := x.zstd) hconsole hexact hempty hblank
      exact insertKeyframeWith_on hz hrecorded rfl hmatches hinsert

/-! ## Closing -/

/-- **A closed file plays as what is on the tape.** -/
theorem close_on (hz : x.zstd.Lossless) (h : tape.On x.zstd metadata patch r)
    {finalSink tempSink : Sink} (hclose : close x r = .ok (finalSink, tempSink, none) r') :
    ∃ blobs, ClosedFile x.zstd metadata patch tape.events blobs finalSink.bytes := by
  obtain ⟨⟨blobs, packets, hrecorded, hne⟩, -⟩ := h
  have hstarts : StartsFull packets := hrecorded.starts.resolve_left fun h ↦ hne h.1
  obtain ⟨r₁, sink, hends, hsink, hbytes⟩ := close_ok hrecorded.stored hclose
  obtain ⟨first, rest, hkeyframes⟩ : ∃ first rest, r.currentBlobKeyframes = first :: rest := by
    obtain ⟨m, state, rest, rfl⟩ := hstarts
    exact ⟨m, _, hrecorded.blob.keyframes⟩
  have hlt : r₁.currentBlobOffset < 2 ^ 64 := by
    obtain ⟨compressed, sink₀, s, -, -, -, hlt, sink₁, sink₂, -, -, -, rfl⟩ :=
      nextBlob_ends hkeyframes hends
    exact hlt
  obtain ⟨blob, hsealed⟩ := hrecorded.sealBlob hz hstarts hends
  obtain ⟨sink₁, hsink₁, start, hstart, hold⟩ := hsealed.disk.sink
  cases hsink.symm.trans hsink₁
  have hoffset : r₁.currentBlobOffset =
      headerLen + patch.length + (blobBytes (blobs ++ [(blob, packets)])).length :=
    hsealed.disk.offset
  have hmap : ((blobs ++ [(blob, packets)]).map Prod.fst).flatMap
      (fun b ↦ (Packet.compressedBlob b).write) = blobBytes (blobs ++ [(blob, packets)]) := by
    rw [blobBytes, List.flatMap_map]
  have hplays := hsealed.plays
  rw [List.append_nil] at hplays
  obtain ⟨s, out, hout, hevents, -⟩ := hplays.plays
  refine ⟨blobs ++ [(blob, packets)], ⟨r₁.endedHeader, encodeBookmarkSection x.blake3 r₁.bookmarks,
    ⟨?_, ?_, hsealed.disk.console, hsealed.disk.patchLength, ?_⟩⟩, ?_, hsealed.disk.sealed,
    by simp, ⟨s, out, hout, hevents⟩, hplays.framed⟩
  · rw [hbytes, hold, hmap, List.append_assoc start, List.drop_left' hstart, ← List.append_assoc]
  · obtain ⟨raw, hraw, hsame⟩ := hsealed.disk.sameReplay
    exact ⟨raw, hraw, hsame.signatureStart, hsame.signatureEnd, hsame.replayVersion,
      hsame.consoleType, hsame.patchFormat, hsame.romName, hsame.romFilename,
      hsame.emulatorCoreName⟩
  · rw [hmap, ← hoffset]
    exact UInt64.toNat_ofNat_of_lt' hlt
  · omega

end Recorder

end SuperShuckie
