import SuperShuckie.Recorder.Calls

/-!
# What the operations of a recorder do

One lemma for each operation of a recorder without stored keyframes says what it did when it came to
its end: when it succeeded, or when only the temp sink failed (`EndsIn`).  What becomes of the temp
sink is left open; nothing in the file depends on it.
-/

set_option autoImplicit false

namespace SuperShuckie

open ByteFormat

/-! ## Sinks -/

namespace Sink

theorem perform_ok {done : Bytes → Bytes} {kept : Nat → Bytes → Bytes} {s s' : Sink}
    (h : Sink.perform done kept s = .ok () s') : s'.bytes = done s.bytes := by
  rw [Sink.perform] at h
  split at h
  · cases h
    rfl
  · cases h
    rfl
  · cases h

/-- An operation of a sink fails with an error of its own kind. -/
theorem perform_error {done : Bytes → Bytes} {kept : Nat → Bytes → Bytes} {s s' : Sink}
    {e : ReplayFileWriteError} (h : Sink.perform done kept s = .error e s') :
    isTempSinkError e = false := by
  rw [Sink.perform] at h
  split at h
  · cases h
  · cases h
  · cases h
    rfl

theorem writeBytes_ok {bytes : Bytes} {s s' : Sink} (h : Sink.writeBytes bytes s = .ok () s') :
    s'.bytes = s.bytes ++ bytes := perform_ok h

theorem overwriteHeader_ok {header : Bytes} {s s' : Sink}
    (h : Sink.overwriteHeader header s = .ok () s') :
    s'.bytes = header ++ s.bytes.drop header.length := perform_ok h

end Sink

namespace Recorder

/-- An operation came to its end in a state: it succeeded, or only the temp sink failed. -/
def EndsIn {α : Type} (o : Outcome ReplayFileWriteError Recorder α) (r : Recorder) : Prop :=
  (∃ a, o = .ok a r) ∨ ∃ e, o = .error e r ∧ isTempSinkError e = true

variable {r r' : Recorder} {α : Type} {e : ReplayFileWriteError} {finalSink tempSink : Sink}

theorem EndsIn.of_ok {o : Outcome ReplayFileWriteError Recorder α} {a : α} (h : o = .ok a r) :
    EndsIn o r := .inl ⟨a, h⟩

/-- `r'` is `r` with another temp sink. -/
def SameFile (r r' : Recorder) : Prop :=
  ∃ sink sink' : SinkTuple, r.sink = some sink ∧ sink'.finalSink = sink.finalSink ∧
    sink'.finalFailed = sink.finalFailed ∧ r' = { r with sink := some sink' }

theorem withSink_self {sink : SinkTuple} (h : r.sink = some sink) :
    { r with sink := some sink } = r := by
  rw [← h]

/-! ## Writing to the sinks -/

theorem finalWrite_ok {f : Act ReplayFileWriteError Sink α} {v : α}
    (h : finalWrite f r = .ok v r') : ∃ sink s, r.sink = some sink ∧ f sink.finalSink = .ok v s ∧
      r' = { r with sink := some { sink with finalSink := s, finalFailed := false } } := by
  rw [finalWrite] at h
  cases hsink : r.sink with
  | none =>
    rw [hsink] at h
    cases h
  | some sink =>
    rw [hsink] at h
    simp only at h
    cases hf : f sink.finalSink with
    | ok v' s =>
      rw [hf] at h
      cases h
      exact ⟨sink, s, rfl, hf, rfl⟩
    | error e s =>
      rw [hf] at h
      cases h
    | abort =>
      rw [hf] at h
      cases h

theorem finalWrite_error {f : Act ReplayFileWriteError Sink α} (h : finalWrite f r = .error e r')
    (hf : ∀ s s' e, f s = .error e s' → isTempSinkError e = false) : isTempSinkError e = false := by
  rw [finalWrite] at h
  cases hsink : r.sink with
  | none =>
    rw [hsink] at h
    cases h
    rfl
  | some sink =>
    rw [hsink] at h
    simp only at h
    cases hfs : f sink.finalSink with
    | ok v' s =>
      rw [hfs] at h
      cases h
    | error e s =>
      rw [hfs] at h
      cases h
      exact hf _ _ _ hfs
    | abort =>
      rw [hfs] at h
      cases h

/-- A temp write of an open recorder fails in its own way only. -/
theorem tempWrite_error {f : Act ReplayFileWriteError Sink Unit} {sink : SinkTuple}
    (hsink : r.sink = some sink) (h : tempWrite f r = .error e r') : isTempSinkError e = true := by
  rw [tempWrite, hsink] at h
  simp only at h
  split at h
  · cases h
  · cases hf : f sink.tempSink with
    | ok a s =>
      rw [hf] at h
      cases h
    | error e s =>
      rw [hf] at h
      cases h
      rfl
    | abort =>
      rw [hf] at h
      cases h

theorem tempWrite_ends {f : Act ReplayFileWriteError Sink Unit} (h : EndsIn (tempWrite f r) r') :
    SameFile r r' := by
  rw [tempWrite] at h
  cases hsink : r.sink with
  | none =>
    rw [hsink] at h
    rcases h with ⟨a, h⟩ | ⟨e, h, he⟩
    · cases h
    · cases h
      cases he
  | some sink =>
    rw [hsink] at h
    simp only at h
    split at h
    · rcases h with ⟨a, h⟩ | ⟨e, h, he⟩
      · cases h
        exact ⟨sink, sink, hsink, rfl, rfl, (withSink_self hsink).symm⟩
      · cases h
    · cases hf : f sink.tempSink with
      | ok a s =>
        rw [hf] at h
        rcases h with ⟨a, h⟩ | ⟨e, h, he⟩
        · cases h
          exact ⟨sink, { sink with tempSink := s }, hsink, rfl, rfl, rfl⟩
        · cases h
      | error e s =>
        rw [hf] at h
        rcases h with ⟨a, h⟩ | ⟨e, h, he⟩
        · cases h
        · cases h
          exact ⟨sink, { sink with tempSink := s, tempFailed := some e }, hsink, rfl, rfl, rfl⟩
      | abort =>
        rw [hf] at h
        rcases h with ⟨a, h⟩ | ⟨e, h, he⟩ <;> cases h

/-- What comes after a first step that fails only in its own way. -/
theorem EndsIn.bind {β : Type} {x : RecorderAction α} {f : α → RecorderAction β}
    (h : EndsIn ((x >>= f) r) r') (hx : ∀ e u, x r = .error e u → isTempSinkError e = false) :
    ∃ a u, x r = .ok a u ∧ EndsIn (f a u) r' := by
  rcases h with ⟨b, h⟩ | ⟨e, h, he⟩
  · obtain ⟨a, u, hxr, hfu⟩ := Act.bind_eq_ok.mp h
    exact ⟨a, u, hxr, .inl ⟨b, hfu⟩⟩
  · rcases Act.bind_eq_error.mp h with hxr | ⟨a, u, hxr, hfu⟩
    · rw [hx e r' hxr] at he
      cases he
    · exact ⟨a, u, hxr, .inr ⟨e, hfu, he⟩⟩

/-- An operation that came to its end was not refused for being closed. -/
theorem EndsIn.of_assertNotClosed {f : Unit → RecorderAction α}
    (h : EndsIn ((assertNotClosed >>= f) r) r') : EndsIn (f () r) r' := by
  rw [Act.bind_apply, assertNotClosed] at h
  by_cases hclosed : r.isClosed = true
  · rw [if_pos hclosed] at h
    rcases h with ⟨a, h⟩ | ⟨e, h, he⟩
    · cases h
    · cases h
      cases he
  · rwa [if_neg hclosed] at h

theorem advanceOffset_ok {offset written : Nat} (h : advanceOffset offset written r = .ok () r') :
    offset + written < 2 ^ 64 ∧ r' = { r with currentBlobOffset := offset + written } := by
  rw [advanceOffset] at h
  split at h
  · rename_i hlt
    cases h
    exact ⟨hlt, rfl⟩
  · cases h

theorem advanceOffset_error {offset written : Nat} :
    advanceOffset offset written r ≠ .error e r' := by
  rw [advanceOffset]
  split <;> exact fun h ↦ by cases h

/-! ## Packets -/

/-- A packet goes to the end of the blob in progress. -/
theorem writePacketData_ends {packet : Packet} (hstored : r.stored = none)
    (h : EndsIn (writePacketData packet r) r') :
    r.currentBlob.length + packet.write.length < 2 ^ 63 ∧
      SameFile { r with currentBlob := r.currentBlob ++ packet.write } r' := by
  rw [writePacketData, Act.get_bind_apply, hstored] at h
  simp only [Option.isSome_none, Bool.false_eq_true, if_false] at h
  replace h := h.of_assertNotClosed
  by_cases hfits : r.currentBlob.length + packet.write.length < 2 ^ 63
  · refine ⟨hfits, tempWrite_ends (f := do
      let _ ← Sink.writePacketData packet.write
      pure ()) ?_⟩
    simpa only [vecWritePacketData, hfits, if_true, Act.ofExcept, Act.pure_bind_apply,
      Act.modify_bind_apply] using h
  · simp only [vecWritePacketData, hfits, if_false, Act.ofExcept] at h
    rcases h with ⟨a, h⟩ | ⟨e, h, he⟩
    · cases h
    · cases h
      cases he

/-! ## Blobs -/

variable {x : Externals}

/-- The blob in progress as a packet, compressed to some bytes. -/
def blobPacket (r : Recorder) (compressed : Bytes) (first : KeyframeMetadata) : Packet :=
  .compressedBlob (r.compressedBlob compressed first)

/-- A blob with keyframes is compressed and written at the end of the file, and then forgotten. -/
theorem nextBlob_ends {first : KeyframeMetadata} {rest : List KeyframeMetadata}
    (hkeyframes : r.currentBlobKeyframes = first :: rest) (h : EndsIn (nextBlob x r) r') :
    ∃ compressed sink s, x.zstd.compressData r.currentBlob r.settings.compressionLevel =
        .ok compressed ∧ r.sink = some sink ∧
      s.bytes = sink.finalSink.bytes.take r.currentBlobOffset ++
        (r.blobPacket compressed first).write ∧
      r.currentBlobOffset + (r.blobPacket compressed first).write.length < 2 ^ 64 ∧
      SameFile { r.clearBlob with
        sink := some { sink with finalSink := s, finalFailed := false }
        currentBlobOffset := r.currentBlobOffset + (r.blobPacket compressed first).write.length }
        r' := by
  rw [nextBlob] at h
  replace h := h.of_assertNotClosed
  rw [Act.get_bind_apply, hkeyframes] at h
  simp only at h
  cases hcompressed : x.zstd.compressData r.currentBlob r.settings.compressionLevel with
  | error e =>
    rw [hcompressed] at h
    rcases h with ⟨a, h⟩ | ⟨e, h, he⟩
    · cases h
    · cases h
      cases he
  | ok compressed =>
    rw [hcompressed] at h
    simp only at h
    obtain ⟨written, r₁, hfinal, h⟩ := h.bind fun e u' he ↦ finalWrite_error he fun s s' e hs ↦ by
      rcases Act.bind_eq_error.mp hs with hs | ⟨⟨⟩, s₁, -, hs⟩
      · exact Sink.perform_error hs
      · rcases Act.bind_eq_error.mp hs with hs | ⟨n, s₂, -, hs⟩
        · rcases Act.bind_eq_error.mp hs with hs | ⟨⟨⟩, s₃, -, hs⟩
          · exact Sink.perform_error hs
          · cases hs
        · rcases Act.bind_eq_error.mp hs with hs | ⟨⟨⟩, s₃, -, hs⟩
          · exact Sink.perform_error hs
          · cases hs
    obtain ⟨sink, s, hsink, hf, rfl⟩ := finalWrite_ok hfinal
    obtain ⟨⟨⟩, s₁, htruncate, hf⟩ := Act.bind_eq_ok.mp hf
    obtain ⟨n, s₂, hwrite, hf⟩ := Act.bind_eq_ok.mp hf
    obtain ⟨⟨⟩, s₃, hflush, hf⟩ := Act.bind_eq_ok.mp hf
    obtain ⟨⟨⟩, s₄, hbytes, hn⟩ := Act.bind_eq_ok.mp hwrite
    cases hn
    cases hf
    rw [Act.modify_bind_apply] at h
    obtain ⟨⟨⟩, r₂, hadvance, h⟩ := h.bind fun e u' he ↦ (advanceOffset_error he).elim
    obtain ⟨hlt, rfl⟩ := advanceOffset_ok hadvance
    refine ⟨compressed, sink, s, rfl, hsink, ?_, hlt, tempWrite_ends h⟩
    have htruncate := Sink.perform_ok htruncate
    have hwrite := Sink.writeBytes_ok hbytes
    have hflush : s.bytes = s₂.bytes := Sink.perform_ok hflush
    rw [hflush, hwrite, htruncate]
    rfl

/-- A blob without keyframes is left alone. -/
theorem nextBlob_empty (hkeyframes : r.currentBlobKeyframes = []) (h : EndsIn (nextBlob x r) r') :
    r' = r := by
  rw [nextBlob] at h
  replace h := h.of_assertNotClosed
  rw [Act.get_bind_apply, hkeyframes] at h
  rcases h with ⟨a, h⟩ | ⟨e, h, he⟩
  · cases h
    rfl
  · cases h

/-! ## Starting a file -/

/-- The header of a file in progress. -/
def headerWithPatch (raw : ReplayHeaderRaw) (patch : Bytes) : ReplayHeaderRaw :=
  { raw with patchDataLength := UInt64.ofNat patch.length }

/-- A file starts with its header and its patch. -/
theorem newBlank_ok {metadata : ReplayFileMetadata} {patch : Bytes} {settings : RecorderSettings}
    {input : InputBuffer} {speed : Speed}
    (h : newBlank metadata patch settings input speed finalSink tempSink = .ok r ()) :
    ∃ raw sink, metadata.asRawHeader = .ok raw ∧ patch.length < 2 ^ 64 ∧
      sink.finalSink.bytes = finalSink.bytes ++ (headerWithPatch raw patch).asBytes ++ patch ∧
      r = blank (headerWithPatch raw patch) (normaliseSettings settings) (headerLen + patch.length)
        input speed sink := by
  rw [newBlank] at h
  cases hraw : metadata.asRawHeader with
  | error e =>
    rw [hraw] at h
    cases h
  | ok raw =>
    rw [hraw] at h
    simp only at h
    split at h
    · cases h
    · rename_i hpatch
      cases hfirst : Sink.writeBytes (headerWithPatch raw patch).asBytes finalSink with
      | error e s =>
        simp only [headerWithPatch] at hfirst
        rw [hfirst] at h
        cases h
      | abort =>
        simp only [headerWithPatch] at hfirst
        rw [hfirst] at h
        cases h
      | ok _ s =>
        simp only [headerWithPatch] at hfirst
        rw [hfirst] at h
        simp only at h
        cases hsecond : Sink.writeBytes patch s with
        | error e s' =>
          rw [hsecond] at h
          cases h
        | abort =>
          rw [hsecond] at h
          cases h
        | ok _ s' =>
          rw [hsecond] at h
          cases h
          refine ⟨raw, _, rfl, by omega, ?_, by
            rw [← ReplayHeaderRaw.length_asBytes (headerWithPatch raw patch)]; rfl⟩
          rw [Sink.writeBytes_ok hsecond, Sink.writeBytes_ok hfirst]
          rfl

/-! ## Closing -/

theorem refuseIfFinalFailed_bind {f : Unit → RecorderAction α}
    (h : EndsIn ((refuseIfFinalFailed >>= f) r) r') : EndsIn (f () r) r' := by
  rw [Act.bind_apply, refuseIfFinalFailed] at h
  by_cases hfailed : r.sink.any (fun s ↦ s.finalFailed) = true
  · rw [if_pos hfailed] at h
    rcases h with ⟨a, h⟩ | ⟨e, h, he⟩
    · cases h
    · cases h
      cases he
  · rwa [if_neg hfailed] at h

/-- An attempt whose result is not a genuine error came to its end. -/
theorem EndsIn.of_attempt {f : RecorderAction Unit} {result : Except ReplayFileWriteError Unit}
    (h : Act.attempt f r = .ok result r') (hresult : genuine result = false) : EndsIn (f r) r' := by
  rcases Act.attempt_eq_ok.mp h with ⟨a, -, hf⟩ | ⟨e, rfl, hf⟩
  · exact .inl ⟨a, hf⟩
  · exact .inr ⟨e, hf, by simpa [genuine] using hresult⟩

theorem tempWrite_attempt {f : Act ReplayFileWriteError Sink Unit} {sink : SinkTuple}
    {result : Except ReplayFileWriteError Unit} (hsink : r.sink = some sink)
    (h : Act.attempt (tempWrite f) r = .ok result r') : SameFile r r' := by
  refine tempWrite_ends (f := f) ?_
  rcases Act.attempt_eq_ok.mp h with ⟨a, -, hf⟩ | ⟨e, -, hf⟩
  · exact .inl ⟨a, hf⟩
  · exact .inr ⟨e, hf, tempWrite_error hsink hf⟩

/-- The header goes over the start of the file. -/
theorem syncHeader_ends (h : EndsIn (syncHeader r) r') :
    ∃ sink s, r.sink = some sink ∧
      s.bytes = r.header.asBytes ++ sink.finalSink.bytes.drop headerLen ∧
      SameFile { r with sink := some { sink with finalSink := s, finalFailed := false } } r' := by
  rw [syncHeader] at h
  replace h := refuseIfFinalFailed_bind h.of_assertNotClosed
  rw [Act.get_bind_apply] at h
  obtain ⟨⟨⟩, r₁, hfinal, h⟩ := h.bind fun e u he ↦
    finalWrite_error he fun s s' e hs ↦ Sink.perform_error hs
  obtain ⟨sink, s, hsink, hs, rfl⟩ := finalWrite_ok hfinal
  refine ⟨sink, s, hsink, ?_, tempWrite_ends h⟩
  rw [Sink.overwriteHeader_ok hs, ReplayHeaderRaw.length_asBytes]

/-- The header of a file that ends where the recorder is. -/
def endedHeader (r : Recorder) : ReplayHeaderRaw :=
  { r.header with packetStreamEnd := UInt64.ofNat r.currentBlobOffset }

/-- The end of the packet stream goes into the header, and the bookmark section after it. -/
theorem writeBookmarkSection_ends (h : EndsIn (writeBookmarkSection x r) r') :
    ∃ sink sink', r.sink = some sink ∧ r'.sink = some sink' ∧
      sink'.finalSink.bytes = r.endedHeader.asBytes ++ sink.finalSink.bytes.drop headerLen ++
        encodeBookmarkSection x.blake3 r.bookmarks := by
  rw [writeBookmarkSection, Act.modify_bind_apply] at h
  obtain ⟨headerResult, r₁, hattempt, h⟩ := h.bind fun e u he ↦ (Act.attempt_ne_error he).elim
  cases hgenuine : genuine headerResult with
  | true =>
    rw [if_pos hgenuine] at h
    cases headerResult with
    | ok a => cases hgenuine
    | error e =>
      rcases h with ⟨a, h⟩ | ⟨e, h, he⟩
      · cases h
      · cases h
        rw [genuine, he] at hgenuine
        cases hgenuine
  | false =>
    rw [if_neg (by simp [hgenuine]), Act.get_bind_apply] at h
    obtain ⟨sink, s, hsink, hbytes, sink₁, sink₂, hsink₁, hfinal₁, -, rfl⟩ :=
      syncHeader_ends (EndsIn.of_attempt hattempt hgenuine)
    cases hsink₁
    obtain ⟨⟨⟩, r₂, hfinal, h⟩ := h.bind fun e u he ↦
      finalWrite_error he fun s s' e hs ↦ Sink.perform_error hs
    obtain ⟨sink₃, s₃, hsink₃, hs₃, hr₂⟩ := finalWrite_ok hfinal
    cases hsink₃
    have hsink₃' : r₂.sink = some { sink₂ with finalSink := s₃, finalFailed := false } := by
      rw [hr₂]
    obtain ⟨result', r₃, hattempt', h⟩ := h.bind fun e u he ↦ (Act.attempt_ne_error he).elim
    obtain ⟨sink₄, sink₅, hsink₄, hfinal₅, -, rfl⟩ := tempWrite_attempt hsink₃' hattempt'
    cases hsink₄.symm.trans hsink₃'
    refine ⟨sink, sink₅, hsink, ?_, ?_⟩
    · cases hends : headerResult.bind fun _ ↦ result' with
      | ok a =>
        rw [hends] at h
        rcases h with ⟨a, h⟩ | ⟨e, h, he⟩
        · cases h
          rfl
        · cases h
      | error e =>
        rw [hends] at h
        rcases h with ⟨a, h⟩ | ⟨e, h, he⟩
        · cases h
        · cases h
          rfl
    · rw [hfinal₅]
      dsimp only
      rw [Sink.writeBytes_ok hs₃, hfinal₁, hbytes]
      rfl

theorem genuine_of_firstGenuine {results : List (Except ReplayFileWriteError Unit)}
    (h : firstGenuine results = none) : ∀ result ∈ results, genuine result = false := by
  intro result hmem
  have := List.findSome?_eq_none_iff.mp h result hmem
  cases result with
  | ok a => rfl
  | error e => simpa [genuine] using this

/-- The sinks are handed back. -/
theorem handBack_ok {results : List (Except ReplayFileWriteError Unit)} (h : (do
      let r ← Act.get
      match r.sink with
      | none => Act.abort
      | some sink =>
        Act.modify fun r ↦ { r with sink := none }
        pure (sink.finalSink, sink.tempSink, firstGenuine results) :
          RecorderAction (Sink × Sink × Option ReplayFileWriteError)) r =
        .ok (finalSink, tempSink, none) r') :
    ∃ sink, r.sink = some sink ∧ finalSink = sink.finalSink ∧
      ∀ result ∈ results, genuine result = false := by
  rw [Act.get_bind_apply] at h
  cases hsink : r.sink with
  | none =>
    rw [hsink] at h
    cases h
  | some sink =>
    rw [hsink] at h
    simp only [Act.modify_bind_apply, Act.pure_apply] at h
    injection h with hvalue hstate
    injection hvalue with hfinal hvalue
    injection hvalue with htemp herror
    exact ⟨sink, rfl, hfinal.symm, genuine_of_firstGenuine herror⟩

/-- Closing without a genuine error writes what waits and the blob in progress, then the bookmark
section. -/
theorem close_steps (h : close x r = .ok (finalSink, tempSink, none) r') :
    ∃ r₀ r₁ sink, EndsIn (finishPendingStoredKeyframe x r) r₀ ∧ EndsIn (nextBlob x r₀) r₁ ∧
      r₁.sink = some sink ∧
      finalSink.bytes = r₁.endedHeader.asBytes ++ sink.finalSink.bytes.drop headerLen ++
        encodeBookmarkSection x.blake3 r₁.bookmarks := by
  rw [close, Act.get_bind_apply] at h
  split at h
  · cases h
  · obtain ⟨pendingResult, r₀, hpending, h⟩ := Act.bind_eq_ok.mp h
    obtain ⟨blobResult, r₁, hblob, h⟩ := Act.bind_eq_ok.mp h
    simp only at h
    split at h
    · rename_i hgenuine
      obtain ⟨sink, -, -, hresults⟩ := handBack_ok (Act.pure_bind_apply _ _ r₁ ▸ h)
      rw [hresults pendingResult (by simp), hresults blobResult (by simp)] at hgenuine
      rcases hgenuine with hgenuine | hgenuine <;> cases hgenuine
    · obtain ⟨sectionResult, r₂, hsection, h⟩ := Act.bind_eq_ok.mp h
      obtain ⟨sink₂, hsink₂, hfinal, hresults⟩ := handBack_ok h
      obtain ⟨sink, sink', hsink, hsink', hbytes⟩ :=
        writeBookmarkSection_ends (EndsIn.of_attempt hsection (hresults sectionResult (by simp)))
      cases hsink₂.symm.trans hsink'
      exact ⟨r₀, r₁, sink, EndsIn.of_attempt hpending (hresults pendingResult (by simp)),
        EndsIn.of_attempt hblob (hresults blobResult (by simp)), hsink, hfinal ▸ hbytes⟩

/-- Without stored keyframes nothing waits. -/
theorem close_ok (hstored : r.stored = none) (h : close x r = .ok (finalSink, tempSink, none) r') :
    ∃ r₁ sink, EndsIn (nextBlob x r) r₁ ∧ r₁.sink = some sink ∧
      finalSink.bytes = r₁.endedHeader.asBytes ++ sink.finalSink.bytes.drop headerLen ++
        encodeBookmarkSection x.blake3 r₁.bookmarks := by
  obtain ⟨r₀, r₁, sink, hpending, hrest⟩ := close_steps h
  have hnothing : finishPendingStoredKeyframe x r = .ok () r := by
    rw [finishPendingStoredKeyframe, Act.get_bind_apply, hstored]
    rfl
  rw [hnothing] at hpending
  rcases hpending with ⟨a, hpending⟩ | ⟨e, hpending, -⟩
  · cases hpending
    exact ⟨r₁, sink, hrest⟩
  · cases hpending

end Recorder

end SuperShuckie
