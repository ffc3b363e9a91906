import SuperShuckie.Recorder.Resume

/-!
# The temp sink mirrors the stream

Both sinks are written by every call, by different rules: the temp sink gets each packet at once, the
final sink gets whole blobs.  As long as neither fails, the temp sink has what the final sink has and
then the blob in progress (`HasFiles`).

The stream of a Nintendo 3DS file has no blobs.  What was given to the recorder is a list of parts
(`Part`): the packets, and the keyframes, whose bytes are only known once they are encoded.  The
sinks have all of it but for the keyframe that waits and the packets behind it (`Mirrors`).
-/

set_option autoImplicit false

namespace SuperShuckie

open ByteFormat

/-! ## Sinks that do not fail -/

/-- No operation of the sink fails. -/
def Sink.Sound (s : Sink) : Prop := ∀ o ∈ s.script, o = .ok

namespace Sink

variable {s : Sink}

theorem Sound.perform (h : s.Sound) (done : Bytes → Bytes) (kept : Nat → Bytes → Bytes) :
    ∃ s', Sink.perform done kept s = .ok () s' ∧ s'.bytes = done s.bytes ∧ s'.Sound := by
  obtain ⟨bytes, script⟩ := s
  cases script with
  | nil => exact ⟨_, rfl, rfl, h⟩
  | cons o script =>
    obtain rfl : o = .ok := h o List.mem_cons_self
    exact ⟨_, rfl, rfl, fun o ho ↦ h o (List.mem_cons_of_mem _ ho)⟩

theorem Sound.overwriteHeader (h : s.Sound) (header : Bytes) :
    ∃ s', Sink.overwriteHeader header s = .ok () s' ∧
      s'.bytes = header ++ s.bytes.drop header.length ∧ s'.Sound := h.perform _ _

/-- An operation appends bytes to the sink. -/
def Appends {α : Type} (f : SinkAction α) (a : α) (bytes : Bytes) : Prop :=
  ∀ s : Sink, s.Sound → ∃ s', f s = .ok a s' ∧ s'.bytes = s.bytes ++ bytes ∧ s'.Sound

theorem appends_writeBytes (bytes : Bytes) : Appends (writeBytes bytes) () bytes :=
  fun _ h ↦ h.perform _ _

theorem appends_writePacketData (bytes : Bytes) :
    Appends (writePacketData bytes) bytes.length bytes := by
  intro s h
  obtain ⟨s', hok, hbytes, hs'⟩ := appends_writeBytes bytes s h
  exact ⟨s', by rw [writePacketData, Act.bind_apply, hok]; rfl, hbytes, hs'⟩

theorem Appends.bind {α β : Type} {f : SinkAction α} {g : α → SinkAction β} {a : α} {b : β}
    {bytes bytes' : Bytes} (hf : Appends f a bytes) (hg : Appends (g a) b bytes') :
    Appends (f >>= g) b (bytes ++ bytes') := by
  intro s h
  obtain ⟨s', hok, hbytes, hs'⟩ := hf s h
  obtain ⟨s'', hok', hbytes', hs''⟩ := hg s' hs'
  refine ⟨s'', by rw [Act.bind_apply, hok]; exact hok', ?_, hs''⟩
  rw [hbytes', hbytes, List.append_assoc]

theorem Appends.pure {α : Type} (a : α) : Appends (Pure.pure a) a [] :=
  fun s h ↦ ⟨s, rfl, (List.append_nil _).symm, h⟩

/-- Truncate to a size, then append. -/
theorem Appends.truncate {α : Type} {f : SinkAction α} {a : α} {bytes : Bytes}
    (hf : Appends f a bytes) (size : Nat) (h : s.Sound) :
    ∃ s', (Sink.truncate size >>= fun _ ↦ f) s = .ok a s' ∧
      s'.bytes = s.bytes.take size ++ bytes ∧ s'.Sound := by
  obtain ⟨s', hok, hbytes, hs'⟩ := h.perform (List.take size) fun _ stored ↦ stored
  obtain ⟨s'', hok', hbytes', hs''⟩ := hf s' hs'
  refine ⟨s'', ?_, by rw [hbytes', hbytes], hs''⟩
  rw [Act.bind_apply, Sink.truncate, hok]
  exact hok'

theorem appends_flush : Appends flush () [] := by
  intro s h
  obtain ⟨s', hok, hbytes, hs'⟩ := h.perform id fun _ stored ↦ stored
  exact ⟨s', hok, by rw [hbytes, List.append_nil]; rfl, hs'⟩

end Sink

namespace Recorder

/-! ## Both files -/

/-- The recorder is open and neither sink has failed or will fail; the final sink holds `file`, which
ends where the next blob starts, and the temp sink holds `file` and the blob in progress. -/
structure HasFiles (file : Bytes) (r : Recorder) : Prop where
  sink : ∃ finalSink tempSink, r.sink = some ⟨finalSink, tempSink, false, none⟩ ∧
    finalSink.Sound ∧ tempSink.Sound ∧ finalSink.bytes = file ∧
    tempSink.bytes = file ++ r.currentBlob
  offset : r.currentBlobOffset = file.length
  header : headerLen ≤ file.length

variable {file : Bytes} {r r' : Recorder}

theorem HasFiles.congr (h : HasFiles file r) (hsink : r'.sink = r.sink)
    (hoffset : r'.currentBlobOffset = r.currentBlobOffset)
    (hblob : r'.currentBlob = r.currentBlob) : HasFiles file r' := by
  refine ⟨?_, hoffset.trans h.offset, h.header⟩
  rw [hsink, hblob]
  exact h.sink

theorem HasFiles.unique {file' : Bytes} (h : HasFiles file r) (h' : HasFiles file' r) :
    file = file' := by
  obtain ⟨f, t, hsink, -, -, hbytes, -⟩ := h.sink
  obtain ⟨f', t', hsink', -, -, hbytes', -⟩ := h'.sink
  cases hsink.symm.trans hsink'
  rw [← hbytes, hbytes']

theorem HasFiles.assertNotClosed (h : HasFiles file r) : assertNotClosed r = .ok () r := by
  obtain ⟨f, t, hsink, -⟩ := h.sink
  simp only [Recorder.assertNotClosed, isClosed, hsink, Option.isNone_some, Bool.false_eq_true,
    if_false]

theorem HasFiles.refuseIfFinalFailed (h : HasFiles file r) : refuseIfFinalFailed r = .ok () r := by
  obtain ⟨f, t, hsink, -⟩ := h.sink
  simp only [Recorder.refuseIfFinalFailed, hsink, Option.any_some, Bool.false_eq_true, if_false]

theorem finalWrite_of_ok {α : Type} {f : Sink.SinkAction α} {v : α} {s : Sink} {sink : SinkTuple}
    (hsink : r.sink = some sink) (hf : f sink.finalSink = .ok v s) :
    finalWrite f r = .ok v { r with sink := some { sink with finalSink := s, finalFailed := false } } := by
  rw [finalWrite, hsink]
  simp only [hf]

theorem tempWrite_of_ok {f : Sink.SinkAction Unit} {s : Sink} (sink : SinkTuple)
    (hsink : r.sink = some sink) (hfailed : sink.tempFailed = none)
    (hf : f sink.tempSink = .ok () s) :
    tempWrite f r = .ok () { r with sink := some { sink with tempSink := s } } := by
  rw [tempWrite, hsink]
  simp only [hfailed, hf, Option.isSome_none, Bool.false_eq_true, if_false]

/-- `r'` is `r` with other files and with the given blob in progress. -/
def OtherFiles (r r' : Recorder) : Prop :=
  r' = { r with sink := r'.sink, currentBlobOffset := r'.currentBlobOffset }

/-- Unless the position overflows, the operation appends `bytes` to the final sink and does nothing
else but bring the temp sink to the same. -/
def Grows (file bytes : Bytes) (r : Recorder) : Outcome ReplayFileWriteError Recorder Unit → Prop
  | .ok _ r' => HasFiles (file ++ bytes) r' ∧ OtherFiles r r'
  | .error _ _ => False
  | .abort => True

/-- Data that goes to both sinks directly. -/
theorem grows_append {α : Type} {f : Sink.SinkAction α} {g : Sink.SinkAction Unit} {v : α}
    {bytes : Bytes} (h : HasFiles file r) (hblob : r.currentBlob = [])
    (hf : Sink.Appends f v bytes) (hg : Sink.Appends g () bytes) {n : Nat}
    (hn : n = bytes.length) : Grows file bytes r ((do
      let _ ← finalWrite f
      let r ← Act.get
      advanceOffset r.currentBlobOffset n
      tempWrite g) r) := by
  obtain ⟨finalSink, tempSink, hsink, hfinal, htemp, hfile, htempBytes⟩ := h.sink
  obtain ⟨s, hs, hsBytes, hsSound⟩ := hf finalSink hfinal
  obtain ⟨t, ht, htBytes, htSound⟩ := hg tempSink htemp
  rw [Act.bind_apply, finalWrite_of_ok hsink hs]
  dsimp only
  rw [Act.get_bind_apply, Act.bind_apply, advanceOffset]
  split_ifs with hlt
  · rw [Act.modify_apply]
    dsimp only
    rw [tempWrite_of_ok ⟨s, tempSink, false, none⟩ rfl rfl ht]
    refine ⟨⟨⟨s, t, rfl, hsSound, htSound, by rw [hsBytes, hfile], ?_⟩, ?_, ?_⟩, rfl⟩
    · rw [htBytes, htempBytes, hblob, List.append_nil]
      exact (List.append_nil _).symm
    · rw [List.length_append, ← hn, ← h.offset]
    · rw [List.length_append]
      exact h.header.trans (Nat.le_add_right _ _)
  · trivial

/-- A blob that replaces what the temp sink has of the blob in progress. -/
theorem grows_blob (h : HasFiles file r) (packet : Bytes) {clear : Recorder → Recorder}
    (hclear : ∀ sink, clear { r with sink } = { clear r with sink })
    (hblob : (clear r).currentBlob = []) :
    match ((do
      let written ← finalWrite do
        Sink.truncate r.currentBlobOffset
        let written ← Sink.writePacketData packet
        Sink.flush
        pure written
      Act.modify clear
      advanceOffset r.currentBlobOffset written
      tempWrite do
        Sink.truncate r.currentBlobOffset
        let _ ← Sink.writePacketData packet
        pure () : RecorderAction Unit) r) with
    | .ok _ r' => HasFiles (file ++ packet) r' ∧ OtherFiles (clear r) r'
    | .error _ _ => False
    | .abort => True := by
  obtain ⟨finalSink, tempSink, hsink, hfinal, htemp, hfile, htempBytes⟩ := h.sink
  have hwrite : Sink.Appends (do
      let written ← Sink.writePacketData packet
      Sink.flush
      pure written) packet.length packet := by
    have hflush : Sink.Appends (Sink.flush >>= fun _ ↦ pure packet.length) packet.length [] :=
      Sink.appends_flush.bind (.pure packet.length)
    have := (Sink.appends_writePacketData packet).bind
      (g := fun written ↦ Sink.flush >>= fun _ ↦ pure written) hflush
    rwa [List.append_nil] at this
  have hwriteTemp : Sink.Appends (do
      let _ ← Sink.writePacketData packet
      pure ()) () packet := by
    have := (Sink.appends_writePacketData packet).bind (g := fun _ ↦ pure ()) (.pure ())
    rwa [List.append_nil] at this
  obtain ⟨s, hs, hsBytes, hsSound⟩ := hwrite.truncate r.currentBlobOffset hfinal
  obtain ⟨t, ht, htBytes, htSound⟩ := hwriteTemp.truncate r.currentBlobOffset htemp
  rw [Act.bind_apply, finalWrite_of_ok hsink hs]
  dsimp only
  rw [Act.modify_bind_apply, hclear, Act.bind_apply, advanceOffset]
  split_ifs with hlt
  · rw [Act.modify_apply]
    dsimp only
    rw [tempWrite_of_ok ⟨s, tempSink, false, none⟩ rfl rfl ht]
    have htake : file.take r.currentBlobOffset = file := List.take_of_length_le (by rw [h.offset])
    refine ⟨⟨⟨s, t, rfl, hsSound, htSound, by rw [hsBytes, hfile, htake], ?_⟩, ?_, ?_⟩, rfl⟩
    · rw [htBytes, htempBytes, List.take_append_of_le_length (by rw [h.offset]), htake]
      dsimp only
      rw [hblob, List.append_nil]
    · rw [List.length_append, ← h.offset]
    · rw [List.length_append]
      exact h.header.trans (Nat.le_add_right _ _)
  · trivial

end Recorder

/-! ## The stream of a Nintendo 3DS file -/

/-- A part of the stream: a packet and the bytes that follow it, or a keyframe still to be
encoded. -/
inductive Part
  | packet (packet : Packet) (extra : Bytes)
  | keyframe (keyframe : PendingKeyframe)

/-- The bytes of a part: a keyframe is its packet, its frame and, for one of level 0, perhaps a
snapshot of the bookmarks. -/
def Part.Writes : Part → Bytes → Prop
  | .packet p extra, bytes => bytes = p.write ++ extra
  | .keyframe k, bytes => ∃ stateLen uncompressedLen frame snapshot,
      bytes = (Packet.storedKeyframe
        { metadata := k.metadata, level := UInt8.ofNat k.level.val, stateLen, uncompressedLen
          frameLen := UInt64.ofNat frame.length, frameOffset := 0 }).write ++ frame ++ snapshot ∧
      (snapshot = [] ∨ k.level = 0 ∧ ∃ table, snapshot = (Packet.bookmarkTable table).write)

/-- The bytes are those of the parts, one after the other. -/
def Writes (parts : List Part) (bytes : Bytes) : Prop :=
  ∃ pieces, List.Forall₂ Part.Writes parts pieces ∧ bytes = pieces.flatten

theorem writes_nil {bytes : Bytes} : Writes [] bytes ↔ bytes = [] := by
  constructor
  · rintro ⟨pieces, hpieces, rfl⟩
    cases hpieces
    rfl
  · rintro rfl
    exact ⟨[], .nil, rfl⟩

theorem Writes.append {parts parts' : List Part} {bytes bytes' : Bytes} (h : Writes parts bytes)
    (h' : Writes parts' bytes') : Writes (parts ++ parts') (bytes ++ bytes') := by
  obtain ⟨pieces, hpieces, rfl⟩ := h
  obtain ⟨pieces', hpieces', rfl⟩ := h'
  exact ⟨pieces ++ pieces', List.rel_append hpieces hpieces', by rw [List.flatten_append]⟩

theorem Writes.singleton (part : Part) {bytes : Bytes} (h : part.Writes bytes) :
    Writes [part] bytes := ⟨[bytes], .cons h .nil, by simp⟩

/-- The file has the parts of the stream, but for the keyframe that waits and the packets that wait
behind it. -/
def Streamed (patch : Bytes) (log : List Part) (file : Bytes) (pending : Option PendingKeyframe)
    (packets : Bytes) : Prop :=
  ∃ written waiting bytes, log = written ++ (pending.map Part.keyframe).toList ++ waiting ∧
    Writes written bytes ∧ file.drop headerLen = patch ++ bytes ∧
    Writes waiting packets ∧ (pending = none → waiting = [])

/-- While nothing waits, a part that is written ends the stream. -/
theorem Streamed.add {patch file own packets : Bytes} {log : List Part} {part : Part}
    (h : Streamed patch log file none packets) (hlen : headerLen ≤ file.length)
    (hown : part.Writes own) : Streamed patch (log ++ [part]) (file ++ own) none packets := by
  obtain ⟨written, waiting, bytes, hlog, hwritten, hdrop, hwaiting, hnone⟩ := h
  obtain rfl := hnone rfl
  refine ⟨written ++ [part], [], bytes ++ own, ?_, hwritten.append (Writes.singleton _ hown), ?_,
    hwaiting, fun _ ↦ rfl⟩
  · rw [hlog]
    simp
  · rw [List.drop_append_of_le_length hlen, hdrop, List.append_assoc]

namespace Recorder

/-- The temp sink mirrors the stream: both sinks have the same file and the temp sink the blob in
progress after it, or, for a Nintendo 3DS file, the stream so far but for what waits. -/
structure Mirrors (isStored : Bool) (patch : Bytes) (log : List Part) (r : Recorder) : Prop where
  kind : r.stored.isSome = isStored
  files : ∃ file, HasFiles file r ∧
    ∀ stored, r.stored = some stored → r.currentBlob = [] ∧
      Streamed patch log file stored.pending stored.pendingPackets
  masks : ∀ stored, r.stored = some stored → stored.pending.isSome = true →
    r.settings.storedKeyframeMaskTransients = true

/-- What a packet adds to the stream, in a Nintendo 3DS file. -/
def part (r : Recorder) (packet : Packet) : List Part :=
  if r.stored.isSome then [.packet packet []] else []

/-- The call added the parts to the stream, or it failed and added nothing. -/
def Ends {α : Type} (isStored : Bool) (patch : Bytes) (log parts : List Part) :
    Outcome ReplayFileWriteError Recorder α → Prop
  | .ok _ r' => Mirrors isStored patch (log ++ parts) r'
  | .error _ r' => Mirrors isStored patch log r'
  | .abort => True

variable {isStored : Bool} {patch : Bytes} {log : List Part} {r r' : Recorder}

theorem Mirrors.congr (h : Mirrors isStored patch log r) (hsink : r'.sink = r.sink)
    (hoffset : r'.currentBlobOffset = r.currentBlobOffset)
    (hblob : r'.currentBlob = r.currentBlob) (hstored : r'.stored = r.stored)
    (hsettings : r'.settings = r.settings) : Mirrors isStored patch log r' := by
  obtain ⟨hkind, ⟨file, hfile, hstream⟩, hmasks⟩ := h
  refine ⟨by rw [hstored]; exact hkind, ⟨file, hfile.congr hsink hoffset hblob, fun stored h ↦ ?_⟩,
    fun stored h ↦ ?_⟩
  · rw [hblob]
    exact hstream stored (hstored ▸ h)
  · rw [hsettings]
    exact hmasks stored (hstored ▸ h)

/-! ## Blobs -/

/-- The recorder of a file with blobs has its files. -/
def InBlobs (r : Recorder) : Prop := r.stored = none ∧ ∃ file, HasFiles file r

theorem Mirrors.inBlobs (h : Mirrors false patch log r) : InBlobs r := by
  obtain ⟨file, hfile, -⟩ := h.files
  exact ⟨Option.isSome_eq_false_iff.mp h.kind |> Option.isNone_iff_eq_none.mp, file, hfile⟩

theorem InBlobs.mirrors (h : InBlobs r) : Mirrors false patch log r := by
  obtain ⟨hstored, file, hfile⟩ := h
  refine ⟨by rw [hstored]; rfl, ⟨file, hfile, fun stored h ↦ ?_⟩, fun stored h ↦ ?_⟩
  · rw [hstored] at h
    cases h
  · rw [hstored] at h
    cases h

theorem InBlobs.congr (h : InBlobs r) (hstored : r'.stored = r.stored) (hsink : r'.sink = r.sink)
    (hoffset : r'.currentBlobOffset = r.currentBlobOffset)
    (hblob : r'.currentBlob = r.currentBlob) : InBlobs r' := by
  obtain ⟨hno, file, hfile⟩ := h
  exact ⟨hstored.trans hno, file, hfile.congr hsink hoffset hblob⟩

/-- The operation leaves a recorder with its files, whatever it returns. -/
abbrev KeepsBlobs {α : Type} (f : RecorderAction α) : Prop :=
  Act.Hoare InBlobs f (fun _ ↦ InBlobs) InBlobs

theorem keepsBlobs_modify {f : Recorder → Recorder} (hstored : ∀ r, (f r).stored = r.stored)
    (hsink : ∀ r, (f r).sink = r.sink)
    (hoffset : ∀ r, (f r).currentBlobOffset = r.currentBlobOffset)
    (hblob : ∀ r, (f r).currentBlob = r.currentBlob) : KeepsBlobs (Act.modify f) :=
  Act.Hoare.modify fun r h ↦ h.congr (hstored r) (hsink r) (hoffset r) (hblob r)

theorem KeepsBlobs.modify_bind {α : Type} {f : Recorder → Recorder} {g : Unit → RecorderAction α}
    (hstored : ∀ r, (f r).stored = r.stored) (hsink : ∀ r, (f r).sink = r.sink)
    (hoffset : ∀ r, (f r).currentBlobOffset = r.currentBlobOffset)
    (hblob : ∀ r, (f r).currentBlob = r.currentBlob) (hg : KeepsBlobs (g ())) :
    KeepsBlobs (Act.modify f >>= g) :=
  (keepsBlobs_modify hstored hsink hoffset hblob).bind fun _ ↦ hg

theorem KeepsBlobs.get_bind {α : Type} {f : Recorder → RecorderAction α}
    (h : ∀ r, KeepsBlobs (f r)) : KeepsBlobs (Act.get >>= f) := fun r hr ↦ h r r hr

theorem ends_of_keepsBlobs {α : Type} {f : RecorderAction α} (hf : KeepsBlobs f) (hr : InBlobs r) :
    Ends false patch log [] (f r) := by
  cases hrun : f r with
  | ok a r' =>
    rw [Ends, List.append_nil]
    exact (hf.ok hr hrun).mirrors
  | error e r' => exact (hf.error hr hrun).mirrors
  | abort => trivial

/-- A packet goes to the end of the blob in progress and of the temp sink. -/
theorem keepsBlobs_writePacketData (packet : Packet) : KeepsBlobs (writePacketData packet) := by
  intro r hr
  obtain ⟨hstored, file, hfile⟩ := hr
  rw [writePacketData, Act.get_bind_apply, hstored]
  simp only [Option.isSome_none, Bool.false_eq_true, if_false]
  rw [Act.bind_apply, hfile.assertNotClosed]
  dsimp only
  rw [vecWritePacketData]
  split_ifs with hfits
  · simp only [Act.ofExcept, Act.pure_bind_apply, Act.modify_bind_apply]
    obtain ⟨finalSink, tempSink, hsink, hfinal, htemp, hbytes, htempBytes⟩ := hfile.sink
    have hwrite : Sink.Appends (do
        let _ ← Sink.writePacketData packet.write
        pure ()) () packet.write := by
      have := (Sink.appends_writePacketData packet.write).bind (g := fun _ ↦ pure ()) (.pure ())
      rwa [List.append_nil] at this
    obtain ⟨t, ht, htBytes, htSound⟩ := hwrite tempSink htemp
    rw [tempWrite_of_ok (r := { r with currentBlob := r.currentBlob ++ packet.write })
      ⟨finalSink, tempSink, false, none⟩ hsink rfl ht]
    refine ⟨hstored, file, ⟨finalSink, t, rfl, hfinal, htSound, hbytes, ?_⟩, hfile.offset,
      hfile.header⟩
    rw [htBytes, htempBytes, List.append_assoc]
  · exact ⟨hstored, file, hfile⟩

/-! ## Packets -/

theorem grows_writeDirectNow {file : Bytes} (h : HasFiles file r) (hblob : r.currentBlob = [])
    (packet extra : Bytes) : Grows file (packet ++ extra) r (writeDirectNow packet extra r) := by
  have hpair : Sink.Appends (do
      let _ ← Sink.writePacketData packet
      Sink.writeBytes extra) () (packet ++ extra) :=
    (Sink.appends_writePacketData packet).bind (g := fun _ ↦ Sink.writeBytes extra)
      (Sink.appends_writeBytes extra)
  have hgrows := grows_append h hblob hpair hpair (by rw [List.length_append])
  rw [writeDirectNow, Act.bind_apply, h.assertNotClosed]
  dsimp only
  rw [Act.bind_apply, h.refuseIfFinalFailed]
  exact hgrows

/-- While nothing waits, a part that both sinks get ends the stream. -/
theorem Mirrors.add (h : Mirrors isStored patch log r) {stored : StoredKeyframes}
    (hstored : r.stored = some stored) (hpending : stored.pending = none) {file own : Bytes}
    {part : Part} (hfile' : HasFiles (file ++ own) r') (hsame : OtherFiles r r')
    (hfile : HasFiles file r) (hown : part.Writes own) : Mirrors isStored patch (log ++ [part]) r' := by
  obtain ⟨hkind, ⟨file', hfiles, hstream⟩, hmasks⟩ := h
  obtain rfl := hfiles.unique hfile
  refine ⟨by rw [hsame]; exact hkind, ⟨_, hfile', fun stored' h ↦ ?_⟩, fun stored' h ↦ ?_⟩
  · rw [hsame] at h
    obtain rfl : stored = stored' := Option.some.inj (hstored.symm.trans h)
    obtain ⟨hblob, hstreamed⟩ := hstream stored hstored
    rw [hpending] at hstreamed ⊢
    exact ⟨by rw [hsame]; exact hblob, hstreamed.add hfile.header hown⟩
  · rw [hsame] at h ⊢
    exact hmasks stored' h

theorem ends_writeDirect (h : Mirrors isStored patch log r) {stored : StoredKeyframes}
    (hstored : r.stored = some stored) (packet : Packet) {extra : Bytes}
    (hextra : extra = [] ∨ stored.pending = none) :
    Ends isStored patch log [.packet packet extra] (writeDirect packet.write extra r) := by
  obtain ⟨hkind, ⟨file, hfile, hstream⟩, hmasks⟩ := id h
  obtain ⟨hblob, written, waiting, bytes, hlog, hwritten, hdrop, hwaiting, hnone⟩ :=
    hstream stored hstored
  rw [writeDirect, Act.get_bind_apply, hstored]
  dsimp only
  cases hpending : stored.pending with
  | some keyframe =>
    obtain rfl : extra = [] := hextra.resolve_right (by rw [hpending]; exact fun h ↦ by cases h)
    simp only [Option.isSome_some, if_true]
    rw [Act.bind_apply, hfile.assertNotClosed]
    dsimp only
    rw [vecWritePacketData]
    split_ifs with hfits
    · simp only [Act.ofExcept, Act.pure_bind_apply, Act.modify_bind_apply]
      rw [vecWriteBytes, if_pos (by rw [List.length_append, List.length_nil]; exact hfits)]
      simp only [Act.pure_bind_apply, Act.modify_apply, List.append_nil]
      rw [hstored] at hkind
      refine ⟨hkind, ⟨file, hfile.congr rfl rfl rfl, fun stored' h ↦ ?_⟩, fun stored' h ↦ ?_⟩
      · cases h
        refine ⟨hblob, written, waiting ++ [.packet packet []], bytes, ?_, hwritten, hdrop, ?_,
          fun hno ↦ ?_⟩
        · simp only [hlog, hpending, List.append_assoc]
        · exact hwaiting.append (Writes.singleton (.packet packet [])
            (List.append_nil packet.write).symm)
        · cases hno
      · cases h
        exact fun _ ↦ hmasks stored hstored (by rw [hpending]; rfl)
    · exact h
  | none =>
    simp only [Option.isSome_none, Bool.false_eq_true, if_false]
    have hgrows := grows_writeDirectNow hfile hblob packet.write extra
    cases hrun : writeDirectNow packet.write extra r with
    | ok u r' =>
      rw [hrun] at hgrows
      exact h.add hstored hpending hgrows.1 hgrows.2 hfile rfl
    | error e r' =>
      rw [hrun] at hgrows
      exact hgrows.elim
    | abort => trivial

/-- **A packet is added to the stream**, at the end of what waits if something does; in another file
it is added to the blob in progress. -/
theorem ends_writePacketData (h : Mirrors isStored patch log r) (packet : Packet) :
    Ends isStored patch log (r.part packet) (writePacketData packet r) := by
  cases hstored : r.stored with
  | some stored =>
    rw [writePacketData, Act.get_bind_apply, part, hstored]
    simp only [Option.isSome_some, if_true]
    exact ends_writeDirect h hstored packet (.inl rfl)
  | none =>
    obtain rfl : false = isStored := by
      have := h.kind
      rwa [hstored] at this
    rw [part, hstored]
    exact ends_of_keepsBlobs (keepsBlobs_writePacketData packet) h.inBlobs

/-- Nothing but a change that the files do not show comes after a call. -/
theorem Ends.then_modify {f : RecorderAction Unit} {parts : List Part}
    (h : Ends isStored patch log parts (f r)) {g : Recorder → Recorder}
    (hg : ∀ r', Mirrors isStored patch (log ++ parts) r' → Mirrors isStored patch (log ++ parts) (g r')) :
    Ends isStored patch log parts ((f >>= fun _ ↦ Act.modify g) r) := by
  rw [Act.bind_apply]
  cases hrun : f r with
  | ok u r' =>
    rw [hrun] at h
    exact hg r' h
  | error e r' =>
    rw [hrun] at h
    exact h
  | abort => trivial

/-- Noting something about the keyframes to come does not show in the files. -/
theorem Mirrors.mapStored (h : Mirrors isStored patch log r) {f : StoredKeyframes → StoredKeyframes}
    (hpending : ∀ s, (f s).pending = s.pending)
    (hpackets : ∀ s, (f s).pendingPackets = s.pendingPackets) :
    Mirrors isStored patch log { r with stored := r.stored.map f } := by
  obtain ⟨hkind, ⟨file, hfile, hstream⟩, hmasks⟩ := h
  refine ⟨by rw [← hkind]; exact Option.isSome_map, ⟨file, hfile.congr rfl rfl rfl,
    fun stored h ↦ ?_⟩, fun stored h ↦ ?_⟩
  · obtain ⟨s, hs, rfl⟩ := Option.map_eq_some_iff.mp h
    obtain ⟨hblob, hstreamed⟩ := hstream s hs
    refine ⟨hblob, ?_⟩
    rw [hpending, hpackets]
    exact hstreamed
  · obtain ⟨s, hs, rfl⟩ := Option.map_eq_some_iff.mp h
    rw [hpending]
    exact hmasks s hs

theorem Mirrors.assertNotClosed (h : Mirrors isStored patch log r) : assertNotClosed r = .ok () r := by
  obtain ⟨file, hfile, -⟩ := h.files
  exact hfile.assertNotClosed

theorem ends_writeBookmarkSnapshot (h : Mirrors isStored patch log r) :
    Ends isStored patch log (r.part (.bookmarkTable r.bookmarks)) (writeBookmarkSnapshot r) := by
  have hmirrors : Mirrors isStored patch log { r with bookmarkSnapshotPending := false } :=
    h.congr rfl rfl rfl rfl rfl
  exact ends_writePacketData hmirrors (.bookmarkTable r.bookmarks)

/-- The header is written over the one in the files. -/
theorem syncHeader_of_files {file : Bytes} (h : HasFiles file r) :
    ∃ r', syncHeader r = .ok () r' ∧ HasFiles (r.header.asBytes ++ file.drop headerLen) r' ∧
      OtherFiles r r' := by
  obtain ⟨finalSink, tempSink, hsink, hfinal, htemp, hbytes, htempBytes⟩ := h.sink
  have hlen := ReplayHeaderRaw.length_asBytes r.header
  have hsize : (r.header.asBytes ++ file.drop headerLen).length = file.length := by
    rw [List.length_append, List.length_drop, hlen]
    have := h.header
    omega
  obtain ⟨s, hs, hsBytes, hsSound⟩ := hfinal.overwriteHeader r.header.asBytes
  obtain ⟨t, ht, htBytes, htSound⟩ := htemp.overwriteHeader r.header.asBytes
  rw [syncHeader, Act.bind_apply, h.assertNotClosed]
  dsimp only
  rw [Act.bind_apply, h.refuseIfFinalFailed]
  dsimp only
  rw [Act.get_bind_apply, Act.bind_apply, finalWrite_of_ok hsink hs]
  dsimp only
  rw [tempWrite_of_ok ⟨s, tempSink, false, none⟩ rfl rfl ht]
  refine ⟨_, rfl, ⟨⟨s, t, rfl, hsSound, htSound, ?_, ?_⟩, ?_, ?_⟩, rfl⟩
  · rw [hsBytes, hbytes, hlen]
  · rw [htBytes, htempBytes, hlen, List.drop_append_of_le_length h.header, List.append_assoc]
  · rw [hsize]
    exact h.offset
  · rw [hsize]
    exact h.header

theorem ends_syncHeader (h : Mirrors isStored patch log r) : Ends isStored patch log [] (syncHeader r) := by
  obtain ⟨hkind, ⟨file, hfile, hstream⟩, hmasks⟩ := h
  obtain ⟨r', hrun, hfile', hsame⟩ := syncHeader_of_files hfile
  have hlen := ReplayHeaderRaw.length_asBytes r.header
  rw [hrun, Ends, List.append_nil]
  refine ⟨by rw [hsame]; exact hkind, ⟨_, hfile', fun stored h ↦ ?_⟩, fun stored h ↦ ?_⟩
  · rw [hsame] at h
    obtain ⟨hblob, written, waiting, bytes, hlog, hwritten, hdrop, hrest⟩ := hstream stored h
    refine ⟨by rw [hsame]; exact hblob, written, waiting, bytes, hlog, hwritten, ?_, hrest⟩
    rw [List.drop_append_of_le_length (by rw [hlen]), ← hlen, List.drop_length, List.nil_append,
      hlen, hdrop]
  · rw [hsame] at h ⊢
    exact hmasks stored h

/-! ## Keyframes -/

variable {x : Externals}

theorem keepsBlobs_nextBlob : KeepsBlobs (nextBlob x) := by
  intro r hr
  obtain ⟨hstored, file, hfile⟩ := hr
  rw [nextBlob, Act.bind_apply, hfile.assertNotClosed]
  dsimp only
  rw [Act.get_bind_apply]
  cases r.currentBlobKeyframes with
  | nil => exact ⟨hstored, file, hfile⟩
  | cons first rest =>
    dsimp only
    cases x.zstd.compressData r.currentBlob r.settings.compressionLevel with
    | error e => exact ⟨hstored, file, hfile⟩
    | ok compressed =>
      have hclear : ∀ sink, clearBlob { r with sink } = { clearBlob r with sink } := fun sink ↦ rfl
      have hgrows := grows_blob hfile
        (Packet.compressedBlob (r.compressedBlob compressed first)).write hclear rfl
      dsimp only
      revert hgrows
      generalize ((finalWrite do
        Sink.truncate r.currentBlobOffset
        let written ← Sink.writePacketData
          (Packet.compressedBlob (r.compressedBlob compressed first)).write
        Sink.flush
        pure written) >>= _ : RecorderAction Unit) r = o
      intro hgrows
      cases o with
      | ok u r' =>
        obtain ⟨hfile', hsame⟩ := hgrows
        exact ⟨by rw [hsame]; exact hstored, _, hfile'⟩
      | error e r' => exact hgrows.elim
      | abort => trivial

theorem keepsBlobs_insertKeyframeWith (state : Bytes) (elapsedMillis : TimestampMillis)
    (encoding : KeyframeEncoding) : KeepsBlobs (insertKeyframeWith x state elapsedMillis encoding) := by
  intro r hr
  rw [insertKeyframeWith, Act.get_bind_apply, hr.1]
  simp only [Option.isSome_none, Bool.false_eq_true, if_false]
  have hmirrors : Mirrors false [] [] r := hr.mirrors
  have hopen := hmirrors.assertNotClosed
  rw [Act.bind_apply, hopen]
  dsimp only
  split_ifs
  · exact hr
  · have hsplit : KeepsBlobs (splitBlob x) := by
      refine .get_bind fun r ↦ ?_
      split_ifs
      · exact keepsBlobs_nextBlob.bind fun _ ↦ keepsBlobs_modify (fun _ ↦ rfl) (fun _ ↦ rfl)
          (fun _ ↦ rfl) fun _ ↦ rfl
      · exact Act.Hoare.pure fun r hr ↦ hr
    have hsnapshot : KeepsBlobs writeBookmarkSnapshot :=
      .modify_bind (fun _ ↦ rfl) (fun _ ↦ rfl) (fun _ ↦ rfl) (fun _ ↦ rfl)
        (.get_bind fun r ↦ keepsBlobs_writePacketData _)
    have hframe : KeepsBlobs (Act.get >>= fun r : Recorder ↦ pure r.elapsedFrames) :=
      .get_bind fun r ↦ Act.Hoare.pure fun r hr ↦ hr
    refine (show KeepsBlobs _ from ?_) r hr
    refine KeepsBlobs.modify_bind (fun _ ↦ rfl) (fun _ ↦ rfl) (fun _ ↦ rfl) (fun _ ↦ rfl) ?_
    refine hsplit.bind fun _ ↦ KeepsBlobs.get_bind fun r ↦ ?_
    refine KeepsBlobs.modify_bind (fun _ ↦ rfl) (fun _ ↦ rfl) (fun _ ↦ rfl) (fun _ ↦ rfl) ?_
    refine (keepsBlobs_writePacketData _).bind fun _ ↦ ?_
    refine KeepsBlobs.modify_bind (fun _ ↦ rfl) (fun _ ↦ rfl) (fun _ ↦ rfl) (fun _ ↦ rfl) ?_
    refine KeepsBlobs.get_bind fun r ↦ ?_
    split_ifs
    · exact hsnapshot.bind fun _ ↦ hframe
    · exact hframe

end Recorder

end SuperShuckie
