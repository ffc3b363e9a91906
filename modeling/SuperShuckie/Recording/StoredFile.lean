import SuperShuckie.Recording.Course
import SuperShuckie.Player.Opening

/-!
# Files of stored keyframes

A Nintendo 3DS recording is one stream of packets after the header and the patch.  Opening what a
recorder has written so far, or the file that it left, gives the packets that were given to it, in
their order (`packets_of_recording`): all of them, or those before one that a player refuses.
-/

set_option autoImplicit false

namespace SuperShuckie

open ByteFormat Reader OpenedFile

/-! ## Reading a stream back -/

/-- The packets that a part of the stream is read back as. -/
def Part.ReadAs : Part → List Packet → Prop
  | .packet p _, packets => packets = [p.readBack]
  | .keyframe k, packets => ∃ stateLen uncompressedLen frameLen frameOffset tables,
      packets = .storedKeyframe
        { metadata := k.metadata, level := UInt8.ofNat k.level.val, stateLen, uncompressedLen
          frameLen, frameOffset } :: tables ∧
      ∀ p ∈ tables, ∃ table, p = .bookmarkTable table

/-- More link traffic than a frame can have is refused. -/
theorem readAll_serialIn_long (version : Nat) {data : ByteVec} (hlong : maxSerialInBytes < data.length)
    (hlen : data.length < 2 ^ 64) (rest : Bytes) :
    ∃ e, Packet.readAll version ((Packet.serialIn data).write ++ rest) = .error e := by
  obtain ⟨e, hlength⟩ : ∃ e, readSerialIn (ByteVec.write data ++ rest) = .error e := by
    refine ⟨.parseFail
      s!"SerialIn packet of {data.length} bytes is longer than the {maxSerialInBytes} allowed", ?_⟩
    rw [readSerialIn, ByteVec.write, List.append_assoc, bind_apply, Usize.reads hlen]
    change (if maxSerialInBytes < data.length then throw _ else _ : PacketReader ByteVec) _ = _
    rw [if_pos hlong]
    rfl
  have hpayload : Packet.readPayload version .serialIn (ByteVec.write data ++ rest) = .error e := by
    change (fun r ↦ (Packet.serialIn r.1, r.2)) <$> readSerialIn (ByteVec.write data ++ rest) = _
    rw [hlength]
    rfl
  exact ⟨e, hpayload⟩

variable {version : Nat} {part : Part} {log : List Part} {bytes : Bytes}

/-- A part is read back, or it is refused. -/
theorem Part.Writes.read (hversion : 3 ≤ version) (h : part.Writes bytes) (hown : part.Own)
    (hlen : bytes.length < 2 ^ 64) :
    (∃ entries : List (Bytes × Packet), bytes = writeStream entries ∧
      (∀ e ∈ entries, Reads (Packet.readAll version) e.1 e.2) ∧
      ∀ more streamEnd, part.ReadAs ((placeStream entries more).map (withFrameOffset streamEnd))) ∨
    ∀ rest, bytes ++ rest ≠ [] ∧ ∃ e, Packet.readAll version (bytes ++ rest) = .error e := by
  cases part with
  | packet p extra =>
    obtain ⟨rfl, hnot⟩ := hown
    have hbytes : bytes = p.write := by
      rw [show bytes = p.write ++ [] from h, List.append_nil]
    subst hbytes
    by_cases hreadable : p.Readable
    · refine .inl ⟨[(p.write, p.readBack)], by simp [writeStream], fun e he ↦ ?_,
        fun more streamEnd ↦ ?_⟩
      · rw [List.mem_singleton] at he
        subst he
        exact Packet.reads hversion hreadable hlen
      · cases p <;> first | rfl | exact hreadable.elim
    · right
      cases p with
      | serialIn data =>
        intro rest
        have hshort : data.length < 2 ^ 64 := by
          refine Nat.lt_of_le_of_lt ?_ hlen
          simp only [Packet.write, Packet.writePayload, ByteVec.write, List.length_cons,
            List.length_append]
          omega
        exact ⟨by simp [Packet.write], readAll_serialIn_long version (Nat.lt_of_not_le hreadable)
          hshort rest⟩
      | storedKeyframe k => exact (hnot k rfl).elim
      | _ => exact (hreadable trivial).elim
  | keyframe k =>
    left
    obtain ⟨stateLen, uncompressedLen, frame, snapshot, rfl, hsnapshot⟩ := h
    simp only [List.length_append] at hlen
    have hframe : frame.length = (UInt64.ofNat frame.length).toNat := by
      rw [UInt64.toNat_ofNat_of_lt']
      exact Nat.lt_of_le_of_lt (by omega) hlen
    set keyframe : StoredKeyframe :=
      { metadata := k.metadata, level := UInt8.ofNat k.level.val, stateLen, uncompressedLen
        frameLen := UInt64.ofNat frame.length, frameOffset := 0 }
    have hreads : Reads (Packet.readAll version) ((Packet.storedKeyframe keyframe).write ++ frame)
        (.storedKeyframe keyframe) :=
      Packet.reads_storedKeyframe hversion (by omega) hframe
    rcases hsnapshot with rfl | ⟨-, table, rfl⟩
    · refine ⟨[((Packet.storedKeyframe keyframe).write ++ frame, .storedKeyframe keyframe)],
        by simp [writeStream], fun e he ↦ ?_, fun more streamEnd ↦
          ⟨stateLen, uncompressedLen, _, _, [], rfl, fun p hp ↦ absurd hp List.not_mem_nil⟩⟩
      rw [List.mem_singleton] at he
      subst he
      exact hreads
    · refine ⟨[((Packet.storedKeyframe keyframe).write ++ frame, .storedKeyframe keyframe),
          ((Packet.bookmarkTable table).write, .bookmarkTable table.normalised)],
        by simp [writeStream], fun e he ↦ ?_, fun more streamEnd ↦
          ⟨stateLen, uncompressedLen, _, _, [.bookmarkTable table.normalised], rfl,
            fun p hp ↦ ⟨_, List.mem_singleton.mp hp⟩⟩⟩
      rcases List.mem_cons.mp he with rfl | he
      · exact hreads
      · rw [List.mem_singleton] at he
        subst he
        exact Packet.reads hversion trivial (by omega)

/-- **The stream is read back**, up to the first part that is refused. -/
theorem Writes.read (hversion : 3 ≤ version) (h : Writes log bytes) (hown : ∀ part ∈ log, part.Own)
    (hlen : bytes.length < 2 ^ 64) (streamEnd : Nat) :
    ∃ read packets, read <+: log ∧ List.Forall₂ Part.ReadAs read packets ∧
      (readStream version bytes).1.map (withFrameOffset streamEnd) = packets.flatten ∧
      ((readStream version bytes).2 = none → read = log) := by
  obtain ⟨pieces, hpieces, rfl⟩ := h
  induction hpieces with
  | nil => exact ⟨[], [], List.prefix_rfl, .nil, rfl, fun _ ↦ rfl⟩
  | @cons part piece log pieces hpart hpieces ih =>
    rw [List.flatten_cons, List.length_append] at hlen
    rw [List.flatten_cons]
    obtain ⟨hone, hrest⟩ := List.forall_mem_cons.mp hown
    rcases hpart.read hversion hone (by omega) with ⟨entries, rfl, hentries, hread⟩ | hrefused
    · obtain ⟨read, packets, hbegins, hall, hmap, hnone⟩ := ih hrest (by omega)
      rw [readStream_append hentries]
      refine ⟨part :: read, (placeStream entries pieces.flatten.length).map
        (withFrameOffset streamEnd) :: packets, ?_, .cons (hread _ _) hall, ?_, fun h ↦ ?_⟩
      · exact List.cons_prefix_cons.mpr ⟨rfl, hbegins⟩
      · rw [List.map_append, hmap, List.flatten_cons]
      · rw [hnone h]
    · obtain ⟨hne, e, herror⟩ := hrefused pieces.flatten
      rw [readStream_of_error hne herror]
      exact ⟨[], [], List.nil_prefix, .nil, rfl, fun h ↦ by cases h⟩

/-! ## Opening -/

namespace OpenedFile

/-- **What a file that opened has**: the packets of its stream, or, when it is allowed to be corrupt,
the first of them. -/
theorem packets_of_stored {x : Externals} {header : ReplayHeaderRaw} {patch stream rest : Bytes}
    {source : Option Bytes} {allow : Bool} {file : OpenedFile}
    (hpatch : header.patchDataLength.toNat = patch.length)
    (hend : header.streamEnd = some (headerLen + patch.length + stream.length) ∨
      header.streamEnd = none ∧ rest = [])
    (hlen : (header.asBytes ++ patch ++ stream ++ rest).length < 2 ^ 64)
    (hread : read x (header.asBytes ++ patch ++ stream ++ rest) source allow = .ok file) :
    ∃ streamEnd, file.packets <+: (readStream header.replayVersion.toNat stream).1.map
        (withFrameOffset streamEnd) ∧
      (allow = false → (readStream header.replayVersion.toNat stream).2 = none ∧
        file.packets = (readStream header.replayVersion.toNat stream).1.map
          (withFrameOffset streamEnd)) := by
  obtain ⟨header', patchEnd, streamEnd, stream', hstream, hbytes, hbegins, hall⟩ :=
    packets_of_read hread
  have hheaderLen := ReplayHeaderRaw.length_asBytes header
  simp only [List.length_append, hheaderLen] at hlen
  have hsplit : header.asBytes ++ patch ++ stream ++ rest =
      header.asBytes ++ (patch ++ (stream ++ rest)) := by simp only [List.append_assoc]
  obtain rfl : header' = header := by
    have hheader := hstream.headerRead
    rw [hsplit, readHeader_append] at hheader
    exact (Except.ok.inj hheader).symm
  obtain rfl : patchEnd = headerLen + patch.length := by
    obtain ⟨patchData, hread'⟩ := hstream.patch
    obtain ⟨patchData', hpatchRead⟩ : ∃ patchData, readPatch header'
        (header'.asBytes ++ (patch ++ (stream ++ rest))) =
          .ok (patchData, headerLen + patch.length) := readPatch_append hpatch (by omega)
    rw [hsplit, hpatchRead] at hread'
    cases hread'
    rfl
  obtain rfl : streamEnd = headerLen + patch.length + stream.length := by
    obtain ⟨truncated, hstop⟩ := hstream.stop
    rw [readStreamEnd] at hstop
    simp only [List.length_append, hheaderLen] at hstop
    rcases hend with hend | ⟨hend, rfl⟩
    · rw [hend] at hstop
      dsimp only at hstop
      rw [if_pos ⟨Nat.le_add_right _ _, Nat.le_add_right _ _⟩] at hstop
      cases hstop
      rfl
    · rw [hend] at hstop
      cases hstop
      rfl
  obtain rfl : stream' = stream := by
    have hslice := slice?_append (header'.asBytes ++ patch) stream rest
    rw [packetBytes_eq_ok, Nat.add_sub_cancel_left] at hbytes
    rw [List.length_append, hheaderLen, hbytes] at hslice
    exact Option.some.inj hslice
  exact ⟨_, hbegins, hall⟩

end OpenedFile

/-- The bytes of a recording: a header, the patch and the parts of the stream; and, when the header
says where the stream ends, more. -/
structure StoredStream (patch : Bytes) (log : List Part) (bytes : Bytes) : Prop where
  exists_stream : ∃ (header : ReplayHeaderRaw) (stream rest : Bytes),
    bytes = header.asBytes ++ patch ++ stream ++ rest ∧ Writes log stream ∧
      3 ≤ header.replayVersion.toNat ∧ header.patchDataLength.toNat = patch.length ∧
      (header.streamEnd = some (headerLen + patch.length + stream.length) ∨
        header.streamEnd = none ∧ rest = [])

/-- **A player has the packets that were given to the recorder**, in their order: all of them, or,
when the file is allowed to be corrupt, at least the first. -/
theorem StoredStream.packets {x : Externals} {patch : Bytes} (h : StoredStream patch log bytes)
    (hown : ∀ part ∈ log, part.Own) (hlen : bytes.length < 2 ^ 64) {source : Option Bytes}
    {allow : Bool} {file : OpenedFile} (hread : OpenedFile.read x bytes source allow = .ok file) :
    ∃ read packets, read <+: log ∧ List.Forall₂ Part.ReadAs read packets ∧
      file.packets <+: packets.flatten ∧
      (allow = false → read = log ∧ file.packets = packets.flatten) := by
  obtain ⟨header, stream, rest, rfl, hwrites, hversion, hpatch, hend⟩ := h.exists_stream
  obtain ⟨streamEnd, hbegins, hall⟩ := packets_of_stored hpatch hend hlen hread
  simp only [List.length_append] at hlen
  obtain ⟨read, packets, hlog, hreadAs, hmap, hnone⟩ :=
    hwrites.read hversion hown (by omega) streamEnd
  rw [hmap] at hbegins hall
  exact ⟨read, packets, hlog, hreadAs, hbegins, fun hallow ↦
    ⟨hnone (hall hallow).1, (hall hallow).2⟩⟩

namespace Recorder

variable {x : Externals} {patch : Bytes} {r r' : Recorder} {c : Course}

/-! ## What is written -/

/-- The header of a recording that goes on. -/
structure HeaderOf (patch : Bytes) (header : ReplayHeaderRaw) : Prop where
  version : replayVersionBookmarkSection ≤ header.replayVersion.toNat
  patch : header.patchDataLength.toNat = patch.length
  openEnd : header.packetStreamEnd = 0

/-- The header of a recorder is the one of its course, but for the marks. -/
theorem Steady.headerOf (h : Steady c r) (hc : HeaderOf patch c.header) : HeaderOf patch r.header := by
  obtain ⟨stored, hstored⟩ := h.stored
  have hcourse := h.course
  rw [Recorder.course, hstored] at hcourse
  cases hcourse
  exact ⟨hc.version, hc.patch, hc.openEnd⟩

theorem HeaderOf.streamEnd_eq_none {header : ReplayHeaderRaw} (h : HeaderOf patch header) :
    header.streamEnd = none := by
  rw [ReplayHeaderRaw.streamEnd, if_neg fun hand ↦ hand.2 h.openEnd]

/-- **While it records**, what is in the sinks is the stream so far. -/
theorem OnCourse.written (h : OnCourse patch log c r) (hc : HeaderOf patch c.header) :
    ∃ finalSink tempSink written, r.sink = some ⟨finalSink, tempSink, false, none⟩ ∧
      tempSink.bytes = finalSink.bytes ∧ written <+: log ∧
      StoredStream patch written finalSink.bytes := by
  obtain ⟨stored, hstored⟩ := h.steady.stored
  obtain ⟨file, hfile, hstream⟩ := h.mirrors.files
  obtain ⟨file', hfile', htake⟩ := h.steady.files
  cases hfile.unique hfile'
  obtain ⟨-, written, waiting, bytes, hlog, hwritten, hdrop, -, -⟩ := hstream stored hstored
  obtain ⟨finalSink, tempSink, hsink, -, -, hbytes, htemp⟩ := hfile.sink
  have hheader := h.steady.headerOf hc
  refine ⟨finalSink, tempSink, written, hsink, ?_, ?_, ⟨r.header, bytes, [], ?_, hwritten,
    Nat.le_trans (by decide) hheader.version, hheader.patch, .inr ⟨hheader.streamEnd_eq_none, rfl⟩⟩⟩
  · rw [htemp, h.steady.blob, List.append_nil, hbytes]
  · rw [hlog, List.append_assoc]
    exact List.prefix_append _ _
  · rw [hbytes, List.append_nil, List.append_assoc, ← htake, ← hdrop, List.take_append_drop]

/-- Closing writes what waits. -/
theorem finishPending_streamed (hx : Compresses x) (h : Mirrors true patch log r) :
    match finishPendingStoredKeyframe x r with
    | .ok _ r' => ∃ file, HasFiles file r' ∧ Streamed patch log file none []
    | .error _ _ => False
    | .abort => True := by
  obtain ⟨stored, hstored⟩ := Option.isSome_iff_exists.mp h.kind
  obtain ⟨file, hwaits, hstream⟩ := h.waits hstored
  rw [finishPendingStoredKeyframe, Act.get_bind_apply, hstored, Option.bind_some]
  cases hpending : stored.pending with
  | none =>
    rw [hpending] at hstream hwaits
    have hpackets : stored.pendingPackets = [] := by
      obtain ⟨written, waiting, bytes, -, -, -, hwaiting, hno⟩ := hstream
      rw [hno rfl] at hwaiting
      exact writes_nil.mp hwaiting
    rw [hpackets] at hstream
    exact ⟨file, hwaits.files, hstream⟩
  | some pending =>
    rw [hpending] at hstream hwaits
    have hnone : Waits file r.settings none stored.pendingPackets { r with
        stored := r.stored.map fun stored ↦ { stored with pending := none } } :=
      hwaits.mapStored fun s _ hw ↦ ⟨rfl, hw⟩
    have hwritten := writePending hnone hstream hx none
    dsimp only
    rw [Act.modify_bind_apply]
    revert hwritten
    generalize (encodeStoredKeyframe x pending none >>= fun _ ↦ flushPendingPackets :
      RecorderAction Unit) _ = o
    intro hwritten
    cases o with
    | ok u r' =>
      obtain ⟨file', hwaits', hstream'⟩ := hwritten
      exact ⟨file', hwaits'.files, hstream'⟩
    | error e r' => exact hwritten
    | abort => trivial

/-- **A file that was closed without an error** is the whole stream. -/
theorem OnCourse.closed (hx : Compresses x) (h : OnCourse patch log c r)
    (hc : HeaderOf patch c.header) {finalSink tempSink : Sink}
    (hclose : close x r = .ok (finalSink, tempSink, none) r')
    (hlen : finalSink.bytes.length < 2 ^ 64) : StoredStream patch log finalSink.bytes := by
  obtain ⟨r₀, r₁, sink, hpending, hblob, hsink, hbytes⟩ := close_steps hclose
  have hstreamed := finishPending_streamed hx h.mirrors
  have hsteady := keeps_finishPendingStoredKeyframe (x := x) r h.steady
  obtain ⟨u, hrun⟩ : ∃ u, finishPendingStoredKeyframe x r = .ok u r₀ := by
    rcases hpending with hrun | ⟨e, hrun, -⟩
    · exact hrun
    · rw [hrun] at hstreamed
      exact hstreamed.elim
  rw [hrun] at hstreamed hsteady
  dsimp only at hsteady
  cases nextBlob_empty hsteady.keyframes hblob
  obtain ⟨file, hfile, written, waiting, bytes, hlog, hwritten, hdrop, -, hnothing⟩ := hstreamed
  obtain rfl := hnothing rfl
  rw [Option.map_none, Option.toList_none, List.append_nil, List.append_nil] at hlog
  subst hlog
  obtain ⟨finalSink', tempSink', hsink', -, -, hfileBytes, -⟩ := hfile.sink
  cases hsink.symm.trans hsink'
  have hheader := hsteady.headerOf hc
  have hfileLen : file.length = headerLen + patch.length + bytes.length := by
    have hdropLen := congrArg List.length hdrop
    rw [List.length_drop, List.length_append] at hdropLen
    have := hfile.header
    omega
  rw [hfileBytes, hdrop] at hbytes
  have hfits : headerLen + patch.length + bytes.length < 2 ^ 64 := by
    rw [hbytes] at hlen
    simp only [List.length_append, ReplayHeaderRaw.length_asBytes] at hlen
    omega
  have hend : (endedHeader r₀).packetStreamEnd.toNat = headerLen + patch.length + bytes.length := by
    rw [endedHeader, hfile.offset, hfileLen, UInt64.toNat_ofNat_of_lt' hfits]
  refine ⟨endedHeader r₀, bytes, _, by rw [hbytes, List.append_assoc _ patch], hwritten,
    Nat.le_trans (by decide) hheader.version, hheader.patch, .inl ?_⟩
  have hne : (endedHeader r₀).packetStreamEnd ≠ 0 := fun hzero ↦ by
    rw [hzero, headerLen] at hend
    have : (0 : UInt64).toNat = 0 := rfl
    omega
  rw [ReplayHeaderRaw.streamEnd, if_pos ⟨hheader.version, hne⟩, hend]

/-! ## Starting -/

/-- The course of a recording that starts. -/
def Course.start (settings : RecorderSettings) (header : ReplayHeaderRaw) : Course :=
  { levels := Tiers.Counters.zero, thumbnail := none, thumbnailsInGroup := 0, elapsedFrames := 0
    settings := normaliseSettings settings, header := unmarked header }

/-- **A recording starts** with nothing in its stream. -/
theorem onCourse_newBlank {metadata : ReplayFileMetadata} {settings : RecorderSettings}
    {input : InputBuffer} {speed : Speed} {finalSink tempSink : Sink} (hfinal : finalSink.Sound)
    (htemp : tempSink.Sound) (hfinalEmpty : finalSink.bytes = []) (htempEmpty : tempSink.bytes = [])
    (hconsole : metadata.consoleType = .nintendo3DS)
    (h : newBlank metadata patch settings input speed finalSink tempSink = .ok r ()) :
    ∃ header, HeaderOf patch (unmarked header) ∧ OnCourse patch [] (.start settings header) r := by
  have hholds := holds_newBlank hfinal htemp hfinalEmpty htempEmpty h
  obtain ⟨raw, sink, hraw, hpatch, hbytes, rfl⟩ := newBlank_ok h
  rw [hfinalEmpty, List.nil_append] at hbytes
  obtain ⟨-, -, hversion, htype, -, hend, -⟩ := ReplayFileMetadata.asRawHeader_ok hraw
  have hmirrors := hholds.mirrors
  rw [decide_eq_true hconsole] at hmirrors
  have hdefault : (headerWithPatch raw patch).consoleTypeOrDefault = .nintendo3DS := by
    rw [ReplayHeaderRaw.consoleTypeOrDefault, headerWithPatch, htype, ReplayConsoleType.ofNat?_toNat,
      hconsole]
    rfl
  refine ⟨headerWithPatch raw patch, ⟨?_, UInt64.toNat_ofNat_of_lt' hpatch,
    hend⟩, hmirrors, ⟨?_, rfl, rfl, ?_⟩,
    fun part hpart ↦ absurd hpart List.not_mem_nil⟩
  · change replayVersionBookmarkSection ≤ raw.replayVersion.toNat
    rw [hversion, if_pos hconsole]
    decide
  · rw [course, blank]
    dsimp only
    rw [if_pos hdefault]
    rfl
  · obtain ⟨file, hfile, -⟩ := hmirrors.files
    obtain ⟨finalSink', tempSink', hsink, -, -, hfileBytes, -⟩ := hfile.sink
    cases hsink
    refine ⟨file, hfile, ?_⟩
    rw [← hfileBytes, hbytes, List.take_append_of_le_length (ReplayHeaderRaw.length_asBytes _).ge,
      List.take_of_length_le (ReplayHeaderRaw.length_asBytes _).le]
    rfl

/-- A recording is a blank file and calls, the first of which inserts a keyframe. -/
theorem onCourse_newWithMetadata {metadata : ReplayFileMetadata}
    {settings : RecorderSettings} {start : TimestampMillis} {input : InputBuffer} {speed : Speed}
    {state : ByteVec} {finalSink tempSink : Sink} (hfinal : finalSink.Sound)
    (htemp : tempSink.Sound) (hfinalEmpty : finalSink.bytes = []) (htempEmpty : tempSink.bytes = [])
    (hconsole : metadata.consoleType = .nintendo3DS)
    (h : newWithMetadata x metadata patch settings start input speed state finalSink tempSink =
      .ok r ()) :
    ∃ header b, HeaderOf patch (unmarked header) ∧ OnCourse patch [] (.start settings header) b ∧
      perform x (.insertKeyframe state start .auto) b = .ok () r := by
  obtain ⟨b, hblank, hperform⟩ := newWithMetadata_ok h
  obtain ⟨header, hheader, hcourse⟩ :=
    onCourse_newBlank hfinal htemp hfinalEmpty htempEmpty hconsole hblank
  exact ⟨header, b, hheader, hcourse, hperform⟩

/-- What a recorder leaves for a player: what is in a sink while it records, or the file that it
closes without an error. -/
def Leaves (x : Externals) (r : Recorder) (bytes : Bytes) : Prop :=
  (∃ sink, r.sink = some sink ∧ (bytes = sink.finalSink.bytes ∨ bytes = sink.tempSink.bytes)) ∨
    ∃ finalSink tempSink r', close x r = .ok (finalSink, tempSink, none) r' ∧
      bytes = finalSink.bytes

/-- What is left is a stream of what was given to the recorder. -/
theorem OnCourse.leaves (hx : Compresses x) {log : List Part} {c : Course} {r : Recorder}
    (h : OnCourse patch log c r) (hc : HeaderOf patch c.header) {bytes : Bytes}
    (hleaves : Leaves x r bytes) (hlen : bytes.length < 2 ^ 64) :
    ∃ written, written <+: log ∧ StoredStream patch written bytes := by
  rcases hleaves with ⟨sink, hsink, hbytes⟩ | ⟨finalSink, tempSink, r', hclose, rfl⟩
  · obtain ⟨finalSink, tempSink, written, hsink', htemp, hbegins, hstream⟩ := h.written hc
    cases hsink.symm.trans hsink'
    refine ⟨written, hbegins, ?_⟩
    rcases hbytes with rfl | rfl
    · exact hstream
    · exact htemp ▸ hstream
  · exact ⟨log, List.prefix_rfl, h.closed hx hc hclose hlen⟩

end Recorder

end SuperShuckie
