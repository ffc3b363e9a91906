import SuperShuckie.Recording.Mirrored
import SuperShuckie.Recording.Reliable
import SuperShuckie.Recording.Agreement

/-!
# Runs of a recorder whose sinks do not fail

A keyframe of a Nintendo 3DS file waits until the next one comes, and is written with the packets
that wait behind it.  So whatever calls are made, and whatever was copied before them, the sinks hold
the stream up to the keyframe that waits (`temp_mirrors_stream`).
-/

set_option autoImplicit false

namespace SuperShuckie

open ByteFormat

namespace Recorder

variable {x : Externals} {isStored : Bool} {patch file : Bytes} {log : List Part} {r r' : Recorder}

/-! ## Writing what waits -/

/-- A recorder of a Nintendo 3DS file: its files, and what waits to be written. -/
structure Waits (file : Bytes) (settings : RecorderSettings) (pending : Option PendingKeyframe)
    (packets : Bytes) (r : Recorder) : Prop where
  files : HasFiles file r
  blob : r.currentBlob = []
  settings : r.settings = settings
  stored : ∃ stored, r.stored = some stored ∧ stored.pending = pending ∧
    stored.pendingPackets = packets

variable {settings : RecorderSettings} {pending : Option PendingKeyframe} {packets : Bytes}
  {metadata : ReplayFileMetadata}

theorem Waits.congr (h : Waits file settings pending packets r) (hsink : r'.sink = r.sink)
    (hoffset : r'.currentBlobOffset = r.currentBlobOffset) (hblob : r'.currentBlob = r.currentBlob)
    (hsettings : r'.settings = r.settings) (hstored : r'.stored = r.stored) :
    Waits file settings pending packets r' := by
  refine ⟨h.files.congr hsink hoffset hblob, hblob.trans h.blob, hsettings.trans h.settings, ?_⟩
  rw [hstored]
  exact h.stored

theorem Waits.grow {bytes : Bytes} (h : Waits file settings pending packets r)
    (hfiles : HasFiles (file ++ bytes) r') (hsame : OtherFiles r r') :
    Waits (file ++ bytes) settings pending packets r' := by
  refine ⟨hfiles, ?_, ?_, ?_⟩
  · rw [hsame]
    exact h.blob
  · rw [hsame]
    exact h.settings
  · rw [hsame]
    exact h.stored

theorem Waits.mapStored (h : Waits file settings pending packets r)
    {f : StoredKeyframes → StoredKeyframes} {pending' : Option PendingKeyframe} {packets' : Bytes}
    (hf : ∀ s : StoredKeyframes, s.pending = pending → s.pendingPackets = packets →
      (f s).pending = pending' ∧ (f s).pendingPackets = packets') :
    Waits file settings pending' packets' { r with stored := r.stored.map f } := by
  obtain ⟨stored, hs, hpending, hpackets⟩ := h.stored
  refine ⟨h.files.congr rfl rfl rfl, h.blob, h.settings, f stored, ?_, hf stored hpending hpackets⟩
  rw [hs]
  rfl

theorem Mirrors.waits (h : Mirrors isStored patch log r) {stored : StoredKeyframes}
    (hstored : r.stored = some stored) :
    ∃ file, Waits file r.settings stored.pending stored.pendingPackets r ∧
      Streamed patch log file stored.pending stored.pendingPackets := by
  obtain ⟨file, hfile, hstream⟩ := h.files
  obtain ⟨hblob, hstreamed⟩ := hstream stored hstored
  exact ⟨file, ⟨hfile, hblob, rfl, stored, hstored, rfl, rfl⟩, hstreamed⟩

theorem Waits.mirrors (h : Waits file settings pending packets r)
    (hstream : Streamed patch log file pending packets)
    (hmask : pending.isSome = true → settings.storedKeyframeMaskTransients = true) :
    Mirrors true patch log r := by
  obtain ⟨stored, hstored, rfl, rfl⟩ := h.stored
  refine ⟨by rw [hstored]; rfl, ⟨file, h.files, fun s hs ↦ ?_⟩, fun s hs hsome ↦ ?_⟩
  · cases hstored.symm.trans hs
    exact ⟨h.blob, hstream⟩
  · cases hstored.symm.trans hs
    rw [h.settings]
    exact hmask hsome

section Keyframes

variable {settings : RecorderSettings} {packets : Bytes}
  (hx : ∀ level window pfx data, ∃ frame, x.zstd.compress2 level window pfx data = .ok frame)

/-- While nothing waits, a snapshot of the bookmarks is written at once. -/
theorem writeBookmarkSnapshot_writes (h : Waits file settings none packets r) :
    match writeBookmarkSnapshot r with
    | .ok _ r' => Waits (file ++ (Packet.bookmarkTable r.bookmarks).write) settings none packets r'
    | .error _ _ => False
    | .abort => True := by
  obtain ⟨stored, hstored, hpending, hpackets⟩ := h.stored
  have h' : Waits file settings none packets { r with bookmarkSnapshotPending := false } :=
    h.congr rfl rfl rfl rfl rfl
  have hrun : writeBookmarkSnapshot r = writeDirectNow (Packet.bookmarkTable r.bookmarks).write []
      { r with bookmarkSnapshotPending := false } := by
    simp only [writeBookmarkSnapshot, Act.modify_bind_apply, Act.get_bind_apply, writePacketData,
      writeDirect, hstored, hpending, Option.isSome_some, Option.isSome_none, if_true,
      Bool.false_eq_true, if_false]
  have hgrows := grows_writeDirectNow h'.files h'.blob (Packet.bookmarkTable r.bookmarks).write []
  rw [hrun]
  cases hwrite : writeDirectNow (Packet.bookmarkTable r.bookmarks).write []
      { r with bookmarkSnapshotPending := false } with
  | ok u r' =>
    rw [hwrite, List.append_nil] at hgrows
    exact h'.grow hgrows.1 hgrows.2
  | error e r' =>
    rw [hwrite] at hgrows
    exact hgrows
  | abort => trivial

include hx in
/-- The keyframe that nothing waits for is written at once. -/
theorem encodeStoredKeyframe_writes (h : Waits file settings none packets r)
    (keyframe : PendingKeyframe) (access : Option (List UInt8)) :
    match encodeStoredKeyframe x keyframe access r with
    | .ok _ r' => ∃ own, (Part.keyframe keyframe).Writes own ∧
        Waits (file ++ own) settings none packets r'
    | .error _ _ => False
    | .abort => True := by
  obtain ⟨stored, hstored, hpending, hpackets⟩ := h.stored
  rw [encodeStoredKeyframe, Act.get_bind_apply, hstored]
  dsimp only
  cases hpayload : r.storedPayload x stored keyframe access with
  | none => trivial
  | some payload =>
    obtain ⟨state, payload, reference⟩ := payload
    obtain ⟨frame, hframe⟩ : ∃ frame,
        r.compressPayload x keyframe.level payload reference = .ok frame := by
      rw [compressPayload]
      split
      · exact hx _ _ _ _
      · exact hx _ _ _ _
    simp only [hframe]
    rw [Act.bind_apply]
    generalize hpacket : Packet.storedKeyframe _ = packet
    have hgrows := grows_writeDirectNow h.files h.blob packet.write frame
    cases hrun : writeDirectNow packet.write frame r with
    | error e r₁ =>
      rw [hrun] at hgrows
      exact hgrows.elim
    | abort => trivial
    | ok u r₁ =>
      rw [hrun] at hgrows
      have h₂ := (h.grow hgrows.1 hgrows.2).mapStored
        (f := fun stored ↦ { stored with
          states := fun m ↦ if keyframe.level ≤ m then some state else stored.states m })
        fun s hp hw ↦ ⟨hp, hw⟩
      dsimp only
      rw [Act.modify_bind_apply, Act.get_bind_apply]
      split_ifs with hsnapshot
      · have hwrites := writeBookmarkSnapshot_writes h₂
        revert hwrites
        generalize writeBookmarkSnapshot _ = o
        intro hwrites
        cases o with
        | error e r₃ => exact hwrites
        | abort => trivial
        | ok u r₃ =>
          have h₃ : Waits _ settings none packets r₃ := hwrites
          rw [List.append_assoc] at h₃
          exact ⟨_, ⟨_, _, frame, _, by rw [← hpacket], .inr ⟨hsnapshot.1, _, rfl⟩⟩, h₃⟩
      · exact ⟨_, ⟨_, _, frame, [], by rw [← hpacket, List.append_nil], .inl rfl⟩, h₂⟩

/-- The packets that wait are written. -/
theorem flushPendingPackets_writes (h : Waits file settings none packets r) :
    match flushPendingPackets r with
    | .ok _ r' => Waits (file ++ packets) settings none [] r'
    | .error _ _ => False
    | .abort => True := by
  obtain ⟨stored, hstored, hpending, hpackets⟩ := h.stored
  rw [flushPendingPackets, Act.get_bind_apply, hstored]
  dsimp only
  rw [hpackets]
  split_ifs with hempty
  · rw [List.isEmpty_iff] at hempty
    subst hempty
    rw [List.append_nil]
    exact h
  · rw [Act.modify_bind_apply]
    have h₁ : Waits file settings none [] { r with
        stored := r.stored.map fun stored ↦ { stored with pendingPackets := [] } } :=
      h.mapStored fun s hp _ ↦ ⟨hp, rfl⟩
    have hgrows := grows_append h₁.files h₁.blob (Sink.appends_writeBytes packets)
      (Sink.appends_writeBytes packets) rfl
    rw [Act.bind_apply, h₁.files.assertNotClosed]
    dsimp only
    rw [Act.bind_apply, h₁.files.refuseIfFinalFailed]
    dsimp only
    revert hgrows
    generalize ((finalWrite (Sink.writeBytes packets)) >>= _ : RecorderAction Unit) _ = o
    intro hgrows
    cases o with
    | ok u r' => exact h₁.grow hgrows.1 hgrows.2
    | error e r' => exact hgrows.elim
    | abort => trivial

/-- The keyframe that an insertion adds to the stream. -/
def pendingKeyframe (r : Recorder) (stored : StoredKeyframes) (state : Bytes)
    (elapsedMillis : TimestampMillis) (encoding : KeyframeEncoding) : PendingKeyframe :=
  let level := nextLevel r.settings stored encoding
  { state, metadata := r.keyframeMetadata elapsedMillis, level
    reads := if level = 0 then [] else stored.readsSince level }

/-- The keyframe that waited and the packets behind it are written: then nothing waits. -/
theorem writePending {previous : PendingKeyframe} (h : Waits file settings none packets r)
    (hstream : Streamed patch log file (some previous) packets)
    (hx : ∀ level window pfx data, ∃ frame, x.zstd.compress2 level window pfx data = .ok frame)
    (access : Option (List UInt8)) :
    match (encodeStoredKeyframe x previous access >>= fun _ ↦ flushPendingPackets) r with
    | .ok _ r' => ∃ file', Waits file' settings none [] r' ∧ Streamed patch log file' none []
    | .error _ _ => False
    | .abort => True := by
  have hencode := encodeStoredKeyframe_writes hx h previous access
  rw [Act.bind_apply]
  cases hrun : encodeStoredKeyframe x previous access r with
  | error e r₁ =>
    rw [hrun] at hencode
    exact hencode.elim
  | abort => trivial
  | ok u r₁ =>
    rw [hrun] at hencode
    obtain ⟨own, hown, h₁⟩ := hencode
    have hflush := flushPendingPackets_writes h₁
    dsimp only
    cases hrun' : flushPendingPackets r₁ with
    | error e r₂ =>
      rw [hrun'] at hflush
      exact hflush
    | abort => trivial
    | ok u r₂ =>
      rw [hrun'] at hflush
      obtain ⟨written, waiting, bytes, hlog, hwritten, hdrop, hwaiting, -⟩ := hstream
      refine ⟨_, hflush, written ++ [.keyframe previous] ++ waiting, [],
        bytes ++ own ++ packets, ?_, ?_, ?_, writes_nil.mpr rfl, fun _ ↦ rfl⟩
      · simpa using hlog
      · exact (hwritten.append (Writes.singleton _ hown)).append hwaiting
      · rw [List.append_assoc, List.drop_append_of_le_length h.files.header, hdrop]
        simp only [List.append_assoc]

/-- While nothing waits, a keyframe that is to wait ends the stream. -/
theorem Streamed.wait {keyframe : PendingKeyframe} (h : Streamed patch log file none packets) :
    Streamed patch (log ++ [.keyframe keyframe]) file (some keyframe) packets := by
  obtain ⟨written, waiting, bytes, hlog, hwritten, hdrop, hwaiting, hnone⟩ := h
  obtain rfl := hnone rfl
  refine ⟨written, [], bytes, ?_, hwritten, hdrop, hwaiting, fun h ↦ by cases h⟩
  rw [hlog]
  simp

/-- The operation added the parts to the stream, and cannot fail. -/
def Adds {α : Type} (patch : Bytes) (log parts : List Part) :
    Outcome ReplayFileWriteError Recorder α → Prop
  | .ok _ r' => Mirrors true patch (log ++ parts) r'
  | .error _ _ => False
  | .abort => True

/-- From here on the keyframe waits. -/
theorem adds_setPending {stored : StoredKeyframes → StoredKeyframes} {keyframe : PendingKeyframe}
    (h : Waits file settings none [] r) (hstream : Streamed patch log file none [])
    (hmask : settings.storedKeyframeMaskTransients = true)
    (hkeyframe : ∀ s, (stored s).pending = some keyframe)
    (hpackets : ∀ s, (stored s).pendingPackets = s.pendingPackets) :
    Adds patch log [.keyframe keyframe] ((do
      Act.modify fun r : Recorder ↦ { r with stored := r.stored.map stored }
      let r ← Act.get
      pure r.elapsedFrames : RecorderAction UnsignedInteger) r) := by
  have h' : Waits file settings (some keyframe) [] { r with stored := r.stored.map stored } :=
    h.mapStored fun s _ hw ↦ ⟨hkeyframe s, (hpackets s).trans hw⟩
  exact h'.mirrors (Streamed.wait hstream) fun _ ↦ hmask

variable {stored : StoredKeyframes}

/-- **A keyframe is added to the stream.**  It waits when transient pages are masked, and what waited
for it is written; otherwise it is written at once. -/
theorem adds_insertStoredKeyframe
    (hx : ∀ level window pfx data, ∃ frame, x.zstd.compress2 level window pfx data = .ok frame)
    (h : Mirrors true patch log r) (hstored : r.stored = some stored) (state : Bytes)
    (now : TimestampMillis) (encoding : KeyframeEncoding) (hforward : ¬ now < r.elapsedMillis) :
    Adds patch log [.keyframe (r.pendingKeyframe stored state now encoding)]
      (insertStoredKeyframe x state now encoding r) := by
  obtain ⟨file, hwaits, hstream⟩ := h.waits hstored
  rw [insertStoredKeyframe, Act.bind_apply, h.assertNotClosed]
  dsimp only
  rw [Act.get_bind_apply, if_neg hforward, hstored]
  dsimp only
  rw [Act.modify_bind_apply]
  set r₁ : Recorder := { r with
    elapsedMillis := now
    stored := some (StoredKeyframes.countLevel stored (nextLevel r.settings stored encoding)) }
  have h₁ : Waits file r.settings stored.pending stored.pendingPackets r₁ :=
    ⟨hwaits.files.congr rfl rfl rfl, hwaits.blob, rfl, _, rfl, rfl, rfl⟩
  by_cases hmask : r.settings.storedKeyframeMaskTransients = true
  · rw [if_pos hmask]
    cases hpending : stored.pending with
    | none =>
      rw [hpending] at h₁ hstream
      have hpackets : stored.pendingPackets = [] := by
        obtain ⟨written, waiting, bytes, -, -, -, hwaiting, hno⟩ := hstream
        rw [hno rfl] at hwaiting
        exact writes_nil.mp hwaiting
      rw [hpackets] at h₁ hstream
      dsimp only
      exact adds_setPending h₁ hstream hmask (fun _ ↦ rfl) fun _ ↦ rfl
    | some previous =>
      rw [hpending] at h₁ hstream
      dsimp only
      rw [Act.modify_bind_apply]
      have h₂ : Waits file r.settings none stored.pendingPackets
          { r₁ with stored := r₁.stored.map fun stored ↦ { stored with
              pending := none
              accessSince := [] } } :=
        h₁.mapStored fun s _ hw ↦ ⟨rfl, hw⟩
      have hwritten := writePending h₂ hstream hx (some stored.accessSince)
      rw [← Act.bind_assoc_apply, Act.bind_apply]
      revert hwritten
      generalize (encodeStoredKeyframe x previous _ >>= _ : RecorderAction Unit) _ = o
      intro hwritten
      cases o with
      | ok u r₃ =>
        obtain ⟨file', h₃, hstream'⟩ := hwritten
        dsimp only
        rw [Act.modify_bind_apply]
        have h₄ : Waits file' r.settings none [] { r₃ with
            stored := r₃.stored.map fun s ↦ { s with accessSince := stored.accessSince } } :=
          h₃.mapStored fun s hp hw ↦ ⟨hp, hw⟩
        exact adds_setPending h₄ hstream' hmask (fun _ ↦ rfl) fun _ ↦ rfl
      | error e r₃ => exact hwritten.elim
      | abort => trivial
  · rw [if_neg hmask]
    have hnone : stored.pending = none := by
      by_contra hsome
      exact hmask (h.masks stored hstored (Option.isSome_iff_ne_none.mpr hsome))
    rw [hnone] at h₁ hstream
    have hencode := encodeStoredKeyframe_writes hx h₁
      (r.pendingKeyframe stored state now encoding) none
    show Adds patch log _ ((encodeStoredKeyframe x (r.pendingKeyframe stored state now encoding)
      none >>= fun _ ↦ Act.get >>= fun r : Recorder ↦ pure r.elapsedFrames) r₁)
    rw [Act.bind_apply]
    revert hencode
    generalize encodeStoredKeyframe x _ none r₁ = o
    intro hencode
    cases o with
    | ok u r₂ =>
      obtain ⟨own, hown, h₂⟩ := hencode
      show Mirrors true patch _ r₂
      exact h₂.mirrors (hstream.add hwaits.files.header hown) fun h ↦ by cases h
    | error e r₂ => exact hencode.elim
    | abort => trivial

include hx in
/-- An insertion fails only when it goes back in time, and does nothing then. -/
theorem insertStoredKeyframe_error (h : Mirrors true patch log r) (hstored : r.stored = some stored)
    {state : Bytes} {now : TimestampMillis} {encoding : KeyframeEncoding} {e : ReplayFileWriteError}
    (herror : insertStoredKeyframe x state now encoding r = .error e r') : r' = r := by
  by_cases hbackwards : now < r.elapsedMillis
  · rw [insertStoredKeyframe, Act.bind_apply, h.assertNotClosed] at herror
    dsimp only at herror
    rw [Act.get_bind_apply, if_pos hbackwards] at herror
    cases herror
    rfl
  · have hadds := adds_insertStoredKeyframe hx h hstored state now encoding hbackwards
    rw [herror] at hadds
    exact hadds.elim

include hx in
theorem ends_insertStoredKeyframe (h : Mirrors true patch log r) (hstored : r.stored = some stored)
    (state : Bytes) (now : TimestampMillis) (encoding : KeyframeEncoding) :
    Ends true patch log [.keyframe (r.pendingKeyframe stored state now encoding)]
      (insertStoredKeyframe x state now encoding r) := by
  by_cases hbackwards : now < r.elapsedMillis
  · rw [insertStoredKeyframe, Act.bind_apply, h.assertNotClosed]
    dsimp only
    rw [Act.get_bind_apply, if_pos hbackwards]
    exact h
  · have hadds := adds_insertStoredKeyframe hx h hstored state now encoding hbackwards
    cases hrun : insertStoredKeyframe x state now encoding r with
    | ok frame r' =>
      rw [hrun] at hadds
      exact hadds
    | error e r' =>
      rw [hrun] at hadds
      exact hadds.elim
    | abort => trivial

end Keyframes

/-! ## Calls -/

/-- The packet of a picture of both screens, if they can be encoded. -/
def thumbnailOf (x : Externals) (r : Recorder) (top bottom : Screen) : Except String Packet :=
  let quality := r.settings.storedThumbnailJpegQuality
  if r.stored.isSome ∧ 0 < quality then do
    let topData ← x.encodeJpeg top.1 top.2.1 top.2.2 quality
    let bottomData ← x.encodeJpeg bottom.1 bottom.2.1 bottom.2.2 quality
    pure (thumbnailPacket r top bottom topData bottomData false true)
  else do
    let previous := r.previousThumbnail top bottom
    let topData ← encodeScreen x (previous.map Prod.fst) top
    let bottomData ← encodeScreen x (previous.map Prod.snd) bottom
    pure (thumbnailPacket r top bottom topData bottomData previous.isSome false)

/-- The parts that a call adds to the stream when it succeeds. -/
def added (x : Externals) (r : Recorder) : Call → List Part
  | .nextFrame timestamp => r.part (.nextFrame (timestamp - r.elapsedMillis))
  | .insertKeyframe state elapsedMillis encoding =>
    (r.stored.map fun stored ↦
      Part.keyframe (r.pendingKeyframe stored state elapsedMillis encoding)).toList
  | .setInput input =>
    if r.stored.isSome ∧ input = r.currentInput then [] else r.part (.changeInput input)
  | .setSpeed speed => if r.currentSpeed = speed then [] else r.part (.changeSpeed speed)
  | .writeMemory address data => r.part (.writeMemory address data)
  | .resetConsole => r.part .resetConsole
  | .loadSaveState state => r.part (.loadSaveState state)
  | .serialIn data => if data.isEmpty then [] else r.part (.serialIn data)
  | .changeCounter name delta => r.part (.incrementCounter name delta)
  | .setBookmarkTable table =>
    if table = r.bookmarks ∨ r.currentBlobKeyframes.isEmpty then []
    else r.part (.bookmarkTable table)
  | .thumbnail top bottom => (thumbnailOf x r top bottom).toOption.elim [] r.part
  | .romReads _ | .transientPageAccess _ | .setRom _ | .setRomReadsUnknown _ | .markStart _
  | .markEnd => []

/-- The compressor fails on nothing. -/
def Compresses (x : Externals) : Prop :=
  ∀ level window pfx data, ∃ frame, x.zstd.compress2 level window pfx data = .ok frame

theorem ends_insertKeyframe (h : Mirrors isStored patch log r) (hx : isStored = true → Compresses x)
    (state : Bytes) (elapsedMillis : TimestampMillis) (encoding : KeyframeEncoding) :
    Ends isStored patch log (r.stored.map fun stored ↦
        Part.keyframe (r.pendingKeyframe stored state elapsedMillis encoding)).toList
      (perform x (.insertKeyframe state elapsedMillis encoding) r) := by
  have hends : Ends isStored patch log (r.stored.map fun stored ↦
      Part.keyframe (r.pendingKeyframe stored state elapsedMillis encoding)).toList
      (insertKeyframeWith x state elapsedMillis encoding r) := by
    cases hstored : r.stored with
    | some stored =>
      obtain rfl : true = isStored := by
        have := h.kind
        rwa [hstored] at this
      rw [insertKeyframeWith, Act.get_bind_apply, hstored]
      exact ends_insertStoredKeyframe (hx rfl) h hstored state elapsedMillis
        encoding
    | none =>
      obtain rfl : false = isStored := by
        have := h.kind
        rwa [hstored] at this
      exact ends_of_keepsBlobs (keepsBlobs_insertKeyframeWith state elapsedMillis encoding) h.inBlobs
  rw [perform, Act.bind_apply]
  cases hrun : insertKeyframeWith x state elapsedMillis encoding r with
  | ok frame r' =>
    rw [hrun] at hends
    exact hends
  | error e r' =>
    rw [hrun] at hends
    exact hends
  | abort => trivial

/-- A call that adds nothing. -/
theorem Ends.nothing (h : Mirrors isStored patch log r') :
    Ends isStored patch log [] (.ok () r' : Outcome ReplayFileWriteError Recorder Unit) := by
  rw [Ends, List.append_nil]
  exact h

/-- A packet is written, and noted for the packets to come. -/
theorem ends_writePacketData_then (h : Mirrors isStored patch log r) (packet : Packet)
    {note : StoredKeyframes → StoredKeyframes} (hpending : ∀ s, (note s).pending = s.pending)
    (hpackets : ∀ s, (note s).pendingPackets = s.pendingPackets) :
    Ends isStored patch log (r.part packet) ((writePacketData packet >>= fun _ ↦
      Act.modify fun r : Recorder ↦ { r with stored := r.stored.map note }) r) :=
  (ends_writePacketData h packet).then_modify fun _ h' ↦ h'.mapStored hpending hpackets

theorem ends_thumbnail (h : Mirrors isStored patch log r) (top bottom : Screen) :
    Ends isStored patch log ((thumbnailOf x r top bottom).toOption.elim [] r.part)
      (thumbnail x top bottom r) := by
  rw [thumbnail, Act.bind_apply, h.assertNotClosed, thumbnailOf]
  dsimp only
  rw [Act.get_bind_apply]
  by_cases hjpeg : r.stored.isSome = true ∧ 0 < r.settings.storedThumbnailJpegQuality
  · rw [if_pos hjpeg, if_pos hjpeg]
    cases x.encodeJpeg top.1 top.2.1 top.2.2 r.settings.storedThumbnailJpegQuality with
    | error e => exact h
    | ok topData =>
      cases x.encodeJpeg bottom.1 bottom.2.1 bottom.2.2 r.settings.storedThumbnailJpegQuality with
      | error e => exact h
      | ok bottomData =>
        exact ends_writePacketData_then h _ (fun _ ↦ rfl) (fun _ ↦ rfl)
  · rw [if_neg hjpeg, if_neg hjpeg]
    cases encodeScreen x ((r.previousThumbnail top bottom).map Prod.fst) top with
    | error e => exact h
    | ok topData =>
      cases encodeScreen x ((r.previousThumbnail top bottom).map Prod.snd) bottom with
      | error e => exact h
      | ok bottomData =>
        exact ends_writePacketData_then h _ (fun _ ↦ rfl) (fun _ ↦ rfl)

/-- **A call adds its parts to the stream**, or fails and adds nothing. -/
theorem ends_perform (h : Mirrors isStored patch log r) (hx : isStored = true → Compresses x)
    (call : Call) : Ends isStored patch log (added x r call) (perform x call r) := by
  cases call with
  | nextFrame timestamp =>
    rw [perform, nextFrame, Act.get_bind_apply]
    split_ifs
    · exact h
    · have h' : Mirrors isStored patch log { r with
          elapsedFrames := r.elapsedFrames + 1, elapsedMillis := timestamp } :=
        h.congr rfl rfl rfl rfl rfl
      exact ends_writePacketData h' (.nextFrame (timestamp - r.elapsedMillis))
    · trivial
  | insertKeyframe state elapsedMillis encoding =>
    exact ends_insertKeyframe h hx state elapsedMillis encoding
  | setInput input =>
    rw [perform, setInput, added, Act.get_bind_apply]
    split_ifs
    · exact Ends.nothing h
    · have h' : Mirrors isStored patch log { r with currentInput := input } := h.congr rfl rfl rfl rfl rfl
      exact ends_writePacketData h' (.changeInput input)
  | setSpeed speed =>
    rw [perform, setSpeed, added, Act.get_bind_apply]
    split_ifs
    · exact Ends.nothing h
    · have h' : Mirrors isStored patch log { r with currentSpeed := speed } := h.congr rfl rfl rfl rfl rfl
      exact ends_writePacketData h' (.changeSpeed speed)
  | writeMemory address data => exact ends_writePacketData h _
  | resetConsole => exact ends_writePacketData h _
  | loadSaveState state => exact ends_writePacketData h _
  | serialIn data =>
    rw [perform, serialIn, added]
    split_ifs
    · exact Ends.nothing h
    · exact ends_writePacketData h _
  | changeCounter name delta =>
    rw [perform, changeCounter, Act.bind_apply, h.assertNotClosed]
    dsimp only
    rw [Act.modify_bind_apply]
    have h' counters : Mirrors isStored patch log { r with counters } := h.congr rfl rfl rfl rfl rfl
    exact ends_writePacketData (h' _) (.incrementCounter name delta)
  | setBookmarkTable table =>
    rw [perform, setBookmarkTable, added, Act.bind_apply, h.assertNotClosed]
    dsimp only
    rw [Act.get_bind_apply]
    by_cases hsame : table = r.bookmarks
    · rw [if_pos hsame, if_pos (.inl hsame)]
      exact Ends.nothing h
    · rw [if_neg hsame, Act.modify_bind_apply]
      by_cases hempty : r.currentBlobKeyframes.isEmpty = true
      · rw [if_pos hempty, if_pos (.inr hempty)]
        exact Ends.nothing (h.congr rfl rfl rfl rfl rfl)
      · rw [if_neg hempty, if_neg fun h ↦ h.elim hsame hempty]
        have h' : Mirrors isStored patch log { r with bookmarks := table, bookmarksWritten := true } :=
          h.congr rfl rfl rfl rfl rfl
        exact ends_writeBookmarkSnapshot h'
  | thumbnail top bottom => exact ends_thumbnail h top bottom
  | romReads reads =>
    rw [perform, romReads, Act.get_bind_apply]
    cases hstored : r.stored with
    | none => exact Ends.nothing h
    | some stored =>
      dsimp only
      cases addReads reads (stored.readsSince 1) with
      | none => trivial
      | some reads1 =>
        cases addReads reads (stored.readsSince 2) with
        | none => trivial
        | some reads2 =>
          have h' := h.mapStored (f := fun s ↦ { s with
            readsSince := fun m ↦
              if m = 0 then stored.readsSince 0 else if m = 1 then reads1 else reads2 })
            (fun _ ↦ rfl) fun _ ↦ rfl
          rw [hstored] at h'
          exact Ends.nothing h'
  | transientPageAccess access => exact Ends.nothing (h.mapStored (fun _ ↦ rfl) fun _ ↦ rfl)
  | setRom rom => exact Ends.nothing (h.congr rfl rfl rfl rfl rfl)
  | setRomReadsUnknown unknown => exact Ends.nothing (h.congr rfl rfl rfl rfl rfl)
  | markStart timerOffset => exact ends_syncHeader (h.congr rfl rfl rfl rfl rfl)
  | markEnd => exact ends_syncHeader (h.congr rfl rfl rfl rfl rfl)

/-! ## Runs -/

theorem tryTemp_of_sound {sink : Sink} (h : sink.Sound) (bytes : Bytes) :
    ∃ sink', tryTemp sink none bytes = (sink', none) ∧ sink'.bytes = sink.bytes ++ bytes ∧
      sink'.Sound := by
  obtain ⟨sink', hok, hbytes, hsound⟩ := Sink.appends_writeBytes bytes sink h
  refine ⟨sink', ?_, hbytes, hsound⟩
  simp only [tryTemp, hok, Option.isSome_none, Bool.false_eq_true, if_false]

/-- What a recorder is there for: things are copied to it first, then it records. -/
inductive Stage
  | copying
  | recording
deriving DecidableEq

/-- The recorder of a stage: while things are copied nothing waits and no blob is in progress. -/
structure Holds (patch : Bytes) (console : ReplayConsoleType) (stage : Stage) (log : List Part)
    (r : Recorder) : Prop where
  mirrors : Mirrors (decide (console = .nintendo3DS)) patch log r
  blob : stage = .copying → r.currentBlob = []
  nothing : stage = .copying → ∀ stored, r.stored = some stored → stored.pending = none

/-- **A file starts with its header and its patch**, on both sinks. -/
theorem holds_newBlank {input : InputBuffer} {speed : Speed} {finalSink tempSink : Sink}
    (hfinal : finalSink.Sound) (htemp : tempSink.Sound) (hfinalEmpty : finalSink.bytes = [])
    (htempEmpty : tempSink.bytes = [])
    (h : newBlank metadata patch settings input speed finalSink tempSink = .ok r ()) :
    Holds patch metadata.consoleType .copying [] r := by
  rw [newBlank] at h
  cases hraw : metadata.asRawHeader with
  | error e =>
    rw [hraw] at h
    cases h
  | ok raw =>
    rw [hraw] at h
    dsimp only at h
    split_ifs at h
    set header : ReplayHeaderRaw := { raw with patchDataLength := UInt64.ofNat patch.length }
    obtain ⟨t, ht, htBytes, htSound⟩ := tryTemp_of_sound htemp header.asBytes
    obtain ⟨f, hf, hfBytes, hfSound⟩ := Sink.appends_writeBytes header.asBytes finalSink hfinal
    obtain ⟨t', ht', htBytes', htSound'⟩ := tryTemp_of_sound htSound patch
    obtain ⟨f', hf', hfBytes', hfSound'⟩ := Sink.appends_writeBytes patch f hfSound
    simp only [ht, hf, ht', hf'] at h
    cases h
    have hlen := ReplayHeaderRaw.length_asBytes header
    have hfiles : HasFiles (header.asBytes ++ patch) (blank header (normaliseSettings settings)
        (header.asBytes.length + patch.length) input speed ⟨f', t', false, none⟩) := by
      refine ⟨⟨f', t', rfl, hfSound', htSound', ?_, ?_⟩, ?_, ?_⟩
      · rw [hfBytes', hfBytes, hfinalEmpty, List.nil_append]
      · rw [htBytes', htBytes, htempEmpty, List.nil_append]
        exact (List.append_nil _).symm
      · exact List.length_append.symm
      · rw [List.length_append, hlen]
        exact Nat.le_add_right _ _
    have hdefault : ∀ stored, (blank header (normaliseSettings settings)
        (header.asBytes.length + patch.length) input speed ⟨f', t', false, none⟩).stored =
          some stored → stored = StoredKeyframes.default := by
      intro stored hstored
      rw [blank] at hstored
      dsimp only at hstored
      split_ifs at hstored
      exact (Option.some.inj hstored).symm
    have hconsole : header.consoleTypeOrDefault = metadata.consoleType := by
      obtain ⟨-, -, -, hconsole, -⟩ := ReplayFileMetadata.asRawHeader_ok hraw
      rw [ReplayHeaderRaw.consoleTypeOrDefault, hconsole, ReplayConsoleType.ofNat?_toNat]
      rfl
    refine ⟨⟨?_, ⟨_, hfiles, fun stored hstored ↦ ⟨rfl, ?_⟩⟩, fun stored hstored hsome ↦ ?_⟩,
      fun _ ↦ rfl, fun _ stored hstored ↦ ?_⟩
    · rw [blank, hconsole]
      dsimp only
      split_ifs with h
      · exact (decide_eq_true h).symm
      · exact (decide_eq_false h).symm
    · rw [hdefault stored hstored]
      refine ⟨[], [], [], rfl, writes_nil.mpr rfl, ?_, writes_nil.mpr rfl, fun _ ↦ rfl⟩
      rw [List.append_nil, List.drop_append_of_le_length (by rw [hlen]), ← hlen,
        List.drop_length, List.nil_append]
    · rw [hdefault stored hstored] at hsome
      cases hsome
    · rw [hdefault stored hstored]
      rfl

/-! ## What a resume copies -/

section Copying

variable {console : ReplayConsoleType}

section

variable (h : Holds patch console .copying log r)
include h

/-- A copy leaves a recorder that nothing waits in and that has no blob in progress. -/
theorem Holds.copied {part : List Part}
    (hmirrors : Mirrors (decide (console = .nintendo3DS)) patch (log ++ part) r') (hsame : OtherFiles r r') :
    Holds patch console .copying (log ++ part) r' := by
  refine ⟨hmirrors, fun _ ↦ ?_, fun _ ↦ ?_⟩
  · rw [hsame]
    exact h.blob rfl
  · rw [hsame]
    exact h.nothing rfl

/-- What both sinks get is a part of the stream, in a Nintendo 3DS file. -/
theorem Holds.grow {own : Bytes} {part : Part}
    (hown : part.Writes own) (hfile : HasFiles file r) (hfile' : HasFiles (file ++ own) r')
    (hsame : OtherFiles r r') :
    Mirrors (decide (console = .nintendo3DS)) patch (log ++ if r.stored.isSome then [part] else []) r' := by
  cases hstored : r.stored with
  | some stored => exact h.mirrors.add hstored (h.nothing rfl stored hstored) hfile' hsame hfile hown
  | none =>
    have hkind := h.mirrors.kind
    rw [hstored] at hkind
    rw [← hkind]
    exact InBlobs.mirrors ⟨by rw [hsame]; exact hstored, _, hfile'⟩

/-- A blob is copied. -/
theorem holds_appendCompressedBlobVerbatim
    (blob : CompressedBlob) (hrun : appendCompressedBlobVerbatim blob r = .ok () r') :
    Holds patch console .copying (log ++ r.part (.compressedBlob blob)) r' := by
  obtain ⟨file, hfile, -⟩ := h.mirrors.files
  have hclear : ∀ sink, id { r with sink } = { id r with sink } := fun sink ↦ rfl
  have hgrows := grows_blob hfile (Packet.compressedBlob blob).write hclear (h.blob rfl)
  rw [appendCompressedBlobVerbatim, Act.bind_apply, hfile.assertNotClosed] at hrun
  dsimp only at hrun
  rw [Act.bind_apply, hfile.refuseIfFinalFailed] at hrun
  dsimp only at hrun
  rw [Act.get_bind_apply] at hrun
  -- nothing is forgotten here, where `nextBlob` forgets the blob in progress
  have hrun' : (do
      let written ← finalWrite do
        Sink.truncate r.currentBlobOffset
        let written ← Sink.writePacketData (Packet.compressedBlob blob).write
        Sink.flush
        pure written
      Act.modify id
      advanceOffset r.currentBlobOffset written
      tempWrite do
        Sink.truncate r.currentBlobOffset
        let _ ← Sink.writePacketData (Packet.compressedBlob blob).write
        pure () : RecorderAction Unit) r = .ok () r' := hrun
  rw [hrun'] at hgrows
  have hwrites : (Part.packet (.compressedBlob blob) []).Writes (Packet.compressedBlob blob).write :=
    (List.append_nil _).symm
  exact h.copied (h.grow hwrites hfile hgrows.1 hgrows.2) hgrows.2

/-- A packet is copied. -/
theorem holds_appendStoredPacketVerbatim (packet : Packet) (extra : Bytes)
    (hrun : appendStoredPacketVerbatim packet extra r = .ok () r') : Holds patch console .copying
      (log ++ if r.stored.isSome then [.packet packet extra] else []) r' := by
  obtain ⟨file, hfile, -⟩ := h.mirrors.files
  have hgrows := grows_writeDirectNow hfile (h.blob rfl) packet.write extra
  have hdirect : appendStoredPacketVerbatim packet extra r =
      writeDirectNow packet.write extra r := by
    rw [appendStoredPacketVerbatim, writeDirect, Act.get_bind_apply]
    cases hstored : r.stored with
    | none => rfl
    | some stored =>
      dsimp only
      rw [h.nothing rfl stored hstored]
      rfl
  rw [hdirect] at hrun
  rw [hrun] at hgrows
  have hwrites : (Part.packet packet extra).Writes (packet.write ++ extra) := rfl
  exact h.copied (h.grow hwrites hfile hgrows.1 hgrows.2) hgrows.2

theorem Holds.prime (keyframe : KeyframeMetadata)
    (table : BookmarkTable) : Holds patch console .recording log
      ((r.primeForResume keyframe).seedBookmarkTable table) := by
  obtain ⟨⟨hkind, ⟨file, hfile, hstream⟩, -⟩, hblob, hnothing⟩ := h
  have hprimed : HasFiles file ((r.primeForResume keyframe).seedBookmarkTable table) :=
    hfile.congr rfl rfl (hblob rfl).symm
  have hdefault : ∀ stored', ((r.primeForResume keyframe).seedBookmarkTable table).stored =
      some stored' → (∃ stored, r.stored = some stored) ∧ stored' = StoredKeyframes.default := by
    intro stored' hstored'
    obtain ⟨stored, hstored, rfl⟩ := Option.map_eq_some_iff.mp hstored'
    exact ⟨⟨stored, hstored⟩, rfl⟩
  refine ⟨⟨by rw [← hkind]; exact Option.isSome_map, ⟨file, hprimed, fun stored' hstored' ↦ ⟨rfl, ?_⟩⟩, fun stored' hstored' hsome ↦ ?_⟩,
    (fun h ↦ by cases h), fun h ↦ by cases h⟩
  · obtain ⟨⟨stored, hstored⟩, rfl⟩ := hdefault stored' hstored'
    obtain ⟨-, written, waiting, bytes, hlog, hwritten, hdrop, -, hno⟩ := hstream stored hstored
    rw [hnothing rfl stored hstored] at hlog hno
    obtain rfl := hno rfl
    exact ⟨written, [], bytes, hlog, hwritten, hdrop, writes_nil.mpr rfl, fun _ ↦ rfl⟩
  · obtain ⟨-, rfl⟩ := hdefault stored' hstored'
    cases hsome

end

end Copying

/-! ## Every run -/

/-- The recorder is reached by calls on sinks that never fail, with these parts given to it: it is
started, what a resume keeps is copied, then calls are made, whether they fail or not. -/
inductive Reaches (x : Externals) (patch : Bytes) (console : ReplayConsoleType) :
    Stage → List Part → Recorder → Prop
  | blank {metadata : ReplayFileMetadata} {settings : RecorderSettings} {input : InputBuffer}
      {speed : Speed} {finalSink tempSink : Sink} {r : Recorder} (hfinal : finalSink.Sound)
      (htemp : tempSink.Sound) (hfinalEmpty : finalSink.bytes = []) (htempEmpty : tempSink.bytes = [])
      (hconsole : metadata.consoleType = console)
      (h : newBlank metadata patch settings input speed finalSink tempSink = .ok r ()) :
      Reaches x patch console .copying [] r
  | setRom {log : List Part} {r : Recorder} (hr : Reaches x patch console .copying log r)
      (rom : Bytes) (unknown : Bool) :
      Reaches x patch console .copying log { r with rom := some rom, romReadsUnknown := unknown }
  | blob {log : List Part} {r r' : Recorder} (hr : Reaches x patch console .copying log r)
      {blob : CompressedBlob} (h : appendCompressedBlobVerbatim blob r = .ok () r') :
      Reaches x patch console .copying (log ++ r.part (.compressedBlob blob)) r'
  | packet {log : List Part} {r r' : Recorder} (hr : Reaches x patch console .copying log r)
      {packet : Packet} {extra : Bytes}
      (h : appendStoredPacketVerbatim packet extra r = .ok () r') :
      Reaches x patch console .copying
        (log ++ if r.stored.isSome then [.packet packet extra] else []) r'
  | new {log : List Part} {r : Recorder} (hr : Reaches x patch console .copying log r) :
      Reaches x patch console .recording log r
  | primed {log : List Part} {r : Recorder} (hr : Reaches x patch console .copying log r)
      (keyframe : KeyframeMetadata) (table : BookmarkTable) :
      Reaches x patch console .recording log ((r.primeForResume keyframe).seedBookmarkTable table)
  | ok {log : List Part} {r r' : Recorder} (hr : Reaches x patch console .recording log r)
      {call : Call} (h : perform x call r = .ok () r') :
      Reaches x patch console .recording (log ++ added x r call) r'
  | error {log : List Part} {r r' : Recorder} (hr : Reaches x patch console .recording log r)
      {call : Call} {e : ReplayFileWriteError} (h : perform x call r = .error e r') :
      Reaches x patch console .recording log r'

variable {console : ReplayConsoleType} {stage : Stage}

/-- **Every recorder that is reached holds the parts that it was given.** -/
theorem Reaches.holds (h : Reaches x patch console stage log r)
    (hx : console = .nintendo3DS → Compresses x) : Holds patch console stage log r := by
  have hcompresses : decide (console = .nintendo3DS) = true → Compresses x := fun h ↦
    hx (of_decide_eq_true h)
  induction h with
  | blank hfinal htemp hfinalEmpty htempEmpty hconsole h =>
    subst hconsole
    exact holds_newBlank hfinal htemp hfinalEmpty htempEmpty h
  | setRom hr rom unknown ih =>
    exact ⟨ih.mirrors.congr rfl rfl rfl rfl rfl, ih.blob, ih.nothing⟩
  | blob hr h ih => exact holds_appendCompressedBlobVerbatim ih _ h
  | packet hr h ih => exact holds_appendStoredPacketVerbatim ih _ _ h
  | new hr ih => exact ⟨ih.mirrors, (fun h ↦ by cases h), fun h ↦ by cases h⟩
  | primed hr keyframe table ih => exact ih.prime keyframe table
  | @ok log r r' hr call h ih =>
    have hends := ends_perform ih.mirrors hcompresses call
    rw [h] at hends
    exact ⟨hends, (fun h ↦ by cases h), fun h ↦ by cases h⟩
  | @error log r r' hr call e h ih =>
    have hends := ends_perform ih.mirrors hcompresses call
    rw [h] at hends
    exact ⟨hends, (fun h ↦ by cases h), fun h ↦ by cases h⟩

/-- A file starts with its first keyframe. -/
theorem newWithMetadata_ok {start : TimestampMillis} {input : InputBuffer} {speed : Speed}
    {state : ByteVec} {finalSink tempSink : Sink}
    (h : newWithMetadata x metadata patch settings start input speed state finalSink tempSink =
      .ok r ()) :
    ∃ b, newBlank metadata patch settings input speed finalSink tempSink = .ok b () ∧
      perform x (.insertKeyframe state start .auto) b = .ok () r := by
  rw [newWithMetadata] at h
  cases hblank : newBlank metadata patch settings input speed finalSink tempSink with
  | error e _ =>
    rw [hblank] at h
    cases h
  | abort =>
    rw [hblank] at h
    cases h
  | ok b _ =>
    rw [hblank] at h
    dsimp only at h
    cases hinsert : insertKeyframe x state start b with
    | error e u =>
      rw [hinsert] at h
      cases h
    | abort =>
      rw [hinsert] at h
      cases h
    | ok frame r' =>
      rw [hinsert] at h
      cases h
      refine ⟨b, rfl, ?_⟩
      rw [perform, Act.bind_apply, ← insertKeyframe, hinsert]
      rfl

/-- A recorder that `newWithMetadata` returns is reached. -/
theorem reaches_newWithMetadata {start : TimestampMillis} {input : InputBuffer} {speed : Speed}
    {state : ByteVec} {finalSink tempSink : Sink} (hfinal : finalSink.Sound)
    (htemp : tempSink.Sound) (hfinalEmpty : finalSink.bytes = []) (htempEmpty : tempSink.bytes = [])
    (h : newWithMetadata x metadata patch settings start input speed state finalSink tempSink =
      .ok r ()) :
    ∃ b, newBlank metadata patch settings input speed finalSink tempSink = .ok b () ∧
      Reaches x patch metadata.consoleType .recording (added x b (.insertKeyframe state start .auto))
        r := by
  obtain ⟨b, hblank, hperform⟩ := newWithMetadata_ok h
  exact ⟨b, hblank,
    (Reaches.blank (x := x) hfinal htemp hfinalEmpty htempEmpty rfl hblank).new.ok hperform⟩

/-- **The temp sink always equals the stream so far.**  The final sink holds as many bytes as the
position says.  The temp sink holds these and then the blob in progress; in a Nintendo 3DS file both
sinks hold the same, a header, the patch and every part that was given to the recorder, in their
order, but for the keyframe that waits and the packets that wait behind it. -/
theorem temp_mirrors_stream (h : Reaches x patch console stage log r)
    (hx : console = .nintendo3DS → Compresses x) :
    ∃ finalSink tempSink, r.sink = some ⟨finalSink, tempSink, false, none⟩ ∧
      finalSink.bytes.length = r.currentBlobOffset ∧
      (console ≠ .nintendo3DS → r.stored = none ∧
        tempSink.bytes = finalSink.bytes.take r.currentBlobOffset ++ r.currentBlob) ∧
      (console = .nintendo3DS → ∃ stored, r.stored = some stored ∧
        tempSink.bytes = finalSink.bytes ∧
        ∃ header written waiting bytes, header.length = headerLen ∧
          log = written ++ (stored.pending.map Part.keyframe).toList ++ waiting ∧
          Writes written bytes ∧ finalSink.bytes = header ++ patch ++ bytes ∧
          Writes waiting stored.pendingPackets ∧ (stored.pending = none → waiting = [])) := by
  obtain ⟨⟨hkind, ⟨file, hfile, hstream⟩, -⟩, -, -⟩ := h.holds hx
  obtain ⟨finalSink, tempSink, hsink, -, -, hbytes, htemp⟩ := hfile.sink
  subst hbytes
  refine ⟨finalSink, tempSink, hsink, hfile.offset.symm, fun hconsole ↦ ⟨?_, ?_⟩, fun hconsole ↦ ?_⟩
  · rw [decide_eq_false hconsole] at hkind
    exact Option.not_isSome_iff_eq_none.mp (by rw [hkind]; exact Bool.false_ne_true)
  · rw [hfile.offset, List.take_length]
    exact htemp
  · rw [decide_eq_true hconsole] at hkind
    obtain ⟨stored, hstored⟩ := Option.isSome_iff_exists.mp hkind
    obtain ⟨hblob, written, waiting, bytes, hlog, hwritten, hdrop, hrest⟩ := hstream stored hstored
    refine ⟨stored, hstored, by rw [htemp, hblob, List.append_nil], finalSink.bytes.take headerLen,
      written, waiting, bytes, List.length_take_of_le hfile.header, hlog, hwritten, ?_, hrest⟩
    rw [List.append_assoc, ← hdrop, List.take_append_drop]

/-- Settings under which keyframes wait. -/
def maskingSettings : RecorderSettings :=
  { exampleSettings with storedKeyframeMaskTransients := true }

/-- The first keyframe of a Nintendo 3DS file waits, and a frame waits behind it. -/
theorem temp_mirrors_stream_pending :
    ∃ r₀ r finalSink tempSink stored,
      newWithMetadata .storing (.unnamed .nintendo3DS) [7] maskingSettings 0 [] Speed.default [1, 2]
        Sink.reliable Sink.reliable = .ok r₀ () ∧
      perform .storing (.nextFrame 16) r₀ = .ok () r ∧
      r.sink = some ⟨finalSink, tempSink, false, none⟩ ∧ r.stored = some stored ∧
      tempSink.bytes = finalSink.bytes ∧ finalSink.bytes.length = headerLen + 1 ∧
      stored.pendingPackets = (Packet.nextFrame 16).write := by
  obtain ⟨r₀, ⟨⟩, hnew, hrest⟩ := Outcome.exists_ok_of_any
    (o := newWithMetadata .storing (.unnamed .nintendo3DS) [7] maskingSettings 0 [] Speed.default [1, 2]
      Sink.reliable Sink.reliable)
    (f := fun r₀ _ ↦ (perform .storing (.nextFrame 16) r₀).any fun _ (r : Recorder) ↦
      decide (r.currentBlobOffset = headerLen + 1) &&
        decide (r.stored.map StoredKeyframes.pendingPackets =
          some (Packet.nextFrame 16).write)) (by decide +kernel)
  obtain ⟨⟨⟩, r, hrun, hrest⟩ := Outcome.exists_ok_of_any hrest
  rw [Bool.and_eq_true] at hrest
  have hoffset := of_decide_eq_true hrest.1
  have hpackets := of_decide_eq_true hrest.2
  have hsound : Sink.reliable.Sound := fun o ho ↦ by cases ho
  obtain ⟨b, -, hreaches⟩ := reaches_newWithMetadata hsound hsound rfl rfl hnew
  obtain ⟨finalSink, tempSink, hsink, hlen, -, hstored⟩ :=
    temp_mirrors_stream (hreaches.ok hrun) fun _ ↦ Externals.storing_total.compress
  obtain ⟨stored, hstored, hsame, -⟩ := hstored rfl
  rw [hstored] at hpackets
  exact ⟨r₀, r, finalSink, tempSink, stored, hnew, hrun, hsink, hstored, hsame, hlen.trans hoffset,
    Option.some.inj hpackets⟩

end Recorder

end SuperShuckie
