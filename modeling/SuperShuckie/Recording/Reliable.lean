import SuperShuckie.Recorder.Calls

/-!
# A recorder whose sinks never fail

With sinks that never fail, and encoders that never do, a call of a recorder fails for two reasons
only: it goes back in time, or a buffer would need more memory than there can be (`OutOfMemory`).
So calls that never go back in time succeed, as long as there is room (`run_reliable`).

What is said of the recorder after a call, `Able t c`, is that its sinks still never fail, that its
clock has not passed `t` and that its counters are `c`.
-/

set_option autoImplicit false

namespace SuperShuckie

open ByteFormat

/-- The encoders never fail. -/
structure Externals.Total (x : Externals) : Prop where
  compress : ∀ level window pfx data, ∃ frame, x.zstd.compress2 level window pfx data = .ok frame
  jpeg : ∀ width height pixels quality, ∃ bytes, x.encodeJpeg width height pixels quality = .ok bytes

/-- `ZSTD_BLOCKSIZE_MAX`. -/
def blockSizeMax : Nat := 128 * 1024

/-- Raw blocks of a frame, of `blockSizeMax` bytes each but for the last. -/
def rawBlocks (data : Bytes) : Bytes :=
  if data.length ≤ blockSizeMax then leBytes 3 (data.length * 8 + 1) ++ data
  else
    leBytes 3 (blockSizeMax * 8) ++ (data.take blockSizeMax ++ rawBlocks (data.drop blockSizeMax))
termination_by data.length
decreasing_by
  have : 0 < blockSizeMax := by decide
  rw [List.length_drop]
  omega

/-- Externals whose compressor stores what it is given, in as many raw blocks as that takes, and
whose pictures are empty. -/
def Externals.storing : Externals :=
  { Externals.plain with
    zstd := { rawZstd with
      compress2 := fun level window pfx data ↦
        match rawZstd.compress2 level window pfx data with
        | .ok frame => .ok frame
        | .error _ =>
          .ok ([0x28, 0xB5, 0x2F, 0xFD, 0xE0] ++ (leBytes 8 data.length ++ rawBlocks data)) }
    encodeJpeg := fun _ _ _ _ ↦ .ok [0xFF, 0xD8, 0xFF, 0xD9] }

theorem Externals.storing_total : Externals.storing.Total where
  compress level window pfx data := by
    simp only [storing]
    split
    · exact ⟨_, rfl⟩
    · exact ⟨_, rfl⟩
  jpeg _ _ _ _ := ⟨_, rfl⟩

/-- The error of a buffer that cannot grow. -/
def ReplayFileWriteError.OutOfMemory (e : ReplayFileWriteError) : Prop :=
  e = .other "write_packet_data failed to reserve memory" ∨
    e = .other "write_bytes failed to reserve memory"

namespace Recorder

/-- The sinks never fail and never did, the clock is at `t` at most, and the counters are `c`. -/
structure Able (t : TimestampMillis) (c : OrdMap String SignedInteger) (r : Recorder) : Prop where
  sink : ∃ finalBytes tempBytes, r.sink = some ⟨⟨finalBytes, []⟩, ⟨tempBytes, []⟩, false, none⟩
  clock : r.elapsedMillis ≤ t
  counters : r.counters = c

/-- From a state with `P`, the operation leaves an able recorder, and fails only for want of
memory. -/
def Goes {α : Type} (P : Recorder → Prop) (f : RecorderAction α) (t : TimestampMillis)
    (c : OrdMap String SignedInteger) : Prop :=
  Act.Triple P f (fun _ ↦ Able t c) fun e r ↦ e.OutOfMemory ∧ Able t c r

variable {t : TimestampMillis} {c : OrdMap String SignedInteger}

/-- What the clock and the sinks do not depend on may change. -/
theorem Able.congr {r r' : Recorder} (h : Able t c r) (hsink : r'.sink = r.sink)
    (hclock : r'.elapsedMillis = r.elapsedMillis) (hcounters : r'.counters = r.counters) :
    Able t c r' :=
  ⟨hsink ▸ h.sink, hclock ▸ h.clock, hcounters ▸ h.counters⟩

/-! ## Steps -/

variable {α : Type} {now : TimestampMillis}

theorem Goes.pure (a : α) : Goes (Able t c) (Pure.pure a) t c :=
  Act.Triple.pure fun _ h ↦ h

theorem Goes.bind {β : Type} {P : Recorder → Prop} {f : RecorderAction α} {g : α → RecorderAction β}
    (hf : Goes P f t c) (hg : ∀ a, Goes (Able t c) (g a) t c) :
    Goes P (f >>= g) t c := Act.Triple.bind hf hg

theorem Goes.modify {f : Recorder → Recorder} (hsink : ∀ r, (f r).sink = r.sink)
    (hclock : ∀ r, (f r).elapsedMillis = r.elapsedMillis)
    (hcounters : ∀ r, (f r).counters = r.counters) : Goes (Able t c) (Act.modify f) t c :=
  Act.Triple.modify fun r h ↦ h.congr (hsink r) (hclock r) (hcounters r)

theorem Goes.get_bind {f : Recorder → RecorderAction α}
    (h : ∀ r, Able t c r → Goes (Able t c) (f r) t c) : Goes (Able t c) (Act.get >>= f) t c :=
  Act.Triple.get_bind fun r hr ↦ (h r hr).pre (fun _ heq ↦ heq ▸ hr)

theorem Goes.ite {P : Recorder → Prop} {q : Prop} [Decidable q] {f g : RecorderAction α}
    (hf : q → Goes P f t c) (hg : ¬ q → Goes P g t c) : Goes P (if q then f else g) t c := by
  split
  · exact hf ‹_›
  · exact hg ‹_›

theorem Goes.abort {P : Recorder → Prop} : Goes P (Act.abort : RecorderAction α) t c :=
  Act.Triple.abort

/-! ## Sinks -/

/-- An operation on a sink that never fails succeeds. -/
def SinkGoes {α : Type} (f : Sink.SinkAction α) : Prop :=
  ∀ bytes, ∃ a bytes', f ⟨bytes, []⟩ = .ok a ⟨bytes', []⟩

theorem sinkGoes_perform (done : Bytes → Bytes) (kept : Nat → Bytes → Bytes) :
    SinkGoes (Sink.perform done kept) := fun bytes ↦ ⟨(), done bytes, rfl⟩

theorem SinkGoes.pure (a : α) : SinkGoes (Pure.pure a) := fun bytes ↦ ⟨a, bytes, rfl⟩

theorem SinkGoes.bind {β : Type} {f : Sink.SinkAction α} {g : α → Sink.SinkAction β}
    (hf : SinkGoes f) (hg : ∀ a, SinkGoes (g a)) : SinkGoes (f >>= g) := by
  intro bytes
  obtain ⟨a, bytes', hfa⟩ := hf bytes
  obtain ⟨b, bytes'', hgb⟩ := hg a bytes'
  exact ⟨b, bytes'', by rw [Act.bind_apply, hfa]; exact hgb⟩

theorem sinkGoes_writePacketData (bytes : Bytes) : SinkGoes (Sink.writePacketData bytes) :=
  (sinkGoes_perform _ _).bind fun _ ↦ .pure _

theorem goes_finalWrite {f : Sink.SinkAction α} (hf : SinkGoes f) :
    Goes (Able t c) (finalWrite f) t c := by
  intro r hr
  obtain ⟨finalBytes, tempBytes, hsink⟩ := hr.sink
  obtain ⟨a, bytes', hfa⟩ := hf finalBytes
  rw [finalWrite, hsink]
  simp only [hfa]
  exact ⟨⟨bytes', tempBytes, rfl⟩, hr.clock, hr.counters⟩

theorem goes_tempWrite {f : Sink.SinkAction Unit} (hf : SinkGoes f) :
    Goes (Able t c) (tempWrite f) t c := by
  intro r hr
  obtain ⟨finalBytes, tempBytes, hsink⟩ := hr.sink
  obtain ⟨a, bytes', hfa⟩ := hf tempBytes
  rw [tempWrite, hsink]
  simp only [Option.isSome_none, Bool.false_eq_true, if_false, hfa]
  exact ⟨⟨finalBytes, bytes', rfl⟩, hr.clock, hr.counters⟩

theorem goes_assertNotClosed : Goes (Able t c) assertNotClosed t c := by
  intro r hr
  obtain ⟨finalBytes, tempBytes, hsink⟩ := hr.sink
  rw [assertNotClosed, isClosed, hsink]
  exact hr

theorem goes_refuseIfFinalFailed : Goes (Able t c) refuseIfFinalFailed t c := by
  intro r hr
  obtain ⟨finalBytes, tempBytes, hsink⟩ := hr.sink
  rw [refuseIfFinalFailed, hsink]
  exact hr

theorem goes_advanceOffset (offset written : Nat) : Goes (Able t c) (advanceOffset offset written) t c :=
  .ite (fun _ ↦ .modify (fun _ ↦ rfl) (fun _ ↦ rfl) fun _ ↦ rfl) fun _ ↦ .abort

theorem goes_syncHeader : Goes (Able t c) syncHeader t c :=
  goes_assertNotClosed.bind fun _ ↦ goes_refuseIfFinalFailed.bind fun _ ↦ .get_bind fun _ _ ↦
    (goes_finalWrite (sinkGoes_perform _ _)).bind fun _ ↦ goes_tempWrite (sinkGoes_perform _ _)

/-! ## Packets -/

theorem goes_vecWritePacketData (buffer bytes : Bytes) :
    Goes (Able t c) (Act.ofExcept (vecWritePacketData buffer bytes)) t c := by
  rw [vecWritePacketData]
  split
  · exact .pure _
  · exact Act.Triple.fail fun _ h ↦ ⟨.inl rfl, h⟩

theorem goes_vecWriteBytes (buffer bytes : Bytes) :
    Goes (Able t c) (Act.ofExcept (vecWriteBytes buffer bytes)) t c := by
  rw [vecWriteBytes]
  split
  · exact .pure _
  · exact Act.Triple.fail fun _ h ↦ ⟨.inr rfl, h⟩

theorem goes_writeDirectNow (packet extra : Bytes) : Goes (Able t c) (writeDirectNow packet extra) t c :=
  have hwrite : SinkGoes (do
      let _ ← Sink.writePacketData packet
      Sink.writeBytes extra) :=
    (sinkGoes_writePacketData packet).bind fun _ ↦ sinkGoes_perform _ _
  goes_assertNotClosed.bind fun _ ↦ goes_refuseIfFinalFailed.bind fun _ ↦
    (goes_finalWrite hwrite).bind fun _ ↦ .get_bind fun _ _ ↦
      (goes_advanceOffset _ _).bind fun _ ↦ goes_tempWrite hwrite

theorem goes_writeDirect (packet extra : Bytes) : Goes (Able t c) (writeDirect packet extra) t c := by
  refine .get_bind fun r _ ↦ ?_
  cases r.stored with
  | none => exact goes_writeDirectNow packet extra
  | some stored =>
    refine .ite (fun _ ↦ ?_) fun _ ↦ goes_writeDirectNow packet extra
    exact goes_assertNotClosed.bind fun _ ↦ (goes_vecWritePacketData _ _).bind fun _ ↦
      Goes.bind (.modify (fun _ ↦ rfl) (fun _ ↦ rfl) fun _ ↦ rfl) fun _ ↦ (goes_vecWriteBytes _ _).bind fun _ ↦
        .modify (fun _ ↦ rfl) (fun _ ↦ rfl) fun _ ↦ rfl

theorem goes_writePacketData (packet : Packet) : Goes (Able t c) (writePacketData packet) t c :=
  .get_bind fun _ _ ↦ .ite (fun _ ↦ goes_writeDirect _ _) fun _ ↦
    goes_assertNotClosed.bind fun _ ↦ (goes_vecWritePacketData _ _).bind fun _ ↦
      Goes.bind (.modify (fun _ ↦ rfl) (fun _ ↦ rfl) fun _ ↦ rfl) fun _ ↦
        goes_tempWrite ((sinkGoes_writePacketData _).bind fun _ ↦ .pure _)

theorem goes_writeBookmarkSnapshot : Goes (Able t c) writeBookmarkSnapshot t c :=
  Goes.bind (.modify (fun _ ↦ rfl) (fun _ ↦ rfl) fun _ ↦ rfl) fun _ ↦ .get_bind fun _ _ ↦ goes_writePacketData _

/-! ## Blobs and keyframes -/

variable {x : Externals} (hx : x.Total)
include hx

theorem goes_nextBlob : Goes (Able t c) (nextBlob x) t c := by
  refine goes_assertNotClosed.bind fun _ ↦ .get_bind fun r _ ↦ ?_
  cases r.currentBlobKeyframes with
  | nil => exact .pure ()
  | cons first rest =>
    obtain ⟨compressed, hcompressed⟩ : ∃ compressed,
        x.zstd.compressData r.currentBlob r.settings.compressionLevel = .ok compressed :=
      hx.compress _ _ _ _
    simp only [hcompressed]
    have hwrite : ∀ bytes : Bytes, SinkGoes (do
        Sink.truncate r.currentBlobOffset
        let written ← Sink.writePacketData bytes
        Sink.flush
        pure written) := fun bytes ↦
      (sinkGoes_perform _ _).bind fun _ ↦ (sinkGoes_writePacketData bytes).bind fun _ ↦
        (sinkGoes_perform _ _).bind fun _ ↦ .pure _
    exact (goes_finalWrite (hwrite _)).bind fun _ ↦
      Goes.bind (.modify (fun _ ↦ rfl) (fun _ ↦ rfl) fun _ ↦ rfl) fun _ ↦ (goes_advanceOffset _ _).bind fun _ ↦
        goes_tempWrite ((sinkGoes_perform _ _).bind fun _ ↦
          (sinkGoes_writePacketData _).bind fun _ ↦ .pure _)

theorem goes_encodeStoredKeyframe (keyframe : PendingKeyframe) (access : Option (List UInt8)) :
    Goes (Able t c) (encodeStoredKeyframe x keyframe access) t c := by
  refine .get_bind fun r _ ↦ ?_
  cases r.stored with
  | none => exact .abort
  | some stored =>
    dsimp only
    cases r.storedPayload x stored keyframe access with
    | none => exact .abort
    | some payload =>
      obtain ⟨state, payload, reference⟩ := payload
      obtain ⟨frame, hframe⟩ : ∃ frame,
          r.compressPayload x keyframe.level payload reference = .ok frame := by
        rw [compressPayload]
        split
        · exact hx.compress _ _ _ _
        · exact hx.compress _ _ _ _
      simp only [hframe]
      exact (goes_writeDirectNow _ _).bind fun _ ↦
        Goes.bind (.modify (fun _ ↦ rfl) (fun _ ↦ rfl) fun _ ↦ rfl) fun _ ↦ .get_bind fun _ _ ↦
          .ite (fun _ ↦ goes_writeBookmarkSnapshot) fun _ ↦ .pure ()

omit hx in
theorem goes_flushPendingPackets : Goes (Able t c) flushPendingPackets t c := by
  refine .get_bind fun r _ ↦ ?_
  cases r.stored with
  | none => exact .pure ()
  | some stored =>
    refine .ite (fun _ ↦ .pure ()) fun _ ↦ ?_
    exact Goes.bind (.modify (fun _ ↦ rfl) (fun _ ↦ rfl) fun _ ↦ rfl) fun _ ↦ goes_assertNotClosed.bind fun _ ↦
      goes_refuseIfFinalFailed.bind fun _ ↦ (goes_finalWrite (sinkGoes_perform _ _)).bind fun _ ↦
        .get_bind fun _ _ ↦ (goes_advanceOffset _ _).bind fun _ ↦
          goes_tempWrite (sinkGoes_perform _ _)

omit hx in
/-- A call that sets the clock looks at the state first: the clock has not passed the time of the
call, so that the call is not refused. -/
theorem Goes.clocked (hnow : t ≤ now) {error : Recorder → ReplayFileWriteError}
    {f : Recorder → RecorderAction α} (h : ∀ r, Able t c r → Goes (fun u ↦ u = r) (f r) now c) :
    Goes (Able t c) (do
      let r ← Act.get
      if now < r.elapsedMillis then Act.fail (error r) else f r) now c := by
  refine Act.Triple.get_bind fun r hr ↦ ?_
  rw [if_neg (UInt64.not_lt.mpr (UInt64.le_trans hr.clock hnow))]
  exact h r hr

omit hx in
/-- It is not refused for being closed either. -/
theorem Goes.notClosed {c' : OrdMap String SignedInteger} {P : Recorder → Prop}
    {f : RecorderAction α} (hP : ∀ r, P r → Able t c r) (h : Goes P f now c') :
    Goes P (assertNotClosed >>= fun _ ↦ f) now c' := by
  intro r hr
  obtain ⟨finalBytes, tempBytes, hsink⟩ := (hP r hr).sink
  rw [Act.bind_apply, assertNotClosed, isClosed, hsink]
  exact h r hr

omit hx in
/-- Then it sets the clock. -/
theorem Goes.modify_bind {r : Recorder} (hr : Able t c r) {g : Recorder → Recorder}
    {f : RecorderAction α} (hsink : (g r).sink = r.sink) (hclock : (g r).elapsedMillis = now)
    (hcounters : (g r).counters = r.counters) (hf : Goes (Able now c) f now c) :
    Goes (fun u ↦ u = r) (Act.modify g >>= fun _ ↦ f) now c :=
  Act.Triple.modify_bind (fun u hu ↦ by
    subst hu
    exact ⟨hsink ▸ hr.sink, hclock ▸ UInt64.le_refl _, hcounters ▸ hr.counters⟩) hf

theorem goes_insertStoredKeyframe (hnow : t ≤ now) (state : Bytes) (encoding : KeyframeEncoding) :
    Goes (Able t c) (insertStoredKeyframe x state now encoding) now c := by
  refine .notClosed (fun _ h ↦ h) (.clocked hnow fun r hr ↦ ?_)
  cases r.stored with
  | none => exact .abort
  | some stored =>
    have hlast : Goes (Able now c) (do
        let r ← Act.get
        pure r.elapsedFrames) now c := .get_bind fun _ _ ↦ .pure _
    refine .modify_bind hr rfl rfl rfl ?_
    dsimp only
    refine .ite (fun _ ↦ ?_) fun _ ↦ (goes_encodeStoredKeyframe hx _ _).bind fun _ ↦ hlast
    cases stored.pending with
    | none => exact Goes.bind (.modify (fun _ ↦ rfl) (fun _ ↦ rfl) fun _ ↦ rfl) fun _ ↦ hlast
    | some previous =>
      exact Goes.bind (.modify (fun _ ↦ rfl) (fun _ ↦ rfl) fun _ ↦ rfl) fun _ ↦
        (goes_encodeStoredKeyframe hx _ _).bind fun _ ↦ goes_flushPendingPackets.bind fun _ ↦
          Goes.bind (.modify (fun _ ↦ rfl) (fun _ ↦ rfl) fun _ ↦ rfl) fun _ ↦
            Goes.bind (.modify (fun _ ↦ rfl) (fun _ ↦ rfl) fun _ ↦ rfl) fun _ ↦ hlast

theorem goes_splitBlob : Goes (Able t c) (splitBlob x) t c :=
  .get_bind fun _ _ ↦ .ite (fun _ ↦ (goes_nextBlob hx).bind fun _ ↦
    .modify (fun _ ↦ rfl) (fun _ ↦ rfl) fun _ ↦ rfl) fun _ ↦ .pure ()

theorem goes_insertKeyframeWith (hnow : t ≤ now) (state : Bytes) (encoding : KeyframeEncoding) :
    Goes (Able t c) (insertKeyframeWith x state now encoding) now c := by
  have hlast : Goes (Able now c) (do
      let r ← Act.get
      pure r.elapsedFrames) now c := .get_bind fun _ _ ↦ .pure _
  refine Act.Triple.get_bind fun r hr ↦ Goes.ite (fun _ ↦ ?_) fun _ ↦ Goes.notClosed (t := t) (c := c) ?_ ?_
  · exact (goes_insertStoredKeyframe hx hnow state encoding).pre (fun u hu ↦ hu ▸ hr)
  · exact fun u hu ↦ hu ▸ hr
  · rw [if_neg (UInt64.not_lt.mpr (UInt64.le_trans hr.clock hnow))]
    refine .modify_bind hr rfl rfl rfl ?_
    refine (goes_splitBlob hx).bind fun _ ↦ .get_bind fun r _ ↦ ?_
    refine Goes.bind (.modify (fun _ ↦ rfl) (fun _ ↦ rfl) fun _ ↦ rfl) fun _ ↦
      (goes_writePacketData _).bind fun _ ↦ Goes.bind (.modify (fun _ ↦ rfl) (fun _ ↦ rfl) fun _ ↦ rfl) fun _ ↦
        .get_bind fun r _ ↦ ?_
    exact .ite (fun _ ↦ goes_writeBookmarkSnapshot.bind fun _ ↦ hlast) fun _ ↦ hlast

/-! ## Calls -/

end Recorder

/-- The time that a call is made for. -/
def Call.time? : Call → Option TimestampMillis
  | .nextFrame timestamp => some timestamp
  | .insertKeyframe _ elapsedMillis _ => some elapsedMillis
  | _ => none

/-- The time after a call, when it was `t` before. -/
def Call.timeAfter (call : Call) (t : TimestampMillis) : TimestampMillis := call.time?.getD t

/-- The counters after a call, when they were `c` before. -/
def Call.countersAfter (call : Call) (c : OrdMap String SignedInteger) :
    OrdMap String SignedInteger :=
  match call with
  | .changeCounter name delta => c.alter name fun
    | some v => v + delta
    | none => delta
  | _ => c

/-- Calls that never go back in time, from `t` on. -/
def Forward : TimestampMillis → List Call → Prop
  | _, [] => True
  | t, call :: calls => t ≤ call.timeAfter t ∧ Forward (call.timeAfter t) calls

namespace Recorder

variable {t : TimestampMillis} {c : OrdMap String SignedInteger} {x : Externals} (hx : x.Total)
include hx

omit hx in
theorem goes_nextFrame {now : TimestampMillis} (hnow : t ≤ now) :
    Goes (Able t c) (nextFrame now) now c := by
  refine .clocked hnow fun r hr ↦ ?_
  exact .ite (fun _ ↦ .modify_bind hr rfl rfl rfl (goes_writePacketData _)) fun _ ↦ .abort

theorem goes_thumbnail (top bottom : Screen) : Goes (Able t c) (thumbnail x top bottom) t c := by
  refine goes_assertNotClosed.bind fun _ ↦ .get_bind fun r _ ↦ ?_
  have hscreen : ∀ previous screen, ∃ bytes, encodeScreen x previous screen = .ok bytes := by
    intro previous screen
    cases previous with
    | none => exact hx.compress _ _ _ _
    | some p =>
      rw [encodeScreen]
      split
      · exact ⟨[], rfl⟩
      · exact hx.compress _ _ _ _
  refine .ite (fun _ ↦ ?_) fun _ ↦ ?_
  · obtain ⟨topData, htop⟩ := hx.jpeg top.1 top.2.1 top.2.2 r.settings.storedThumbnailJpegQuality
    obtain ⟨bottomData, hbottom⟩ :=
      hx.jpeg bottom.1 bottom.2.1 bottom.2.2 r.settings.storedThumbnailJpegQuality
    simp only [htop, hbottom]
    exact (goes_writePacketData _).bind fun _ ↦ .modify (fun _ ↦ rfl) (fun _ ↦ rfl) fun _ ↦ rfl
  · obtain ⟨topData, htop⟩ := hscreen ((r.previousThumbnail top bottom).map Prod.fst) top
    obtain ⟨bottomData, hbottom⟩ := hscreen ((r.previousThumbnail top bottom).map Prod.snd) bottom
    simp only [htop, hbottom]
    exact (goes_writePacketData _).bind fun _ ↦ .modify (fun _ ↦ rfl) (fun _ ↦ rfl) fun _ ↦ rfl

/-- **A call that does not go back in time** fails only for want of memory. -/
theorem goes_perform {call : Call} (hforward : t ≤ call.timeAfter t) :
    Goes (Able t c) (perform x call) (call.timeAfter t) (call.countersAfter c) := by
  cases call with
  | nextFrame timestamp => exact goes_nextFrame hforward
  | insertKeyframe state elapsedMillis encoding =>
    exact (goes_insertKeyframeWith hx hforward state encoding).bind fun _ ↦ .pure ()
  | setInput input =>
    exact .get_bind fun _ _ ↦ .ite (fun _ ↦ .pure ()) fun _ ↦
      Goes.bind (.modify (fun _ ↦ rfl) (fun _ ↦ rfl) fun _ ↦ rfl) fun _ ↦ goes_writePacketData _
  | setSpeed speed =>
    exact .get_bind fun _ _ ↦ .ite (fun _ ↦ .pure ()) fun _ ↦
      Goes.bind (.modify (fun _ ↦ rfl) (fun _ ↦ rfl) fun _ ↦ rfl) fun _ ↦ goes_writePacketData _
  | writeMemory address data => exact goes_writePacketData _
  | resetConsole => exact goes_writePacketData _
  | loadSaveState state => exact goes_writePacketData _
  | serialIn data => exact .ite (fun _ ↦ .pure ()) fun _ ↦ goes_writePacketData _
  | changeCounter name delta =>
    refine .notClosed (fun _ h ↦ h) ?_
    refine Act.Triple.modify_bind (fun r hr ↦ ?_) (goes_writePacketData _)
    exact ⟨hr.sink, hr.clock, by rw [← hr.counters]; rfl⟩
  | setBookmarkTable table =>
    exact goes_assertNotClosed.bind fun _ ↦ .get_bind fun _ _ ↦ .ite (fun _ ↦ .pure ()) fun _ ↦
      Goes.bind (.modify (fun _ ↦ rfl) (fun _ ↦ rfl) fun _ ↦ rfl) fun _ ↦
        .ite (fun _ ↦ .modify (fun _ ↦ rfl) (fun _ ↦ rfl) fun _ ↦ rfl) fun _ ↦ goes_writeBookmarkSnapshot
  | thumbnail top bottom => exact goes_thumbnail hx top bottom
  | romReads reads =>
    refine .get_bind fun r _ ↦ ?_
    cases r.stored with
    | none => exact .pure ()
    | some stored =>
      dsimp only
      split
      · exact .modify (fun _ ↦ rfl) (fun _ ↦ rfl) fun _ ↦ rfl
      · exact .abort
  | transientPageAccess access => exact .modify (fun _ ↦ rfl) (fun _ ↦ rfl) fun _ ↦ rfl
  | setRom rom => exact .modify (fun _ ↦ rfl) (fun _ ↦ rfl) fun _ ↦ rfl
  | setRomReadsUnknown unknown => exact .modify (fun _ ↦ rfl) (fun _ ↦ rfl) fun _ ↦ rfl
  | markStart timerOffset =>
    exact Goes.bind (.modify (fun _ ↦ rfl) (fun _ ↦ rfl) fun _ ↦ rfl) fun _ ↦ goes_syncHeader
  | markEnd => exact Goes.bind (.modify (fun _ ↦ rfl) (fun _ ↦ rfl) fun _ ↦ rfl) fun _ ↦ goes_syncHeader

/-- **Calls that never go back in time** fail only for want of memory, and leave the counters that
they change to. -/
theorem run_reliable {calls : List Call} {r r' : Recorder}
    {results : List (Except ReplayFileWriteError Unit)} (hforward : Forward t calls)
    (hr : Able t c r) (hrun : run x calls r = some (results, r')) :
    (∀ result ∈ results, result = .ok () ∨ ∃ e, result = .error e ∧ e.OutOfMemory) ∧
      r'.counters = calls.foldl (fun c call ↦ call.countersAfter c) c := by
  induction calls generalizing t c r results with
  | nil =>
    cases hrun
    exact ⟨fun result hmem ↦ (by cases hmem), hr.counters⟩
  | cons call calls ih =>
    obtain ⟨hle, hrest⟩ := hforward
    have hgoes := goes_perform hx hle (c := c)
    rw [run] at hrun
    cases hperform : perform x call r with
    | ok a u =>
      rw [hperform] at hrun
      obtain ⟨⟨results', u'⟩, hrun', heq⟩ := Option.map_eq_some_iff.mp hrun
      cases heq
      obtain ⟨hresults, hcounters⟩ := ih hrest (hgoes.ok hr hperform) hrun'
      refine ⟨fun result hmem ↦ ?_, hcounters⟩
      rcases List.mem_cons.mp hmem with rfl | hmem
      · exact .inl rfl
      · exact hresults result hmem
    | error e u =>
      rw [hperform] at hrun
      obtain ⟨⟨results', u'⟩, hrun', heq⟩ := Option.map_eq_some_iff.mp hrun
      cases heq
      obtain ⟨hmemory, hable⟩ := hgoes.error hr hperform
      obtain ⟨hresults, hcounters⟩ := ih hrest hable hrun'
      refine ⟨fun result hmem ↦ ?_, hcounters⟩
      rcases List.mem_cons.mp hmem with rfl | hmem
      · exact .inr ⟨e, rfl, hmemory⟩
      · exact hresults result hmem
    | abort =>
      rw [hperform] at hrun
      cases hrun

/-! ## Starting a file -/

/-- A file started on such sinks has such a recorder. -/
theorem able_newWithMetadata {metadata : ReplayFileMetadata} {patchData : ByteVec}
    {settings : RecorderSettings} {input : InputBuffer} {speed : Speed} {state : ByteVec}
    {finalBytes tempBytes : Bytes} {r : Recorder}
    (h : newWithMetadata x metadata patchData settings t input speed state ⟨finalBytes, []⟩
      ⟨tempBytes, []⟩ = .ok r ()) : Able t OrdMap.empty r := by
  rw [newWithMetadata] at h
  cases hblank : newBlank metadata patchData settings input speed ⟨finalBytes, []⟩
      ⟨tempBytes, []⟩ with
  | error e _ => rw [hblank] at h; cases h
  | abort => rw [hblank] at h; cases h
  | ok b _ =>
    rw [hblank] at h
    have hb : Able 0 OrdMap.empty b := by
      rw [newBlank] at hblank
      split at hblank
      · cases hblank
      · split at hblank
        · cases hblank
        · cases hblank
          exact ⟨⟨_, _, rfl⟩, UInt64.le_refl _, rfl⟩
    have hgoes : Goes (Able 0 OrdMap.empty) (insertKeyframe x state t) t OrdMap.empty :=
      goes_insertKeyframeWith hx (UInt64.le_iff_toNat_le.mpr (Nat.zero_le _)) _ _
    cases hinsert : insertKeyframe x state t b with
    | ok a u =>
      simp only [hinsert] at h
      cases h
      exact hgoes.ok hb hinsert
    | error e u => simp only [hinsert] at h; cases h
    | abort => simp only [hinsert] at h; cases h

end Recorder

end SuperShuckie
