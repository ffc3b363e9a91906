import SuperShuckie.Recording.Closed

/-!
# Recorder and player agree

A closed file opens, and reading it hands out what was recorded: all of it from the start of the file
(`ClosedFile.reads_start`), and from a keyframe that is sought what was recorded from the last
keyframe on its frame on (`ClosedFile.reads_from`).
-/

set_option autoImplicit false

namespace SuperShuckie

open ByteFormat ReplayFilePlayer

theorem isEvent_of_isKeyframeOn {frame : Nat} (packet : Packet)
    (h : isKeyframeOn frame packet = true) : isEvent packet = true := by
  cases packet <;> first | rfl | cases h

/-- What is handed out is a keyframe on a frame exactly where the packets are. -/
theorem Plays.forall_isKeyframeOn {resizing : Bool} {s s' : Option Bytes}
    {packets out : List Packet} (h : Plays resizing s packets s' out) {frame : Nat}
    (hno : ∀ p ∈ packets, isKeyframeOn frame p = false) :
    ∀ o ∈ out, isKeyframeOn frame o = false := by
  have hout := h.forall_keyframeMetadata (P := fun m ↦ onFrame frame m = false) fun p hp m hm ↦ by
    have := hno p hp
    rwa [isKeyframeOn, hm] at this
  intro o ho
  rw [isKeyframeOn]
  cases hmeta : keyframeMetadata o with
  | none => rfl
  | some m => exact hout o ho m hmeta

namespace ClosedFile

variable {x : Externals} {metadata : ReplayFileMetadata} {patch : Bytes} {events : List Packet}
  {blobs : List (CompressedBlob × List Packet)} {bytes : Bytes}
  (h : ClosedFile x.zstd metadata patch events blobs bytes)
include h

/-- The first packet of the file is the full keyframe on frame zero. -/
theorem exists_first : ∃ b rest m state packets, blobs = b :: rest ∧
    b.2 = .keyframe m state :: packets ∧ m.elapsedFrames.toNat = 0 := by
  obtain ⟨b, rest, rfl⟩ := List.exists_cons_of_ne_nil h.ne_nil
  obtain ⟨m, state, packets, hpackets⟩ := (h.sealed b List.mem_cons_self).1.starts
  refine ⟨b, rest, m, state, packets, rfl, hpackets, ?_⟩
  exact h.framed [] (.keyframe m state) (packets ++ blobPackets rest) m
    (by rw [blobPackets, List.flatMap_cons, hpackets]; rfl) rfl

theorem exists_on_zero : ∃ p ∈ blobPackets blobs, isKeyframeOn 0 p = true := by
  obtain ⟨b, rest, m, state, packets, rfl, hpackets, hzero⟩ := h.exists_first
  refine ⟨.keyframe m state, ?_, decide_eq_true hzero⟩
  rw [blobPackets, List.flatMap_cons, hpackets]
  exact List.mem_cons_self

/-- **A closed file opens**, with its blobs as top-level packets. -/
theorem opens (allow : Bool) : ∃ file,
    ReplayFilePlayer.new x bytes allow = .ok (start file) ∧
      file.Holds x.zstd (blobs.map Prod.snd) ∧ file.resizing = false ∧ file.StoredIndexed ∧
      ∀ frame, (∃ p ∈ blobPackets blobs, isKeyframeOn frame p = true) →
        (file.keyframes.get? frame).isSome = true := by
  obtain ⟨header, bookmarkSection, hfile⟩ := h.file
  obtain ⟨b, rest, m, state, packets, rfl, hpackets, hzero⟩ := h.exists_first
  have hkeyframes : ∀ b' ∈ b :: rest, b'.1.keyframes = b'.2.filterMap keyframeMetadata :=
    fun b' hb' ↦ (h.sealed b' hb').1.keyframes
  obtain ⟨file, hnew, hpacketsEq, hversion, hresizing, hframes⟩ := new_of_blobFile x hfile h.room
    (fun blob hblob ↦ by
      obtain ⟨b', hb', rfl⟩ := List.mem_map.mp hblob
      exact (h.sealed b' hb').2)
    ⟨b.1, rest.map Prod.fst, rfl, m, by
      rw [hkeyframes b List.mem_cons_self, hpackets]
      exact List.mem_cons_self, hzero⟩ allow
  obtain ⟨source, file', hread, hstart⟩ := read_of_new hnew
  have hfile' : file = file' := congrArg ReplayFilePlayer.file hstart
  refine ⟨file, hnew, ⟨hversion, by rw [hpacketsEq]; simp, fun i stretch hi ↦ ?_⟩, hresizing,
    hfile' ▸ OpenedFile.storedIndexed_of_read hread, fun frame hframe ↦ hframes frame ?_⟩
  · obtain ⟨b', hb', rfl⟩ := List.getElem?_map .. ▸ hi |> Option.map_eq_some_iff.mp
    refine ⟨b'.1, ?_, (h.sealed b' (List.mem_of_getElem? hb')).1⟩
    rw [hpacketsEq, List.map_map, List.getElem?_map, hb']
    rfl
  · obtain ⟨p, hp, hon⟩ := hframe
    obtain ⟨b', hb', hp'⟩ := List.mem_flatMap.mp hp
    obtain ⟨m', hm', hon'⟩ := (Option.any_eq_true _ _).mp hon
    refine ⟨b'.1, List.mem_map_of_mem hb', m', ?_, of_decide_eq_true hon'⟩
    rw [hkeyframes b' hb']
    exact List.mem_filterMap.mpr ⟨p, hp', hm'⟩

omit h in
theorem flatten_eq (blobs : List (CompressedBlob × List Packet)) : (blobs.map Prod.snd).flatten = blobPackets blobs := by
  rw [blobPackets, List.flatMap_def]

/-- **From the start of the file** everything recorded is handed out. -/
theorem reads_start (hchecks : x.zstd.ChecksSize) {file : OpenedFile}
    (hholds : file.Holds x.zstd (blobs.map Prod.snd)) (hresizing : file.resizing = false)
    (hindexed : file.StoredIndexed) :
    ∃ out, ReadsToEnd x (start file) out ∧ out.filter isEvent = events := by
  obtain ⟨s, out, hplays, hevents⟩ := h.plays
  rw [← flatten_eq] at hplays
  exact ⟨out, readsToEnd_start hholds hchecks (hholds.regular hresizing hindexed) hresizing
    (by simpa using h.ne_nil) hplays, hevents⟩

/-- **From a keyframe that is sought** everything recorded from the last keyframe on its frame on is
handed out. -/
theorem reads_from (hchecks : x.zstd.ChecksSize) {file : OpenedFile}
    (hholds : file.Holds x.zstd (blobs.map Prod.snd)) (hresizing : file.resizing = false)
    (hindexed : file.StoredIndexed) {frame : Nat}
    (hframe : ∃ p ∈ blobPackets blobs, isKeyframeOn frame p = true)
    (hget : (file.keyframes.get? frame).isSome = true) :
    ∃ p out, goToKeyframe x frame (start file) = .ok () p ∧ ReadsToEnd x p out ∧
      out.filter isEvent = fromLast (isKeyframeOn frame) events := by
  obtain ⟨s, out, hplays, hevents⟩ := h.plays
  obtain ⟨before, packet, after, hsplit, hon, hlast⟩ := exists_last_split hframe
  rw [← flatten_eq] at hsplit
  obtain ⟨i, b, c, hi, rfl, rfl⟩ := exists_of_flatten_eq hsplit
  obtain ⟨hlt, hget'⟩ := List.getElem?_eq_some_iff.mp hi
  have hall : blobPackets blobs = ((blobs.map Prod.snd).take i).flatten ++
      (b ++ (packet :: c ++ ((blobs.map Prod.snd).drop (i + 1)).flatten)) := by
    rw [← flatten_eq, hsplit]
    simp
  -- the packets of the blob play in the same way whatever is before it
  rw [hall] at hplays
  obtain ⟨s₁, out₁, out₂, -, hrest, rfl⟩ := hplays.split
  obtain ⟨m, state, rest, hstarts⟩ := hholds.starts hi
  have hcons : b ++ (packet :: c ++ ((blobs.map Prod.snd).drop (i + 1)).flatten) =
      .keyframe m state :: (rest ++ ((blobs.map Prod.snd).drop (i + 1)).flatten) := by
    rw [← List.cons_append, ← hstarts]
    simp
  rw [hcons] at hrest
  replace hrest := hrest.of_full none
  rw [← hcons] at hrest
  obtain ⟨s₂, out₃, out₄, hbefore, hfrom, rfl⟩ := hrest.split
  have hclass : isKeyframeClass packet = true := by
    obtain ⟨m', hm', -⟩ := (Option.any_eq_true _ _).mp hon
    rw [← isSome_keyframeMetadata, hm']
    rfl
  have hlocated := hholds.located_eq (flatten_eq blobs ▸ h.framed) hget hi hon hlast
  have hstep := (following_start (z := x.zstd) file ⟨none, true, false⟩).inStep
  obtain ⟨p, hgo, hreads⟩ := readsToEnd_seek hholds hchecks (hholds.regular hresizing hindexed)
    hresizing hindexed hstep rfl hlocated hi hclass hbefore hfrom
  refine ⟨p, out₄, hgo, hreads, ?_⟩
  rw [← hevents, ← filter_fromLast isEvent_of_isKeyframeOn, ← List.append_assoc]
  -- nothing handed out after the packet is a keyframe on the frame
  congr 1
  cases hfrom with
  | @cons _ _ _ _ o _ out hone hafter =>
    refine (fromLast_append_cons _ ?_ (hafter.forall_isKeyframeOn hlast)).symm
    rw [isKeyframeOn, hone.keyframeMetadata_eq]
    exact hon

end ClosedFile

/-! ## Agreement -/

namespace Recorder

/-- The tape of a file: its first keyframe, and what the calls record. -/
def tapeOf (startingTimestamp : TimestampMillis) (input : InputBuffer) (speed : Speed)
    (state : Bytes) (calls : List Call) : Tape :=
  ((Tape.blank input speed).record (.insertKeyframe state startingTimestamp .auto)).recordAll calls

/-- **Recorder and player agree.**  A file that was started, recorded into and closed without an
error opens.  Read from its start it hands out what was recorded, in order, every keyframe with the
state that was inserted; read from the keyframe on frame zero, what was recorded from the last
keyframe on that frame on. -/
theorem player_reads_recording {x : Externals} (hz : x.zstd.Lossless) (hchecks : x.zstd.ChecksSize)
    {metadata : ReplayFileMetadata} (hconsole : metadata.consoleType ≠ .nintendo3DS)
    {settings : RecorderSettings} (hexact : settings.maskTransientBuffers = false) {patch : Bytes}
    {startingTimestamp : TimestampMillis} {input : InputBuffer} {speed : Speed} {state : Bytes}
    {tempSink : Sink} {script : List SinkOutcome} {r : Recorder}
    (hnew : newWithMetadata x metadata patch settings startingTimestamp input speed state
      ⟨[], script⟩ tempSink = .ok r ()) {calls : List Call}
    (hbasic : ∀ call ∈ calls, call.isBasic = true) {r' r'' : Recorder}
    (hrun : runOk x calls r = .ok () r') {finalSink' tempSink' : Sink}
    (hclose : close x r' = .ok (finalSink', tempSink', none) r'') (allowSomeCorruption : Bool) :
    let events := (tapeOf startingTimestamp input speed state calls).events
    ∃ player, ReplayFilePlayer.new x finalSink'.bytes allowSomeCorruption = .ok player ∧
      (∃ out, ReadsToEnd x player out ∧ out.filter isEvent = events) ∧
      ∃ p out, goToKeyframe x 0 player = .ok () p ∧ ReadsToEnd x p out ∧
        out.filter isEvent = fromLast (isKeyframeOn 0) events := by
  intro events
  have hon := newWithMetadata_on hz hconsole hexact rfl hnew
  obtain ⟨blobs, hclosed⟩ := close_on hz (runOk_on hz hbasic hon hrun) hclose
  obtain ⟨file, hopen, hholds, hresizing, hindexed, hframes⟩ := hclosed.opens allowSomeCorruption
  exact ⟨start file, hopen, hclosed.reads_start hchecks hholds hresizing hindexed,
    hclosed.reads_from hchecks hholds hresizing hindexed hclosed.exists_on_zero
      (hframes 0 hclosed.exists_on_zero)⟩

/-- Settings for a recording of a few frames. -/
def exampleSettings : RecorderSettings :=
  { minimumUncompressedBytesPerBlob := 64
    maxFramesPerBlob := 2
    compressionLevel := 3
    maskTransientBuffers := false
    storedKeyframeLevels := (2, 2)
    storedKeyframeCompressionLevel := 3
    storedKeyframeMaskTransients := false
    storedThumbnailJpegQuality := 0 }

/-- A few frames with two keyframes, the second of which begins a new blob. -/
theorem player_reads_recording_frames :
    let calls : List Call := [.setInput [1], .nextFrame 16, .writeMemory 5 [9], .nextFrame 33,
      .insertKeyframe [4, 5] 33 .auto, .nextFrame 50]
    ∃ r r' final temp r'',
      newWithMetadata .plain (.unnamed .gameBoy) [] exampleSettings 0 [] Speed.default [1, 2]
        Sink.reliable Sink.reliable = .ok r () ∧
      runOk .plain calls r = .ok () r' ∧ close .plain r' = .ok (final, temp, none) r'' ∧
      ∃ player, ReplayFilePlayer.new .plain final.bytes false = .ok player ∧
        (∃ out, ReadsToEnd .plain player out ∧
          out.filter isEvent = (tapeOf 0 [] Speed.default [1, 2] calls).events) ∧
        ∃ p out, goToKeyframe .plain 0 player = .ok () p ∧ ReadsToEnd .plain p out ∧
          out.filter isEvent =
            fromLast (isKeyframeOn 0) (tapeOf 0 [] Speed.default [1, 2] calls).events := by
  intro calls
  obtain ⟨r, ⟨⟩, hnew, hrest⟩ := Outcome.exists_ok_of_any
    (o := newWithMetadata .plain (.unnamed .gameBoy) [] exampleSettings 0 [] Speed.default [1, 2]
      Sink.reliable Sink.reliable)
    (f := fun r _ ↦ (runOk .plain calls r).any fun _ r' ↦
      (close .plain r').any fun (result : Sink × Sink × Option ReplayFileWriteError) _ ↦
        decide (result.2.2 = none)) (by decide +kernel)
  obtain ⟨⟨⟩, r', hrun, hrest⟩ := Outcome.exists_ok_of_any hrest
  obtain ⟨⟨final, temp, error⟩, r'', hclose, hnone⟩ := Outcome.exists_ok_of_any hrest
  obtain rfl : error = none := of_decide_eq_true hnone
  exact ⟨r, r', final, temp, r'', hnew, hrun, hclose,
    player_reads_recording rawZstd_lossless rawZstd_checksSize (by decide) rfl hnew (by decide) hrun
      hclose false⟩

/-- **A seek to frame zero passes over what comes before the last keyframe on it**: the first
keyframe, and a memory write. -/
theorem seek_to_zero_skips_first_keyframe :
    let calls : List Call := [.writeMemory 5 [9], .insertKeyframe [3, 4] 0 .auto, .nextFrame 16]
    let events := (tapeOf 0 [] Speed.default [1, 2] calls).events
    ∃ r r' final temp r'' player,
      newWithMetadata .plain (.unnamed .gameBoy) [] exampleSettings 0 [] Speed.default [1, 2]
        Sink.reliable Sink.reliable = .ok r () ∧
      runOk .plain calls r = .ok () r' ∧ close .plain r' = .ok (final, temp, none) r'' ∧
      ReplayFilePlayer.new .plain final.bytes false = .ok player ∧
      events = [.keyframe (idleMetadata 0) [1, 2], .writeMemory 5 [9],
        .keyframe (idleMetadata 0) [3, 4], .nextFrame 16] ∧
      seekAndRead .plain 0 player = some (some (.keyframe (idleMetadata 0) [3, 4]), [3, 4]) := by
  intro calls events
  obtain ⟨r, ⟨⟩, hnew, hrest⟩ := Outcome.exists_ok_of_any
    (o := newWithMetadata .plain (.unnamed .gameBoy) [] exampleSettings 0 [] Speed.default [1, 2]
      Sink.reliable Sink.reliable)
    (f := fun r _ ↦ (runOk .plain calls r).any fun _ r' ↦
      (close .plain r').any fun (result : Sink × Sink × Option ReplayFileWriteError) _ ↦
        decide (result.2.2 = none) &&
        (ReplayFilePlayer.new .plain result.1.bytes false).toOption.any fun player ↦
          decide (seekAndRead .plain 0 player =
            some (some (.keyframe (idleMetadata 0) [3, 4]), [3, 4]))) (by decide +kernel)
  obtain ⟨⟨⟩, r', hrun, hrest⟩ := Outcome.exists_ok_of_any hrest
  obtain ⟨⟨final, temp, error⟩, r'', hclose, hrest⟩ := Outcome.exists_ok_of_any hrest
  rw [Bool.and_eq_true] at hrest
  obtain rfl : error = none := of_decide_eq_true hrest.1
  obtain ⟨player, hopen, hread⟩ := exists_ok_of_any hrest.2
  exact ⟨r, r', final, temp, r'', player, hnew, hrun, hclose, hopen, by decide,
    of_decide_eq_true hread⟩

end Recorder

end SuperShuckie
