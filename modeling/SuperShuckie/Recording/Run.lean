import SuperShuckie.Recording.Recorded

/-!
# Runs of a recorder

A run of calls that all succeed leaves a recorder that holds what the tape of the same calls holds
(`runOk_holds`), and closing it leaves a file of blobs that play as the tape's events
(`close_leaves_blobFile`).
-/

set_option autoImplicit false

namespace SuperShuckie

open ByteFormat

/-- The clock, the input, the speed and the counters of a recorder are those of a tape. -/
structure Tape.Matches (tape : Tape) (r : Recorder) : Prop where
  elapsedFrames : r.elapsedFrames = tape.elapsedFrames
  elapsedMillis : r.elapsedMillis = tape.elapsedMillis
  input : r.currentInput = tape.input
  speed : r.currentSpeed = tape.speed
  counters : r.counters = tape.counters

/-- A recorder holds what is on a tape, and has begun a blob. -/
structure Tape.On (z : Zstd) (metadata : ReplayFileMetadata) (patch : Bytes) (tape : Tape)
    (r : Recorder) : Prop where
  recorded : ∃ blobs packets, Recorded z metadata patch tape.events blobs packets r ∧ packets ≠ []
  agrees : tape.Matches r

namespace Recorder

variable {z : Zstd} {metadata : ReplayFileMetadata} {patch : Bytes} {tape : Tape} {r r' : Recorder}
  {x : Externals}

theorem SameFile.matches (h : SameFile r r') (hm : tape.Matches r) : tape.Matches r' := by
  obtain ⟨sink, sink', -, -, -, rfl⟩ := h
  exact ⟨hm.elapsedFrames, hm.elapsedMillis, hm.input, hm.speed, hm.counters⟩

/-! ## Packets -/

/-- A packet that is recorded as it is: no keyframe, no snapshot and no picture. -/
structure Plain (packet : Packet) : Prop where
  class_false : isKeyframeClass packet = false
  readable : packet.Readable
  back : packet.readBack = packet
  event : isEvent packet = true

variable {blobs : List (CompressedBlob × List Packet)}

/-- Writing a plain packet adds it to the tape. -/
theorem write_on {events : List Packet} {packets : List Packet}
    (h : Recorded z metadata patch events blobs packets r) (hne : packets ≠ []) (packet : Packet)
    (frames : UnsignedInteger) (hplain : Plain packet)
    (hframes : frames.toNat = r.elapsedFrames.toNat + if isNextFrame packet then 1 else 0)
    (hmatches : tape.Matches { r with elapsedFrames := frames })
    (hevents : tape.events = events ++ [packet])
    (hwrite : writePacketData packet { r with elapsedFrames := frames } = .ok () r') :
    tape.On z metadata patch r' := by
  obtain ⟨-, hsame⟩ := writePacketData_ends (r := { r with elapsedFrames := frames }) h.stored
    (.of_ok hwrite)
  refine ⟨⟨blobs, packets ++ [packet], ?_, by simp⟩, hsame.matches
    ⟨hmatches.elapsedFrames, hmatches.elapsedMillis, hmatches.input, hmatches.speed,
      hmatches.counters⟩⟩
  have hrecorded := h.append hne packet frames hplain.class_false hplain.readable (fun _ ↦ hplain.back)
    (by rw [hplain.back]) hframes (.of_ok hwrite)
  rwa [if_pos hplain.event, ← hevents] at hrecorded

/-- Writing a snapshot of the bookmarks adds nothing to it. -/
theorem snapshot_on (h : tape.On z metadata patch r)
    (hwrite : writeBookmarkSnapshot r = .ok () r') : tape.On z metadata patch r' := by
  obtain ⟨⟨blobs, packets, hrecorded, hne⟩, hmatches⟩ := h
  rw [writeBookmarkSnapshot, Act.modify_bind_apply, Act.get_bind_apply] at hwrite
  have hset := hrecorded.set r.elapsedMillis r.currentInput r.currentSpeed r.counters r.bookmarks
    r.bookmarksWritten false
  obtain ⟨-, hsame⟩ := writePacketData_ends (r := { r with bookmarkSnapshotPending := false })
    hrecorded.stored (.of_ok hwrite)
  refine ⟨⟨blobs, packets ++ [.bookmarkTable r.bookmarks], ?_, by simp⟩, hsame.matches
    ⟨hmatches.elapsedFrames, hmatches.elapsedMillis, hmatches.input, hmatches.speed,
      hmatches.counters⟩⟩
  have hrecorded' := hset.append hne (.bookmarkTable r.bookmarks) r.elapsedFrames rfl trivial (fun h ↦ by cases h) rfl rfl (.of_ok hwrite)
  simpa [isEvent] using hrecorded'

/-! ## Keyframes -/

/-- Closing the blob at its limit changes nothing but where its packets are. -/
theorem splitBlob_ok {events packets : List Packet} (hz : x.zstd.Lossless)
    (h : Recorded x.zstd metadata patch events blobs packets r)
    (hsplit : splitBlob x r = .ok () r') :
    ∃ blobs' packets', Recorded x.zstd metadata patch events blobs' packets' r' ∧
      ∀ tape : Tape, tape.Matches r → tape.Matches r' := by
  rw [splitBlob, Act.get_bind_apply] at hsplit
  by_cases hlimit : r.blobLimitReached = true
  · rw [if_pos hlimit] at hsplit
    obtain ⟨⟨⟩, r₁, hnext, hmodify⟩ := Act.bind_eq_ok.mp hsplit
    cases hmodify
    have hstarts : StartsFull packets := by
      rcases h.starts with ⟨rfl, -⟩ | hstarts
      · have hnil : r.currentBlobKeyframes = [] := h.blob.keyframes
        rw [blobLimitReached, hnil] at hlimit
        split at hlimit <;> cases hlimit
      · exact hstarts
    obtain ⟨blob, hrecorded⟩ := h.sealBlob hz hstarts (.of_ok hnext)
    obtain ⟨first, rest, hkeyframes⟩ : ∃ first rest, r.currentBlobKeyframes = first :: rest := by
      obtain ⟨m, state, rest, rfl⟩ := hstarts
      exact ⟨m, _, h.blob.keyframes⟩
    obtain ⟨_, sink, s, -, -, -, -, sink₁, sink', -, -, -, rfl⟩ :=
      nextBlob_ends hkeyframes (.of_ok hnext)
    exact ⟨_, _, hrecorded, fun tape hm ↦
      ⟨hm.elapsedFrames, hm.elapsedMillis, hm.input, hm.speed, hm.counters⟩⟩
  · rw [if_neg hlimit] at hsplit
    cases hsplit
    exact ⟨blobs, packets, h, fun tape hm ↦ hm⟩

/-- A recorder with a delta base. -/
def withBase (r : Recorder) (base : Bytes) : Recorder := { r with lastStateToDiff := some base }

/-- What inserting a keyframe did. -/
theorem insertKeyframeWith_ok {state : Bytes} {elapsedMillis : TimestampMillis}
    {encoding : KeyframeEncoding} {frame : UnsignedInteger} (hstored : r.stored = none)
    (h : insertKeyframeWith x state elapsedMillis encoding r = .ok frame r') :
    ∃ r₁ r₂, splitBlob x { r with elapsedMillis } = .ok () r₁ ∧
      writePacketData
        (r₁.keyframePacket (r₁.keyframeMetadata elapsedMillis) state encoding).1
        (r₁.pushKeyframe (r₁.keyframeMetadata elapsedMillis)) = .ok () r₂ ∧
      (r₂.withBase (r₁.keyframePacket (r₁.keyframeMetadata elapsedMillis) state encoding).2 = r' ∨
        writeBookmarkSnapshot
          (r₂.withBase (r₁.keyframePacket (r₁.keyframeMetadata elapsedMillis) state encoding).2) =
            .ok () r') := by
  rw [insertKeyframeWith, Act.get_bind_apply, hstored] at h
  simp only [Option.isSome_none, Bool.false_eq_true, if_false] at h
  obtain ⟨⟨⟩, u, hopen, h⟩ := Act.bind_eq_ok.mp h
  obtain rfl : u = r := by
    rw [assertNotClosed] at hopen
    split at hopen
    · cases hopen
    · cases hopen
      rfl
  split at h
  · cases h
  · rw [Act.modify_bind_apply] at h
    obtain ⟨⟨⟩, r₁, hsplit, h⟩ := Act.bind_eq_ok.mp h
    rw [Act.get_bind_apply, Act.modify_bind_apply] at h
    obtain ⟨⟨⟩, r₂, hwrite, h⟩ := Act.bind_eq_ok.mp h
    rw [Act.modify_bind_apply, Act.get_bind_apply] at h
    refine ⟨r₁, r₂, hsplit, hwrite, ?_⟩
    split at h
    · obtain ⟨⟨⟩, r₃, hsnapshot, h⟩ := Act.bind_eq_ok.mp h
      cases h
      exact .inr hsnapshot
    · cases h
      exact .inl rfl

/-- A keyframe is added to the tape. -/
theorem insertKeyframeWith_on (hz : x.zstd.Lossless) {events packets : List Packet}
    (h : Recorded x.zstd metadata patch events blobs packets r) (hevents : events = tape.events)
    (hmatches : tape.Matches r) {state : Bytes} {elapsedMillis : TimestampMillis}
    {encoding : KeyframeEncoding} {frame : UnsignedInteger}
    (hinsert : insertKeyframeWith x state elapsedMillis encoding r = .ok frame r') :
    (tape.record (.insertKeyframe state elapsedMillis encoding)).On x.zstd metadata patch r' := by
  subst hevents
  obtain ⟨r₁, r₂, hsplit, hwrite, hlast⟩ := insertKeyframeWith_ok h.stored hinsert
  have hset := h.set elapsedMillis r.currentInput r.currentSpeed r.counters r.bookmarks
    r.bookmarksWritten r.bookmarkSnapshotPending
  obtain ⟨blobs', packets', hrecorded, hkeeps⟩ := splitBlob_ok hz hset hsplit
  have hmatches₁ := hkeeps { tape with elapsedMillis }
    ⟨hmatches.elapsedFrames, rfl, hmatches.input, hmatches.speed, hmatches.counters⟩
  have hmeta : r₁.keyframeMetadata elapsedMillis = tape.keyframeMetadata elapsedMillis := by
    rw [keyframeMetadata, hmatches₁.input, hmatches₁.speed, hmatches₁.elapsedFrames,
      hmatches₁.counters]
    rfl
  obtain ⟨-, hsame⟩ := writePacketData_ends (r := r₁.pushKeyframe _) hrecorded.stored (.of_ok hwrite)
  have hmatches₂ := hsame.matches
    ⟨hmatches₁.elapsedFrames, hmatches₁.elapsedMillis, hmatches₁.input, hmatches₁.speed,
      hmatches₁.counters⟩
  obtain ⟨packet, hkeyframe⟩ := hrecorded.keyframe
    (m := r₁.keyframeMetadata elapsedMillis) rfl state encoding (.of_ok hwrite)
  have hon : (tape.record (.insertKeyframe state elapsedMillis encoding)).On x.zstd metadata patch
      (r₂.withBase (r₁.keyframePacket (r₁.keyframeMetadata elapsedMillis) state encoding).2) := by
    refine ⟨⟨blobs', packets' ++ [packet], ?_, by simp⟩,
      ⟨hmatches₂.elapsedFrames, hmatches₂.elapsedMillis, hmatches₂.input, hmatches₂.speed,
        hmatches₂.counters⟩⟩
    rw [Tape.record, Tape.add, ← hmeta]
    exact hkeyframe
  rcases hlast with rfl | hsnapshot
  · exact hon
  · exact snapshot_on hon hsnapshot

/-! ## Calls -/

theorem assertNotClosed_bind_ok {α : Type} {f : Unit → RecorderAction α} {a : α}
    (h : (assertNotClosed >>= f) r = .ok a r') : f () r = .ok a r' := by
  rw [Act.bind_apply, assertNotClosed] at h
  by_cases hclosed : r.isClosed = true
  · rw [if_pos hclosed] at h
    cases h
  · rwa [if_neg hclosed] at h

theorem recorded_changeCounter {events : List Packet} {packets : List Packet}
    (h : Recorded z metadata patch events blobs packets r) (name : String) (delta : SignedInteger) :
    Recorded z metadata patch events blobs packets { r with
      counters := r.counters.alter name fun
        | some v => v + delta
        | none => delta } :=
  h.set r.elapsedMillis r.currentInput r.currentSpeed _ r.bookmarks r.bookmarksWritten
    r.bookmarkSnapshotPending

/-- **A call that succeeds records what it is meant to.** -/
theorem perform_on (hz : x.zstd.Lossless) (h : tape.On x.zstd metadata patch r) {call : Call}
    (hbasic : call.isBasic = true) (hperform : perform x call r = .ok () r') :
    (tape.record call).On x.zstd metadata patch r' := by
  obtain ⟨⟨blobs, packets, hrecorded, hne⟩, hmatches⟩ := h
  have hstored : ¬ r.stored.isSome = true := by simp [hrecorded.stored]
  have hsame : ∀ {packet : Packet}, isNextFrame packet = false →
      r.elapsedFrames.toNat = r.elapsedFrames.toNat + if isNextFrame packet then 1 else 0 := by
    intro packet hpacket
    rw [hpacket]
    rfl
  cases call with
  | nextFrame timestamp =>
    rw [perform, nextFrame, Act.get_bind_apply] at hperform
    split at hperform
    · cases hperform
    · split at hperform
      · rename_i hlt
        rw [Act.modify_bind_apply, hmatches.elapsedMillis] at hperform
        have hset := hrecorded.set timestamp r.currentInput r.currentSpeed r.counters r.bookmarks
          r.bookmarksWritten r.bookmarkSnapshotPending
        refine write_on hset hne (.nextFrame (timestamp - tape.elapsedMillis))
          (r.elapsedFrames + 1) ⟨rfl, trivial, rfl, rfl⟩ ?_ ?_ rfl hperform
        · rw [UInt64.toNat_add]
          exact Nat.mod_eq_of_lt hlt
        · exact ⟨by rw [hmatches.elapsedFrames]; rfl, rfl, hmatches.input, hmatches.speed,
            hmatches.counters⟩
      · cases hperform
  | insertKeyframe state elapsedMillis encoding =>
    obtain ⟨frame, u, hinsert, hpure⟩ := Act.bind_eq_ok.mp hperform
    cases hpure
    exact insertKeyframeWith_on hz hrecorded rfl hmatches hinsert
  | setInput input =>
    rw [perform, setInput, Act.get_bind_apply, if_neg fun h ↦ hstored h.1,
      Act.modify_bind_apply] at hperform
    have hset := hrecorded.set r.elapsedMillis input r.currentSpeed r.counters r.bookmarks
      r.bookmarksWritten r.bookmarkSnapshotPending
    exact write_on hset hne (.changeInput input) r.elapsedFrames ⟨rfl, trivial, rfl, rfl⟩
      (hsame rfl)
      ⟨hmatches.elapsedFrames, hmatches.elapsedMillis, rfl, hmatches.speed, hmatches.counters⟩ rfl
      hperform
  | setSpeed speed =>
    rw [perform, setSpeed, Act.get_bind_apply] at hperform
    rw [Tape.record, ← hmatches.speed]
    split at hperform
    · rename_i heq
      cases hperform
      rw [if_pos heq]
      exact ⟨⟨blobs, packets, hrecorded, hne⟩, hmatches⟩
    · rename_i hneq
      rw [if_neg hneq]
      rw [Act.modify_bind_apply] at hperform
      have hset := hrecorded.set r.elapsedMillis r.currentInput speed r.counters r.bookmarks
        r.bookmarksWritten r.bookmarkSnapshotPending
      exact write_on hset hne (.changeSpeed speed) r.elapsedFrames ⟨rfl, trivial, rfl, rfl⟩
        (hsame rfl)
        ⟨hmatches.elapsedFrames, hmatches.elapsedMillis, hmatches.input, rfl, hmatches.counters⟩
        rfl hperform
  | writeMemory address data =>
    exact write_on hrecorded hne (.writeMemory address data) r.elapsedFrames ⟨rfl, trivial, rfl, rfl⟩
      (hsame rfl)
      ⟨hmatches.elapsedFrames, hmatches.elapsedMillis, hmatches.input, hmatches.speed,
        hmatches.counters⟩ rfl hperform
  | resetConsole =>
    exact write_on hrecorded hne .resetConsole r.elapsedFrames ⟨rfl, trivial, rfl, rfl⟩
      (hsame rfl)
      ⟨hmatches.elapsedFrames, hmatches.elapsedMillis, hmatches.input, hmatches.speed,
        hmatches.counters⟩ rfl hperform
  | loadSaveState state =>
    exact write_on hrecorded hne (.loadSaveState state) r.elapsedFrames ⟨rfl, trivial, rfl, rfl⟩
      (hsame rfl)
      ⟨hmatches.elapsedFrames, hmatches.elapsedMillis, hmatches.input, hmatches.speed,
        hmatches.counters⟩ rfl hperform
  | changeCounter name delta =>
    rw [perform, changeCounter] at hperform
    replace hperform := assertNotClosed_bind_ok hperform
    rw [Act.modify_bind_apply] at hperform
    exact write_on (recorded_changeCounter hrecorded name delta) hne (.incrementCounter name delta)
      r.elapsedFrames ⟨rfl, trivial, rfl, rfl⟩ (hsame rfl)
      ⟨hmatches.elapsedFrames, hmatches.elapsedMillis, hmatches.input, hmatches.speed,
        congrArg (OrdMap.alter · name _) hmatches.counters⟩ rfl hperform
  | setBookmarkTable table =>
    rw [perform, setBookmarkTable] at hperform
    replace hperform := assertNotClosed_bind_ok hperform
    rw [Act.get_bind_apply] at hperform
    split at hperform
    · cases hperform
      exact ⟨⟨blobs, packets, hrecorded, hne⟩, hmatches⟩
    · have hset := fun pending ↦ hrecorded.set r.elapsedMillis r.currentInput r.currentSpeed
        r.counters table true pending
      rw [Act.modify_bind_apply] at hperform
      split at hperform
      · cases hperform
        exact ⟨⟨blobs, packets, hset true, hne⟩, hmatches.elapsedFrames, hmatches.elapsedMillis,
          hmatches.input, hmatches.speed, hmatches.counters⟩
      · exact snapshot_on ⟨⟨blobs, packets, hset r.bookmarkSnapshotPending, hne⟩,
          hmatches.elapsedFrames, hmatches.elapsedMillis, hmatches.input, hmatches.speed,
          hmatches.counters⟩ hperform
  | _ => cases hbasic

/-- **A run of calls that succeed records what they are meant to.** -/
theorem runOk_on (hz : x.zstd.Lossless) {calls : List Call}
    (hbasic : ∀ call ∈ calls, call.isBasic = true) (h : tape.On x.zstd metadata patch r)
    (hrun : runOk x calls r = .ok () r') : (tape.recordAll calls).On x.zstd metadata patch r' := by
  induction calls generalizing tape r with
  | nil =>
    cases hrun
    exact h
  | cons call calls ih =>
    have hfirst : runOk x (call :: calls) = (perform x call >>= fun _ ↦ runOk x calls) := rfl
    rw [hfirst] at hrun
    obtain ⟨⟨⟩, u, hperform, hrest⟩ := Act.bind_eq_ok.mp hrun
    exact ih (fun c hc ↦ hbasic c (List.mem_cons_of_mem _ hc))
      (perform_on hz h (hbasic call List.mem_cons_self) hperform) hrest

end Recorder

end SuperShuckie
