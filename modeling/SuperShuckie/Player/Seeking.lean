import SuperShuckie.Player.Folding

/-!
# Seeking keeps a player in step

`goToKeyframe` finds the last keyframe on a frame, which depends on the file alone (`located`), and
brings the chain to it.  A seek to a keyframe that materialises succeeds from every state that is in
step, and leaves the chain ready for the keyframe.
-/

set_option autoImplicit false

namespace SuperShuckie

open ByteFormat

/-- What the library's checks say of a decoder that was set up. -/
theorem Zstd.blobDecoder_steps {z : Zstd} (hz : z.ChecksSize) {data : Bytes} {size : Nat}
    {steps : Zstd.BlobDecoder} (h : z.blobDecoder data size = .ok steps) :
    FrameSteps size steps := by
  rw [Zstd.blobDecoder, Zstd.checkContentSize] at h
  split_ifs at h with h₁ h₂ h₃
  · cases h
  · cases h
  · cases h
  · cases h
    exact hz data size (not_not.mp h₃)

namespace OpenedFile

/-- The list and position of the last keyframe on a frame. -/
def located (z : Zstd) (file : OpenedFile) (frame : Nat) : Option (ListId × Nat) :=
  if (file.keyframes.get? frame).isNone then none
  else
    match ReplayFilePlayer.locateIn frame file.packets 0 none with
    | none => none
    | some (.topLevel, index) => some (.topLevel, index)
    | some (.blob top, index) =>
      match file.blobView z top with
      | none => none
      | some v =>
        match v.offsets file.version with
        | none => none
        | some t => t[index]?.map fun target ↦ (.blob top, target)

/-- A blob has a view only if there is a blob. -/
theorem exists_of_blobView {z : Zstd} {file : OpenedFile} {i : Nat} {v : BlobView}
    (h : file.blobView z i = some v) : ∃ b, file.packets[i]? = some (.compressedBlob b) ∧
      ∃ steps, z.blobDecoder b.compressedData b.uncompressedSize.toNat = .ok steps ∧
        v = ⟨b.uncompressedSize.toNat, delivered steps, packetOffsetTable b⟩ := by
  rw [blobView] at h
  split at h
  · rename_i b hb
    split at h
    · rename_i steps hsteps
      cases h
      exact ⟨b, hb, steps, hsteps, rfl⟩
    · cases h
  · cases h

end OpenedFile

namespace ReplayFilePlayer

variable {z : Zstd} {rom : Option Bytes} {file : OpenedFile} {p : ReplayFilePlayer}

/-! ## Frame conditions -/

/-- Being in step is about the file, the ROM, the blobs and the chain. -/
theorem InStep.congr {p' : ReplayFilePlayer} (h : p.InStep z rom file) (hfile : p'.file = p.file)
    (hrom : p'.rom = p.rom) (hblobs : p'.decodedBlobs = p.decodedBlobs)
    (hchain : p'.chain = p.chain) : p'.InStep z rom file :=
  ⟨hfile.trans h.file_eq, hrom.trans h.rom_eq, fun i d hd ↦ h.blobs i d (by rwa [← hblobs]),
    hchain ▸ h.chain⟩

theorem InStep.cleanup (h : p.InStep z rom file) : p.cleanup.InStep z rom file := by
  rw [ReplayFilePlayer.cleanup]
  split
  · split
    · refine ⟨h.file_eq, h.rom_eq, fun i d hd ↦ h.blobs i d ?_, h.chain⟩
      dsimp only at hd
      split at hd
      · cases hd
      · exact hd
    · exact h
  · exact h

theorem cleanup_same (p : ReplayFilePlayer) :
    p.cleanup = { p with decodedBlobs := p.cleanup.decodedBlobs } := by
  rw [ReplayFilePlayer.cleanup]
  split
  · split <;> rfl
  · rfl

/-! ## Blobs -/

/-- Setting up a blob succeeds just when it has a view. -/
theorem decompressImmediately_spec {x : Externals} (hz : x.zstd.ChecksSize)
    (hp : p.InStep x.zstd rom file) {i : Nat} :
    match file.blobView x.zstd i with
    | some _ => ∃ p', decompressImmediately x i p = .ok () p' ∧ Decoding x.zstd rom file p p' ∧
        (p'.decodedBlobs i).isSome = true
    | none => (∀ p', decompressImmediately x i p ≠ .ok () p') ∧
        ∀ e p', decompressImmediately x i p = .error e p' → p' = p := by
  rw [decompressImmediately, Act.get_bind_apply]
  cases hslot : p.decodedBlobs i with
  | some d =>
    obtain ⟨v, hv, -⟩ := hp.blobs i d hslot
    rw [hv]
    exact ⟨p, rfl, .refl hp, by rw [hslot]; rfl⟩
  | none =>
    simp only [Option.isSome_none, Bool.false_eq_true, if_false, hp.file_eq]
    rw [OpenedFile.blobView]
    cases hpacket : file.packets[i]? with
    | none => exact ⟨fun p' h ↦ (by cases h), fun e p' h ↦ by cases h⟩
    | some packet =>
      cases packet with
      | compressedBlob b =>
        dsimp only
        cases hdec : x.zstd.blobDecoder b.compressedData b.uncompressedSize.toNat with
        | error e =>
          simp only [DecodedBlob.begin, hdec, Act.ofExcept, Act.bind_apply, Act.fail_apply]
          exact ⟨fun p' h ↦ (by cases h), fun e p' h ↦ by cases h; rfl⟩
        | ok steps =>
          simp only [DecodedBlob.begin, hdec, Act.ofExcept, Act.pure_bind_apply, Act.modify_apply]
          have hview : file.blobView x.zstd i =
              some ⟨b.uncompressedSize.toNat, delivered steps, packetOffsetTable b⟩ := by
            rw [OpenedFile.blobView, hpacket]
            simp only [hdec]
          refine ⟨_, rfl, ⟨⟨⟨hp.file_eq, hp.rom_eq, ?_, hp.chain⟩, rfl, fun j hj ↦ ?_⟩, rfl⟩,
            by simp⟩
          · intro j d hj
            dsimp only at hj
            split at hj
            · rename_i hji
              cases hj
              refine ⟨_, hji ▸ hview, rfl, ⟨List.nil_append _, Nat.zero_le _, ?_⟩, .inl rfl⟩
              exact Zstd.blobDecoder_steps hz hdec
            · exact hp.blobs j d hj
          · dsimp only
            split
            · rfl
            · exact hj
      | _ => exact ⟨fun p' h ↦ (by cases h), fun e p' h ↦ by cases h⟩

/-! ## Locating -/

/-- Where a frame's last keyframe is does not depend on what the player has done. -/
theorem locateKeyframe_spec {x : Externals} (hz : x.zstd.ChecksSize) (hp : p.InStep x.zstd rom file)
    (frame : Nat) :
    match file.located x.zstd frame with
    | some (list, pos) => ∃ p', locateKeyframe x frame p = .ok (list, pos) p' ∧
        Decoding x.zstd rom file p p' ∧
        ∀ top, list = .blob top → (p'.decodedBlobs top).isSome = true
    | none => (∀ r p', locateKeyframe x frame p ≠ .ok r p') ∧
        ∀ e p', locateKeyframe x frame p = .error e p' → Decoding x.zstd rom file p p' := by
  rw [OpenedFile.located, locateKeyframe, Act.get_bind_apply, hp.file_eq]
  by_cases hno : (file.keyframes.get? frame).isNone = true
  · simp only [hno, if_true]
    cases hbest : (file.keyframes.entries.filter fun e ↦ e.1 ≤ frame).getLast? with
    | none => exact ⟨fun r p' h ↦ (by cases h), fun e p' h ↦ by cases h⟩
    | some best => exact ⟨fun r p' h ↦ (by cases h), fun e p' h ↦ by cases h; exact .refl hp⟩
  · simp only [hno, Bool.false_eq_true, if_false]
    rw [seekRead, locatePosition, Act.get_bind_apply, hp.file_eq]
    cases hloc : locateIn frame file.packets 0 none with
    | none => exact ⟨fun r p' h ↦ (by cases h), fun e p' h ↦ by cases h; exact .refl hp⟩
    | some at' =>
      obtain ⟨list, index⟩ := at'
      cases list with
      | topLevel => exact ⟨p, rfl, .refl hp, fun top h ↦ by cases h⟩
      | blob top =>
        have hdec := decompressImmediately_spec hz hp (i := top)
        dsimp only
        rw [Act.bind_apply]
        cases hv : file.blobView x.zstd top with
        | none =>
          rw [hv] at hdec
          obtain ⟨hnotOk, herror⟩ := hdec
          cases hrun : decompressImmediately x top p with
          | ok a q => exact (hnotOk q hrun).elim
          | error e q =>
            refine ⟨fun r p' h ↦ (by cases h), fun e' p' h ↦ ?_⟩
            cases h
            rw [herror e q hrun]
            exact .refl hp
          | abort => exact ⟨fun r p' h ↦ (by cases h), fun e' p' h ↦ by cases h⟩
        | some v =>
          rw [hv] at hdec
          obtain ⟨p₁, hok₁, hp₁, hopen₁⟩ := hdec
          rw [hok₁]
          dsimp only
          have hoffsets := computes_onBlob hv hopen₁ (DecodedBlob.computes_offsets file.version v)
            p₁ (.refl hp₁.inStep)
          rw [Act.bind_apply, hp.version_eq]
          cases ht : v.offsets file.version with
          | none =>
            rw [ht] at hoffsets
            obtain ⟨e, p₂, herr, hp₂⟩ := hoffsets
            rw [herr]
            refine ⟨fun r p' h ↦ (by cases h), fun e' p' h ↦ ?_⟩
            cases h
            exact hp₁.trans hp₂
          | some t =>
            rw [ht] at hoffsets
            obtain ⟨p₂, hok₂, hp₂⟩ := hoffsets
            rw [hok₂]
            dsimp only
            cases htarget : t[index]? with
            | none =>
              refine ⟨fun r p' h ↦ (by cases h), fun e' p' h ↦ ?_⟩
              cases h
              exact hp₁.trans hp₂
            | some target =>
              refine ⟨p₂, rfl, hp₁.trans hp₂, fun top' h ↦ ?_⟩
              cases h
              exact hp₂.isOpen _ hopen₁

theorem isKeyframeClass_of_metadata {packet : Packet} {f : KeyframeMetadata → Bool}
    (h : (keyframeMetadata packet).any f = true) : isKeyframeClass packet = true := by
  cases packet <;> first | rfl | cases h

/-- A location in the top-level list is that of a keyframe on the frame. -/
theorem locateIn_topLevel {frame : Nat} {packets : List Packet} {i j : Nat}
    {location : Option (ListId × Nat)}
    (h : locateIn frame packets i location = some (.topLevel, j)) :
    location = some (.topLevel, j) ∨ ∃ n packet, j = i + n ∧ packets[n]? = some packet ∧
      (keyframeMetadata packet).any (onFrame frame) = true := by
  induction packets generalizing i location with
  | nil => exact .inl h
  | cons packet packets ih =>
    have hlater : ∀ location', locateIn frame packets (i + 1) location' = some (.topLevel, j) →
        location' = some (.topLevel, j) ∨ ∃ n packet', j = i + n ∧
          (packet :: packets)[n]? = some packet' ∧
          (keyframeMetadata packet').any (onFrame frame) = true := by
      intro location' h'
      rcases ih h' with h' | ⟨n, packet', hj, hn, hclass⟩
      · exact .inl h'
      · exact .inr ⟨n + 1, packet', by omega, hn, hclass⟩
    have hkeyframe : ∀ location', (if (keyframeMetadata packet).any (onFrame frame) = true then
          locateIn frame packets (i + 1) (some (.topLevel, i))
        else locateIn frame packets (i + 1) location') = some (.topLevel, j) →
        location' = some (.topLevel, j) ∨ ∃ n packet', j = i + n ∧
          (packet :: packets)[n]? = some packet' ∧
          (keyframeMetadata packet').any (onFrame frame) = true := by
      intro location' h'
      split at h'
      · rename_i hany
        rcases hlater _ h' with hi | hn
        · cases hi
          exact .inr ⟨0, packet, rfl, rfl, hany⟩
        · exact .inr hn
      · exact hlater _ h'
    rw [locateIn.eq_def] at h
    dsimp only at h
    split at h
    · split at h
      · rcases hlater _ h with hblob | hn
        · cases hblob
        · exact .inr hn
      · split at h
        · exact .inl h
        · exact hlater _ h
    · split at h
      · exact .inl h
      · exact hlater _ h
    · exact hkeyframe _ h

/-- In the top-level list a seek goes to a keyframe on the frame. -/
theorem located_topLevel {frame pos : Nat} (h : file.located z frame = some (.topLevel, pos)) :
    ∃ packet, file.packets[pos]? = some packet ∧
      (keyframeMetadata packet).any (onFrame frame) = true := by
  rw [OpenedFile.located] at h
  split at h
  · cases h
  · split at h
    · cases h
    · rename_i index hloc
      cases h
      rcases locateIn_topLevel hloc with hnone | ⟨n, packet, hj, hn, hany⟩
      · cases hnone
      · rw [Nat.zero_add] at hj
        exact ⟨packet, hj ▸ hn, hany⟩
    · split at h
      · cases h
      · split at h
        · cases h
        · obtain ⟨target, -, heq⟩ := Option.map_eq_some_iff.mp h
          cases heq

/-- Where a seek goes: to a keyframe of the top-level list, or to an offset that the table of a blob
lists. -/
theorem located_spec {frame : Nat} {list : ListId} {pos : Nat}
    (h : file.located z frame = some (list, pos)) : match list with
      | .topLevel => ∃ packet, file.packets[pos]? = some packet ∧ isKeyframeClass packet = true
      | .blob top => ∃ v t, file.blobView z top = some v ∧ v.offsets file.version = some t ∧
          pos ∈ t := by
  cases list with
  | topLevel =>
    obtain ⟨packet, hat, hany⟩ := located_topLevel h
    exact ⟨packet, hat, isKeyframeClass_of_metadata hany⟩
  | blob top =>
    rw [OpenedFile.located] at h
    split at h
    · cases h
    · split at h
      · cases h
      · cases h
      · split at h
        · cases h
        · rename_i v hv
          split at h
          · cases h
          · rename_i t ht
            obtain ⟨target, htarget, heq⟩ := Option.map_eq_some_iff.mp h
            cases heq
            exact ⟨v, t, hv, ht, List.mem_of_getElem? htarget⟩

end ReplayFilePlayer

end SuperShuckie
