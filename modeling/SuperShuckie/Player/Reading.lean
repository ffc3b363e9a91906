import SuperShuckie.Player.History

/-!
# Reading straight on

Which packet a read hands out is a matter of the file and the cursor (`NextAt`), and a keyframe that
is folded comes with its own state, whatever the player has decoded and kept before.

A stored keyframe that a straight read passes without materialising it is the exception: it leaves
the chain where it was (`Materialises`).
-/

set_option autoImplicit false

namespace SuperShuckie

open ByteFormat

namespace OpenedFile

/-- The position of the packet that a read finds, with the cursor at a top-level packet and, in a
blob, at an offset. -/
inductive NextAt (z : Zstd) (file : OpenedFile) : Nat → Option Nat → ListId → Nat → Prop
  | topLevel {index : Nat} {packet : Packet} : file.packets[index]? = some packet →
      (∀ b, packet ≠ .compressedBlob b) → NextAt z file index none .topLevel index
  | inBlob {index : Nat} {offset : Option Nat} {v : BlobView} :
      file.blobView z index = some v → ¬ v.size ≤ offset.getD 0 →
      NextAt z file index offset (.blob index) (offset.getD 0)
  | pastBlob {index : Nat} {offset : Option Nat} {v : BlobView} {list : ListId} {pos : Nat} :
      file.blobView z index = some v → v.size ≤ offset.getD 0 →
      NextAt z file (index + 1) none list pos → NextAt z file index offset list pos

end OpenedFile

namespace ReplayFilePlayer

variable {z : Zstd} {rom : Option Bytes} {file : OpenedFile} {p q : ReplayFilePlayer}

/-- The packet that is read next is materialised if it is a keyframe. -/
def Materialises (z : Zstd) (file : OpenedFile) (p : ReplayFilePlayer) : Prop :=
  ∀ list pos k, file.NextAt z p.nextUncompressedPacketIndex p.nextBlobOffset list pos →
    file.packetAt z list pos = some (.storedKeyframe k) →
    list = .topLevel ∧ (p.materialiseNext = true ∨ p.keyframeStatesWanted = true ∨
      p.materialiseEveryKeyframe = true)

/-! ## Handing out -/

/-! ## Reading the top-level list -/

/-- A stored keyframe is passed without being materialised. -/
def skips (p : ReplayFilePlayer) : Packet → Bool
  | .storedKeyframe _ =>
    !p.keyframeStatesWanted && !p.materialiseNext && !p.materialiseEveryKeyframe
  | _ => false

theorem nextTopLevel_eq (x : Externals) (index : Nat) (packet : Packet) (p : ReplayFilePlayer) :
    nextTopLevel x index packet p =
      if p.skips packet then
        .ok (handed false [] packet)
          { p with nextUncompressedPacketIndex := index + 1, keyframeTransientsStale := false }
      else
        (foldTopLevel x index >>= fun _ ↦ handOut packet)
          { p with nextUncompressedPacketIndex := index + 1, materialiseNext := false } := by
  rw [nextTopLevel, Act.modify_bind_apply, Act.get_bind_apply]
  cases packet with
  | storedKeyframe k =>
    rw [skips]
    dsimp only
    split <;> rfl
  | _ => rfl

/-! ## What is read -/

section Found

variable (hregular : file.Regular z rom) (hindexed : file.StoredIndexed) {x : Externals}
  (hz : x.zstd = z) (hchecks : z.ChecksSize) {wanted : Bool}
include hregular hindexed hz hchecks

omit hregular hindexed hz hchecks in
/-- What a read that hands out `r` has found: a packet of the file, which, if it is a keyframe that
is folded, has taken the chain to its state. -/
structure Found (z : Zstd) (rom : Option Bytes) (file : OpenedFile) (p : ReplayFilePlayer)
    (list : ListId) (pos : Nat) (packet r : Packet) (p' : ReplayFilePlayer) : Prop where
  next : file.NextAt z p.nextUncompressedPacketIndex p.nextBlobOffset list pos
  packetAt : file.packetAt z list pos = some packet
  handed : ∃ shown state, r = handed shown state packet
  state : OpenedFile.moves list packet = true →
    (list = .topLevel → p.skips packet = false) → file.StateAt z rom list pos p'.chain.current

omit hregular hindexed hz hchecks in
theorem skips_congr (hwanted : q.keyframeStatesWanted = p.keyframeStatesWanted)
    (hnext : q.materialiseNext = p.materialiseNext)
    (hevery : q.materialiseEveryKeyframe = p.materialiseEveryKeyframe) (packet : Packet) :
    q.skips packet = p.skips packet := by
  cases packet with
  | storedKeyframe k => rw [skips, skips, hwanted, hnext, hevery]
  | _ => rfl

variable {p' : ReplayFilePlayer}

omit hregular hindexed hz hchecks in
theorem Folded.stateAt {list : ListId} {pos : Nat} {packet : Packet}
    (h : Folded z rom file list pos packet p p') (hmoves : OpenedFile.moves list packet = true) :
    file.StateAt z rom list pos p'.chain.current := by
  have hchain := h.chain
  rw [if_pos hmoves] at hchain
  obtain ⟨s, hat, hstate⟩ := hchain
  rw [hat.current]
  exact hstate

omit hchecks in
theorem nextTopLevel_finds (hp : p.InStep z rom file) {index : Nat} {packet : Packet}
    (hat : file.packets[index]? = some packet) {r : Packet}
    (hnext : nextTopLevel x index packet p = .ok r p') :
    (∃ shown state, r = handed shown state packet) ∧
      (OpenedFile.moves .topLevel packet = true → p.skips packet = false →
        file.StateAt z rom .topLevel index p'.chain.current) := by
  rw [nextTopLevel_eq] at hnext
  split at hnext
  · rename_i hskips
    cases hnext
    refine ⟨⟨_, _, rfl⟩, fun _ hno ↦ ?_⟩
    rw [hskips] at hno
    cases hno
  · rw [Act.bind_apply] at hnext
    have hq : { p with
        nextUncompressedPacketIndex := index + 1
        materialiseNext := false }.InStep z rom file := hp.congr rfl rfl rfl rfl
    rcases foldTopLevel_spec hregular hindexed hz hq hat with
      ⟨p₁, hok, hfolded⟩ | ⟨⟨e, p₁, herr, -⟩, -⟩
    · rw [hok] at hnext
      dsimp only at hnext
      rw [handOut_eq] at hnext
      cases hnext
      exact ⟨⟨_, _, rfl⟩, fun hmoves _ ↦ hfolded.stateAt hmoves⟩
    · rw [herr] at hnext
      cases hnext

/-- **What a read hands out** is the packet that the cursor finds. -/
theorem nextPacketGo_finds {fuel : Nat} (hp : Following z rom file wanted p) {r : Packet}
    (hnext : nextPacketGo x fuel p = .ok (some r) p') :
    ∃ list pos packet, Found z rom file p list pos packet r p' := by
  subst hz
  induction fuel generalizing p with
  | zero => cases hnext
  | succ fuel ih =>
    cases hat : file.packets[p.nextUncompressedPacketIndex]? with
    | none =>
      have hrun : nextPacketGo x (fuel + 1) p = .ok none p := by
        rw [nextPacketGo, Act.get_bind_apply, hp.inStep.file_eq, hat]
        rfl
      cases hrun.symm.trans hnext
    | some packet =>
      by_cases hblob : ∃ b, packet = .compressedBlob b
      · obtain ⟨b, rfl⟩ := hblob
        have hrun := nextPacketGo_blob hchecks hp.inStep hat fuel
        cases hv : file.blobView x.zstd p.nextUncompressedPacketIndex with
        | none =>
          rw [hv] at hrun
          exact (hrun.1 _ _ hnext).elim
        | some v =>
          rw [hv] at hrun
          obtain ⟨q, hq, hopen, hgo⟩ := hrun
          have hfollow := hp.cleanup.moved hq.toMoved
          rw [hgo] at hnext
          by_cases hend : v.size ≤ p.nextBlobOffset.getD 0
          · rw [if_pos hend] at hnext
            have hpast : Following x.zstd rom file wanted { q with
                nextBlobOffset := none
                nextUncompressedPacketIndex := p.nextUncompressedPacketIndex + 1 } :=
              ⟨hfollow.inStep.congr rfl rfl rfl rfl, hfollow.wanted_eq, fun o ho ↦ by cases ho⟩
            obtain ⟨list, pos, packet, hfound⟩ := ih hnext hpast
            refine ⟨list, pos, packet, .pastBlob hv hend hfound.next, hfound.packetAt,
              hfound.handed, fun hmoves hskips ↦ hfound.state hmoves fun hlist ↦ ?_⟩
            rw [← hskips hlist]
            refine skips_congr ?_ ?_ ?_ packet <;> rw [hq.same, cleanup_same]
          · rw [if_neg hend] at hnext
            have hfold := foldInBlob_spec hregular hq.inStep hopen hv (hp.listed hregular hv)
            rw [Act.bind_apply] at hnext
            cases hparse : v.parseAt file.version (p.nextBlobOffset.getD 0) with
            | none =>
              rw [hparse] at hfold
              obtain ⟨e, p₁, herr, -⟩ := hfold
              rw [herr] at hnext
              cases hnext
            | some read =>
              obtain ⟨packet, next⟩ := read
              rw [hparse] at hfold
              rcases hfold with ⟨p₁, hok, hfolded⟩ | ⟨⟨e, p₁, herr, -⟩, -⟩
              · rw [hok] at hnext
                dsimp only at hnext
                rw [passInBlob, Act.modify_bind_apply, Act.map_apply, handOut_eq] at hnext
                cases hnext
                refine ⟨_, _, packet, .inBlob hv hend, ?_, ⟨_, _, rfl⟩,
                  fun hmoves _ ↦ hfolded.stateAt hmoves⟩
                simp only [OpenedFile.packetAt, hv, Option.bind_some, hparse, Option.map_some]
              · rw [herr] at hnext
                cases hnext
      · rw [not_exists] at hblob
        have hoffset : p.nextBlobOffset = none := by
          cases ho : p.nextBlobOffset with
          | none => rfl
          | some o =>
            obtain ⟨⟨b, hb⟩, -⟩ := hp.cursor o ho
            cases hat.symm.trans hb
            exact (hblob b rfl).elim
        rw [nextPacketGo_topLevel hp.inStep.file_eq hat hblob fuel, Act.map_apply] at hnext
        cases hrun : nextTopLevel x p.nextUncompressedPacketIndex packet p.cleanup with
        | ok r' p₁ =>
          rw [hrun] at hnext
          cases hnext
          obtain ⟨hhanded, hstate⟩ :=
            nextTopLevel_finds hregular hindexed rfl hp.cleanup.inStep hat hrun
          refine ⟨.topLevel, _, packet, ?_, hat, hhanded, fun hmoves hskips ↦ hstate hmoves ?_⟩
          · rw [hoffset]
            exact .topLevel hat hblob
          · rw [← hskips rfl]
            refine skips_congr ?_ ?_ ?_ packet <;> rw [cleanup_same]
        | error e p₁ =>
          rw [hrun] at hnext
          cases hnext
        | abort =>
          rw [hrun] at hnext
          cases hnext

/-- **A keyframe that is materialised comes with its own state**: the player's current one is that
of the keyframe just handed out. -/
theorem nextPacket_stateAt (hp : Following z rom file wanted p) (hfolds : Materialises z file p)
    {metadata : KeyframeMetadata} {state : Bytes}
    (hnext : nextPacket x p = .ok (some (.keyframe metadata state)) p') :
    ∃ list pos packet, file.NextAt z p.nextUncompressedPacketIndex p.nextBlobOffset list pos ∧
      file.packetAt z list pos = some packet ∧ keyframeMetadata packet = some metadata ∧
      file.StateAt z rom list pos p'.currentKeyframeState := by
  rw [nextPacket, Act.get_bind_apply] at hnext
  obtain ⟨list, pos, packet, hfound⟩ := nextPacketGo_finds hregular hindexed hz hchecks hp hnext
  obtain ⟨shown, s, hhanded⟩ := hfound.handed
  have hmetadata : keyframeMetadata packet = some metadata := by
    cases packet <;> cases hhanded <;> rfl
  have hclass : isKeyframeClass packet = true := by
    cases packet <;> cases hhanded <;> rfl
  refine ⟨list, pos, packet, hfound.next, hfound.packetAt, hmetadata, hfound.state ?_ ?_⟩
  · by_cases hstored : ∃ k, packet = .storedKeyframe k
    · obtain ⟨k, rfl⟩ := hstored
      obtain ⟨rfl, -⟩ := hfolds list pos k hfound.next hfound.packetAt
      rfl
    · rw [not_exists] at hstored
      exact OpenedFile.moves_of_not_stored hclass hstored
  · intro hlist
    cases packet with
    | storedKeyframe k =>
      obtain ⟨-, hset⟩ := hfolds list pos k hfound.next hfound.packetAt
      rcases hset with h | h | h <;> simp [skips, h]
    | _ => rfl

end Found

end ReplayFilePlayer

end SuperShuckie
