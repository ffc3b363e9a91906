import SuperShuckie.Player.Landing
import SuperShuckie.RegionDiff.Hostile
import SuperShuckie.StoredPayload.Decoding

/-!
# Materialising any stored keyframe

Whatever the frame of a stored keyframe decompresses to, materialising it either fails or leaves its
state, as long as its packet says, in the buffer of its level; and every buffer holds what it says it
holds, when it fails too (`materialiseStored_total`).
-/

set_option autoImplicit false

namespace SuperShuckie

open ByteFormat

variable {z : Zstd} {rom : Option Bytes} {file : OpenedFile}

/-- A state that materialised is as long as its packet says. -/
theorem OpenedFile.StoredState.length {k : Nat} {payload state : Bytes}
    (h : file.StoredState z rom k payload state) :
    ∃ (info : StoredKeyframeInfo) (keyframe : StoredKeyframe), file.storedKeyframes[k]? = some info ∧
      file.packets[info.packet]? = some (.storedKeyframe keyframe) ∧
      state.length = keyframe.stateLen.toNat := by
  cases h with
  | full hentry _ _ hlength => exact ⟨_, _, hentry.atIndex, hentry.atPacket, hlength⟩
  | delta hentry _ _ _ _ _ _ happly =>
    obtain ⟨_, -, -, -, -, hlength, -⟩ := applyRegionDiffInPlace_eq_some happly
    exact ⟨_, _, hentry.atIndex, hentry.atPacket, hlength.trans (length_resizeZero _ _)⟩

namespace ReplayFilePlayer

variable {x : Externals} {p : ReplayFilePlayer}

/-- A delta whose reference no buffer holds is refused. -/
theorem materialiseStored_unheld (hfile : p.file = file) (hindexed : file.StoredIndexed) {k r : Nat}
    {info : StoredKeyframeInfo} (hinfo : file.storedKeyframes[k]? = some info)
    (hlevel : info.level ≠ 0) (href : info.reference = some r)
    (hheld : p.chain.stored.holding r = none) : ∃ e, materialiseStored x k p = .error e p := by
  obtain ⟨⟨keyframe, hpacket, hlevelEq⟩, -⟩ := hindexed k info hinfo
  simp only [materialiseStored, Act.get_bind_apply, hfile, hinfo, hpacket]
  cases hlevelOf : levelOf keyframe.level with
  | none => exact ⟨_, rfl⟩
  | some level =>
    cases hframe : file.storedFrame keyframe with
    | error e => exact ⟨e, rfl⟩
    | ok frame =>
      have hzero : level ≠ 0 := by
        rintro rfl
        rw [levelOf, ← hlevelEq, if_neg hlevel] at hlevelOf
        split_ifs at hlevelOf <;> simp at hlevelOf
      simp only [Act.ofExcept, Act.pure_bind_apply]
      rw [if_neg hzero, materialiseDelta, Act.get_bind_apply, href]
      dsimp only
      rw [hheld]
      exact ⟨_, rfl⟩

/-- **Materialising any stored keyframe**: it fails, or its state is in a buffer, as long as its packet
says; and in both cases every buffer holds what it says it holds. -/
theorem materialiseStored_total (hfile : p.file = file) (hrom : p.rom = rom)
    (hp : p.chain.stored.InStep x.zstd rom file) (hindexed : file.StoredIndexed) {k : Nat}
    {info : StoredKeyframeInfo} (hinfo : file.storedKeyframes[k]? = some info) :
    (∃ s b keyframe, materialiseStored x k p = .ok () (p.withStored s) ∧
      s.InStep x.zstd rom file ∧ s.holds b = some k ∧ s.current = some b ∧
      file.packets[info.packet]? = some (.storedKeyframe keyframe) ∧
      (s.states b).length = keyframe.stateLen.toNat) ∨
    (∃ e s, materialiseStored x k p = .error e (p.withStored s) ∧ s.InStep x.zstd rom file) := by
  by_cases hheld : info.level ≠ 0 →
      ∀ r, info.reference = some r → (p.chain.stored.holding r).isSome = true
  · obtain ⟨s, b, hok, hs, hb, hcurrent⟩ | ⟨e, s, herror, hs, -, -⟩ :=
      materialiseStored_spec hfile hrom hp hindexed hinfo hheld
    · obtain ⟨info', keyframe, hinfo', hpacket, hlength⟩ := (hs b k hb).length
      rw [hinfo] at hinfo'
      cases hinfo'
      exact Or.inl ⟨s, b, keyframe, hok, hs, hb, hcurrent, hpacket, hlength⟩
    · exact Or.inr ⟨e, s, herror, hs⟩
  · push Not at hheld
    obtain ⟨hlevel, r, href, hnone⟩ := hheld
    have hnone : p.chain.stored.holding r = none := by simpa using hnone
    obtain ⟨e, herror⟩ := materialiseStored_unheld hfile hindexed hinfo hlevel href hnone
    exact Or.inr ⟨e, p.chain.stored, herror, hp⟩

/-- The buffers of every player of a file hold what they say they hold, whatever was read and sought,
with an error or without. -/
theorem buffers_inStep {x : Externals} (hchecks : x.zstd.ChecksSize) {bytes : Bytes}
    {allow : Bool} {player p : ReplayFilePlayer} (hnew : new x bytes allow = .ok player)
    {settings : Settings} {calls : List SeekCall}
    (hrun : runSeeks x calls (player.withSettings settings) = some p) :
    p.file.StoredIndexed ∧ p.rom = settings.rom ∧
      p.chain.stored.InStep x.zstd settings.rom p.file := by
  obtain ⟨source, file, hread, rfl⟩ := read_of_new hnew
  have hindexed := OpenedFile.storedIndexed_of_read hread
  have hstart := (following_start (z := x.zstd) file settings).inStep
  have hreads := runSeeks_reads rfl hindexed hchecks
    (reads_iff.2 ⟨hstart.file_eq, hstart.rom_eq, hstart.blobs, hstart.chain.buffers⟩) hrun
  obtain ⟨hfile, hrom, -, hbuffers⟩ := reads_iff.1 hreads
  subst hfile
  exact ⟨hindexed, hrom, hbuffers⟩

/-- **Decoding payloads is total**: for any bytes, taking a payload apart fails or gives its parts, and
rebuilding its data fails or splices bytes of the ROM into the literal bytes.  In a player of any file,
with any ROM, whatever it did before, materialising a stored keyframe fails or leaves its state, of the
length that its packet says, and every buffer holds what it says it holds. -/
theorem storedPayloads_total :
    (∀ payload parts, splitPayloadV9 payload = .ok parts → ∃ lens : Bytes, lens.length = 16 ∧
      payload = lens ++ (parts.control ++ (parts.refs ++ parts.literal))) ∧
    (∀ (parts : PayloadV9) (rom : Option Bytes),
      if parts.refs = [] then parts.dataInto rom = .ok parts.literal
      else
        match rom with
        | none => ∃ e, parts.dataInto none = .error e
        | some rom => Splicing rom parts.refs parts.literal 0 (parts.dataInto (some rom)) ∧
            ∀ data, parts.dataInto (some rom) = .ok data → Spliced rom parts.literal data) ∧
    (∀ (x : Externals) (bytes : Bytes) (allow : Bool) (player p : ReplayFilePlayer)
      (settings : Settings) (calls : List SeekCall) (k : Nat) (info : StoredKeyframeInfo),
      x.zstd.ChecksSize → new x bytes allow = .ok player →
      runSeeks x calls (player.withSettings settings) = some p →
      p.file.storedKeyframes[k]? = some info →
      (∃ p' b keyframe, materialiseStored x k p = .ok () p' ∧
        p'.chain.stored.InStep x.zstd settings.rom p.file ∧ p'.chain.stored.holds b = some k ∧
        p.file.packets[info.packet]? = some (.storedKeyframe keyframe) ∧
        (p'.chain.stored.states b).length = keyframe.stateLen.toNat) ∨
      ∃ e p', materialiseStored x k p = .error e p' ∧
        p'.chain.stored.InStep x.zstd settings.rom p.file) := by
  refine ⟨fun _ _ h ↦ splitPayloadV9_spec h, dataInto_spec, ?_⟩
  intro x bytes allow player p settings calls k info hchecks hnew hrun hinfo
  obtain ⟨hindexed, hrom, hbuffers⟩ := buffers_inStep hchecks hnew hrun
  obtain ⟨s, b, keyframe, hok, hs, hb, -, hpacket, hlength⟩ | ⟨e, s, herror, hs⟩ :=
    materialiseStored_total rfl hrom hbuffers hindexed hinfo
  · exact Or.inl ⟨_, b, keyframe, hok, hs, hb, hpacket, hlength⟩
  · exact Or.inr ⟨e, _, herror, hs⟩

/-- An unclosed recording that is one full keyframe of a Nintendo 3DS, which says that its state has
`len` bytes. -/
def storedFile (len : UnsignedInteger) (state : Bytes) : Bytes :=
  let frame := rawFrameHead state.length ++ (leBytes 3 (state.length * 8 + 1) ++ state)
  unclosedFile .nintendo3DS [.storedKeyframe
    { metadata := idleMetadata 0, level := 0, stateLen := len
      uncompressedLen := UInt64.ofNat state.length, frameLen := UInt64.ofNat frame.length
      frameOffset := 0 }] ++ frame

/-- One byte of the ROM between two literal bytes, and a keyframe of four bytes that is materialised
after a seek to it. -/
theorem storedPayloads_total_four :
    Spliced [7, 8, 9] [1, 2] [1, 9, 2] ∧
      ∃ player p info, new .plain (storedFile 4 [1, 2, 3, 4]) false = .ok player ∧
        runSeeks .plain [.goToKeyframe 0] (player.withSettings ⟨none, true, false⟩) = some p ∧
        p.file.storedKeyframes[0]? = some info ∧
        ((∃ p' b keyframe, materialiseStored .plain 0 p = .ok () p' ∧
          p'.chain.stored.InStep rawZstd none p.file ∧ p'.chain.stored.holds b = some 0 ∧
          p.file.packets[info.packet]? = some (.storedKeyframe keyframe) ∧
          (p'.chain.stored.states b).length = keyframe.stateLen.toNat) ∨
        ∃ e p', materialiseStored .plain 0 p = .error e p' ∧
          p'.chain.stored.InStep rawZstd none p.file) := by
  constructor
  · have hdata : (PayloadV9.mk [] [1, 4, 1] [1, 2]).dataInto (some [7, 8, 9]) = .ok [1, 9, 2] := by
      decide +kernel
    exact (storedPayloads_total.2.1 ⟨[], [1, 4, 1], [1, 2]⟩ (some [7, 8, 9])).2 _ hdata
  · obtain ⟨player, hnew, hruns⟩ := exists_ok_of_any (e := new .plain (storedFile 4 [1, 2, 3, 4]) false)
      (f := fun player ↦ ((runSeeks .plain [.goToKeyframe 0]
        (player.withSettings ⟨none, true, false⟩)).any fun p ↦
          p.file.storedKeyframes[0]?.isSome)) (by decide +kernel)
    obtain ⟨p, hrun, hsome⟩ := (Option.any_eq_true _ _).mp hruns
    obtain ⟨info, hinfo⟩ := Option.isSome_iff_exists.mp hsome
    exact ⟨player, p, info, hnew, hrun, hinfo,
      storedPayloads_total.2.2 .plain _ false player p ⟨none, true, false⟩ _ 0 info
        rawZstd_checksSize hnew hrun hinfo⟩

end ReplayFilePlayer

end SuperShuckie
