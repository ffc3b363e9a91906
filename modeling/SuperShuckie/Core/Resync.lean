import SuperShuckie.Core.PlaybackRuns

/-!
# What is loaded when a keyframe is passed

A core that is to resync loads the player's current state when it passes a keyframe.  That is the
state of the keyframe it passed if the player materialises the keyframes it reads
(`resync_loads_keyframe`).  It does not materialise the stored keyframes that it meets when it reads
on, and nobody asks it to: so what is loaded then is the state of the keyframe that was sought last
(`resync_loads_sought_keyframe`).
-/

set_option autoImplicit false

namespace SuperShuckie

open ByteFormat SuperShuckieCore ReplayFilePlayer

variable {C : Type}

/-- A packet that is read is materialised, if it is a keyframe. -/
def PlaybackEvent.Materialises (z : Zstd) : PlaybackEvent C → Playback C → Prop
  | .read, σ => ∀ player, σ.core.replayPlayer = some player → player.Materialises z player.file
  | _, _ => True

namespace Playback

variable {E : EmulatorCore C} {x : Externals}

/-- The state of a keyframe is loaded into the console: of the one that the player finds next, whose
metadata it hands out. -/
structure LoadsReached (E : EmulatorCore C) (z : Zstd) (rom : Option Bytes)
    (player : ReplayFilePlayer) (metadata : KeyframeMetadata) (state : Bytes) (console : C) :
    Prop where
  reached : ∃ list pos packet,
    player.file.NextAt z player.nextUncompressedPacketIndex player.nextBlobOffset list pos ∧
    player.file.packetAt z list pos = some packet ∧ keyframeMetadata packet = some metadata ∧
    player.file.StateAt z rom list pos state
  loads : ∃ c, Loads E state c console

/-- One read: what it loads is the keyframe it reaches. -/
theorem loadsReached_handleReplayTurn {file : OpenedFile} {rom : Option Bytes}
    (hregular : file.Regular x.zstd rom) (hindexed : file.StoredIndexed)
    (hchecks : x.zstd.ChecksSize) {s : SuperShuckieCore C} (h : Follows x.zstd rom file s)
    (hfolds : ∀ player, s.replayPlayer = some player → player.Materialises x.zstd player.file)
    {metadata : KeyframeMetadata} {state : Bytes}
    (hload : (s.handleReplayTurn E x).resynced = some (metadata, state)) :
    ∃ player, s.replayPlayer = some player ∧
      LoadsReached E x.zstd rom player metadata state (s.handleReplayTurn E x).core.core := by
  cases hplayer : s.replayPlayer with
  | none =>
    have hturn : s.handleReplayTurn E x = ⟨false, s, none⟩ := by rw [handleReplayTurn, hplayer]
    rw [hturn] at hload
    cases hload
  | some player =>
    have hp := h player hplayer
    have hfile : player.file = file := hp.inStep.file_eq
    cases hrun : nextPacket x player with
    | ok r player' =>
      by_cases hkeyframe : ∃ metadata' state', r = some (.keyframe metadata' state')
      · obtain ⟨metadata', state', rfl⟩ := hkeyframe
        have hturn : s.handleReplayTurn E x = (s.withPlayer player').passKeyframe E metadata'
            player'.currentKeyframeState := by
          rw [handleReplayTurn, hplayer]
          dsimp only
          rw [hrun]
        rw [hturn] at hload ⊢
        obtain ⟨heq, hloads⟩ := (passKeyframe_spec metadata' _ (s.withPlayer player')).2 _ hload
        cases heq
        have hreached := nextPacket_stateAt hregular hindexed rfl hchecks hp
          (hfile ▸ hfolds player hplayer) hrun
        exact ⟨player, rfl, hfile.symm ▸ hreached, hloads⟩
      · have hnone : (s.handleReplayTurn E x).resynced = none := by
          rw [handleReplayTurn, hplayer]
          dsimp only
          rw [hrun]
          cases r with
          | none => rfl
          | some packet =>
            cases packet with
            | keyframe metadata' state' => exact (hkeyframe ⟨_, _, rfl⟩).elim
            | _ => rfl
        rw [hnone] at hload
        cases hload
    | error e player' =>
      have hnone : (s.handleReplayTurn E x).resynced = none := by
        rw [handleReplayTurn, hplayer]
        dsimp only
        rw [hrun]
      rw [hnone] at hload
      cases hload
    | abort =>
      have hnone : (s.handleReplayTurn E x).resynced = none := by
        rw [handleReplayTurn, hplayer]
        dsimp only
        rw [hrun]
      rw [hnone] at hload
      cases hload

/-- **A resync loads the keyframe just reached**, in every run whose reads materialise the keyframes
they reach. -/
theorem resync_loads_keyframe {bytes : Bytes} {allowSomeCorruption : Bool}
    {player : ReplayFilePlayer} {settings : Settings} (hchecks : x.zstd.ChecksSize)
    (hnew : ReplayFilePlayer.new x bytes allowSomeCorruption = .ok player)
    (hregular : player.file.Regular x.zstd settings.rom) {s s' : SuperShuckieCore C}
    {now : TimestampMillis}
    (hattach : s.attachReplayPlayer x (player.withSettings settings) now = some s')
    {events : List (PlaybackEvent C)} {event : PlaybackEvent C}
    (halong : (start s').Along E x (PlaybackEvent.Materialises x.zstd) (events ++ [event]))
    {metadata : KeyframeMetadata} {state : Bytes}
    (hload : ((start s').run E x (events ++ [event])).resynced = some (metadata, state)) :
    ∃ player, ((start s').run E x events).core.replayPlayer = some player ∧
      LoadsReached E x.zstd settings.rom player metadata state
        ((start s').run E x (events ++ [event])).core.core := by
  obtain ⟨source, file, hread, rfl⟩ := read_of_new hnew
  have hindexed := OpenedFile.storedIndexed_of_read hread
  have hfollows : Follows x.zstd settings.rom file ((start s').run E x events).core :=
    follows_run hregular hindexed rfl hchecks events
      (follows_attach hregular hindexed rfl hchecks (following_start file settings) hattach)
  have hfolds : event.Materialises x.zstd ((start s').run E x events) :=
    (Runs.along_append.mp halong).2.1
  have hrun : (start s').run E x (events ++ [event]) =
      ((start s').run E x events).step E x event := Runs.run_append
  rw [hrun] at hload ⊢
  generalize (start s').run E x events = σ at hfollows hfolds hload ⊢
  obtain ⟨core, phase, resynced⟩ := σ
  cases event with
  | read =>
    cases phase with
    | reading =>
      exact loadsReached_handleReplayTurn hregular hindexed hchecks hfollows hfolds hload
    | _ => cases hload
  | _ => cases phase <;> cases hload

/-! ## Two files -/

/-- A playback of a file from its first keyframe on, with resyncs, up to the keyframe after its
first frame. -/
def resyncEvents : List (PlaybackEvent SlicedConsole) :=
  [.seek 0, .setAutoResync true, .beginRun, .read, .emulate ⟨0, 0⟩, .beginRun, .emulate ⟨0, 0⟩,
    .beginRun, .read]

/-- The settings of a player without a ROM. -/
def plainSettings : Settings := ⟨none, true, false⟩

/-- A file that is attached to a console just switched on. -/
def attached (bytes : Bytes) : Option (ReplayFilePlayer × SuperShuckieCore SlicedConsole) :=
  match ReplayFilePlayer.new .plain bytes false with
  | .ok player =>
    ((SuperShuckieCore.new SlicedConsole.fresh 0).attachReplayPlayer .plain
      (player.withSettings plainSettings) 0).map (player, ·)
  | .error _ => none

/-- A full Nintendo 3DS keyframe as it stands in a file. -/
def storedBytes (frame : UnsignedInteger) (state : Bytes) : Bytes :=
  match rawZstd.compress2 0 none [] state with
  | .ok bytes =>
    (Packet.storedKeyframe ⟨idleMetadata frame, 0, state.length.toUInt64, state.length.toUInt64,
      bytes.length.toUInt64, 0⟩).write ++ bytes
  | .error _ => []

/-- A Nintendo 3DS recording with keyframes on two frames, which its recorder never closed. -/
def storedFile : Bytes :=
  unclosedFile .nintendo3DS [] ++ storedBytes 0 [1] ++ (Packet.nextFrame 16).write ++
    storedBytes 1 [2]

/-- What a run on an attached file comes to is known when it can be computed. -/
theorem exists_attached (bytes : Bytes)
    {f : ReplayFilePlayer → SuperShuckieCore SlicedConsole → Bool} (h : (attached bytes).any (fun a ↦ f a.1 a.2) = true) :
    ∃ player s, ReplayFilePlayer.new .plain bytes false = .ok player ∧
      (SuperShuckieCore.new SlicedConsole.fresh 0).attachReplayPlayer .plain
        (player.withSettings plainSettings) 0 = some s ∧ f player s = true := by
  obtain ⟨⟨player, s⟩, hattached, hf⟩ := (Option.any_eq_true _ _).mp h
  rw [attached] at hattached
  cases hnew : ReplayFilePlayer.new .plain bytes false with
  | error e =>
    rw [hnew] at hattached
    cases hattached
  | ok player' =>
    rw [hnew] at hattached
    obtain ⟨s', hs', heq⟩ := Option.map_eq_some_iff.mp hattached
    cases heq
    exact ⟨_, _, rfl, hs', hf⟩

/-- A file without stored keyframes, and without blobs, has none to leave out. -/
theorem along_materialises {file : OpenedFile} {rom : Option Bytes}
    (hblob : ∀ (i : Nat) b, file.packets[i]? ≠ some (.compressedBlob b))
    (hstored : ∀ (i : Nat) k, file.packets[i]? ≠ some (.storedKeyframe k))
    (hregular : file.Regular x.zstd rom) (hindexed : file.StoredIndexed)
    (hchecks : x.zstd.ChecksSize) (events : List (PlaybackEvent C)) {σ : Playback C}
    (h : Follows x.zstd rom file σ.core) :
    σ.Along E x (PlaybackEvent.Materialises x.zstd) events := by
  induction events generalizing σ with
  | nil => trivial
  | cons event events ih =>
    refine ⟨?_, ih (follows_step hregular hindexed rfl hchecks event h)⟩
    cases event with
    | read =>
      intro player hplayer list pos k hnext hat
      have hfile := (h player hplayer).inStep.file_eq
      rw [hfile] at hat
      cases list with
      | topLevel => exact (hstored pos k hat).elim
      | blob top =>
        rw [OpenedFile.packetAt] at hat
        obtain ⟨v, hv, -⟩ := Option.bind_eq_some_iff.mp hat
        obtain ⟨b, hb, -⟩ := OpenedFile.exists_of_blobView hv
        exact (hblob top b hb).elim
    | _ => trivial

theorem resync_loads_keyframe_delta :
    ∃ player s' player', ReplayFilePlayer.new .plain (unclosedFile .gameBoy deltaPackets) false =
        .ok player ∧
      (SuperShuckieCore.new SlicedConsole.fresh 0).attachReplayPlayer .plain
        (player.withSettings plainSettings) 0 = some s' ∧
      ((start s').run SlicedConsole.core .plain resyncEvents).resynced =
        some (idleMetadata 1, [1, 2, 3, 4]) ∧
      LoadsReached SlicedConsole.core rawZstd none player' (idleMetadata 1) [1, 2, 3, 4]
        ((start s').run SlicedConsole.core .plain resyncEvents).core.core := by
  obtain ⟨player, s', hnew, hattach, hfacts⟩ := exists_attached
    (unclosedFile .gameBoy deltaPackets) (f := fun player s' ↦ decide (player.file.packets = deltaPackets ∧
      player.file.resizing = false ∧
      ((start s').run SlicedConsole.core .plain resyncEvents).resynced =
        some (idleMetadata 1, [1, 2, 3, 4]))) (by decide +kernel)
  obtain ⟨hpackets, hresizing, hload⟩ := of_decide_eq_true hfacts
  obtain ⟨source, file, hread, rfl⟩ := read_of_new hnew
  have hindexed := OpenedFile.storedIndexed_of_read hread
  have hstored : ∀ (i : Nat) k, file.packets[i]? ≠ some (.storedKeyframe k) := fun i k hk ↦ by
    have hmem : Packet.storedKeyframe k ∈ deltaPackets := hpackets ▸ List.mem_of_getElem? hk
    simp [deltaPackets] at hmem
  have hblob : ∀ (i : Nat) b, file.packets[i]? ≠ some (.compressedBlob b) := fun i b hb ↦ by
    have hmem : Packet.compressedBlob b ∈ deltaPackets := hpackets ▸ List.mem_of_getElem? hb
    simp [deltaPackets] at hmem
  have hregular : file.Regular rawZstd plainSettings.rom :=
    OpenedFile.regular_of_not_resizing hindexed hresizing hstored
      (OpenedFile.tablesComplete_of_no_blob hblob)
  have halong : (start s').Along SlicedConsole.core .plain (PlaybackEvent.Materialises rawZstd)
      (resyncEvents.dropLast ++ [.read]) :=
    along_materialises (x := .plain) hblob hstored hregular hindexed rawZstd_checksSize resyncEvents
      (follows_attach hregular hindexed rfl rawZstd_checksSize
        (following_start file plainSettings) hattach)
  obtain ⟨player', -, hloads⟩ := resync_loads_keyframe (x := .plain) rawZstd_checksSize hnew
    (show (ReplayFilePlayer.start file).file.Regular rawZstd plainSettings.rom from hregular)
    hattach halong hload
  exact ⟨_, s', player', hnew, hattach, hload, hloads⟩

/-- A stored keyframe that is met reading on is not materialised: what is loaded for it is the state
of the keyframe before it. -/
theorem resync_loads_sought_keyframe :
    ∃ player s', ReplayFilePlayer.new .plain storedFile false = .ok player ∧
      (SuperShuckieCore.new SlicedConsole.fresh 0).attachReplayPlayer .plain
        (player.withSettings plainSettings) 0 = some s' ∧
      seekAndRead .plain 1 player = some (some (.keyframe (idleMetadata 1) [2]), [2]) ∧
      ((start s').run SlicedConsole.core .plain resyncEvents).resynced =
        some (idleMetadata 1, [1]) ∧
      ((start s').run SlicedConsole.core .plain resyncEvents).core.core.memory = [1] := by
  obtain ⟨player, s', hnew, hattach, hfacts⟩ := exists_attached storedFile
    (f := fun player s' ↦ decide (
      seekAndRead .plain 1 player = some (some (.keyframe (idleMetadata 1) [2]), [2]) ∧
      ((start s').run SlicedConsole.core .plain resyncEvents).resynced =
        some (idleMetadata 1, [1]) ∧
      ((start s').run SlicedConsole.core .plain resyncEvents).core.core.memory = [1]))
    (by decide +kernel)
  exact ⟨player, s', hnew, hattach, of_decide_eq_true hfacts⟩

end Playback

end SuperShuckie
