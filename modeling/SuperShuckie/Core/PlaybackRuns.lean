import SuperShuckie.Core.Playback
import SuperShuckie.Lib.Runs
import SuperShuckie.Player.Reading

/-!
# Runs of a core that plays a file

A `Playback` is a core that plays a replay file, from the moment the file is attached.  Its events
are the steps the core takes: a run reads the file, one packet at a time, and then runs the console;
between runs there are seeks and settings.  Whatever else happens to the core leaves its player
alone.

The player follows its file throughout (`Playback.Follows`).
-/

set_option autoImplicit false

namespace SuperShuckie

open ByteFormat

namespace SuperShuckieCore

variable {C : Type} (x : Externals)

/-- Play a replay file that is known to fit the console: a recording and another player's game are
let go of, and the first keyframe is looked for.  Without it nothing is attached. -/
def attachReplayPlayer (player : ReplayFilePlayer) (now : TimestampMillis)
    (s : SuperShuckieCore C) : Option (SuperShuckieCore C) :=
  match player.goToKeyframe x 0 with
  | .ok _ player => some { s with
      replayFileRecorder := none
      follower := none
      -- states are read back from the player rather than from its packets
      replayPlayer := some (player.setKeyframeStatesWanted false)
      replayCounters := some OrdMap.empty
      replayStalled := false
      replayFramePending := false
      replayPlaybackStopped := false
      pausedTimerAt := none
      startingMilliseconds := now
      totalMilliseconds := 0
      totalFrames := 0 }
  | _ => none

end SuperShuckieCore

/-- A core that plays a replay file. -/
structure Playback (C : Type) where
  core : SuperShuckieCore C
  phase : Live.Phase
  /-- The keyframe that was passed in the last step, and the state that was loaded for it. -/
  resynced : Option (KeyframeMetadata × Bytes)

/-- What a core that plays a file does. -/
inductive PlaybackEvent (C : Type)
  /-- A run begins. -/
  | beginRun
  /-- A packet of the file is read. -/
  | read
  /-- The console is run. -/
  | emulate (env : Surroundings)
  /-- The last keyframe at or before a frame is loaded. -/
  | seek (frame : UnsignedInteger)
  | setAutoResync (on : Bool)
  | setPlaybackStopped (stopped : Bool)
  /-- A recording that was to go on from the file could not be made from it. -/
  | refeed (calls : List ReplayFilePlayer.SeekCall)
  /-- Anything else that is done to the core. -/
  | other (f : SuperShuckieCore C → SuperShuckieCore C)
      (keeps : ∀ s, (f s).replayPlayer = s.replayPlayer)

namespace Playback

variable {C : Type} (E : EmulatorCore C) (x : Externals)

/-- The playback starts with a file that has been attached. -/
def start (core : SuperShuckieCore C) : Playback C := ⟨core, .idle, none⟩

/-- The calls that are made of a player whose packets are to come with their states. -/
def refeedPlayer (calls : List ReplayFilePlayer.SeekCall) (player : ReplayFilePlayer) :
    ReplayFilePlayer :=
  match ReplayFilePlayer.runSeeks x calls (player.setKeyframeStatesWanted true) with
  | some player => player.setKeyframeStatesWanted false
  | none => player

/-- Read a packet. -/
def read (σ : Playback C) : Playback C :=
  let turn := σ.core.handleReplayTurn E x
  ⟨turn.core, if turn.goesOn then .reading else .running, turn.resynced⟩

/-- Take a step.  An event that cannot happen at some point does nothing there. -/
def step (event : PlaybackEvent C) (σ : Playback C) : Playback C :=
  let σ := { σ with resynced := none }
  match event, σ.phase with
  | .beginRun, .idle =>
    { σ with phase := if σ.core.readsReplay E then .reading else .running }
  | .read, .reading => σ.read E x
  | .emulate env, .running => { σ with core := σ.core.emulate E env, phase := .idle }
  | .seek frame, .idle => { σ with core := (σ.core.loadReplayKeyframeAtOrBefore E x frame).2 }
  | .setAutoResync on, .idle =>
    { σ with core := { σ.core with autoResyncKeyframesInReplays := on } }
  | .setPlaybackStopped stopped, .idle =>
    { σ with core := { σ.core with replayPlaybackStopped := stopped } }
  | .refeed calls, .idle =>
    { σ with core := { σ.core with
        replayPlayer := σ.core.replayPlayer.map (refeedPlayer x calls) } }
  | .other f _, .idle => { σ with core := f σ.core }
  | _, _ => σ

/-- Take steps. -/
abbrev run (events : List (PlaybackEvent C)) (σ : Playback C) : Playback C :=
  Runs.run (step E x) events σ

/-- What is said of each step of a run, and of the playback before it. -/
abbrev Along (P : PlaybackEvent C → Playback C → Prop) (events : List (PlaybackEvent C))
    (σ : Playback C) : Prop :=
  Runs.Along (step E x) P events σ

end Playback

/-! ## What leaves the player alone -/

namespace SuperShuckieCore

variable {C : Type} {E : EmulatorCore C} {x : Externals}

theorem replayPlayer_matchReplayPlaybackSpeed (s : SuperShuckieCore C) :
    s.matchReplayPlaybackSpeed.replayPlayer = s.replayPlayer := by
  rw [matchReplayPlaybackSpeed]
  split <;> rfl

theorem replayPlayer_applyWrite (address : UnsignedInteger) (data : Bytes)
    (s : SuperShuckieCore C) : (s.applyWrite E address data).2.replayPlayer = s.replayPlayer := by
  rw [applyWrite]
  split
  · split <;> rfl
  · rfl

theorem replayPlayer_applySerialIn (data : Bytes) (s : SuperShuckieCore C) :
    (s.applySerialIn E data).replayPlayer = s.replayPlayer := by
  rw [applySerialIn]
  split
  · rfl
  · split <;> rfl

theorem replayPlayer_followerMirror (packet : Packet) (wrote : Bool) (s : SuperShuckieCore C) :
    (s.followerMirror packet wrote).replayPlayer = s.replayPlayer := by
  rw [followerMirror]
  split
  · rfl
  · cases packet with
    | writeMemory address data =>
      dsimp only
      split <;> rfl
    | _ => rfl

theorem replayPlayer_applyToCore (packet : Packet) (state : Option Bytes) (s : SuperShuckieCore C) :
    (s.applyToCore E packet state).2.replayPlayer = s.replayPlayer := by
  cases packet with
  | writeMemory address data => exact replayPlayer_applyWrite address data s
  | changeSpeed speed => exact replayPlayer_matchReplayPlaybackSpeed _
  | serialIn data => exact replayPlayer_applySerialIn data s
  | keyframe metadata bytes =>
    cases state with
    | none => rfl
    | some state =>
      show (if s.autoResyncKeyframesInReplays then s.resyncFromKeyframe E state
        else s).replayPlayer = _
      split <;> rfl
  | _ => rfl

theorem replayPlayer_applyPlaybackPacket (packet : Packet) (state : Option Bytes)
    (s : SuperShuckieCore C) :
    (s.applyPlaybackPacket E packet state).replayPlayer = s.replayPlayer :=
  (replayPlayer_followerMirror packet _ _).trans (replayPlayer_applyToCore packet state s)

theorem replayPlayer_doFrameTimekeeping (time : RunTime) (now : TimestampMillis)
    (s : SuperShuckieCore C) : (s.doFrameTimekeeping E time now).replayPlayer = s.replayPlayer := by
  have hserial : ∀ s : SuperShuckieCore C, (s.recordSerialIn E).replayPlayer = s.replayPlayer := by
    intro s
    rw [recordSerialIn, takeSerialInBytes]
    cases E.linkPort with
    | none => rfl
    | some port =>
      show (if (port.takeSerialIn s.core).1.isEmpty then _ else _ : SuperShuckieCore C).replayPlayer = _
      split <;> rfl
  have hframes : ∀ s : SuperShuckieCore C,
      (s.recordFrames time.frames now).replayPlayer = s.replayPlayer := by
    intro s
    rw [recordFrames]
    split
    · split <;> rfl
    · rfl
  rw [doFrameTimekeeping]
  split
  · exact (hframes _).trans (hserial _)
  · rfl

theorem replayPlayer_pushKeyframeIfNeeded (time : RunTime) (env : Surroundings)
    (s : SuperShuckieCore C) :
    (s.pushKeyframeIfNeeded E time env).replayPlayer = s.replayPlayer := by
  have hreads : ∀ s : SuperShuckieCore C, (s.recordRomReads E).replayPlayer = s.replayPlayer := by
    intro s
    rw [recordRomReads]
    dsimp only
    split <;> rfl
  have haccess : ∀ s : SuperShuckieCore C,
      (s.recordPageAccess E).replayPlayer = s.replayPlayer := by
    intro s
    rw [recordPageAccess]
    dsimp only
    split <;> rfl
  have hwrite : ∀ (full : Bool) (s : SuperShuckieCore C),
      (s.writeKeyframe E full).replayPlayer = s.replayPlayer := by
    intro full s
    rw [writeKeyframe]
    split <;> exact (haccess _).trans (hreads s)
  rw [pushKeyframeIfNeeded]
  split
  · rfl
  · dsimp only
    split
    · rfl
    · split
      · exact hwrite _ _
      · rfl

theorem replayPlayer_emulate (env : Surroundings) (s : SuperShuckieCore C) :
    (s.emulate E env).replayPlayer = s.replayPlayer := by
  have hthumbnail : ∀ (time : RunTime) (s : SuperShuckieCore C),
      (s.pushThumbnailIfNeeded E time).replayPlayer = s.replayPlayer := by
    intro time s
    rw [pushThumbnailIfNeeded]
    split
    · rfl
    · split <;> rfl
  rw [emulate]
  split
  · rfl
  · dsimp only
    rw [afterRun, hthumbnail, replayPlayer_pushKeyframeIfNeeded, replayPlayer_doFrameTimekeeping]

/-! ## Loading a keyframe that is passed -/

variable (E) in
/-- The output buffers that a state of the console has. -/
def outputRanges (state : Bytes) : List ByteRange :=
  match E.console with
  | none => []
  | some console => transientRanges console state

/-- What is spliced into a state are the output buffers, and nothing else. -/
theorem sameOutside_splice (state : Bytes) (s : SuperShuckieCore C) :
    SameOutside (outputRanges E state) (s.spliceLiveTransientBuffers E state) state := by
  rw [spliceLiveTransientBuffers, outputRanges]
  cases E.console with
  | none => exact .refl _ _
  | some console =>
    have hfold : ∀ (live : Bytes) (ranges : List ByteRange),
        (∀ r ∈ ranges, r ∈ transientRanges console state) → ∀ spliced,
        SameOutside (transientRanges console state) spliced state →
        SameOutside (transientRanges console state) (ranges.foldl (fun spliced r ↦
          overwrite spliced r.start ((live.drop r.start).take (r.stop - r.start))) spliced)
          state := by
      intro live ranges hranges
      induction ranges with
      | nil => exact fun spliced h ↦ h
      | cons r ranges ih =>
        intro spliced h
        have hr := hranges r (.head _)
        obtain ⟨hle, hlen⟩ := transientRanges_le hr
        refine ih (fun r' hr' ↦ hranges r' (.tail _ hr')) _ ?_
        exact sameOutside_overwrite hr hle h hlen (List.length_take_le _ _)
    dsimp only
    split
    · exact .refl _ _
    · split
      · exact .refl _ _
      · exact hfold _ _ (fun r hr ↦ hr) _ (.refl _ _)

variable (E) in
/-- The console `c'` comes of loading a state into `c`, with other output buffers. -/
def Loads (state : Bytes) (c c' : C) : Prop :=
  ∃ loaded, SameOutside (outputRanges E state) loaded state ∧ c' = (E.loadSaveState loaded c).2

/-- A keyframe that is passed leaves the player alone, and what is loaded for it is the state it
was passed with. -/
theorem passKeyframe_spec (metadata : KeyframeMetadata) (state : Bytes) (s : SuperShuckieCore C) :
    (s.passKeyframe E metadata state).core.replayPlayer = s.replayPlayer ∧
      ∀ loaded, (s.passKeyframe E metadata state).resynced = some loaded →
        loaded = (metadata, state) ∧
          ∃ c, Loads E state c (s.passKeyframe E metadata state).core.core := by
  rw [passKeyframe]
  split
  · exact ⟨rfl, fun loaded h ↦ ⟨(Option.some.inj h).symm, s.core, _, sameOutside_splice state s,
      rfl⟩⟩
  · split
    · rename_i core _
      exact ⟨rfl, fun loaded h ↦ ⟨(Option.some.inj h).symm, core, _,
        sameOutside_splice state _, rfl⟩⟩
    · exact ⟨rfl, fun loaded h ↦ by cases h⟩

theorem replayPlayer_adoptKeyframe (core : C) (metadata : KeyframeMetadata)
    (s : SuperShuckieCore C) : (s.adoptKeyframe E core metadata).replayPlayer = s.replayPlayer :=
  replayPlayer_matchReplayPlaybackSpeed _

theorem replayPlayer_loadKeyframe (frame : UnsignedInteger) (metadata : KeyframeMetadata)
    (player : ReplayFilePlayer) (s : SuperShuckieCore C) :
    (s.loadKeyframe E frame metadata player).2.replayPlayer = s.replayPlayer := by
  rw [loadKeyframe]
  split
  · rfl
  · exact replayPlayer_adoptKeyframe _ metadata s

end SuperShuckieCore

/-! ## The player follows its file -/

namespace ReplayFilePlayer

variable {z : Zstd} {rom : Option Bytes} {file : OpenedFile} {p : ReplayFilePlayer}

theorem Following.setWanted {wanted : Bool} (h : Following z rom file wanted p) (wanted' : Bool) :
    Following z rom file wanted' (p.setKeyframeStatesWanted wanted') :=
  ⟨h.inStep.congr rfl rfl rfl rfl, rfl, h.cursor⟩

section

variable (hregular : file.Regular z rom) (hindexed : file.StoredIndexed) {x : Externals}
  (hz : x.zstd = z) (hchecks : z.ChecksSize)
include hregular hindexed hz hchecks

theorem following_seekKeyframe {wanted : Bool} (fuel : Nat) (frame : UnsignedInteger)
    (h : Following z rom file wanted p) :
    Following z rom file wanted (SuperShuckieCore.seekKeyframe x fuel frame p).2 := by
  induction fuel generalizing frame p with
  | zero => exact h
  | succ fuel ih =>
    have hgo := goToKeyframe_keeps hregular hindexed hz hchecks wanted frame.toNat p h
    rw [SuperShuckieCore.seekKeyframe]
    cases hrun : goToKeyframe x frame.toNat p with
    | ok a p' =>
      rw [hrun] at hgo
      exact hgo
    | error e p' =>
      rw [hrun] at hgo
      cases e with
      | noSuchKeyframe wantedFrame best =>
        dsimp only
        split
        · exact hgo
        · exact ih _ hgo
      | readError e => exact hgo
    | abort => exact h

theorem following_nextPacket {wanted : Bool} (h : Following z rom file wanted p) :
    match nextPacket x p with
    | .ok _ p' | .error _ p' => Following z rom file wanted p'
    | .abort => True := by
  have hnext := nextPacketGo_keeps hregular hindexed hz hchecks wanted
    (p.file.packets.length + 1) p h
  rw [nextPacket, Act.get_bind_apply]
  cases hrun : nextPacketGo x (p.file.packets.length + 1) p <;> rw [hrun] at hnext <;> exact hnext

end

theorem following_refeed (hregular : file.Regular z rom) (hindexed : file.StoredIndexed)
    {x : Externals} (hz : x.zstd = z) (hchecks : z.ChecksSize) (h : Following z rom file false p)
    (calls : List SeekCall) : Following z rom file false (Playback.refeedPlayer x calls p) := by
  rw [Playback.refeedPlayer]
  cases hrun : runSeeks x calls (p.setKeyframeStatesWanted true) with
  | none => exact h
  | some p' =>
    exact (runSeeks_keeps hregular hindexed hz hchecks (h.setWanted true) hrun).setWanted false

end ReplayFilePlayer

namespace Playback

open SuperShuckieCore ReplayFilePlayer

variable {C : Type} {E : EmulatorCore C} {x : Externals}

/-- The player of the core, if there is one, follows the file. -/
def Follows (z : Zstd) (rom : Option Bytes) (file : OpenedFile) (s : SuperShuckieCore C) : Prop :=
  ∀ player, s.replayPlayer = some player → Following z rom file false player

variable {z : Zstd} {rom : Option Bytes} {file : OpenedFile}

theorem Follows.congr {s s' : SuperShuckieCore C} (h : Follows z rom file s)
    (hplayer : s'.replayPlayer = s.replayPlayer) : Follows z rom file s' := by
  rw [Follows, hplayer]
  exact h

theorem follows_withPlayer {player : ReplayFilePlayer} (h : Following z rom file false player)
    (s : SuperShuckieCore C) : Follows z rom file (s.withPlayer player) := by
  intro player' heq
  cases heq
  exact h

section

variable (hregular : file.Regular z rom) (hindexed : file.StoredIndexed) (hz : x.zstd = z)
  (hchecks : z.ChecksSize)
include hregular hindexed hz hchecks

theorem follows_handleReplayTurn {s : SuperShuckieCore C} (h : Follows z rom file s) :
    Follows z rom file (s.handleReplayTurn E x).core := by
  rw [handleReplayTurn]
  cases hplayer : s.replayPlayer with
  | none => exact h
  | some player =>
    have hnext := following_nextPacket hregular hindexed hz hchecks (h player hplayer)
    dsimp only
    cases hrun : nextPacket x player with
    | ok r player' =>
      rw [hrun] at hnext
      cases r with
      | none => exact follows_withPlayer hnext s
      | some packet =>
        have happly : Follows z rom file ((s.withPlayer player').applyPlaybackPacket E packet none) :=
          (follows_withPlayer hnext s).congr (replayPlayer_applyPlaybackPacket packet none _)
        cases packet with
        | keyframe metadata state =>
          exact (follows_withPlayer hnext s).congr (passKeyframe_spec metadata _ _).1
        | _ => exact happly
    | error e player' =>
      rw [hrun] at hnext
      exact follows_withPlayer hnext s
    | abort => exact h

theorem follows_loadReplayKeyframeAtOrBefore {s : SuperShuckieCore C} (h : Follows z rom file s)
    (frame : UnsignedInteger) :
    Follows z rom file (s.loadReplayKeyframeAtOrBefore E x frame).2 := by
  rw [loadReplayKeyframeAtOrBefore]
  cases hplayer : s.replayPlayer with
  | none => exact h
  | some player =>
    have hseek := following_seekKeyframe hregular hindexed hz hchecks (frame.toNat + 1) frame
      (h player hplayer)
    dsimp only
    rcases hrun : seekKeyframe x (frame.toNat + 1) frame player with ⟨result, player'⟩
    rw [hrun] at hseek
    cases result with
    | error e => exact follows_withPlayer hseek s
    | ok at' =>
      have hnext := following_nextPacket hregular hindexed hz hchecks hseek
      dsimp only
      cases hread : nextPacket x player' with
      | ok r player'' =>
        rw [hread] at hnext
        cases r with
        | none => exact follows_withPlayer hnext s
        | some packet =>
          cases packet with
          | keyframe metadata state =>
            exact (follows_withPlayer hnext s).congr (replayPlayer_loadKeyframe at' metadata _ _)
          | _ => exact follows_withPlayer hnext s
      | error e player'' =>
        rw [hread] at hnext
        exact follows_withPlayer hnext s
      | abort => exact follows_withPlayer hseek s

/-- A step keeps the player in step with the file. -/
theorem follows_step (event : PlaybackEvent C) {σ : Playback C} (h : Follows z rom file σ.core) :
    Follows z rom file (σ.step E x event).core := by
  obtain ⟨core, phase, resynced⟩ := σ
  cases event with
  | read =>
    cases phase with
    | reading => exact follows_handleReplayTurn hregular hindexed hz hchecks h
    | _ => exact h
  | emulate env =>
    cases phase with
    | running => exact h.congr (replayPlayer_emulate env core)
    | _ => exact h
  | seek frame =>
    cases phase with
    | idle => exact follows_loadReplayKeyframeAtOrBefore hregular hindexed hz hchecks h frame
    | _ => exact h
  | refeed calls =>
    cases phase with
    | idle =>
      intro player heq
      obtain ⟨player₀, hplayer₀, rfl⟩ := Option.map_eq_some_iff.mp heq
      exact following_refeed hregular hindexed hz hchecks (h player₀ hplayer₀) calls
    | _ => exact h
  | other f keeps =>
    cases phase with
    | idle => exact h.congr (keeps core)
    | _ => exact h
  | _ => cases phase <;> exact h

/-- So does a run. -/
theorem follows_run (events : List (PlaybackEvent C)) {σ : Playback C}
    (h : Follows z rom file σ.core) : Follows z rom file (σ.run E x events).core := by
  have htrue : ∀ (events : List (PlaybackEvent C)) (σ : Playback C),
      Along E x (fun _ _ ↦ True) events σ := by
    intro events
    induction events with
    | nil => exact fun _ ↦ trivial
    | cons event events ih => exact fun σ ↦ ⟨trivial, ih _⟩
  exact Runs.run_along (Q := fun σ ↦ Follows z rom file σ.core)
    (fun event σ hσ _ ↦ follows_step hregular hindexed hz hchecks event hσ) (htrue events σ) h

end

/-- A file that is attached is followed. -/
theorem follows_attach (hregular : file.Regular z rom) (hindexed : file.StoredIndexed)
    (hz : x.zstd = z) (hchecks : z.ChecksSize) {wanted : Bool} {player : ReplayFilePlayer}
    (h : Following z rom file wanted player) {now : TimestampMillis} {s s' : SuperShuckieCore C}
    (hattach : s.attachReplayPlayer x player now = some s') : Follows z rom file s' := by
  rw [attachReplayPlayer] at hattach
  have hgo := goToKeyframe_keeps hregular hindexed hz hchecks wanted 0 player h
  cases hrun : goToKeyframe x 0 player with
  | ok a player' =>
    rw [hrun] at hattach hgo
    cases hattach
    intro player'' heq
    cases heq
    exact hgo.setWanted false
  | error e player' =>
    rw [hrun] at hattach
    cases hattach
  | abort =>
    rw [hrun] at hattach
    cases hattach

end Playback

end SuperShuckie
