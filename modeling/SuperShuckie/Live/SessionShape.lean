import SuperShuckie.Live.SessionSteps

/-!
# The shape of a session

What holds at any point of a session (`Shape`), and, as long as frames are whole, that half a frame
is never run (`WholeFrames`); and what a step does that starts a file.
-/

set_option autoImplicit false

namespace SuperShuckie
namespace Live

open ByteFormat SuperShuckieCore

variable {C : Type} {E : EmulatorCore C}

namespace Session

/-! ## Shape -/

variable {σ : Session C} {s : SuperShuckieCore C}

/-- Steps that only write keep the shape. -/
theorem Shape.of_wrote {σ' : Session C} {calls : List Call} (hσ : σ.Shape)
    (h : Wrote σ.core σ'.core calls) (hcounters : σ'.core.replayCounters.isSome = true)
    (hunlinked : σ'.phase ≠ .idle → σ'.core.linkPartner = none)
    (hreading : σ'.phase = .reading → σ'.core.replayFramePending = false)
    (hlinked : σ'.core.linkPartner.isSome = true → σ'.core.replayFramePending = false) : σ'.Shape :=
  ⟨h.following hσ.following, hcounters, hunlinked, hreading, hlinked,
    fun pending hpending ↦ hσ.sinks pending (h.follower ▸ hpending)⟩

theorem shape_attach (hlink : s.linkPartner = none) : (Session.attach s).Shape where
  following := ⟨rfl, rfl⟩
  counters := rfl
  unlinked _ := hlink
  reading _ := rfl
  linked _ := rfl
  sinks := fun pending hpending ↦ (by cases hpending)

theorem phase_become (core : SuperShuckieCore C) (σ : Session C) :
    (σ.become core).phase = σ.phase := by
  rw [become]
  split <;> rfl

theorem phase_complete (frames : UInt64) (console : C) (σ : Session C) :
    (σ.complete E frames console).phase = σ.phase := by
  rw [complete]
  split <;> rfl

theorem phase_read (x : Externals) (poll : LivePoll) (σ : Session C) : (σ.read E x poll).phase =
      if (σ.core.readLive E x poll).1 then .reading else .running := by
  rw [Session.read.eq_def]

/-- What reading the live replay does to a core that follows another player. -/
structure Reads (s s' : SuperShuckieCore C) (goesOn : Bool) : Prop where
  following : s'.Following
  counters : s'.replayCounters.isSome = true
  link : s'.linkPartner = none
  pending : goesOn = true → s'.replayFramePending = false
  held : goesOn = false → Held s'
  sinks : ∀ pending, s'.follower.map FollowerState.pendingRecording = some (some pending) →
    s.follower.map FollowerState.pendingRecording = some (some pending)

/-- A snapshot: either it does not load, or it goes into the file, or it may start the file. -/
theorem readLive_keyframe_cases (x : Externals) (metadata : KeyframeMetadata) (state : Bytes)
    {follower : FollowerState} (hfollower : s.follower = some follower) :
    (∃ e core, s.readLive E x (.item (.packet (.keyframe metadata state))) =
      (!s.replayStalled, { s with core }.noteFailedLoad e)) ∨
    ∃ core, E.loadSaveState state s.core = (.ok (), core) ∧
      ((s.replayFileRecorder.isSome = true ∧ ∃ calls,
        s.readLive E x (.item (.packet (.keyframe metadata state))) =
          (true, (s.moveToSnapshot E core metadata).record calls)) ∨
      (s.replayFileRecorder = none ∧ ∃ errors,
        s.readLive E x (.item (.packet (.keyframe metadata state))) =
          (true, (s.moveToSnapshot E core metadata).fileDropped
            { follower.noteSnapshot metadata with errors })) ∨
      (s.replayFileRecorder = none ∧ ∃ pending recorder,
        follower.pendingRecording = some pending ∧
        Recorder.newWithMetadata x pending.metadata pending.patchData pending.settings 0
          metadata.input metadata.speed state pending.finalFile pending.tempFile = .ok recorder () ∧
        s.readLive E x (.item (.packet (.keyframe metadata state))) =
          (true, (s.moveToSnapshot E core metadata).fileStarted (follower.noteSnapshot metadata)
            pending recorder))) := by
  rcases hload : E.loadSaveState state s.core with ⟨result, core⟩
  cases result with
  | error e =>
    refine .inl ⟨e, core, ?_⟩
    rw [readLive, applyStreamSnapshot, hload]
    rfl
  | ok _ =>
    refine .inr ⟨core, rfl, ?_⟩
    obtain ⟨origin, hmoved⟩ := moveToSnapshot_eq (E := E) core metadata s
    have hread : s.readLive E x (.item (.packet (.keyframe metadata state))) =
        let moved := (s.moveToSnapshot E core metadata).recordSnapshot x
          (s.replayCounters.getD OrdMap.empty) metadata state
        (!moved.replayStalled, moved) := by
      rw [readLive, applyStreamSnapshot, hload]
    have hnoted : (s.moveToSnapshot E core metadata).follower =
        some (follower.noteSnapshot metadata) := by rw [hmoved, hfollower]; rfl
    cases hfile : s.replayFileRecorder with
    | some file =>
      refine .inl ⟨rfl, snapshotCalls (s.replayCounters.getD OrdMap.empty) metadata state
        (s.moveToSnapshot E core metadata).recordingMillis, ?_⟩
      rw [hread, recordSnapshot, if_pos (by rw [hmoved]; exact hfile ▸ rfl), hmoved]
      rfl
    | none =>
      refine .inr ?_
      have hnofile : ¬ (s.moveToSnapshot E core metadata).replayFileRecorder.isSome = true := by
        rw [hmoved]
        show ¬ s.replayFileRecorder.isSome = true
        rw [hfile]
        exact Bool.false_ne_true
      dsimp only at hread
      rw [recordSnapshot, if_neg hnofile] at hread
      rcases startPendingFollowerRecording_cases x state hnoted with ⟨result, h⟩ |
        ⟨pending, recorder, hpending, hnew, h⟩
      · refine .inl ⟨rfl, ?_⟩
        rw [h] at hread
        cases result with
        | error e => exact ⟨_, by rw [hread, hmoved]; rfl⟩
        | ok _ => exact ⟨follower.errors, by rw [hread, hmoved]; rfl⟩
      · refine .inr ⟨rfl, pending, recorder, hpending, ?_, ?_⟩
        · rw [← hnew, hmoved]
          rfl
        · rw [hread, h, hmoved]
          rfl

theorem reads_spec (x : Externals) (poll : LivePoll) (hs : s.Following)
    (hcounters : s.replayCounters.isSome = true) (hlink : s.linkPartner = none)
    (hpending : s.replayFramePending = false) :
    Reads s (s.readLive E x poll).2 (s.readLive E x poll).1 := by
  cases poll with
  | waiting =>
    exact ⟨hs, hcounters, hlink, fun _ ↦ hpending, fun _ ↦ .inr (.inl rfl), fun _ h ↦ h⟩
  | ended =>
    exact ⟨hs, hcounters, hlink, fun _ ↦ hpending, fun _ ↦ .inr (.inr rfl), fun _ h ↦ h⟩
  | item item =>
    cases item with
    | syncHash frame hash =>
      exact ⟨hs, hcounters, hlink, fun _ ↦ hpending, fun h ↦ (by cases h), fun _ h ↦ h⟩
    | packet packet =>
      by_cases hpacket : ∃ metadata state, packet = .keyframe metadata state
      · obtain ⟨metadata, state, rfl⟩ := hpacket
        obtain ⟨follower, hfollower⟩ := Option.isSome_iff_exists.mp hs.1
        rcases readLive_keyframe_cases (E := E) x metadata state hfollower with ⟨e, core, h⟩ |
          ⟨core, -, h⟩
        · rw [h]
          refine ⟨⟨?_, hs.2⟩, hcounters, hlink, fun _ ↦ hpending, fun hstalled ↦ .inr (.inr ?_), ?_⟩
          · show (s.follower.map (FollowerState.noteFailedLoad e)).isSome = true
            rw [hfollower]
            rfl
          · show s.replayStalled = true
            simpa using hstalled
          · intro pending hrequest
            have hsame : ({ s with core }.noteFailedLoad e).follower =
                s.follower.map (FollowerState.noteFailedLoad e) := rfl
            rw [hsame, hfollower] at hrequest
            rw [hfollower]
            exact hrequest
        · obtain ⟨origin, hmoved⟩ := moveToSnapshot_eq (E := E) core metadata s
          rcases h with ⟨-, calls, h⟩ | ⟨-, errors, h⟩ | ⟨-, pending, recorder, -, -, h⟩
          · rw [h, hmoved]
            refine ⟨⟨?_, hs.2⟩, rfl, hlink, fun _ ↦ rfl, fun hfalse ↦ (by cases hfalse), ?_⟩
            · show (s.follower.map (FollowerState.noteSnapshot metadata)).isSome = true
              rw [hfollower]
              rfl
            · intro pending hrequest
              have hrequest' : (s.follower.map (FollowerState.noteSnapshot metadata)).map
                  FollowerState.pendingRecording = some (some pending) := hrequest
              rw [hfollower] at hrequest' ⊢
              exact hrequest'
          · rw [h, hmoved]
            exact ⟨⟨rfl, hs.2⟩, rfl, hlink, fun _ ↦ rfl, fun hfalse ↦ (by cases hfalse),
              fun _ hrequest ↦ (by cases hrequest)⟩
          · rw [h, hmoved]
            exact ⟨⟨rfl, hs.2⟩, rfl, hlink, fun _ ↦ rfl, fun hfalse ↦ (by cases hfalse),
              fun _ hrequest ↦ (by cases hrequest)⟩
      · obtain ⟨calls, wrote, silent, -, -, hwrote, -, hafter, hnext⟩ :=
          applyPlaybackPacket_spec (E := E) packet hs
        have hlink' : (s.applyPlaybackPacket E packet none).linkPartner = none := by
          have := hwrote.link
          rw [hlink] at this
          exact Option.isNone_iff_eq_none.mp (by rw [Option.isNone_iff_eq_none]; simpa using this)
        have hcounters' : (s.applyPlaybackPacket E packet none).replayCounters.isSome = true := by
          rw [hafter, Option.isSome_map]
          exact hcounters
        rw [hpending, packetPending, Bool.or_false] at hnext
        rw [readLive_packet x s fun metadata state h ↦ hpacket ⟨metadata, state, h⟩]
        dsimp only
        split
        · rename_i hends
          exact ⟨hwrote.following hs, hcounters', hlink', fun hfalse ↦ (by rw [hends] at hfalse; cases hfalse),
            fun _ ↦ .inl (hnext.trans hends), fun pending h ↦ hwrote.follower ▸ h⟩
        · rename_i hends
          have hnot : endsFrame packet = false := by simpa using hends
          exact ⟨hwrote.following hs, hcounters', hlink', fun _ ↦ hnext.trans hnot,
            fun hfalse ↦ (by rw [hnot] at hfalse; cases hfalse),
            fun pending h ↦ hwrote.follower ▸ h⟩

/-! ## Asking for a file -/

theorem stopRecordingReplay_eq (hs : s.follower.isSome = true) :
    s.stopRecordingReplay = { s with replayFileRecorder := none } := by
  rw [stopRecordingReplay]
  cases hfile : s.replayFileRecorder with
  | none =>
    have hsame : ∀ file, s.replayFileRecorder = file → s = { s with replayFileRecorder := file } := by
      rintro _ rfl
      rfl
    exact hsame none hfile
  | some file =>
    dsimp only
    rw [if_pos hs]

/-- The core once a file has been asked for. -/
def requested (follower : FollowerState) (pending : PendingFollowerRecording)
    (s : SuperShuckieCore C) : SuperShuckieCore C :=
  { s with
    replayFileRecorder := none
    follower := some { follower with pendingRecording := some pending } }

/-- Asking for a file: it is started at once if it can be. -/
theorem startRecordingFollowerReplay_cases (x : Externals) (recording : PendingFollowerRecording)
    {follower : FollowerState} (hfollower : σ.core.follower = some follower) :
    ∃ pending : PendingFollowerRecording, pending.finalFile = recording.finalFile ∧
      pending.tempFile = recording.tempFile ∧
      ((σ.core.startRecordingFollowerReplay E x recording).1 = requested follower pending σ.core ∨
        (SessionEvent.startsAtOnce E σ = true ∧
          ((σ.core.startRecordingFollowerReplay E x recording).1 =
            (requested follower pending σ.core).fileDropped
              { follower with pendingRecording := some pending } ∨
          ∃ recorder, Recorder.newWithMetadata x pending.metadata pending.patchData
              pending.settings 0 follower.lastInput σ.core.replayPlaybackSpeed
              (E.createSaveState σ.core.core) pending.finalFile pending.tempFile = .ok recorder () ∧
            (σ.core.startRecordingFollowerReplay E x recording).1 =
              (requested follower pending σ.core).fileStarted
                { follower with pendingRecording := some pending } pending recorder))) := by
  refine ⟨{ recording with metadata := { recording.metadata with
      cropStart := none
      cropEnd := none
      timerOffset := none } }, rfl, rfl, ?_⟩
  rw [startRecordingFollowerReplay, hfollower]
  dsimp only
  rw [stopRecordingReplay_eq (by rw [hfollower]; rfl)]
  split
  · rename_i hatonce
    have hstarts : SessionEvent.startsAtOnce E σ = true := by
      rw [SessionEvent.startsAtOnce, hfollower, hatonce.2]
      simpa using hatonce.1
    rcases startPendingFollowerRecording_cases x (E.createSaveState σ.core.core)
        (s := requested follower { recording with metadata := { recording.metadata with
          cropStart := none
          cropEnd := none
          timerOffset := none } } σ.core) rfl with ⟨result, h⟩ | ⟨pending, recorder, hpending, hnew, h⟩
    · exact .inr ⟨hstarts, .inl (congrArg Prod.fst h)⟩
    · cases hpending
      exact .inr ⟨hstarts, .inr ⟨recorder, hnew, congrArg Prod.fst h⟩⟩
  · exact .inl rfl

theorem shape_startRecording (x : Externals) (recording : PendingFollowerRecording) (hσ : σ.Shape)
    (hsinks : (SessionEvent.startRecording recording : SessionEvent C).SinksWork) :
    (σ.step E x (.startRecording recording)).Shape := by
  obtain ⟨follower, hfollower⟩ := Option.isSome_iff_exists.mp hσ.following.1
  rw [step]
  split
  swap
  · exact hσ
  rename_i hidle
  have hshape : ∀ core : SuperShuckieCore C, core.Following → core.replayCounters.isSome = true →
      (core.linkPartner.isSome = true → core.replayFramePending = false) →
      (∀ pending, core.follower.map FollowerState.pendingRecording = some (some pending) →
        pending.finalFile.script = [] ∧ pending.tempFile.script = []) →
      (({ σ with core := σ.core.stopRecordingReplay } : Session C).become core).Shape := by
    intro core hfollowing hcounters hlinked hrequest
    have hphase : (({ σ with core := σ.core.stopRecordingReplay } : Session C).become core).phase =
        .idle := (phase_become _ _).trans hidle
    refine ⟨?_, ?_, fun h ↦ absurd hphase h, fun h ↦ ?_, ?_, ?_⟩
    · rw [core_become]; exact hfollowing
    · rw [core_become]; exact hcounters
    · rw [hphase] at h; cases h
    · rw [core_become]; exact hlinked
    · rw [core_become]; exact hrequest
  obtain ⟨pending, hfinal, htemp, h | ⟨-, h | ⟨recorder, -, h⟩⟩⟩ :=
    startRecordingFollowerReplay_cases (E := E) x recording hfollower
  · rw [h]
    refine hshape _ ⟨rfl, hσ.following.2⟩ hσ.counters hσ.linked fun request hrequest ↦ ?_
    cases hrequest
    rw [hfinal, htemp]
    exact hsinks
  · rw [h]
    exact hshape _ ⟨rfl, hσ.following.2⟩ hσ.counters hσ.linked fun request hrequest ↦
      (by cases hrequest)
  · rw [h]
    exact hshape _ ⟨rfl, hσ.following.2⟩ hσ.counters hσ.linked fun request hrequest ↦
      (by cases hrequest)

/-! ## Running the console -/

/-- A run of the console: nothing happens, or a frame has progressed. -/
theorem emulate_cases (env : Surroundings) (hs : s.Following) :
    ((s.replayStalled = true ∨ s.replayWaiting = true) ∧ s.emulate E env = s) ∨
      (¬ (s.replayStalled = true ∨ s.replayWaiting = true) ∧
        ∃ calls, AfterRun E (E.runUnlocked s.core).1.frames
          { s with core := (E.runUnlocked s.core).2 } (s.emulate E env) calls) := by
  rw [emulate_eq]
  split
  · rename_i h
    exact .inl ⟨h, rfl⟩
  · rename_i h
    exact .inr ⟨h, afterRun_spec env (s := { s with core := (E.runUnlocked s.core).2 }) hs
      (E.frames_le s.core)⟩

theorem shape_emulate (x : Externals) (env : Surroundings) (hσ : σ.Shape) :
    (σ.step E x (.emulate env)).Shape := by
  rw [step]
  split
  swap
  · exact hσ
  rename_i hrunning
  have hnone := hσ.unlinked (by rw [hrunning]; exact Phase.noConfusion)
  rcases emulate_cases (E := E) env hσ.following with ⟨-, h⟩ | ⟨-, calls, h⟩
  · refine ⟨?_, ?_, fun _ ↦ ?_, fun hreading ↦ (by cases hreading), ?_, ?_⟩
    all_goals rw [core_emulate, h]
    · exact hσ.following
    · exact hσ.counters
    · exact hnone
    · exact hσ.linked
    · exact hσ.sinks
  · have hlink : (σ.core.emulate E env).linkPartner.isSome = false := by
      rw [h.link]
      show σ.core.linkPartner.isSome = false
      rw [hnone]
      rfl
    refine ⟨h.following hσ.following, ?_, fun hphase ↦ absurd rfl hphase,
      fun hreading ↦ (by cases hreading), fun hlinked ↦ ?_, fun pending hrequest ↦ ?_⟩
    · rw [core_emulate, h.counters]; exact hσ.counters
    · rw [core_emulate, hlink] at hlinked; cases hlinked
    · exact hσ.sinks pending (h.follower ▸ hrequest)

section

variable (arrived : Option LinkFrame) (inboxEnded hashesMatch : Bool) (other : C)
    (env : Surroundings)
include arrived inboxEnded hashesMatch other env

theorem core_partnerTurn (σ : Session C) :
    (σ.partnerTurn E arrived inboxEnded hashesMatch other env).core =
      σ.core.partnerTurn E arrived inboxEnded hashesMatch other env := rfl

theorem phase_partnerTurn (σ : Session C) :
    (σ.partnerTurn E arrived inboxEnded hashesMatch other env).phase = σ.phase := by
  rw [Session.partnerTurn]
  dsimp only
  split
  · rfl
  · split
    · exact phase_complete _ _ _
    · rfl

/-- The partner's turn keeps it following, linked as it was, and with no frame waiting if none
was. -/
theorem partnerTurn_spec (hs : s.Following) :
    ∃ calls, Wrote s (s.partnerTurn E arrived inboxEnded hashesMatch other env) calls ∧
      (s.partnerTurn E arrived inboxEnded hashesMatch other env).replayCounters = s.replayCounters ∧
      (s.replayFramePending = false →
        (s.partnerTurn E arrived inboxEnded hashesMatch other env).replayFramePending = false) := by
  obtain ⟨s', calls, hturn⟩ := turn_spec (E := E) arrived inboxEnded hashesMatch other env hs
  have hprepared := hturn.prepares
  rcases hturn.runs with ⟨-, h⟩ | ⟨port, -, h⟩
  · rw [h]
    exact ⟨calls, hprepared.toWrote, hprepared.counters, fun hidle ↦ hprepared.pending.trans hidle⟩
  · rw [h, linkStep]
    rcases hstep : port.stepLinked s'.core other with ⟨result, console, other'⟩
    cases result with
    | error e =>
      exact ⟨calls, { hprepared.toWrote with }, hprepared.counters,
        fun hidle ↦ hprepared.pending.trans hidle⟩
    | ok time =>
      obtain ⟨calls', hrun⟩ := afterRun_spec (E := E) env
        (s := { s' with core := console }) (hprepared.following hs) (port.frames_le hstep)
      have hconsole : Wrote s { s' with core := console } calls := { hprepared.toWrote with }
      refine ⟨calls ++ calls', hconsole.trans hrun.toWrote, hrun.counters.trans hprepared.counters,
        fun hidle ↦ ?_⟩
      rw [hrun.pending]
      split
      · exact hprepared.pending.trans hidle
      · rfl

end

/-! ## Every step -/

theorem shape_step (x : Externals) {event : SessionEvent C} (hσ : σ.Shape)
    (hsinks : event.SinksWork) : (σ.step E x event).Shape := by
  obtain ⟨follower, hfollower⟩ := Option.isSome_iff_exists.mp hσ.following.1
  have hlinkNone : σ.phase ≠ .idle → σ.core.linkPartner.isSome = true → False := by
    intro hphase hlink
    rw [hσ.unlinked hphase] at hlink
    cases hlink
  cases event with
  | beginRun =>
    rw [step]
    split
    · rename_i h
      have hnone := Option.isNone_iff_eq_none.mp h.2
      refine hσ.of_wrote (.refl _) hσ.counters (fun _ ↦ hnone) (fun hreading ↦ ?_) fun hlink ↦ ?_
      · by_contra hpending
        have hreads : σ.core.readsReplay E = false := by
          have hpending' : σ.core.replayFramePending = true := by simpa using hpending
          simp [readsReplay, hpending']
        simp [hreads] at hreading
      · rw [show (_ : Session C).core.linkPartner = _ from hnone] at hlink
        cases hlink
    · exact hσ
  | read poll =>
    rw [step]
    split
    · rename_i hreading
      have hphase : σ.phase ≠ .idle := by rw [hreading]; exact Phase.noConfusion
      have h := reads_spec (E := E) x poll hσ.following hσ.counters (hσ.unlinked hphase)
        (hσ.reading hreading)
      refine ⟨?_, ?_, fun _ ↦ ?_, fun hgoes ↦ ?_, fun hlink ↦ ?_, fun pending hrequest ↦ ?_⟩
      · rw [core_read]; exact h.following
      · rw [core_read]; exact h.counters
      · rw [core_read]; exact h.link
      · rw [core_read]
        refine h.pending ?_
        rw [phase_read] at hgoes
        by_contra hstops
        rw [if_neg hstops] at hgoes
        cases hgoes
      · rw [core_read, h.link] at hlink
        cases hlink
      · rw [core_read] at hrequest
        exact hσ.sinks pending (h.sinks pending hrequest)
    · exact hσ
  | emulate env => exact shape_emulate x env hσ
  | startRecording recording => exact shape_startRecording x recording hσ hsinks
  | stopRecording =>
    rw [step]
    split
    · rename_i hidle
      refine ⟨?_, ?_, fun h ↦ ?_, fun h ↦ ?_, ?_, ?_⟩
      all_goals try rw [core_become, stopRecordingReplay_eq hσ.following.1]
      · exact hσ.following
      · exact hσ.counters
      · rw [phase_become] at h; exact hσ.unlinked h
      · rw [phase_become] at h; exact hσ.reading h
      · exact hσ.linked
      · exact hσ.sinks
    · exact hσ
  | beginLink settings =>
    rw [step]
    split
    · rename_i hidle
      rcases beginLinkPartner_cases (E := E) settings σ.core with ⟨e, h⟩ | ⟨core, partner, h⟩
      · rw [h]; exact hσ
      · rw [h]
        exact ⟨hσ.following, hσ.counters, fun hphase ↦ absurd hidle hphase,
          fun hreading ↦ rfl, fun _ ↦ rfl, hσ.sinks⟩
    · exact hσ
  | partnerTurn arrived inboxEnded hashesMatch other env =>
    rw [step]
    split
    · rename_i hidle
      obtain ⟨calls, hwrote, hcounters, hpending⟩ := partnerTurn_spec (E := E) arrived inboxEnded
        hashesMatch other env hσ.following
      have hphase := (phase_partnerTurn (E := E) arrived inboxEnded hashesMatch other env σ).trans
        hidle
      refine hσ.of_wrote hwrote (hcounters ▸ hσ.counters) (fun h ↦ absurd hphase h)
        (fun h ↦ ?_) fun hlink ↦ ?_
      · rw [hphase] at h
        cases h
      · rw [core_partnerTurn, hwrote.link] at hlink
        exact hpending (hσ.linked hlink)
    · exact hσ
  | localTurn other =>
    rw [step]
    split
    · obtain ⟨core, hcore⟩ := localTurn_eq E other σ.core
      rw [hcore]
      exact ⟨hσ.following, hσ.counters, hσ.unlinked, hσ.reading, hσ.linked, hσ.sinks⟩
    · exact hσ
  | endLink =>
    rw [step]
    split
    · exact ⟨hσ.following, hσ.counters, fun _ ↦ rfl, fun _ ↦ rfl, fun _ ↦ rfl, hσ.sinks⟩
    · exact hσ

/-! ## Whole frames -/

theorem WholeFrames.of_same {σ' : Session C} (hσ : σ.WholeFrames E) (hphase : σ'.phase = σ.phase)
    (hlink : σ'.core.linkPartner = none → σ.core.linkPartner = none)
    (hcore : σ'.core.core = σ.core.core) (hheld : Held σ.core → Held σ'.core) :
    σ'.WholeFrames E where
  idle hidle hnone hmid := hheld (hσ.idle (hphase ▸ hidle) (hlink hnone) (hcore ▸ hmid))
  running hrunning := hheld (hσ.running (hphase ▸ hrunning))

theorem wholeFrames_beginRun (x : Externals) (hσ : σ.WholeFrames E) (hshape : σ.Shape) :
    (σ.step E x .beginRun).WholeFrames E := by
  rw [step]
  split
  · rename_i h
    have hnone := Option.isNone_iff_eq_none.mp h.2
    cases hreads : σ.core.readsReplay E with
    | true => exact ⟨fun hidle ↦ (by cases hidle), fun hrunning ↦ (by cases hrunning)⟩
    | false =>
      refine ⟨fun hidle ↦ (by cases hidle), fun _ ↦ ?_⟩
      rw [readsReplay, hshape.following.2] at hreads
      cases hstalled : σ.core.replayStalled with
      | true => exact .inr (.inr hstalled)
      | false =>
        cases hpending : σ.core.replayFramePending with
        | true => exact .inl hpending
        | false =>
          refine hσ.idle h.1 hnone ?_
          rw [hstalled, hpending] at hreads
          simpa using hreads
  · exact hσ

theorem wholeFrames_read (x : Externals) (poll : LivePoll) (hshape : σ.Shape)
    (hreading : σ.phase = .reading) : (σ.read E x poll).WholeFrames E := by
  have h := reads_spec (E := E) x poll hshape.following hshape.counters
    (hshape.unlinked (by rw [hreading]; exact Phase.noConfusion)) (hshape.reading hreading)
  refine ⟨fun hidle ↦ ?_, fun hrunning ↦ ?_⟩
  · rw [phase_read] at hidle
    split at hidle <;> cases hidle
  · rw [core_read]
    refine h.held ?_
    rw [phase_read] at hrunning
    split at hrunning
    · cases hrunning
    · rename_i hstops
      simpa using hstops

theorem wholeFrames_emulate (x : Externals) (env : Surroundings) (hσ : σ.WholeFrames E)
    (hshape : σ.Shape) : (σ.step E x (.emulate env)).WholeFrames E := by
  rw [step]
  split
  swap
  · exact hσ
  rename_i hrunning
  refine ⟨fun _ _ hmid ↦ ?_, fun h ↦ (by cases h)⟩
  rcases emulate_cases (E := E) env hshape.following with ⟨hheld, h⟩ | ⟨hruns, calls, h⟩
  · rw [core_emulate, h]
    exact .inr hheld.symm
  · have hpending : σ.core.replayFramePending = true :=
      (hσ.running hrunning).resolve_right fun hidle ↦ hruns hidle.symm
    have hafter := h.pending
    rcases frames_cases (E.frames_le σ.core.core) with hframes | hframes
    · rw [hframes, if_pos rfl] at hafter
      exact .inl (hafter.trans hpending)
    · have hboundary : E.isMidFrame (E.runUnlocked σ.core.core).2 = false :=
        E.isMidFrame_runUnlocked _ (by rw [hframes]; decide)
      rw [core_emulate, h.midFrame] at hmid
      exact absurd (hboundary.symm.trans hmid) Bool.false_ne_true

/-- Frames that are whole stay so. -/
theorem wholeFrames_step (x : Externals) {event : SessionEvent C} (hσ : σ.WholeFrames E)
    (hwhole : event.Whole E σ) (hshape : σ.Shape) : (σ.step E x event).WholeFrames E := by
  obtain ⟨follower, hfollower⟩ := Option.isSome_iff_exists.mp hshape.following.1
  cases event with
  | beginRun => exact wholeFrames_beginRun x hσ hshape
  | read poll =>
    rw [step]
    split
    · exact wholeFrames_read x poll hshape ‹_›
    · exact hσ
  | emulate env => exact wholeFrames_emulate x env hσ hshape
  | startRecording recording =>
    rw [step]
    split
    · obtain ⟨pending, -, -, h | ⟨-, h | ⟨recorder, -, h⟩⟩⟩ :=
        startRecordingFollowerReplay_cases (E := E) x recording hfollower
      all_goals
        rw [h]
        refine hσ.of_same (phase_become _ _) ?_ ?_ ?_
        all_goals rw [core_become]
        · exact id
        · rfl
        · exact id
    · exact hσ
  | stopRecording =>
    rw [step]
    split
    · refine hσ.of_same (phase_become _ _) ?_ ?_ ?_
      all_goals rw [core_become, stopRecordingReplay_eq hshape.following.1]
      · exact id
      · exact id
    · exact hσ
  | beginLink settings =>
    rw [step]
    split
    · rename_i hidle
      rcases beginLinkPartner_cases (E := E) settings σ.core with ⟨e, h⟩ | ⟨core, partner, h⟩
      · rw [h]; exact hσ
      · rw [h]
        exact ⟨fun _ hnone ↦ (by cases hnone), fun hrunning ↦ (by rw [hidle] at hrunning; cases hrunning)⟩
    · exact hσ
  | partnerTurn arrived inboxEnded hashesMatch other env =>
    rw [step]
    split
    · rename_i hidle
      have hphase := (phase_partnerTurn (E := E) arrived inboxEnded hashesMatch other env σ).trans
        hidle
      refine ⟨fun _ hnone hmid ↦ ?_, fun hrunning ↦ (by rw [hphase] at hrunning; cases hrunning)⟩
      obtain ⟨calls, hwrote, -, -⟩ := partnerTurn_spec (E := E) arrived inboxEnded hashesMatch other
        env hshape.following
      have hunlinked : σ.core.linkPartner = none := by
        have hlink := hwrote.link
        rw [core_partnerTurn] at hnone
        rw [hnone] at hlink
        simpa using hlink.symm
      have hsame : σ.core.partnerTurn E arrived inboxEnded hashesMatch other env = σ.core := by
        rw [SuperShuckieCore.partnerTurn, hunlinked]
      rw [core_partnerTurn, hsame] at hmid ⊢
      exact hσ.idle hidle hunlinked hmid
    · exact hσ
  | localTurn other =>
    rw [step]
    split
    · rename_i hidle
      refine ⟨fun _ hnone hmid ↦ ?_, fun hrunning ↦ (by rw [hidle] at hrunning; cases hrunning)⟩
      cases hlink : σ.core.linkPartner with
      | none =>
        have hsame : σ.core.localTurn E other = σ.core := by rw [localTurn, hlink]
        rw [hsame] at hmid ⊢
        exact hσ.idle hidle hlink hmid
      | some partner =>
        obtain ⟨core, hcore⟩ := localTurn_eq E other σ.core
        rw [hcore] at hnone
        cases hlink.symm.trans hnone
    · exact hσ
  | endLink =>
    rw [step]
    split
    · rename_i h
      refine ⟨fun _ _ hmid ↦ ?_, fun hrunning ↦ (by rw [h.1] at hrunning; cases hrunning)⟩
      exact absurd ((show E.isMidFrame (σ.core.endLinkPartner E).core = false from hwhole).symm.trans
        hmid) Bool.false_ne_true
    · exact hσ

/-! ## The file after a step -/

theorem become_of_start {core : SuperShuckieCore C} {file : FileRecorder}
    (hrecording : σ.recording = false) (hfile : core.replayFileRecorder = some file) :
    σ.become core =
      { σ with
        core
        start := core.replayCounters.getD OrdMap.empty
        completed := []
        current := laterTraffic σ.current } := by
  rw [become, if_pos ⟨hrecording, by rw [hfile]; rfl⟩]

/-- The time of a file starts at zero. -/
theorem recordingMillis_fileStarted (follower : FollowerState) (pending : PendingFollowerRecording)
    (recorder : Recorder) (s : SuperShuckieCore C) :
    (s.fileStarted follower pending recorder).recordingMillis = 0 :=
  UInt64.sub_self s.totalMilliseconds

/-- A file that is started on sinks that work has an able recorder. -/
theorem able_of_sinks {x : Externals} {metadata : ReplayFileMetadata} {patchData : ByteVec}
    {settings : RecorderSettings} {input : InputBuffer} {speed : Speed} {state : ByteVec}
    {finalFile tempFile : Sink} {recorder : Recorder}
    (hsinks : finalFile.script = [] ∧ tempFile.script = [])
    (hnew : Recorder.newWithMetadata x metadata patchData settings 0 input speed state finalFile
      tempFile = .ok recorder ()) (hx : x.Total) : Recorder.Able 0 OrdMap.empty recorder := by
  obtain ⟨finalBytes, finalScript⟩ := finalFile
  obtain ⟨tempBytes, tempScript⟩ := tempFile
  obtain ⟨rfl, rfl⟩ := hsinks
  exact Recorder.able_newWithMetadata hx hnew

theorem started_read (x : Externals) {poll : LivePoll} (hσ : σ.Shape)
    (hreading : σ.phase = .reading) (hrecording : σ.recording = false) :
    (σ.read E x poll).core.replayFileRecorder = none ∨
      Started (E := E) x (.read poll) σ (σ.read E x poll) := by
  have hnone : σ.core.replayFileRecorder = none := by
    rw [recording] at hrecording
    simpa using hrecording
  rw [core_read]
  cases poll with
  | waiting => exact .inl hnone
  | ended => exact .inl hnone
  | item item =>
    cases item with
    | syncHash frame hash => exact .inl hnone
    | packet packet =>
      by_cases hpacket : ∃ metadata state, packet = .keyframe metadata state
      · obtain ⟨metadata, state, rfl⟩ := hpacket
        obtain ⟨follower, hfollower⟩ := Option.isSome_iff_exists.mp hσ.following.1
        rcases readLive_keyframe_cases (E := E) x metadata state hfollower with ⟨e, core, h⟩ |
          ⟨core, hload, ⟨hfile, -⟩ | ⟨-, errors, h⟩ | ⟨-, pending, recorder, hrequest, hnew, h⟩⟩
        · rw [h]
          exact .inl hnone
        · rw [hnone] at hfile
          cases hfile
        · obtain ⟨origin, hmoved⟩ := moveToSnapshot_eq (E := E) core metadata σ.core
          rw [h, hmoved]
          exact .inl hnone
        · obtain ⟨origin, hmoved⟩ := moveToSnapshot_eq (E := E) core metadata σ.core
          have hcore := core_read (E := E) x (.item (.packet (.keyframe metadata state))) σ
          rw [h, hmoved] at hcore
          have hbecome := become_of_start
            (σ := σ.give (itemMarks E (.packet (.keyframe metadata state)) σ.core.core))
            hrecording (show (σ.core.readLive E x
              (.item (.packet (.keyframe metadata state)))).2.replayFileRecorder =
                some ⟨recorder, []⟩ by rw [h, hmoved]; rfl)
          have hread : σ.read E x (.item (.packet (.keyframe metadata state))) =
              { (σ.give (itemMarks E (.packet (.keyframe metadata state)) σ.core.core)).become
                  (σ.core.readLive E x (.item (.packet (.keyframe metadata state)))).2 with
                phase := if (σ.core.readLive E x (.item (.packet (.keyframe metadata state)))).1
                  then .reading else .running } := rfl
          refine .inr ⟨wholeFrames_read x _ hσ hreading, ⟨recorder, ?_, fun hx ↦ ?_⟩, ?_, ?_, ?_, ?_,
            ?_⟩
          · rw [hcore]
            rfl
          · refine able_of_sinks (hσ.sinks pending ?_) hnew hx
            rw [hfollower, Option.map_some, hrequest]
          · rw [hcore]
            exact recordingMillis_fileStarted (follower.noteSnapshot metadata) pending recorder _
          · rw [hread, hbecome]
          · rw [hcore]
            exact fun _ ↦ rfl
          · rw [hread, hbecome]
          · rw [hread, hbecome]
            -- the snapshot has replaced whatever was read before it
            intro _
            show laterTraffic (σ.current ++ snapshotMarks E metadata state σ.core.core) = []
            rw [snapshotMarks, hload, laterTraffic, List.foldl_append]
            rfl
      · obtain ⟨calls, wrote, silent, -, -, hwrote, -, -, -⟩ :=
          applyPlaybackPacket_spec (E := E) packet hσ.following
        refine .inl ?_
        rw [readLive_packet x σ.core fun metadata state h ↦ hpacket ⟨metadata, state, h⟩]
        have hfile : (σ.core.applyPlaybackPacket E packet none).replayFileRecorder = none := by
          rw [hwrote.file, hnone]
          rfl
        dsimp only
        split
        · exact hfile
        · exact hfile

theorem started_startRecording (x : Externals) (recording : PendingFollowerRecording) (hσ : σ.Shape)
    (hidle : σ.phase = .idle)
    (hsinks : (SessionEvent.startRecording recording : SessionEvent C).SinksWork) :
    (σ.step E x (.startRecording recording)).core.replayFileRecorder = none ∨
      Started (E := E) x (.startRecording recording) σ (σ.step E x (.startRecording recording)) := by
  obtain ⟨follower, hfollower⟩ := Option.isSome_iff_exists.mp hσ.following.1
  rw [step, if_pos hidle, core_become]
  obtain ⟨pending, hfinal, htemp, h | ⟨hatonce, h | ⟨recorder, hnew, h⟩⟩⟩ :=
    startRecordingFollowerReplay_cases (E := E) x recording hfollower
  · rw [h]
    exact .inl rfl
  · rw [h]
    exact .inl rfl
  · have hstopped : ({ σ with core := σ.core.stopRecordingReplay } : Session C).recording =
        false := by
      show σ.core.stopRecordingReplay.replayFileRecorder.isSome = false
      rw [stopRecordingReplay_eq hσ.following.1]
      rfl
    rw [h, become_of_start hstopped (show _ = some ⟨recorder, []⟩ from rfl)]
    have hboundary : E.isMidFrame σ.core.core = false := by
      rw [SessionEvent.startsAtOnce, Bool.and_eq_true] at hatonce
      simpa using hatonce.2
    refine .inr ⟨⟨fun _ _ hmid ↦ ?_, fun hrunning ↦ ?_⟩, ⟨recorder, rfl, fun hx ↦ ?_⟩,
      recordingMillis_fileStarted _ _ _ _, rfl, fun hwhole ↦ hwhole (.inr ⟨_, rfl⟩) hatonce,
      rfl, fun htime ↦ htime (.inr ⟨_, rfl⟩) hatonce⟩
    · exact absurd (hboundary.symm.trans hmid) Bool.false_ne_true
    · rw [hidle] at hrunning
      cases hrunning
    · exact able_of_sinks (by rw [hfinal, htemp]; exact hsinks) hnew hx

/-- **After a step** there is no file, or the step has started it, or it has added calls to it. -/
theorem file_step (x : Externals) (event : SessionEvent C) (hσ : σ.Shape)
    (hsinks : event.SinksWork) : (σ.step E x event).core.replayFileRecorder = none ∨
      Started (E := E) x event σ (σ.step E x event) ∨
      (σ.recording = true ∧ ∃ calls, Advances E event σ (σ.step E x event) calls) := by
  -- without a file, the steps that do not start one leave it so
  have hwithout : σ.recording = false → σ.core.replayFileRecorder = none := by
    intro hrecording
    rw [recording] at hrecording
    simpa using hrecording
  have hfile : ∀ {calls}, Advances E event σ (σ.step E x event) calls →
      (σ.step E x event).core.replayFileRecorder = none ∨
        Started (E := E) x event σ (σ.step E x event) ∨
        (σ.recording = true ∧ ∃ calls, Advances E event σ (σ.step E x event) calls) := by
    intro calls h
    cases hrecording : σ.recording with
    | true => exact .inr (.inr ⟨rfl, calls, h⟩)
    | false => exact .inl (by rw [h.file, hwithout hrecording]; rfl)
  cases event with
  | beginRun => exact hfile (advances_beginRun x)
  | read poll =>
    cases hrecording : σ.recording with
    | true => exact .inr (.inr ⟨rfl, advances_read x poll hσ hrecording⟩)
    | false =>
      by_cases hreading : σ.phase = .reading
      · rw [step, if_pos hreading]
        exact (started_read x hσ hreading hrecording).imp_right .inl
      · rw [step, if_neg hreading]
        exact .inl (hwithout hrecording)
  | emulate env =>
    obtain ⟨calls, h⟩ := advances_emulate (E := E) x env hσ
    exact hfile h
  | startRecording recording =>
    by_cases hidle : σ.phase = .idle
    · exact (started_startRecording x recording hσ hidle hsinks).imp_right .inl
    · have hsame : σ.step E x (.startRecording recording) = σ := by rw [step, if_neg hidle]
      exact hfile (by rw [hsame]; exact .refl σ)
  | stopRecording =>
    by_cases hidle : σ.phase = .idle
    · rw [step, if_pos hidle, core_become, stopRecordingReplay_eq hσ.following.1]
      exact .inl rfl
    · have hsame : σ.step E x .stopRecording = σ := by rw [step, if_neg hidle]
      exact hfile (by rw [hsame]; exact .refl σ)
  | beginLink settings => exact hfile (advances_beginLink x settings)
  | partnerTurn arrived inboxEnded hashesMatch other env =>
    obtain ⟨calls, h⟩ := advances_partnerTurn (E := E) x arrived inboxEnded hashesMatch other env hσ
    exact hfile h
  | localTurn other => exact hfile (advances_localTurn x other)
  | endLink => exact hfile (advances_endLink x hσ)

end Session

end Live
end SuperShuckie
