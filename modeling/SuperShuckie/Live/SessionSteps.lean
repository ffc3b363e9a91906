import SuperShuckie.Live.Applied

/-!
# The steps of a session

A step of a session starts a file, closes it, or adds calls to it (`Advances`).  What is known of
the calls depends on what the step is: each of the four properties of a file below has a condition
on the steps under which it is kept.

* The clock of the file fits in the lower half of the times (`Fits`).
* A snapshot accounts for the counters before it (`Covered`).
* Frames are read, or linked, from their beginning to their end (`Whole`).
* Link traffic arrives during linked frames (`InTime`).
-/

set_option autoImplicit false

namespace SuperShuckie
namespace Live

open ByteFormat SuperShuckieCore

variable {C : Type} (E : EmulatorCore C)

/-! ## Conditions on the steps -/

namespace SessionEvent

/-- A frame marker that is read, or a link frame, leaves the clock of the file in the lower half of
the times. -/
def Fits (event : SessionEvent C) (σ : Session C) : Prop :=
  match event with
  | .read (.item (.packet (.nextFrame delta))) =>
    σ.core.recordingMillis.toNat + delta.toNat < 2 ^ 63
  | .partnerTurn (some frame) _ _ _ _ =>
    σ.core.recordingMillis.toNat +
      (frame.elapsedMillis.toNat - σ.core.totalMilliseconds.toNat) < 2 ^ 63
  | _ => True

/-- A snapshot that loads accounts for the counters before it. -/
def Covered (event : SessionEvent C) (σ : Session C) : Prop :=
  match event with
  | .read (.item (.packet (.keyframe metadata state))) =>
    (E.loadSaveState state σ.core.core).1.isOk = true →
      Covers (σ.core.replayCounters.getD OrdMap.empty) metadata
  | _ => True

/-- A request for a file starts it at once. -/
def startsAtOnce (σ : Session C) : Bool :=
  (σ.core.follower.any fun f ↦ decide (0 < f.snapshotsApplied)) && !E.isMidFrame σ.core.core

/-- The file is not started, and the cable not plugged in, while a frame that has been read waits to
run; and no frame is in progress once the cable has been pulled out. -/
def Whole (event : SessionEvent C) (σ : Session C) : Prop :=
  match event with
  | .startRecording _ => startsAtOnce E σ = true → σ.core.replayFramePending = false
  | .beginLink settings =>
    (σ.core.beginLinkPartner E settings).1.isOk = true → σ.core.replayFramePending = false
  | .endLink => E.isMidFrame (σ.core.endLinkPartner E).core = false
  | _ => True

/-- Link traffic of a frame to come has not been read when the file is started; and nothing comes in
over the cable during a frame that was read. -/
def InTime (event : SessionEvent C) (σ : Session C) : Prop :=
  match event with
  | .startRecording _ => startsAtOnce E σ = true → laterTraffic σ.current = []
  | .emulate _ =>
    (E.runUnlocked σ.core.core).1.frames ≠ 0 → serialMarks E (E.runUnlocked σ.core.core).2 = []
  | _ => True

/-- A step that bears on a file: one is being written, or asked for. -/
def BearsOnFile (event : SessionEvent C) (σ : Session C) : Prop :=
  σ.recording = true ∨ ∃ recording, event = .startRecording recording

/-- The sinks given for a file never fail. -/
def SinksWork : SessionEvent C → Prop
  | .startRecording recording => recording.finalFile.script = [] ∧ recording.tempFile.script = []
  | _ => True

end SessionEvent

/-! ## What is kept -/

/-- A core that has something to run, or nothing at all, but not half a frame. -/
def Held (s : SuperShuckieCore C) : Prop :=
  s.replayFramePending = true ∨ s.replayWaiting = true ∨ s.replayStalled = true

namespace Session

/-- What holds at any point of a session, whatever its steps are. -/
structure Shape (σ : Session C) : Prop where
  following : σ.core.Following
  counters : σ.core.replayCounters.isSome = true
  unlinked : σ.phase ≠ .idle → σ.core.linkPartner = none
  reading : σ.phase = .reading → σ.core.replayFramePending = false
  linked : σ.core.linkPartner.isSome = true → σ.core.replayFramePending = false
  sinks : ∀ pending, σ.core.follower.map FollowerState.pendingRecording = some (some pending) →
    pending.finalFile.script = [] ∧ pending.tempFile.script = []

/-- Half a frame is never run: a frame in progress was read, or is linked. -/
structure WholeFrames (σ : Session C) : Prop where
  idle : σ.phase = .idle → σ.core.linkPartner = none → E.isMidFrame σ.core.core = true → Held σ.core
  running : σ.phase = .running → Held σ.core

/-- The frames of the file, as it should have them: those that were completed, and the one that has
been read. -/
def expectedFrames (σ : Session C) : Nat :=
  σ.completed.length + σ.core.replayFramePending.toNat

/-- What the file should give to the console. -/
def expectedMarks (σ : Session C) : List Mark :=
  (σ.completed.flatMap fun given ↦ given ++ [.frame]) ++ σ.current ++
    if σ.core.replayFramePending then [.frame] else []

/-- The publisher's value of a counter. -/
def publisherValue (σ : Session C) (name : String) : SignedInteger :=
  counterValue (σ.core.replayCounters.getD OrdMap.empty) name

/-- A step that adds calls to the file. -/
structure Advances (event : SessionEvent C) (σ σ' : Session C) (calls : List Call) : Prop where
  file : σ'.core.replayFileRecorder =
    σ.core.replayFileRecorder.map fun file ↦ { file with calls := file.calls ++ calls }
  start : σ'.start = σ.start
  clock : event.Fits σ → σ.core.recordingMillis.toNat < 2 ^ 63 →
    σ.core.recordingMillis ≤ σ'.core.recordingMillis ∧ σ'.core.recordingMillis.toNat < 2 ^ 63
  times : ∀ call ∈ calls, call.time? = none ∨ call.time? = some σ'.core.recordingMillis
  counters : event.Covered E σ → ∀ name,
    σ'.publisherValue name = σ.publisherValue name + added name calls
  keyframes : ∀ name before keyframe after, calls = before ++ keyframe :: after →
    keyframe.isKeyframe = true → added name after = 0
  frames : event.Whole E σ → σ.WholeFrames E →
    σ.expectedFrames + framesEnded calls = σ'.expectedFrames
  marks : event.Whole E σ → event.InTime E σ → σ.WholeFrames E →
    σ.expectedMarks ++ callMarks calls = σ'.expectedMarks

/-- A step that starts a file. -/
structure Started (x : Externals) (event : SessionEvent C) (σ σ' : Session C) : Prop where
  whole : σ'.WholeFrames E
  file : ∃ recorder, σ'.core.replayFileRecorder = some ⟨recorder, []⟩ ∧
    (x.Total → Recorder.Able 0 OrdMap.empty recorder)
  clock : σ'.core.recordingMillis = 0
  start : σ'.start = σ'.core.replayCounters.getD OrdMap.empty
  frames : (event.BearsOnFile σ → event.Whole E σ) → σ'.core.replayFramePending = false
  completed : σ'.completed = []
  current : (event.BearsOnFile σ → event.InTime E σ) → σ'.current = []

/-! ## Steps that add to the file -/

variable {E}

variable {σ : Session C} {event : SessionEvent C} {s s' : SuperShuckieCore C} {packet : Packet}

theorem become_of_recording (h : σ.recording = true) (core : SuperShuckieCore C) :
    σ.become core = { σ with core } := by
  rw [become, if_neg fun hstart ↦ by rw [h] at hstart; cases hstart.1]

/-- A step after which everything that a file depends on is as before. -/
theorem Advances.of_same {σ' : Session C}
    (hfile : σ'.core.replayFileRecorder = σ.core.replayFileRecorder) (hstart : σ'.start = σ.start)
    (hmillis : σ'.core.recordingMillis = σ.core.recordingMillis)
    (hcounters : σ'.core.replayCounters = σ.core.replayCounters)
    (hpending : event.Whole E σ → σ'.core.replayFramePending = σ.core.replayFramePending)
    (hcompleted : σ'.completed = σ.completed) (hcurrent : σ'.current = σ.current) :
    Advances E event σ σ' [] where
  file := by rw [hfile, append_calls_nil]
  start := hstart
  clock _ hclock := by
    rw [hmillis]
    exact ⟨UInt64.le_refl _, hclock⟩
  times := fun call hmem ↦ (by cases hmem)
  counters _ name := by
    rw [publisherValue, publisherValue, hcounters]
    exact (Int64.add_zero _).symm
  keyframes name before keyframe after heq := by simp at heq
  frames hwhole _ := by
    rw [expectedFrames, expectedFrames, hcompleted, hpending hwhole]
    rfl
  marks hwhole _ _ := by
    rw [expectedMarks, expectedMarks, hcompleted, hcurrent, hpending hwhole]
    exact List.append_nil _

theorem Advances.refl (σ : Session C) : Advances E event σ σ [] :=
  .of_same rfl rfl rfl rfl (fun _ ↦ rfl) rfl rfl

theorem advances_beginRun (x : Externals) : Advances E .beginRun σ (σ.step E x .beginRun) [] := by
  rw [step]
  split
  · exact .of_same rfl rfl rfl rfl (fun _ ↦ rfl) rfl rfl
  · exact .refl σ

theorem localTurn_eq (E : EmulatorCore C) (other : C) (s : SuperShuckieCore C) :
    ∃ core, s.localTurn E other = { s with core } := by
  rw [localTurn]
  split
  · exact ⟨_, rfl⟩
  · exact ⟨s.core, rfl⟩

theorem advances_localTurn (x : Externals) (other : C) :
    Advances E (.localTurn other) σ (σ.step E x (.localTurn other)) [] := by
  rw [step]
  split
  · obtain ⟨core, hcore⟩ := localTurn_eq E other σ.core
    rw [hcore]
    exact .of_same rfl rfl rfl rfl (fun _ ↦ rfl) rfl rfl
  · exact .refl σ

theorem advances_endLink (x : Externals) (hσ : σ.Shape) :
    Advances E .endLink σ (σ.step E x .endLink) [] := by
  rw [step]
  split
  · rename_i h
    exact .of_same rfl rfl rfl rfl (fun _ ↦ (hσ.linked h.2).symm) rfl rfl
  · exact .refl σ

/-- Plugging in either fails, and nothing changes, or succeeds at a frame boundary. -/
theorem beginLinkPartner_cases (settings : LinkSettings) (s : SuperShuckieCore C) :
    (∃ e, s.beginLinkPartner E settings = (.error e, s)) ∨
      ∃ core partner, s.beginLinkPartner E settings = (.ok (), { s with
        core
        linkPartner := some partner
        replayWaiting := false
        replayStalled := false
        replayFramePending := false }) := by
  rw [beginLinkPartner]
  split
  · exact .inl ⟨_, rfl⟩
  · split
    · exact .inl ⟨_, rfl⟩
    · split
      · exact .inl ⟨_, rfl⟩
      · split
        · exact .inl ⟨_, rfl⟩
        · split
          · exact .inl ⟨_, rfl⟩
          · split
            · exact .inl ⟨_, rfl⟩
            · exact .inr ⟨_, _, rfl⟩

theorem advances_beginLink (x : Externals) (settings : LinkSettings) :
    Advances E (.beginLink settings) σ (σ.step E x (.beginLink settings)) [] := by
  rw [step]
  split
  · rcases beginLinkPartner_cases (E := E) settings σ.core with ⟨e, h⟩ | ⟨core, partner, h⟩
    · rw [h]
      exact .of_same rfl rfl rfl rfl (fun _ ↦ rfl) rfl rfl
    · rw [h]
      refine .of_same rfl rfl rfl rfl (fun hwhole ↦ ?_) rfl rfl
      exact (hwhole (by rw [h]; rfl)).symm
  · exact .refl σ

/-! ### Running the console -/

theorem frames_cases {frames : UInt64} (h : frames ≤ 1) : frames = 0 ∨ frames = 1 := by
  rw [UInt64.le_iff_toNat_le] at h
  have hone : (1 : UInt64).toNat = 1 := rfl
  rcases Nat.le_one_iff_eq_zero_or_eq_one.mp (hone ▸ h) with h | h
  · exact .inl (UInt64.toNat_inj.mp h)
  · exact .inr (UInt64.toNat_inj.mp h)

/-- The core after its console has run, and what that adds to the file. -/
structure AfterRun (E : EmulatorCore C) (frames : UInt64) (s s' : SuperShuckieCore C)
    (calls : List Call) : Prop extends Wrote s s' calls where
  millis : s'.recordingMillis = s.recordingMillis
  counters : s'.replayCounters = s.replayCounters
  pending : s'.replayFramePending = if frames = 0 then s.replayFramePending else false
  midFrame : E.isMidFrame s'.core = E.isMidFrame s.core
  steady : Steady s.recordingMillis calls
  framesEnded : framesEnded calls = if s.linkPartner.isSome then frames.toNat else 0
  marks : callMarks calls =
    if frames = 0 then []
    else serialMarks E s.core ++ if s.linkPartner.isSome then [.frame] else []

theorem wrote_frameDone (frames : UInt64) (s : SuperShuckieCore C) :
    Wrote s (s.frameDone frames) [] := by
  rw [frameDone]
  split
  · exact wrote_nil rfl rfl rfl rfl rfl rfl Option.isSome_map
  · exact .refl s

theorem afterRun_spec {time : RunTime} (env : Surroundings) (hs : s.Following)
    (hone : time.frames ≤ 1) :
    ∃ calls, AfterRun E time.frames s (s.afterRun E time env) calls := by
  obtain ⟨silent, hran, hsilent⟩ := ran_afterRun (E := E) time env hs
  have hzero : ¬ (0 : UInt64) < 0 := by decide
  refine ⟨frameCalls E time.frames s ++ silent, (wrote_frameDone time.frames s).trans hran.toWrote,
    hran.recordingMillis.trans (recordingMillis_frameDone _ _), ?_, ?_, ?_,
    (steady_frameCalls _ _).append hsilent.1, ?_, ?_⟩
  · rw [hran.counters, frameDone]
    split <;> rfl
  · rw [hran.pending, frameDone]
    rcases frames_cases hone with h | h
    · rw [h, if_neg hzero, if_pos rfl]
    · rw [h, if_pos (by decide), if_neg (by decide)]
      rfl
  · rw [hran.midFrame, frameDone]
    split <;> rfl
  · rw [framesEnded_append, hsilent.2.1, framesEnded_frameCalls]
    rfl
  · rw [callMarks_append, hsilent.2.2, List.append_nil]
    rcases frames_cases hone with h | h
    · rw [h, if_pos rfl, frameCalls, if_neg hzero]
      rfl
    · rw [h, if_neg (by decide), callMarks_frameCalls rfl]

theorem added_of_steady {now : TimestampMillis} {calls before after : List Call} {keyframe : Call}
    (h : Steady now calls) (heq : calls = before ++ keyframe :: after) (name : String) :
    added name after = 0 :=
  have hafter : Steady now after := fun call hmem ↦ h call (by
    rw [heq]
    exact List.mem_append_right _ (List.mem_cons_of_mem _ hmem))
  hafter.added name

theorem emulate_eq (env : Surroundings) (s : SuperShuckieCore C) : s.emulate E env =
      if s.replayStalled ∨ s.replayWaiting then s
      else afterRun E (E.runUnlocked s.core).1 env { s with core := (E.runUnlocked s.core).2 } :=
  rfl

theorem complete_zero (console : C) (σ : Session C) : σ.complete E 0 console = σ := by
  rw [complete, if_neg (by decide)]

theorem complete_one (console : C) (σ : Session C) : σ.complete E 1 console =
      { σ with
        completed := σ.completed ++ [σ.current ++ serialMarks E console]
        current := [] } := by
  rw [complete, if_pos (by decide)]

/-- Once a frame that was read has completed, the file has its marker already. -/
theorem expectedMarks_completed (hpending : σ.core.replayFramePending = true) :
    σ.expectedMarks = (σ.completed ++ [σ.current]).flatMap fun given ↦ given ++ [.frame] := by
  rw [expectedMarks, hpending, if_pos rfl, List.flatMap_append, List.flatMap_singleton,
    List.append_assoc]

theorem advances_emulate (x : Externals) (env : Surroundings) (hσ : σ.Shape) :
    ∃ calls, Advances E (.emulate env) σ (σ.step E x (.emulate env)) calls := by
  rw [step]
  split
  swap
  · exact ⟨[], .refl σ⟩
  rename_i hrunning
  rw [Session.emulate, emulate_eq]
  split
  · exact ⟨[], .of_same rfl rfl rfl rfl (fun _ ↦ rfl) rfl rfl⟩
  · rename_i hruns
    rcases hrun : E.runUnlocked σ.core.core with ⟨time, console⟩
    have hone : time.frames ≤ 1 := by
      have := E.frames_le σ.core.core
      rwa [hrun] at this
    have hlink : σ.core.linkPartner = none := hσ.unlinked (by rw [hrunning]; exact Phase.noConfusion)
    obtain ⟨calls, h⟩ := afterRun_spec (E := E) env
      (s := { σ.core with core := console }) hσ.following hone
    have hpending : σ.WholeFrames E → σ.core.replayFramePending = true := fun hwhole ↦
      (hwhole.running hrunning).resolve_right fun hidle ↦ hruns hidle.symm
    have hended : framesEnded calls = 0 := by
      rw [h.framesEnded, hlink]
      rfl
    have hexpected : ∀ σ' : Session C, σ'.core = afterRun E time env { σ.core with core := console } →
        σ'.start = σ.start →
        (σ.core.replayFramePending = true → σ.expectedFrames = σ'.expectedFrames) →
        ((SessionEvent.emulate env).InTime E σ → σ.core.replayFramePending = true →
          σ.expectedMarks ++ callMarks calls = σ'.expectedMarks) →
        Advances E (.emulate env) σ σ' calls := by
      intro σ' hcore hstart hframes hmarks
      constructor
      case file => rw [hcore, h.file]
      case start => exact hstart
      case clock =>
        intro _ hclock
        rw [hcore, h.millis]
        exact ⟨UInt64.le_refl _, hclock⟩
      case times =>
        intro call hmem
        rw [hcore, h.millis]
        exact (h.steady call hmem).2
      case counters =>
        intro _ name
        rw [publisherValue, hcore, h.counters, h.steady.added name]
        exact (Int64.add_zero _).symm
      case keyframes => exact fun name _ _ _ heq _ ↦ added_of_steady h.steady heq name
      case frames =>
        intro _ hwhole
        rw [hended]
        exact hframes (hpending hwhole)
      case marks => exact fun _ hintime hwhole ↦ hmarks hintime (hpending hwhole)
    have hpending' := h.pending
    have hmarks := h.marks
    rcases frames_cases hone with hframes | hframes
    · rw [hframes, if_pos rfl] at hpending' hmarks
      refine ⟨calls, hexpected _ rfl ?_ (fun _ ↦ ?_) fun _ _ ↦ ?_⟩
      all_goals dsimp only
      all_goals rw [hframes, complete_zero]
      · rw [expectedFrames, expectedFrames, hpending']
      · rw [hmarks, List.append_nil, expectedMarks, expectedMarks, hpending']
    · rw [hframes, if_neg (by decide)] at hpending' hmarks
      rw [hlink] at hmarks
      refine ⟨calls, hexpected _ rfl ?_ (fun hwaits ↦ ?_) fun hintime hwaits ↦ ?_⟩
      all_goals dsimp only
      all_goals rw [hframes, complete_one]
      · rw [expectedFrames, expectedFrames, hpending', hwaits]
        show σ.completed.length + 1 = (σ.completed ++ [σ.current ++ serialMarks E console]).length + 0
        rw [List.length_append]
        rfl
      · have hnothing : serialMarks E console = [] := by
          have := hintime (by rw [hrun, hframes]; decide)
          rwa [hrun] at this
        rw [hmarks, hnothing, expectedMarks_completed hwaits, expectedMarks, hpending']
        simp

/-! ### Reading -/

theorem readLive_packet (x : Externals) (s : SuperShuckieCore C)
    (hpacket : ∀ metadata state, packet ≠ .keyframe metadata state) :
    s.readLive E x (.item (.packet packet)) =
      (!endsFrame packet,
        if endsFrame packet then { s.applyPlaybackPacket E packet none with replayWaiting := false }
        else s.applyPlaybackPacket E packet none) := by
  cases packet with
  | keyframe metadata state => exact absurd rfl (hpacket metadata state)
  | _ => rfl

theorem itemMarks_packet (core : C)
    (hpacket : ∀ metadata state, packet ≠ .keyframe metadata state) :
    itemMarks E (.packet packet) core = packetMarks packet := by
  cases packet with
  | keyframe metadata state => exact absurd rfl (hpacket metadata state)
  | _ => rfl

/-- Reading an item while a file is being written. -/
theorem read_of_recording (x : Externals) (hrecording : σ.recording = true) (item : LiveItem) :
    σ.read E x (.item item) =
      { core := (σ.core.readLive E x (.item item)).2
        phase := if (σ.core.readLive E x (.item item)).1 then .reading else .running
        start := σ.start
        completed := σ.completed
        current := σ.current ++ itemMarks E item σ.core.core } := by
  rw [Session.read]
  dsimp only
  rw [become_of_recording (σ := σ.give (itemMarks E item σ.core.core)) hrecording]
  rfl

/-- The clock of the file after a packet. -/
theorem recordingMillis_packet (hevent : event = .read (.item (.packet packet)))
    (hmillis : s'.totalMilliseconds = packetMillis packet σ.core.totalMilliseconds)
    (horigin : s'.streamTimeOrigin = σ.core.streamTimeOrigin) (hfits : event.Fits σ)
    (hclock : σ.core.recordingMillis.toNat < 2 ^ 63) :
    σ.core.recordingMillis ≤ s'.recordingMillis ∧ s'.recordingMillis.toNat < 2 ^ 63 := by
  subst hevent
  cases packet with
  | nextFrame delta =>
    have hnow : s'.recordingMillis = σ.core.recordingMillis + delta := by
      rw [recordingMillis, recordingMillis, hmillis, horigin, packetMillis]
      grind
    have hfits' : σ.core.recordingMillis.toNat + delta.toNat < 2 ^ 63 := hfits
    have hsum : (σ.core.recordingMillis + delta).toNat =
        σ.core.recordingMillis.toNat + delta.toNat := by
      rw [UInt64.toNat_add]
      exact Nat.mod_eq_of_lt (by omega)
    rw [hnow, UInt64.le_iff_toNat_le, hsum]
    omega
  | _ =>
    have hnow : s'.recordingMillis = σ.core.recordingMillis := by
      rw [recordingMillis, recordingMillis, hmillis, horigin]
      rfl
    rw [hnow]
    exact ⟨UInt64.le_refl _, hclock⟩

theorem publisherValue_eq {c : OrdMap String SignedInteger} (h : σ.core.replayCounters = some c)
    (name : String) : σ.publisherValue name = counterValue c name := by
  rw [publisherValue, h]
  rfl

theorem advances_readPacket (x : Externals)
    (hpacket : ∀ metadata state, packet ≠ .keyframe metadata state) (hσ : σ.Shape)
    (hrecording : σ.recording = true) (hreading : σ.phase = .reading) :
    ∃ calls, Advances E (.read (.item (.packet packet))) σ
      (σ.read E x (.item (.packet packet))) calls := by
  obtain ⟨calls, wrote, silent, hcalls, hsilent, hwrote, hmillis, hcounters, hpending⟩ :=
    applyPlaybackPacket_spec (E := E) packet hσ.following
  rw [hσ.reading hreading] at hpending
  obtain ⟨waiting, hread⟩ : ∃ waiting, σ.read E x (.item (.packet packet)) =
      { core := { σ.core.applyPlaybackPacket E packet none with replayWaiting := waiting }
        phase := if endsFrame packet then .running else .reading
        start := σ.start
        completed := σ.completed
        current := σ.current ++ packetMarks packet } := by
    rw [read_of_recording x hrecording, readLive_packet x σ.core hpacket,
      itemMarks_packet σ.core.core hpacket]
    cases endsFrame packet with
    | true => exact ⟨false, rfl⟩
    | false => exact ⟨(σ.core.applyPlaybackPacket E packet none).replayWaiting, rfl⟩
  obtain ⟨counters, hbefore⟩ := Option.isSome_iff_exists.mp hσ.counters
  rw [hread]
  subst hcalls
  refine ⟨_, ⟨hwrote.file, rfl, recordingMillis_packet rfl hmillis hwrote.origin, ?_, ?_, ?_, ?_,
    ?_⟩⟩
  · intro call hmem
    rcases List.mem_append.mp hmem with hmem | hmem
    · exact ((hsilent.silent _).1 call hmem).2
    · exact (mem_mirrorCalls hmem).2
  · intro _ name
    have hafter : (σ.core.applyPlaybackPacket E packet none).replayCounters =
        some (packetCounters packet counters) := by rw [hcounters, hbefore]; rfl
    rw [publisherValue_eq hafter, publisherValue_eq hbefore, added_append, (hsilent.silent 0).1.added name,
      Int64.zero_add]
    exact added_mirrorCalls packet wrote _ name counters
  · intro name before keyframe after heq hkeyframe
    exfalso
    have hmem : keyframe ∈ before ++ keyframe :: after := List.mem_append_right _ (.head _)
    rw [← heq] at hmem
    rcases List.mem_append.mp hmem with hmem | hmem
    · rw [hsilent.isKeyframe hmem] at hkeyframe
      cases hkeyframe
    · rw [(mem_mirrorCalls hmem).1] at hkeyframe
      cases hkeyframe
  · intro _ _
    rw [framesEnded_append, (hsilent.silent 0).2.1, framesEnded_mirrorCalls, expectedFrames,
      expectedFrames, hpending, hσ.reading hreading, packetPending, Bool.or_false, Nat.zero_add]
    rfl
  · intro _ _ _
    rw [callMarks_append, (hsilent.silent 0).2.2, callMarks_mirrorCalls, expectedMarks,
      expectedMarks, hpending, hσ.reading hreading, packetPending, Bool.or_false]
    simp

theorem advances_readSnapshot (x : Externals) (metadata : KeyframeMetadata) (state : Bytes)
    (hσ : σ.Shape) (hrecording : σ.recording = true) (hreading : σ.phase = .reading) :
    ∃ calls, Advances E (.read (.item (.packet (.keyframe metadata state)))) σ
      (σ.read E x (.item (.packet (.keyframe metadata state)))) calls := by
  rw [read_of_recording x hrecording]
  rcases hload : E.loadSaveState state σ.core.core with ⟨result, core⟩
  cases result with
  | error e =>
    have hread : σ.core.readLive E x (.item (.packet (.keyframe metadata state))) =
        (!σ.core.replayStalled, { σ.core with core }.noteFailedLoad e) := by
      rw [readLive, applyStreamSnapshot, hload]
      rfl
    have hmarks : itemMarks E (.packet (.keyframe metadata state)) σ.core.core = [] := by
      rw [itemMarks, snapshotMarks, hload]
    rw [hread, hmarks]
    exact ⟨[], .of_same rfl rfl rfl rfl (fun _ ↦ rfl) rfl (List.append_nil _)⟩
  | ok _ =>
    obtain ⟨counters, hbefore⟩ := Option.isSome_iff_exists.mp hσ.counters
    have hmarks : itemMarks E (.packet (.keyframe metadata state)) σ.core.core =
        [.loadState state, .input metadata.input] := by
      rw [itemMarks, snapshotMarks, hload]
    have hclock := fun hclock ↦ recordingMillis_moveToSnapshot (E := E) core metadata (s := σ.core)
      hrecording hclock
    obtain ⟨origin, hmoved⟩ := moveToSnapshot_eq (E := E) core metadata σ.core
    have hread : σ.core.readLive E x (.item (.packet (.keyframe metadata state))) =
        (true, (σ.core.moveToSnapshot E core metadata).record
          (snapshotCalls counters metadata state
            (σ.core.moveToSnapshot E core metadata).recordingMillis)) := by
      rw [readLive, applyStreamSnapshot, hload]
      dsimp only
      rw [recordSnapshot, if_pos (by rw [hmoved]; exact hrecording), hbefore, hmoved]
      rfl
    rw [hread, hmarks]
    refine ⟨snapshotCalls counters metadata state
      (σ.core.moveToSnapshot E core metadata).recordingMillis, ?_⟩
    constructor
    case file => rw [hmoved]; rfl
    case start => rfl
    case clock => exact fun _ ↦ hclock
    case times => exact fun call hmem ↦ (mem_snapshotCalls hmem).2
    case counters =>
      intro hcovered name
      have hafter : ((σ.core.moveToSnapshot E core metadata).record
          (snapshotCalls counters metadata state
            (σ.core.moveToSnapshot E core metadata).recordingMillis)).replayCounters =
          some (snapshotCounters metadata) := by rw [hmoved]; rfl
      have hcovers : Covers counters metadata := by
        have := hcovered (by rw [hload]; rfl)
        rwa [hbefore] at this
      rw [publisherValue_eq hafter, publisherValue_eq hbefore]
      exact added_snapshotCalls name hcovers state _
    case keyframes =>
      intro name before keyframe after heq hkeyframe
      rw [keyframe_snapshotCalls heq hkeyframe]
      rfl
    case frames =>
      intro _ _
      rw [framesEnded_snapshotCalls, expectedFrames, expectedFrames, hσ.reading hreading, hmoved]
      rfl
    case marks =>
      intro _ _ _
      rw [callMarks_snapshotCalls, expectedMarks, expectedMarks, hσ.reading hreading, hmoved]
      simp [SuperShuckieCore.record]

/-- Reading while a file is being written adds to the file. -/
theorem advances_read (x : Externals) (poll : LivePoll) (hσ : σ.Shape)
    (hrecording : σ.recording = true) :
    ∃ calls, Advances E (.read poll) σ (σ.step E x (.read poll)) calls := by
  rw [step]
  split
  swap
  · exact ⟨[], .refl σ⟩
  rename_i hreading
  have hplain : ∀ core : SuperShuckieCore C, σ.become core = { σ with core } :=
    become_of_recording hrecording
  cases poll with
  | waiting =>
    have hread : σ.read E x .waiting = { σ.become { σ.core with replayWaiting := true } with
        phase := .running } := rfl
    rw [hread, hplain]
    exact ⟨[], .of_same rfl rfl rfl rfl (fun _ ↦ rfl) rfl rfl⟩
  | ended =>
    have hread : σ.read E x .ended = { σ.become { σ.core with
        replayWaiting := false, replayStalled := true } with phase := .running } := rfl
    rw [hread, hplain]
    exact ⟨[], .of_same rfl rfl rfl rfl (fun _ ↦ rfl) rfl rfl⟩
  | item item =>
    cases item with
    | syncHash frame hash =>
      rw [read_of_recording x hrecording]
      exact ⟨[], .of_same rfl rfl rfl rfl (fun _ ↦ rfl) rfl (List.append_nil _)⟩
    | packet packet =>
      by_cases hpacket : ∃ metadata state, packet = .keyframe metadata state
      · obtain ⟨metadata, state, rfl⟩ := hpacket
        exact advances_readSnapshot x metadata state hσ hrecording hreading
      · exact advances_readPacket x (fun metadata state h ↦ hpacket ⟨metadata, state, h⟩) hσ
          hrecording hreading

/-! ### Link frames -/

/-- A turn of the partner prepares the next link frame, if it is to, and then steps the console, if
it can. -/
structure Turn (arrived : Option LinkFrame) (inboxEnded hashesMatch : Bool) (other : C)
    (env : Surroundings) (s s' : SuperShuckieCore C) (calls : List Call) : Prop where
  prepares : Prepares s s' (linkMarks E arrived s) calls
  clock : (∀ frame, arrived = some frame → s.recordingMillis.toNat +
      (frame.elapsedMillis.toNat - s.totalMilliseconds.toNat) < 2 ^ 63) →
    s.recordingMillis.toNat < 2 ^ 63 →
    s.recordingMillis ≤ s'.recordingMillis ∧ s'.recordingMillis.toNat < 2 ^ 63
  runs : steps E arrived inboxEnded hashesMatch s = none ∧
      s.partnerTurn E arrived inboxEnded hashesMatch other env = s' ∨
    ∃ port, steps E arrived inboxEnded hashesMatch s = some (port, s') ∧
      s.partnerTurn E arrived inboxEnded hashesMatch other env = s'.linkStep E port other env

theorem Turn.still {arrived : Option LinkFrame} {inboxEnded hashesMatch : Bool} {other : C}
    {env : Surroundings} (hmarks : linkMarks E arrived s = [])
    (hruns : steps E arrived inboxEnded hashesMatch s = none ∧
        s.partnerTurn E arrived inboxEnded hashesMatch other env = s ∨
      ∃ port, steps E arrived inboxEnded hashesMatch s = some (port, s) ∧
        s.partnerTurn E arrived inboxEnded hashesMatch other env = s.linkStep E port other env) :
    Turn (E := E) arrived inboxEnded hashesMatch other env s s [] :=
  ⟨hmarks ▸ .refl s, fun _ hclock ↦ ⟨UInt64.le_refl _, hclock⟩, hruns⟩

theorem turn_spec (arrived : Option LinkFrame) (inboxEnded hashesMatch : Bool) (other : C)
    (env : Surroundings) (hs : s.Following) :
    ∃ s' calls, Turn (E := E) arrived inboxEnded hashesMatch other env s s' calls := by
  cases hpartner : s.linkPartner with
  | none =>
    exact ⟨s, [], .still (by rw [linkMarks.eq_def, hpartner])
      (.inl ⟨by rw [steps, hpartner], by rw [SuperShuckieCore.partnerTurn, hpartner]⟩)⟩
  | some partner =>
    cases hport : E.linkPort with
    | none =>
      exact ⟨s, [], .still (by rw [linkMarks.eq_def, hpartner, hport])
        (.inl ⟨by rw [steps, hpartner, hport], by rw [SuperShuckieCore.partnerTurn, hpartner, hport]⟩)⟩
    | some port =>
      by_cases hdue : E.isMidFrame s.core = false ∧ partner.framePrepared = false
      · -- a frame is due: what is applied is what `linkPreparePartnerFrame` finds
        have hturn s' (hprepare : s.linkPreparePartnerFrame E arrived inboxEnded partner =
            (.ready, s')) : s.partnerTurn E arrived inboxEnded hashesMatch other env =
              if hashesMatch then s'.linkStep E port other env else s' := by
          rw [SuperShuckieCore.partnerTurn, hpartner, hport]
          dsimp only
          rw [if_pos hdue, hprepare]
        have hsteps s' (hprepare : s.linkPreparePartnerFrame E arrived inboxEnded partner =
            (.ready, s')) : steps E arrived inboxEnded hashesMatch s =
              if hashesMatch then some (port, s') else none := by
          rw [steps, hpartner, hport]
          dsimp only
          rw [if_pos hdue, hprepare]
        have hready : ∀ frame : LinkFrame,
            s.linkPreparePartnerFrame E arrived inboxEnded partner =
              (.ready, (s.notePrepared partner).applyLinkFrame E frame) →
            linkMarks E arrived s = (frame.events.filter LinkFrame.carries).flatMap packetMarks →
            ((∀ frame, arrived = some frame → s.recordingMillis.toNat +
                (frame.elapsedMillis.toNat - s.totalMilliseconds.toNat) < 2 ^ 63) →
              s.recordingMillis.toNat < 2 ^ 63 → s.recordingMillis.toNat +
                (frame.elapsedMillis.toNat - s.totalMilliseconds.toNat) < 2 ^ 63) →
            ∃ s' calls, Turn (E := E) arrived inboxEnded hashesMatch other env s s' calls := by
          intro frame hprepare hgiven hfits
          obtain ⟨calls, h⟩ := prepares_linkFrame (E := E) frame hs hpartner
          refine ⟨(s.notePrepared partner).applyLinkFrame E frame, calls, hgiven ▸ h,
            fun hall hclock ↦ recordingMillis_applyLinkFrame (s := s.notePrepared partner) hs
              (hfits hall hclock), ?_⟩
          rw [hturn _ hprepare, hsteps _ hprepare]
          cases hashesMatch with
          | true => exact .inr ⟨port, rfl, rfl⟩
          | false => exact .inl ⟨rfl, rfl⟩
        by_cases hprefill : partner.frame < partner.delay
        · refine hready ⟨[.changeInput partner.prefillInput], s.totalMilliseconds, none⟩ ?_ ?_ ?_
          · rw [linkPreparePartnerFrame.eq_def, if_pos hprefill]
          · rw [linkMarks.eq_def, hpartner, hport]
            dsimp only
            rw [if_pos hdue, if_pos hprefill]
            rfl
          · intro _ hclock
            rw [Nat.sub_self]
            exact hclock
        · cases arrived with
          | some frame =>
            refine hready frame ?_ ?_ fun hall _ ↦ hall frame rfl
            · rw [linkPreparePartnerFrame.eq_def, if_neg hprefill]
            · rw [linkMarks.eq_def, hpartner, hport]
              dsimp only
              rw [if_pos hdue, if_neg hprefill]
          | none =>
            have hmarks : linkMarks E none s = [] := by
              rw [linkMarks.eq_def, hpartner, hport]
              dsimp only
              rw [if_pos hdue, if_neg hprefill]
            refine ⟨s, [], .still hmarks (.inl ?_)⟩
            rw [SuperShuckieCore.partnerTurn, steps, hpartner, hport]
            dsimp only
            rw [if_pos hdue, if_pos hdue, linkPreparePartnerFrame.eq_def, if_neg hprefill]
            cases inboxEnded with
            | true => exact ⟨rfl, rfl⟩
            | false => exact ⟨rfl, rfl⟩
      · exact ⟨s, [], .still (by rw [linkMarks.eq_def, hpartner, hport]; exact if_neg hdue)
          (.inr ⟨port, by rw [steps, hpartner, hport]; exact if_neg hdue,
            by rw [SuperShuckieCore.partnerTurn, hpartner, hport]; exact if_neg hdue⟩)⟩

/-- A link frame that has been prepared, and nothing run. -/
theorem advances_of_prepares {given : List Mark} {calls : List Call}
    (h : Prepares σ.core s' given calls)
    (hclock : event.Fits σ → σ.core.recordingMillis.toNat < 2 ^ 63 →
      σ.core.recordingMillis ≤ s'.recordingMillis ∧ s'.recordingMillis.toNat < 2 ^ 63)
    (hpending : given = [] ∨ σ.core.replayFramePending = false) :
    Advances E event σ { σ.give given with core := s' } calls where
  file := h.file
  start := rfl
  clock := hclock
  times call hmem := (h.steady _ call hmem).2
  counters _ name := by
    rw [publisherValue, publisherValue, h.counters, (h.steady 0).added name]
    exact (Int64.add_zero _).symm
  keyframes name before keyframe after heq _ := added_of_steady (h.steady 0) heq name
  frames _ _ := by
    rw [h.framesEnded, expectedFrames, expectedFrames, h.pending]
    rfl
  marks _ _ _ := by
    rw [h.marks, expectedMarks, expectedMarks, h.pending]
    rcases hpending with hnone | hidle
    · rw [hnone, List.append_nil, give, List.append_nil]
    · rw [hidle]
      simp [give]

/-- A linked console that has been stepped. -/
theorem advances_of_stepped {given : List Mark} {calls calls' : List Call} {console : C}
    {time : RunTime} {env : Surroundings} (h : Prepares σ.core s' given calls)
    (hclock : event.Fits σ → σ.core.recordingMillis.toNat < 2 ^ 63 →
      σ.core.recordingMillis ≤ s'.recordingMillis ∧ s'.recordingMillis.toNat < 2 ^ 63)
    (hlinked : σ.core.linkPartner.isSome = true) (hpending : σ.core.replayFramePending = false)
    (hone : time.frames ≤ 1) (hrun : AfterRun E time.frames { s' with core := console }
      (afterRun E time env { s' with core := console }) calls') :
    Advances E event σ
      { (σ.give given).complete E time.frames console with
        core := afterRun E time env { s' with core := console } } (calls ++ calls') := by
  have hstart : ((σ.give given).complete E time.frames console).start = σ.start := by
    rw [complete]
    split <;> rfl
  have hlink : s'.linkPartner.isSome = true := h.link.trans hlinked
  have hsteady : Steady s'.recordingMillis (calls ++ calls') := (h.steady _).append hrun.steady
  have hended : framesEnded (calls ++ calls') = time.frames.toNat := by
    rw [framesEnded_append, h.framesEnded, hrun.framesEnded, Nat.zero_add]
    exact if_pos hlink
  have hmarks := hrun.marks
  have hafter := hrun.pending
  have hidle : s'.replayFramePending = false := h.pending.trans hpending
  constructor
  case file =>
    rw [hrun.file, h.file, Option.map_map]
    exact congrArg (Option.map · _) (funext fun file ↦ by
      rw [Function.comp_apply, List.append_assoc])
  case start => exact hstart
  case clock =>
    intro hfits hfirst
    rw [hrun.millis]
    exact hclock hfits hfirst
  case times =>
    intro call hmem
    rw [hrun.millis]
    exact (hsteady call hmem).2
  case counters =>
    intro _ name
    rw [publisherValue, publisherValue, hrun.counters, hsteady.added name]
    show counterValue (s'.replayCounters.getD OrdMap.empty) name = _
    rw [h.counters]
    exact (Int64.add_zero _).symm
  case keyframes => exact fun name _ _ _ heq _ ↦ added_of_steady hsteady heq name
  case frames =>
    intro _ _
    rw [hended]
    rcases frames_cases hone with hframes | hframes
    · rw [hframes, if_pos rfl] at hafter
      rw [hframes, complete_zero, expectedFrames, expectedFrames, hafter, hidle, hpending]
      rfl
    · rw [hframes, if_neg (by decide)] at hafter
      rw [hframes, complete_one, expectedFrames, expectedFrames, hafter, hpending]
      show σ.completed.length + 0 + 1 =
        ((σ.give given).completed ++ [(σ.give given).current ++ serialMarks E console]).length + 0
      rw [List.length_append]
      rfl
  case marks =>
    intro _ _ _
    rw [callMarks_append, h.marks, hmarks]
    rcases frames_cases hone with hframes | hframes
    · rw [hframes, if_pos rfl] at hafter
      rw [hframes, complete_zero, if_pos rfl, expectedMarks, expectedMarks, hafter, hidle, hpending]
      simp [give]
    · rw [hframes, if_neg (by decide)] at hafter
      rw [hframes, complete_one, if_neg (by decide), expectedMarks, expectedMarks, hafter, hpending,
        if_pos hlink]
      simp [give]

theorem advances_partnerTurn (x : Externals) (arrived : Option LinkFrame)
    (inboxEnded hashesMatch : Bool) (other : C) (env : Surroundings) (hσ : σ.Shape) :
    ∃ calls, Advances E (.partnerTurn arrived inboxEnded hashesMatch other env) σ
      (σ.step E x (.partnerTurn arrived inboxEnded hashesMatch other env)) calls := by
  rw [step]
  split
  swap
  · exact ⟨[], .refl σ⟩
  obtain ⟨s', calls, hturn⟩ := turn_spec (E := E) arrived inboxEnded hashesMatch other env
    hσ.following
  have hclock : (SessionEvent.partnerTurn arrived inboxEnded hashesMatch other env).Fits σ →
      σ.core.recordingMillis.toNat < 2 ^ 63 →
      σ.core.recordingMillis ≤ s'.recordingMillis ∧ s'.recordingMillis.toNat < 2 ^ 63 := by
    intro hfits
    refine hturn.clock fun frame harrived ↦ ?_
    subst harrived
    exact hfits
  rw [Session.partnerTurn]
  rcases hturn.runs with ⟨hsteps, hcore⟩ | ⟨port, hsteps, hcore⟩
  · rw [hsteps, hcore]
    refine ⟨calls, advances_of_prepares hturn.prepares hclock ?_⟩
    cases hlink : σ.core.linkPartner with
    | none => exact .inl (by rw [linkMarks.eq_def, hlink])
    | some partner => exact .inr (hσ.linked (by rw [hlink]; rfl))
  · have hlinked : σ.core.linkPartner.isSome = true := by
      cases hlink : σ.core.linkPartner with
      | none => rw [steps, hlink] at hsteps; cases hsteps
      | some partner => rfl
    have hpending := hσ.linked hlinked
    rw [hsteps, hcore, linkStep]
    dsimp only
    rcases hstep : port.stepLinked s'.core other with ⟨result, console, other'⟩
    cases result with
    | error e =>
      have hconsole : Prepares σ.core { s' with core := console } (linkMarks E arrived σ.core)
          calls :=
        { hturn.prepares with }
      exact ⟨calls, advances_of_prepares hconsole hclock (.inr hpending)⟩
    | ok time =>
      have hone : time.frames ≤ 1 := port.frames_le hstep
      obtain ⟨calls', hrun⟩ := afterRun_spec (E := E) env
        (s := { s' with core := console }) (hturn.prepares.following hσ.following) hone
      exact ⟨calls ++ calls', advances_of_stepped hturn.prepares hclock hlinked hpending hone hrun⟩

end Session

end Live
end SuperShuckie
