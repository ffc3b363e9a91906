import SuperShuckie.Core.Link
import SuperShuckie.Live.Follower

/-!
# Sessions of following another player

A `Session` is a core that follows another player, from the moment the live replay is attached, and
what an observer knows of it: the publisher's counters when the file was started, and what each
frame that the console completed since then was given.

The events of a session are the steps the core takes: a run reads the live replay, one item at a
time, then runs the console (`Session.follow`); the file is started and stopped between runs; a link
cable goes in and out, and the linked consoles take turns.  An event that cannot happen at some
point does nothing there.
-/

set_option autoImplicit false

namespace SuperShuckie

open ByteFormat

namespace SuperShuckieCore

variable {C : Type}

/-- Follow another player's game: any recording is stopped, and nothing runs until the first
snapshot arrives. -/
def attachLiveReplaySource (s : SuperShuckieCore C) : SuperShuckieCore C :=
  { s with
    replayFileRecorder := none
    replayPlayer := none
    replayCounters := some OrdMap.empty
    replayStalled := false
    replayFramePending := false
    replayPlaybackStopped := false
    replayWaiting := true
    framesSinceLastKeyframe := 0
    streamTimeOrigin := 0
    ignoreSpeedChangesInReplays := true
    follower := some
      { lastInput := []
        pendingRecording := none
        errors := []
        failedLoads := 0
        snapshotsApplied := 0 } }

end SuperShuckieCore

namespace Live

/-- What a console is given during a frame, and the end of a frame, as a file has them. -/
inductive Mark
  | input (data : InputBuffer)
  | serialIn (data : ByteVec)
  | loadState (state : Bytes)
  | frame
deriving DecidableEq

/-- A core that follows another player. -/
structure Session (C : Type) where
  core : SuperShuckieCore C
  phase : Phase
  /-- The publisher's counters when the file was started. -/
  start : OrdMap String SignedInteger
  /-- What each frame completed since the file was started was given. -/
  completed : List (List Mark)
  /-- What the frame in progress, or the next one, has been given. -/
  current : List Mark

/-- What a session does. -/
inductive SessionEvent (C : Type)
  /-- A run begins. -/
  | beginRun
  /-- The live replay is read, and returns `poll`. -/
  | read (poll : LivePoll)
  /-- The console is run. -/
  | emulate (env : Surroundings)
  | startRecording (recording : PendingFollowerRecording)
  | stopRecording
  | beginLink (settings : LinkSettings)
  /-- The partner's turn, with the local console `other` at the other end of the cable. -/
  | partnerTurn (arrived : Option LinkFrame) (inboxEnded hashesMatch : Bool) (other : C)
      (env : Surroundings)
  /-- The local console's turn. -/
  | localTurn (other : C)
  | endLink

/-! ## What the console is given -/

/-- What a packet gives to the console. -/
def packetMarks : Packet → List Mark
  | .changeInput data => [.input data]
  | .serialIn data => [.serialIn data]
  | .loadSaveState state => [.loadState state]
  | _ => []

/-- What a snapshot gives to the console, if it loads. -/
def snapshotMarks {C : Type} (E : EmulatorCore C) (metadata : KeyframeMetadata) (state : Bytes)
    (core : C) : List Mark :=
  match E.loadSaveState state core with
  | (.ok _, _) => [.loadState state, .input metadata.input]
  | (.error _, _) => []

/-- What an item of the live replay gives to the console. -/
def itemMarks {C : Type} (E : EmulatorCore C) (item : LiveItem) (core : C) : List Mark :=
  match item with
  | .packet (.keyframe metadata state) => snapshotMarks E metadata state core
  | .packet packet => packetMarks packet
  | .syncHash .. => []

/-- What a console has received over its port. -/
def serialMarks {C : Type} (E : EmulatorCore C) (core : C) : List Mark :=
  match E.linkPort with
  | none => []
  | some port =>
    if (port.takeSerialIn core).1.isEmpty then [] else [.serialIn (port.takeSerialIn core).1]

/-- What the link frame of a turn gives to the console, if one is prepared. -/
def linkMarks {C : Type} (E : EmulatorCore C) (arrived : Option LinkFrame)
    (s : SuperShuckieCore C) : List Mark :=
  match s.linkPartner, E.linkPort with
  | some partner, some _ =>
    if E.isMidFrame s.core = false ∧ partner.framePrepared = false then
      if partner.frame < partner.delay then [.input partner.prefillInput]
      else
        match arrived with
        | some frame => (frame.events.filter LinkFrame.carries).flatMap packetMarks
        | none => []
    else []
  | _, _ => []

/-- The link traffic that a console has been given since its state was last replaced. -/
def laterTraffic (marks : List Mark) : List Mark :=
  marks.foldl (fun traffic mark ↦ match mark with
    | .serialIn data => traffic ++ [.serialIn data]
    | .loadState _ => []
    | _ => traffic) []

namespace Session

variable {C : Type} (E : EmulatorCore C) (x : Externals)

/-- The session starts when the live replay is attached. -/
def attach (s : SuperShuckieCore C) : Session C :=
  { core := s.attachLiveReplaySource
    phase := .idle
    start := OrdMap.empty
    completed := []
    current := [] }

/-- Whether the core writes a file. -/
def recording (σ : Session C) : Bool := σ.core.replayFileRecorder.isSome

/-- Note what the console is given. -/
def give (marks : List Mark) (σ : Session C) : Session C :=
  { σ with current := σ.current ++ marks }

/-- A console of this state has completed `frames` frames. -/
def complete (frames : UInt64) (console : C) (σ : Session C) : Session C :=
  if 0 < frames then
    { σ with
      completed := σ.completed ++ [σ.current ++ serialMarks E console]
      current := [] }
  else σ

/-- The core becomes `core`; when that starts a file, what it holds begins here, but for link traffic
that the console has been given already. -/
def become (core : SuperShuckieCore C) (σ : Session C) : Session C :=
  if σ.recording = false ∧ core.replayFileRecorder.isSome then
    { σ with
      core
      start := core.replayCounters.getD OrdMap.empty
      completed := []
      current := laterTraffic σ.current }
  else { σ with core }

/-- Read one item of the live replay. -/
def read (poll : LivePoll) (σ : Session C) : Session C :=
  let (goesOn, core) := σ.core.readLive E x poll
  let given := match poll with
    | .item item => σ.give (itemMarks E item σ.core.core)
    | _ => σ
  { given.become core with phase := if goesOn then .reading else .running }

/-- Run the console, unless the replay has nothing to run. -/
def emulate (env : Surroundings) (σ : Session C) : Session C :=
  let completed :=
    if σ.core.replayStalled ∨ σ.core.replayWaiting then σ
    else
      let (time, console) := E.runUnlocked σ.core.core
      σ.complete E time.frames console
  { completed with
    core := σ.core.emulate E env
    phase := .idle }

/-- The state of the partner's core when its console is about to be stepped in its turn, if it
is. -/
def steps (arrived : Option LinkFrame) (inboxEnded hashesMatch : Bool)
    (s : SuperShuckieCore C) : Option (LinkPort C × SuperShuckieCore C) :=
  match s.linkPartner, E.linkPort with
  | some partner, some port =>
    if E.isMidFrame s.core = false ∧ partner.framePrepared = false then
      match s.linkPreparePartnerFrame E arrived inboxEnded partner with
      | (.ready, s) => if hashesMatch then some (port, s) else none
      | (_, _) => none
    else some (port, s)
  | _, _ => none

/-- The partner's turn. -/
def partnerTurn (arrived : Option LinkFrame) (inboxEnded hashesMatch : Bool) (other : C)
    (env : Surroundings) (σ : Session C) : Session C :=
  let given := σ.give (linkMarks E arrived σ.core)
  let completed :=
    match steps E arrived inboxEnded hashesMatch σ.core with
    | none => given
    | some (port, s) =>
      match port.stepLinked s.core other with
      | (.ok time, console, _) => given.complete E time.frames console
      | (.error _, _, _) => given
  { completed with core := σ.core.partnerTurn E arrived inboxEnded hashesMatch other env }

/-- Take a step. -/
def step (event : SessionEvent C) (σ : Session C) : Session C :=
  match event with
  | .beginRun =>
    if σ.phase = .idle ∧ σ.core.linkPartner.isNone then
      { σ with phase := if σ.core.readsReplay E then .reading else .running }
    else σ
  | .read poll => if σ.phase = .reading then σ.read E x poll else σ
  | .emulate env => if σ.phase = .running then σ.emulate E env else σ
  | .startRecording recording =>
    if σ.phase = .idle then
      -- a file that was being written is closed first
      { σ with core := σ.core.stopRecordingReplay }.become
        (σ.core.startRecordingFollowerReplay E x recording).1
    else σ
  | .stopRecording => if σ.phase = .idle then σ.become σ.core.stopRecordingReplay else σ
  | .beginLink settings =>
    if σ.phase = .idle then { σ with core := (σ.core.beginLinkPartner E settings).2 } else σ
  | .partnerTurn arrived inboxEnded hashesMatch other env =>
    if σ.phase = .idle then σ.partnerTurn E arrived inboxEnded hashesMatch other env else σ
  | .localTurn other =>
    if σ.phase = .idle then { σ with core := σ.core.localTurn E other } else σ
  | .endLink =>
    if σ.phase = .idle ∧ σ.core.linkPartner.isSome then { σ with core := σ.core.endLinkPartner E }
    else σ

/-- Take steps. -/
def run (events : List (SessionEvent C)) (σ : Session C) : Session C :=
  events.foldl (fun σ event ↦ σ.step E x event) σ

/-! ## A run -/

/-- The steps of a run during which the live replay returns `polls`, and then that there is nothing
more yet. -/
def runSteps (polls : List LivePoll) (env : Surroundings) : List (SessionEvent C) :=
  .beginRun :: (polls ++ [LivePoll.waiting]).map SessionEvent.read ++ [.emulate env]

variable {E}

theorem core_become (core : SuperShuckieCore C) (σ : Session C) : (σ.become core).core = core := by
  rw [become]
  split <;> rfl

theorem core_read (x : Externals) (poll : LivePoll) (σ : Session C) :
    (σ.read E x poll).core = (σ.core.readLive E x poll).2 :=
  core_become _ _

theorem core_emulate (env : Surroundings) (σ : Session C) :
    (σ.emulate E env).core = σ.core.emulate E env :=
  rfl

variable {x}

theorem run_append (events events' : List (SessionEvent C)) (σ : Session C) :
    σ.run E x (events ++ events') = (σ.run E x events).run E x events' :=
  List.foldl_append

variable (E x) in
/-- What is said of each step of a run, and of the session before it. -/
def Along (P : SessionEvent C → Session C → Prop) : List (SessionEvent C) → Session C → Prop
  | [], _ => True
  | event :: events, σ => P event σ ∧ Along P events (σ.step E x event)

variable {σ : Session C}

theorem along_append {P : SessionEvent C → Session C → Prop}
    {events events' : List (SessionEvent C)} (h : Along E x P (events ++ events') σ) :
    Along E x P events σ ∧ Along E x P events' (σ.run E x events) := by
  induction events generalizing σ with
  | nil => exact ⟨trivial, h⟩
  | cons event events ih =>
    obtain ⟨hevents, hrest⟩ := ih h.2
    exact ⟨⟨h.1, hevents⟩, hrest⟩

/-- **What the steps of a run keep**, as long as they meet a condition, holds after the run. -/
theorem run_along {P : SessionEvent C → Session C → Prop} {Q : Session C → Prop}
    {events : List (SessionEvent C)}
    (hstep : ∀ event ∈ events, ∀ σ, Q σ → P event σ → Q (σ.step E x event))
    (halong : Along E x P events σ) (hσ : Q σ) : Q (σ.run E x events) := by
  induction events generalizing σ with
  | nil => exact hσ
  | cons event events ih =>
    exact ih (fun e hmem ↦ hstep e (List.mem_cons_of_mem _ hmem)) halong.2
      (hstep event (.head _) σ hσ halong.1)

/-- Nothing more is read once the loop has ended. -/
theorem run_read_of_running (hphase : σ.phase = .running) (polls : List LivePoll) :
    σ.run E x (polls.map SessionEvent.read) = σ := by
  induction polls with
  | nil => rfl
  | cons poll polls ih =>
    have hstep : σ.step E x (.read poll) = σ := by
      show (if σ.phase = .reading then _ else _) = _
      rw [hphase]
      rfl
    show (σ.step E x (.read poll)).run E x _ = σ
    rw [hstep, ih]

theorem run_read_of_reading (hphase : σ.phase = .reading) (polls : List LivePoll) :
    (σ.run E x ((polls ++ [LivePoll.waiting]).map SessionEvent.read)).core = σ.core.handleLiveReplay E x polls ∧
      (σ.run E x ((polls ++ [LivePoll.waiting]).map SessionEvent.read)).phase = .running := by
  induction polls generalizing σ with
  | nil =>
    have hstep : σ.step E x (.read .waiting) = σ.read E x .waiting := by
      show (if σ.phase = .reading then _ else _) = _
      rw [if_pos hphase]
    show (σ.step E x (.read .waiting)).core = _ ∧ (σ.step E x (.read .waiting)).phase = _
    rw [hstep]
    exact ⟨core_read x _ _, rfl⟩
  | cons poll polls ih =>
    have hstep : σ.step E x (.read poll) = σ.read E x poll := by
      show (if σ.phase = .reading then _ else _) = _
      rw [if_pos hphase]
    show ((σ.step E x (.read poll)).run E x ((polls ++ [LivePoll.waiting]).map SessionEvent.read)).core = _ ∧
      ((σ.step E x (.read poll)).run E x ((polls ++ [LivePoll.waiting]).map SessionEvent.read)).phase = _
    rw [hstep, SuperShuckieCore.handleLiveReplay]
    have hcore : (σ.read E x poll).core = (σ.core.readLive E x poll).2 := core_read x _ _
    have hread : (σ.read E x poll).phase =
        if (σ.core.readLive E x poll).1 then .reading else .running := rfl
    rcases hlive : σ.core.readLive E x poll with ⟨goesOn, core⟩
    rw [hlive] at hcore hread
    cases goesOn with
    | true =>
      have := ih (σ := σ.read E x poll) hread
      rw [hcore] at this
      exact this
    | false =>
      rw [run_read_of_running hread]
      exact ⟨hcore, hread⟩

/-- **The steps of a run are what the core does in one.** -/
theorem run_runSteps (hphase : σ.phase = .idle) (hlink : σ.core.linkPartner = none)
    (polls : List LivePoll) (env : Surroundings) :
    (σ.run E x (runSteps polls env)).core = σ.core.runFollowing E x polls env ∧
      (σ.run E x (runSteps polls env)).phase = .idle := by
  have hbegin : σ.step E x .beginRun =
      { σ with phase := if σ.core.readsReplay E then .reading else .running } := by
    show (if σ.phase = .idle ∧ σ.core.linkPartner.isNone then _ else _) = _
    rw [if_pos ⟨hphase, by rw [hlink]; rfl⟩]
  have hread : ∃ τ : Session C, (σ.step E x .beginRun).run E x ((polls ++ [LivePoll.waiting]).map SessionEvent.read) = τ ∧
      τ.phase = .running ∧
      τ.core = if σ.core.readsReplay E then σ.core.handleLiveReplay E x polls else σ.core := by
    refine ⟨_, rfl, ?_⟩
    rw [hbegin]
    split
    · obtain ⟨hcore, hrunning⟩ :=
        run_read_of_reading (E := E) (x := x) (σ := { σ with phase := .reading }) rfl polls
      exact ⟨hrunning, hcore⟩
    · rw [run_read_of_running rfl]
      exact ⟨rfl, rfl⟩
  obtain ⟨τ, hτ, hrunning, hcore⟩ := hread
  have hemulate : σ.run E x (runSteps polls env) = τ.emulate E env := by
    show (σ.step E x .beginRun).run E x ((polls ++ [LivePoll.waiting]).map SessionEvent.read ++ [.emulate env]) = _
    rw [run_append, hτ]
    show (if τ.phase = .running then _ else _) = _
    rw [if_pos hrunning]
  rw [hemulate, core_emulate, SuperShuckieCore.runFollowing, if_neg (by rw [hlink]; exact Bool.false_ne_true), hcore]
  exact ⟨rfl, rfl⟩

end Session

end Live

end SuperShuckie
