import SuperShuckie.Core.InputHistory
import SuperShuckie.Core.LiveRuns

/-!
# Live cores get their input

A `WatchedCore` is a live core with its input history; every run that emulates something leaves a
`Slice`: what the console held, what a recorder and a publisher had been told, and the history before
the frame began.  `slices_held` says that in every run of every frame the console holds the input
that the history gives the frame, and that whoever listens was told before.
-/

set_option autoImplicit false

namespace SuperShuckie

open ByteFormat InputHistory

variable {C : Type}

/-! ## Watched cores -/

/-- A run that emulated something. -/
structure Slice where
  /-- The history before its frame began. -/
  before : InputHistory
  /-- What the console held. -/
  held : Bytes
  /-- What a recorder and a publisher had been told. -/
  recorded : Option (List Call)
  published : Option (List Call)

/-- A live core with its input history. -/
structure WatchedCore (C : Type) where
  live : LiveCore C
  history : InputHistory := []
  /-- The history before the frame under way began. -/
  before : InputHistory := []
  slices : List Slice := []

inductive InputEvent where
  | call (call : InputCall)
  | run (kind : RunKind) (env : Surroundings)

namespace WatchedCore

variable (E : PacedCore C)

/-- One event.  A run that completes no frame and stops in none has emulated nothing; any other one
begins a frame, unless one is under way. -/
def step : InputEvent → WatchedCore C → WatchedCore C
  | .call call, w =>
    { w with
      live := { w.live with
        layers := call.apply (E.isMidFrame w.live.session.core) w.live.layers }
      history := .call call :: w.history }
  | .run kind env, w =>
    let midFrame := E.isMidFrame w.live.session.core
    let begun := w.live.updateInput E
    let (time, core) := E.runAs kind begun.session.core
    let live := w.live.doRunFn E kind env
    if time.frames = 0 ∧ E.isMidFrame core = false then { w with live }
    else
      let before := if midFrame then w.before else w.history
      { live
        history := if midFrame then w.history else .frame :: w.history
        before
        slices := w.slices ++
          [⟨before, begun.held, begun.session.replayFileRecorder.map (·.calls), begun.publisher⟩] }

/-- A core that has just been created, with a recorder or a publisher or both. -/
def new (core : C) (now : TimestampMillis) (recorder : Option FileRecorder)
    (publisher : Option (List Call)) : WatchedCore C where
  live :=
    { session := { SuperShuckieCore.new core now with replayFileRecorder := recorder }
      layers := {}
      publisher
      held := [] }

end WatchedCore

section Runs

variable {E : PacedCore C} {live : LiveCore C} {h before : InputHistory} {kind : RunKind}

/-- The console holds the input that the history gives the next frame, and whoever listens was told
it. -/
structure Hears (E : PacedCore C) (live : LiveCore C) (h : InputHistory) : Prop where
  held : live.held = E.encodeInput (inputAt h)
  recorded : Told (live.session.replayFileRecorder.map (·.calls)) live.held
  published : Told live.publisher live.held

/-- **Between frames the console is handed its input**, unless it holds it already. -/
theorem hears_updateInput (hlive : live.Runs) (hboundary : E.isMidFrame live.session.core = false)
    (ht : Tracks h before false live.layers)
    (hlatched : live.layers.inputLatched = true → live.layers.nextInput = none →
      live.layers.pendingTimedPresses = [] ∧ Hears E live h) :
    Hears E (live.updateInput E) h ∧ (live.updateInput E).Runs ∧
      E.isMidFrame (live.updateInput E).session.core = false ∧
      Tracks h before false (live.updateInput E).layers ∧
      (live.updateInput E).layers.pendingTimedPresses = [] := by
  rw [LiveCore.updateInput, if_neg (Bool.not_eq_true _ ▸ hlive.playing),
    if_neg (Bool.not_eq_true _ ▸ hboundary)]
  split_ifs with hskip
  · obtain ⟨hpending, hhears⟩ := hlatched hskip.1 (Option.isNone_iff_eq_none.mp hskip.2)
    exact ⟨hhears, hlive, hboundary, ht, hpending⟩
  · have hset : Tracks h before false { live.layers with inputLatched := true } :=
      ⟨ht.enqueued_eq, ht.toggled_eq, ht.bot_eq, ht.rapid, ht.boundary, ht.underWay⟩
    obtain ⟨hinput, htracks⟩ := hset.compute
    refine ⟨⟨congrArg E.encodeInput hinput, ?_, ?_⟩, ⟨hlive.playing, hlive.stalled, hlive.waiting⟩, ?_, ⟨htracks.enqueued_eq, htracks.toggled_eq, htracks.bot_eq, htracks.rapid,
      htracks.boundary, htracks.underWay⟩, rfl⟩
    · intro calls hcalls
      obtain ⟨file, hfile, rfl⟩ := Option.map_eq_some_iff.mp hcalls
      obtain ⟨old, -, rfl⟩ := Option.map_eq_some_iff.mp hfile
      exact toldInput_setInput old.calls _
    · intro calls hcalls
      obtain ⟨old, -, rfl⟩ := Option.map_eq_some_iff.mp hcalls
      exact toldInput_setInput old _
    · exact (E.isMidFrame_setInputEncoded _ _).trans hboundary

/-- Whoever records was told what the console holds, also after a run. -/
theorem told_afterRun {session : SuperShuckieCore C} {data : Bytes} (time : RunTime)
    (env : Surroundings) (htold : Told (session.replayFileRecorder.map (·.calls)) data) :
    Told ((session.afterRun E.toEmulatorCore time env).replayFileRecorder.map (·.calls)) data := by
  obtain ⟨calls, hstayed, -⟩ := stayed_afterRun (E := E.toEmulatorCore) time env session
  rw [hstayed.file, Option.map_map]
  have hsplit : ((·.calls) ∘ fun file : FileRecorder ↦ { file with calls := file.calls ++ calls }) =
      (· ++ calls) ∘ (·.calls) := rfl
  rw [hsplit, ← Option.map_map]
  exact told_append htold hstayed.quiet

/-- **What follows a run** leaves what the console holds and what was told of it. -/
theorem hears_afterRun (core : C) (hhears : Hears E live h) (hlive : live.Runs) (time : RunTime)
    (env : Surroundings) :
    let after := { live with session := { live.session with core } }.afterRun E time env
    Hears E after h ∧ after.Runs ∧ E.isMidFrame after.session.core = E.isMidFrame core ∧
      after.layers = if time.frames = 0 then live.layers
        else live.layers.framesCompleted time.frames.toNat := by
  obtain ⟨calls, hkeeps, -⟩ :=
    stayed_afterRun (E := E.toEmulatorCore) time env { live.session with core }
  have hruns : LiveCore.Runs { live with
      session := { live.session with core }.afterRun E.toEmulatorCore time env } :=
    ⟨hkeeps.isPlayingBack.trans hlive.playing, hkeeps.stalled.trans hlive.stalled,
      hkeeps.waiting.trans hlive.waiting⟩
  have hrecorded : Told (({ live.session with core }.afterRun E.toEmulatorCore time
      env).replayFileRecorder.map FileRecorder.calls) live.held :=
    told_afterRun time env hhears.recorded
  dsimp only
  rw [LiveCore.afterRun]
  split_ifs with hframes
  · exact ⟨⟨hhears.held, hrecorded, hhears.published⟩,
      ⟨hruns.playing, hruns.stalled, hruns.waiting⟩, hkeeps.midFrame, rfl⟩
  · have hpublished : Told ({ live with session := { live.session with core } }.publishFrames E
        time.frames.toNat env.now).publisher live.held := published_publishFrames hhears.published
    rw [publishFrames_eq]
    exact ⟨⟨hhears.held, hrecorded, hpublished⟩,
      ⟨hruns.playing, hruns.stalled, hruns.waiting⟩, hkeeps.midFrame, rfl⟩

/-- The run of a core that runs, after which the layers are those that were handed over, or those
of a completed frame. -/
theorem hears_doRunFn (hhears : Hears E (live.updateInput E) h) (hlive : live.Runs)
    (hbegun : (live.updateInput E).Runs) (kind : RunKind) (env : Surroundings) :
    let ran := E.runAs kind (live.updateInput E).session.core
    Hears E (live.doRunFn E kind env) h ∧ (live.doRunFn E kind env).Runs ∧
      E.isMidFrame (live.doRunFn E kind env).session.core = E.isMidFrame ran.2 ∧
      (live.doRunFn E kind env).layers = if ran.1.frames = 0 then (live.updateInput E).layers
        else (live.updateInput E).layers.framesCompleted 1 := by
  rw [doRunFn_eq hlive hbegun]
  obtain ⟨hafter, hruns, hmid, hlayers⟩ :=
    hears_afterRun (E.runAs kind (live.updateInput E).session.core).2 hhears hbegun
      (E.runAs kind (live.updateInput E).session.core).1 env
  refine ⟨hafter, hruns, hmid, hlayers.trans ?_⟩
  split_ifs with hframes
  · rfl
  · rw [toNat_frames_runAs kind _ hframes]

end Runs

/-! ## Soundness -/

/-- During the slice the console held what its frame was to get, and whoever listened had been told
that last. -/
structure Slice.Held (E : PacedCore C) (slice : Slice) : Prop where
  held : slice.held = E.encodeInput (inputAt slice.before)
  recorded : Told slice.recorded slice.held
  published : Told slice.published slice.held

namespace WatchedCore

/-- What every event keeps. -/
structure Sound (E : PacedCore C) (w : WatchedCore C) : Prop where
  runs : w.live.Runs
  tracks : Tracks w.history w.before (E.isMidFrame w.live.session.core) w.live.layers
  /-- The input is only left alone where the console holds it. -/
  latched : E.isMidFrame w.live.session.core = false → w.live.layers.inputLatched = true →
    w.live.layers.nextInput = none →
    w.live.layers.pendingTimedPresses = [] ∧ Hears E w.live w.history
  underWay : E.isMidFrame w.live.session.core = true → Hears E w.live w.before
  slices : ∀ slice ∈ w.slices, slice.Held E ∧ .frame :: slice.before <:+ w.history

variable {E : PacedCore C} {w : WatchedCore C} {core : C} {now : TimestampMillis}
  {recorder : Option FileRecorder} {publisher : Option (List Call)}

theorem sound_new (hboundary : E.isMidFrame core = false) :
    (new core now recorder publisher).Sound E := by
  refine ⟨⟨rfl, rfl, rfl⟩, ?_, fun _ hlatched ↦ (nomatch hlatched), fun hmid ↦ ?_,
    fun _ hslice ↦ (nomatch hslice)⟩
  · show Tracks [] [] (E.isMidFrame core) {}
    rw [hboundary]
    exact tracks_new
  · exact absurd (hboundary.symm.trans hmid) Bool.false_ne_true

/-- After whatever is asked for, the input is put together again. -/
theorem relatches (call : InputCall) (midFrame : Bool) (layers : InputLayers)
    (hlatched : (call.apply midFrame layers).inputLatched = true) :
    (call.apply midFrame layers).nextInput ≠ none := by
  cases call with
  | enqueueInput input => exact Option.some_ne_none input
  | setRapidFireInput input =>
    cases input with
    | none => cases hlatched
    | some input => cases hlatched
  | setToggledInput input => cases hlatched
  | setBotInput input => cases hlatched
  | pressForFrames input frames => cases hlatched

theorem sound_call (hw : w.Sound E) (call : InputCall) : (w.step E (.call call)).Sound E := by
  refine ⟨⟨hw.runs.playing, hw.runs.stalled, hw.runs.waiting⟩, hw.tracks.apply,
    fun _ hlatched hnext ↦ absurd hnext (relatches _ _ _ hlatched), fun hmid ↦ ?_,
    fun slice hslice ↦ ?_⟩
  · exact ⟨(hw.underWay hmid).held, (hw.underWay hmid).recorded, (hw.underWay hmid).published⟩
  · obtain ⟨hheld, hsuffix⟩ := hw.slices slice hslice
    exact ⟨hheld, hsuffix.trans (List.suffix_cons _ _)⟩

/-- What is known of a slice that is added. -/
theorem slices_concat (slice : Slice) (hw : w.Sound E) (hslice : slice.Held E)
    {h : InputHistory} (hbefore : .frame :: slice.before <:+ h) (hh : w.history <:+ h) :
    ∀ s ∈ w.slices ++ [slice], s.Held E ∧ .frame :: s.before <:+ h := by
  intro s hs
  rcases List.mem_append.mp hs with hold | hnew
  · obtain ⟨hheld, hsuffix⟩ := hw.slices s hold
    exact ⟨hheld, hsuffix.trans hh⟩
  · rw [List.mem_singleton.mp hnew]
    exact ⟨hslice, hbefore⟩

/-- A run that goes on with a frame, and may complete it. -/
theorem sound_goOn (hw : w.Sound E) (hmid : E.isMidFrame w.live.session.core = true)
    (kind : RunKind) (env : Surroundings) : (w.step E (.run kind env)).Sound E := by
  have htracks := hw.tracks
  rw [hmid] at htracks
  have hsame := updateInput_midFrame hw.runs hmid
  have hhears := hw.underWay hmid
  have hran := hears_doRunFn (h := w.before) (hsame.symm ▸ hhears) hw.runs (hsame.symm ▸ hw.runs)
    kind env
  rw [hsame] at hran
  obtain ⟨hafter, hruns, hmid', hlayers⟩ := hran
  obtain ⟨calls, hhistory, -, -⟩ := htracks.underWay rfl
  have hslices := slices_concat
    ⟨w.before, w.live.held, w.live.session.replayFileRecorder.map (·.calls), w.live.publisher⟩ hw
    ⟨hhears.held, hhears.recorded, hhears.published⟩
    (hhistory ▸ List.suffix_append _ _) (List.suffix_refl _)
  rw [step]
  dsimp only
  rw [hsame, hmid]
  by_cases hframes : (E.runAs kind w.live.session.core).1.frames = 0
  · have hunfinished := unfinished_runAs kind _ hmid hframes
    rw [if_neg fun h ↦ absurd (hunfinished.symm.trans h.2) Bool.noConfusion]
    rw [if_pos hframes] at hlayers
    refine ⟨hruns, ?_, fun hboundary ↦ ?_, fun _ ↦ hafter, hslices⟩
    · show Tracks w.history w.before _ _
      rw [hmid', hunfinished, hlayers]
      exact htracks
    · exact absurd (hunfinished.symm.trans (hmid'.symm.trans hboundary)) Bool.noConfusion
  · have hdone := isMidFrame_runAs kind w.live.session.core hframes
    rw [if_neg fun h ↦ hframes h.1]
    rw [if_neg hframes] at hlayers
    refine ⟨hruns, ?_, fun _ hlatched ↦ ?_, fun hmid ↦ ?_, hslices⟩
    · show Tracks w.history w.before _ _
      rw [hmid', hdone, hlayers]
      exact htracks.complete
    · have hnot := congrArg InputLayers.inputLatched hlayers
      exact absurd (hnot.symm.trans hlatched) Bool.noConfusion
    · exact absurd (hdone.symm.trans (hmid'.symm.trans hmid)) Bool.noConfusion

/-- A run between frames: it may emulate nothing, begin a frame, or do a whole one. -/
theorem sound_begin (hw : w.Sound E) (hboundary : E.isMidFrame w.live.session.core = false)
    (kind : RunKind) (env : Surroundings) : (w.step E (.run kind env)).Sound E := by
  have htracks := hw.tracks
  rw [hboundary] at htracks
  obtain ⟨hhears, hbegun, -, htracks, hpending⟩ :=
    hears_updateInput hw.runs hboundary htracks (hw.latched hboundary)
  obtain ⟨hafter, hruns, hmid', hlayers⟩ := hears_doRunFn hhears hw.runs hbegun kind env
  have hslices := slices_concat
    ⟨w.history, (w.live.updateInput E).held,
      (w.live.updateInput E).session.replayFileRecorder.map (·.calls),
      (w.live.updateInput E).publisher⟩ hw ⟨hhears.held, hhears.recorded, hhears.published⟩
    (List.suffix_refl _) (List.suffix_cons _ _)
  rw [step]
  dsimp only
  rw [hboundary]
  by_cases hframes : (E.runAs kind (w.live.updateInput E).session.core).1.frames = 0
  · rw [if_pos hframes] at hlayers
    cases hran : E.isMidFrame (E.runAs kind (w.live.updateInput E).session.core).2 with
    | false =>
      -- Nothing was emulated: the next run holds the same input.
      rw [if_pos ⟨hframes, rfl⟩]
      refine ⟨hruns, ?_, fun _ _ _ ↦ ⟨(congrArg _ hlayers).trans hpending, hafter⟩, fun hmid ↦ ?_,
        hw.slices⟩
      · show Tracks w.history w.before _ _
        rw [hmid', hran, hlayers]
        exact htracks
      · exact absurd (hran.symm.trans (hmid'.symm.trans hmid)) Bool.noConfusion
    | true =>
      rw [if_neg fun h ↦ nomatch h.2]
      refine ⟨hruns, ?_, fun hboundary ↦ ?_, fun _ ↦ hafter, hslices⟩
      · show Tracks (.frame :: w.history) w.history _ _
        rw [hmid', hran, hlayers]
        exact htracks.begin hpending
      · exact absurd (hran.symm.trans (hmid'.symm.trans hboundary)) Bool.noConfusion
  · have hdone := isMidFrame_runAs kind _ hframes
    rw [if_neg fun h ↦ hframes h.1]
    rw [if_neg hframes] at hlayers
    refine ⟨hruns, ?_, fun _ hlatched ↦ ?_, fun hmid ↦ ?_, hslices⟩
    · show Tracks (.frame :: w.history) w.history _ _
      rw [hmid', hdone, hlayers]
      exact (htracks.begin hpending).complete
    · have hnot := congrArg InputLayers.inputLatched hlayers
      exact absurd (hnot.symm.trans hlatched) Bool.noConfusion
    · exact absurd (hdone.symm.trans (hmid'.symm.trans hmid)) Bool.noConfusion

/-- **Every event keeps a live core sound.** -/
theorem sound_step (hw : w.Sound E) (event : InputEvent) : (w.step E event).Sound E := by
  cases event with
  | call call => exact sound_call hw call
  | run kind env =>
    cases hmid : E.isMidFrame w.live.session.core with
    | false => exact sound_begin hw hmid kind env
    | true => exact sound_goOn hw hmid kind env

/-- A core after events, from its creation on. -/
def after (E : PacedCore C) (core : C) (now : TimestampMillis) (recorder : Option FileRecorder)
    (publisher : Option (List Call)) (events : List InputEvent) : WatchedCore C :=
  Runs.run (fun event w ↦ step E event w) events (new core now recorder publisher)

/-- **The input a frame gets.**  Whatever is asked for and whenever, each time the console emulates
something it holds the input that the history gives the frame: of what was asked for before the frame
began, and nothing else.  A recorder and a publisher were told that input before, and have not been
told another one since; and so it stays while a frame is under way. -/
theorem slices_held (hboundary : E.isMidFrame core = false) (events : List InputEvent) :
    let w := after E core now recorder publisher events
    (∀ slice ∈ w.slices, slice.Held E ∧ .frame :: slice.before <:+ w.history) ∧
      (E.isMidFrame w.live.session.core = true →
        .frame :: w.before <:+ w.history ∧ Hears E w.live w.before) := by
  have hsound : (after E core now recorder publisher events).Sound E :=
    Runs.run_kept (fun event w hw ↦ sound_step hw event) (sound_new hboundary)
  refine ⟨hsound.slices, fun hmid ↦ ⟨?_, hsound.underWay hmid⟩⟩
  obtain ⟨calls, hhistory, -, -⟩ := hsound.tracks.underWay hmid
  rw [hhistory]
  exact List.suffix_append _ _

/-- A console in slices, of whose buttons two are encoded. -/
def twoButtons : PacedCore SlicedConsole where
  toEmulatorCore := SlicedConsole.core
  run := SlicedConsole.run
  runHidden := SlicedConsole.run
  encodeInput input := [if input.a then 1 else 0, if input.b then 1 else 0]
  frames_run_le := SlicedConsole.frames_run_le
  frames_runHidden_le := SlicedConsole.frames_run_le
  isMidFrame_run := SlicedConsole.core.isMidFrame_runUnlocked
  isMidFrame_runHidden := SlicedConsole.core.isMidFrame_runUnlocked
  isMidFrame_setInputEncoded _ _ := rfl
  unfinished_run c hmid hframes := by
    rw [SlicedConsole.run, if_pos (show c.midFrame = true from hmid)] at hframes
    cases hframes
  unfinished_runHidden c hmid hframes := by
    rw [SlicedConsole.run, if_pos (show c.midFrame = true from hmid)] at hframes
    cases hframes
  unfinished_runUnlocked c hmid hframes := by
    change (SlicedConsole.run c).1.frames = 0 at hframes
    rw [SlicedConsole.run, if_pos (show c.midFrame = true from hmid)] at hframes
    cases hframes

/-- One button is pressed for two frames in the middle of the first frame, and the other one is fired
every second frame from then on. -/
def pressedEvents : List InputEvent :=
  [.run .paced ⟨0, 0⟩, .call (.pressForFrames { a := true } 2),
    .call (.setRapidFireInput (some ⟨{ b := true }, 1, 1, 0, 0⟩))] ++
    .replicate 7 (.run .paced ⟨0, 0⟩)

theorem slices_held_pressed :
    let w := after twoButtons .fresh 0 none (some []) pressedEvents
    w.slices.map (·.held) =
        [[0, 0], [0, 0], [1, 1], [1, 1], [1, 0], [1, 0], [0, 1], [0, 1]] ∧
      ∀ slice ∈ w.slices, slice.Held twoButtons ∧ .frame :: slice.before <:+ w.history :=
  ⟨by decide +kernel, (slices_held (E := twoButtons) rfl pressedEvents).1⟩

end WatchedCore

end SuperShuckie
