import SuperShuckie.Legacy.Import

/-!
# What the steps of an import record

Each operation of a core between frames (`Ready`) is described by what it does to the console and by
the calls that it makes of the recorder (`Did`).  A frame is recorded as the input it starts with,
its marker, and the keyframe that follows it, if one is due (`runFrame_spec`).
-/

set_option autoImplicit false

namespace SuperShuckie

namespace Legacy

open ByteFormat SuperShuckie.Convert Fallible

variable {C : Type} {E : GameBoy C}

/-! ## Sessions -/

/-- A session that nothing drives but the user. -/
structure Undriven (s : SuperShuckieCore C) : Prop where
  player : s.replayPlayer = none
  follower : s.follower = none
  stalled : s.replayStalled = false
  waiting : s.replayWaiting = false

theorem Undriven.isPlayingBack {s : SuperShuckieCore C} (h : Undriven s) :
    s.isPlayingBack = false := by
  rw [SuperShuckieCore.isPlayingBack, h.player, h.follower]
  rfl

/-- The session has made some calls of its recorder, and is still what it was for the rest. -/
structure Wrote (s s' : SuperShuckieCore C) (calls : List Call) : Prop where
  undriven : Undriven s → Undriven s'
  core : s'.core = s.core
  file : s'.replayFileRecorder =
    s.replayFileRecorder.map fun file ↦ { file with calls := file.calls ++ calls }

variable {s s' s'' : SuperShuckieCore C} {calls more : List Call}

theorem Wrote.trans (h : Wrote s s' calls) (h' : Wrote s' s'' more) :
    Wrote s s'' (calls ++ more) where
  undriven hs := h'.undriven (h.undriven hs)
  core := h'.core.trans h.core
  file := by
    rw [h'.file, h.file, Option.map_map]
    refine congrArg (Option.map · _) (funext fun file ↦ ?_)
    rw [Function.comp_apply, List.append_assoc]

/-- Nothing is written. -/
theorem wrote_nil (hdriven : Undriven s → Undriven s') (hcore : s'.core = s.core)
    (hfile : s'.replayFileRecorder = s.replayFileRecorder) : Wrote s s' [] := by
  refine ⟨hdriven, hcore, ?_⟩
  rw [hfile]
  exact (SuperShuckieCore.append_calls_nil _).symm

theorem recordSerialIn_eq (s : SuperShuckieCore C) : s.recordSerialIn E.toEmulatorCore = s := by
  have hnone : s.takeSerialInBytes E.toEmulatorCore = ([], s) := by
    rw [SuperShuckieCore.takeSerialInBytes]
    cases hport : E.linkPort with
    | none => rfl
    | some port =>
      show ((port.takeSerialIn s.core).1, { s with core := (port.takeSerialIn s.core).2 }) = ([], s)
      rw [E.takeSerialIn_eq port s.core hport]
  rw [SuperShuckieCore.recordSerialIn, hnone]
  rfl

/-- Keyframes that are due: at most one, of the state as it is. -/
theorem wrote_pushKeyframeIfNeeded (time : RunTime) (env : Surroundings) (s : SuperShuckieCore C) :
    ∃ calls, Wrote s (s.pushKeyframeIfNeeded E.toEmulatorCore time env) calls ∧
      ∀ call ∈ calls, call.isKeyframe = true := by
  have hreads (s : SuperShuckieCore C) : s.recordRomReads E.toEmulatorCore = s := by
    rw [SuperShuckieCore.recordRomReads, E.takeRomReads_eq]
    rfl
  have haccess (s : SuperShuckieCore C) : s.recordPageAccess E.toEmulatorCore = s := by
    rw [SuperShuckieCore.recordPageAccess, E.takeTransientPageAccess_eq]
  have hsame (s' : SuperShuckieCore C) (hdriven : Undriven s → Undriven s')
      (hcore : s'.core = s.core)
      (hfile : s'.replayFileRecorder = s.replayFileRecorder) :
      ∃ calls, Wrote s s' calls ∧ ∀ call ∈ calls, Call.isKeyframe call = true :=
    ⟨[], wrote_nil hdriven hcore hfile, fun _ h ↦ absurd h List.not_mem_nil⟩
  rw [SuperShuckieCore.pushKeyframeIfNeeded]
  split
  · exact hsame _ id rfl rfl
  · dsimp only
    split
    · exact hsame _ id rfl rfl
    · split
      · rw [SuperShuckieCore.writeKeyframe, hreads, haccess]
        split
        · refine ⟨_, ⟨fun h ↦ ⟨h.player, h.follower, h.stalled, h.waiting⟩, rfl, rfl⟩, ?_⟩
          intro call hcall
          rw [List.mem_singleton.1 hcall]
          rfl
        · exact hsame _ (fun h ↦ ⟨h.player, h.follower, h.stalled, h.waiting⟩) rfl rfl
      · exact hsame _ (fun h ↦ ⟨h.player, h.follower, h.stalled, h.waiting⟩) rfl rfl

theorem pushThumbnailIfNeeded_eq (time : RunTime) (s : SuperShuckieCore C) :
    s.pushThumbnailIfNeeded E.toEmulatorCore time = s := by
  rw [SuperShuckieCore.pushThumbnailIfNeeded, E.console_eq]
  exact if_pos (Or.inr (Or.inr (Or.inr (Or.inr (Or.inl (by decide))))))

/-- **What follows a run**: the marker of the frame that it completed, if it did, and a keyframe. -/
theorem wrote_afterRun {time : RunTime} (hone : time.frames ≤ 1) (env : Surroundings)
    (hs : Undriven s) :
    ∃ calls, Wrote s (s.afterRun E.toEmulatorCore time env) calls ∧
      (s.afterRun E.toEmulatorCore time env).totalFrames = s.totalFrames + time.frames ∧
      if time.frames = 0 then calls = []
      else ∃ ms keyframes, calls = .nextFrame ms :: keyframes ∧
        ∀ call ∈ keyframes, call.isKeyframe = true := by
  obtain ⟨calls, hstayed, -⟩ := stayed_afterRun (E := E.toEmulatorCore) time env s
  have hframes : (s.afterRun E.toEmulatorCore time env).totalFrames = s.totalFrames + time.frames :=
    hstayed.frames
  by_cases hnone : time.frames = 0
  · refine ⟨[], ?_, hframes, by rw [if_pos hnone]⟩
    rw [SuperShuckieCore.afterRun, SuperShuckieCore.doFrameTimekeeping, pushThumbnailIfNeeded_eq,
      SuperShuckieCore.pushKeyframeIfNeeded, if_pos (Or.inl hnone), hnone]
    exact wrote_nil (fun h ↦ ⟨h.player, h.follower, h.stalled, h.waiting⟩) rfl rfl
  · have hone : time.frames.toNat = 1 := by
      rw [UInt64.le_iff_toNat_le, UInt64.toNat_one] at hone
      rw [← UInt64.toNat_inj, UInt64.toNat_zero] at hnone
      omega
    have hpos : 0 < time.frames := by
      rw [UInt64.lt_iff_toNat_lt, hone]
      exact Nat.one_pos
    have hkept : ∃ ms, Wrote s (s.doFrameTimekeeping E.toEmulatorCore time env.now)
        [.nextFrame ms] := by
      rw [SuperShuckieCore.doFrameTimekeeping]
      dsimp only
      rw [if_pos hpos, recordSerialIn_eq, SuperShuckieCore.recordFrames, if_neg, hone]
      · exact ⟨_, ⟨fun h ↦ ⟨h.player, h.follower, h.stalled, h.waiting⟩, rfl, rfl⟩⟩
      · rw [Bool.not_eq_true]
        exact hs.isPlayingBack
    obtain ⟨ms, hkept⟩ := hkept
    obtain ⟨keyframes, hwrote, hkeyframes⟩ := wrote_pushKeyframeIfNeeded (E := E) time env
      (s.doFrameTimekeeping E.toEmulatorCore time env.now)
    refine ⟨[.nextFrame ms] ++ keyframes, ?_, hframes, ?_⟩
    · rw [SuperShuckieCore.afterRun, pushThumbnailIfNeeded_eq]
      exact hkept.trans hwrote
    · rw [if_neg hnone]
      exact ⟨ms, keyframes, rfl, hkeyframes⟩

/-! ## Between frames -/

/-- The buttons that the next frame gets. -/
def ImportCore.heldInput (s : ImportCore C) : Input :=
  s.live.layers.nextInput.getD s.live.layers.baseInput

/-- A core that only the import gives input to. -/
structure OneLayer (layers : InputLayers) : Prop where
  rapid : layers.rapidFireInput = none
  toggled : layers.toggledInput = none
  bot : layers.botInput = none
  pending : layers.pendingTimedPresses = []
  timed : layers.timedPresses = []

variable (E) in
/-- A core between two frames. -/
structure Ready (s : ImportCore C) : Prop where
  undriven : Undriven s.live.session
  midFrame : E.isMidFrame s.live.session.core = false
  writes : s.writes = []
  layers : OneLayer s.live.layers
  unlatched : s.live.layers.inputLatched = false

variable (E) in
/-- What an operation between frames does: some calls of the recorder are made. -/
structure Did (s s' : ImportCore C) (calls : List Call) : Prop where
  ready : Ready E s'
  held : s'.heldInput = s.heldInput
  file : s'.live.session.replayFileRecorder =
    s.live.session.replayFileRecorder.map fun file ↦ { file with calls := file.calls ++ calls }

namespace ImportCore

variable {t t' : ImportCore C}

section

variable (h : Ready E t)
include h

theorem setConsole_spec {core : C} (hmid : E.isMidFrame core = false)
    (calls : List Call) : Did E t ((t.setConsole core).record calls) calls :=
  ⟨⟨⟨h.undriven.player, h.undriven.follower, h.undriven.stalled, h.undriven.waiting⟩, hmid,
    h.writes, h.layers, h.unlatched⟩, rfl, rfl⟩

theorem unlatchInput_eq : t.unlatchInput = t := by
  obtain ⟨⟨session, layers, publisher, held⟩, writes⟩ := t
  have hlatched : layers.inputLatched = false := h.unlatched
  rw [unlatchInput]
  congr
  rw [← hlatched]

theorem finishCurrentFrame_eq (env : Surroundings) (fuel : Nat) :
    t.finishCurrentFrame E env fuel = pure t := by
  have hmid : ¬ (E.isMidFrame t.live.session.core = true ∧
      ¬ t.live.session.replayStalled = true) := by
    rw [h.midFrame]
    exact fun hmid ↦ Bool.false_ne_true hmid.1
  unfold finishCurrentFrame
  rw [if_neg hmid]

theorem write_spec (address : UInt32) (data : Bytes) : Did E t (t.write E address data)
        (if (E.writeRam address data t.live.session.core).1 then
          [.writeMemory address.toUInt64 data] else []) ∧
      (t.write E address data).live.session.core =
        (E.writeRam address data t.live.session.core).2 := by
  have hmid := (E.isMidFrame_writeRam address data t.live.session.core).trans h.midFrame
  rw [write]
  cases hwrite : E.writeRam address data t.live.session.core with
  | mk wrote core =>
    rw [hwrite] at hmid
    cases wrote with
    | true => exact ⟨setConsole_spec h hmid _, rfl⟩
    | false =>
      exact ⟨⟨⟨⟨h.undriven.player, h.undriven.follower, h.undriven.stalled, h.undriven.waiting⟩,
        hmid, h.writes, h.layers, h.unlatched⟩, rfl, (SuperShuckieCore.append_calls_nil _).symm⟩,
        rfl⟩

/-- **A write** takes effect at once, and is recorded if it could be made. -/
theorem enqueueWrite_spec (address : UInt32) (data : Bytes) :
    Did E t (t.enqueueWrite E address data)
        (if (E.writeRam address data t.live.session.core).1 then
          [.writeMemory address.toUInt64 data] else []) ∧
      (t.enqueueWrite E address data).live.session.core =
        (E.writeRam address data t.live.session.core).2 := by
  have hnot : ¬ t.live.session.isPlayingBack = true := by
    rw [h.undriven.isPlayingBack]
    exact Bool.false_ne_true
  have hmid : ¬ E.isMidFrame t.live.session.core = true := by
    rw [h.midFrame]
    exact Bool.false_ne_true
  have hwrites : { t with writes := [] } = t := by rw [← h.writes]
  rw [enqueueWrite, if_neg hnot, flushWrites, if_neg hnot, if_neg hmid, h.writes, List.nil_append,
    List.foldl_cons, List.foldl_nil]
  dsimp only
  rw [hwrites]
  exact write_spec h address data

/-- **A reset** is recorded. -/
theorem hardReset_gives {fuel : Nat} {env : Surroundings}
    (hgives : Gives (t.hardReset E fuel env) t') :
    Did E t t' [.resetConsole] ∧ t'.live.session.core = E.hardReset t.live.session.core := by
  have hnot : ¬ t.live.session.isPlayingBack = true := by
    rw [h.undriven.isPlayingBack]
    exact Bool.false_ne_true
  rw [hardReset, if_neg hnot, gives_bind] at hgives
  obtain ⟨t₁, hfinish, hgives⟩ := hgives
  rw [finishCurrentFrame_eq h env fuel, gives_pure_iff] at hfinish
  subst hfinish
  have hdid := setConsole_spec h (E.isMidFrame_hardReset t.live.session.core) [.resetConsole]
  dsimp only at hgives
  rw [unlatchInput_eq hdid.ready, gives_pure_iff] at hgives
  subst hgives
  exact ⟨hdid, rfl⟩

/-- **A state that is loaded** is recorded; that a frame is drawn from it is undone. -/
theorem loadSaveState_gives {fuel : Nat} {state : Bytes}
    (hgives : Gives (t.loadSaveState E fuel state) t') : Did E t t' [.loadSaveState state] ∧
      ∃ c, t'.live.session.core = (E.loadSaveState state c).2 := by
  have hnot : ¬ t.live.session.isPlayingBack = true := by
    rw [h.undriven.isPlayingBack]
    exact Bool.false_ne_true
  rw [loadSaveState, if_neg hnot] at hgives
  dsimp only at hgives
  obtain ⟨t₁, hdraw, hgives⟩ := gives_bind.1 hgives
  obtain ⟨core, -, hcore⟩ := gives_bind.1 hdraw
  have hdid := setConsole_spec h (E.isMidFrame_loadSaveState state core) [.loadSaveState state]
  rw [gives_pure_iff] at hcore hgives
  subst hcore
  have hdone : (((t.setConsole (E.loadSaveState state t.live.session.core).2).record
      [.loadSaveState state]).setConsole (E.loadSaveState state core).2) =
      (t.setConsole (E.loadSaveState state core).2).record [.loadSaveState state] := rfl
  rw [hdone, unlatchInput_eq hdid.ready] at hgives
  subst hgives
  exact ⟨hdid, core, rfl⟩

/-- **The input for the next frame.** -/
theorem enqueueInput_spec (input : Input) :
    Ready E (t.enqueueInput input) ∧ (t.enqueueInput input).heldInput = input :=
  ⟨⟨h.undriven, h.midFrame, h.writes, ⟨h.layers.rapid, h.layers.toggled, h.layers.bot,
    h.layers.pending, h.layers.timed⟩, h.unlatched⟩, rfl⟩

end

end ImportCore

/-! ## A frame -/

/-- A core whose frame has begun: the console has its input. -/
structure Running (t : ImportCore C) : Prop where
  undriven : Undriven t.live.session
  writes : t.writes = []
  layers : OneLayer t.live.layers
  latched : t.live.layers.inputLatched = true
  enqueued : t.live.layers.nextInput = none

section Frame

variable {t t' : ImportCore C}

theorem Running.flushWrites_eq (h : Running t) : t.flushWrites E = t := by
  rw [ImportCore.flushWrites, h.writes, List.foldl_nil]
  have hwrites : { t with writes := [] } = t := by rw [← h.writes]
  split_ifs
  · rfl
  · rfl
  · exact hwrites

theorem Running.updateInput_eq (h : Running t) : t.live.updateInput E.toPacedCore = t.live := by
  rw [LiveCore.updateInput, if_neg (Bool.not_eq_true _ ▸ h.undriven.isPlayingBack)]
  split_ifs with hmid hskip
  · rfl
  · rfl
  · exact absurd ⟨h.latched, Option.isNone_iff_eq_none.2 h.enqueued⟩ hskip

/-- The run of a core whose input has been updated. -/
theorem doRunFn_eq {kind : RunKind} {env : Surroundings}
    (hstalled : t.live.session.replayStalled = false) (h : Running t')
    (hupdate : { t with live := t.live.updateInput E.toPacedCore } = t') :
    t.doRunFn E kind env =
      { t' with
        live := (t'.setConsole (E.runAs kind t'.live.session.core).2).live.afterRun E.toPacedCore
          (E.runAs kind t'.live.session.core).1 env } := by
  have hwaits : ¬ t'.live.session.replayWaiting = true := by
    rw [h.undriven.waiting]
    exact Bool.false_ne_true
  rw [ImportCore.doRunFn, if_neg (by rw [hstalled]; exact Bool.false_ne_true)]
  dsimp only
  rw [hupdate, h.flushWrites_eq, if_neg hwaits]

/-- **A frame begins**: the console is given its input. -/
theorem exists_running (h : Ready E t) : ∃ t₁, Running t₁ ∧
    t₁.live.session.core = E.setInputEncoded (E.encodeInput t.heldInput) t.live.session.core ∧
    t₁.heldInput = t.heldInput ∧
    t₁.live.session.totalFrames = t.live.session.totalFrames ∧
    t₁.live.session.replayFileRecorder = t.live.session.replayFileRecorder.map (fun file ↦
      { file with calls := file.calls ++ [.setInput (E.encodeInput t.heldInput)] }) ∧
    ∀ kind env, t.doRunFn E kind env = t₁.doRunFn E kind env := by
  have hnot : ¬ t.live.session.isPlayingBack = true := by
    rw [h.undriven.isPlayingBack]
    exact Bool.false_ne_true
  have hmid : ¬ E.isMidFrame t.live.session.core = true := by
    rw [h.midFrame]
    exact Bool.false_ne_true
  have hlatched : ¬ (t.live.layers.inputLatched = true ∧
      t.live.layers.nextInput.isNone = true) := by
    rw [h.unlatched]
    exact fun hboth ↦ Bool.false_ne_true hboth.1
  have hinput :
      ({ t.live.layers with inputLatched := true }.computePendingInput).1 = t.heldInput := by
    rw [InputLayers.computePendingInput]
    dsimp only
    rw [h.layers.rapid, h.layers.toggled, h.layers.bot, h.layers.timed, h.layers.pending]
    rfl
  have hrunning : Running { t with live := t.live.updateInput E.toPacedCore } := by
    rw [LiveCore.updateInput, if_neg hnot, if_neg hmid, if_neg hlatched]
    exact ⟨⟨h.undriven.player, h.undriven.follower, h.undriven.stalled, h.undriven.waiting⟩,
      h.writes, ⟨h.layers.rapid, h.layers.toggled, h.layers.bot, rfl, by
        show t.live.layers.timedPresses ++ t.live.layers.pendingTimedPresses = []
        rw [h.layers.timed, h.layers.pending]
        rfl⟩, rfl, rfl⟩
  refine ⟨_, hrunning, ?_, ?_, ?_, ?_, fun kind env ↦ ?_⟩
  · dsimp only
    rw [LiveCore.updateInput, if_neg hnot, if_neg hmid, if_neg hlatched]
    exact congrArg (fun input ↦ E.setInputEncoded (E.encodeInput input) _) hinput
  · rw [ImportCore.heldInput]
    dsimp only
    rw [LiveCore.updateInput, if_neg hnot, if_neg hmid, if_neg hlatched]
    rfl
  · dsimp only
    rw [LiveCore.updateInput, if_neg hnot, if_neg hmid, if_neg hlatched]
    rfl
  · dsimp only
    rw [LiveCore.updateInput, if_neg hnot, if_neg hmid, if_neg hlatched]
    exact congrArg (fun input ↦ t.live.session.replayFileRecorder.map fun file ↦
      { file with calls := file.calls ++ [Call.setInput (E.encodeInput input)] }) hinput
  · rw [doRunFn_eq h.undriven.stalled hrunning rfl, doRunFn_eq hrunning.undriven.stalled hrunning
      (by rw [hrunning.updateInput_eq])]

theorem OneLayer.framesCompleted {layers : InputLayers} (h : OneLayer layers) (frames : Nat) :
    OneLayer (layers.framesCompleted frames) := by
  refine ⟨?_, h.toggled, h.bot, h.pending, ?_⟩
  · rw [InputLayers.framesCompleted, h.rapid]
    rfl
  · rw [InputLayers.framesCompleted, h.timed]
    rfl

/-- What follows a run that completes a frame. -/
theorem afterRun_eq {live : LiveCore C} {time : RunTime} (hsome : time.frames ≠ 0)
    (env : Surroundings) : live.afterRun E.toPacedCore time env =
      { session := live.session.afterRun E.toEmulatorCore time env
        layers := live.layers.framesCompleted time.frames.toNat
        publisher := (live.publishFrames E.toPacedCore time.frames.toNat env.now).publisher
        held := live.held } := by
  rw [LiveCore.afterRun]
  dsimp only
  rw [if_neg hsome, publishFrames_eq]

/-- **One run of the console** within a frame. -/
theorem doRunFn_spec (h : Running t) (env : Surroundings) :
    (t.doRunFn E .hidden env).live.session.core = (E.runHidden t.live.session.core).2 ∧
      (t.doRunFn E .hidden env).heldInput = t.heldInput ∧
      (t.doRunFn E .hidden env).live.session.totalFrames =
        t.live.session.totalFrames + (E.runHidden t.live.session.core).1.frames ∧
      if (E.runHidden t.live.session.core).1.frames = 0 then
        Running (t.doRunFn E .hidden env) ∧
          (t.doRunFn E .hidden env).live.session.replayFileRecorder =
            t.live.session.replayFileRecorder
      else Ready E (t.doRunFn E .hidden env) ∧ ∃ ms keyframes,
        (∀ call ∈ keyframes, call.isKeyframe = true) ∧
          (t.doRunFn E .hidden env).live.session.replayFileRecorder =
            t.live.session.replayFileRecorder.map fun file ↦
              { file with calls := file.calls ++ .nextFrame ms :: keyframes } := by
  have hupdate : { t with live := t.live.updateInput E.toPacedCore } = t := by
    rw [h.updateInput_eq]
  rw [doRunFn_eq h.undriven.stalled h hupdate]
  have hrun : E.runAs .hidden t.live.session.core = E.runHidden t.live.session.core := rfl
  rw [hrun]
  have hundriven : Undriven (t.setConsole (E.runHidden t.live.session.core).2).live.session :=
    ⟨h.undriven.player, h.undriven.follower, h.undriven.stalled, h.undriven.waiting⟩
  obtain ⟨calls, hwrote, hframes, hcalls⟩ := wrote_afterRun (E := E)
    (E.frames_runHidden_le t.live.session.core) env hundriven
  by_cases hnone : (E.runHidden t.live.session.core).1.frames = 0
  · rw [if_pos hnone] at hcalls ⊢
    subst hcalls
    rw [LiveCore.afterRun]
    dsimp only
    rw [if_pos hnone]
    refine ⟨hwrote.core, rfl, hframes, ⟨hwrote.undriven hundriven, h.writes, h.layers, h.latched,
      h.enqueued⟩, ?_⟩
    rw [hwrote.file]
    exact SuperShuckieCore.append_calls_nil _
  · rw [if_neg hnone] at hcalls ⊢
    obtain ⟨ms, keyframes, rfl, hkeyframes⟩ := hcalls
    rw [afterRun_eq hnone]
    refine ⟨hwrote.core, rfl, hframes, ⟨hwrote.undriven hundriven, ?_, h.writes,
      h.layers.framesCompleted _, rfl⟩, ms, keyframes, hkeyframes, hwrote.file⟩
    dsimp only
    rw [hwrote.core]
    exact E.isMidFrame_runHidden t.live.session.core hnone

/-- The loop over the runs of a frame, once it has begun. -/
theorem runFrame_of_running {env : Surroundings} {before : UInt64} {fuel : Nat} (h : Running t)
    (hbefore : t.live.session.totalFrames = before)
    (hgives : Gives (Importing.runFrame E env before fuel t) t') :
    E.completeFrame fuel t.live.session.core = some t'.live.session.core ∧ Ready E t' ∧
      t'.heldInput = t.heldInput ∧ ∃ ms keyframes, (∀ call ∈ keyframes, call.isKeyframe = true) ∧
        t'.live.session.replayFileRecorder = t.live.session.replayFileRecorder.map fun file ↦
          { file with calls := file.calls ++ .nextFrame ms :: keyframes } := by
  induction fuel generalizing t with
  | zero =>
    unfold Importing.runFrame at hgives
    rw [if_pos (Or.inl hbefore)] at hgives
    exact absurd hgives not_gives_panics
  | succ fuel ih =>
    unfold Importing.runFrame at hgives
    rw [if_pos (Or.inl hbefore)] at hgives
    dsimp only at hgives
    obtain ⟨hcore, hheld, htotal, hrest⟩ := doRunFn_spec (E := E) h env
    rw [GameBoy.completeFrame]
    by_cases hnone : (E.runHidden t.live.session.core).1.frames = 0
    · rw [if_pos hnone] at hrest
      rw [if_neg (not_not.2 hnone)]
      rw [hnone, UInt64.add_zero, hbefore] at htotal
      obtain ⟨hcomplete, hready, hheld', ms, keyframes, hkeyframes, hfile⟩ :=
        ih hrest.1 htotal hgives
      rw [hcore] at hcomplete
      rw [hrest.2] at hfile
      exact ⟨hcomplete, hready, hheld'.trans hheld, ms, keyframes, hkeyframes, hfile⟩
    · rw [if_neg hnone] at hrest
      obtain ⟨hready, ms, keyframes, hkeyframes, hfile⟩ := hrest
      have hone := toNat_frames_runAs (E := E.toPacedCore) .hidden t.live.session.core hnone
      have hnext : ¬ ((t.doRunFn E .hidden env).live.session.totalFrames = before ∨
          E.isMidFrame (t.doRunFn E .hidden env).live.session.core = true) := by
        rw [hready.midFrame, htotal, hbefore]
        rintro (hsame | hmid)
        · have hzero : (E.runHidden t.live.session.core).1.frames = 0 := by
            simpa using hsame
          exact hnone hzero
        · exact Bool.false_ne_true hmid
      unfold Importing.runFrame at hgives
      rw [if_neg hnext, gives_pure_iff] at hgives
      subst hgives
      rw [if_pos hnone, hcore]
      exact ⟨rfl, hready, hheld, ms, keyframes, hkeyframes, hfile⟩

/-- **A frame** is recorded as its input, its marker and the keyframe after it, if one is due. -/
theorem runFrame_spec {env : Surroundings} {fuel : Nat} (h : Ready E t)
    (hgives : Gives (Importing.runFrame E env t.live.session.totalFrames fuel t) t') :
    E.completeFrame fuel (E.setInputEncoded (E.encodeInput t.heldInput) t.live.session.core) =
        some t'.live.session.core ∧
      ∃ ms keyframes, (∀ call ∈ keyframes, call.isKeyframe = true) ∧
        Did E t t' (.setInput (E.encodeInput t.heldInput) :: .nextFrame ms :: keyframes) := by
  obtain ⟨t₁, hrunning, hcore, hheld, htotal, hfile, hrun⟩ := exists_running h
  have hgives' : Gives (Importing.runFrame E env t.live.session.totalFrames fuel t₁) t' := by
    unfold Importing.runFrame at hgives ⊢
    rw [if_pos (Or.inl rfl)] at hgives
    rw [if_pos (Or.inl htotal)]
    cases fuel with
    | zero => exact hgives
    | succ fuel =>
      dsimp only at hgives ⊢
      rw [← hrun]
      exact hgives
  obtain ⟨hcomplete, hready, hheld', ms, keyframes, hkeyframes, hfile'⟩ :=
    runFrame_of_running hrunning htotal hgives'
  rw [hcore] at hcomplete
  refine ⟨hcomplete, ms, keyframes, hkeyframes, hready, hheld'.trans hheld, ?_⟩
  rw [hfile', hfile, Option.map_map]
  refine congrArg (Option.map · _) (funext fun file ↦ ?_)
  rw [Function.comp_apply, List.append_assoc]
  rfl

end Frame

end Legacy

end SuperShuckie
