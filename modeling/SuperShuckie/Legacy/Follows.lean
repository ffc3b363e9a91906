import SuperShuckie.Legacy.Boundaries
import SuperShuckie.Legacy.Replays
import SuperShuckie.Legacy.Steps

/-!
# An import follows the game

`Does` relates a step of an import to the step of the game that it stands for: a core that is at the
place of the game (`Alike`) stays there, and so does the console of a core that plays the calls that
the step makes.  Every packet at a frame boundary is such a step (`apply_does`), and so is a frame
(`runFrame_does`).

`Follows` is what this comes to for an import that is under way.  The game is lost once a state is
loaded that cannot be loaded; the import then goes on.
-/

set_option autoImplicit false

namespace SuperShuckie

namespace Legacy

open ByteFormat SuperShuckie.Convert Fallible LegacyGame

variable {C : Type} (E : GameBoy C) (fuel : Nat)

/-! ## Steps -/

/-- A core is at the place of the game. -/
structure Alike (core : ImportCore C) (states : StoredStates) (g : LegacyGame C) : Prop where
  console : E.SameButInput core.live.session.core g.console
  held : core.heldInput = inputFromMask g.held
  states : states = g.states

/-- A step of an import does what the game does next. -/
structure Does (core core' : ImportCore C) (states states' : StoredStates)
    (packets : List LegacyPacket) (calls : List Call)
    (next : LegacyGame C → Option (List C × LegacyGame C)) : Prop where
  ready : Ready E core'
  file : core'.live.session.replayFileRecorder =
    core.live.session.replayFileRecorder.map fun file ↦ { file with calls := file.calls ++ calls }
  stored : states' = storedBy states packets
  /-- The game is lost with a state that cannot be loaded. -/
  lost : ∀ g, Alike E core states g → next g = none →
    ∃ state ∈ statesLoaded states packets, E.loads state = false
  alike : ∀ g consoles g', Alike E core states g → next g = some (consoles, g') →
    Alike E core' states' g' ∧ ∀ c, E.SameButInput c g.console →
      ∃ c', PlaysAs E fuel calls c consoles c' ∧ E.SameButInput c' g'.console

/-- A packet, which runs no frame. -/
def LegacyGame.packetStep (packet : LegacyPacket) (g : LegacyGame C) :
    Option (List C × LegacyGame C) := (g.apply E packet).map fun g' ↦ ([], g')

/-- A frame. -/
def LegacyGame.frameStep (g : LegacyGame C) : Option (List C × LegacyGame C) :=
  (E.completeFrame fuel (g.frameStart E)).map fun console ↦
    ([g.frameStart E], { g with console })

variable {E fuel} {core core' : ImportCore C} {states states' : StoredStates} {calls : List Call}
  {packet : LegacyPacket} {g g' : LegacyGame C}

/-- A packet that is applied between frames, which leaves the input as it is. -/
theorem Did.does (hdid : Did E core core' calls) (hstates : states' = storedBy states [packet])
    (hlost : ∀ g, Alike E core states g → g.apply E packet = none →
      ∃ state ∈ statesLoaded states [packet], E.loads state = false)
    (halike : ∀ g g', Alike E core states g → g.apply E packet = some g' → g'.held = g.held ∧
      E.SameButInput core'.live.session.core g'.console ∧ ∀ c, E.SameButInput c g.console →
        ∃ c', PlaysAs E fuel calls c [] c' ∧ E.SameButInput c' g'.console) :
    Does E fuel core core' states states' [packet] calls (packetStep E packet) where
  ready := hdid.ready
  file := hdid.file
  stored := hstates
  lost g hg hnone := hlost g hg (Option.map_eq_none_iff.1 hnone)
  alike g consoles g' hg hsome := by
    obtain ⟨next, happly, heq⟩ := Option.map_eq_some_iff.1 hsome
    cases heq
    obtain ⟨hheld, hconsole, hplays⟩ := halike g g' hg happly
    refine ⟨⟨hconsole, ?_, ?_⟩, hplays⟩
    · rw [hdid.held, hg.held, hheld]
    · rw [hstates, hg.states, (apply_eq_some happly).1]

theorem did_nothing (h : Ready E core) : Did E core core [] :=
  ⟨h, rfl, (SuperShuckieCore.append_calls_nil _).symm⟩

/-- A packet that does nothing. -/
theorem does_nothing (h : Ready E core) (hstates : storedBy states [packet] = states)
    (happly : ∀ g : LegacyGame C, g.apply E packet = some g) :
    Does E fuel core core states states [packet] [] (packetStep E packet) := by
  refine (did_nothing h).does hstates.symm ?_ ?_
  · intro g hg hnone
    rw [happly] at hnone
    cases hnone
  · intro g g' hg hsome
    rw [happly] at hsome
    cases hsome
    exact ⟨rfl, hg.console, fun c hc ↦ ⟨c, playsAs_nil c, hc⟩⟩

/-- **A write.** -/
theorem enqueueWrite_does (h : Ready E core) {bank address : UInt16} {byte : UInt8}
    (halike : addressedAlike bank address = true) :
    ∃ calls, framesEnded calls = 0 ∧
      Does E fuel core (core.enqueueWrite E address.toUInt32 [byte]) states states
        [.writeMemory bank address byte] calls
        (packetStep E (.writeMemory bank address byte)) := by
  obtain ⟨hdid, hcore⟩ := ImportCore.enqueueWrite_spec h address.toUInt32 [byte]
  refine ⟨_, ?_, hdid.does rfl ?_ ?_⟩
  · split_ifs <;> rfl
  · intro g hg hnone
    rw [apply, if_pos halike] at hnone
    cases hnone
  · intro g g' hg hsome
    rw [apply, if_pos halike] at hsome
    cases hsome
    obtain ⟨hwrote, hwrites⟩ := hg.console.writeRam address.toUInt32 [byte]
    refine ⟨rfl, ?_, fun c hc ↦ ?_⟩
    · rw [hcore]
      exact hwrites
    · obtain ⟨hwrote', hwrites'⟩ := hc.writeRam address.toUInt32 [byte]
      cases hsucceeds : (E.writeRam address.toUInt32 [byte] core.live.session.core).1 with
      | true => exact ⟨_, playsAs_writeMemory address.toUInt32 [byte] c, hwrites'⟩
      | false =>
        rw [hwrote] at hsucceeds
        refine ⟨c, playsAs_nil c, hc.trans ?_⟩
        dsimp only
        rw [E.writeRam_refused _ _ _ hsucceeds]
        exact .refl g.console

/-- **A reset.** -/
theorem hardReset_does {env : Surroundings} (h : Ready E core)
    (hgives : Gives (core.hardReset E fuel env) core') :
    Does E fuel core core' states states [.reset] [.resetConsole]
      (packetStep E .reset) := by
  obtain ⟨hdid, hcore⟩ := ImportCore.hardReset_gives h hgives
  refine hdid.does rfl ?_ ?_
  · intro g hg hnone
    cases hnone
  · intro g g' hg hsome
    cases hsome
    refine ⟨rfl, ?_, fun c hc ↦ ⟨_, playsAs_resetConsole c, hc.hardReset⟩⟩
    rw [hcore]
    exact hg.console.hardReset

/-- **A state that is loaded.** -/
theorem loadSaveState_does {state : Bytes} (h : Ready E core)
    (hgives : Gives (core.loadSaveState E fuel state) core')
    (hstates : states' = storedBy states [packet])
    (hlost : ∀ g, Alike E core states g → g.apply E packet = none →
      state ∈ statesLoaded states [packet] ∧ E.loads state = false)
    (hloads : ∀ g g', Alike E core states g → g.apply E packet = some g' → g'.held = g.held ∧
      E.loads state = true ∧ g'.console = (E.loadSaveState state g.console).2) :
    Does E fuel core core' states states' [packet] [.loadSaveState state]
      (packetStep E packet) := by
  obtain ⟨hdid, before, hcore⟩ := ImportCore.loadSaveState_gives h hgives
  refine hdid.does hstates (fun g hg hnone ↦ ⟨state, hlost g hg hnone⟩) ?_
  intro g g' hg hsome
  obtain ⟨hheld, hstate, hconsole⟩ := hloads g g' hg hsome
  refine ⟨hheld, ?_, fun c hc ↦ ⟨_, playsAs_loadSaveState state c, ?_⟩⟩
  · rw [hcore, hconsole]
    exact GameBoy.sameButInput_loadSaveState hstate _ _
  · rw [hconsole]
    exact GameBoy.sameButInput_loadSaveState hstate _ _

/-- **An input.** -/
theorem enqueueInput_does (h : Ready E core) (mask : UInt8) :
    Does E fuel core (core.enqueueInput (inputFromMask mask)) states states [.input mask] []
      (packetStep E (.input mask)) where
  ready := (ImportCore.enqueueInput_spec h _).1
  file := (SuperShuckieCore.append_calls_nil _).symm
  stored := rfl
  lost g hg hnone := by cases hnone
  alike g consoles g' hg hsome := by
    cases hsome
    exact ⟨⟨hg.console, (ImportCore.enqueueInput_spec h _).2, hg.states⟩,
      fun c hc ↦ ⟨c, playsAs_nil c, hc⟩⟩

variable {s s' : Importing C} {frame : Nat} {env : Surroundings}

/-- **A packet at a frame boundary** does what the game does, with calls that end no frame. -/
theorem apply_does (h : Ready E s.core) (hgives : Gives (s.apply E fuel frame env packet) s') :
    s'.reader = s.reader ∧ s'.pending = s.pending ∧ ∃ calls, framesEnded calls = 0 ∧
      Does E fuel s.core s'.core s.states s'.states [packet] calls
        (packetStep E packet) := by
  cases packet with
  | ignored =>
    rw [Importing.apply, gives_pure_iff] at hgives
    subst hgives
    exact ⟨rfl, rfl, [], rfl, does_nothing h rfl fun _ ↦ rfl⟩
  | input mask =>
    rw [Importing.apply, gives_pure_iff] at hgives
    subst hgives
    exact ⟨rfl, rfl, [], rfl, enqueueInput_does h mask⟩
  | reset =>
    rw [Importing.apply] at hgives
    obtain ⟨core, hreset, hgives⟩ := gives_bind.1 hgives
    rw [gives_pure_iff] at hgives
    subst hgives
    exact ⟨rfl, rfl, _, rfl, hardReset_does h hreset⟩
  | writeMemory bank address byte =>
    rw [Importing.apply] at hgives
    split_ifs at hgives with halike
    · rw [gives_pure_iff] at hgives
      subst hgives
      obtain ⟨calls, hframes, hdoes⟩ := enqueueWrite_does h halike
      exact ⟨rfl, rfl, calls, hframes, hdoes⟩
    · rw [gives_pure_iff] at hgives
      subst hgives
      exact ⟨rfl, rfl, [], rfl, does_nothing h rfl fun g ↦ if_neg halike⟩
  | loadState index =>
    rw [Importing.apply] at hgives
    obtain ⟨state, hstate, hgives⟩ := gives_bind.1 hgives
    obtain ⟨core, hload, hgives⟩ := gives_bind.1 hgives
    rw [gives_okOr] at hstate
    rw [gives_pure_iff] at hgives
    subst hgives
    have happly (g : LegacyGame C) (hg : Alike E s.core s.states g) :
        g.apply E (.loadState index) = g.load E state := by
      rw [apply, ← hg.states, hstate]
      rfl
    refine ⟨rfl, rfl, _, rfl, loadSaveState_does h hload rfl ?_ ?_⟩
    · intro g hg hnone
      rw [happly g hg, load] at hnone
      split_ifs at hnone with hloads
      refine ⟨?_, Bool.not_eq_true _ ▸ hloads⟩
      rw [statesLoaded, hstate]
      exact List.mem_append_left _ List.mem_cons_self
    · intro g g' hg hsome
      rw [happly g hg] at hsome
      obtain ⟨hloads, rfl⟩ := load_eq_some hsome
      exact ⟨rfl, hloads, rfl⟩
  | addState index data =>
    rw [Importing.apply] at hgives
    cases hload : E.loadSaveState data E.fresh with
    | mk result probe =>
      have hloads : E.loads data = true ↔ result = .ok () := by
        rw [← GameBoy.loadSaveState_ok E.fresh, hload]
      cases result with
      | error e =>
        rw [hload] at hgives
        exact absurd hgives not_gives_throw
      | ok _ =>
        have hloads : E.loads data = true := hloads.2 rfl
        -- The memory is compared with that of the state, whatever console it is loaded into.
        have hsame (g : LegacyGame C) (hg : Alike E s.core s.states g) :
            E.sameMemory g.console (E.loadSaveState data g.console).2 =
              E.sameMemory s.core.live.session.core probe := by
          have hprobe := GameBoy.sameButInput_loadSaveState hloads g.console E.fresh
          rw [hload] at hprobe
          exact hg.console.symm.sameMemory hprobe
        rw [hload] at hgives
        dsimp only at hgives
        split_ifs at hgives with hmemory
        · rw [pure_bind, gives_pure_iff] at hgives
          subst hgives
          have happly (g : LegacyGame C) (hg : Alike E s.core s.states g) :
              g.apply E (.addState index data) =
                some { g with states := g.states.insert index data } := by
            refine if_neg fun hdiffers ↦ hdiffers.2 ?_
            rw [hsame g hg]
            exact hmemory
          refine ⟨rfl, rfl, [], rfl, (did_nothing h).does rfl ?_ ?_⟩
          · intro g hg hnone
            rw [happly g hg] at hnone
            cases hnone
          · intro g g' hg hsome
            rw [happly g hg] at hsome
            cases hsome
            exact ⟨rfl, hg.console, fun c hc ↦ ⟨c, playsAs_nil c, hc⟩⟩
        · obtain ⟨core, hresync, hgives⟩ := gives_bind.1 hgives
          rw [pure_bind, gives_pure_iff] at hgives
          subst hgives
          have happly (g : LegacyGame C) (hg : Alike E s.core s.states g) :
              g.apply E (.addState index data) =
                some ⟨(E.loadSaveState data g.console).2, g.held,
                  g.states.insert index data⟩ := by
            refine (if_pos ⟨hloads, ?_⟩).trans (if_pos hloads)
            rw [hsame g hg]
            exact hmemory
          refine ⟨rfl, rfl, _, rfl, loadSaveState_does h hresync rfl ?_ ?_⟩
          · intro g hg hnone
            rw [happly g hg] at hnone
            cases hnone
          · intro g g' hg hsome
            rw [happly g hg] at hsome
            cases hsome
            exact ⟨rfl, hloads, rfl⟩

/-- **A frame** does what the game does, with calls that end one frame. -/
theorem runFrame_does (states : StoredStates) (h : Ready E core)
    (hgives : Gives (Importing.runFrame E env core.live.session.totalFrames fuel core) core') :
    ∃ calls, framesEnded calls = 1 ∧
      Does E fuel core core' states states [] calls (frameStep E fuel) := by
  obtain ⟨hcomplete, ms, keyframes, hkeyframes, hdid⟩ := runFrame_spec h hgives
  have hstart (g : LegacyGame C) (hg : Alike E core states g) :
      E.encodeInput core.heldInput = [g.held] := by
    rw [E.encodeInput_eq, hg.held, gameBoyMask_inputFromMask]
  have hframe (g : LegacyGame C) (hg : Alike E core states g) :
      E.completeFrame fuel (g.frameStart E) = some core'.live.session.core := by
    rw [hstart g hg, hg.console] at hcomplete
    exact hcomplete
  refine ⟨_, framesEnded_frame hkeyframes _ ms, hdid.ready, hdid.file, rfl, ?_, ?_⟩
  · intro g hg hnone
    rw [frameStep, hframe g hg] at hnone
    cases hnone
  · intro g consoles g' hg hsome
    rw [frameStep, hframe g hg] at hsome
    cases hsome
    refine ⟨⟨.refl _, hdid.held.trans hg.held, hg.states⟩, fun c hc ↦ ⟨_, ?_, .refl _⟩⟩
    have hplays : PlaysAs E fuel (.setInput [g.held] :: .nextFrame ms :: keyframes) c
        [E.setInputEncoded [g.held] c] core'.live.session.core :=
      playsAs_frame hkeyframes (by rw [hc]; exact hframe g hg)
    rw [hc] at hplays
    rw [hstart g hg]
    exact hplays

/-! ## An import that is under way -/

/-- The game goes on: through more frames, unless it is lost. -/
def goesOn (game : Option (List C × LegacyGame C))
    (next : LegacyGame C → Option (List C × LegacyGame C)) : Option (List C × LegacyGame C) :=
  game.bind fun played ↦ (next played.2).map fun more ↦ (played.1 ++ more.1, more.2)

theorem goesOn_goesOn (game : Option (List C × LegacyGame C))
    (next next' : LegacyGame C → Option (List C × LegacyGame C)) :
    goesOn (goesOn game next) next' = goesOn game fun g ↦ goesOn (next g) next' := by
  cases game with
  | none => rfl
  | some played =>
    show goesOn ((next played.2).map _) next' = (goesOn (next played.2) next').map _
    cases next played.2 with
    | none => rfl
    | some more =>
      show (next' more.2).map _ = ((next' more.2).map _).map _
      rw [Option.map_map]
      refine congrArg (Option.map · _) (funext fun last ↦ ?_)
      rw [Function.comp_apply, List.append_assoc]

theorem goesOn_start (consoles : List C) (g : LegacyGame C) :
    goesOn (some (consoles, g)) (fun g ↦ some ([], g)) = some (consoles, g) := by
  show some (consoles ++ [], g) = _
  rw [List.append_nil]

variable (E fuel) in
/-- An import that has made `done` of its packets and recorded `frame` frames onto `replay`, and
the game by then: the core is at the place of the game, and so is one that plays the replay. -/
structure Follows (replay : Tape) (done : List LegacyPacket) (frame : Nat)
    (game : Option (List C × LegacyGame C)) (core : ImportCore C) (states : StoredStates) :
    Prop where
  ready : Ready E core
  stored : states = storedBy (fun _ ↦ none) done
  lost : game = none → ∃ state ∈ statesLoaded (fun _ ↦ none) done, E.loads state = false
  recorded : ∃ file, core.live.session.replayFileRecorder = some file ∧
    framesEnded file.calls = frame ∧ ∀ consoles g, game = some (consoles, g) →
      Alike E core states g ∧ ∃ c, playReplay E fuel (replay.recordAll file.calls) =
        some (consoles, c) ∧ E.SameButInput c g.console

/-- **A step of an import** follows the game. -/
theorem Follows.does {replay : Tape} {done packets : List LegacyPacket} {frames : Nat}
    {game : Option (List C × LegacyGame C)} {next : LegacyGame C → Option (List C × LegacyGame C)}
    (h : Follows E fuel replay done frame game core states)
    (hdoes : Does E fuel core core' states states' packets calls next)
    (hframes : framesEnded calls = frames) :
    Follows E fuel replay (done ++ packets) (frame + frames) (goesOn game next) core' states' := by
  obtain ⟨file, hfile, hcount, hgame⟩ := h.recorded
  refine ⟨hdoes.ready, ?_, ?_, { file with calls := file.calls ++ calls }, ?_, ?_, ?_⟩
  · rw [hdoes.stored, h.stored, storedBy_append]
  · intro hnone
    rw [statesLoaded_append, ← h.stored]
    cases game with
    | none =>
      obtain ⟨state, hstate, hloads⟩ := h.lost rfl
      exact ⟨state, List.mem_append_left _ hstate, hloads⟩
    | some played =>
      obtain ⟨state, hstate, hloads⟩ := hdoes.lost played.2 (hgame _ _ rfl).1
        (Option.map_eq_none_iff.1 hnone)
      exact ⟨state, List.mem_append_right _ hstate, hloads⟩
  · rw [hdoes.file, hfile, Option.map_some]
  · dsimp only
    rw [framesEnded, List.countP_append, ← framesEnded, ← framesEnded, hcount, hframes]
  · intro consoles g hsome
    obtain ⟨⟨before, g₀⟩, hbefore, hnext⟩ := Option.bind_eq_some_iff.1 hsome
    obtain ⟨⟨more, g'⟩, hmore, heq⟩ := Option.map_eq_some_iff.1 hnext
    cases heq
    obtain ⟨halike, c, hplay, hc⟩ := hgame before g₀ hbefore
    obtain ⟨halike', hplays⟩ := hdoes.alike g₀ more g' halike hmore
    obtain ⟨c', hplays, hc'⟩ := hplays c hc
    refine ⟨halike', c', ?_, hc'⟩
    dsimp only
    rw [recordAll_append]
    exact hplays.playReplay_eq hplay

end Legacy

end SuperShuckie
