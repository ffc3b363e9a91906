import SuperShuckie.Legacy.Runs
import SuperShuckie.Recording.Agreement

/-!
# Imports are faithful but for what they ignore

An import that succeeds records the game that starts from the states loaded at frame 0 alone
(`importLegacyReplay_follows`).  So its replay is faithful exactly if the other packets at frame 0
make no difference and every state that is loaded can be loaded
(`importLegacyReplay_faithful_iff`).
-/

set_option autoImplicit false

namespace SuperShuckie

namespace Legacy

open ByteFormat SuperShuckie.Convert Fallible

variable {C : Type} {E : GameBoy C} {fuel : Nat}

/-! ## Games from alike consoles -/

namespace LegacyGame

variable {g g' : LegacyGame C} {packets : List (Nat × LegacyPacket)}

/-- Two games that differ in the console only. -/
def SameButConsole (g g' : LegacyGame C) : Prop := g.held = g'.held ∧ g.states = g'.states

/-- What is held and stored does not depend on what the console goes through. -/
theorem SameButConsole.apply {packet : LegacyPacket} {next next' : LegacyGame C}
    (h : g.SameButConsole g') (happly : g.apply E packet = some next)
    (hload : g'.loadOnly E packet = some next') : next.SameButConsole next' := by
  obtain ⟨hheld, hstates⟩ := h
  cases packet with
  | addState index data =>
    cases hload
    rw [LegacyGame.apply] at happly
    split_ifs at happly with hdiffers
    · obtain ⟨-, rfl⟩ := load_eq_some happly
      exact ⟨hheld, congrArg (StoredStates.insert · index data) hstates⟩
    · cases happly
      exact ⟨hheld, congrArg (StoredStates.insert · index data) hstates⟩
  | loadState index =>
    obtain ⟨state, -, happly⟩ := Option.bind_eq_some_iff.1 happly
    obtain ⟨state', -, hload⟩ := Option.bind_eq_some_iff.1 hload
    obtain ⟨-, rfl⟩ := load_eq_some happly
    obtain ⟨-, rfl⟩ := load_eq_some hload
    exact ⟨hheld, hstates⟩
  | writeMemory bank address byte =>
    cases hload
    rw [LegacyGame.apply] at happly
    split_ifs at happly <;> cases happly <;> exact ⟨hheld, hstates⟩
  | input mask =>
    cases happly
    cases hload
    exact ⟨rfl, hstates⟩
  | reset =>
    cases happly
    cases hload
    exact ⟨hheld, hstates⟩
  | ignored =>
    cases happly
    cases hload
    exact ⟨hheld, hstates⟩

theorem SameButConsole.foldlM_apply {packets : List LegacyPacket} {last last' : LegacyGame C}
    (h : g.SameButConsole g') (happly : packets.foldlM (LegacyGame.apply E) g = some last)
    (hload : packets.foldlM (loadOnly E) g' = some last') : last.SameButConsole last' := by
  induction packets generalizing g g' with
  | nil =>
    cases happly
    cases hload
    exact h
  | cons packet packets ih =>
    rw [List.foldlM_cons] at happly hload
    obtain ⟨next, hnext, happly⟩ := Option.bind_eq_some_iff.1 happly
    obtain ⟨next', hnext', hload⟩ := Option.bind_eq_some_iff.1 hload
    exact ih (h.apply hnext hnext') happly hload

/-- Games from alike consoles go through the same frames. -/
theorem frames_alike {left frame : Nat} {consoles : List C} {last' : LegacyGame C}
    (h : g.SameButConsole g') (hconsole : E.SameButInput g.console g'.console)
    (hframes : frames E fuel packets left frame g' = some (consoles, last')) :
    ∃ last, frames E fuel packets left frame g = some (consoles, last) ∧
      E.SameButInput last.console last'.console := by
  obtain ⟨console, held, states⟩ := g
  obtain ⟨console', held', states'⟩ := g'
  obtain ⟨rfl, rfl⟩ := h
  cases left with
  | zero =>
    cases hframes
    exact ⟨_, rfl, hconsole⟩
  | succ left =>
    have hstart : (⟨console, held, states⟩ : LegacyGame C).frameStart E =
        (⟨console', held, states⟩ : LegacyGame C).frameStart E := hconsole [held]
    refine ⟨last', ?_, .refl _⟩
    rw [frames] at hframes ⊢
    rw [hstart]
    exact hframes

/-- Games that go through the same frames have started from alike consoles. -/
theorem alike_of_frames {left frame : Nat} {consoles : List C} {last last' : LegacyGame C}
    (h : g.SameButConsole g') (hframes : frames E fuel packets left frame g = some (consoles, last))
    (hframes' : frames E fuel packets left frame g' = some (consoles, last'))
    (hlast : E.SameButInput last.console last'.console) : E.SameButInput g.console g'.console := by
  cases left with
  | zero =>
    cases hframes
    cases hframes'
    exact hlast
  | succ left =>
    rw [frames] at hframes hframes'
    simp only [Option.bind_eq_bind, Option.bind_eq_some_iff] at hframes hframes'
    obtain ⟨_, -, _, -, ⟨rest, _⟩, -, heq⟩ := hframes
    obtain ⟨_, -, _, -, ⟨rest', _⟩, -, heq'⟩ := hframes'
    rw [Option.some.injEq, Prod.mk.injEq] at heq heq'
    have hstart : g.frameStart E = g'.frameStart E := (List.cons.inj (heq.1.trans heq'.1.symm)).1
    rw [frameStart, frameStart, h.1] at hstart
    exact GameBoy.sameButInput_of_eq hstart

end LegacyGame

/-! ## The recording -/

variable {x : Externals} {options : LegacyImportOptions} {final : Sink}

/-- **The recording starts** from the console as it is. -/
theorem startRecordingReplay_follows {core core' : ImportCore C} {replay : Tape}
    {done : List LegacyPacket} {g : LegacyGame C} (h : Ready E core)
    (hconsole : E.SameButInput core.live.session.core g.console)
    (hheld : core.heldInput = inputFromMask g.held)
    (hstored : g.states = storedBy (fun _ ↦ none) done)
    (hgives : Gives (core.startRecordingReplay E x options final fuel) (core', replay)) :
    Follows E fuel replay done 0 (some ([], g)) core' g.states ∧ frameCount replay.events = 0 := by
  rw [ImportCore.startRecordingReplay] at hgives
  obtain ⟨core₁, hfinish, hgives⟩ := gives_bind.1 hgives
  rw [ImportCore.finishCurrentFrame_eq h, gives_pure_iff] at hfinish
  subst hfinish
  dsimp only at hgives
  split at hgives
  · exact absurd hgives not_gives_panics
  · exact absurd hgives not_gives_throw
  · rename_i recorder _ _
    rw [gives_pure_iff] at hgives
    cases hgives
    have hsame : E.SameButInput (E.setInputEncoded (E.encodeInput core.live.layers.currentInput)
        core.live.session.core) g.console := (GameBoy.sameButInput_setInput _ _).trans hconsole
    refine ⟨⟨⟨⟨h.undriven.player, h.undriven.follower, h.undriven.stalled, h.undriven.waiting⟩, ?_,
      h.writes, ⟨h.layers.rapid, h.layers.toggled, h.layers.bot, h.layers.pending, h.layers.timed⟩,
      rfl⟩, hstored, (nomatch ·), ⟨recorder, []⟩, rfl, rfl, ?_⟩, rfl⟩
    · exact (E.isMidFrame_setInputEncoded _ _).trans h.midFrame
    · intro consoles g' hsome
      cases hsome
      refine ⟨⟨hsame, hheld, rfl⟩, _, ?_, hsame⟩
      obtain ⟨hloaded, hrestored⟩ := E.restores core.live.session.core E.fresh h.midFrame
      have hloads : E.loads (E.createSaveState core.live.session.core) = true :=
        (GameBoy.loadSaveState_ok E.fresh).1 hloaded
      show (if E.loads (E.createSaveState core.live.session.core) then
        playPackets E fuel [] (E.setInputEncoded (E.encodeInput core.live.layers.currentInput)
          (E.loadSaveState (E.createSaveState core.live.session.core) E.fresh).2) else none) = _
      rw [if_pos hloads, hrestored]
      rfl

theorem goesOn_nil (g : LegacyGame C) (next : LegacyGame C → Option (List C × LegacyGame C)) :
    goesOn (some ([], g)) next = next g := by
  show (next g).map _ = next g
  cases next g with
  | none => rfl
  | some played => rfl

/-- What an import has when it creates the new file. -/
theorem beginning_gives {input : String} {decompress : Bytes → LegacyStream} {file : Bytes}
    {total : Nat} {b : Beginning C}
    (h : Gives (beginning E options fuel input decompress file) (total, b, final)) :
    ∃ header r packets before after g, openPackets decompress input file = .ok (header, r) ∧
      Delivers r packets ∧ total = lastFrame 0 packets ∧ packets = before ++ after ∧
      (∀ packet ∈ before, packet.1 = 0) ∧ (∀ packet ∈ after, 0 < packet.1) ∧
      (before.map (·.2)).foldlM (LegacyGame.loadOnly E) (.start E) = some g ∧
      Ready E b.core ∧ E.SameButInput b.core.live.session.core g.console ∧
      b.core.heldInput = inputFromMask g.held ∧ b.states = g.states ∧
      ∃ rest, Delivers b.reader rest ∧ after = b.pending.toList ++ rest := by
  rw [beginning] at h
  obtain ⟨⟨header, r⟩, hopen, h⟩ := gives_bind.1 h
  have hopen : openPackets decompress input file = .ok (header, r) := by
    have hmapped := Option.some.inj hopen
    cases hresult : openPackets decompress input file with
    | error e =>
      rw [hresult] at hmapped
      cases hmapped
    | ok result =>
      rw [hresult] at hmapped
      exact congrArg Except.ok (Except.ok.inj hmapped)
  dsimp only at h
  split_ifs at h with hrom
  · exact absurd h not_gives_throw
  obtain ⟨total', hcount, h⟩ := gives_bind.1 h
  obtain ⟨b₀, hread, h⟩ := gives_bind.1 h
  split_ifs at h with hstarted
  · obtain ⟨final', -, h⟩ := gives_bind.1 h
    rw [gives_pure_iff] at h
    cases h
    obtain ⟨packets, hdelivers, htotal⟩ := countFrames_gives hcount
    obtain ⟨before, after, g, hsplit, hbefore, hhead, hfold, hbegun, hrest⟩ :=
      read_begun (begun_new r (options.surroundings 0).now) hdelivers rfl hread
    have hsorted := hdelivers.sorted
    rw [hsplit] at hsorted
    obtain ⟨hready, hheld⟩ := ImportCore.enqueueInput_spec hbegun.ready (inputFromMask b₀.inputMask)
    refine ⟨header, r, packets, before, after, g, hopen, hdelivers, htotal, hsplit, hbefore,
      lt_of_head (List.pairwise_append.1 hsorted).2.1 hhead, hfold, hready, hbegun.console, ?_,
      hbegun.states, hrest⟩
    rw [hheld, hbegun.mask]
  · exact absurd h not_gives_throw

theorem loadOnly_states {packets : List LegacyPacket} {g g' : LegacyGame C}
    (h : packets.foldlM (LegacyGame.loadOnly E) g = some g') :
    g'.states = storedBy g.states packets := by
  induction packets generalizing g with
  | nil =>
    cases h
    rfl
  | cons packet packets ih =>
    rw [List.foldlM_cons] at h
    obtain ⟨next, hnext, h⟩ := Option.bind_eq_some_iff.1 h
    rw [ih h]
    cases packet with
    | loadState index =>
      obtain ⟨state, -, hload⟩ := Option.bind_eq_some_iff.1 hnext
      obtain ⟨-, rfl⟩ := LegacyGame.load_eq_some hload
      rfl
    | _ =>
      cases hnext
      rfl

/-- **An import that succeeds** follows the game from the states loaded at frame 0. -/
theorem importLegacyReplay_follows {input : String} {decompress : Bytes → LegacyStream}
    {file : Bytes} {report : LegacyImportReport} {output : Output}
    (h : importLegacyReplay E x options fuel input decompress file = some (.ok report, output)) :
    ∃ header r packets tape g, openPackets decompress input file = .ok (header, r) ∧
      Delivers r packets ∧ output = .written tape ∧ report.frames = lastFrame 0 packets ∧
      frameCount tape.events = lastFrame 0 packets ∧
      (LegacyGame.packetsAt packets 0).foldlM (LegacyGame.loadOnly E) (.start E) = some g ∧
      (LoadsAll E packets → ∃ consoles last,
        LegacyGame.frames E fuel packets (lastFrame 0 packets) 0 g = some (consoles, last)) ∧
      ∀ consoles last,
        LegacyGame.frames E fuel packets (lastFrame 0 packets) 0 g = some (consoles, last) →
        ∃ c, playReplay E fuel tape = some (consoles, c) ∧ E.SameButInput c last.console := by
  rw [importLegacyReplay] at h
  obtain ⟨begun, hbegun, h⟩ := Option.bind_eq_some_iff.1 h
  cases begun with
  | error e => cases h
  | ok begun =>
    obtain ⟨total, b, final⟩ := begun
    obtain ⟨header, r, packets, before, after, g, hopen, hdelivers, rfl, rfl, hbefore, hafter,
      hfold, hready, hconsole, hheld, hstates, hrest⟩ := beginning_gives hbegun
    dsimp only at h
    rw [recorded] at h
    obtain ⟨start, hstart, h⟩ := Option.bind_eq_some_iff.1 h
    cases start with
    | error e => cases h
    | ok start =>
      obtain ⟨core, replay⟩ := start
      dsimp only at h
      obtain ⟨result, hresult, h⟩ := Option.bind_eq_some_iff.1 h
      cases result with
      | error e => cases h
      | ok s =>
        obtain ⟨hfollows, hempty⟩ :=
          startRecordingReplay_follows hready hconsole hheld (loadOnly_states hfold) hstart
        rw [← hstates] at hfollows
        have hsorted := (List.pairwise_append.1 hdelivers.sorted).2.1
        obtain ⟨hreport, made, left, hsplit, hfollows'⟩ := frames_follows
          (s := ⟨b.reader, core, b.states, b.pending, ⟨0, 0, 0⟩⟩) hfollows hrest hsorted
          (fun packet _ ↦ Nat.zero_le _) hresult
        have hgame : (goesOn (some ([], g)) fun g ↦ goesOn (LegacyGame.packetsStep E
            (LegacyGame.packetsAt after 0) g) (LegacyGame.frames E fuel after
              (lastFrame 0 (before ++ after)) 0)) = LegacyGame.frames E fuel (before ++ after)
                (lastFrame 0 (before ++ after)) 0 g := by
          rw [goesOn_nil,
            LegacyGame.packetsAt_of_ne fun packet hpacket ↦ (hafter packet hpacket).ne']
          refine (goesOn_nil g _).trans (LegacyGame.frames_congr _ (fun later hlater ↦ ?_) _ g)
          exact (LegacyGame.packetsAt_later (fun packet hpacket ↦ (hbefore packet hpacket).le)
            hlater).symm
        rw [hgame, Nat.zero_add] at hfollows'
        rw [Nat.zero_add] at hreport
        obtain ⟨recording, hfile, hcount, hplays⟩ := hfollows'.recorded
        dsimp only at h
        rw [hfile] at h
        split at h
        · rename_i hdone hsome
          cases hsome
          cases h
          refine ⟨header, r, before ++ after, _, g, hopen, hdelivers, rfl, hreport, ?_, ?_, ?_, ?_⟩
          · rw [frameCount_recordAll, hempty, hcount, Nat.zero_add]
          · rw [LegacyGame.packetsAt_of_split hbefore hafter]
            exact hfold
          · intro hloads
            cases hplayed : LegacyGame.frames E fuel (before ++ after)
              (lastFrame 0 (before ++ after)) 0 g with
            | some played => exact ⟨played.1, played.2, rfl⟩
            | none =>
              obtain ⟨state, hstate, hrefused⟩ := hfollows'.lost hplayed
              have hmem : state ∈ statesLoaded (fun _ ↦ none) ((before ++ after).map (·.2)) := by
                rw [hsplit, ← List.append_assoc, List.map_append, List.map_append,
                  statesLoaded_append]
                exact List.mem_append_left _ hstate
              rw [hloads state hmem] at hrefused
              cases hrefused
          · exact fun consoles last hplayed ↦ (hplays consoles last hplayed).2
        · cases h

/-! ## Faithful imports -/

/-- A console with one byte of memory, at 0xC000, to which every frame adds the buttons held. -/
structure PocketConsole where
  memory : UInt8
  input : Bytes
deriving DecidableEq

namespace PocketConsole

def run (c : PocketConsole) : RunTime × PocketConsole :=
  (⟨1, true⟩, { c with memory := c.memory + c.input.headD 0 })

def write (address : UInt32) (data : Bytes) (c : PocketConsole) : Bool × PocketConsole :=
  if address = 0xC000 then (true, { c with memory := data.headD 0 }) else (false, c)

/-- A state is the byte. -/
def load (state : Bytes) (c : PocketConsole) : Except String Unit × PocketConsole :=
  match state with
  | [memory] => (.ok (), { c with memory })
  | _ => (.error "Unknown", c)

theorem write_input (address : UInt32) (data input : Bytes) (c : PocketConsole) :
    write address data { c with input } =
      ((write address data c).1, { (write address data c).2 with input }) := by
  rw [write, write]
  split_ifs <;> rfl

theorem write_refused (address : UInt32) (data : Bytes) (c : PocketConsole)
    (h : (write address data c).1 = false) : (write address data c).2 = c := by
  rw [write] at h ⊢
  split_ifs at h ⊢
  rfl

theorem load_eq (state : Bytes) (c c' : PocketConsole) : (load state c).1 = (load state c').1 := by
  unfold load
  split <;> rfl

theorem loaded_eq (state : Bytes) (c c' : PocketConsole) (input : Bytes)
    (h : (load state c).1 = .ok ()) :
    ({ (load state c).2 with input } : PocketConsole) = { (load state c').2 with input } := by
  unfold load at h ⊢
  split at h
  · rfl
  · cases h

def core : GameBoy PocketConsole where
  runUnlocked := run
  run := run
  runHidden := run
  isMidFrame _ := false
  writeRam := write
  createSaveState c := [c.memory]
  saveStatePossible _ := true
  loadSaveState := load
  loadSaveStateWithStaleOutput := load
  setInputEncoded input c := { c with input }
  encodeInput input := [gameBoyMask input]
  hardReset c := { c with memory := 0 }
  adoptReplayKeyframe := id
  checkReplayKeyframe _ c := (false, c)
  takeRomReads c := ([], c)
  takeTransientPageAccess c := (none, c)
  thumbnails _ := none
  console := some .gameBoyColor
  linkPort := none
  fresh := ⟨0, []⟩
  memoryRegions c := [[c.memory]]
  romChecksum := FixedBytes.zero 32
  biosChecksum := FixedBytes.zero 32
  coreName := "pocket"
  frames_le _ := UInt64.le_refl 1
  frames_run_le _ := UInt64.le_refl 1
  frames_runHidden_le _ := UInt64.le_refl 1
  isMidFrame_runUnlocked _ _ := rfl
  isMidFrame_run _ _ := rfl
  isMidFrame_runHidden _ _ := rfl
  isMidFrame_takeRomReads _ := rfl
  isMidFrame_takeTransientPageAccess _ := rfl
  isMidFrame_takeSerialIn _ _ h := nomatch h
  isMidFrame_setInputEncoded _ _ := rfl
  unfinished_run _ h := nomatch h
  unfinished_runHidden _ h := nomatch h
  unfinished_runUnlocked _ h := nomatch h
  console_eq := rfl
  encodeInput_eq _ := rfl
  isMidFrame_fresh := rfl
  isMidFrame_loadSaveState _ _ := rfl
  isMidFrame_hardReset _ := rfl
  isMidFrame_writeRam _ _ _ := rfl
  setInput_setInput _ _ _ := rfl
  memoryRegions_setInput _ _ := rfl
  writeRam_setInput := write_input
  writeRam_refused := write_refused
  hardReset_setInput _ _ _ := rfl
  loads_eq := load_eq
  loaded_eq := loaded_eq
  restores _ _ _ := ⟨rfl, fun _ ↦ rfl⟩
  adoptReplayKeyframe_eq _ := rfl
  checkReplayKeyframe_eq _ _ := rfl
  takeRomReads_eq _ := rfl
  takeTransientPageAccess_eq _ := rfl
  takeSerialIn_eq _ _ h := nomatch h

end PocketConsole

/-- An old file with the given packets. -/
def oldFile (packets : Bytes) : Bytes :=
  legacyMagic ++ .replicate 88 0 ++ .replicate 32 1 ++ .replicate 384 0 ++ packets

/-- A state is stored and loaded at frame 0. -/
def loadsSeven : Bytes :=
  [0, 12, 0, 0, 0, 0, 0, 0, 0, 1, 7, 0, 0, 0, 0] ++ [0, 13, 0, 0, 0, 0]

/-- An import of a few frames. -/
def exampleOptions : LegacyImportOptions where
  output := "new.replay"
  romSha256 := .replicate 32 1
  romFilename := "game.gb"
  settings := Recorder.exampleSettings
  framesPerKeyframe := 60
  createFile := .ok Sink.reliable
  surroundings frame := ⟨.ofNat (frame * 17), 0⟩
  countCancelled _ := false
  cancelled _ := false

/-- Import an old file that is not compressed. -/
def importOld (file : Bytes) : Option (Except ConvertError LegacyImportReport × Output) :=
  importLegacyReplay PocketConsole.core .plain exampleOptions 4 "old.replay" (⟨·, none⟩) file

/-- The frames of a replay that is imported, and the console after the last one. -/
def replayOf (file : Bytes) : Option (List PocketConsole × PocketConsole) :=
  match importOld file with
  | some (.ok _, .written tape) => playReplay PocketConsole.core 4 tape
  | _ => none

theorem exists_of_replayOf {file : Bytes} {played : List PocketConsole × PocketConsole}
    (h : replayOf file = some played) : ∃ report tape,
      importOld file = some (.ok report, .written tape) ∧
        playReplay PocketConsole.core 4 tape = some played := by
  rw [replayOf] at h
  split at h
  · rename_i report tape heq
    exact ⟨report, tape, heq, h⟩
  · cases h

/-- A reader of packets that are not compressed. -/
def readerAt (packets : Bytes) (frame : Nat) : PacketReader := ⟨⟨packets, none⟩, frame⟩

/-- The packets that a reader delivers. -/
def packetsOf : Nat → PacketReader → Option (List (Nat × LegacyPacket))
  | 0, _ => none
  | fuel + 1, r =>
    match r.next with
    | .error _ => none
    | .ok none => some []
    | .ok (some (packet, r)) => (packetsOf fuel r).map (packet :: ·)

theorem delivers_of_packetsOf (left : Nat) {r : PacketReader}
    {packets : List (Nat × LegacyPacket)} (h : packetsOf left r = some packets) :
    Delivers r packets := by
  induction left generalizing r packets with
  | zero => cases h
  | succ left ih =>
    rw [packetsOf] at h
    cases hnext : r.next with
    | error e =>
      rw [hnext] at h
      cases h
    | ok read =>
      rw [hnext] at h
      cases read with
      | none =>
        cases h
        exact .nil hnext
      | some read =>
        obtain ⟨rest, hrest, rfl⟩ := Option.map_eq_some_iff.1 h
        exact .cons hnext (ih hrest)

end Legacy

end SuperShuckie
