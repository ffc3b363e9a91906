import SuperShuckie.Convert.Job
import SuperShuckie.Core.LiveRuns
import SuperShuckie.Lib.Fallible

/-!
# A Game Boy that records

`GameBoy` is a Game Boy as far as importing relies on one: what a state does not carry are the
buttons held, so two consoles that are alike but for these (`SameButInput`) stay alike whatever is
done to both, and are the same once they are given the same input.

`ImportCore` is a live core with the writes that wait for the end of its frame.  Between frames a
call takes effect at once and is recorded; the input goes to the console before the next frame.
-/

set_option autoImplicit false

namespace SuperShuckie

namespace Legacy

open ByteFormat SuperShuckie.Convert Fallible

/-! ## The console -/

/-- The buttons of a Game Boy, as bits in the order of SameBoy's `GB_key_t`. -/
def gameBoyMask (input : Input) : UInt8 :=
  input.dRight.toUInt8 <<< 0 ||| input.dLeft.toUInt8 <<< 1 ||| input.dUp.toUInt8 <<< 2 |||
    input.dDown.toUInt8 <<< 3 ||| input.a.toUInt8 <<< 4 ||| input.b.toUInt8 <<< 5 |||
    input.select.toUInt8 <<< 6 ||| input.start.toUInt8 <<< 7

/-- The old app's button mask is SameBoy's `GB_key_mask_t`. -/
def inputFromMask (mask : UInt8) : Input where
  dRight := mask &&& 0x01 != 0
  dLeft := mask &&& 0x02 != 0
  dUp := mask &&& 0x04 != 0
  dDown := mask &&& 0x08 != 0
  a := mask &&& 0x10 != 0
  b := mask &&& 0x20 != 0
  select := mask &&& 0x40 != 0
  start := mask &&& 0x80 != 0

theorem gameBoyMask_inputFromMask (mask : UInt8) : gameBoyMask (inputFromMask mask) = mask := by
  have hall : ∀ n : Fin 256, gameBoyMask (inputFromMask (.ofNat n)) = .ofNat n := by
    decide +kernel
  have hmask := hall ⟨mask.toNat, mask.toNat_lt⟩
  rwa [UInt8.ofNat_toNat] at hmask

/-- A Game Boy Color, into which no cable is plugged.  What happens to it does not depend on the
buttons held before its next frame, and a state has everything else. -/
structure GameBoy (C : Type) extends PacedCore C where
  /-- The console when it has been switched on. -/
  fresh : C
  /-- What every region of the memory holds. -/
  memoryRegions : C → List Bytes
  romChecksum : ReplayHeaderBlake3Hash
  biosChecksum : ReplayHeaderBlake3Hash
  coreName : String
  console_eq : console = some .gameBoyColor
  encodeInput_eq : ∀ input, encodeInput input = [gameBoyMask input]
  isMidFrame_fresh : isMidFrame fresh = false
  isMidFrame_loadSaveState : ∀ state c, isMidFrame (loadSaveState state c).2 = false
  isMidFrame_hardReset : ∀ c, isMidFrame (hardReset c) = false
  isMidFrame_writeRam : ∀ address data c, isMidFrame (writeRam address data c).2 = isMidFrame c
  setInput_setInput : ∀ input before c,
    setInputEncoded input (setInputEncoded before c) = setInputEncoded input c
  memoryRegions_setInput : ∀ input c, memoryRegions (setInputEncoded input c) = memoryRegions c
  writeRam_setInput : ∀ address data input c, writeRam address data (setInputEncoded input c) =
    ((writeRam address data c).1, setInputEncoded input (writeRam address data c).2)
  /-- A write that is refused writes nothing. -/
  writeRam_refused : ∀ address data c, (writeRam address data c).1 = false →
    (writeRam address data c).2 = c
  hardReset_setInput : ∀ input before c,
    setInputEncoded input (hardReset (setInputEncoded before c)) =
      setInputEncoded input (hardReset c)
  /-- Whether a state loads does not depend on the console. -/
  loads_eq : ∀ state c c', (loadSaveState state c).1 = (loadSaveState state c').1
  loaded_eq : ∀ state c c' input, (loadSaveState state c).1 = .ok () →
    setInputEncoded input (loadSaveState state c).2 =
      setInputEncoded input (loadSaveState state c').2
  /-- Between frames a state has all of the console. -/
  restores : ∀ c c', isMidFrame c = false →
    (loadSaveState (createSaveState c) c').1 = .ok () ∧
      ∀ input, setInputEncoded input (loadSaveState (createSaveState c) c').2 =
        setInputEncoded input c
  adoptReplayKeyframe_eq : ∀ c, adoptReplayKeyframe c = c
  checkReplayKeyframe_eq : ∀ state c, checkReplayKeyframe state c = (false, c)
  takeRomReads_eq : ∀ c, takeRomReads c = ([], c)
  takeTransientPageAccess_eq : ∀ c, takeTransientPageAccess c = (none, c)
  takeSerialIn_eq : ∀ port c, linkPort = some port → port.takeSerialIn c = ([], c)

namespace GameBoy

variable {C : Type} (E : GameBoy C)

/-- Run the console, without drawing, until it has completed a frame. -/
def completeFrame : Nat → C → Option C
  | 0, _ => none
  | fuel + 1, c => if (E.runHidden c).1.frames ≠ 0 then some (E.runHidden c).2
    else completeFrame fuel (E.runHidden c).2

/-- Whether every memory region of `a` equals `b`'s. -/
def sameMemory (a b : C) : Bool :=
  (List.range (E.memoryRegions a).length).all fun i ↦
    (E.memoryRegions a)[i]? == (E.memoryRegions b)[i]?

/-- Whether a state can be loaded. -/
def loads (state : Bytes) : Bool := (E.loadSaveState state E.fresh).1.isOk

/-- Two consoles that are the same but for the buttons held. -/
def SameButInput (a b : C) : Prop :=
  ∀ input, E.setInputEncoded input a = E.setInputEncoded input b

variable {E} {a b c : C} {state : Bytes}

theorem SameButInput.refl (c : C) : E.SameButInput c c := fun _ ↦ rfl

theorem SameButInput.symm (h : E.SameButInput a b) : E.SameButInput b a :=
  fun input ↦ (h input).symm

theorem SameButInput.trans (h : E.SameButInput a b) (h' : E.SameButInput b c) :
    E.SameButInput a c := fun input ↦ (h input).trans (h' input)

/-- Consoles that one input makes the same are the same but for the buttons held. -/
theorem sameButInput_of_eq {input : Bytes}
    (h : E.setInputEncoded input a = E.setInputEncoded input b) : E.SameButInput a b := by
  intro other
  rw [← E.setInput_setInput other input a, h, E.setInput_setInput]

theorem sameButInput_setInput (input : Bytes) (c : C) :
    E.SameButInput (E.setInputEncoded input c) c := fun other ↦ E.setInput_setInput other input c

theorem SameButInput.memoryRegions (h : E.SameButInput a b) :
    E.memoryRegions a = E.memoryRegions b := by
  rw [← E.memoryRegions_setInput [] a, h, E.memoryRegions_setInput]

theorem SameButInput.sameMemory {a' b' : C} (h : E.SameButInput a b) (h' : E.SameButInput a' b') :
    E.sameMemory a a' = E.sameMemory b b' := by
  rw [GameBoy.sameMemory, GameBoy.sameMemory, h.memoryRegions, h'.memoryRegions]

theorem SameButInput.writeRam (h : E.SameButInput a b) (address : UInt32) (data : Bytes) :
    (E.writeRam address data a).1 = (E.writeRam address data b).1 ∧
      E.SameButInput (E.writeRam address data a).2 (E.writeRam address data b).2 := by
  have hwrite (input : Bytes) := congrArg (E.writeRam address data) (h input)
  simp only [E.writeRam_setInput, Prod.mk.injEq] at hwrite
  exact ⟨(hwrite []).1, fun input ↦ (hwrite input).2⟩

theorem SameButInput.hardReset (h : E.SameButInput a b) :
    E.SameButInput (E.hardReset a) (E.hardReset b) := by
  intro input
  rw [← E.hardReset_setInput input [] a, h, E.hardReset_setInput]

theorem loadSaveState_ok (c : C) : (E.loadSaveState state c).1 = .ok () ↔ E.loads state = true := by
  rw [GameBoy.loads, E.loads_eq state c E.fresh]
  cases (E.loadSaveState state E.fresh).1 with
  | ok u => simp [Except.isOk, Except.toBool]
  | error e => simp [Except.isOk, Except.toBool]

theorem sameButInput_loadSaveState (h : E.loads state = true) (a b : C) :
    E.SameButInput (E.loadSaveState state a).2 (E.loadSaveState state b).2 := fun input ↦
  E.loaded_eq state a b input ((loadSaveState_ok a).2 h)

end GameBoy

/-! ## The core -/

/-- A live core, and the writes that wait for its frame to end. -/
structure ImportCore (C : Type) where
  live : LiveCore C
  writes : List (UInt32 × Bytes)

namespace ImportCore

variable {C : Type} (E : GameBoy C)

/-- A core that has been created at time `now`. -/
def new (now : TimestampMillis) : ImportCore C where
  live :=
    { session := .new E.fresh now
      layers := {}
      publisher := none
      held := [] }
  writes := []

/-- Make calls of the recorder and of the publisher. -/
def record (calls : List Call) (s : ImportCore C) : ImportCore C :=
  { s with live := { s.live with session := s.live.session.record calls }.publish calls }

def setConsole (core : C) (s : ImportCore C) : ImportCore C :=
  { s with live := { s.live with session := { s.live.session with core } } }

/-- A write to the memory, which is recorded if it could be made. -/
def write (s : ImportCore C) (address : UInt32) (data : Bytes) : ImportCore C :=
  match E.writeRam address data s.live.session.core with
  | (true, core) => (s.setConsole core).record [.writeMemory address.toUInt64 data]
  | (false, core) => s.setConsole core

def flushWrites (s : ImportCore C) : ImportCore C :=
  if s.live.session.isPlayingBack then s
  else if E.isMidFrame s.live.session.core then s
  else s.writes.foldl (fun s w ↦ s.write E w.1 w.2) { s with writes := [] }

/-- Write to the memory: between frames at once. -/
def enqueueWrite (address : UInt32) (data : Bytes) (s : ImportCore C) : ImportCore C :=
  if s.live.session.isPlayingBack then s
  else { s with writes := s.writes ++ [(address, data)] }.flushWrites E

/-- Enqueue an input for the next frame. -/
def enqueueInput (input : Input) (s : ImportCore C) : ImportCore C :=
  { s with live := { s.live with layers := s.live.layers.enqueueInput input } }

/-- Run the console once. -/
def doRunFn (kind : RunKind) (env : Surroundings) (s : ImportCore C) : ImportCore C :=
  if s.live.session.replayStalled then s
  else
    let s := { s with live := s.live.updateInput E.toPacedCore }.flushWrites E
    if s.live.session.replayWaiting then s
    else
      let (time, core) := E.runAs kind s.live.session.core
      { s with live := (s.setConsole core).live.afterRun E.toPacedCore time env }

/-- Run until the frame under way, if there is one, has ended. -/
def finishCurrentFrame (env : Surroundings) :
    Nat → ImportCore C → Fallible ConvertError (ImportCore C)
  | fuel, s =>
    if E.isMidFrame s.live.session.core ∧ ¬ s.live.session.replayStalled then
      match fuel with
      | 0 => panics
      | fuel + 1 => finishCurrentFrame env fuel (s.doRunFn E .unlocked env)
    else pure s

/-- The console's own input has been replaced: ours is applied again on the next run. -/
def unlatchInput (s : ImportCore C) : ImportCore C :=
  { s with live := { s.live with layers := { s.live.layers with inputLatched := false } } }

def hardReset (fuel : Nat) (env : Surroundings) (s : ImportCore C) :
    Fallible ConvertError (ImportCore C) :=
  if s.live.session.isPlayingBack then pure s
  else do
    let s ← s.finishCurrentFrame E env fuel
    let s := s.setConsole (E.hardReset s.live.session.core)
    pure (s.record [.resetConsole]).unlatchInput

/-- Run on to the end of the frame under way. -/
def settle : Nat → C → Fallible ConvertError C
  | fuel, c =>
    if E.isMidFrame c then
      match fuel with
      | 0 => panics
      | fuel + 1 => settle fuel (E.runUnlocked c).2
    else pure c

/-- Draw one frame from a state that was just loaded, then load it again. -/
def drawLoadedState (fuel : Nat) (state : Bytes) (s : ImportCore C) :
    Fallible ConvertError (ImportCore C) := do
  let core ← settle E fuel (E.runUnlocked s.live.session.core).2
  pure (s.setConsole (E.loadSaveState state core).2)

def loadSaveState (fuel : Nat) (state : Bytes) (s : ImportCore C) :
    Fallible ConvertError (ImportCore C) :=
  if s.live.session.isPlayingBack then pure s
  else do
    let s := s.setConsole (E.loadSaveState state s.live.session.core).2
    let s ← (s.record [.loadSaveState state]).drawLoadedState E fuel state
    pure s.unlatchInput

end ImportCore

end Legacy

end SuperShuckie
