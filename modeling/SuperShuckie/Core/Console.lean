import SuperShuckie.Recorder.Calls

/-!
# Emulated consoles

An `EmulatorCore` is a console as the program sees it: a type of states, and what each operation
does to a state and returns.  The consoles themselves are third-party emulators, so they are a
parameter of everything that follows.  What only concerns pictures and sound is left out.
-/

set_option autoImplicit false

namespace SuperShuckie

open ByteFormat

/-- Amount of time passed when running the emulator core. -/
structure RunTime where
  frames : UInt64
  /-- Whether the screens hold a newly drawn frame. -/
  presented : Bool
deriving DecidableEq

/-- The serial port of a console, as a link cable end. -/
structure LinkPort (C : Type) where
  /-- One step of the first console with the second at the other end of the cable. -/
  stepLinked : C → C → Except String RunTime × C × C
  /-- Plug the cable in; a console that refuses it stays as it is. -/
  connect : Bool → C → Except String C
  disconnect : C → C
  /-- What was received since the last call, as the bytes of a `serialIn` packet. -/
  takeSerialIn : C → Bytes × C
  /-- Queue recorded traffic; whether it was accepted. -/
  queueSerialIn : Bytes → C → Bool × C
  frames_le : ∀ {c other time c' other'},
    stepLinked c other = (.ok time, c', other') → time.frames ≤ 1

/-- The operations of an emulator core.  A run reports one frame at most, and one that completes a
frame stops at the frame's end; taking what a console has logged does not run it. -/
structure EmulatorCore (C : Type) where
  /-- Run the smallest amount of time without any timing. -/
  runUnlocked : C → RunTime × C
  /-- Whether the last run stopped inside a frame. -/
  isMidFrame : C → Bool
  /-- Write to the RAM; whether it could. -/
  writeRam : UInt32 → Bytes → C → Bool × C
  createSaveState : C → Bytes
  saveStatePossible : C → Bool
  loadSaveState : Bytes → C → Except String Unit × C
  /-- Load a keyframe whose output buffers are those of an earlier one. -/
  loadSaveStateWithStaleOutput : Bytes → C → Except String Unit × C
  setInputEncoded : Bytes → C → C
  hardReset : C → C
  adoptReplayKeyframe : C → C
  checkReplayKeyframe : Bytes → C → Bool × C
  takeRomReads : C → List (Nat × Nat) × C
  takeTransientPageAccess : C → Option TransientPageAccess × C
  /-- The two screens, scaled down to a timeline picture. -/
  thumbnails : C → Option (Screen × Screen)
  console : Option ReplayConsoleType
  linkPort : Option (LinkPort C)
  frames_le : ∀ c, (runUnlocked c).1.frames ≤ 1
  isMidFrame_runUnlocked : ∀ c, (runUnlocked c).1.frames ≠ 0 → isMidFrame (runUnlocked c).2 = false
  isMidFrame_takeRomReads : ∀ c, isMidFrame (takeRomReads c).2 = isMidFrame c
  isMidFrame_takeTransientPageAccess : ∀ c, isMidFrame (takeTransientPageAccess c).2 = isMidFrame c
  isMidFrame_takeSerialIn : ∀ port c, linkPort = some port →
    isMidFrame (port.takeSerialIn c).2 = isMidFrame c

/-! ## A console -/

/-- A console that needs two runs for each frame, and adds the input held to its memory when it
completes one. -/
structure SlicedConsole where
  memory : Bytes
  input : Bytes
  midFrame : Bool
  /-- What came in over the cable during the frame. -/
  received : Bytes
deriving DecidableEq

namespace SlicedConsole

def run (c : SlicedConsole) : RunTime × SlicedConsole :=
  if c.midFrame then
    (⟨1, true⟩, { c with memory := c.memory ++ c.input, midFrame := false })
  else (⟨0, false⟩, { c with midFrame := true })

/-- Save states have the memory only, and an empty one is refused. -/
def load (state : Bytes) (c : SlicedConsole) : Except String Unit × SlicedConsole :=
  if state.isEmpty then (.error "empty state", c)
  else (.ok (), { c with memory := state, midFrame := false })

theorem frames_run_le (c : SlicedConsole) : c.run.1.frames ≤ 1 := by
  rw [run]
  split
  · exact UInt64.le_refl 1
  · exact UInt64.le_iff_toNat_le.mpr (Nat.zero_le _)

/-- The other console's input comes in over the cable, and adds to the memory when it is replayed. -/
def port : LinkPort SlicedConsole where
  stepLinked c other := (.ok c.run.1, { c.run.2 with received := c.received ++ other.input }, other)
  connect _ := .ok
  disconnect c := c
  takeSerialIn c := (c.received, { c with received := [] })
  queueSerialIn data c := (true, { c with memory := c.memory ++ data })
  frames_le := by
    intro c other time c' other' h
    cases h
    exact frames_run_le c

def core : EmulatorCore SlicedConsole where
  runUnlocked := run
  isMidFrame := midFrame
  writeRam _ data c := (true, { c with memory := c.memory ++ data })
  createSaveState := memory
  saveStatePossible _ := true
  loadSaveState := load
  loadSaveStateWithStaleOutput := load
  setInputEncoded input c := { c with input }
  hardReset c := { c with memory := [], midFrame := false }
  adoptReplayKeyframe := id
  checkReplayKeyframe _ c := (true, c)
  takeRomReads c := ([], c)
  takeTransientPageAccess c := (none, c)
  thumbnails _ := none
  console := none
  linkPort := some port
  frames_le := frames_run_le
  isMidFrame_runUnlocked := by
    intro c h
    rw [run] at h ⊢
    split
    · rfl
    · rename_i hmid
      rw [if_neg hmid] at h
      exact absurd rfl h
  isMidFrame_takeRomReads _ := rfl
  isMidFrame_takeTransientPageAccess _ := rfl
  isMidFrame_takeSerialIn := by
    intro p c h
    cases h
    rfl

/-- The console when it is switched on. -/
def fresh : SlicedConsole := ⟨[], [], false, []⟩

end SlicedConsole

end SuperShuckie
