import SuperShuckie.Legacy.Console
import SuperShuckie.Legacy.Packets
import SuperShuckie.Recording.Tape

/-!
# Importing an old replay

The packets of an old file are played on today's core, which records an ordinary replay.  The file
is read twice: once to count its frames, and once more to play it.  The packets at frame 0 come
before the recording; every later one is applied at its frame boundary.

What is not decided here is given: the clock of the recording, the sink of the new file, whether the
user cancels, and how many runs a console may need for a frame (`fuel`); `none` is an import that
does not end.
-/

set_option autoImplicit false

namespace SuperShuckie

namespace Legacy

open ByteFormat SuperShuckie.Convert Fallible

variable {C : Type} (E : GameBoy C) (x : Externals)

/-! ## The recording -/

/-- How the program prints an error of a recorder. -/
def writeErrorDebug : ReplayFileWriteError → String
  | .badInput explanation => "BadInput \x7b explanation: " ++ explanation.quote ++ " \x7d"
  | .streamClosed => "StreamClosed"
  | .poisoned => "Poisoned"
  | .tempSink explanation => "TempSink \x7b explanation: " ++ explanation.quote ++ " \x7d"
  | .other explanation => "Other \x7b explanation: " ++ explanation.quote ++ " \x7d"

/-- Where an import should look for its parts, and what happens around it. -/
structure LegacyImportOptions where
  output : String
  /-- The SHA-256 of the ROM. -/
  romSha256 : Bytes
  romFilename : String
  settings : RecorderSettings
  framesPerKeyframe : UInt64
  /-- Create the new file. -/
  createFile : Except String Sink
  /-- What the runs of a frame depend on besides the core: the time of the recording. -/
  surroundings : Nat → Surroundings
  /-- Whether the user cancels at a packet while the frames are counted, or at a frame. -/
  countCancelled : Nat → Bool
  cancelled : Nat → Bool

namespace ImportCore

def metadata (options : LegacyImportOptions) : ReplayFileMetadata where
  consoleType := E.console.getD .gameBoyColor
  romName := options.romFilename
  romFilename := options.romFilename
  romChecksum := E.romChecksum
  biosChecksum := E.biosChecksum
  emulatorCoreName := E.coreName
  patchFormat := .unpatched
  patchTargetChecksum := FixedBytes.zero 32
  cropStart := none
  cropEnd := none
  timerOffset := none

/-- Start the session's timer over. -/
def restartTimer (now : TimestampMillis) (s : ImportCore C) : ImportCore C :=
  { s with live := { s.live with session := { s.live.session with
      pausedTimerAt := none
      startingMilliseconds := now
      totalMilliseconds := 0
      totalFrames := 0 } } }

/-- `start_recording_replay`, of a core that neither records nor plays.  The new file has its first
keyframe. -/
def startRecordingReplay (options : LegacyImportOptions) (final : Sink) (fuel : Nat)
    (s : ImportCore C) : Fallible ConvertError (ImportCore C × Tape) := do
  let s ← s.finishCurrentFrame E (options.surroundings 0) fuel
  let state := E.createSaveState s.live.session.core
  let input := E.encodeInput s.live.layers.currentInput
  let s := (s.setConsole (E.setInputEncoded input s.live.session.core)).restartTimer
    (options.surroundings 0).now
  match Recorder.newWithMetadata x (metadata E options) [] options.settings
      s.live.session.totalMilliseconds input s.live.session.gameSpeed state final Sink.reliable with
  | .abort => panics
  | .error e _ => throw (.failed ("cannot start the new replay: " ++ writeErrorDebug e))
  | .ok recorder _ =>
    let session := { s.live.session with
      framesPerKeyframe := options.framesPerKeyframe
      fullKeyframePending := false
      replayFileRecorder := some ⟨recorder, []⟩
      replayCounters := some OrdMap.empty }
    let replay := (Tape.blank input session.gameSpeed).record
      (.insertKeyframe state session.totalMilliseconds .auto)
    pure ({ s with live := { s.live with session } }.unlatchInput, replay)

/-- `stop_recording_replay`: make the calls, and close the file.  Returns whether that went well. -/
def stopRecordingReplay (s : ImportCore C) : Option Bool := do
  let file ← s.live.session.replayFileRecorder
  let (_, recorder) ← Recorder.run x file.calls file.recorder
  match Recorder.close x recorder with
  | .ok (_, _, error) _ => some error.isNone
  | .error _ _ => some false
  | .abort => none

end ImportCore

/-! ## The packets at frame 0 -/

/-- The states that have been stored. -/
abbrev StoredStates := UInt32 → Option Bytes

def StoredStates.insert (states : StoredStates) (index : UInt32) (data : Bytes) : StoredStates :=
  Function.update states index (some data)

/-- What an import has of the file once the packets at frame 0 have been read. -/
structure Beginning (C : Type) where
  reader : PacketReader
  core : ImportCore C
  states : StoredStates
  /-- The first packet at a later frame. -/
  pending : Option (Nat × LegacyPacket)
  inputMask : UInt8
  started : Bool

namespace Beginning

/-- A packet at frame 0, which only stores and loads states and notes the input. -/
def apply (fuel : Nat) (b : Beginning C) : LegacyPacket → Fallible ConvertError (Beginning C)
  | .addState index data => pure { b with states := b.states.insert index data }
  | .loadState index => do
    let state ← okOr (b.states index) (.failed "the replay loads a state it never stored")
    match (E.loadSaveState state E.fresh).1 with
    | .error e => throw (.failed ("the replay's first save state does not load: " ++ e))
    | .ok _ => do
      let core ← b.core.loadSaveState E fuel state
      pure { b with core, started := true }
  | .input mask => pure { b with inputMask := mask }
  | _ => pure b

/-- The loop over the packets at frame 0. -/
def read (fuel : Nat) : Nat → Beginning C → Fallible ConvertError (Beginning C)
  | 0, _ => panics
  | left + 1, b =>
    match b.reader.next with
    | .error e => throw (.failed e)
    | .ok none => pure b
    | .ok (some ((frame, packet), reader)) =>
      if 0 < frame then pure { b with reader, pending := some (frame, packet) }
      else do
        let b ← { b with reader }.apply E fuel packet
        read fuel left b

end Beginning

/-! ## The packets of a frame boundary -/

/-- Result of a successful import. -/
structure LegacyImportReport where
  frames : Nat
  /-- Old save states compared with the re-played game. -/
  checks : Nat
  /-- How many of them differed (and were loaded). -/
  resyncs : Nat

/-- An import that plays the file. -/
structure Importing (C : Type) where
  reader : PacketReader
  core : ImportCore C
  states : StoredStates
  pending : Option (Nat × LegacyPacket)
  report : LegacyImportReport

/-- The banks that this app addresses the same way. -/
def addressedAlike (bank address : UInt16) : Bool :=
  decide (bank ≤ 1) || !(decide (0xD000 ≤ address) && decide (address < 0xE000))

namespace Importing

/-- A packet at a frame boundary. -/
def apply (fuel frame : Nat) (env : Surroundings) (s : Importing C) :
    LegacyPacket → Fallible ConvertError (Importing C)
  | .addState index data => do
    let s := { s with report := { s.report with checks := s.report.checks + 1 } }
    match E.loadSaveState data E.fresh with
    | (.error e, _) =>
      throw (.failed (s!"a save state at frame {frame} does not load: " ++ e))
    | (.ok _, probe) => do
      let s ← if E.sameMemory s.core.live.session.core probe then pure s
        else do
          let core ← s.core.loadSaveState E fuel data
          pure { s with core, report := { s.report with resyncs := s.report.resyncs + 1 } }
      pure { s with states := s.states.insert index data }
  | .loadState index => do
    let state ← okOr (s.states index) (.failed "the replay loads a state it never stored")
    let core ← s.core.loadSaveState E fuel state
    pure { s with core }
  | .input mask => pure { s with core := s.core.enqueueInput (inputFromMask mask) }
  | .writeMemory bank address byte =>
    -- Anything else is put right by the next save state comparison.
    if addressedAlike bank address then
      pure { s with core := s.core.enqueueWrite E address.toUInt32 [byte] }
    else pure s
  | .reset => do
    let core ← s.core.hardReset E fuel env
    pure { s with core }
  | .ignored => pure s

/-- The packet that was put back, or else the next one. -/
def next (s : Importing C) :
    Except String (Option ((Nat × LegacyPacket) × Importing C)) :=
  match s.pending with
  | some packet => .ok (some (packet, { s with pending := none }))
  | none =>
    match s.reader.next with
    | .error e => .error e
    | .ok none => .ok none
    | .ok (some (packet, reader)) => .ok (some (packet, { s with reader }))

/-- The packets of a frame boundary, in the order the old app wrote them. -/
def boundary (fuel frame : Nat) (env : Surroundings) :
    Nat → Importing C → Fallible ConvertError (Importing C)
  | 0, _ => panics
  | left + 1, s =>
    match s.next with
    | .error e => throw (.failed e)
    | .ok none => pure s
    | .ok (some (packet, s)) =>
      if frame < packet.1 then pure { s with pending := some packet }
      else do
        let s ← s.apply E fuel frame env packet.2
        boundary fuel frame env left s

/-- Run the core until it has completed one more frame than `before`. -/
def runFrame (env : Surroundings) (before : UInt64) :
    Nat → ImportCore C → Fallible ConvertError (ImportCore C)
  | fuel, s =>
    if s.live.session.totalFrames = before ∨ E.isMidFrame s.live.session.core then
      match fuel with
      | 0 => panics
      | fuel + 1 => runFrame env before fuel (s.doRunFn E .hidden env)
    else pure s

/-- The loop over the frames, `left` of which are still to come. -/
def frames (options : LegacyImportOptions) (fuel : Nat) :
    Nat → Nat → Importing C → Fallible ConvertError (Importing C)
  | left, frame, s => do
    let env := options.surroundings frame
    let s ← s.boundary E fuel frame env (s.reader.stream.bytes.length + 2)
    match left with
    | 0 => pure { s with report := { s.report with frames := frame } }
    | left + 1 => do
      let core ← runFrame E env s.core.live.session.totalFrames fuel s.core
      if (frame + 1) % 2048 = 0 ∧ options.cancelled (frame + 1) then throw .cancelled
      else frames options fuel left (frame + 1) { s with core }

end Importing

/-! ## The import -/

/-- The new file once the import has ended. -/
inductive Output
  /-- No file was created. -/
  | untouched
  /-- A file was created, and is left behind although the import failed. -/
  | left
  | removed
  | written (replay : Tape)

/-- What the reading and the recording come to once the new file has been created. -/
def recorded (options : LegacyImportOptions) (fuel total : Nat) (b : Beginning C) (final : Sink) :
    Option (Except ConvertError LegacyImportReport × Output) := do
  let start ← (b.core.startRecordingReplay E x options final fuel).run
  match start with
  | .error e => some (.error e, .left)
  | .ok (core, replay) => do
    let result ← (Importing.frames E options fuel total 0
      ⟨b.reader, core, b.states, b.pending, ⟨0, 0, 0⟩⟩).run
    match result with
    | .error e => some (.error e, .removed)
    | .ok s =>
      match s.core.stopRecordingReplay x, s.core.live.session.replayFileRecorder with
      | some true, some file => some (.ok s.report, .written (replay.recordAll file.calls))
      | _, _ => some (.error (.failed "the new replay could not be finished"), .removed)

/-- What comes before the new file is created. -/
def beginning (options : LegacyImportOptions) (fuel : Nat) (input : String)
    (decompress : Bytes → LegacyStream) (file : Bytes) :
    Fallible ConvertError (Nat × Beginning C × Sink) := do
  let (header, packets) ←
    ExceptT.mk (some ((openPackets decompress input file).mapError ConvertError.failed))
  if options.romSha256 ≠ header.romSha256 then
    throw (.failed "the ROM given is not the game this replay was recorded with")
  else
    let total ← countFrames options.countCancelled packets
    let b ← Beginning.read E fuel (packets.stream.bytes.length + 1)
      ⟨packets, .new E (options.surroundings 0).now, fun _ ↦ none, none, 0, false⟩
    if b.started then do
      let b := { b with core := b.core.enqueueInput (inputFromMask b.inputMask) }
      let final ← ExceptT.mk (some (options.createFile.mapError fun e ↦
        ConvertError.failed s!"cannot create {options.output}: {e}"))
      pure (total, b, final)
    else throw (.failed "the replay does not start from a save state")

/-- **Import an old file** into a new replay. -/
def importLegacyReplay (options : LegacyImportOptions) (fuel : Nat) (input : String)
    (decompress : Bytes → LegacyStream) (file : Bytes) :
    Option (Except ConvertError LegacyImportReport × Output) := do
  match ← (beginning E options fuel input decompress file).run with
  | .error e => some (.error e, .untouched)
  | .ok (total, b, final) => recorded E x options fuel total b final

end Legacy

end SuperShuckie
