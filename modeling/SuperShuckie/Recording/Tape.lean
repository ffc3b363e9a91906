import SuperShuckie.Recorder.Calls

/-!
# What a recording is

A `Tape` is what a recorder is for: the list of the events that were recorded, with the clock, the
input, the speed and the counters that the next event is recorded with.  It knows nothing of blobs,
deltas and sinks.
-/

set_option autoImplicit false

namespace SuperShuckie

open ByteFormat

/-- A recording as a list of events. -/
structure Tape where
  elapsedFrames : UnsignedInteger
  elapsedMillis : TimestampMillis
  input : InputBuffer
  speed : Speed
  counters : OrdMap String SignedInteger
  events : List Packet

namespace Tape

/-- The tape before any event. -/
def blank (input : InputBuffer) (speed : Speed) : Tape :=
  { elapsedFrames := 0, elapsedMillis := 0, input, speed, counters := OrdMap.empty, events := [] }

/-- The metadata of a keyframe recorded at `elapsedMillis`. -/
def keyframeMetadata (tape : Tape) (elapsedMillis : TimestampMillis) : KeyframeMetadata :=
  { input := tape.input
    speed := tape.speed
    elapsedFrames := tape.elapsedFrames
    elapsedMillis
    counters := tape.counters.entries.map fun e ↦ ⟨e.1, e.2⟩ }

/-- The tape with one more event. -/
def add (tape : Tape) (event : Packet) : Tape := { tape with events := tape.events ++ [event] }

/-- What a call records. -/
def record (tape : Tape) : Call → Tape
  | .nextFrame timestamp =>
    { tape with
      elapsedFrames := tape.elapsedFrames + 1
      elapsedMillis := timestamp }.add (.nextFrame (timestamp - tape.elapsedMillis))
  | .insertKeyframe state elapsedMillis _ =>
    { tape with elapsedMillis }.add (.keyframe (tape.keyframeMetadata elapsedMillis) state)
  | .setInput input => { tape with input }.add (.changeInput input)
  | .setSpeed speed =>
    if tape.speed = speed then tape else { tape with speed }.add (.changeSpeed speed)
  | .writeMemory address data => tape.add (.writeMemory address data)
  | .resetConsole => tape.add .resetConsole
  | .loadSaveState state => tape.add (.loadSaveState state)
  | .serialIn data => if data.isEmpty then tape else tape.add (.serialIn data)
  | .changeCounter name delta =>
    { tape with
      counters := tape.counters.alter name fun
        | some v => v + delta
        | none => delta }.add (.incrementCounter name delta)
  | _ => tape

/-- What calls record, one after the other. -/
def recordAll (tape : Tape) (calls : List Call) : Tape := calls.foldl record tape

end Tape

/-- The calls that an emulator without link cable makes while it records, whatever its console. -/
def Call.isBasic : Call → Bool
  | .nextFrame _ => true
  | .insertKeyframe .. => true
  | .setInput _ => true
  | .setSpeed _ => true
  | .writeMemory .. => true
  | .resetConsole => true
  | .loadSaveState _ => true
  | .changeCounter .. => true
  | .setBookmarkTable _ => true
  | _ => false

/-- Whether a packet is an event, and not a snapshot of the bookmarks. -/
def isEvent : Packet → Bool
  | .bookmarkTable _ => false
  | _ => true

end SuperShuckie
