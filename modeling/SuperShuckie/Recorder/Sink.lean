import SuperShuckie.Header
import SuperShuckie.Lib.Action

/-!
# Sinks

A sink stores the bytes of a replay file.  Any of its operations may fail; a write that fails may
have stored some of its bytes.  A sink therefore carries the outcomes of its operations to come,
in the order in which they are made; once these are used up, every operation succeeds.
-/

set_option autoImplicit false

namespace SuperShuckie

open ByteFormat

/-- Why a recorder operation failed. -/
inductive ReplayFileWriteError
  | badInput (explanation : String)
  | streamClosed
  | poisoned
  /-- The temp sink failed a write; the recording goes on without it. -/
  | tempSink (explanation : String)
  | other (explanation : String)
deriving DecidableEq

def ReplayFileWriteError.toText : ReplayFileWriteError → String
  | .badInput explanation => s!"Bad input: {explanation}"
  | .streamClosed => "The stream has closed"
  | .poisoned => "Failed to write due to being in an error state"
  | .tempSink explanation => explanation
  | .other explanation => explanation

/-- Whether an error is the notice of a failed temp sink. -/
def isTempSinkError : ReplayFileWriteError → Bool
  | .tempSink _ => true
  | _ => false

/-- How an operation on a sink goes. -/
inductive SinkOutcome
  | ok
  /-- It fails, a write having stored its first `kept` bytes. -/
  | fail (kept : Nat) (explanation : String)
deriving DecidableEq

/-- Something that stores bytes contiguously. -/
structure Sink where
  bytes : Bytes
  script : List SinkOutcome
deriving DecidableEq

/-- An empty sink none of whose operations fails. -/
def Sink.reliable : Sink := ⟨[], []⟩

namespace Sink

abbrev SinkAction (α : Type) := Act ReplayFileWriteError Sink α

/-- Perform an operation that changes the bytes by `done`, or by `kept n` when it fails. -/
def perform (done : Bytes → Bytes) (kept : Nat → Bytes → Bytes) : SinkAction Unit := fun s ↦
  match s.script with
  | [] => .ok () { s with bytes := done s.bytes }
  | .ok :: script => .ok () ⟨done s.bytes, script⟩
  | .fail n explanation :: script => .error (.other explanation) ⟨kept n s.bytes, script⟩

/-- Write bytes to the end of the sink. -/
def writeBytes (bytes : Bytes) : SinkAction Unit :=
  perform (· ++ bytes) fun n stored ↦ stored ++ bytes.take n

/-- Write a packet, given by the bytes of its write instructions; returns how many they are. -/
def writePacketData (bytes : Bytes) : SinkAction Nat := do
  writeBytes bytes
  pure bytes.length

/-- Truncate the sink to the given size. -/
def truncate (size : Nat) : SinkAction Unit := perform (List.take size) fun _ stored ↦ stored

/-- Write the header at the start of the file. -/
def overwriteHeader (header : Bytes) : SinkAction Unit :=
  perform (fun stored ↦ header ++ stored.drop header.length)
    fun n stored ↦ header.take n ++ stored.drop (min n header.length)

/-- Make buffered writes visible. -/
def flush : SinkAction Unit := perform id fun _ stored ↦ stored

end Sink

/-- `write_packet_data` of an in-memory buffer, which holds at most `isize::MAX` bytes. -/
def vecWritePacketData (buffer bytes : Bytes) : Except ReplayFileWriteError Bytes :=
  if buffer.length + bytes.length < 2 ^ 63 then .ok (buffer ++ bytes)
  else .error (.other "write_packet_data failed to reserve memory")

/-- `write_bytes` of an in-memory buffer. -/
def vecWriteBytes (buffer bytes : Bytes) : Except ReplayFileWriteError Bytes :=
  if buffer.length + bytes.length < 2 ^ 63 then .ok (buffer ++ bytes)
  else .error (.other "write_bytes failed to reserve memory")

end SuperShuckie
