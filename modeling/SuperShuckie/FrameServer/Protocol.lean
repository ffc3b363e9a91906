import SuperShuckie.Lib.Reader

/-!
# The messages of the frame server

A client asks for pictures, sound and memory of a recording by number; the server answers with the
id that a request came with, or with 0 where requests have none.
-/

set_option autoImplicit false

namespace SuperShuckie.FrameServer

open ByteFormat

/-- The protocol version this server speaks. -/
def protocolVersion : UInt32 := 1

/-- The most a `memory` request may ask for in all. -/
def maxMemoryBytes : Nat := 64 * 2 ^ 20

/-- A request from the client. -/
inductive Request
  | hello (protocol : UInt32)
  /-- `Open`: a ROM and a recording of it. -/
  | openSource (rom replay : String) (layout : UInt8) (audio : Bool)
  | frame (id : UInt32) (index : UInt64)
  /-- The pictures from `start` up to `stop`. -/
  | run (id : UInt32) (start stop : UInt64)
  | audio (id : UInt32) (firstFrame : UInt64) (frames : UInt32)
  | cancel (id : UInt32)
  | close
  /-- The bytes at `(address, length)` blocks of memory once a picture has been produced. -/
  | memory (id : UInt32) (index : UInt64) (blocks : List (UInt32 × UInt32))
  /-- The timer, elapsed time and counters once a picture has been produced. -/
  | stats (id : UInt32) (index : UInt64)
deriving DecidableEq

/-- What an opened source is like. -/
structure Info where
  console : String
  width : UInt32
  height : UInt32
  fpsNum : UInt32
  fpsDen : UInt32
  frames : UInt64
  sampleRate : UInt32
  romOk : Bool
  coreRecorded : String
  coreRunning : String
  keyframes : List UInt64
  bookmarks : List (String × UInt64)
  crop : Option (UInt64 × UInt64)
  counters : List (String × Int64)
deriving DecidableEq

/-- A reply to the client. -/
inductive Reply
  | hello (protocol : UInt32) (server : String) (cores : List String)
  | info (info : Info)
  | frame (id : UInt32) (index : UInt64) (pixels : Bytes)
  | done (id : UInt32)
  /-- `samples` are interleaved (left, right, ...). -/
  | audio (id : UInt32) (firstFrame : UInt64) (frames : UInt32) (samples : List Int16)
  | cancelled (id : UInt32)
  | memory (id : UInt32) (index : UInt64) (data : Bytes)
  | stats (id : UInt32) (index : UInt64) (json : String)
  | error (id : UInt32) (message : String)
deriving DecidableEq

/-- What the reader thread delivers. -/
inductive Inbound
  | request (request : Request)
  /-- A message that was framed correctly but did not decode. -/
  | malformed (message : String)
  /-- The input ended. -/
  | ended
deriving DecidableEq

end SuperShuckie.FrameServer
