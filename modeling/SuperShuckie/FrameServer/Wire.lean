import SuperShuckie.FrameServer.Protocol
import SuperShuckie.Lib.Metered
import SuperShuckie.Packet.Primitives

/-!
# The wire format of the frame server

Everything is little-endian.  A message is its length, a tag and a payload, and the length counts the
tag and the payload.  A string is its length and its bytes in UTF-8, and a list is its length and its
items.  Pictures and memory are the raw tail of a message.

A decoder notes what it makes room for: `Allocation.cost` is how many bytes of a message an allocation
stands for, and no decoder here spends more than it takes (`Within`).
-/

set_option autoImplicit false

namespace SuperShuckie.FrameServer

open ByteFormat ByteFormat.Metered

/-- Longest message accepted from the client. -/
def maxRequestLength : UInt32 := 2 ^ 20

/-- Why a message could not be decoded. -/
inductive DecodeError
  | truncated
  | unknownTag (tag : UInt8)
  | badString
  | trailingBytes (count : Nat)
  | tooLong (len : UInt32)
deriving DecidableEq

/-- What a decoder makes room for. -/
inductive Allocation
  /-- A copy of some bytes. -/
  | bytes (len : Nat)
  /-- A vector for as many blocks of memory. -/
  | blocks (count : Nat)
  /-- One item more of a vector. -/
  | item
deriving DecidableEq

/-- The bytes of a message that an allocation stands for: a block has eight, an item of any list at
least four. -/
def Allocation.cost : Allocation → Nat
  | .bytes len => len
  | .blocks count => 8 * count
  | .item => 4

abbrev Decoder (α : Type) := Metered Allocation DecodeError α

/-! ## Writing -/

namespace Encoder

def u8 (v : UInt8) : Bytes := [v]
def u32 (v : UInt32) : Bytes := leBytes 4 v.toNat
def u64 (v : UInt64) : Bytes := leBytes 8 v.toNat
def i64 (v : Int64) : Bytes := leBytes 8 v.toUInt64.toNat
def i16 (v : Int16) : Bytes := leBytes 2 v.toUInt16.toNat

/-- `u8::from(b)`. -/
def flag (b : Bool) : Bytes := u8 (if b then 1 else 0)

def string (s : String) : Bytes := u32 (UInt32.ofNat (strBytes s).length) ++ strBytes s

/-- The items of a list, one after the other, preceded by their number. -/
def list {α : Type} (write : α → Bytes) (as : List α) : Bytes :=
  u32 (UInt32.ofNat as.length) ++ as.flatMap write

/-- One framed message of `body`, which is a tag and a payload. -/
def frame (body : Bytes) : Bytes := u32 (UInt32.ofNat body.length) ++ body

end Encoder

open Encoder in
/-- The tag and the payload of a request: `encode` writes the frame of them. -/
def Request.body : Request → Bytes
  | .hello protocol => u8 0x01 ++ u32 protocol
  | .openSource rom replay layout withAudio =>
    u8 0x02 ++ (string rom ++ (string replay ++ (u8 layout ++ flag withAudio)))
  | .frame id index => u8 0x03 ++ (u32 id ++ u64 index)
  | .run id start stop => u8 0x04 ++ (u32 id ++ (u64 start ++ u64 stop))
  | .audio id firstFrame frames => u8 0x05 ++ (u32 id ++ (u64 firstFrame ++ u32 frames))
  | .cancel id => u8 0x06 ++ u32 id
  | .close => u8 0x07
  | .memory id index blocks =>
    u8 0x08 ++ (u32 id ++ (u64 index ++ list (fun block ↦ u32 block.1 ++ u32 block.2) blocks))
  | .stats id index => u8 0x0A ++ (u32 id ++ u64 index)

open Encoder in
/-- The crop of a recording: whether there is one, and where it starts and ends. -/
def encodeCrop : Option (UInt64 × UInt64) → Bytes
  | some (start, stop) => u8 1 ++ (u64 start ++ u64 stop)
  | none => u8 0 ++ (u64 0 ++ u64 0)

open Encoder in
/-- The payload of an `Info` reply. -/
def Info.encode (info : Info) : Bytes :=
  string info.console ++ (u32 info.width ++ (u32 info.height ++ (u32 info.fpsNum ++
    (u32 info.fpsDen ++ (u64 info.frames ++ (u32 info.sampleRate ++ (flag info.romOk ++
      (string info.coreRecorded ++ (string info.coreRunning ++ (list u64 info.keyframes ++
        (list (fun bookmark ↦ string bookmark.1 ++ u64 bookmark.2) info.bookmarks ++
          (encodeCrop info.crop ++
            list (fun counter ↦ string counter.1 ++ i64 counter.2) info.counters))))))))))))

open Encoder in
/-- The tag and the payload of a reply: `encode` writes the frame of them. -/
def Reply.body : Reply → Bytes
  | .hello protocol server cores => u8 0x81 ++ (u32 protocol ++ (string server ++ list string cores))
  | .info source => u8 0x82 ++ source.encode
  | .frame id index pixels => u8 0x83 ++ (u32 id ++ (u64 index ++ pixels))
  | .done id => u8 0x84 ++ u32 id
  | .audio id firstFrame frames samples =>
    u8 0x85 ++ (u32 id ++ (u64 firstFrame ++ (u32 frames ++ list i16 samples)))
  | .cancelled id => u8 0x86 ++ u32 id
  | .memory id index data => u8 0x87 ++ (u32 id ++ (u64 index ++ data))
  | .stats id index json => u8 0x88 ++ (u32 id ++ (u64 index ++ string json))
  | .error id message => u8 0x8F ++ (u32 id ++ string message)

/-! ## Reading -/

namespace Decoder

def u8 : Decoder UInt8 := do
  let n ← number .truncated 1
  pure (UInt8.ofNat n)

def u32 : Decoder UInt32 := do
  let n ← number .truncated 4
  pure (UInt32.ofNat n)

def u64 : Decoder UInt64 := do
  let n ← number .truncated 8
  pure (UInt64.ofNat n)

def i64 : Decoder Int64 := do
  let n ← number .truncated 8
  pure (UInt64.ofNat n).toInt64

/-- `self.u8()? != 0`. -/
def flag : Decoder Bool := do
  let b ← u8
  pure (b != 0)

/-- A string, whose bytes are copied before they are looked at. -/
def string : Decoder String := do
  let len ← u32
  let bytes ← take .truncated len.toNat
  alloc (.bytes len.toNat)
  match String.fromUTF8? ⟨bytes.toArray⟩ with
  | some s => pure s
  | none => fail .badString

/-- A copy of all that is left. -/
def rest : Decoder Bytes := fun bs ↦ (.ok (bs, []), [.bytes bs.length])

/-- A list whose vector grows with each item that is pushed. -/
def list {α : Type} (item : Decoder α) : Decoder (List α) := do
  let n ← u32
  repeated (do
    let a ← item
    alloc .item
    pure a) n.toNat

/-- An `(address, length)` block. -/
def block : Decoder (UInt32 × UInt32) := do
  let address ← u32
  let length ← u32
  pure (address, length)

/-- The blocks of a `Memory` request: a count the payload cannot hold is refused before anything is
allocated for it. -/
def blocks : Decoder (List (UInt32 × UInt32)) := do
  let n ← u32
  let bytes ← left
  if bytes.length < n.toNat * 8 then fail .truncated
  else do
    alloc (.blocks n.toNat)
    repeated block n.toNat

/-- `chunks_exact(2)` of bytes, each a sample. -/
def samplesOf : Bytes → List Int16
  | low :: high :: bytes => (UInt16.ofNat (ofLeBytes [low, high])).toInt16 :: samplesOf bytes
  | _ => []

/-- The samples of an `Audio` reply. -/
def samples : Decoder (List Int16) := do
  let n ← u32
  let raw ← take .truncated (n.toNat * 2)
  alloc (.bytes (n.toNat * 2))
  pure (samplesOf raw)

def bookmark : Decoder (String × UInt64) := do
  let name ← string
  let frame ← u64
  pure (name, frame)

def counter : Decoder (String × Int64) := do
  let name ← string
  let value ← i64
  pure (name, value)

def crop : Decoder (Option (UInt64 × UInt64)) := do
  let hasCrop ← flag
  let start ← u64
  let stop ← u64
  pure (if hasCrop then some (start, stop) else none)

/-- The payload of a request with a tag. -/
def request : UInt8 → Decoder Request
  | 0x01 => do
    let protocol ← u32
    pure (.hello protocol)
  | 0x02 => do
    let rom ← string
    let replay ← string
    let layout ← u8
    let audio ← flag
    pure (.openSource rom replay layout audio)
  | 0x03 => do
    let id ← u32
    let index ← u64
    pure (.frame id index)
  | 0x04 => do
    let id ← u32
    let start ← u64
    let stop ← u64
    pure (.run id start stop)
  | 0x05 => do
    let id ← u32
    let firstFrame ← u64
    let frames ← u32
    pure (.audio id firstFrame frames)
  | 0x06 => do
    let id ← u32
    pure (.cancel id)
  | 0x07 => pure .close
  | 0x08 => do
    let id ← u32
    let index ← u64
    let blocks ← blocks
    pure (.memory id index blocks)
  | 0x0A => do
    let id ← u32
    let index ← u64
    pure (.stats id index)
  | other => fail (.unknownTag other)

/-- The payload of an `Info` reply. -/
def info : Decoder Info := do
  let console ← string
  let width ← u32
  let height ← u32
  let fpsNum ← u32
  let fpsDen ← u32
  let frames ← u64
  let sampleRate ← u32
  let romOk ← flag
  let coreRecorded ← string
  let coreRunning ← string
  let keyframes ← list u64
  let bookmarks ← list bookmark
  let crop ← crop
  let counters ← list counter
  pure ⟨console, width, height, fpsNum, fpsDen, frames, sampleRate, romOk, coreRecorded, coreRunning,
    keyframes, bookmarks, crop, counters⟩

/-- The payload of a reply with a tag. -/
def reply : UInt8 → Decoder Reply
  | 0x81 => do
    let protocol ← u32
    let server ← string
    let cores ← list string
    pure (.hello protocol server cores)
  | 0x82 => do
    let info ← info
    pure (.info info)
  | 0x83 => do
    let id ← u32
    let index ← u64
    let pixels ← rest
    pure (.frame id index pixels)
  | 0x84 => do
    let id ← u32
    pure (.done id)
  | 0x85 => do
    let id ← u32
    let firstFrame ← u64
    let frames ← u32
    let samples ← samples
    pure (.audio id firstFrame frames samples)
  | 0x86 => do
    let id ← u32
    pure (.cancelled id)
  | 0x87 => do
    let id ← u32
    let index ← u64
    let data ← rest
    pure (.memory id index data)
  | 0x88 => do
    let id ← u32
    let index ← u64
    let json ← string
    pure (.stats id index json)
  | 0x8F => do
    let id ← u32
    let message ← string
    pure (.error id message)
  | other => fail (.unknownTag other)

/-- The end of the message. -/
def finish : Decoder Unit := do
  let rest ← left
  if rest = [] then pure () else fail (.trailingBytes rest.length)

/-- A whole message body, whose payload is decoded by its tag. -/
def message {α : Type} (payload : UInt8 → Decoder α) : Decoder α := do
  let tag ← u8
  let value ← payload tag
  finish
  pure value

end Decoder

/-- What a whole body decodes to. -/
def decodeWith {α : Type} (payload : UInt8 → Decoder α) (body : Bytes) : Except DecodeError α :=
  ((Decoder.message payload).result body).map Prod.fst

/-- Decode one message body (tag and payload, without the length prefix). -/
def Request.decode (body : Bytes) : Except DecodeError Request := decodeWith Decoder.request body

def Reply.decode (body : Bytes) : Except DecodeError Reply := decodeWith Decoder.reply body

end SuperShuckie.FrameServer
