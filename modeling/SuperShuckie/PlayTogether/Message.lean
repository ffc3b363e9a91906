import SuperShuckie.PlayTogether.Wire
import SuperShuckie.Header

/-!
# The messages of Play Together

Every message of the protocol, what it looks like on the wire, and how it is taken apart again.  A
frame is the length of the body, followed by the body: a tag and the payload of that tag.
-/

set_option autoImplicit false

namespace SuperShuckie

open ByteFormat ByteFormat.Metered

namespace PlayTogether

/-! ## Limits -/

/-- Longest framed message (tag and payload) for the tags that carry replay data. -/
def maxMessageLength : Nat := 48 * 2 ^ 20
/-- Longest framed message for every other tag, known or unknown. -/
def maxSmallMessageLength : Nat := 64 * 2 ^ 10
def maxParticipants : Nat := 8
def maxDisplayNameBytes : Nat := 32
def maxMetadataStringBytes : Nat := 255
def maxAppVersionBytes : Nat := 64
def maxTextBytes : Nat := 1024
def maxInputBytes : Nat := 64
def maxCounters : Nat := 256
def maxCounterNameBytes : Nat := 255
/-- Longest decompressed save state a snapshot may carry. -/
def maxStateLength : Nat := 48 * 2 ^ 20
def maxLinkEventBytes : Nat := 32 * 2 ^ 10
/-- Longest input delay, in frames, either side may ask for. -/
def maxLinkDelay : UInt8 := 15
/-- How many colours there are; always more than participants. -/
def colorCount : UInt8 := 22

/-- A wire value that names a palette entry. -/
def isValidColor (color : PlayerColor) : Bool := color != 0 && color ≤ colorCount

/-! ## Enumerations -/

/-- Why a host refused a `Hello`. -/
inductive RefusalReason
  | protocolVersion | replayVersion | sessionFull | consoleUnsupported | patchedRomUnsupported
  | badHello | hostShuttingDown | startStateMismatch
deriving DecidableEq

namespace RefusalReason

def toU32 : RefusalReason → UInt32
  | protocolVersion => 0
  | replayVersion => 1
  | sessionFull => 2
  | consoleUnsupported => 3
  | patchedRomUnsupported => 4
  | badHello => 5
  | hostShuttingDown => 6
  | startStateMismatch => 7

def all : List RefusalReason :=
  [protocolVersion, replayVersion, sessionFull, consoleUnsupported, patchedRomUnsupported,
    badHello, hostShuttingDown, startStateMismatch]

def tryFrom (value : UInt32) : Option RefusalReason := all.find? fun r ↦ r.toU32 == value

theorem tryFrom_toU32 (r : RefusalReason) : tryFrom r.toU32 = some r := by
  cases r <;> rfl

theorem toU32_of_tryFrom {n : UInt32} {r : RefusalReason} (h : tryFrom n = some r) : r.toU32 = n := by
  have hr := List.find?_some h
  exact eq_of_beq hr

end RefusalReason

/-- Why a participant is no longer in the session. -/
inductive LeaveReason
  | left | timeout | tooSlow | protocolError | ioError | kicked | hostLeft
deriving DecidableEq

namespace LeaveReason

def toU32 : LeaveReason → UInt32
  | left => 0
  | timeout => 1
  | tooSlow => 2
  | protocolError => 3
  | ioError => 4
  | kicked => 5
  | hostLeft => 6

def all : List LeaveReason := [left, timeout, tooSlow, protocolError, ioError, kicked, hostLeft]

def tryFrom (value : UInt32) : Option LeaveReason := all.find? fun r ↦ r.toU32 == value

theorem tryFrom_toU32 (r : LeaveReason) : tryFrom r.toU32 = some r := by
  cases r <;> rfl

theorem toU32_of_tryFrom {n : UInt32} {r : LeaveReason} (h : tryFrom n = some r) : r.toU32 = n := by
  have hr := List.find?_some h
  exact eq_of_beq hr

end LeaveReason

/-- Why a link request was declined. -/
inductive LinkDeclineReason
  | declined | busy | consoleMismatch | notFollowing | timeout | unavailable
  /-- A reason this version does not know. -/
  | other
deriving DecidableEq

namespace LinkDeclineReason

def toU32 : LinkDeclineReason → UInt32
  | declined => 0
  | busy => 1
  | consoleMismatch => 2
  | notFollowing => 3
  | timeout => 4
  | unavailable => 5
  | other => 0xFFFFFFFF

def all : List LinkDeclineReason :=
  [declined, busy, consoleMismatch, notFollowing, timeout, unavailable]

/-- A value that this version does not know is some other reason. -/
def ofU32 (value : UInt32) : LinkDeclineReason :=
  (all.find? fun r ↦ r.toU32 == value).getD other

theorem ofU32_toU32 (r : LinkDeclineReason) : ofU32 r.toU32 = r := by
  cases r <;> rfl

theorem toU32_ofU32 {n : UInt32} (h : ofU32 n ≠ other) : (ofU32 n).toU32 = n := by
  unfold ofU32 at *
  cases hfind : all.find? fun r ↦ r.toU32 == n with
  | none =>
    rw [hfind] at h
    exact absurd rfl h
  | some r =>
    have hr := List.find?_some hfind
    exact eq_of_beq hr

end LinkDeclineReason

/-- Why a link cable was unplugged. -/
inductive UnlinkReason
  | unplugged | desync | timeout | peerLeft | failed | busy
  /-- A reason this version does not know. -/
  | other
deriving DecidableEq

namespace UnlinkReason

def toU32 : UnlinkReason → UInt32
  | unplugged => 0
  | desync => 1
  | timeout => 2
  | peerLeft => 3
  | failed => 4
  | busy => 5
  | other => 0xFFFFFFFF

def all : List UnlinkReason := [unplugged, desync, timeout, peerLeft, failed, busy]

/-- A value that this version does not know is some other reason. -/
def ofU32 (value : UInt32) : UnlinkReason := (all.find? fun r ↦ r.toU32 == value).getD other

theorem ofU32_toU32 (r : UnlinkReason) : ofU32 r.toU32 = r := by
  cases r <;> rfl

theorem toU32_ofU32 {n : UInt32} (h : ofU32 n ≠ other) : (ofU32 n).toU32 = n := by
  unfold ofU32 at *
  cases hfind : all.find? fun r ↦ r.toU32 == n with
  | none =>
    rw [hfind] at h
    exact absurd rfl h
  | some r =>
    have hr := List.find?_some hfind
    exact eq_of_beq hr

end UnlinkReason

/-- How a state is encoded on the wire. -/
inductive StateEncoding
  | raw | zstd
deriving DecidableEq

namespace StateEncoding

def toU8 : StateEncoding → UInt8
  | raw => 0
  | zstd => 1

def tryFrom (value : UInt8) : Option StateEncoding :=
  [raw, zstd].find? fun e ↦ e.toU8 == value

theorem tryFrom_toU8 (e : StateEncoding) : tryFrom e.toU8 = some e := by
  cases e <;> rfl

theorem toU8_of_tryFrom {n : UInt8} {e : StateEncoding} (h : tryFrom n = some e) : e.toU8 = n := by
  have he := List.find?_some h
  exact eq_of_beq he

end StateEncoding

/-! ## Messages -/

/-- What a participant publishes: its replay metadata and where its stream starts. -/
structure PublisherInfo where
  /-- Crops and the timer offset are not sent on the wire. -/
  metadata : ReplayFileMetadata
  initialInput : InputBuffer
  speed : Speed
  frame : UInt64
deriving DecidableEq

/-- One participant as everyone sees it. -/
structure ParticipantInfo where
  peerId : PeerId
  displayName : String
  /-- The colour the host gave it, never 0. -/
  color : PlayerColor
  appVersion : String
  publisher : PublisherInfo
deriving DecidableEq

/-- A snapshot as it travels: the state still encoded. -/
structure WireSnapshot where
  fromPeer : PeerId
  /-- Who it is for; 0 for every other participant. -/
  target : PeerId
  frame : UInt64
  elapsedMillis : UInt64
  input : InputBuffer
  speed : Speed
  counters : List (String × Int64)
  encoding : StateEncoding
  /-- The decompressed length of the state. -/
  stateLen : UInt64
  state : Bytes
deriving DecidableEq

/-- A start state as it travels. -/
structure WireStartState where
  romChecksum : Blake3Hash
  encoding : StateEncoding
  stateLen : UInt64
  state : Bytes
deriving DecidableEq

/-- Every message of the protocol. -/
inductive Message
  | hello (protocolVersion replayVersion : UInt32) (appVersion displayName : String)
      (color : PlayerColor) (publisher : PublisherInfo)
  | welcome (yourPeerId : PeerId) (sessionId : SessionId) (yourDisplayName : String)
      (yourColor : PlayerColor) (participants : List ParticipantInfo)
  | refused (reason : RefusalReason) (text : String)
  | peerJoined (participant : ParticipantInfo)
  | peerLeft (peerId : PeerId) (reason : LeaveReason)
  | resetAll (raceId countdownMillis : UInt32)
  | syncPause (enabled paused hostOnly : Bool)
  | pause (fromPeer : PeerId) (paused : Bool)
  | stream (fromPeer : PeerId) (firstFrame : UInt64) (bytes : Bytes)
  | snapshot (snapshot : WireSnapshot)
  | syncHash (fromPeer : PeerId) (frame : UInt64) (hash : Blake3Hash)
  | requestSnapshot (requester target : PeerId)
  | startState (state : WireStartState)
  | ping (nonce : UInt32) (sentUnixMillis : UInt64)
  | pong (nonce : UInt32) (sentUnixMillis : UInt64)
  | goodbye
  | error (text : String)
  | linkRequest (fromPeer target : PeerId) (nonce console : UInt32)
  | linkAccept (fromPeer target : PeerId) (nonce : UInt32)
  | linkDecline (fromPeer target : PeerId) (nonce : UInt32) (reason : LinkDeclineReason)
  | linkStart (fromPeer target : PeerId) (nonce : UInt32) (frame : UInt64) (input : InputBuffer)
      (rttMillis : UInt32) (delaySetting : UInt8) (speed : Speed)
  | linkFrame (fromPeer target : PeerId) (frame elapsedMillis : UInt64) (events : Bytes)
      (pairHashFrame : UInt64) (pairHash : Blake3Hash)
  | unlink (fromPeer target : PeerId) (reason : UnlinkReason)
  | peerLinked (a b : PeerId)
  | peerUnlinked (a b : PeerId)
  | linkSpeed (speed : Speed)
deriving DecidableEq

/-- The tags of the messages. -/
inductive Tag
  | hello | welcome | refused | peerJoined | peerLeft | resetAll | syncPause | pause
  | stream | snapshot | syncHash | requestSnapshot | startState
  | ping | pong | goodbye | error
  | linkRequest | linkAccept | linkDecline | linkStart | linkFrame | unlink
  | peerLinked | peerUnlinked | linkSpeed
deriving DecidableEq

namespace Tag

def toByte : Tag → UInt8
  | hello => 0x01
  | welcome => 0x02
  | refused => 0x03
  | peerJoined => 0x04
  | peerLeft => 0x05
  | resetAll => 0x06
  | syncPause => 0x07
  | pause => 0x08
  | stream => 0x10
  | snapshot => 0x11
  | syncHash => 0x12
  | requestSnapshot => 0x13
  | startState => 0x14
  | ping => 0x20
  | pong => 0x21
  | goodbye => 0x22
  | error => 0x2F
  | linkRequest => 0x30
  | linkAccept => 0x31
  | linkDecline => 0x32
  | linkStart => 0x33
  | linkFrame => 0x34
  | unlink => 0x35
  | peerLinked => 0x36
  | peerUnlinked => 0x37
  | linkSpeed => 0x38

def all : List Tag :=
  [hello, welcome, refused, peerJoined, peerLeft, resetAll, syncPause, pause, stream, snapshot,
    syncHash, requestSnapshot, startState, ping, pong, goodbye, error, linkRequest, linkAccept,
    linkDecline, linkStart, linkFrame, unlink, peerLinked, peerUnlinked, linkSpeed]

def tryFrom (b : UInt8) : Option Tag := all.find? fun t ↦ t.toByte == b

theorem tryFrom_toByte (t : Tag) : tryFrom t.toByte = some t := by
  cases t <;> rfl

theorem toByte_of_tryFrom {b : UInt8} {t : Tag} (h : tryFrom b = some t) : t.toByte = b := by
  have ht := List.find?_some h
  exact eq_of_beq ht

end Tag

/-- The tags whose messages may be as long as `maxMessageLength`. -/
def largeTags : List UInt8 := [Tag.stream.toByte, Tag.snapshot.toByte, Tag.startState.toByte]

/-- The longest framed length (tag and payload) accepted for a message with this tag. -/
def maxLengthOf (tag : UInt8) : Nat :=
  if tag ∈ largeTags then maxMessageLength else maxSmallMessageLength

def Message.tag : Message → Tag
  | .hello .. => .hello
  | .welcome .. => .welcome
  | .refused .. => .refused
  | .peerJoined .. => .peerJoined
  | .peerLeft .. => .peerLeft
  | .resetAll .. => .resetAll
  | .syncPause .. => .syncPause
  | .pause .. => .pause
  | .stream .. => .stream
  | .snapshot .. => .snapshot
  | .syncHash .. => .syncHash
  | .requestSnapshot .. => .requestSnapshot
  | .startState .. => .startState
  | .ping .. => .ping
  | .pong .. => .pong
  | .goodbye => .goodbye
  | .error .. => .error
  | .linkRequest .. => .linkRequest
  | .linkAccept .. => .linkAccept
  | .linkDecline .. => .linkDecline
  | .linkStart .. => .linkStart
  | .linkFrame .. => .linkFrame
  | .unlink .. => .unlink
  | .peerLinked .. => .peerLinked
  | .peerUnlinked .. => .peerUnlinked
  | .linkSpeed .. => .linkSpeed

/-! ## Encoding -/

open Encoder in
def PublisherInfo.encode (p : PublisherInfo) : Bytes :=
  u32 (UInt32.ofNat p.metadata.consoleType.toNat) ++ (string p.metadata.romName ++
  (string p.metadata.romFilename ++ (hash p.metadata.romChecksum ++
  (hash p.metadata.biosChecksum ++ (string p.metadata.emulatorCoreName ++
  (u32 (UInt32.ofNat p.metadata.patchFormat.toNat) ++ (hash p.metadata.patchTargetChecksum ++
  (bytes p.initialInput ++ (u16 p.speed.speedOver256 ++ u64 p.frame)))))))))

open Encoder in
def ParticipantInfo.encode (p : ParticipantInfo) : Bytes :=
  u16 p.peerId ++ (string p.displayName ++ (u8 p.color ++ (string p.appVersion ++
    p.publisher.encode)))

/-- A counter of a snapshot. -/
def encodeCounter (counter : String × Int64) : Bytes :=
  Encoder.string counter.1 ++ Encoder.i64 counter.2

open Encoder in
/-- The payload of a message. -/
def Message.encodePayload : Message → Bytes
  | .hello protocolVersion replayVersion appVersion displayName color publisher =>
    u32 protocolVersion ++ (u32 replayVersion ++ (string appVersion ++ (string displayName ++
      (u8 color ++ publisher.encode))))
  | .welcome yourPeerId sessionId yourDisplayName yourColor participants =>
    u16 yourPeerId ++ (u64 sessionId ++ (string yourDisplayName ++ (u8 yourColor ++
      vec ParticipantInfo.encode participants)))
  | .refused reason text => u32 reason.toU32 ++ string text
  | .peerJoined participant => participant.encode
  | .peerLeft peerId reason => u16 peerId ++ u32 reason.toU32
  | .resetAll raceId countdownMillis => u32 raceId ++ u32 countdownMillis
  | .syncPause enabled paused hostOnly => bool enabled ++ (bool paused ++ bool hostOnly)
  | .pause fromPeer paused => u16 fromPeer ++ bool paused
  | .stream fromPeer firstFrame b => u16 fromPeer ++ (u64 firstFrame ++ bytes b)
  | .snapshot s =>
    u16 s.fromPeer ++ (u16 s.target ++ (u64 s.frame ++ (u64 s.elapsedMillis ++ (bytes s.input ++
      (u16 s.speed.speedOver256 ++ (vec encodeCounter s.counters ++ (u8 s.encoding.toU8 ++
      (u64 s.stateLen ++ bytes s.state))))))))
  | .syncHash fromPeer frame h => u16 fromPeer ++ (u64 frame ++ hash h)
  | .requestSnapshot requester target => u16 requester ++ u16 target
  | .startState s =>
    hash s.romChecksum ++ (u8 s.encoding.toU8 ++ (u64 s.stateLen ++ bytes s.state))
  | .ping nonce sentUnixMillis | .pong nonce sentUnixMillis => u32 nonce ++ u64 sentUnixMillis
  | .goodbye => []
  | .error text => string text
  | .linkRequest fromPeer target nonce console =>
    u16 fromPeer ++ (u16 target ++ (u32 nonce ++ u32 console))
  | .linkAccept fromPeer target nonce => u16 fromPeer ++ (u16 target ++ u32 nonce)
  | .linkDecline fromPeer target nonce reason =>
    u16 fromPeer ++ (u16 target ++ (u32 nonce ++ u32 reason.toU32))
  | .linkStart fromPeer target nonce frame input rttMillis delaySetting speed =>
    u16 fromPeer ++ (u16 target ++ (u32 nonce ++ (u64 frame ++ (bytes input ++ (u32 rttMillis ++
      (u8 delaySetting ++ u16 speed.speedOver256))))))
  | .linkFrame fromPeer target frame elapsedMillis events pairHashFrame pairHash =>
    u16 fromPeer ++ (u16 target ++ (u64 frame ++ (u64 elapsedMillis ++ (bytes events ++
      (u64 pairHashFrame ++ hash pairHash)))))
  | .unlink fromPeer target reason => u16 fromPeer ++ (u16 target ++ u32 reason.toU32)
  | .linkSpeed speed => u16 speed.speedOver256
  | .peerLinked a b | .peerUnlinked a b => u16 a ++ u16 b

/-- Tag and payload. -/
def Message.encodeBody (m : Message) : Bytes := m.tag.toByte :: m.encodePayload

/-- One framed message: the length of the body, and the body. -/
def frame (body : Bytes) : Bytes := Encoder.u32 (UInt32.ofNat body.length) ++ body

/-- The framed message. -/
def Message.encode (m : Message) : Bytes := frame m.encodeBody

/-! ## Decoding -/

/-- The fewest bytes a `PublisherInfo` can occupy on the wire. -/
def publisherMinBytes : Nat := 4 + 4 + 4 + 32 + 32 + 4 + 4 + 32 + 4 + 2 + 8

/-- The fewest bytes a `ParticipantInfo` can occupy on the wire. -/
def participantMinBytes : Nat := 2 + 4 + 1 + 4 + publisherMinBytes

namespace Decoder

/-- A colour the host assigned: must name a palette entry. -/
def assignedColor : Decoder PlayerColor := do
  let color ← u8
  if isValidColor color then pure color else fail (.badColor color)

def peerId : Decoder PeerId := do
  let id ← u16
  if id = 0 then fail .zeroPeerId else pure id

def speed : Decoder Speed := do
  let n ← u16
  if h : n ≠ 0 then pure ⟨n, h⟩ else fail .badSpeed

def inputBuffer : Decoder InputBuffer := toVec "input" maxInputBytes

def counter : Decoder (String × Int64) := do
  let name ← string "counter name" maxCounterNameBytes
  let value ← i64
  pure (name, value)

def counters : Decoder (List (String × Int64)) := vec "counters" maxCounters (4 + 8) counter

/-- A number that must be one of an enumeration. -/
def enum {α : Type} (what : String) (tryFrom : UInt32 → Option α) : Decoder α := do
  let value ← u32
  match tryFrom value with
  | some a => pure a
  | none => fail (.badEnum what value)

def stateEncoding : Decoder StateEncoding := do
  let value ← u8
  match StateEncoding.tryFrom value with
  | some e => pure e
  | none => fail (.badEnum "state encoding" value.toUInt32)

/-- The length of a state, which is refused when it is too large. -/
def stateLen : Decoder UInt64 := do
  let len ← u64
  if maxStateLength < len.toNat then fail (.stateTooLarge len) else pure len

def delaySetting : Decoder UInt8 := do
  let delay ← u8
  if maxLinkDelay < delay then fail (.badEnum "link delay setting" delay.toUInt32) else pure delay

def publisher : Decoder PublisherInfo := do
  let consoleType ← enum "console type" fun n ↦ ReplayConsoleType.ofNat? n.toNat
  let romName ← string "rom_name" maxMetadataStringBytes
  let romFilename ← string "rom_filename" maxMetadataStringBytes
  let romChecksum ← hash
  let biosChecksum ← hash
  let emulatorCoreName ← string "emulator_core_name" maxMetadataStringBytes
  let patchFormat ← enum "patch format" fun n ↦ ReplayPatchFormat.ofNat? n.toNat
  let patchTargetChecksum ← hash
  let initialInput ← inputBuffer
  let speed ← speed
  let frame ← u64
  pure
    { metadata :=
        { consoleType, romName, romFilename, romChecksum, biosChecksum, emulatorCoreName
          patchFormat, patchTargetChecksum
          cropStart := none
          cropEnd := none
          timerOffset := none }
      initialInput, speed, frame }

def participant : Decoder ParticipantInfo := do
  let peerId ← peerId
  let displayName ← string "display_name" maxDisplayNameBytes
  let color ← assignedColor
  let appVersion ← string "app_version" maxAppVersionBytes
  let publisher ← publisher
  pure { peerId, displayName, color, appVersion, publisher }

/-- The payload of a tag. -/
def payload : Tag → Decoder Message
  | .hello => do
    let protocolVersion ← u32
    let replayVersion ← u32
    let appVersion ← string "app_version" maxAppVersionBytes
    let displayName ← string "display_name" maxDisplayNameBytes
    let color ← u8
    let publisher ← publisher
    pure (.hello protocolVersion replayVersion appVersion displayName color publisher)
  | .welcome => do
    let yourPeerId ← peerId
    let sessionId ← u64
    let yourDisplayName ← string "display_name" maxDisplayNameBytes
    let yourColor ← assignedColor
    let participants ← vec "participants" maxParticipants participantMinBytes participant
    pure (.welcome yourPeerId sessionId yourDisplayName yourColor participants)
  | .refused => do
    let reason ← enum "refusal reason" RefusalReason.tryFrom
    let text ← string "text" maxTextBytes
    pure (.refused reason text)
  | .peerJoined => do
    let participant ← participant
    pure (.peerJoined participant)
  | .peerLeft => do
    let peerId ← peerId
    let reason ← enum "leave reason" LeaveReason.tryFrom
    pure (.peerLeft peerId reason)
  | .resetAll => do
    let raceId ← u32
    let countdownMillis ← u32
    pure (.resetAll raceId countdownMillis)
  | .syncPause => do
    let enabled ← bool
    let paused ← bool
    let hostOnly ← bool
    pure (.syncPause enabled paused hostOnly)
  | .pause => do
    let fromPeer ← u16
    let paused ← bool
    pure (.pause fromPeer paused)
  | .stream => do
    let fromPeer ← peerId
    let firstFrame ← u64
    let bytes ← toVec "stream" maxMessageLength
    pure (.stream fromPeer firstFrame bytes)
  | .snapshot => do
    let fromPeer ← peerId
    let target ← u16
    let frame ← u64
    let elapsedMillis ← u64
    let input ← inputBuffer
    let speed ← speed
    let counters ← counters
    let encoding ← stateEncoding
    let stateLen ← stateLen
    let state ← toVec "state" maxMessageLength
    pure (.snapshot
      { fromPeer, target, frame, elapsedMillis, input, speed, counters, encoding, stateLen, state })
  | .syncHash => do
    let fromPeer ← peerId
    let frame ← u64
    let hash ← hash
    pure (.syncHash fromPeer frame hash)
  | .requestSnapshot => do
    let requester ← u16
    let target ← u16
    pure (.requestSnapshot requester target)
  | .startState => do
    let romChecksum ← hash
    let encoding ← stateEncoding
    let stateLen ← stateLen
    let state ← toVec "state" maxMessageLength
    pure (.startState { romChecksum, encoding, stateLen, state })
  | .ping => do
    let nonce ← u32
    let sentUnixMillis ← u64
    pure (.ping nonce sentUnixMillis)
  | .pong => do
    let nonce ← u32
    let sentUnixMillis ← u64
    pure (.pong nonce sentUnixMillis)
  | .goodbye => pure .goodbye
  | .error => do
    let text ← string "text" maxTextBytes
    pure (.error text)
  | .linkRequest => do
    let fromPeer ← u16
    let target ← peerId
    let nonce ← u32
    let console ← u32
    pure (.linkRequest fromPeer target nonce console)
  | .linkAccept => do
    let fromPeer ← u16
    let target ← peerId
    let nonce ← u32
    pure (.linkAccept fromPeer target nonce)
  | .linkDecline => do
    let fromPeer ← u16
    let target ← peerId
    let nonce ← u32
    let reason ← u32
    pure (.linkDecline fromPeer target nonce (LinkDeclineReason.ofU32 reason))
  | .linkStart => do
    let fromPeer ← u16
    let target ← peerId
    let nonce ← u32
    let frame ← u64
    let input ← inputBuffer
    let rttMillis ← u32
    let delaySetting ← delaySetting
    let speed ← speed
    pure (.linkStart fromPeer target nonce frame input rttMillis delaySetting speed)
  | .linkFrame => do
    let fromPeer ← u16
    let target ← peerId
    let frame ← u64
    let elapsedMillis ← u64
    let events ← toVec "link events" maxLinkEventBytes
    let pairHashFrame ← u64
    let pairHash ← hash
    pure (.linkFrame fromPeer target frame elapsedMillis events pairHashFrame pairHash)
  | .unlink => do
    let fromPeer ← u16
    let target ← peerId
    let reason ← u32
    pure (.unlink fromPeer target (UnlinkReason.ofU32 reason))
  | .peerLinked => do
    let a ← peerId
    let b ← peerId
    pure (.peerLinked a b)
  | .peerUnlinked => do
    let a ← peerId
    let b ← peerId
    pure (.peerUnlinked a b)
  | .linkSpeed => do
    let speed ← speed
    pure (.linkSpeed speed)

/-- One message body. -/
def message : Decoder Message := do
  let byte ← u8
  match Tag.tryFrom byte with
  | none => fail (.unknownTag byte)
  | some tag => do
    let message ← payload tag
    finish
    pure message

end Decoder

/-- Decode one message body (tag and payload, without the length prefix). -/
def Message.decode (body : Bytes) : Except DecodeError Message :=
  (Decoder.message.result body).map Prod.fst

/-- What decoding a message body allocates. -/
def Message.decodeAllocations (body : Bytes) : List Allocation := Decoder.message.log body

/-- Decode a whole frame, length prefix included. -/
def Message.decodeFrame (frame : Bytes) : Except DecodeError Message :=
  if 4 ≤ frame.length then Message.decode (frame.drop 4) else .error .truncated

end PlayTogether

end SuperShuckie
