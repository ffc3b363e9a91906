import SuperShuckie.PlayTogether.Message

/-!
# The message codec

A message within the caps of the protocol comes back from its frame, all but what is not sent of its
metadata (`decodeFrame_encode`).  A body that is accepted is what the message is encoded as, unless it
gives a reason that this version does not know (`encodeBody_of_decode`).  Decoding allocates no more
than the caps allow, whatever the bytes (`decode_frugal`).
-/

set_option autoImplicit false

namespace SuperShuckie

open ByteFormat ByteFormat.Metered

namespace PlayTogether

/-! ## Values within the caps -/

/-- What a receiver makes of the metadata: crops and the timer offset are not sent. -/
def PublisherInfo.received (p : PublisherInfo) : PublisherInfo :=
  { p with metadata := { p.metadata with cropStart := none, cropEnd := none, timerOffset := none } }

def ParticipantInfo.received (p : ParticipantInfo) : ParticipantInfo :=
  { p with publisher := p.publisher.received }

/-- What is left of a message that is sent. -/
def Message.received : Message → Message
  | .hello protocolVersion replayVersion appVersion displayName color publisher =>
    .hello protocolVersion replayVersion appVersion displayName color publisher.received
  | .welcome yourPeerId sessionId yourDisplayName yourColor participants =>
    .welcome yourPeerId sessionId yourDisplayName yourColor
      (participants.map ParticipantInfo.received)
  | .peerJoined participant => .peerJoined participant.received
  | m => m

/-- A text of at most `max` bytes. -/
def TextWithin (max : Nat) (s : String) : Prop := (strBytes s).length ≤ max

structure PublisherInfo.WithinCaps (p : PublisherInfo) : Prop where
  romName : TextWithin maxMetadataStringBytes p.metadata.romName
  romFilename : TextWithin maxMetadataStringBytes p.metadata.romFilename
  emulatorCoreName : TextWithin maxMetadataStringBytes p.metadata.emulatorCoreName
  initialInput : p.initialInput.length ≤ maxInputBytes

structure ParticipantInfo.WithinCaps (p : ParticipantInfo) : Prop where
  peerId : p.peerId ≠ 0
  displayName : TextWithin maxDisplayNameBytes p.displayName
  color : isValidColor p.color = true
  appVersion : TextWithin maxAppVersionBytes p.appVersion
  publisher : p.publisher.WithinCaps

structure WireSnapshot.WithinCaps (s : WireSnapshot) : Prop where
  fromPeer : s.fromPeer ≠ 0
  input : s.input.length ≤ maxInputBytes
  counters : s.counters.length ≤ maxCounters
  names : ∀ counter ∈ s.counters, TextWithin maxCounterNameBytes counter.1
  stateLen : s.stateLen.toNat ≤ maxStateLength
  state : s.state.length ≤ maxMessageLength

structure WireStartState.WithinCaps (s : WireStartState) : Prop where
  stateLen : s.stateLen.toNat ≤ maxStateLength
  state : s.state.length ≤ maxMessageLength

/-- The fields of a message are within the caps of the protocol. -/
def Message.FieldsWithinCaps : Message → Prop
  | .hello _ _ appVersion displayName _ publisher =>
    TextWithin maxAppVersionBytes appVersion ∧ TextWithin maxDisplayNameBytes displayName ∧
      publisher.WithinCaps
  | .welcome yourPeerId _ yourDisplayName yourColor participants =>
    yourPeerId ≠ 0 ∧ TextWithin maxDisplayNameBytes yourDisplayName ∧
      isValidColor yourColor = true ∧ participants.length ≤ maxParticipants ∧
      ∀ participant ∈ participants, participant.WithinCaps
  | .refused _ text | .error text => TextWithin maxTextBytes text
  | .peerJoined participant => participant.WithinCaps
  | .peerLeft peerId _ => peerId ≠ 0
  | .stream fromPeer _ bytes => fromPeer ≠ 0 ∧ bytes.length ≤ maxMessageLength
  | .snapshot s => s.WithinCaps
  | .syncHash fromPeer _ _ => fromPeer ≠ 0
  | .startState s => s.WithinCaps
  | .linkRequest _ target _ _ | .linkAccept _ target _ | .linkDecline _ target _ _
  | .unlink _ target _ => target ≠ 0
  | .linkStart _ target _ _ input _ delaySetting _ =>
    target ≠ 0 ∧ input.length ≤ maxInputBytes ∧ delaySetting ≤ maxLinkDelay
  | .linkFrame _ target _ _ events _ _ => target ≠ 0 ∧ events.length ≤ maxLinkEventBytes
  | .peerLinked a b | .peerUnlinked a b => a ≠ 0 ∧ b ≠ 0
  | .resetAll .. | .syncPause .. | .pause .. | .requestSnapshot .. | .ping .. | .pong ..
  | .goodbye | .linkSpeed .. => True

/-- The message is within the caps of the protocol: its fields are, and the whole of it. -/
structure Message.WithinCaps (m : Message) : Prop where
  fields : m.FieldsWithinCaps
  length : m.encodeBody.length ≤ maxLengthOf m.tag.toByte

namespace Decoder

/-! ## Reading back what was written -/

theorem reads_assignedColor {color : PlayerColor} (h : isValidColor color = true) :
    Reads assignedColor (Encoder.u8 color) color := by
  refine (reads_u8 color).then_nil ?_
  rw [if_pos h]
  exact reads_pure color

theorem reads_peerId {id : PeerId} (h : id ≠ 0) : Reads peerId (Encoder.u16 id) id := by
  refine (reads_u16 id).then_nil ?_
  rw [if_neg h]
  exact reads_pure id

theorem reads_speed (s : Speed) : Reads speed (Encoder.u16 s.speedOver256) s := by
  refine (reads_u16 s.speedOver256).then_nil ?_
  rw [dif_pos s.ne_zero]
  exact reads_pure s

theorem reads_inputBuffer {input : InputBuffer} (h : input.length ≤ maxInputBytes) :
    Reads inputBuffer (Encoder.bytes input) input := reads_toVec h (by decide)

theorem reads_text {what : String} {max : Nat} {s : String} (h : TextWithin max s)
    (hmax : max < 2 ^ 32) : Reads (string what max) (Encoder.string s) s := reads_string h hmax

theorem reads_counter {counter : String × Int64} (h : TextWithin maxCounterNameBytes counter.1) :
    Reads Decoder.counter (encodeCounter counter) counter :=
  (reads_text h (by decide)).bind (reads_i64 counter.2).bind_pure

theorem length_u32 (n : UInt32) : (Encoder.u32 n).length = 4 := length_leBytes 4 _

theorem length_u64 (n : UInt64) : (Encoder.u64 n).length = 8 := length_leBytes 8 _

theorem length_u16 (n : UInt16) : (Encoder.u16 n).length = 2 := length_leBytes 2 _

theorem length_bytes_ge (b : Bytes) : 4 ≤ (Encoder.bytes b).length := by
  rw [Encoder.bytes, List.length_append, length_u32]
  omega

theorem reads_counters {cs : List (String × Int64)} (h : cs.length ≤ maxCounters)
    (hnames : ∀ counter ∈ cs, TextWithin maxCounterNameBytes counter.1) :
    Reads counters (Encoder.vec encodeCounter cs) cs := by
  refine reads_vec h (by decide) (fun c hc ↦ reads_counter (hnames c hc)) fun c _ ↦ ?_
  have := length_bytes_ge (strBytes c.1)
  rw [encodeCounter, Encoder.string, List.length_append, Encoder.i64, length_u64]
  omega

theorem reads_enum {α : Type} {what : String} {tryFrom : UInt32 → Option α} {n : UInt32} {a : α}
    (h : tryFrom n = some a) : Reads (enum what tryFrom) (Encoder.u32 n) a := by
  refine (reads_u32 n).then_nil ?_
  rw [h]
  exact reads_pure a

theorem reads_stateEncoding (e : StateEncoding) : Reads stateEncoding (Encoder.u8 e.toU8) e := by
  refine (reads_u8 e.toU8).then_nil ?_
  rw [e.tryFrom_toU8]
  exact reads_pure e

theorem reads_stateLen {len : UInt64} (h : len.toNat ≤ maxStateLength) :
    Reads stateLen (Encoder.u64 len) len := by
  refine (reads_u64 len).then_nil ?_
  rw [if_neg (Nat.not_lt.mpr h)]
  exact reads_pure len

theorem reads_delaySetting {delay : UInt8} (h : delay ≤ maxLinkDelay) :
    Reads delaySetting (Encoder.u8 delay) delay := by
  refine (reads_u8 delay).then_nil ?_
  rw [if_neg (UInt8.not_lt.mpr h)]
  exact reads_pure delay

theorem ofNat?_consoleType (t : ReplayConsoleType) :
    ReplayConsoleType.ofNat? (UInt32.ofNat t.toNat).toNat = some t := by
  cases t <;> rfl

theorem ofNat?_patchFormat (f : ReplayPatchFormat) :
    ReplayPatchFormat.ofNat? (UInt32.ofNat f.toNat).toNat = some f := by
  cases f <;> rfl

theorem reads_publisher {p : PublisherInfo} (h : p.WithinCaps) :
    Reads publisher p.encode p.received :=
  (reads_enum (ofNat?_consoleType _)).bind <| (reads_text h.romName (by decide)).bind <|
    (reads_text h.romFilename (by decide)).bind <| (reads_hash _).bind <| (reads_hash _).bind <|
    (reads_text h.emulatorCoreName (by decide)).bind <| (reads_enum (ofNat?_patchFormat _)).bind <|
    (reads_hash _).bind <| (reads_inputBuffer h.initialInput).bind <| (reads_speed _).bind
    (reads_u64 _).bind_pure

theorem reads_participant {p : ParticipantInfo} (h : p.WithinCaps) :
    Reads participant p.encode p.received :=
  (reads_peerId h.peerId).bind <| (reads_text h.displayName (by decide)).bind <|
    (reads_assignedColor h.color).bind <| (reads_text h.appVersion (by decide)).bind
    (reads_publisher h.publisher).bind_pure

theorem length_encode_publisher (p : PublisherInfo) : publisherMinBytes ≤ p.encode.length := by
  have h₁ := length_bytes_ge (strBytes p.metadata.romName)
  have h₂ := length_bytes_ge (strBytes p.metadata.romFilename)
  have h₃ := length_bytes_ge (strBytes p.metadata.emulatorCoreName)
  have h₄ := length_bytes_ge p.initialInput
  simp only [PublisherInfo.encode, List.length_append, length_u32, length_u64, length_u16,
    Encoder.string, Encoder.hash, FixedBytes.length_eq, publisherMinBytes]
  omega

theorem length_encode_participant (p : ParticipantInfo) :
    participantMinBytes ≤ p.encode.length := by
  have h₁ := length_bytes_ge (strBytes p.displayName)
  have h₂ := length_bytes_ge (strBytes p.appVersion)
  have h₃ := length_encode_publisher p.publisher
  simp only [ParticipantInfo.encode, List.length_append, length_u16, Encoder.string, Encoder.u8,
    List.length_singleton, participantMinBytes]
  omega

theorem reads_participants {ps : List ParticipantInfo} (h : ps.length ≤ maxParticipants)
    (hcaps : ∀ p ∈ ps, p.WithinCaps) :
    Reads (vec "participants" maxParticipants participantMinBytes participant)
      (Encoder.vec ParticipantInfo.encode ps) (ps.map ParticipantInfo.received) := by
  have hlength : (ps.map ParticipantInfo.received).length ≤ maxParticipants := by
    rw [List.length_map]
    exact h
  have hread : Reads (vec "participants" maxParticipants participantMinBytes participant)
      (Encoder.vec ParticipantInfo.encode (ps.map ParticipantInfo.received))
      (ps.map ParticipantInfo.received) := by
    refine reads_vec hlength (by decide) (fun p hp ↦ ?_) fun p _ ↦ length_encode_participant p
    obtain ⟨q, hq, rfl⟩ := List.mem_map.mp hp
    have hq := reads_participant (hcaps q hq)
    exact hq
  rwa [Encoder.vec, List.length_map, List.flatMap_map] at hread

/-- **The payload of a message within the caps is read back.** -/
theorem reads_payload {m : Message} (h : m.FieldsWithinCaps) :
    Reads (payload m.tag) m.encodePayload m.received := by
  cases m with
  | hello protocolVersion replayVersion appVersion displayName color publisher =>
    obtain ⟨happ, hname, hpublisher⟩ := h
    exact (reads_u32 _).bind <| (reads_u32 _).bind <| (reads_text happ (by decide)).bind <|
      (reads_text hname (by decide)).bind <| (reads_u8 _).bind (reads_publisher hpublisher).bind_pure
  | welcome yourPeerId sessionId yourDisplayName yourColor participants =>
    obtain ⟨hid, hname, hcolor, hcount, hparticipants⟩ := h
    exact (reads_peerId hid).bind <| (reads_u64 _).bind <| (reads_text hname (by decide)).bind <|
      (reads_assignedColor hcolor).bind (reads_participants hcount hparticipants).bind_pure
  | refused reason text =>
    exact (reads_enum reason.tryFrom_toU32).bind (reads_text h (by decide)).bind_pure
  | peerJoined participant => exact (reads_participant h).bind_pure
  | peerLeft peerId reason =>
    exact (reads_peerId h).bind (reads_enum reason.tryFrom_toU32).bind_pure
  | resetAll raceId countdownMillis => exact (reads_u32 _).bind (reads_u32 _).bind_pure
  | syncPause enabled paused hostOnly =>
    exact (reads_bool _).bind <| (reads_bool _).bind (reads_bool _).bind_pure
  | pause fromPeer paused => exact (reads_u16 _).bind (reads_bool _).bind_pure
  | stream fromPeer firstFrame bytes =>
    exact (reads_peerId h.1).bind <| (reads_u64 _).bind (reads_toVec h.2 (by decide)).bind_pure
  | snapshot s =>
    exact (reads_peerId h.fromPeer).bind <| (reads_u16 _).bind <| (reads_u64 _).bind <|
      (reads_u64 _).bind <| (reads_inputBuffer h.input).bind <| (reads_speed _).bind <|
      (reads_counters h.counters h.names).bind <| (reads_stateEncoding _).bind <|
      (reads_stateLen h.stateLen).bind (reads_toVec h.state (by decide)).bind_pure
  | syncHash fromPeer frame hash =>
    exact (reads_peerId h).bind <| (reads_u64 _).bind (reads_hash _).bind_pure
  | requestSnapshot requester target => exact (reads_u16 _).bind (reads_u16 _).bind_pure
  | startState s =>
    exact (reads_hash _).bind <| (reads_stateEncoding _).bind <|
      (reads_stateLen h.stateLen).bind (reads_toVec h.state (by decide)).bind_pure
  | ping nonce sentUnixMillis => exact (reads_u32 _).bind (reads_u64 _).bind_pure
  | pong nonce sentUnixMillis => exact (reads_u32 _).bind (reads_u64 _).bind_pure
  | goodbye => exact reads_pure _
  | error text => exact (reads_text h (by decide)).bind_pure
  | linkRequest fromPeer target nonce console =>
    exact (reads_u16 _).bind <| (reads_peerId h).bind <| (reads_u32 _).bind (reads_u32 _).bind_pure
  | linkAccept fromPeer target nonce =>
    exact (reads_u16 _).bind <| (reads_peerId h).bind (reads_u32 _).bind_pure
  | linkDecline fromPeer target nonce reason =>
    have hreason := (reads_u32 reason.toU32).bind_pure
      (g := fun code ↦ Message.linkDecline fromPeer target nonce (LinkDeclineReason.ofU32 code))
    rw [reason.ofU32_toU32] at hreason
    exact (reads_u16 _).bind <| (reads_peerId h).bind <| (reads_u32 _).bind hreason
  | linkStart fromPeer target nonce frame input rttMillis delaySetting speed =>
    obtain ⟨htarget, hinput, hdelay⟩ := h
    exact (reads_u16 _).bind <| (reads_peerId htarget).bind <| (reads_u32 _).bind <|
      (reads_u64 _).bind <| (reads_inputBuffer hinput).bind <| (reads_u32 _).bind <|
      (reads_delaySetting hdelay).bind (reads_speed _).bind_pure
  | linkFrame fromPeer target frame elapsedMillis events pairHashFrame pairHash =>
    exact (reads_u16 _).bind <| (reads_peerId h.1).bind <| (reads_u64 _).bind <|
      (reads_u64 _).bind <| (reads_toVec h.2 (by decide)).bind <| (reads_u64 _).bind
      (reads_hash _).bind_pure
  | unlink fromPeer target reason =>
    have hreason := (reads_u32 reason.toU32).bind_pure
      (g := fun code ↦ Message.unlink fromPeer target (UnlinkReason.ofU32 code))
    rw [reason.ofU32_toU32] at hreason
    exact (reads_u16 _).bind <| (reads_peerId h).bind hreason
  | peerLinked a b => exact (reads_peerId h.1).bind (reads_peerId h.2).bind_pure
  | peerUnlinked a b => exact (reads_peerId h.1).bind (reads_peerId h.2).bind_pure
  | linkSpeed speed => exact (reads_speed _).bind_pure

/-! ## Taking only what is written -/

theorem exact_assignedColor : Exact Encoder.u8 assignedColor := by
  intro bs color rest h
  obtain ⟨c, mid, hc, h⟩ := bind_eq_ok.mp h
  split at h
  · cases h
    exact exact_u8 hc
  · cases h

theorem exact_peerId : Exact Encoder.u16 peerId := by
  intro bs id rest h
  obtain ⟨n, mid, hn, h⟩ := bind_eq_ok.mp h
  split at h
  · cases h
  · cases h
    exact exact_u16 hn

theorem exact_speed : Exact (fun s ↦ Encoder.u16 s.speedOver256) speed := by
  intro bs s rest h
  obtain ⟨n, mid, hn, h⟩ := bind_eq_ok.mp h
  split at h
  · cases h
    exact exact_u16 hn
  · cases h

theorem exact_inputBuffer : Exact Encoder.bytes inputBuffer := exact_toVec _ _

theorem exact_counter : Exact encodeCounter Decoder.counter :=
  .of_takes <| (exact_string _ _).bind fun _ ↦ exact_i64.bind_pure fun _ ↦ rfl

theorem exact_counters : Exact (Encoder.vec encodeCounter) counters := exact_vec exact_counter

theorem exact_enum {α : Type} {what : String} {tryFrom : UInt32 → Option α} {toU32 : α → UInt32}
    (hback : ∀ {n a}, tryFrom n = some a → toU32 a = n) :
    Exact (fun a ↦ Encoder.u32 (toU32 a)) (enum what tryFrom) := by
  intro bs a rest h
  obtain ⟨n, mid, hn, h⟩ := bind_eq_ok.mp h
  split at h
  · rename_i a' ha
    cases h
    show bs = Encoder.u32 (toU32 a) ++ rest
    rw [exact_u32 hn, hback ha]
  · cases h

theorem exact_stateEncoding : Exact (fun e ↦ Encoder.u8 e.toU8) stateEncoding := by
  intro bs e rest h
  obtain ⟨n, mid, hn, h⟩ := bind_eq_ok.mp h
  split at h
  · rename_i e' he
    cases h
    show bs = Encoder.u8 e.toU8 ++ rest
    rw [exact_u8 hn, StateEncoding.toU8_of_tryFrom he]
  · cases h

theorem exact_stateLen : Exact Encoder.u64 stateLen := by
  intro bs len rest h
  obtain ⟨n, mid, hn, h⟩ := bind_eq_ok.mp h
  split at h
  · cases h
  · cases h
    exact exact_u64 hn

theorem exact_delaySetting : Exact Encoder.u8 delaySetting := by
  intro bs delay rest h
  obtain ⟨n, mid, hn, h⟩ := bind_eq_ok.mp h
  split at h
  · cases h
  · cases h
    exact exact_u8 hn

theorem toNat_of_consoleType {n : UInt32} {t : ReplayConsoleType}
    (h : ReplayConsoleType.ofNat? n.toNat = some t) : UInt32.ofNat t.toNat = n := by
  have hnat : t.toNat = n.toNat := by
    unfold ReplayConsoleType.ofNat? at h
    split at h <;> cases h <;> simp [ReplayConsoleType.toNat, *]
  rw [hnat, UInt32.ofNat_toNat]

theorem toNat_of_patchFormat {n : UInt32} {f : ReplayPatchFormat}
    (h : ReplayPatchFormat.ofNat? n.toNat = some f) : UInt32.ofNat f.toNat = n := by
  have hnat : f.toNat = n.toNat := by
    unfold ReplayPatchFormat.ofNat? at h
    split at h <;> cases h <;> simp [ReplayPatchFormat.toNat, *]
  rw [hnat, UInt32.ofNat_toNat]

theorem exact_publisher : Exact PublisherInfo.encode publisher :=
  .of_takes <| (exact_enum toNat_of_consoleType).bind fun _ ↦ (exact_string _ _).bind fun _ ↦
    (exact_string _ _).bind fun _ ↦ exact_hash.bind fun _ ↦ exact_hash.bind fun _ ↦
    (exact_string _ _).bind fun _ ↦ (exact_enum toNat_of_patchFormat).bind fun _ ↦
    exact_hash.bind fun _ ↦ exact_inputBuffer.bind fun _ ↦ exact_speed.bind fun _ ↦
    exact_u64.bind_pure fun _ ↦ rfl

theorem exact_participant : Exact ParticipantInfo.encode participant :=
  .of_takes <| exact_peerId.bind fun _ ↦ (exact_string _ _).bind fun _ ↦
    exact_assignedColor.bind fun _ ↦ (exact_string _ _).bind fun _ ↦
    exact_publisher.bind_pure fun _ ↦ rfl

end Decoder

/-- The message gives a reason that this version does not know. -/
def Message.hasUnknownReason : Message → Bool
  | .linkDecline _ _ _ .other | .unlink _ _ .other => true
  | _ => false

namespace Decoder

theorem takes_payload (tag : Tag) :
    Takes (fun taken m ↦ m.tag = tag ∧ (m.hasUnknownReason = false → taken = m.encodePayload))
      (payload tag) := by
  cases tag with
  | hello =>
    exact exact_u32.bind fun _ ↦ exact_u32.bind fun _ ↦ (exact_string _ _).bind fun _ ↦
      (exact_string _ _).bind fun _ ↦ exact_u8.bind fun _ ↦
      exact_publisher.bind_pure fun _ ↦ ⟨rfl, fun _ ↦ rfl⟩
  | welcome =>
    exact exact_peerId.bind fun _ ↦ exact_u64.bind fun _ ↦ (exact_string _ _).bind fun _ ↦
      exact_assignedColor.bind fun _ ↦
      (exact_vec exact_participant).bind_pure fun _ ↦ ⟨rfl, fun _ ↦ rfl⟩
  | refused =>
    exact (exact_enum RefusalReason.toU32_of_tryFrom).bind fun _ ↦
      (exact_string _ _).bind_pure fun _ ↦ ⟨rfl, fun _ ↦ rfl⟩
  | peerJoined => exact exact_participant.bind_pure fun _ ↦ ⟨rfl, fun _ ↦ rfl⟩
  | peerLeft =>
    exact exact_peerId.bind fun _ ↦
      (exact_enum LeaveReason.toU32_of_tryFrom).bind_pure fun _ ↦ ⟨rfl, fun _ ↦ rfl⟩
  | resetAll => exact exact_u32.bind fun _ ↦ exact_u32.bind_pure fun _ ↦ ⟨rfl, fun _ ↦ rfl⟩
  | syncPause =>
    exact exact_bool.bind fun _ ↦ exact_bool.bind fun _ ↦
      exact_bool.bind_pure fun _ ↦ ⟨rfl, fun _ ↦ rfl⟩
  | pause => exact exact_u16.bind fun _ ↦ exact_bool.bind_pure fun _ ↦ ⟨rfl, fun _ ↦ rfl⟩
  | stream =>
    exact exact_peerId.bind fun _ ↦ exact_u64.bind fun _ ↦
      (exact_toVec _ _).bind_pure fun _ ↦ ⟨rfl, fun _ ↦ rfl⟩
  | snapshot =>
    exact exact_peerId.bind fun _ ↦ exact_u16.bind fun _ ↦ exact_u64.bind fun _ ↦
      exact_u64.bind fun _ ↦ exact_inputBuffer.bind fun _ ↦ exact_speed.bind fun _ ↦
      exact_counters.bind fun _ ↦ exact_stateEncoding.bind fun _ ↦ exact_stateLen.bind fun _ ↦
      (exact_toVec _ _).bind_pure fun _ ↦ ⟨rfl, fun _ ↦ rfl⟩
  | syncHash =>
    exact exact_peerId.bind fun _ ↦ exact_u64.bind fun _ ↦
      exact_hash.bind_pure fun _ ↦ ⟨rfl, fun _ ↦ rfl⟩
  | requestSnapshot => exact exact_u16.bind fun _ ↦ exact_u16.bind_pure fun _ ↦ ⟨rfl, fun _ ↦ rfl⟩
  | startState =>
    exact exact_hash.bind fun _ ↦ exact_stateEncoding.bind fun _ ↦ exact_stateLen.bind fun _ ↦
      (exact_toVec _ _).bind_pure fun _ ↦ ⟨rfl, fun _ ↦ rfl⟩
  | ping => exact exact_u32.bind fun _ ↦ exact_u64.bind_pure fun _ ↦ ⟨rfl, fun _ ↦ rfl⟩
  | pong => exact exact_u32.bind fun _ ↦ exact_u64.bind_pure fun _ ↦ ⟨rfl, fun _ ↦ rfl⟩
  | goodbye =>
    rintro bs _ _ ⟨⟩
    exact ⟨[], rfl, rfl, fun _ ↦ rfl⟩
  | error => exact (exact_string _ _).bind_pure fun _ ↦ ⟨rfl, fun _ ↦ rfl⟩
  | linkRequest =>
    exact exact_u16.bind fun _ ↦ exact_peerId.bind fun _ ↦ exact_u32.bind fun _ ↦
      exact_u32.bind_pure fun _ ↦ ⟨rfl, fun _ ↦ rfl⟩
  | linkAccept =>
    exact exact_u16.bind fun _ ↦ exact_peerId.bind fun _ ↦
      exact_u32.bind_pure fun _ ↦ ⟨rfl, fun _ ↦ rfl⟩
  | linkDecline =>
    refine exact_u16.bind fun _ ↦ exact_peerId.bind fun _ ↦ exact_u32.bind fun _ ↦
      exact_u32.bind_pure fun reason ↦ ⟨rfl, fun hknown ↦ ?_⟩
    have hreason : LinkDeclineReason.ofU32 reason ≠ .other := by
      intro hother
      rw [hother] at hknown
      cases hknown
    rw [Message.encodePayload, LinkDeclineReason.toU32_ofU32 hreason]
  | linkStart =>
    exact exact_u16.bind fun _ ↦ exact_peerId.bind fun _ ↦ exact_u32.bind fun _ ↦
      exact_u64.bind fun _ ↦ exact_inputBuffer.bind fun _ ↦ exact_u32.bind fun _ ↦
      exact_delaySetting.bind fun _ ↦ exact_speed.bind_pure fun _ ↦ ⟨rfl, fun _ ↦ rfl⟩
  | linkFrame =>
    exact exact_u16.bind fun _ ↦ exact_peerId.bind fun _ ↦ exact_u64.bind fun _ ↦
      exact_u64.bind fun _ ↦ (exact_toVec _ _).bind fun _ ↦ exact_u64.bind fun _ ↦
      exact_hash.bind_pure fun _ ↦ ⟨rfl, fun _ ↦ rfl⟩
  | unlink =>
    refine exact_u16.bind fun _ ↦ exact_peerId.bind fun _ ↦
      exact_u32.bind_pure fun reason ↦ ⟨rfl, fun hknown ↦ ?_⟩
    have hreason : UnlinkReason.ofU32 reason ≠ .other := by
      intro hother
      rw [hother] at hknown
      cases hknown
    rw [Message.encodePayload, UnlinkReason.toU32_ofU32 hreason]
  | peerLinked => exact exact_peerId.bind fun _ ↦ exact_peerId.bind_pure fun _ ↦ ⟨rfl, fun _ ↦ rfl⟩
  | peerUnlinked =>
    exact exact_peerId.bind fun _ ↦ exact_peerId.bind_pure fun _ ↦ ⟨rfl, fun _ ↦ rfl⟩
  | linkSpeed => exact exact_speed.bind_pure fun _ ↦ ⟨rfl, fun _ ↦ rfl⟩

/-- **A payload that is accepted is what the message is encoded as**, unless it gives a reason that
this version does not know. -/
theorem exact_payload {tag : Tag} {bs rest : Bytes} {m : Message}
    (h : (payload tag).result bs = .ok (m, rest)) :
    m.tag = tag ∧ (m.hasUnknownReason = false → bs = m.encodePayload ++ rest) := by
  obtain ⟨taken, rfl, htag, hencodes⟩ := takes_payload tag h
  exact ⟨htag, fun hknown ↦ by rw [hencodes hknown]⟩

/-! ## What is allocated -/

theorem frugal_assignedColor : Frugal assignedColor :=
  frugal_u8.bind fun _ ↦ (frugal_pure _).ite (frugal_fail _)

theorem frugal_peerId : Frugal peerId := frugal_u16.bind fun _ ↦ (frugal_fail _).ite (frugal_pure _)

theorem frugal_speed : Frugal speed := by
  refine frugal_u16.bind fun n ↦ ?_
  split
  · exact frugal_pure _
  · exact frugal_fail _

theorem frugal_inputBuffer : Frugal inputBuffer := frugal_toVec _ _

theorem frugal_counters : Frugal counters :=
  frugal_vec <| (frugal_string _ _).bind fun _ ↦ frugal_i64.bind fun _ ↦ frugal_pure _

theorem frugal_enum {α : Type} (what : String) (tryFrom : UInt32 → Option α) :
    Frugal (enum what tryFrom) := by
  refine frugal_u32.bind fun n ↦ ?_
  split
  · exact frugal_pure _
  · exact frugal_fail _

theorem frugal_stateEncoding : Frugal stateEncoding := by
  refine frugal_u8.bind fun n ↦ ?_
  split
  · exact frugal_pure _
  · exact frugal_fail _

theorem frugal_stateLen : Frugal stateLen :=
  frugal_u64.bind fun _ ↦ (frugal_fail _).ite (frugal_pure _)

theorem frugal_delaySetting : Frugal delaySetting :=
  frugal_u8.bind fun _ ↦ (frugal_fail _).ite (frugal_pure _)

theorem frugal_publisher : Frugal publisher :=
  (frugal_enum _ _).bind fun _ ↦ (frugal_string _ _).bind fun _ ↦ (frugal_string _ _).bind fun _ ↦
    frugal_hash.bind fun _ ↦ frugal_hash.bind fun _ ↦ (frugal_string _ _).bind fun _ ↦
    (frugal_enum _ _).bind fun _ ↦ frugal_hash.bind fun _ ↦ frugal_inputBuffer.bind fun _ ↦
    frugal_speed.bind fun _ ↦ frugal_u64.bind fun _ ↦ frugal_pure _

theorem frugal_participant : Frugal participant :=
  frugal_peerId.bind fun _ ↦ (frugal_string _ _).bind fun _ ↦ frugal_assignedColor.bind fun _ ↦
    (frugal_string _ _).bind fun _ ↦ frugal_publisher.bind fun _ ↦ frugal_pure _

theorem frugal_payload (tag : Tag) : Frugal (payload tag) := by
  cases tag with
  | hello =>
    exact frugal_u32.bind fun _ ↦ frugal_u32.bind fun _ ↦ (frugal_string _ _).bind fun _ ↦
      (frugal_string _ _).bind fun _ ↦ frugal_u8.bind fun _ ↦ frugal_publisher.bind fun _ ↦
      frugal_pure _
  | welcome =>
    exact frugal_peerId.bind fun _ ↦ frugal_u64.bind fun _ ↦ (frugal_string _ _).bind fun _ ↦
      frugal_assignedColor.bind fun _ ↦ (frugal_vec frugal_participant).bind fun _ ↦ frugal_pure _
  | refused =>
    exact (frugal_enum _ _).bind fun _ ↦ (frugal_string _ _).bind fun _ ↦ frugal_pure _
  | peerJoined => exact frugal_participant.bind fun _ ↦ frugal_pure _
  | peerLeft => exact frugal_peerId.bind fun _ ↦ (frugal_enum _ _).bind fun _ ↦ frugal_pure _
  | resetAll => exact frugal_u32.bind fun _ ↦ frugal_u32.bind fun _ ↦ frugal_pure _
  | syncPause =>
    exact frugal_bool.bind fun _ ↦ frugal_bool.bind fun _ ↦ frugal_bool.bind fun _ ↦ frugal_pure _
  | pause => exact frugal_u16.bind fun _ ↦ frugal_bool.bind fun _ ↦ frugal_pure _
  | stream =>
    exact frugal_peerId.bind fun _ ↦ frugal_u64.bind fun _ ↦ (frugal_toVec _ _).bind fun _ ↦
      frugal_pure _
  | snapshot =>
    exact frugal_peerId.bind fun _ ↦ frugal_u16.bind fun _ ↦ frugal_u64.bind fun _ ↦
      frugal_u64.bind fun _ ↦ frugal_inputBuffer.bind fun _ ↦ frugal_speed.bind fun _ ↦
      frugal_counters.bind fun _ ↦ frugal_stateEncoding.bind fun _ ↦ frugal_stateLen.bind fun _ ↦
      (frugal_toVec _ _).bind fun _ ↦ frugal_pure _
  | syncHash =>
    exact frugal_peerId.bind fun _ ↦ frugal_u64.bind fun _ ↦ frugal_hash.bind fun _ ↦ frugal_pure _
  | requestSnapshot => exact frugal_u16.bind fun _ ↦ frugal_u16.bind fun _ ↦ frugal_pure _
  | startState =>
    exact frugal_hash.bind fun _ ↦ frugal_stateEncoding.bind fun _ ↦ frugal_stateLen.bind fun _ ↦
      (frugal_toVec _ _).bind fun _ ↦ frugal_pure _
  | ping => exact frugal_u32.bind fun _ ↦ frugal_u64.bind fun _ ↦ frugal_pure _
  | pong => exact frugal_u32.bind fun _ ↦ frugal_u64.bind fun _ ↦ frugal_pure _
  | goodbye => exact frugal_pure _
  | error => exact (frugal_string _ _).bind fun _ ↦ frugal_pure _
  | linkRequest =>
    exact frugal_u16.bind fun _ ↦ frugal_peerId.bind fun _ ↦ frugal_u32.bind fun _ ↦
      frugal_u32.bind fun _ ↦ frugal_pure _
  | linkAccept =>
    exact frugal_u16.bind fun _ ↦ frugal_peerId.bind fun _ ↦ frugal_u32.bind fun _ ↦ frugal_pure _
  | linkDecline =>
    exact frugal_u16.bind fun _ ↦ frugal_peerId.bind fun _ ↦ frugal_u32.bind fun _ ↦
      frugal_u32.bind fun _ ↦ frugal_pure _
  | linkStart =>
    exact frugal_u16.bind fun _ ↦ frugal_peerId.bind fun _ ↦ frugal_u32.bind fun _ ↦
      frugal_u64.bind fun _ ↦ frugal_inputBuffer.bind fun _ ↦ frugal_u32.bind fun _ ↦
      frugal_delaySetting.bind fun _ ↦ frugal_speed.bind fun _ ↦ frugal_pure _
  | linkFrame =>
    exact frugal_u16.bind fun _ ↦ frugal_peerId.bind fun _ ↦ frugal_u64.bind fun _ ↦
      frugal_u64.bind fun _ ↦ (frugal_toVec _ _).bind fun _ ↦ frugal_u64.bind fun _ ↦
      frugal_hash.bind fun _ ↦ frugal_pure _
  | unlink =>
    exact frugal_u16.bind fun _ ↦ frugal_peerId.bind fun _ ↦ frugal_u32.bind fun _ ↦ frugal_pure _
  | peerLinked => exact frugal_peerId.bind fun _ ↦ frugal_peerId.bind fun _ ↦ frugal_pure _
  | peerUnlinked => exact frugal_peerId.bind fun _ ↦ frugal_peerId.bind fun _ ↦ frugal_pure _
  | linkSpeed => exact frugal_speed.bind fun _ ↦ frugal_pure _

theorem frugal_message : Frugal message := by
  refine frugal_u8.bind fun byte ↦ ?_
  split
  · exact frugal_fail _
  · exact (frugal_payload _).bind fun _ ↦ Frugal.bind
      (frugal_left.bind fun _ ↦ (frugal_pure _).ite (frugal_fail _)) fun _ ↦ frugal_pure _

end Decoder

/-! ## Bodies and frames -/

/-- The body of a message within the caps. -/
theorem decode_encodeBody {m : Message} (h : m.FieldsWithinCaps) :
    Message.decode m.encodeBody = .ok m.received := by
  have htag : Decoder.u8.result m.encodeBody = .ok (m.tag.toByte, m.encodePayload) :=
    Decoder.reads_u8 m.tag.toByte m.encodePayload
  have hpayload : (Decoder.payload m.tag).result m.encodePayload = .ok (m.received, []) := by
    simpa using Decoder.reads_payload h []
  have hfinish : Decoder.finish.result [] = .ok ((), []) := rfl
  rw [Message.decode, Decoder.message, (bind_of_ok htag).1, Tag.tryFrom_toByte]
  dsimp only
  rw [(bind_of_ok hpayload).1, (bind_of_ok hfinish).1]
  rfl

/-- **A message within the caps comes back from its frame.** -/
theorem decodeFrame_encode {m : Message} (h : m.FieldsWithinCaps) :
    Message.decodeFrame m.encode = .ok m.received := by
  have hlength : (Encoder.u32 (UInt32.ofNat m.encodeBody.length)).length = 4 := Decoder.length_u32 _
  rw [Message.decodeFrame, Message.encode, frame, if_pos, List.drop_left' hlength]
  · exact decode_encodeBody h
  · rw [List.length_append, hlength]
    omega

/-- What is accepted is a tag and its payload, and nothing is left over. -/
theorem payload_of_decode {body : Bytes} {m : Message} (h : Message.decode body = .ok m) :
    ∃ payload, body = m.tag.toByte :: payload ∧
      (m.hasUnknownReason = false → payload = m.encodePayload) := by
  rw [Message.decode] at h
  cases hm : Decoder.message.result body with
  | error e =>
    rw [hm] at h
    cases h
  | ok r =>
    rw [hm] at h
    cases h
    obtain ⟨byte, payload, hbyte, h⟩ := bind_eq_ok.mp hm
    split at h
    · cases h
    · rename_i tag htag
      obtain ⟨m, rest, hpayload, h⟩ := bind_eq_ok.mp h
      obtain ⟨⟨⟩, rest', hfinish, h⟩ := bind_eq_ok.mp h
      cases h
      obtain ⟨left, left', hleft, hfinish⟩ := bind_eq_ok.mp hfinish
      cases hleft
      split at hfinish
      · rename_i hnil
        cases hfinish
        rw [hnil] at hpayload
        obtain ⟨rfl, hexact⟩ := Decoder.exact_payload hpayload
        refine ⟨payload, ?_, fun hknown ↦ by simpa using hexact hknown⟩
        rw [Decoder.exact_u8 hbyte, Tag.toByte_of_tryFrom htag]
        rfl
      · cases hfinish

/-- **A body that is accepted is what the message is encoded as**, unless it gives a reason that this
version does not know. -/
theorem encodeBody_of_decode {body : Bytes} {m : Message} (h : Message.decode body = .ok m)
    (hknown : m.hasUnknownReason = false) : m.encodeBody = body := by
  obtain ⟨payload, rfl, hpayload⟩ := payload_of_decode h
  rw [hpayload hknown]
  rfl

/-- **Decoding allocates no more than the caps allow**, nor more than the message is long. -/
theorem decode_frugal (body : Bytes) : (∀ a ∈ Message.decodeAllocations body, a.Capped) ∧
      ((Message.decodeAllocations body).map Allocation.cost).sum ≤ body.length := by
  refine ⟨Decoder.frugal_message.capped body, ?_⟩
  have hwithin := Decoder.frugal_message.within body
  unfold Message.decodeAllocations
  split at hwithin <;> omega

end PlayTogether

end SuperShuckie
