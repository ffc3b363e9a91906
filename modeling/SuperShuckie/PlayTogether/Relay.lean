import SuperShuckie.PlayTogether.Framing

/-!
# Relaying

The host relays a message as it received it, with the sender's real id written over the first field
of the payload.  Every kind that is relayed begins with that field, so the bytes are those of the
message from that sender (`stampPeerId_encode`).
-/

set_option autoImplicit false

namespace SuperShuckie

open ByteFormat ByteFormat.Metered

namespace PlayTogether

/-- Where the first peer id of a message is in its frame. -/
def peerIdOffset : Nat := 5

/-- Overwrite the peer id of a frame with the sender's real id. -/
def stampPeerId (frame : Bytes) (id : PeerId) : Bytes :=
  if peerIdOffset + 2 ≤ frame.length then
    frame.take peerIdOffset ++ (Encoder.u16 id ++ frame.drop (peerIdOffset + 2))
  else frame

namespace Message

/-- A link cable message that is relayed between the two ends of a link. -/
def isLinkRelay : Message → Bool
  | linkRequest .. | linkAccept .. | linkDecline .. | linkStart .. | linkFrame .. | unlink .. => true
  | _ => false

/-- The decoded counterpart of `stampPeerId` for a link cable message. -/
def stampFrom (id : PeerId) : Message → Message
  | linkRequest _ target nonce console => linkRequest id target nonce console
  | linkAccept _ target nonce => linkAccept id target nonce
  | linkDecline _ target nonce reason => linkDecline id target nonce reason
  | linkStart _ target nonce frame input rttMillis delaySetting speed =>
    linkStart id target nonce frame input rttMillis delaySetting speed
  | linkFrame _ target frame elapsedMillis events pairHashFrame pairHash =>
    linkFrame id target frame elapsedMillis events pairHashFrame pairHash
  | unlink _ target reason => unlink id target reason
  | other => other

/-- A message that the host relays. -/
def isRelayed : Message → Bool
  | pause .. | stream .. | snapshot _ | syncHash .. | requestSnapshot .. => true
  | m => m.isLinkRelay

/-- The message from another sender. -/
def withSender (id : PeerId) : Message → Message
  | pause _ paused => pause id paused
  | stream _ firstFrame bytes => stream id firstFrame bytes
  | snapshot s => snapshot { s with fromPeer := id }
  | syncHash _ frame hash => syncHash id frame hash
  | requestSnapshot _ target => requestSnapshot id target
  | m => m.stampFrom id

/-- Every message that is relayed begins with its sender. -/
theorem encodePayload_relayed {m : Message} (h : m.isRelayed = true) (id : PeerId) :
    ∃ sender tail, m.encodePayload = Encoder.u16 sender ++ tail ∧
      (m.withSender id).encodePayload = Encoder.u16 id ++ tail ∧ (m.withSender id).tag = m.tag := by
  cases m <;> first | exact ⟨_, _, rfl, rfl, rfl⟩ | cases h

/-- **Stamping the frame of a message gives the frame of the message from that sender.** -/
theorem stampPeerId_encode {m : Message} (h : m.isRelayed = true) (id : PeerId) :
    stampPeerId m.encode id = (m.withSender id).encode := by
  obtain ⟨sender, tail, hpayload, hpayload', htag⟩ := encodePayload_relayed h id
  have hlength : (m.withSender id).encodeBody.length = m.encodeBody.length := by
    rw [encodeBody, encodeBody, hpayload, hpayload']
    simp [Decoder.length_u16]
  rw [encode, encode, frame, frame, hlength]
  generalize hheader : Encoder.u32 (UInt32.ofNat m.encodeBody.length) = header
  have hfour : header.length = 4 := by rw [← hheader, Decoder.length_u32]
  have hframe : header ++ m.encodeBody =
      (header ++ [m.tag.toByte]) ++ (Encoder.u16 sender ++ tail) := by
    rw [encodeBody, hpayload, List.append_assoc, List.singleton_append]
  have hfive : (header ++ [m.tag.toByte]).length = peerIdOffset := by
    rw [List.length_append, hfour]
    rfl
  rw [stampPeerId, if_pos, hframe, List.take_left' hfive, ← List.drop_drop, List.drop_left' hfive,
    List.drop_left' (Decoder.length_u16 sender), encodeBody, hpayload', htag, List.append_assoc,
    List.singleton_append]
  rw [hframe, List.length_append, hfive, List.length_append, Decoder.length_u16]
  omega

end Message

/-- A frame that is accepted is what its message is encoded as, unless the message gives a reason
that this version does not know. -/
theorem encode_of_decodeFrame {S : Type} {source source' : Source S} {raw : Bytes} {m : Message}
    (hread : (readFrame source).1 = .ok (some raw, source'))
    (hdecode : Message.decodeFrame raw = .ok m) (hknown : m.hasUnknownReason = false) :
    raw = m.encode := by
  obtain ⟨tag, payload, rfl, -⟩ := readFrame_eq_some hread
  have hlength : (Encoder.u32 (UInt32.ofNat (tag :: payload).length)).length = 4 :=
    Decoder.length_u32 _
  rw [Message.decodeFrame, if_pos (by rw [frame, List.length_append, hlength]; omega), frame,
    List.drop_left' hlength] at hdecode
  rw [Message.encode, encodeBody_of_decode hdecode hknown]

/-- **The message codec.**  A message within the caps comes back from its frame, without what is not
sent of its metadata; however the frames of a sequence of messages arrive, they are read in order and
nothing is left over; whatever the bytes, no more is allocated than the caps allow; and a relayed
frame is the frame of its message from the real sender, unless it gives a reason that this version
does not know and encodes otherwise. -/
theorem message_codec :
    (∀ m : Message, m.WithinCaps → Message.decodeFrame m.encode = .ok m.received) ∧
    (∀ (S : Type) (ms : List Message) (source : Source S), (∀ m ∈ ms, m.WithinCaps) →
      Delivers source (ms.flatMap Message.encode) → ReadsAll (ms.map Message.encode) source) ∧
    (∀ body : Bytes, (∀ a ∈ Message.decodeAllocations body, a.Capped) ∧
      ((Message.decodeAllocations body).map Allocation.cost).sum ≤ body.length) ∧
    (∀ (S : Type) (source : Source S), ∀ resize ∈ (readFrame source).2,
      resize.len ≤ resize.got + readChunk ∧ resize.len ≤ maxMessageLength + 4) ∧
    ∀ (S : Type) (source source' : Source S) (raw : Bytes) (m : Message) (id : PeerId),
      (readFrame source).1 = .ok (some raw, source') → Message.decodeFrame raw = .ok m →
      m.isRelayed = true → (m.hasUnknownReason = true → raw = m.encode) →
      stampPeerId raw id = (m.withSender id).encode := by
  refine ⟨fun m h ↦ decodeFrame_encode h.fields, fun S ms source hcaps h ↦ ?_, decode_frugal,
    fun S source ↦ readFrame_frugal source, fun S source source' raw m id hread hdecode h hcode ↦ ?_⟩
  · let bodies := ms.map fun m ↦ (m.tag.toByte, m.encodePayload)
    have hcap : ∀ body ∈ bodies, (body.1 :: body.2).length ≤ maxLengthOf body.1 := by
      intro body hbody
      obtain ⟨m, hm, rfl⟩ := List.mem_map.mp hbody
      exact (hcaps m hm).length
    have hread := readsAll_of_delivers hcap (by rwa [List.flatMap_map])
    rwa [List.map_map] at hread
  · have hraw : raw = m.encode := by
      cases hknown : m.hasUnknownReason with
      | true => exact hcode hknown
      | false => exact encode_of_decodeFrame hread hdecode hknown
    rw [hraw]
    exact Message.stampPeerId_encode h id

/-- A ping and a goodbye that arrive in two chunks, the first of which ends inside the length of the
second message; and a pause that is relayed. -/
theorem message_codec_ping :
    Message.decodeFrame (Message.ping 7 1000).encode = .ok (.ping 7 1000) ∧
    ReadsAll [(Message.ping 7 1000).encode, Message.goodbye.encode]
      ([.interrupted, .data ((Message.ping 7 1000).encode ++ [1]), .timedOut none,
        .data [0, 0, 0, 0x22]] : Source Empty) ∧
    stampPeerId (Message.pause 0 true).encode 3 = (Message.pause 3 true).encode := by
  have hping : (Message.ping 7 1000).WithinCaps := ⟨trivial, by decide⟩
  have hgoodbye : Message.goodbye.WithinCaps := ⟨trivial, by decide⟩
  refine ⟨message_codec.1 _ hping, message_codec.2.1 Empty [.ping 7 1000, .goodbye] _ ?_ ?_, ?_⟩
  · intro m hm
    simp only [List.mem_cons, List.not_mem_nil, or_false] at hm
    rcases hm with rfl | rfl
    · exact hping
    · exact hgoodbye
  · exact .interrupted (.data (by decide) (.timedOut (.data (by decide) .nil)))
  · have hdelivers : Delivers ([.data (Message.pause 0 true).encode] : Source Empty)
        ((Message.pause 0 true).encode ++ []) := .data (by decide) .nil
    obtain ⟨source, hread, -⟩ := readFrame_of_delivers (by decide) hdelivers
    exact message_codec.2.2.2.2 Empty _ source _ (.pause 0 true) 3 hread (by decide) rfl nofun

/-- The metadata of a publisher with a crop. -/
def croppedPublisher : PublisherInfo :=
  { metadata := { ReplayFileMetadata.unnamed .gameBoy with cropStart := some (60, 1000) }
    initialInput := []
    speed := .default
    frame := 0 }

/-- A crop is not sent; and a frame that declines a link for a reason of a later version is relayed
with that reason, which its message does not tell. -/
theorem message_codec_fails :
    ((Message.hello 6 7 "" "" 0 croppedPublisher).WithinCaps ∧
      Message.decodeFrame (Message.hello 6 7 "" "" 0 croppedPublisher).encode ≠
        .ok (.hello 6 7 "" "" 0 croppedPublisher)) ∧
    ∃ (raw : Bytes) (source : Source Empty),
      (readFrame ([.data raw] : Source Empty)).1 = .ok (some raw, source) ∧
      Message.decodeFrame raw = .ok (.linkDecline 0 1 7 .other) ∧
      stampPeerId raw 2 ≠ ((Message.linkDecline 0 1 7 .other).withSender 2).encode := by
  have hcaps : (Message.hello 6 7 "" "" 0 croppedPublisher).WithinCaps :=
    ⟨⟨Nat.zero_le _, Nat.zero_le _, ⟨Nat.zero_le _, Nat.zero_le _, Nat.zero_le _, Nat.zero_le _⟩⟩,
      by decide +kernel⟩
  refine ⟨⟨hcaps, ?_⟩, ?_⟩
  · rw [decodeFrame_encode hcaps.fields]
    decide
  · let payload := Encoder.u16 0 ++ (Encoder.u16 1 ++ (Encoder.u32 7 ++ Encoder.u32 77))
    have hdelivers : Delivers ([.data (frame (0x32 :: payload))] : Source Empty)
        (frame (0x32 :: payload) ++ []) := .data (by decide) .nil
    obtain ⟨source, hread, -⟩ := readFrame_of_delivers (by decide) hdelivers
    exact ⟨frame (0x32 :: payload), source, hread, by decide, by decide⟩

end PlayTogether

end SuperShuckie
