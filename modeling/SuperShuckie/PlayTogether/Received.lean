import SuperShuckie.PlayTogether.Publishing
import SuperShuckie.PlayTogether.Following

/-!
# What is queued and what is received

The caps of the protocol are enforced where messages arrive.  A sender looks only at the length of
its snapshots and start states.  Everything that a session sends arrives exactly if the streams that
the writer merges fit into a message and each thing that was published is within the caps
(`received_iff_receivable`).
-/

set_option autoImplicit false

namespace SuperShuckie

open ByteFormat ByteFormat.Metered PlayTogether.Message PlayTogether.Decoder PlayTogether.WireStartState

namespace PlayTogether

/-! ## Receiving -/

/-- What a message holds can be decoded. -/
def Message.CanBeHandled (z : Zstd) : Message → Prop
  | .stream _ _ bytes => ∃ packets, decodePackets bytes = .ok packets
  | .snapshot wire => ∃ data, wire.intoSnapshot z = .ok data
  | .startState wire => ∃ state, wire.intoState z = .ok state
  | .linkFrame _ _ _ _ events _ _ => ∃ packets, decodeLinkEvents events = .ok packets
  | _ => True

/-- A frame is received: its message is read, and what it holds can be decoded. -/
def Arrives (z : Zstd) (frame : Bytes) : Prop :=
  ∃ m, readMessage frame = .ok (some m) ∧ m.CanBeHandled z

/-- However the bytes arrive, every frame of them is read and its message handled. -/
def Received (S : Type) (z : Zstd) (bytes : Bytes) : Prop :=
  ∀ source : Source S, Delivers source bytes → ∃ frames, ReadsAll frames source ∧
    ∀ frame ∈ frames, ∃ m, Message.decodeFrame frame = .ok m ∧ m.CanBeHandled z

section

variable {S : Type} {z : Zstd} {m : Message}

theorem readMessage_eq_some {frame : Bytes} : readMessage frame = .ok (some m) ↔
      (frame.drop 4).length ≤ maxLengthOf ((frame.drop 4).headD 0) ∧
        decodeFrame frame = .ok m := by
  rw [readMessage]
  split
  · rename_i hlong
    exact ⟨fun h ↦ (by cases h), fun h ↦ absurd h.1 (Nat.not_le.mpr hlong)⟩
  · rename_i hfits
    cases hdecode : decodeFrame frame with
    | error e => cases e <;> exact ⟨fun h ↦ (by cases h), fun h ↦ by cases h.2⟩
    | ok m' =>
      constructor
      · intro h
        cases h
        exact ⟨Nat.not_lt.mp hfits, rfl⟩
      · rintro ⟨-, h⟩
        cases h
        rfl

theorem arrives_encode : Arrives z m.encode ↔
    m.encodeBody.length ≤ maxLengthOf m.tag.toByte ∧
      ∃ m', decodeFrame m.encode = .ok m' ∧ m'.CanBeHandled z := by
  have hhead : m.encodeBody.headD 0 = m.tag.toByte := rfl
  simp only [Arrives, readMessage_eq_some, drop_encode, hhead]
  constructor
  · rintro ⟨m', ⟨hfits, hdecode⟩, hhandled⟩
    exact ⟨hfits, m', hdecode, hhandled⟩
  · rintro ⟨hfits, m', hdecode, hhandled⟩
    exact ⟨m', ⟨hfits, hdecode⟩, hhandled⟩

/-- A source of some bytes. -/
theorem exists_delivers (S : Type) (bytes : Bytes) : ∃ source : Source S, Delivers source bytes := by
  by_cases hnil : bytes = []
  · rw [hnil]
    exact ⟨[], .nil⟩
  · refine ⟨[.data bytes], ?_⟩
    have h := Delivers.data (S := S) hnil .nil
    rwa [List.append_nil] at h

/-- **What is received is received frame by frame.** -/
theorem received_iff_arrives {messages : List Message}
    (hlen : ∀ m ∈ messages, m.encodeBody.length < 2 ^ 32) :
    Received S z (messages.flatMap encode) ↔ ∀ m ∈ messages, Arrives z m.encode := by
  constructor
  · intro h
    obtain ⟨source, hsource⟩ := exists_delivers S (messages.flatMap encode)
    obtain ⟨frames, hframes, hdecode⟩ := h source hsource
    clear h
    induction messages generalizing source frames with
    | nil => exact fun m hm ↦ absurd hm List.not_mem_nil
    | cons m messages ih =>
      rw [List.flatMap_cons, encode, encodeBody] at hsource
      have hlen' : (m.tag.toByte :: m.encodePayload).length < 2 ^ 32 := hlen m List.mem_cons_self
      by_cases hcap : (m.tag.toByte :: m.encodePayload).length ≤ maxLengthOf m.tag.toByte
      · obtain ⟨source', hread, hrest⟩ := readFrame_of_delivers hcap hsource
        cases frames with
        | nil =>
          obtain ⟨source'', hnone⟩ := hframes
          rw [hread] at hnone
          cases hnone
        | cons f frames =>
          obtain ⟨source'', hsome, hframes⟩ := hframes
          rw [hread] at hsome
          cases hsome
          rw [List.forall_mem_cons] at hdecode ⊢
          exact ⟨arrives_encode.mpr ⟨hcap, hdecode.1⟩,
            ih (fun m' hm' ↦ hlen m' (List.mem_cons_of_mem m hm')) source' hrest frames hframes
              hdecode.2⟩
      · have herror := readFrame_of_tooLong (Nat.lt_of_not_le hcap) hlen' hsource
        cases frames with
        | nil =>
          obtain ⟨source', hnone⟩ := hframes
          rw [herror] at hnone
          cases hnone
        | cons f frames =>
          obtain ⟨source', hsome, -⟩ := hframes
          rw [herror] at hsome
          cases hsome
  · intro h source hsource
    have hbodies : messages.flatMap encode =
        (messages.map fun m ↦ (m.tag.toByte, m.encodePayload)).flatMap
          fun body ↦ frame (body.1 :: body.2) := by
      rw [List.flatMap_map]
      rfl
    rw [hbodies] at hsource
    refine ⟨_, readsAll_of_delivers ?_ hsource, ?_⟩
    · intro body hbody
      obtain ⟨m, hm, rfl⟩ := List.mem_map.mp hbody
      exact (arrives_encode.mp (h m hm)).1
    · intro f hf
      rw [List.map_map] at hf
      obtain ⟨m, hm, rfl⟩ := List.mem_map.mp hf
      exact (arrives_encode.mp (h m hm)).2

/-- A message within the caps arrives exactly if what it holds can be decoded. -/
theorem arrives_of_withinCaps (h : m.WithinCaps) :
    Arrives z m.encode ↔ m.received.CanBeHandled z := by
  rw [arrives_encode, decodeFrame_encode h.fields]
  constructor
  · rintro ⟨-, m', hm', hhandled⟩
    cases hm'
    exact hhandled
  · exact fun hhandled ↦ ⟨h.length, _, rfl, hhandled⟩

/-- A message whose payload is refused does not arrive. -/
theorem not_arrives_of_refuses (h : Refuses (payload m.tag) m.encodePayload) :
    ¬ Arrives z m.encode := by
  rw [arrives_encode]
  rintro ⟨-, m', hdecode, -⟩
  have htag : u8.result m.encodeBody = .ok (m.tag.toByte, m.encodePayload) :=
    reads_u8 m.tag.toByte m.encodePayload
  have hpayload := h []
  rw [List.append_nil] at hpayload
  obtain ⟨e, he⟩ := hpayload
  rw [decodeFrame, drop_encode] at hdecode
  split at hdecode
  · rw [decode, message, (bind_of_ok htag).1, Tag.tryFrom_toByte] at hdecode
    dsimp only at hdecode
    rw [(bind_of_error he).1] at hdecode
    cases hdecode
  · cases hdecode

end

/-! ## Streams -/

/-- The tag, the sender, the first frame and the length of a stream message. -/
def streamOverhead : Nat := 15

theorem length_encodeBody_stream (sender : PeerId) (firstFrame : UInt64) (bytes : Bytes) :
    (stream sender firstFrame bytes).encodeBody.length = bytes.length + streamOverhead := by
  simp only [encodeBody, encodePayload, List.length_cons, List.length_append,
    Encoder.bytes, length_u16, length_u64, length_u32, streamOverhead]
  omega

variable {z : Zstd}

theorem arrives_stream {sender : PeerId} {firstFrame : UInt64} {bytes : Bytes}
    (hsender : sender ≠ 0) : Arrives z (stream sender firstFrame bytes).encode ↔
      bytes.length + streamOverhead ≤ maxMessageLength ∧
        ∃ packets, decodePackets bytes = .ok packets := by
  by_cases hfits : bytes.length + streamOverhead ≤ maxMessageLength
  · rw [Arrives, readMessage_stream hsender (by rw [length_encodeBody_stream]; exact hfits)]
    constructor
    · rintro ⟨m, hm, hhandled⟩
      cases hm
      exact ⟨hfits, hhandled⟩
    · exact fun h ↦ ⟨_, rfl, h.2⟩
  · rw [arrives_encode, maxLengthOf_stream, length_encodeBody_stream]
    exact ⟨fun h ↦ absurd h.1 hfits, fun h ↦ absurd h.1 hfits⟩

/-! ## Snapshots and start states -/

/-- The fields of a snapshot that a receiver accepts. -/
structure SnapshotData.WithinCaps (data : SnapshotData) : Prop where
  input : data.input.length ≤ maxInputBytes
  counters : data.counters.length ≤ maxCounters
  names : ∀ counter ∈ data.counters, TextWithin maxCounterNameBytes counter.1
  state : data.state.length ≤ maxStateLength

/-- A message that is too large is not sent but reported as dropped. -/
def IsDropped (m : Message) : Prop := maxMessageLength < m.encode.length - 4

theorem length_encode (m : Message) : m.encode.length = m.encodeBody.length + 4 := by
  rw [encode, frame, List.length_append, length_u32]
  omega

/-- What a snapshot or a start state carries is decoded to what was wrapped. -/
theorem decodeState_compressed (hz : z.Lossless) {state frame : Bytes}
    (h : compressState z state = some frame) (hlen : state.length ≤ maxStateLength) :
    decodeState z .zstd (UInt64.ofNat state.length) frame = .ok state := by
  have hmax : maxStateLength < 2 ^ 63 := by decide
  have hnat : (UInt64.ofNat state.length).toNat = state.length :=
    UInt64.toNat_ofNat_of_lt' (by show _ < 2 ^ 64; omega)
  have hok : z.compressData state snapshotZstdLevel = .ok frame := by
    rw [compressState] at h
    cases hc : z.compressData state snapshotZstdLevel with
    | error e =>
      rw [hc] at h
      cases h
    | ok frame' =>
      rw [hc] at h
      cases h
      rfl
  have hback : z.decompressData frame state.length = .ok state :=
    hz.decompressDataWithPrefix hok (by rw [isizeMax]; omega)
  rw [decodeState, hnat, if_neg (Nat.not_lt.mpr hlen), hback]

theorem decodeState_raw {state : Bytes} (hlen : state.length ≤ maxStateLength) :
    decodeState z .raw (UInt64.ofNat state.length) state = .ok state := by
  have hmax : maxStateLength < 2 ^ 63 := by decide
  have hnat : (UInt64.ofNat state.length).toNat = state.length :=
    UInt64.toNat_ofNat_of_lt' (by show _ < 2 ^ 64; omega)
  rw [decodeState, hnat, if_neg (Nat.not_lt.mpr hlen)]
  exact if_neg (not_not.mpr rfl)

namespace Decoder

theorem refuses_stateLen {len : UInt64} (h : maxStateLength < len.toNat) :
    Refuses stateLen (Encoder.u64 len) := by
  refine (reads_u64 len).then_refuses ?_
  rw [if_pos h]
  exact refuses_fail _ _

theorem refuses_delaySetting {delay : UInt8} (h : maxLinkDelay < delay) :
    Refuses delaySetting (Encoder.u8 delay) := by
  refine (reads_u8 delay).then_refuses ?_
  rw [if_pos h]
  exact refuses_fail _ _

/-- Counters that are too many, or one of whose names is too long. -/
theorem refuses_counters {cs : List (String × Int64)} (hlen : cs.length < 2 ^ 32)
    (hnames : ∀ counter ∈ cs, (strBytes counter.1).length < 2 ^ 32)
    (h : ¬ (cs.length ≤ maxCounters ∧ ∀ counter ∈ cs, TextWithin maxCounterNameBytes counter.1)) :
    Refuses counters (Encoder.vec encodeCounter cs) := by
  have hrefuse : ∀ c ∈ cs, ¬ TextWithin maxCounterNameBytes c.1 →
      Refuses counter (encodeCounter c) :=
    fun c hc hlong ↦ (refuses_string (Nat.lt_of_not_le hlong) (hnames c hc)).bind _
  have hnot : ∀ c ∈ cs, ¬ TextWithin maxCounterNameBytes c.1 →
      ¬ Reads counter (encodeCounter c) c := by
    intro c hc hlong hread
    obtain ⟨e, he⟩ := hrefuse c hc hlong []
    rw [hread []] at he
    cases he
  refine refuses_vec hlen (fun c hc ↦ ?_) ?_
  · by_cases hname : TextWithin maxCounterNameBytes c.1
    · exact .inl (reads_counter hname)
    · exact .inr (hrefuse c hc hname)
  · by_cases hmany : cs.length ≤ maxCounters
    · obtain ⟨c, hmem, hlong⟩ : ∃ c ∈ cs, ¬ TextWithin maxCounterNameBytes c.1 := by
        by_contra hall
        push Not at hall
        exact h ⟨hmany, hall⟩
      exact .inr ⟨c, hmem, hnot c hmem hlong⟩
    · exact .inl (Nat.lt_of_not_le hmany)

/-- A snapshot one of whose fields is not within its cap. -/
theorem refuses_snapshot {s : WireSnapshot} (hfrom : s.fromPeer ≠ 0)
    (hlen : (snapshot s).encodePayload.length < 2 ^ 32)
    (h : ¬ (s.input.length ≤ maxInputBytes ∧ (s.counters.length ≤ maxCounters ∧
      ∀ counter ∈ s.counters, TextWithin maxCounterNameBytes counter.1) ∧
      s.stateLen.toNat ≤ maxStateLength)) :
    Refuses (payload .snapshot) (snapshot s).encodePayload := by
  simp only [encodePayload, List.length_append, Encoder.bytes, Encoder.vec] at hlen
  refine (reads_peerId hfrom).bind_refuses <| (reads_u16 _).bind_refuses <|
    (reads_u64 _).bind_refuses <| (reads_u64 _).bind_refuses ?_
  by_cases hinput : s.input.length ≤ maxInputBytes
  · refine (reads_inputBuffer hinput).bind_refuses <| (reads_speed _).bind_refuses ?_
    by_cases hcounters : s.counters.length ≤ maxCounters ∧
        ∀ counter ∈ s.counters, TextWithin maxCounterNameBytes counter.1
    · refine (reads_counters hcounters.1 hcounters.2).bind_refuses <|
        (reads_stateEncoding _).bind_refuses (Refuses.bind ?_ _)
      exact refuses_stateLen (Nat.lt_of_not_le fun hstate ↦ h ⟨hinput, hcounters, hstate⟩)
    · refine Refuses.bind (refuses_counters ?_ ?_ hcounters) _
      · have hcount : s.counters.length ≤ (s.counters.flatMap encodeCounter).length := by
          have hone : s.counters.length * 1 ≤ (s.counters.flatMap encodeCounter).length :=
            length_mul_le_flatMap fun c _ ↦ by
              rw [encodeCounter, Encoder.i64, List.length_append, length_u64]
              omega
          omega
        omega
      · intro c hc
        have hname : (encodeCounter c).length ≤ (s.counters.flatMap encodeCounter).length :=
          (List.sublist_flatten_of_mem (List.mem_map_of_mem hc)).length_le
        rw [encodeCounter, Encoder.string, Encoder.bytes, List.length_append,
          List.length_append] at hname
        omega
  · refine Refuses.bind (refuses_toVec (Nat.lt_of_not_le hinput) ?_) _
    omega

end Decoder

/-- **A snapshot that is sent arrives exactly if its fields are within the caps.** -/
theorem arrives_snapshot (hz : z.Lossless) {sender target : PeerId} {data : SnapshotData}
    (hsender : sender ≠ 0) (hstate : data.state.length < 2 ^ 64)
    (hsent : ¬ IsDropped (snapshotMessage z sender data target)) :
    Arrives z (snapshotMessage z sender data target).encode ↔ data.WithinCaps := by
  rw [IsDropped, length_encode, Nat.add_sub_cancel, Nat.not_lt] at hsent
  have hmax : maxMessageLength < 2 ^ 32 := by decide
  have hnat : (UInt64.ofNat data.state.length).toNat = data.state.length :=
    UInt64.toNat_ofNat_of_lt' hstate
  -- whichever way the state is carried, the other fields are those of the snapshot
  obtain ⟨encoding, state, hwire, hdecode⟩ : ∃ encoding state,
      WireSnapshot.ofData z data sender target =
        WireSnapshot.withState data sender target encoding state ∧
      (data.state.length ≤ maxStateLength →
        decodeState z encoding (UInt64.ofNat data.state.length) state = .ok data.state) := by
    rw [WireSnapshot.ofData]
    cases hc : compressState z data.state with
    | none => exact ⟨.raw, data.state, rfl, decodeState_raw⟩
    | some state => exact ⟨.zstd, state, rfl, decodeState_compressed hz hc⟩
  rw [snapshotMessage, hwire] at hsent ⊢
  have hpayload : (snapshot
      (WireSnapshot.withState data sender target encoding state)).encodePayload.length <
        maxMessageLength := by
    rw [encodeBody, List.length_cons] at hsent
    omega
  constructor
  · intro harrives
    by_contra hcaps
    have hrefuses : Refuses (payload .snapshot) (snapshot
        (WireSnapshot.withState data sender target encoding state)).encodePayload := by
      refine refuses_snapshot hsender (by omega) ?_
      rintro ⟨hinput, ⟨hcounters, hnames⟩, hlen⟩
      refine hcaps ⟨hinput, hcounters, hnames, ?_⟩
      rwa [← hnat]
    exact absurd harrives (not_arrives_of_refuses hrefuses)
  · intro hcaps
    have hlength : state.length ≤ maxMessageLength := by
      simp only [encodePayload, List.length_append, Encoder.bytes,
        WireSnapshot.withState] at hpayload
      omega
    have hwithin : (snapshot
        (WireSnapshot.withState data sender target encoding state)).WithinCaps := by
      refine ⟨⟨hsender, hcaps.input, hcaps.counters, hcaps.names, ?_, hlength⟩, ?_⟩
      · rw [WireSnapshot.withState, hnat]
        exact hcaps.state
      · have hcap : maxLengthOf Tag.snapshot.toByte = maxMessageLength :=
          if_pos (List.mem_cons_of_mem _ List.mem_cons_self)
        rw [tag, hcap]
        exact hsent
    rw [arrives_of_withinCaps hwithin]
    refine ⟨data, ?_⟩
    rw [WireSnapshot.intoSnapshot]
    simp only [WireSnapshot.withState, hdecode hcaps.state]
    rfl

/-- **A start state that is sent arrives exactly if it is not too large.** -/
theorem arrives_startState (hz : z.Lossless) {data : StartStateData}
    (hstate : data.state.length < 2 ^ 64) (hsent : ¬ IsDropped (startStateMessage z data)) :
    Arrives z (startStateMessage z data).encode ↔ data.state.length ≤ maxStateLength := by
  rw [IsDropped, length_encode, Nat.add_sub_cancel, Nat.not_lt] at hsent
  have hnat : (UInt64.ofNat data.state.length).toNat = data.state.length :=
    UInt64.toNat_ofNat_of_lt' hstate
  obtain ⟨encoding, state, hwire, hdecode⟩ : ∃ encoding state,
      ofData z data = withState data encoding state ∧
      (data.state.length ≤ maxStateLength →
        decodeState z encoding (UInt64.ofNat data.state.length) state = .ok data.state) := by
    rw [ofData]
    cases hc : compressState z data.state with
    | none => exact ⟨.raw, data.state, rfl, decodeState_raw⟩
    | some state => exact ⟨.zstd, state, rfl, decodeState_compressed hz hc⟩
  rw [startStateMessage, hwire] at hsent ⊢
  constructor
  · intro harrives
    by_contra hlarge
    have hrefuses : Refuses (payload .startState) (startState
        (withState data encoding state)).encodePayload := by
      refine (reads_hash _).bind_refuses <|
        (reads_stateEncoding _).bind_refuses (Refuses.bind ?_ _)
      refine refuses_stateLen ?_
      rw [withState, hnat]
      exact Nat.lt_of_not_le hlarge
    exact absurd harrives (not_arrives_of_refuses hrefuses)
  · intro hlarge
    have hlength : state.length ≤ maxMessageLength := by
      simp only [encodeBody, encodePayload, List.length_append, List.length_cons,
        Encoder.bytes, withState] at hsent
      omega
    have hwithin : (startState
        (withState data encoding state)).WithinCaps := by
      refine ⟨⟨?_, hlength⟩, ?_⟩
      · rw [withState, hnat]
        exact hlarge
      · have hcap : maxLengthOf Tag.startState.toByte = maxMessageLength :=
          if_pos (List.mem_cons_of_mem _ (List.mem_cons_of_mem _ List.mem_cons_self))
        rw [tag, hcap]
        exact hsent
    rw [arrives_of_withinCaps hwithin]
    show ∃ result, (withState data encoding state).intoState z = .ok result
    rw [intoState]
    split
    · exact ⟨none, rfl⟩
    · simp only [withState, hdecode hlarge]
      exact ⟨_, rfl⟩

/-! ## Link cable messages -/

/-- A link cable message that the other end accepts. -/
def LinkMessage.Receivable : LinkMessage → Prop
  | .start _ _ _ input _ delaySetting _ => input.length ≤ maxInputBytes ∧ delaySetting ≤ maxLinkDelay
  | .frame _ _ _ events _ => (encodePackets events).length ≤ maxLinkEventBytes ∧
      ∀ p ∈ events, MayAppear forbiddenLinkKind p
  | _ => True

/-- Link cable messages are small. -/
theorem maxLengthOf_link (sender : PeerId) (m : LinkMessage) :
    maxLengthOf (fromLink sender m).tag.toByte = maxSmallMessageLength := by
  refine if_neg ?_
  cases m <;> simp [fromLink, tag, largeTags, Tag.toByte]

/-- **A link cable message arrives exactly if its input, delay and events are within the caps.** -/
theorem arrives_link {sender : PeerId} {m : LinkMessage} (htarget : m.target ≠ 0)
    (hlen : (fromLink sender m).encode.length < 2 ^ 32) :
    Arrives z (fromLink sender m).encode ↔ m.Receivable := by
  have hsmall : maxSmallMessageLength = 65536 := rfl
  have hcap := maxLengthOf_link sender m
  have hwithin : (fromLink sender m).FieldsWithinCaps →
      (fromLink sender m).encodeBody.length ≤ 65536 →
      (Arrives z (fromLink sender m).encode ↔
        (fromLink sender m).received.CanBeHandled z) := by
    intro hfields hlength
    refine arrives_of_withinCaps ⟨hfields, ?_⟩
    rw [hcap, hsmall]
    exact hlength
  rw [length_encode] at hlen
  cases m with
  | request target nonce console =>
    refine hwithin htarget ?_
    simp [fromLink, encodeBody, encodePayload, length_u16, length_u32]
  | accept target nonce =>
    refine hwithin htarget ?_
    simp [fromLink, encodeBody, encodePayload, length_u16, length_u32]
  | decline target nonce reason =>
    refine hwithin htarget ?_
    simp [fromLink, encodeBody, encodePayload, length_u16, length_u32]
  | unlink target reason =>
    refine hwithin htarget ?_
    simp [fromLink, encodeBody, encodePayload, length_u16, length_u32]
  | start target nonce frame input rttMillis delaySetting speed =>
    rw [fromLink] at hwithin hlen ⊢
    have hinputLen : input.length < 2 ^ 32 := by
      simp only [encodeBody, encodePayload, List.length_cons, List.length_append,
        Encoder.bytes] at hlen
      omega
    by_cases hreceivable : input.length ≤ maxInputBytes ∧ delaySetting ≤ maxLinkDelay
    · have harrives : Arrives z (linkStart sender target nonce frame input rttMillis
          delaySetting speed).encode := by
        refine (hwithin ⟨htarget, hreceivable⟩ ?_).mpr trivial
        have hinput := hreceivable.1
        have hmaxInput : maxInputBytes = 64 := rfl
        simp only [encodeBody, encodePayload, List.length_cons, List.length_append,
          Encoder.bytes, Encoder.u8, length_u16, length_u32, length_u64,
          List.length_nil]
        omega
      exact iff_of_true harrives hreceivable
    · refine iff_of_false (not_arrives_of_refuses ?_) hreceivable
      show Refuses (payload .linkStart) _
      refine (reads_u16 _).bind_refuses <| (reads_peerId htarget).bind_refuses <|
        (reads_u32 _).bind_refuses <| (reads_u64 _).bind_refuses ?_
      by_cases hinput : input.length ≤ maxInputBytes
      · refine (reads_inputBuffer hinput).bind_refuses <|
          (reads_u32 _).bind_refuses (Refuses.bind ?_ _)
        exact refuses_delaySetting
          (UInt8.not_le.mp fun hdelay ↦ hreceivable ⟨hinput, hdelay⟩)
      · exact Refuses.bind (refuses_toVec (Nat.lt_of_not_le hinput) hinputLen) _
  | frame target frame elapsedMillis events pairHash =>
    rw [fromLink] at hwithin hlen ⊢
    have hevents : (encodePackets events).length < 2 ^ 32 := by
      simp only [encodeBody, encodePayload, List.length_cons, List.length_append,
        Encoder.bytes] at hlen
      omega
    rw [LinkMessage.Receivable, ← decodeLinkEvents_encodePackets_iff (by omega)]
    by_cases hfits : (encodePackets events).length ≤ maxLinkEventBytes
    · refine (hwithin ⟨htarget, hfits⟩ ?_).trans (and_iff_right hfits).symm
      have hmax : maxLinkEventBytes = 32768 := rfl
      rw [hmax] at hfits
      simp only [encodeBody, encodePayload, List.length_cons, List.length_append,
        Encoder.bytes, length_u16, length_u32, length_u64, Encoder.hash,
        FixedBytes.length_eq]
      omega
    · refine iff_of_false (not_arrives_of_refuses ?_) fun h ↦ hfits h.1
      show Refuses (payload .linkFrame) _
      refine (reads_u16 _).bind_refuses <| (reads_peerId htarget).bind_refuses <|
        (reads_u64 _).bind_refuses <| (reads_u64 _).bind_refuses ?_
      exact Refuses.bind (refuses_toVec (Nat.lt_of_not_le hfits) hevents) _

/-! ## Everything that is queued -/

/-- What the writer sends of a queue: the urgent lane, and then the items. -/
def OutboundQueue.written (z : Zstd) (sender : PeerId) (q : OutboundQueue) : Bytes :=
  q.urgent.flatten ++ (encodeOutbound z q.items sender).bytes

/-- What is published is within the caps, or is reported as dropped. -/
def Published.Receivable (z : Zstd) (sender : PeerId) : Published → Prop
  | .packets _ run => ∀ p ∈ run, MayAppear forbiddenKind p
  | .snapshot data target => IsDropped (snapshotMessage z sender data target) ∨ data.WithinCaps
  | .startState data =>
    IsDropped (startStateMessage z data) ∨ data.state.length ≤ maxStateLength
  | .syncHash _ _ => True

/-- The streams that the writer merges fit into a message. -/
def MergesFit (items : List Outbound) : Prop :=
  ∀ first more, Group.streams first more ∈ groups items →
    (mergedBytes first more).length + streamOverhead ≤ maxMessageLength

section

variable {S : Type} {z : Zstd} {sender : PeerId}

/-- What is received of frames of messages is received frame by frame. -/
theorem received_iff_arrives_frames {frames : List Bytes}
    (h : ∀ f ∈ frames, ∃ m : Message, f = m.encode ∧ m.encode.length < 2 ^ 32) :
    Received S z frames.flatten ↔ ∀ f ∈ frames, Arrives z f := by
  obtain ⟨messages, hmessages, hlen⟩ : ∃ messages : List Message,
      frames = messages.map encode ∧ ∀ m ∈ messages, m.encodeBody.length < 2 ^ 32 := by
    induction frames with
    | nil => exact ⟨[], rfl, fun m hm ↦ absurd hm List.not_mem_nil⟩
    | cons f frames ih =>
      obtain ⟨m, rfl, hm⟩ := h f List.mem_cons_self
      obtain ⟨messages, rfl, hlen⟩ := ih fun f' hf' ↦ h f' (List.mem_cons_of_mem _ hf')
      rw [length_encode] at hm
      exact ⟨m :: messages, rfl, List.forall_mem_cons.mpr ⟨by omega, hlen⟩⟩
  rw [hmessages, ← List.flatMap_def, received_iff_arrives hlen, List.forall_mem_map]

variable {more : List StreamItem}

/-- Merged items that hold whole packets are decoded exactly if each of them is. -/
theorem decodePackets_merged_iff {first : StreamItem}
    (h : ∀ item ∈ first :: more, ∃ run, item.2 = encodePackets run)
    (hlen : (mergedBytes first more).length < 2 ^ 64) :
    (∃ packets, decodePackets (mergedBytes first more) = .ok packets) ↔
      ∀ item ∈ first :: more, ∃ packets, decodePackets item.2 = .ok packets := by
  have hwhole : ∀ items : List StreamItem, (∀ item ∈ items, ∃ run, item.2 = encodePackets run) →
      ∃ packets, items.flatMap Prod.snd = encodePackets packets := by
    intro items h
    induction items with
    | nil => exact ⟨[], rfl⟩
    | cons item items ih =>
      obtain ⟨run, hrun⟩ := h item List.mem_cons_self
      obtain ⟨packets, hpackets⟩ := ih fun i hi ↦ h i (List.mem_cons_of_mem item hi)
      refine ⟨run ++ packets, ?_⟩
      rw [List.flatMap_cons, hrun, hpackets, encodePackets_append]
  have hbytes : mergedBytes first more = (first :: more).flatMap Prod.snd := rfl
  constructor
  · intro hdecode item hitem
    rw [hbytes] at hdecode hlen
    obtain ⟨before, after, hsplit⟩ := List.append_of_mem hitem
    rw [hsplit] at h hdecode hlen
    rw [List.forall_mem_append, List.forall_mem_cons] at h
    obtain ⟨packets, hpackets⟩ := hwhole before h.1
    obtain ⟨run, hrun⟩ := h.2.1
    obtain ⟨packets', hpackets'⟩ := hwhole after h.2.2
    have hall : (before ++ item :: after).flatMap Prod.snd =
        encodePackets (packets ++ (run ++ packets')) := by
      rw [List.flatMap_append, List.flatMap_cons, hpackets, hpackets', hrun, encodePackets_append,
        encodePackets_append]
    rw [hall] at hdecode hlen
    have happear := (decodePackets_encodePackets_iff hlen).mp hdecode
    rw [encodePackets_append, encodePackets_append, List.length_append, List.length_append] at hlen
    rw [hrun, decodePackets_encodePackets_iff (by omega)]
    intro p hp
    exact happear p (List.mem_append_right _ (List.mem_append_left _ hp))
  · exact fun hitems ↦ ⟨_, decodePackets_merged hitems⟩

/-- The items of a group are among the items. -/
theorem items_subset_of_mem_groups {items : List Outbound} {g : Group} (h : g ∈ groups items) :
    g.items ⊆ items := by
  intro item hitem
  rw [← items_groups items]
  exact List.mem_flatMap.mpr ⟨g, h, hitem⟩

/-- What is merged is no longer than what the queue holds. -/
theorem length_mergedBytes_le {q : OutboundQueue} {first : StreamItem}
    (h : Group.streams first more ∈ groups q.items) :
    (mergedBytes first more).length ≤ maxQueueBytes := by
  obtain ⟨before, after, hgroups⟩ := List.append_of_mem h
  have hitems := items_groups q.items
  rw [hgroups, List.flatMap_append, List.flatMap_cons] at hitems
  have hcost : ∀ items : List StreamItem, (items.flatMap Prod.snd).length ≤
      ((items.map fun item ↦ Outbound.stream item.1 item.2).map Outbound.cost).sum := by
    intro items
    induction items with
    | nil => exact le_rfl
    | cons item items ih =>
      simp only [List.flatMap_cons, List.length_append, List.map_cons, List.sum_cons, Outbound.cost]
      omega
  have hgroup : (mergedBytes first more).length ≤
      ((Group.streams first more).items.map Outbound.cost).sum := hcost (first :: more)
  have hbytes := q.bytes_eq
  have hle := q.bytes_le
  rw [← hitems] at hbytes
  simp only [List.map_append, List.sum_append] at hbytes
  omega

variable {q : OutboundQueue} {published : List Published}

theorem encodeBody_lt_of_not_dropped {m : Message} (h : ¬ IsDropped m) :
    m.encode.length < 2 ^ 32 := by
  have hmax : maxMessageLength < 2 ^ 31 := by decide
  rw [IsDropped] at h
  omega

/-- The run of packets behind a stream item of a queue. -/
theorem exists_packets_of_mem (hitems : q.items = published.map (Published.item sender))
    {firstFrame : UInt64} {bytes : Bytes} (h : Outbound.stream firstFrame bytes ∈ q.items) :
    ∃ run, Published.packets firstFrame run ∈ published ∧ bytes = encodePackets run := by
  rw [hitems] at h
  obtain ⟨p, hp, hitem⟩ := List.mem_map.mp h
  cases p with
  | packets first run =>
    cases hitem
    exact ⟨run, hp, rfl⟩
  | _ => cases hitem

/-- **What is sent of merged streams.** -/
theorem arrives_streams (hsender : sender ≠ 0)
    (hitems : q.items = published.map (Published.item sender)) {first : StreamItem}
    (hg : Group.streams first more ∈ groups q.items) :
    Arrives z (stream sender first.1 (mergedBytes first more)).encode ↔
      (mergedBytes first more).length + streamOverhead ≤ maxMessageLength ∧
        ∀ p ∈ published, p.item sender ∈ (Group.streams first more).items →
          p.Receivable z sender := by
  have hlen : (mergedBytes first more).length ≤ maxQueueBytes := length_mergedBytes_le hg
  have hqueue : maxQueueBytes < 2 ^ 32 := by decide
  have hone : ∀ item : StreamItem, item ∈ first :: more → item.2.length < 2 ^ 64 := by
    intro item hitem
    have hsub := (List.sublist_flatten_of_mem
      (List.mem_map_of_mem (f := Prod.snd) hitem)).length_le
    have hbytes : ((first :: more).map Prod.snd).flatten = mergedBytes first more := rfl
    rw [hbytes] at hsub
    omega
  have hrun : ∀ item ∈ first :: more,
      ∃ run, Published.packets item.1 run ∈ published ∧ item.2 = encodePackets run := by
    intro item hitem
    refine exists_packets_of_mem hitems (items_subset_of_mem_groups hg ?_)
    exact List.mem_map_of_mem (f := fun i : StreamItem ↦ Outbound.stream i.1 i.2) hitem
  rw [arrives_stream hsender, decodePackets_merged_iff (fun item hitem ↦ ?_) (by omega)]
  · refine and_congr_right fun _ ↦ ⟨fun hdecode p hp hmem ↦ ?_, fun hreceivable item hitem ↦ ?_⟩
    · obtain ⟨item, hitem, heq⟩ := List.mem_map.mp hmem
      cases p with
      | packets firstFrame run =>
        have hbytes : item.2 = encodePackets run := by
          injection heq
        have hitemLen := hone item hitem
        have hdecode := hdecode item hitem
        rw [hbytes] at hitemLen hdecode
        exact (decodePackets_encodePackets_iff hitemLen).mp hdecode
      | _ => cases heq
    · obtain ⟨run, hp, hbytes⟩ := hrun item hitem
      have hitemLen := hone item hitem
      rw [hbytes] at hitemLen ⊢
      refine (decodePackets_encodePackets_iff hitemLen).mpr (hreceivable _ hp ?_)
      refine List.mem_map.mpr ⟨item, hitem, ?_⟩
      rw [Published.item, hbytes]
  · obtain ⟨run, -, hbytes⟩ := hrun item hitem
    exact ⟨run, hbytes⟩

/-- A sync hash arrives. -/
theorem arrives_syncHash (hsender : sender ≠ 0) (frame : UInt64) (hash : Blake3Hash) :
    Arrives z (syncHash sender frame hash).encode := by
  refine (arrives_of_withinCaps (m := .syncHash sender frame hash) ⟨hsender, ?_⟩).mpr trivial
  have hcap : maxLengthOf (syncHash sender frame hash).tag.toByte = 65536 :=
    if_neg (by simp [tag, largeTags, Tag.toByte])
  rw [hcap]
  simp [encodeBody, encodePayload, length_u16, length_u64, Encoder.hash, FixedBytes.length_eq]

theorem sentOrDropped_eq_some {m : Message} {sent : Sent} (h : sentOrDropped m = some sent) :
    ¬ IsDropped m ∧ sent = .message m := by
  rw [sentOrDropped] at h
  split at h
  · cases h
  · rename_i hsent
    cases h
    exact ⟨hsent, rfl⟩

theorem isDropped_of_sentOrDropped {m : Message} (h : sentOrDropped m = none) : IsDropped m := by
  rw [sentOrDropped] at h
  split at h
  · assumption
  · cases h

/-- **What is sent of one group** is a message, and it arrives exactly if what was published with it
is receivable and what was merged fits. -/
theorem sent_group (hz : z.Lossless) (hsender : sender ≠ 0)
    (hitems : q.items = published.map (Published.item sender)) {g : Group} (hg : g ∈ groups q.items)
    {sent : Sent} (hsent : g.sent z sender = some sent) :
    (∃ m : Message, sent.frame = m.encode ∧ m.encode.length < 2 ^ 32) ∧
      (Arrives z sent.frame ↔
        (∀ first more, g = .streams first more →
          (mergedBytes first more).length + streamOverhead ≤ maxMessageLength) ∧
        ∀ p ∈ published, p.item sender ∈ g.items → p.Receivable z sender) := by
  have hqueue : maxQueueBytes < 2 ^ 31 := by decide
  cases g with
  | streams first more =>
    cases hsent
    refine ⟨⟨_, rfl, ?_⟩, ?_⟩
    · have := length_mergedBytes_le hg
      rw [length_encode, length_encodeBody_stream, streamOverhead]
      omega
    · refine (arrives_streams hsender hitems hg).trans (and_congr_left fun _ ↦ ?_)
      constructor
      · intro hfits first' more' heq
        cases heq
        exact hfits
      · exact fun h ↦ h first more rfl
  | single item =>
    have hmem : item ∈ q.items := items_subset_of_mem_groups hg List.mem_cons_self
    have hcost := OutboundQueue.cost_le hmem
    have hno : (∀ first more, Group.single item = .streams first more →
        (mergedBytes first more).length + streamOverhead ≤ maxMessageLength) := nofun
    -- a group of one item is about what was published as that item
    have hsingle : ∀ {P : Prop}, (∀ p ∈ published, p.item sender = item →
        (p.Receivable z sender ↔ P)) →
        ((∀ p ∈ published, p.item sender ∈ (Group.single item).items → p.Receivable z sender) ↔
          P) := by
      intro P hP
      rw [hitems] at hmem
      obtain ⟨p, hp, hpitem⟩ := List.mem_map.mp hmem
      constructor
      · exact fun h ↦ (hP p hp hpitem).mp (h p hp (List.mem_singleton.mpr hpitem))
      · exact fun h p' hp' hitem' ↦ (hP p' hp' (List.mem_singleton.mp hitem')).mpr h
    refine ⟨?_, Iff.trans ?_ (and_iff_right hno).symm⟩
    · cases item with
      | stream firstFrame bytes => exact absurd hg single_stream_not_mem_groups
      | snapshot data target =>
        obtain ⟨hdropped, rfl⟩ := sentOrDropped_eq_some hsent
        exact ⟨_, rfl, encodeBody_lt_of_not_dropped hdropped⟩
      | startState data =>
        obtain ⟨hdropped, rfl⟩ := sentOrDropped_eq_some hsent
        exact ⟨_, rfl, encodeBody_lt_of_not_dropped hdropped⟩
      | encoded bytes =>
        cases hsent
        rw [hitems] at hmem
        obtain ⟨p, hp, hpitem⟩ := List.mem_map.mp hmem
        cases p with
        | syncHash frame hash =>
          cases hpitem
          exact ⟨_, rfl, by simp only [Outbound.cost] at hcost; omega⟩
        | _ => cases hpitem
    · cases item with
      | stream firstFrame bytes => exact absurd hg single_stream_not_mem_groups
      | snapshot data target =>
        obtain ⟨hdropped, rfl⟩ := sentOrDropped_eq_some hsent
        have hstate : data.state.length < 2 ^ 64 := by
          simp only [Outbound.cost] at hcost
          omega
        refine (arrives_snapshot hz hsender hstate hdropped).trans (hsingle fun p hp hpitem ↦ ?_).symm
        cases p with
        | snapshot data' target' =>
          cases hpitem
          exact or_iff_right hdropped
        | _ => cases hpitem
      | startState data =>
        obtain ⟨hdropped, rfl⟩ := sentOrDropped_eq_some hsent
        have hstate : data.state.length < 2 ^ 64 := by
          simp only [Outbound.cost] at hcost
          omega
        refine (arrives_startState hz hstate hdropped).trans (hsingle fun p hp hpitem ↦ ?_).symm
        cases p with
        | startState data' =>
          cases hpitem
          exact or_iff_right hdropped
        | _ => cases hpitem
      | encoded bytes =>
        cases hsent
        rw [hitems] at hmem
        obtain ⟨p, hp, hpitem⟩ := List.mem_map.mp hmem
        cases p with
        | syncHash frame hash =>
          cases hpitem
          refine (iff_true_intro (arrives_syncHash hsender frame hash)).trans
            (hsingle fun p hp hpitem ↦ ?_).symm
          cases p with
          | syncHash frame' hash' => exact Iff.rfl
          | _ => cases hpitem
        | _ => cases hpitem

end

/-- What a session queues is received: every frame of it is read and handled, and whatever was not
sent is reported. -/
structure QueuedIsReceived (S : Type) (z : Zstd) (sender : PeerId) (q : OutboundQueue) : Prop where
  received : Received S z (q.written z sender)
  reported : ∀ item ∈ q.items, ∀ text, item.droppedText z sender = some text →
    text ∈ (encodeOutbound z q.items sender).dropped

/-- The queue holds what was published and the link cable messages that were sent. -/
structure OutboundQueue.Holds (q : OutboundQueue) (sender : PeerId) (published : List Published)
    (links : List LinkMessage) : Prop where
  items : q.items = published.map (Published.item sender)
  urgent : q.urgent = links.filterMap (sendLink sender)

/-- Everything that was published and sent is within the caps of the receivers. -/
structure AllReceivable (z : Zstd) (sender : PeerId) (q : OutboundQueue)
    (published : List Published) (links : List LinkMessage) : Prop where
  links : ∀ m ∈ links, m.target = 0 ∨ m.target = sender ∨ m.Receivable
  merges : MergesFit q.items
  published : ∀ p ∈ published, p.Receivable z sender

section

variable {S : Type} {z : Zstd} {sender : PeerId} {q : OutboundQueue} {published : List Published}
  {links : List LinkMessage}

/-- The frames that are written. -/
theorem written_eq (hq : q.Holds sender published links) :
    q.written z sender = (links.filterMap (sendLink sender) ++
      ((groups q.items).filterMap (Group.sent z sender)).map Sent.frame).flatten := by
  rw [OutboundQueue.written, encodeOutbound_bytes, hq.urgent, List.flatten_append, List.flatMap_def]

/-- The link cable messages arrive exactly if each is receivable. -/
theorem arrives_links (hq : q.Holds sender published links) :
    (∀ f ∈ q.urgent, ∃ m : Message, f = m.encode ∧ m.encode.length < 2 ^ 32) ∧
      ((∀ f ∈ q.urgent, Arrives z f) ↔
        ∀ m ∈ links, m.target = 0 ∨ m.target = sender ∨ m.Receivable) := by
  have hqueue : maxQueueBytes < 2 ^ 32 := by decide
  have hmem : ∀ f, f ∈ q.urgent ↔ ∃ m ∈ links, ¬ (m.target = 0 ∨ m.target = sender) ∧
      f = (fromLink sender m).encode := by
    intro f
    rw [hq.urgent, List.mem_filterMap]
    refine exists_congr fun m ↦ and_congr_right fun _ ↦ ?_
    rw [sendLink]
    split_ifs with hrefused
    · exact ⟨nofun, fun h ↦ absurd hrefused h.1⟩
    · exact ⟨fun h ↦ ⟨hrefused, (Option.some.inj h).symm⟩, fun h ↦ congrArg some h.2.symm⟩
  have hlen : ∀ m ∈ links, ¬ (m.target = 0 ∨ m.target = sender) →
      (fromLink sender m).encode.length < 2 ^ 32 := by
    intro m hm hsent
    have := OutboundQueue.length_urgent_le ((hmem _).mpr ⟨m, hm, hsent, rfl⟩)
    omega
  refine ⟨fun f hf ↦ ?_, fun harrives m hm ↦ ?_, fun hlinks f hf ↦ ?_⟩
  · obtain ⟨m, hm, hsent, rfl⟩ := (hmem f).mp hf
    exact ⟨_, rfl, hlen m hm hsent⟩
  · by_cases hrefused : m.target = 0 ∨ m.target = sender
    · exact hrefused.elim .inl fun h ↦ .inr (.inl h)
    · refine .inr (.inr ?_)
      refine (arrives_link (z := z) (fun h ↦ hrefused (.inl h)) (hlen m hm hrefused)).mp ?_
      exact harrives _ ((hmem _).mpr ⟨m, hm, hrefused, rfl⟩)
  · obtain ⟨m, hm, hsent, rfl⟩ := (hmem f).mp hf
    refine (arrives_link (fun h ↦ hsent (.inl h)) (hlen m hm hsent)).mpr ?_
    rcases hlinks m hm with h | h | h
    · exact absurd (.inl h) hsent
    · exact absurd (.inr h) hsent
    · exact h

/-- What is sent of the items arrives exactly if what the writer merges fits and everything that was
published is receivable. -/
theorem arrives_items (hz : z.Lossless) (hsender : sender ≠ 0)
    (hq : q.Holds sender published links) :
    (∀ sent ∈ (groups q.items).filterMap (Group.sent z sender), Arrives z sent.frame) ↔
      MergesFit q.items ∧ ∀ p ∈ published, p.Receivable z sender := by
  constructor
  · intro harrives
    have hgroup : ∀ {g sent}, g ∈ groups q.items → g.sent z sender = some sent → _ :=
      fun hg hsent ↦ (sent_group hz hsender hq.items hg hsent).2.mp
        (harrives _ (List.mem_filterMap.mpr ⟨_, hg, hsent⟩))
    refine ⟨fun first more hg ↦ (hgroup hg rfl).1 first more rfl, fun p hp ↦ ?_⟩
    have hmem : p.item sender ∈ q.items := by
      rw [hq.items]
      exact List.mem_map_of_mem hp
    rw [← items_groups q.items] at hmem
    obtain ⟨g, hg, hitem⟩ := List.mem_flatMap.mp hmem
    cases hsent : g.sent z sender with
    | some sent => exact (hgroup hg hsent).2 p hp hitem
    | none =>
      -- only what is too large is not sent, and that is reported
      cases g with
      | streams first more => cases hsent
      | single item =>
        rw [List.mem_singleton.mp hitem |>.symm] at hsent
        cases p with
        | packets firstFrame run => cases hsent
        | syncHash frame hash => cases hsent
        | snapshot data target => exact .inl (isDropped_of_sentOrDropped hsent)
        | startState data => exact .inl (isDropped_of_sentOrDropped hsent)
  · rintro ⟨hmerges, hreceivable⟩ sent hsent
    obtain ⟨g, hg, hsent⟩ := List.mem_filterMap.mp hsent
    refine (sent_group hz hsender hq.items hg hsent).2.mpr ⟨?_, fun p hp _ ↦ hreceivable p hp⟩
    rintro first more rfl
    exact hmerges first more hg

/-- **What is queued is received exactly if all of it is receivable**: the link cable messages, each
thing that was published, and the streams that the writer merges. -/
theorem received_iff_receivable (hz : z.Lossless) (hsender : sender ≠ 0)
    (hq : q.Holds sender published links) :
    QueuedIsReceived S z sender q ↔ AllReceivable z sender q published links := by
  have hframes : ∀ f ∈ links.filterMap (sendLink sender) ++
      ((groups q.items).filterMap (Group.sent z sender)).map Sent.frame,
      ∃ m : Message, f = m.encode ∧ m.encode.length < 2 ^ 32 := by
    rw [← hq.urgent, List.forall_mem_append]
    refine ⟨(arrives_links (z := z) hq).1, fun f hf ↦ ?_⟩
    obtain ⟨sent, hsent, rfl⟩ := List.mem_map.mp hf
    obtain ⟨g, hg, hsent⟩ := List.mem_filterMap.mp hsent
    exact (sent_group hz hsender hq.items hg hsent).1
  have hreceived : Received S z (q.written z sender) ↔
      AllReceivable z sender q published links := by
    rw [written_eq hq, received_iff_arrives_frames hframes, ← hq.urgent, List.forall_mem_append,
      (arrives_links hq).2, List.forall_mem_map, arrives_items hz hsender hq]
    exact ⟨fun h ↦ ⟨h.1, h.2.1, h.2.2⟩, fun h ↦ ⟨h.links, h.merges, h.published⟩⟩
  refine ⟨fun h ↦ hreceived.mp h.received, fun h ↦ ⟨hreceived.mpr h, ?_⟩⟩
  intro item hitem text htext
  rw [encodeOutbound_dropped]
  exact List.mem_filterMap.mpr ⟨item, hitem, htext⟩

end

/-- A queue with one frame on the urgent lane. -/
def OutboundQueue.ofUrgent (frame : Bytes) (h : frame.length ≤ maxQueueBytes) : OutboundQueue :=
  ⟨[], [frame], frame.length, false, by simp, h, Nat.zero_le _⟩

/-- A queue with one item. -/
def OutboundQueue.ofItem (item : Outbound) (h : item.cost ≤ maxQueueBytes) : OutboundQueue :=
  ⟨[item], [], item.cost, false, by simp, h, Nat.succ_le_of_lt (by decide)⟩

theorem received_iff_receivable_frame :
    QueuedIsReceived Unit rawZstd 2
      (.ofItem (.stream 0 (encodePackets [.changeInput [1], .nextFrame 16])) (by decide)) := by
  let q : OutboundQueue :=
    .ofItem (.stream 0 (encodePackets [.changeInput [1], .nextFrame 16])) (by decide)
  have hq : q.Holds 2 [.packets 0 [.changeInput [1], .nextFrame 16]] [] := ⟨rfl, rfl⟩
  refine (received_iff_receivable rawZstd_lossless (by decide) hq).mpr ⟨?_, ?_, ?_⟩
  · exact fun m hm ↦ absurd hm List.not_mem_nil
  · intro first more h
    have hgroups : groups [.stream 0 (encodePackets [.changeInput [1], .nextFrame 16])] =
        [.streams (0, encodePackets [.changeInput [1], .nextFrame 16]) []] := rfl
    replace h : Group.streams first more ∈
        groups [.stream 0 (encodePackets [.changeInput [1], .nextFrame 16])] := h
    rw [hgroups] at h
    cases List.mem_singleton.mp h
    decide
  · intro p hp
    cases List.mem_singleton.mp hp
    intro packet hpacket
    rcases List.mem_cons.mp hpacket with rfl | hpacket
    · exact ⟨rfl, trivial⟩
    · cases List.mem_singleton.mp hpacket
      exact ⟨rfl, trivial⟩

/-- A write on a linked console. -/
def linkWrite (data : ByteVec) : LinkMessage := .frame 3 0 0 [.writeMemory 0 data] none

/-- The events of a write of 32 KiB are longer than that. -/
theorem length_linkWrite {data : ByteVec} (h : data.length = 32768) :
    (encodePackets [.writeMemory 0 data]).length = 32773 := by
  have hsized : writeSized data = Usize.write 32768 ++ data := by
    rw [writeSized, if_neg (by rw [hasFixedWidth, h]; decide), ByteVec.write, h]
  have haddress : (UnsignedInteger.write 0).length = 1 := rfl
  have hcount : (Usize.write 32768).length = 3 := rfl
  simp only [encodePackets, List.flatMap_cons, List.flatMap_nil, List.append_nil, Packet.write,
    Packet.writePayload, hsized, List.length_cons, List.length_append, haddress, h, hcount]

/-- **A link frame that holds more events than a receiver accepts is sent all the same.** -/
theorem large_link_frame_not_received :
    ¬ ∀ (S : Type) (z : Zstd), z.Lossless → ∀ sender : PeerId, sender ≠ 0 →
      ∀ (q : OutboundQueue) (published : List Published) (links : List LinkMessage),
      q.Holds sender published links → QueuedIsReceived S z sender q := by
  intro h
  obtain ⟨data, hdata⟩ : ∃ data : Bytes, data.length = 32768 :=
    ⟨List.replicate 32768 0, List.length_replicate⟩
  have hlen : (Message.fromLink 2 (linkWrite data)).encode.length = 32842 := by
    rw [length_encode, linkWrite, Message.fromLink]
    simp only [Message.encodeBody, Message.encodePayload, List.length_cons, List.length_append,
      Encoder.bytes, Decoder.length_u16, Decoder.length_u32, Decoder.length_u64, Encoder.hash,
      FixedBytes.length_eq, length_linkWrite hdata]
  have hqueue : maxQueueBytes = 67108864 := rfl
  have hq : (OutboundQueue.ofUrgent (Message.fromLink 2 (linkWrite data)).encode
      (by omega)).Holds 2 [] [linkWrite data] := ⟨rfl, rfl⟩
  have hreceived := (h Unit rawZstd rawZstd_lossless 2 (by decide) _ _ _ hq).received
  have hwritten : OutboundQueue.written rawZstd 2 (OutboundQueue.ofUrgent
      (Message.fromLink 2 (linkWrite data)).encode (by omega)) =
      [(Message.fromLink 2 (linkWrite data)).encode].flatten := List.append_nil _
  rw [hwritten, received_iff_arrives_frames fun f hf ↦
    ⟨_, List.mem_singleton.mp hf, by omega⟩] at hreceived
  have harrives := hreceived _ List.mem_cons_self
  have htarget : (linkWrite data).target ≠ 0 := show (3 : PeerId) ≠ 0 by decide
  have hreceivable := (arrives_link htarget (by omega)).mp harrives
  have hfits : (encodePackets [.writeMemory 0 data]).length ≤ maxLinkEventBytes := hreceivable.1
  have hcap : maxLinkEventBytes = 32768 := rfl
  rw [length_linkWrite hdata, hcap] at hfits
  omega

end PlayTogether

end SuperShuckie
