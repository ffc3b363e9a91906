import SuperShuckie.PlayTogether.Message
import SuperShuckie.Packet.RoundTrip
import SuperShuckie.Packet.Stream

/-!
# Packets on the wire

`Stream` and `LinkFrame` messages carry whole replay packets, in the encoding of the replay file.
Only some kinds of packets may appear in either, and a receiver refuses the others.

Byte strings of whole packets can be laid end to end: they are parsed one after the other
(`parsePackets_append`), and they are read back as they were written (`parsePackets_encodePackets`).
-/

set_option autoImplicit false

namespace SuperShuckie

open ByteFormat Packet

namespace PlayTogether

/-- A writer merges consecutive pending streams up to this many bytes. -/
def streamMergeLimit : Nat := 256 * 2 ^ 10

/-- Serialize packets the way the messages carry them (`encode_packets`, `encode_link_events`). -/
def encodePackets (packets : List Packet) : Bytes := packets.flatMap Packet.write

/-- How many frames the packets run. -/
def countFrames (packets : List Packet) : UInt64 :=
  UInt64.ofNat (packets.countP fun p ↦ match p with
    | .nextFrame _ => true
    | _ => false)

/-- The name of a packet kind that must not appear in a stream, or `none` when it is allowed. -/
def forbiddenKind : Packet → Option String
  | .noOp | .nextFrame _ | .changeInput _ | .writeMemory _ _ | .changeSpeed _ | .resetConsole
  | .loadSaveState _ | .incrementCounter _ _ | .serialIn _ => none
  | .keyframe _ _ => some "Keyframe"
  | .deltaKeyframe _ _ => some "DeltaKeyframe"
  | .regionDeltaKeyframe _ _ _ _ => some "RegionDeltaKeyframe"
  | .storedKeyframe _ => some "StoredKeyframe"
  | .thumbnail _ => some "Thumbnail"
  | .compressedBlob _ => some "CompressedBlob"
  | .bookmark _ => some "Bookmark"
  | .bookmarkTable _ => some "BookmarkTable"

/-- The name of a packet kind that must not appear in a link frame, or `none` when it is allowed. -/
def forbiddenLinkKind : Packet → Option String
  | .noOp | .changeInput _ | .writeMemory _ _ | .resetConsole => none
  | .nextFrame _ => some "NextFrame"
  | .changeSpeed _ => some "ChangeSpeed"
  | .loadSaveState _ => some "LoadSaveState"
  | .incrementCounter _ _ => some "IncrementCounter"
  | .serialIn _ => some "SerialIn"
  | .keyframe _ _ => some "Keyframe"
  | .deltaKeyframe _ _ => some "DeltaKeyframe"
  | .regionDeltaKeyframe _ _ _ _ => some "RegionDeltaKeyframe"
  | .storedKeyframe _ => some "StoredKeyframe"
  | .thumbnail _ => some "Thumbnail"
  | .compressedBlob _ => some "CompressedBlob"
  | .bookmark _ => some "Bookmark"
  | .bookmarkTable _ => some "BookmarkTable"

/-- Parse packets to the end of `bytes`, which takes as many steps as there are bytes at most. -/
def parsePacketsGo (forbidden : Packet → Option String) :
    Nat → Bytes → Except DecodeError (List Packet)
  | 0, _ => .ok []
  | fuel + 1, bytes =>
    if bytes = [] then .ok []
    else
      match Packet.readAll replayVersion bytes with
      | .error e => .error (.badPacket e)
      | .ok (packet, rest) =>
        match forbidden packet with
        | some kind => .error (.forbiddenPacket kind)
        | none => do
          let packets ← parsePacketsGo forbidden fuel rest
          pure (packet :: packets)

/-- Parse packets to the end of `bytes`. -/
def parsePackets (forbidden : Packet → Option String) (bytes : Bytes) :
    Except DecodeError (List Packet) := parsePacketsGo forbidden bytes.length bytes

/-- Parse the packets of a stream. -/
def decodePackets (bytes : Bytes) : Except DecodeError (List Packet) :=
  parsePackets forbiddenKind bytes

/-- Parse the events of a link frame. -/
def decodeLinkEvents (bytes : Bytes) : Except DecodeError (List Packet) :=
  parsePackets forbiddenLinkKind bytes

/-! ## Packets laid end to end -/

variable {forbidden : Packet → Option String}

/-- Enough steps are enough. -/
theorem parsePacketsGo_eq {n : Nat} {bytes : Bytes} (h : bytes.length ≤ n) :
    parsePacketsGo forbidden n bytes = parsePackets forbidden bytes := by
  rw [parsePackets]
  suffices key : ∀ n m bytes, bytes.length ≤ n → bytes.length ≤ m →
      parsePacketsGo forbidden n bytes = parsePacketsGo forbidden m bytes from
    key n _ bytes h le_rfl
  intro n
  induction n with
  | zero =>
    intro m bytes hn _
    rw [List.length_eq_zero_iff.mp (by omega : bytes.length = 0)]
    cases m <;> rfl
  | succ n ih =>
    intro m bytes hn hm
    cases bytes with
    | nil => cases m <;> rfl
    | cons b bytes =>
      obtain ⟨m, rfl⟩ : ∃ k, m = k + 1 := ⟨m - 1, by simp only [List.length_cons] at hm; omega⟩
      rw [parsePacketsGo, parsePacketsGo, if_neg (List.cons_ne_nil b bytes),
        if_neg (List.cons_ne_nil b bytes)]
      cases hread : readAll replayVersion (b :: bytes) with
      | error e => rfl
      | ok r =>
        have hlt := readAll_length_lt hread
        simp only [List.length_cons] at hlt hn hm
        dsimp only
        rw [ih m r.2 (by omega) (by omega)]

theorem parsePackets_nil : parsePackets forbidden [] = .ok [] := rfl

/-- What is parsed when the bytes start with a packet. -/
theorem parsePackets_of_readAll {bytes rest : Bytes} {packet : Packet}
    (h : readAll replayVersion bytes = .ok (packet, rest)) :
    parsePackets forbidden bytes = (match forbidden packet with
      | some kind => .error (.forbiddenPacket kind)
      | none => (parsePackets forbidden rest).map (packet :: ·)) := by
  have hlt := readAll_length_lt h
  obtain ⟨n, hn⟩ : ∃ n, bytes.length = n + 1 := ⟨bytes.length - 1, by omega⟩
  have hne : bytes ≠ [] := by
    rintro rfl
    cases hn
  rw [parsePackets, hn, parsePacketsGo, if_neg hne, h]
  dsimp only
  cases forbidden packet with
  | some kind => rfl
  | none =>
    rw [parsePacketsGo_eq (by omega)]
    cases parsePackets forbidden rest <;> rfl

theorem parsePackets_of_error {bytes : Bytes} {e : PacketReadError} (hne : bytes ≠ [])
    (h : readAll replayVersion bytes = .error e) :
    parsePackets forbidden bytes = .error (.badPacket e) := by
  obtain ⟨n, hn⟩ : ∃ n, bytes.length = n + 1 :=
    ⟨bytes.length - 1, by have := List.length_pos_of_ne_nil hne; omega⟩
  rw [parsePackets, hn, parsePacketsGo, if_neg hne, h]

variable {packets : List Packet}

/-- **Whole packets are parsed, and then what follows them.** -/
theorem parsePackets_append {bytes more : Bytes} (h : parsePackets forbidden bytes = .ok packets) :
    parsePackets forbidden (bytes ++ more) = (parsePackets forbidden more).map (packets ++ ·) := by
  induction hn : bytes.length using Nat.strong_induction_on generalizing bytes packets with
  | _ n ih =>
    by_cases hne : bytes = []
    · rw [hne, parsePackets_nil] at h
      cases h
      rw [hne, List.nil_append]
      cases parsePackets forbidden more <;> rfl
    · cases hread : readAll replayVersion bytes with
      | error e =>
        rw [parsePackets_of_error hne hread] at h
        cases h
      | ok r =>
        obtain ⟨packet, rest⟩ := r
        have hlt := readAll_length_lt hread
        have hmore := (stable replayVersion).append hread more
        rw [parsePackets_of_readAll hread] at h
        rw [parsePackets_of_readAll hmore]
        cases hkind : forbidden packet with
        | some kind =>
          rw [hkind] at h
          cases h
        | none =>
          rw [hkind] at h
          cases hrest : parsePackets forbidden rest with
          | error e =>
            rw [hrest] at h
            cases h
          | ok packets' =>
            rw [hrest] at h
            cases h
            dsimp only
            rw [ih rest.length (by omega) hrest rfl]
            cases parsePackets forbidden more <;> rfl

/-! ## Packets that were written -/

/-- A packet that may appear and comes back from what it is written as. -/
def MayAppear (forbidden : Packet → Option String) (p : Packet) : Prop :=
  forbidden p = none ∧ p.Readable

/-- A packet is read by its discriminator. -/
theorem readAll_write_eq (version : Nat) (p : Packet) (rest : Bytes) :
    readAll version (p.write ++ rest) =
      readPayload version p.discriminator (p.writePayload ++ rest) := by
  rw [write, List.cons_append, readAll_cons, PacketDiscriminator.tryFrom_toByte]

/-- A packet that must not appear, or is not read back, is refused. -/
theorem parsePackets_of_not_mayAppear (hstored : ∀ k, forbidden (.storedKeyframe k) ≠ none)
    (hback : ∀ p : Packet, forbidden p.readBack = forbidden p) {p : Packet} {rest : Bytes}
    (hlen : p.write.length < 2 ^ 64) (h : ¬ MayAppear forbidden p) :
    ∃ e, parsePackets forbidden (p.write ++ rest) = .error e := by
  have hne : p.write ++ rest ≠ [] := by simp [write]
  by_cases hreadable : p.Readable
  · have hkind : forbidden p ≠ none := fun hkind ↦ h ⟨hkind, hreadable⟩
    obtain ⟨kind, hkind⟩ := Option.ne_none_iff_exists'.mp hkind
    rw [parsePackets_of_readAll (reads (by decide) hreadable hlen rest), hback, hkind]
    exact ⟨_, rfl⟩
  · cases p with
    | serialIn data =>
      have hlong : maxSerialInBytes < data.length := Nat.lt_of_not_le hreadable
      have hdata : data.length < 2 ^ 64 := by
        simp only [write, writePayload, ByteVec.write, List.length_cons, List.length_append] at hlen
        omega
      have hread : readAll replayVersion ((serialIn data).write ++ rest) =
          .error (.parseFail
            s!"SerialIn packet of {data.length} bytes is longer than the {maxSerialInBytes} allowed")
          := by
        have hpayload : (readSerialIn (ByteVec.write data ++ rest)) = .error (.parseFail
            s!"SerialIn packet of {data.length} bytes is longer than the {maxSerialInBytes} allowed")
            := by
          rw [readSerialIn, Reader.bind_apply, ByteVec.write, List.append_assoc,
            Usize.reads hdata (data ++ rest)]
          show (if maxSerialInBytes < data.length then _ else _ : PacketReader ByteVec) _ = _
          rw [if_pos hlong]
          rfl
        rw [readAll_write_eq]
        show (serialIn <$> readSerialIn) (ByteVec.write data ++ rest) = _
        show (fun r ↦ (serialIn r.1, r.2)) <$> readSerialIn (ByteVec.write data ++ rest) = _
        rw [hpayload]
        rfl
      exact ⟨_, parsePackets_of_error hne hread⟩
    | storedKeyframe k =>
      cases hread : readAll replayVersion ((storedKeyframe k).write ++ rest) with
      | error e => exact ⟨_, parsePackets_of_error hne hread⟩
      | ok r =>
        obtain ⟨q, rest'⟩ := r
        have hq : ∃ k', q = .storedKeyframe k' := by
          have hreturns : Reader.Returns (fun q ↦ ∃ k', q = storedKeyframe k')
              (storedKeyframe <$> StoredKeyframe.readAll replayVersion) :=
            Reader.Returns.map fun k' ↦ ⟨k', rfl⟩
          rw [readAll_write_eq] at hread
          exact hreturns _ _ _ hread
        obtain ⟨k', rfl⟩ := hq
        obtain ⟨kind, hkind⟩ := Option.ne_none_iff_exists'.mp (hstored k')
        rw [parsePackets_of_readAll hread, hkind]
        exact ⟨_, rfl⟩
    | _ => exact absurd trivial hreadable

/-- **Packets that were written are parsed exactly if each may appear and is read back.** -/
theorem parsePackets_encodePackets_iff (hstored : ∀ k, forbidden (.storedKeyframe k) ≠ none)
    (hback : ∀ p : Packet, forbidden p.readBack = forbidden p)
    (hlen : (encodePackets packets).length < 2 ^ 64) :
    (∃ parsed, parsePackets forbidden (encodePackets packets) = .ok parsed) ↔
      ∀ p ∈ packets, MayAppear forbidden p := by
  induction packets with
  | nil => exact ⟨fun _ p hp ↦ absurd hp List.not_mem_nil, fun _ ↦ ⟨[], rfl⟩⟩
  | cons p packets ih =>
    rw [encodePackets, List.flatMap_cons, List.length_append, ← encodePackets] at hlen
    have ih := ih (by omega)
    rw [encodePackets, List.flatMap_cons, ← encodePackets, List.forall_mem_cons]
    by_cases hp : MayAppear forbidden p
    · have hreads : Reader.Reads (readAll replayVersion) p.write p.readBack :=
        reads (by decide) hp.2 (by omega)
      have hread := hreads (encodePackets packets)
      rw [parsePackets_of_readAll hread, hback, hp.1, ← ih]
      constructor
      · rintro ⟨parsed, hparsed⟩
        cases hrest : parsePackets forbidden (encodePackets packets) with
        | error e =>
          rw [hrest] at hparsed
          cases hparsed
        | ok parsed' => exact ⟨hp, parsed', rfl⟩
      · rintro ⟨-, parsed, hparsed⟩
        exact ⟨p.readBack :: parsed, by rw [hparsed]; rfl⟩
    · constructor
      · rintro ⟨parsed, hparsed⟩
        have hrefused : ∃ e, parsePackets forbidden (p.write ++ encodePackets packets) = .error e :=
          parsePackets_of_not_mayAppear hstored hback (by omega) hp
        obtain ⟨e, he⟩ := hrefused
        rw [he] at hparsed
        cases hparsed
      · exact fun hall ↦ absurd hall.1 hp

theorem decodePackets_encodePackets_iff (hlen : (encodePackets packets).length < 2 ^ 64) :
    (∃ parsed, decodePackets (encodePackets packets) = .ok parsed) ↔
      ∀ p ∈ packets, MayAppear forbiddenKind p :=
  parsePackets_encodePackets_iff (fun _ ↦ Option.some_ne_none _) (fun p ↦ by cases p <;> rfl) hlen

theorem decodeLinkEvents_encodePackets_iff (hlen : (encodePackets packets).length < 2 ^ 64) :
    (∃ parsed, decodeLinkEvents (encodePackets packets) = .ok parsed) ↔
      ∀ p ∈ packets, MayAppear forbiddenLinkKind p :=
  parsePackets_encodePackets_iff (fun _ ↦ Option.some_ne_none _) (fun p ↦ by cases p <;> rfl) hlen

theorem encodePackets_append (packets packets' : List Packet) :
    encodePackets (packets ++ packets') = encodePackets packets ++ encodePackets packets' :=
  List.flatMap_append

theorem countFrames_append (packets packets' : List Packet) :
    countFrames (packets ++ packets') = countFrames packets + countFrames packets' := by
  rw [countFrames, countFrames, countFrames, List.countP_append, UInt64.ofNat_add]

end PlayTogether

end SuperShuckie
