import SuperShuckie.FrameServer.Codec

/-!
# Reading the messages of the frame server

The bytes of a client come in chunks of any size, with interruptions between them, and then end or
fail.  However they come, what is read is decided by the bytes alone (`readMessageUpTo_of_framed`): the whole
messages that they start with, one after the other (`readAll_spec`).

An input that ends one to three bytes into a length prefix is taken for one that ends between two
messages (`messages_framed`).
-/

set_option autoImplicit false

namespace SuperShuckie.FrameServer

open ByteFormat ByteFormat.Metered

/-- What the input does when it is read. -/
inductive ReadEvent
  /-- Bytes are there; a read that has room for fewer leaves the rest.  No bytes are the end of the
  input. -/
  | data (bytes : Bytes)
  | interrupted
  | failed
deriving DecidableEq

/-- What the input still does.  Then it ends. -/
abbrev Input := List ReadEvent

/-- Why reading a message failed. -/
inductive ReadError
  | unexpectedEof
  | invalidData (error : DecodeError)
  | failed
deriving DecidableEq

/-- Fill a buffer with `need` more bytes. -/
def readExact : Input → Nat → Bytes → Except ReadError (Bytes × Input)
  | input, 0, filled => .ok (filled, input)
  | [], _ + 1, _ => .error .unexpectedEof
  | .data bytes :: input, need + 1, filled =>
    if bytes = [] then .error .unexpectedEof
    else if bytes.length ≤ need + 1 then
      readExact input (need + 1 - bytes.length) (filled ++ bytes)
    else .ok (filled ++ bytes.take (need + 1), .data (bytes.drop (need + 1)) :: input)
  | .interrupted :: input, need + 1, filled => readExact input (need + 1) filled
  | .failed :: _, _ + 1, _ => .error .failed

/-- Read one framed message body: `none` where the input ends.  The numbers are the lengths of the
buffers that are made. -/
def readMessageUpTo (maxLen : UInt32) (input : Input) :
    Except ReadError (Option (Bytes × Input)) × List Nat :=
  match readExact input 4 [] with
  | .error .unexpectedEof => (.ok none, [])
  | .error e => (.error e, [])
  | .ok (header, input) =>
    let len := UInt32.ofNat (ofLeBytes header)
    if len = 0 ∨ maxLen < len then (.error (.invalidData (.tooLong len)), [])
    else ((readExact input len.toNat []).map some, [len.toNat])

/-- The bytes that the input delivers, and whether it ends after them instead of failing. -/
def Input.delivers : Input → Bytes × Bool
  | [] => ([], true)
  | .data bytes :: input =>
    if bytes = [] then ([], true) else (bytes ++ (delivers input).1, (delivers input).2)
  | .interrupted :: input => delivers input
  | .failed :: _ => ([], false)

/-- How much there is to read. -/
def Input.size : Input → Nat
  | [] => 0
  | .data bytes :: input => bytes.length + 1 + size input
  | .interrupted :: input => 1 + size input
  | .failed :: input => 1 + size input

/-! ## However the bytes arrive -/

/-- **A buffer is filled from what is delivered**, and the rest is delivered after it. -/
theorem readExact_eq (input : Input) (need : Nat) (filled : Bytes) :
    (need ≤ input.delivers.1.length → ∃ input',
      readExact input need filled = .ok (filled ++ input.delivers.1.take need, input') ∧
        input'.delivers = (input.delivers.1.drop need, input.delivers.2) ∧
        input'.size + need ≤ input.size) ∧
    (input.delivers.1.length < need →
      readExact input need filled = .error (if input.delivers.2 then .unexpectedEof else .failed)) := by
  fun_induction readExact input need filled with
  | case1 input filled =>
    exact ⟨fun _ ↦ ⟨input, by simp, by simp, Nat.le_refl _⟩, fun h ↦ absurd h (Nat.not_lt_zero _)⟩
  | case2 need filled => exact ⟨fun h ↦ absurd h (by simp [Input.delivers]), fun _ ↦ rfl⟩
  | case3 input need filled => exact ⟨fun h ↦ absurd h (by simp [Input.delivers]), fun _ ↦ rfl⟩
  | case4 bytes input need filled hne hle ih =>
    rw [Input.delivers, if_neg hne]
    dsimp only
    rw [List.length_append]
    constructor
    · intro hneed
      obtain ⟨input', hread, hrest, hsize⟩ := ih.1 (by omega)
      refine ⟨input', ?_, ?_, ?_⟩
      · rw [hread, List.take_append, List.take_of_length_le hle, List.append_assoc]
      · rw [hrest, List.drop_append, List.drop_of_length_le hle, List.nil_append]
      · rw [Input.size]
        omega
    · exact fun hshort ↦ ih.2 (by omega)
  | case5 bytes input need filled hne hgt =>
    rw [Input.delivers, if_neg hne]
    dsimp only
    have hdrop : bytes.drop (need + 1) ≠ [] := by
      rw [Ne, List.drop_eq_nil_iff]
      omega
    constructor
    · intro hneed
      refine ⟨.data (bytes.drop (need + 1)) :: input, ?_, ?_, ?_⟩
      · rw [List.take_append_of_le_length (by omega)]
      · rw [Input.delivers, if_neg hdrop, List.drop_append_of_le_length (by omega)]
      · rw [Input.size, Input.size, List.length_drop]
        omega
    · intro hshort
      rw [List.length_append] at hshort
      omega
  | case6 input need filled ih =>
    rw [Input.delivers]
    refine ⟨fun hneed ↦ ?_, ih.2⟩
    obtain ⟨input', hread, hrest, hsize⟩ := ih.1 hneed
    exact ⟨input', hread, hrest, by rw [Input.size]; omega⟩
  | case7 need filled =>
    exact ⟨fun h ↦ absurd h (by simp [Input.delivers]), fun _ ↦ rfl⟩

/-- The length that the first four bytes tell. -/
def lengthPrefix (bytes : Bytes) : UInt32 := UInt32.ofNat (ofLeBytes (bytes.take 4))

/-- The bytes start with a whole message of an accepted length. -/
def Framed (maxLen : UInt32) (bytes : Bytes) : Prop :=
  4 ≤ bytes.length ∧ lengthPrefix bytes ≠ 0 ∧ lengthPrefix bytes ≤ maxLen ∧
    4 + (lengthPrefix bytes).toNat ≤ bytes.length

instance (maxLen : UInt32) (bytes : Bytes) : Decidable (Framed maxLen bytes) :=
  inferInstanceAs (Decidable (_ ∧ _ ∧ _ ∧ _))

variable {maxLen : UInt32} {input : Input}

/-- **A message that is delivered is read**, and what follows it is delivered afterwards. -/
theorem readMessageUpTo_of_framed (h : Framed maxLen input.delivers.1) :
    ∃ input', (readMessageUpTo maxLen input).1 =
        .ok (some ((input.delivers.1.drop 4).take (lengthPrefix input.delivers.1).toNat, input')) ∧
      input'.delivers = (input.delivers.1.drop (4 + (lengthPrefix input.delivers.1).toNat),
        input.delivers.2) ∧ input'.size < input.size := by
  obtain ⟨hfour, hne, hmax, hlen⟩ := h
  obtain ⟨input₁, hheader, hrest, hsize⟩ := (readExact_eq input 4 []).1 hfour
  have hbody : (lengthPrefix input.delivers.1).toNat ≤ input₁.delivers.1.length := by
    rw [hrest, List.length_drop]
    omega
  obtain ⟨input₂, hread, hrest', hsize'⟩ := (readExact_eq input₁ _ []).1 hbody
  refine ⟨input₂, ?_, ?_, by omega⟩
  · have hok : ¬ (lengthPrefix input.delivers.1 = 0 ∨ maxLen < lengthPrefix input.delivers.1) := by
      rw [not_or, UInt32.not_lt]
      exact ⟨hne, hmax⟩
    rw [lengthPrefix] at hok hread ⊢
    rw [readMessageUpTo, hheader, List.nil_append]
    dsimp only
    rw [if_neg hok, hread, hrest]
    rfl
  · rw [hrest', hrest, List.drop_drop]

/-- An input that is over before a length prefix is. -/
theorem readMessageUpTo_of_short (h : input.delivers.1.length < 4) :
    (readMessageUpTo maxLen input).1 = if input.delivers.2 then .ok none else .error .failed := by
  rw [readMessageUpTo, (readExact_eq input 4 []).2 h]
  cases input.delivers.2 <;> rfl

/-- A length that is not accepted, or an input that is over before the message is. -/
theorem readMessageUpTo_of_not_framed (hfour : 4 ≤ input.delivers.1.length)
    (h : ¬ Framed maxLen input.delivers.1) : ∃ e, (readMessageUpTo maxLen input).1 = .error e := by
  obtain ⟨input₁, hheader, hrest, -⟩ := (readExact_eq input 4 []).1 hfour
  rw [readMessageUpTo, hheader, List.nil_append]
  dsimp only
  split_ifs with hrefused
  · exact ⟨_, rfl⟩
  · rw [not_or, UInt32.not_lt] at hrefused
    have hshort : input₁.delivers.1.length < (lengthPrefix input.delivers.1).toNat := by
      by_contra hlong
      rw [hrest, List.length_drop] at hlong
      exact h ⟨hfour, hrefused.1, hrefused.2, by omega⟩
    have hread := (readExact_eq input₁ _ []).2 hshort
    rw [lengthPrefix] at hread
    rw [hread]
    exact ⟨_, rfl⟩

/-- **No buffer is longer than the longest message accepted.** -/
theorem readMessageUpTo_frugal (maxLen : UInt32) (input : Input) :
    ∀ len ∈ (readMessageUpTo maxLen input).2, len ≤ maxLen.toNat := by
  intro len hlen
  rw [readMessageUpTo] at hlen
  split at hlen
  · cases hlen
  · cases hlen
  · dsimp only at hlen
    split_ifs at hlen with hrefused
    · cases hlen
    · rw [not_or, UInt32.not_lt] at hrefused
      rw [List.mem_singleton.1 hlen]
      exact hrefused.2

/-- A message that was read leaves less to read. -/
theorem size_lt_of_readMessageUpTo {body : Bytes} {input' : Input}
    (h : (readMessageUpTo maxLen input).1 = .ok (some (body, input'))) : input'.size < input.size := by
  by_cases hframed : Framed maxLen input.delivers.1
  · obtain ⟨input₁, hread, -, hsize⟩ := readMessageUpTo_of_framed hframed
    rw [hread] at h
    cases h
    exact hsize
  · by_cases hfour : 4 ≤ input.delivers.1.length
    · obtain ⟨e, he⟩ := readMessageUpTo_of_not_framed hfour hframed
      rw [he] at h
      cases h
    · rw [readMessageUpTo_of_short (by omega)] at h
      split_ifs at h
      cases h

/-! ## Reading to the end -/

/-- Read message after message: the bodies, and how it ended. -/
def readAll (maxLen : UInt32) (input : Input) : List Bytes × Except ReadError Unit :=
  match _h : (readMessageUpTo maxLen input).1 with
  | .error e => ([], .error e)
  | .ok none => ([], .ok ())
  | .ok (some (body, input')) => (body :: (readAll maxLen input').1, (readAll maxLen input').2)
termination_by input.size
decreasing_by all_goals exact size_lt_of_readMessageUpTo ‹_›

/-- What follows the whole messages that the bytes start with. -/
def unframed (maxLen : UInt32) (bytes : Bytes) : Bytes :=
  if Framed maxLen bytes then unframed maxLen (bytes.drop (4 + (lengthPrefix bytes).toNat))
  else bytes
termination_by bytes.length
decreasing_by
  rename_i h
  rw [List.length_drop]
  have := h.1
  omega

theorem frame_of_framed {bytes : Bytes} (h : Framed maxLen bytes) :
    bytes = Encoder.frame ((bytes.drop 4).take (lengthPrefix bytes).toNat) ++
      bytes.drop (4 + (lengthPrefix bytes).toNat) := by
  obtain ⟨hfour, -, -, hlen⟩ := h
  have hbody : ((bytes.drop 4).take (lengthPrefix bytes).toNat).length =
      (lengthPrefix bytes).toNat := by
    rw [List.length_take, List.length_drop]
    omega
  have hheader : Encoder.u32 (lengthPrefix bytes) = bytes.take 4 := by
    have hlength : (bytes.take 4).length = 4 := List.length_take_of_le hfour
    have hlt := ofLeBytes_lt (bytes.take 4)
    rw [hlength] at hlt
    have hback := leBytes_ofLeBytes (bytes.take 4)
    rw [hlength] at hback
    rw [Encoder.u32, lengthPrefix, UInt32.toNat_ofNat_of_lt' (by simpa using hlt), hback]
  rw [Encoder.frame, hbody, UInt32.ofNat_toNat, hheader, List.append_assoc, ← List.drop_drop,
    List.take_append_drop, List.take_append_drop]

/-- **Reading to the end reads the whole messages that are delivered**, and ends well exactly where
fewer than four bytes follow them and the input does not fail. -/
theorem readAll_spec (maxLen : UInt32) (input : Input) :
    input.delivers.1 = (readAll maxLen input).1.flatMap Encoder.frame ++
        unframed maxLen input.delivers.1 ∧
      ((readAll maxLen input).2 = .ok () ↔
        input.delivers.2 = true ∧ (unframed maxLen input.delivers.1).length < 4) := by
  have hstop {input : Input} (h : ∀ r, (readMessageUpTo maxLen input).1 ≠ .ok (some r)) :
      ¬ Framed maxLen input.delivers.1 := by
    intro hframed
    obtain ⟨input', hread, -⟩ := readMessageUpTo_of_framed hframed
    exact h _ hread
  fun_induction readAll maxLen input with
  | case1 input e h =>
    have hunframed := @hstop input fun r ↦ by
      rw [h]
      exact fun h ↦ nomatch h
    rw [unframed, if_neg hunframed]
    refine ⟨rfl, ⟨fun h ↦ (nomatch h), fun ⟨hends, hlen⟩ ↦ ?_⟩⟩
    rw [readMessageUpTo_of_short hlen, if_pos hends] at h
    cases h
  | case2 input h =>
    have hunframed := @hstop input fun r ↦ by
      rw [h]
      exact fun h ↦ nomatch h
    rw [unframed, if_neg hunframed]
    refine ⟨rfl, ⟨fun _ ↦ ?_, fun _ ↦ rfl⟩⟩
    have hlen : input.delivers.1.length < 4 := by
      by_contra hfour
      obtain ⟨e, he⟩ := readMessageUpTo_of_not_framed (by omega) hunframed
      rw [he] at h
      cases h
    refine ⟨?_, hlen⟩
    rw [readMessageUpTo_of_short hlen] at h
    split_ifs at h with hends
    exact hends
  | case3 input body input' h ih =>
    by_cases hframed : Framed maxLen input.delivers.1
    · obtain ⟨input₁, hread, hrest, -⟩ := readMessageUpTo_of_framed hframed
      rw [h] at hread
      obtain ⟨rfl, rfl⟩ := Prod.mk.inj (Option.some.inj (Except.ok.inj hread))
      rw [hrest] at ih
      rw [unframed, if_pos hframed, List.flatMap_cons, List.append_assoc, ← ih.1]
      exact ⟨frame_of_framed hframed, ih.2⟩
    · by_cases hfour : 4 ≤ input.delivers.1.length
      · obtain ⟨e, he⟩ := readMessageUpTo_of_not_framed hfour hframed
        rw [he] at h
        cases h
      · rw [readMessageUpTo_of_short (by omega)] at h
        split_ifs at h
        cases h

theorem length_u32 (n : UInt32) : (Encoder.u32 n).length = 4 := length_leBytes 4 _

/-- The frame of a body of an accepted length is framed, whatever follows it. -/
theorem framed_frame {body : Bytes} (hne : body ≠ []) (hlen : body.length ≤ maxLen.toNat)
    (rest : Bytes) : Framed maxLen (Encoder.frame body ++ rest) ∧
      (lengthPrefix (Encoder.frame body ++ rest)).toNat = body.length := by
  have hfour := length_u32
  have hlt : body.length < 2 ^ 32 := Nat.lt_of_le_of_lt hlen maxLen.toNat_lt
  have hnat : (UInt32.ofNat body.length).toNat = body.length := UInt32.toNat_ofNat_of_lt' hlt
  have hpos : 0 < body.length := List.length_pos_iff.2 hne
  have hcount : lengthPrefix (Encoder.frame body ++ rest) = UInt32.ofNat body.length := by
    rw [lengthPrefix, Encoder.frame, List.append_assoc, List.take_left' (hfour _), Encoder.u32,
      ofLeBytes_leBytes (by simpa using (UInt32.ofNat body.length).toNat_lt), UInt32.ofNat_toNat]
  refine ⟨⟨?_, ?_, ?_, ?_⟩, by rw [hcount, hnat]⟩
  · rw [List.length_append, Encoder.frame, List.length_append, hfour]
    omega
  · rw [hcount]
    intro hzero
    rw [hzero] at hnat
    exact absurd hnat (Nat.ne_of_lt hpos)
  · rw [hcount, UInt32.le_iff_toNat_le, hnat]
    exact hlen
  · rw [hcount, hnat, List.length_append, Encoder.frame, List.length_append, hfour]
    omega

/-- **Messages of accepted lengths are read back**, and then the end. -/
theorem readAll_of_frames {bodies : List Bytes}
    (h : ∀ body ∈ bodies, body ≠ [] ∧ body.length ≤ maxLen.toNat)
    (hinput : input.delivers = (bodies.flatMap Encoder.frame, true)) :
    readAll maxLen input = (bodies, .ok ()) := by
  induction bodies generalizing input with
  | nil =>
    have hread : (readMessageUpTo maxLen input).1 = .ok none := by
      rw [readMessageUpTo_of_short (by rw [hinput]; exact Nat.zero_lt_succ 3), hinput, if_pos rfl]
    rw [readAll]
    split
    · rename_i e he
      rw [he] at hread
      cases hread
    · rfl
    · rename_i body input' hsome
      rw [hsome] at hread
      cases hread
  | cons body bodies ih =>
    obtain ⟨hne, hlen⟩ := h body List.mem_cons_self
    obtain ⟨hframed, hcount⟩ := framed_frame hne hlen (bodies.flatMap Encoder.frame)
    have hfour := length_u32
    have hbytes : input.delivers.1 = Encoder.frame body ++ bodies.flatMap Encoder.frame := by
      rw [hinput, List.flatMap_cons]
    rw [← hbytes] at hframed hcount
    obtain ⟨input₁, hread, hrest, -⟩ := readMessageUpTo_of_framed hframed
    rw [hcount, hbytes, Encoder.frame, List.append_assoc] at hread hrest
    rw [List.drop_left' (hfour _), List.take_left' rfl] at hread
    rw [← List.drop_drop, List.drop_left' (hfour _), List.drop_left' rfl, hinput] at hrest
    have hall := ih (fun b hb ↦ h b (List.mem_cons_of_mem _ hb)) hrest
    rw [readAll]
    split
    · rename_i e he
      rw [he] at hread
      cases hread
    · rename_i hnone
      rw [hnone] at hread
      cases hread
    · rename_i body' input' hsome
      rw [hsome] at hread
      obtain ⟨rfl, rfl⟩ := Prod.mk.inj (Option.some.inj (Except.ok.inj hread))
      rw [hall]

/-! ## Messages in both directions -/

/-- Longest message accepted from the server. -/
def maxReplyLength : UInt32 := 4294967295

/-- The messages of an input are read as the protocol says. -/
structure ReadsMessages {α : Type} (maxLen : UInt32) (body : α → Bytes)
    (decode : Bytes → Except DecodeError α) (input : Input) : Prop where
  /-- Messages that were encoded one after the other come back, and then the clean end. -/
  roundTrip : ∀ messages : List α, (∀ m ∈ messages, (body m).length ≤ maxLen.toNat) →
    input.delivers = (messages.flatMap fun m ↦ Encoder.frame (body m), true) →
    (readAll maxLen input).1.map decode = messages.map .ok ∧ (readAll maxLen input).2 = .ok ()
  /-- The end is only clean between two messages. -/
  cleanEnd : (readAll maxLen input).2 = .ok () →
    input.delivers = ((readAll maxLen input).1.flatMap Encoder.frame, true)

/-- The input ends inside the length prefix of a message. -/
def CutInPrefix (maxLen : UInt32) (input : Input) : Prop :=
  input.delivers.2 = true ∧ 0 < (unframed maxLen input.delivers.1).length ∧
    (unframed maxLen input.delivers.1).length < 4

/-- A codec whose bodies come back reads its messages exactly when the input does not end inside a
length prefix. -/
theorem readsMessages_iff {α : Type} {body : α → Bytes} {decode : Bytes → Except DecodeError α}
    (hbody : ∀ m, body m ≠ []) (hdecode : ∀ m, (body m).length < 2 ^ 32 → decode (body m) = .ok m)
    (maxLen : UInt32) (input : Input) :
    ReadsMessages maxLen body decode input ↔ ¬ CutInPrefix maxLen input := by
  obtain ⟨hsplit, hend⟩ := readAll_spec maxLen input
  constructor
  · rintro h ⟨hends, hpos, hlen⟩
    have hclean := h.cleanEnd (hend.2 ⟨hends, hlen⟩)
    rw [hclean] at hsplit
    have hnil := List.self_eq_append_right.1 hsplit
    rw [hclean, hnil] at hpos
    exact absurd hpos (Nat.lt_irrefl 0)
  · intro h
    refine ⟨fun messages hcap hinput ↦ ?_, fun hok ↦ ?_⟩
    · have hframes : (messages.flatMap fun m ↦ Encoder.frame (body m)) =
          (messages.map body).flatMap Encoder.frame := by rw [List.flatMap_map]
      have hbodies : ∀ b ∈ messages.map body, b ≠ [] ∧ b.length ≤ maxLen.toNat := by
        intro b hb
        obtain ⟨m, hm, rfl⟩ := List.mem_map.1 hb
        exact ⟨hbody m, hcap m hm⟩
      rw [readAll_of_frames hbodies (hinput.trans (by rw [hframes])), List.map_map]
      refine ⟨List.map_congr_left fun m hm ↦ ?_, rfl⟩
      exact hdecode m (Nat.lt_of_le_of_lt (hcap m hm) maxLen.toNat_lt)
    · obtain ⟨hends, hlen⟩ := hend.1 hok
      have hnil : unframed maxLen input.delivers.1 = [] := by
        by_contra hne
        exact h ⟨hends, List.length_pos_iff.2 hne, hlen⟩
      rw [hnil, List.append_nil] at hsplit
      exact Prod.ext hsplit hends

theorem Request.body_ne_nil (request : Request) : request.body ≠ [] := by
  cases request <;> exact List.cons_ne_nil _ _

theorem Reply.body_ne_nil (reply : Reply) : reply.body ≠ [] := by
  cases reply <;> exact List.cons_ne_nil _ _

/-- **The messages of the frame server.**  Requests and replies are read as the protocol says exactly
when the input does not end inside a length prefix.  Decoding a body never makes room for more than
the body, whatever it holds, and no buffer is longer than the longest message accepted. -/
theorem messages_framed (input : Input) (body : Bytes) (maxLen : UInt32) :
    (ReadsMessages maxRequestLength Request.body Request.decode input ↔
      ¬ CutInPrefix maxRequestLength input) ∧
    (ReadsMessages maxReplyLength Reply.body Reply.decode input ↔
      ¬ CutInPrefix maxReplyLength input) ∧
    (((Decoder.message Decoder.request).log body).map Allocation.cost).sum ≤ body.length ∧
    (((Decoder.message Decoder.reply).log body).map Allocation.cost).sum ≤ body.length ∧
    ∀ len ∈ (readMessageUpTo maxLen input).2, len ≤ maxLen.toNat :=
  ⟨readsMessages_iff Request.body_ne_nil (fun _ ↦ decode_request) _ input,
    readsMessages_iff Reply.body_ne_nil (fun _ ↦ decode_reply) _ input,
    Decoder.spent_le Decoder.within_request body, Decoder.spent_le Decoder.within_reply body,
    readMessageUpTo_frugal maxLen input⟩

/-- Two bytes of a length prefix, and the end: they are taken for a clean end. -/
theorem not_readsMessages_cut :
    ¬ ReadsMessages maxRequestLength Request.body Request.decode [.data [5, 0]] := by
  intro h
  have hcut : unframed maxRequestLength [5, 0] = [5, 0] := by
    rw [unframed, if_neg (by decide)]
  obtain ⟨hsplit, hend⟩ := readAll_spec maxRequestLength [.data [5, 0]]
  have hbytes : Input.delivers [.data [5, 0]] = ([5, 0], true) := rfl
  rw [hbytes, hcut] at hsplit hend
  have hclean := h.cleanEnd (hend.2 ⟨rfl, by decide⟩)
  rw [hbytes] at hclean
  rw [← (Prod.mk.inj hclean).1] at hsplit
  exact absurd (congrArg List.length hsplit) (by decide)

end SuperShuckie.FrameServer
