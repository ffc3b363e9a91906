import SuperShuckie.FrameServer.Wire

/-!
# The codec of the frame server

A message whose length fits its prefix comes back from its body (`decode_request`, `decode_reply`),
and whatever a body holds, the bytes of it pay for what its decoder makes room for
(`within_request`, `within_reply`).
-/

set_option autoImplicit false

namespace SuperShuckie.FrameServer

open ByteFormat ByteFormat.Metered Allocation

namespace Decoder

/-! ## Reading back what was written -/

theorem reads_u8 (v : UInt8) : Reads u8 (Encoder.u8 v) v := by
  have hbytes : leBytes 1 v.toNat = [v] := by simp [leBytes]
  have hread : Reads u8 (leBytes 1 v.toNat) (UInt8.ofNat v.toNat) :=
    (reads_number (by simpa using v.toNat_lt)).bind_pure
  rwa [UInt8.ofNat_toNat, hbytes] at hread

theorem reads_u32 (v : UInt32) : Reads u32 (Encoder.u32 v) v := by
  have hread : Reads u32 (leBytes 4 v.toNat) (UInt32.ofNat v.toNat) :=
    (reads_number (by simpa using v.toNat_lt)).bind_pure
  rwa [UInt32.ofNat_toNat] at hread

theorem reads_u64 (v : UInt64) : Reads u64 (Encoder.u64 v) v := by
  have hread : Reads u64 (leBytes 8 v.toNat) (UInt64.ofNat v.toNat) :=
    (reads_number (by simpa using v.toNat_lt)).bind_pure
  rwa [UInt64.ofNat_toNat] at hread

theorem reads_i64 (v : Int64) : Reads i64 (Encoder.i64 v) v := by
  have hread : Reads i64 (leBytes 8 v.toUInt64.toNat) (UInt64.ofNat v.toUInt64.toNat).toInt64 :=
    (reads_number (by simpa using v.toUInt64.toNat_lt)).bind_pure
  rwa [UInt64.ofNat_toNat] at hread

theorem reads_flag (b : Bool) : Reads flag (Encoder.flag b) b := by
  cases b
  · exact (reads_u8 0).bind_pure
  · exact (reads_u8 1).bind_pure

theorem reads_string {s : String} (h : (strBytes s).length < 2 ^ 32) :
    Reads string (Encoder.string s) s := by
  have hlen : (UInt32.ofNat (strBytes s).length).toNat = (strBytes s).length :=
    UInt32.toNat_ofNat_of_lt' h
  refine (reads_u32 _).bind ?_
  rw [hlen]
  refine (reads_take rfl).then_nil ((reads_alloc _).bind_nil ?_)
  rw [fromUTF8?_strBytes]
  exact reads_pure s

theorem reads_list {α : Type} {item : Decoder α} {write : α → Bytes} {as : List α}
    (h : as.length < 2 ^ 32) (hitem : ∀ a ∈ as, Reads item (write a) a) :
    Reads (list item) (Encoder.list write as) as := by
  have hlen : (UInt32.ofNat as.length).toNat = as.length := UInt32.toNat_ofNat_of_lt' h
  refine (reads_u32 _).bind ?_
  rw [hlen]
  exact reads_repeated fun a ha ↦
    (hitem a ha).then_nil ((reads_alloc _).bind_nil (reads_pure a))

theorem reads_block (b : UInt32 × UInt32) : Reads block (Encoder.u32 b.1 ++ Encoder.u32 b.2) b :=
  (reads_u32 b.1).bind (reads_u32 b.2).bind_pure

theorem length_flatMap_block (bs : List (UInt32 × UInt32)) :
    (bs.flatMap fun b ↦ Encoder.u32 b.1 ++ Encoder.u32 b.2).length = bs.length * 8 := by
  induction bs with
  | nil => rfl
  | cons b bs ih =>
    rw [List.flatMap_cons, List.length_append, ih, List.length_append, Encoder.u32, Encoder.u32,
      length_leBytes, length_leBytes, List.length_cons]
    omega

theorem reads_blocks {bs : List (UInt32 × UInt32)} (h : bs.length < 2 ^ 32) :
    Reads blocks (Encoder.list (fun b ↦ Encoder.u32 b.1 ++ Encoder.u32 b.2) bs) bs := by
  have hlen : (UInt32.ofNat bs.length).toNat = bs.length := UInt32.toNat_ofNat_of_lt' h
  intro rest
  have hfits : ¬ ((bs.flatMap fun b ↦ Encoder.u32 b.1 ++ Encoder.u32 b.2) ++ rest).length <
      bs.length * 8 := by
    rw [List.length_append, length_flatMap_block]
    omega
  have hleft : left.result (ω := Allocation) (ε := DecodeError)
      ((bs.flatMap fun b ↦ Encoder.u32 b.1 ++ Encoder.u32 b.2) ++ rest) = .ok (_, _) := rfl
  rw [Encoder.list, List.append_assoc, blocks, (bind_of_ok (reads_u32 _ _)).1, hlen,
    (bind_of_ok hleft).1, if_neg hfits]
  exact ((reads_alloc _).bind_nil (reads_repeated fun b _ ↦ reads_block b)) rest

theorem samplesOf_flatMap (samples : List Int16) :
    samplesOf (samples.flatMap Encoder.i16) = samples := by
  induction samples with
  | nil => rfl
  | cons v samples ih =>
    have hbytes : Encoder.i16 v = [UInt8.ofNat v.toUInt16.toNat,
        UInt8.ofNat (v.toUInt16.toNat / 256)] := rfl
    have hback : ofLeBytes (Encoder.i16 v) = v.toUInt16.toNat :=
      ofLeBytes_leBytes (by simpa using v.toUInt16.toNat_lt)
    rw [List.flatMap_cons, hbytes, List.cons_append, List.cons_append, List.nil_append, samplesOf,
      ← hbytes, hback, ih, UInt16.ofNat_toNat]
    rfl

theorem length_flatMap_i16 (samples : List Int16) :
    (samples.flatMap Encoder.i16).length = samples.length * 2 := by
  induction samples with
  | nil => rfl
  | cons v samples ih =>
    rw [List.flatMap_cons, List.length_append, ih, Encoder.i16, length_leBytes, List.length_cons]
    omega

theorem reads_samples {ss : List Int16} (h : ss.length < 2 ^ 32) :
    Reads samples (Encoder.list Encoder.i16 ss) ss := by
  have hlen : (UInt32.ofNat ss.length).toNat = ss.length := UInt32.toNat_ofNat_of_lt' h
  refine (reads_u32 _).bind ?_
  rw [hlen]
  refine (reads_take (length_flatMap_i16 ss)).then_nil ((reads_alloc _).bind_nil ?_)
  rw [samplesOf_flatMap]
  exact reads_pure ss

theorem reads_bookmark {b : String × UInt64} (h : (strBytes b.1).length < 2 ^ 32) :
    Reads bookmark (Encoder.string b.1 ++ Encoder.u64 b.2) b :=
  (reads_string h).bind (reads_u64 b.2).bind_pure

theorem reads_counter {c : String × Int64} (h : (strBytes c.1).length < 2 ^ 32) :
    Reads counter (Encoder.string c.1 ++ Encoder.i64 c.2) c :=
  (reads_string h).bind (reads_i64 c.2).bind_pure

theorem reads_crop (c : Option (UInt64 × UInt64)) : Reads crop (encodeCrop c) c := by
  cases c with
  | none => exact (reads_u8 0).bind_pure.bind ((reads_u64 0).bind (reads_u64 0).bind_pure)
  | some c =>
    exact (reads_u8 1).bind_pure.bind ((reads_u64 c.1).bind (reads_u64 c.2).bind_pure)

/-- A copy of all that is left ends a message. -/
theorem readsOut_rest {α : Type} (f : Bytes → α) (bs : Bytes) :
    ReadsOut (rest >>= fun bytes ↦ pure (f bytes)) bs (f bs) := rfl

/-- A body is taken whole by the decoder of its tag. -/
theorem readsOut_message {α : Type} {payload : UInt8 → Decoder α} {tag : UInt8} {bs : Bytes}
    {value : α} (h : ReadsOut (payload tag) bs value) :
    ReadsOut (message payload) (Encoder.u8 tag ++ bs) value := by
  refine (reads_u8 tag).bind_readsOut ?_
  rw [ReadsOut, (bind_of_ok h).1]
  rfl

/-! ## Lengths within the prefix -/

theorem length_string (s : String) : (Encoder.string s).length = 4 + (strBytes s).length := by
  rw [Encoder.string, List.length_append, Encoder.u32, length_leBytes]

theorem length_list {α : Type} (write : α → Bytes) (as : List α) :
    (Encoder.list write as).length = 4 + (as.flatMap write).length := by
  rw [Encoder.list, List.length_append, Encoder.u32, length_leBytes]

/-- The items of a list are no more than the bytes that they are written as, and none of them is
longer. -/
theorem length_le_flatMap {α : Type} {write : α → Bytes} {as : List α}
    (h : ∀ a, 1 ≤ (write a).length) : as.length ≤ (as.flatMap write).length ∧
      ∀ a ∈ as, (write a).length ≤ (as.flatMap write).length := by
  induction as with
  | nil => exact ⟨Nat.le_refl _, fun a ha ↦ absurd ha List.not_mem_nil⟩
  | cons a as ih =>
    have ha := h a
    rw [List.flatMap_cons, List.length_append, List.length_cons]
    refine ⟨by omega, fun b hb ↦ ?_⟩
    obtain rfl | hb := List.mem_cons.1 hb
    · omega
    · have := ih.2 b hb
      omega

theorem reads_strings {as : List String} (h : (Encoder.list Encoder.string as).length < 2 ^ 32) :
    Reads (list string) (Encoder.list Encoder.string as) as := by
  rw [length_list] at h
  obtain ⟨hcount, hitems⟩ := @length_le_flatMap _ Encoder.string as fun a ↦ by
    rw [length_string]
    omega
  refine reads_list (by omega) fun a ha ↦ reads_string ?_
  have := hitems a ha
  rw [length_string] at this
  omega

theorem reads_keyframes {ks : List UInt64} (h : (Encoder.list Encoder.u64 ks).length < 2 ^ 32) :
    Reads (list u64) (Encoder.list Encoder.u64 ks) ks := by
  rw [length_list] at h
  obtain ⟨hcount, -⟩ := @length_le_flatMap _ Encoder.u64 ks fun a ↦ by
    rw [Encoder.u64, length_leBytes]
    omega
  exact reads_list (by omega) fun k _ ↦ reads_u64 k

theorem reads_bookmarks {bs : List (String × UInt64)}
    (h : (Encoder.list (fun b ↦ Encoder.string b.1 ++ Encoder.u64 b.2) bs).length < 2 ^ 32) :
    Reads (list bookmark) (Encoder.list (fun b ↦ Encoder.string b.1 ++ Encoder.u64 b.2) bs) bs := by
  rw [length_list] at h
  obtain ⟨hcount, hitems⟩ := @length_le_flatMap _
    (fun b : String × UInt64 ↦ Encoder.string b.1 ++ Encoder.u64 b.2) bs fun b ↦ by
      rw [List.length_append, length_string]
      omega
  refine reads_list (by omega) fun b hb ↦ reads_bookmark ?_
  have := hitems b hb
  rw [List.length_append, length_string] at this
  omega

theorem reads_counters {cs : List (String × Int64)}
    (h : (Encoder.list (fun c ↦ Encoder.string c.1 ++ Encoder.i64 c.2) cs).length < 2 ^ 32) :
    Reads (list counter) (Encoder.list (fun c ↦ Encoder.string c.1 ++ Encoder.i64 c.2) cs) cs := by
  rw [length_list] at h
  obtain ⟨hcount, hitems⟩ := @length_le_flatMap _
    (fun c : String × Int64 ↦ Encoder.string c.1 ++ Encoder.i64 c.2) cs fun c ↦ by
      rw [List.length_append, length_string]
      omega
  refine reads_list (by omega) fun c hc ↦ reads_counter ?_
  have := hitems c hc
  rw [List.length_append, length_string] at this
  omega

theorem reads_info {i : Info} (h : i.encode.length < 2 ^ 32) : Reads info i.encode i := by
  simp only [Info.encode, List.length_append, length_string] at h
  refine (reads_string (by omega)).bind <| (reads_u32 _).bind <| (reads_u32 _).bind <|
    (reads_u32 _).bind <| (reads_u32 _).bind <| (reads_u64 _).bind <| (reads_u32 _).bind <|
    (reads_flag _).bind <| (reads_string (by omega)).bind <| (reads_string (by omega)).bind <|
    (reads_keyframes (by omega)).bind <| (reads_bookmarks (by omega)).bind <|
    (reads_crop _).bind (reads_counters (by omega)).bind_pure

end Decoder

open Decoder

theorem decodeWith_of_readsOut {α : Type} {payload : UInt8 → Decoder α} {body : Bytes} {value : α}
    (h : ReadsOut (message payload) body value) : decodeWith payload body = .ok value := by
  rw [decodeWith, h]
  rfl

/-- **A request comes back from its body.** -/
theorem decode_request {request : Request} (h : request.body.length < 2 ^ 32) :
    Request.decode request.body = .ok request := by
  refine decodeWith_of_readsOut ?_
  cases request with
  | hello protocol =>
    refine readsOut_message (Reads.readsOut ?_)
    exact (reads_u32 _).bind_pure
  | openSource rom replay layout withAudio =>
    simp only [Request.body, List.length_append, length_string] at h
    refine readsOut_message (Reads.readsOut ?_)
    exact (reads_string (by omega)).bind <| (reads_string (by omega)).bind <|
      (reads_u8 _).bind (reads_flag _).bind_pure
  | frame id index =>
    refine readsOut_message (Reads.readsOut ?_)
    exact (reads_u32 _).bind (reads_u64 _).bind_pure
  | run id start stop =>
    refine readsOut_message (Reads.readsOut ?_)
    exact (reads_u32 _).bind <| (reads_u64 _).bind (reads_u64 _).bind_pure
  | audio id firstFrame frames =>
    refine readsOut_message (Reads.readsOut ?_)
    exact (reads_u32 _).bind <| (reads_u64 _).bind (reads_u32 _).bind_pure
  | cancel id =>
    refine readsOut_message (Reads.readsOut ?_)
    exact (reads_u32 _).bind_pure
  | close => exact readsOut_message (reads_pure Request.close).readsOut
  | memory id index blocks =>
    simp only [Request.body, List.length_append, length_list, length_flatMap_block] at h
    refine readsOut_message (Reads.readsOut ?_)
    exact (reads_u32 _).bind <| (reads_u64 _).bind (reads_blocks (by omega)).bind_pure
  | stats id index =>
    refine readsOut_message (Reads.readsOut ?_)
    exact (reads_u32 _).bind (reads_u64 _).bind_pure

/-- **A reply comes back from its body.** -/
theorem decode_reply {reply : Reply} (h : reply.body.length < 2 ^ 32) :
    Reply.decode reply.body = .ok reply := by
  refine decodeWith_of_readsOut ?_
  cases reply with
  | hello protocol server cores =>
    simp only [Reply.body, List.length_append, length_string] at h
    refine readsOut_message (Reads.readsOut ?_)
    exact (reads_u32 _).bind <| (reads_string (by omega)).bind (reads_strings (by omega)).bind_pure
  | info source =>
    simp only [Reply.body, List.length_append] at h
    have hinfo : source.encode.length < 2 ^ 32 := by omega
    refine readsOut_message (Reads.readsOut ?_)
    exact (reads_info hinfo).bind_pure
  | frame id index pixels =>
    refine readsOut_message ?_
    exact (reads_u32 _).bind_readsOut ((reads_u64 _).bind_readsOut (readsOut_rest _ _))
  | done id =>
    refine readsOut_message (Reads.readsOut ?_)
    exact (reads_u32 _).bind_pure
  | audio id firstFrame frames samples =>
    simp only [Reply.body, List.length_append, length_list, length_flatMap_i16] at h
    refine readsOut_message (Reads.readsOut ?_)
    exact (reads_u32 _).bind <| (reads_u64 _).bind <| (reads_u32 _).bind
      (reads_samples (by omega)).bind_pure
  | cancelled id =>
    refine readsOut_message (Reads.readsOut ?_)
    exact (reads_u32 _).bind_pure
  | memory id index data =>
    refine readsOut_message ?_
    exact (reads_u32 _).bind_readsOut ((reads_u64 _).bind_readsOut (readsOut_rest _ _))
  | stats id index json =>
    simp only [Reply.body, List.length_append, length_string] at h
    refine readsOut_message (Reads.readsOut ?_)
    exact (reads_u32 _).bind <| (reads_u64 _).bind (reads_string (by omega)).bind_pure
  | error id message =>
    simp only [Reply.body, List.length_append, length_string] at h
    refine readsOut_message (Reads.readsOut ?_)
    exact (reads_u32 _).bind (reads_string (by omega)).bind_pure

/-! ## What decoding makes room for -/

namespace Decoder

theorem pays_u8 : Pays cost 1 u8 := (pays_number _ 1).bind fun _ ↦ pays_pure

theorem pays_u32 : Pays cost 4 u32 := (pays_number _ 4).bind fun _ ↦ pays_pure

theorem pays_u64 : Pays cost 8 u64 := (pays_number _ 8).bind fun _ ↦ pays_pure

theorem pays_i64 : Pays cost 8 i64 := (pays_number _ 8).bind fun _ ↦ pays_pure

theorem within_flag : Metered.Within cost flag := (pays_u8.bind fun _ ↦ pays_pure).within

/-- The copy of a string is paid for by its bytes, so that its length is spare. -/
theorem pays_string : Pays cost 4 string := by
  refine (pays_u32.bind fun len ↦ ?_ : Pays cost (4 + 0) string)
  have hcopy : cost (.bytes len.toNat) ≤ len.toNat := Nat.le_refl _
  refine ((pays_take _ len.toNat).bind_alloc hcopy (l := 0) fun bytes ↦ ?_).mono (Nat.zero_le _)
  split
  · exact pays_pure
  · exact pays_fail _

theorem pays_bookmark : Pays cost 4 bookmark :=
  (pays_string.bind fun _ ↦ pays_u64.bind fun _ ↦ pays_pure).mono (by decide)

theorem pays_counter : Pays cost 4 counter :=
  (pays_string.bind fun _ ↦ pays_i64.bind fun _ ↦ pays_pure).mono (by decide)

/-- A list whose items pay for their places. -/
theorem within_list {α : Type} {item : Decoder α} (h : Pays cost 4 item) :
    Metered.Within cost (list item) := by
  refine pays_u32.within.bind fun n ↦ Metered.Within.repeated ?_ n.toNat
  exact (h.bind_alloc (Nat.le_refl _) fun _ ↦ pays_pure).within

theorem pays_block : Pays cost 8 block :=
  pays_u32.bind fun _ ↦ pays_u32.bind fun _ ↦ pays_pure

/-- Blocks take no room but the vector that was made for them. -/
theorem log_repeated_block (n : Nat) (bs : Bytes) : (repeated block n).log bs = [] := by
  have hu32 : Spends (fun _ ↦ False) u32 := (spends_number _ 4).bind fun _ ↦ spends_pure
  have hblock : Spends (fun _ ↦ False) block := hu32.bind fun _ ↦ hu32.bind fun _ ↦ spends_pure
  exact List.eq_nil_iff_forall_not_mem.2 (hblock.repeated n bs)

/-- The vector of the blocks is made only when the payload can hold them. -/
theorem within_blocks : Metered.Within cost blocks := by
  refine pays_u32.within.bind fun n bs ↦ ?_
  have hleft : (left : Decoder Bytes).result bs = .ok (bs, bs) := rfl
  have hlog : (left : Decoder Bytes).log bs = [] := rfl
  rw [(bind_of_ok hleft).1, (bind_of_ok hleft).2, hlog, List.nil_append]
  split_ifs with hshort
  · exact Nat.zero_le _
  · have halloc : (alloc (.blocks n.toNat) : Decoder Unit).result bs = .ok ((), bs) := rfl
    have hroom : (alloc (.blocks n.toNat) : Decoder Unit).log bs = [.blocks n.toNat] := rfl
    rw [(bind_of_ok halloc).1, (bind_of_ok halloc).2, hroom, log_repeated_block, List.append_nil,
      List.map_singleton, List.sum_singleton, cost]
    have hpaid := pays_block.repeated n.toNat bs
    cases hr : (repeated block n.toNat).result bs with
    | error e =>
      dsimp only
      omega
    | ok r =>
      rw [hr, log_repeated_block, List.map_nil, List.sum_nil] at hpaid
      dsimp only at hpaid ⊢
      omega

theorem within_samples : Metered.Within cost samples := by
  refine pays_u32.within.bind fun n ↦ ?_
  have hcopy : cost (.bytes (n.toNat * 2)) ≤ n.toNat * 2 := Nat.le_refl _
  exact ((pays_take _ (n.toNat * 2)).bind_alloc hcopy fun _ ↦ pays_pure).within

theorem within_rest : Metered.Within cost rest := by
  intro bs
  show (([bytes bs.length]).map cost).sum + 0 ≤ bs.length
  rw [List.map_singleton, List.sum_singleton, cost, Nat.add_zero]

theorem within_crop : Metered.Within cost crop :=
  within_flag.bind fun _ ↦ pays_u64.within.bind fun _ ↦ pays_u64.within.bind fun _ ↦ within_pure

theorem within_info : Metered.Within cost info :=
  pays_string.within.bind fun _ ↦ pays_u32.within.bind fun _ ↦ pays_u32.within.bind fun _ ↦
    pays_u32.within.bind fun _ ↦ pays_u32.within.bind fun _ ↦ pays_u64.within.bind fun _ ↦
    pays_u32.within.bind fun _ ↦ within_flag.bind fun _ ↦ pays_string.within.bind fun _ ↦
    pays_string.within.bind fun _ ↦ (within_list (pays_u64.mono (by decide))).bind fun _ ↦
    (within_list pays_bookmark).bind fun _ ↦ within_crop.bind fun _ ↦
    (within_list pays_counter).bind fun _ ↦ within_pure

/-- **Decoding the payload of a request spends no more than it takes**, whatever its tag. -/
theorem within_request (tag : UInt8) : Metered.Within cost (request tag) := by
  unfold request
  split
  · exact pays_u32.within.bind fun _ ↦ within_pure
  · exact pays_string.within.bind fun _ ↦ pays_string.within.bind fun _ ↦
      pays_u8.within.bind fun _ ↦ within_flag.bind fun _ ↦ within_pure
  · exact pays_u32.within.bind fun _ ↦ pays_u64.within.bind fun _ ↦ within_pure
  · exact pays_u32.within.bind fun _ ↦ pays_u64.within.bind fun _ ↦
      pays_u64.within.bind fun _ ↦ within_pure
  · exact pays_u32.within.bind fun _ ↦ pays_u64.within.bind fun _ ↦
      pays_u32.within.bind fun _ ↦ within_pure
  · exact pays_u32.within.bind fun _ ↦ within_pure
  · exact within_pure
  · exact pays_u32.within.bind fun _ ↦ pays_u64.within.bind fun _ ↦
      within_blocks.bind fun _ ↦ within_pure
  · exact pays_u32.within.bind fun _ ↦ pays_u64.within.bind fun _ ↦ within_pure
  · exact within_fail _

/-- **Decoding the payload of a reply spends no more than it takes**, whatever its tag. -/
theorem within_reply (tag : UInt8) : Metered.Within cost (reply tag) := by
  unfold reply
  split
  · exact pays_u32.within.bind fun _ ↦ pays_string.within.bind fun _ ↦
      (within_list pays_string).bind fun _ ↦ within_pure
  · exact within_info.bind fun _ ↦ within_pure
  · exact pays_u32.within.bind fun _ ↦ pays_u64.within.bind fun _ ↦
      within_rest.bind fun _ ↦ within_pure
  · exact pays_u32.within.bind fun _ ↦ within_pure
  · exact pays_u32.within.bind fun _ ↦ pays_u64.within.bind fun _ ↦
      pays_u32.within.bind fun _ ↦ within_samples.bind fun _ ↦ within_pure
  · exact pays_u32.within.bind fun _ ↦ within_pure
  · exact pays_u32.within.bind fun _ ↦ pays_u64.within.bind fun _ ↦
      within_rest.bind fun _ ↦ within_pure
  · exact pays_u32.within.bind fun _ ↦ pays_u64.within.bind fun _ ↦
      pays_string.within.bind fun _ ↦ within_pure
  · exact pays_u32.within.bind fun _ ↦ pays_string.within.bind fun _ ↦ within_pure
  · exact within_fail _

theorem within_finish : Metered.Within cost finish := by
  intro bs
  have hleft : (left : Decoder Bytes).result bs = .ok (bs, bs) := rfl
  have hlog : (left : Decoder Bytes).log bs = [] := rfl
  rw [finish, (bind_of_ok hleft).1, (bind_of_ok hleft).2, hlog, List.nil_append]
  split_ifs
  · exact within_pure bs
  · exact within_fail _ bs

theorem within_message {α : Type} {payload : UInt8 → Decoder α}
    (h : ∀ tag, Metered.Within cost (payload tag)) : Metered.Within cost (message payload) :=
  pays_u8.within.bind fun tag ↦ (h tag).bind fun _ ↦ within_finish.bind fun _ ↦ within_pure

/-- What decoding a whole body makes room for is never more than the body. -/
theorem spent_le {α : Type} {payload : UInt8 → Decoder α}
    (h : ∀ tag, Metered.Within cost (payload tag)) (body : Bytes) :
    (((message payload).log body).map cost).sum ≤ body.length := by
  have hbody := within_message h body
  cases hr : (message payload).result body with
  | error e =>
    rw [hr] at hbody
    exact hbody
  | ok r =>
    rw [hr] at hbody
    dsimp only at hbody
    omega

end Decoder

end SuperShuckie.FrameServer
