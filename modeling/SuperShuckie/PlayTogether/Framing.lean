import SuperShuckie.PlayTogether.Codec

/-!
# Reading frames off a socket

A socket delivers its bytes in chunks of any size, with interruptions and timeouts between them.
However it does, the frames that were sent are read one after the other, and nothing is left over
(`readsAll_of_delivers`).  While a frame is read, no more room is made for it than what has arrived
and one chunk more (`readFrame_frugal`).
-/

set_option autoImplicit false

namespace SuperShuckie

open ByteFormat ByteFormat.Metered

namespace PlayTogether

/-- How much of a message body is read from the socket per step. -/
def readChunk : Nat := 64 * 2 ^ 10

variable {S : Type}

/-- What a socket does when it is read. -/
inductive ReadEvent (S : Type)
  /-- Bytes are there; a read that has room for fewer leaves the rest.  No bytes are the end of the
  input. -/
  | data (bytes : Bytes)
  | interrupted
  /-- The read times out, and the caller is asked whether to go on. -/
  | timedOut (stop : Option S)
  | failed

/-- What a socket still does.  Then its input ends. -/
abbrev Source (S : Type) := List (ReadEvent S)

/-- Why reading a frame stopped. -/
inductive ReadError (S : Type)
  /-- The socket failed, or its input ended inside a message. -/
  | io
  /-- The length prefix is unacceptable for the tag. -/
  | decode (error : DecodeError)
  /-- The caller asked to stop. -/
  | stopped (stop : S)

/-- Room that is made for a frame: its length with it, and the bytes that have arrived by then. -/
structure Resize where
  len : Nat
  got : Nat
deriving DecidableEq

/-- Fill a buffer with `need` more bytes.  `none` if the input ended before the first byte of it, and
that is acceptable. -/
def readFully (cleanEofOk : Bool) : Source S → Nat → Bytes →
    Except (ReadError S) (Option Bytes × Source S)
  | source, 0, filled => .ok (some filled, source)
  | [], _ + 1, filled => if filled = [] ∧ cleanEofOk then .ok (none, []) else .error .io
  | .data bytes :: source, need + 1, filled =>
    if bytes = [] then
      if filled = [] ∧ cleanEofOk then .ok (none, source) else .error .io
    else if bytes.length ≤ need + 1 then
      readFully cleanEofOk source (need + 1 - bytes.length) (filled ++ bytes)
    else .ok (some (filled ++ bytes.take (need + 1)), .data (bytes.drop (need + 1)) :: source)
  | .interrupted :: source, need + 1, filled => readFully cleanEofOk source (need + 1) filled
  | .timedOut none :: source, need + 1, filled => readFully cleanEofOk source (need + 1) filled
  | .timedOut (some stop) :: _, _ + 1, _ => .error (.stopped stop)
  | .failed :: _, _ + 1, _ => .error .io

/-- Fill a buffer of `n` bytes inside a message. -/
def readInside (source : Source S) (n : Nat) : Except (ReadError S) (Bytes × Source S) :=
  match readFully false source n [] with
  | .error e => .error e
  | .ok (none, _) => .error .io
  | .ok (some bytes, source) => .ok (bytes, source)

/-- Read the rest of a body, a chunk at a time, onto what there is of the frame. -/
def readBody (source : Source S) (frame : Bytes) (remaining : Nat) :
    Except (ReadError S) (Bytes × Source S) × List Resize :=
  if _h : remaining = 0 then (.ok (frame, source), [])
  else
    let step := min remaining readChunk
    let resize : Resize := ⟨frame.length + step, frame.length⟩
    match readInside source step with
    | .error e => (.error e, [resize])
    | .ok (bytes, source) =>
      let r := readBody source (frame ++ bytes) (remaining - step)
      (r.1, resize :: r.2)
termination_by remaining
decreasing_by
  have : 0 < readChunk := by decide
  omega

/-- Read one framed message: the whole frame, or `none` at a clean end of the input. -/
def readFrame (source : Source S) :
    Except (ReadError S) (Option Bytes × Source S) × List Resize :=
  match readFully true source 4 [] with
  | .error e => (.error e, [⟨4, 0⟩])
  | .ok (none, source) => (.ok (none, source), [⟨4, 0⟩])
  | .ok (some header, source) =>
    let len := UInt32.ofNat (ofLeBytes header)
    if len = 0 then (.error (.decode (.tooLong len)), [⟨4, 0⟩])
    else
      -- tag first: the cap depends on it, and it is checked before the body is allocated
      match readInside source 1 with
      | .error e => (.error e, [⟨4, 0⟩, ⟨5, 4⟩])
      | .ok (tag, source) =>
        if maxLengthOf (tag.headD 0) < len.toNat then
          (.error (.decode (.tooLong len)), [⟨4, 0⟩, ⟨5, 4⟩])
        else
          let r := readBody source (header ++ tag) (len.toNat - 1)
          (r.1.map fun r ↦ (some r.1, r.2), ⟨4, 0⟩ :: ⟨5, 4⟩ :: r.2)

/-- The frames that are read off a source, one after the other, up to a clean end of the input. -/
def ReadsAll : List Bytes → Source S → Prop
  | [], source => ∃ source', (readFrame source).1 = .ok (none, source')
  | frame :: frames, source =>
    ∃ source', (readFrame source).1 = .ok (some frame, source') ∧ ReadsAll frames source'

/-! ## However the bytes arrive -/

/-- The source delivers `bytes`, in any chunks and with any interruptions and timeouts, and ends. -/
inductive Delivers : Source S → Bytes → Prop
  | nil : Delivers [] []
  | data {chunk bytes : Bytes} {source : Source S} (hne : chunk ≠ []) (h : Delivers source bytes) :
      Delivers (.data chunk :: source) (chunk ++ bytes)
  | interrupted {bytes : Bytes} {source : Source S} (h : Delivers source bytes) :
      Delivers (.interrupted :: source) bytes
  | timedOut {bytes : Bytes} {source : Source S} (h : Delivers source bytes) :
      Delivers (.timedOut none :: source) bytes

variable {source : Source S} {bytes filled : Bytes}

/-- A buffer is filled from what is delivered, and the rest is delivered after it. -/
theorem readFully_of_delivers (clean : Bool) (h : Delivers source bytes) {need : Nat}
    (hneed : need ≤ bytes.length) (filled : Bytes) :
    ∃ source', readFully clean source need filled = .ok (some (filled ++ bytes.take need), source') ∧
      Delivers source' (bytes.drop need) := by
  induction h generalizing need filled with
  | nil =>
    obtain rfl : need = 0 := Nat.le_zero.mp hneed
    exact ⟨[], by simp [readFully], .nil⟩
  | @data chunk bytes source hne h ih =>
    cases need with
    | zero => exact ⟨_, by simp [readFully], .data hne h⟩
    | succ need =>
      rw [readFully, if_neg hne]
      split
      · rename_i hle
        rw [List.length_append] at hneed
        have hle' : need + 1 - chunk.length ≤ bytes.length := by omega
        obtain ⟨source', hread, hrest⟩ := ih hle' (filled ++ chunk)
        refine ⟨source', ?_, ?_⟩
        · rw [hread, List.take_append, List.take_of_length_le hle, List.append_assoc]
        · rwa [List.drop_append, List.drop_of_length_le hle, List.nil_append]
      · rename_i hgt
        refine ⟨.data (chunk.drop (need + 1)) :: source, ?_, ?_⟩
        · rw [List.take_append_of_le_length (by omega)]
        · rw [List.drop_append_of_le_length (by omega)]
          exact .data (by rw [Ne, List.drop_eq_nil_iff]; omega) h
  | interrupted h ih =>
    cases need with
    | zero => exact ⟨_, by simp [readFully], .interrupted h⟩
    | succ need => exact ih hneed filled
  | timedOut h ih =>
    cases need with
    | zero => exact ⟨_, by simp [readFully], .timedOut h⟩
    | succ need => exact ih hneed filled

theorem readInside_of_delivers (h : Delivers source bytes) {n : Nat} (hn : n ≤ bytes.length) :
    ∃ source', readInside source n = .ok (bytes.take n, source') ∧
      Delivers source' (bytes.drop n) := by
  obtain ⟨source', hread, hrest⟩ := readFully_of_delivers false h hn []
  exact ⟨source', by rw [readInside, hread, List.nil_append], hrest⟩

theorem readBody_of_delivers (h : Delivers source bytes) {remaining : Nat}
    (hremaining : remaining ≤ bytes.length) (frame : Bytes) :
    ∃ source', (readBody source frame remaining).1 =
        .ok (frame ++ bytes.take remaining, source') ∧
      Delivers source' (bytes.drop remaining) := by
  induction remaining using Nat.strong_induction_on generalizing source bytes frame with
  | _ remaining ih =>
    rw [readBody]
    split
    · rename_i hzero
      rw [hzero]
      exact ⟨source, by simp, by simpa using h⟩
    · rename_i hne
      have hchunk : 0 < readChunk := by decide
      obtain ⟨source₁, hread, hrest⟩ :=
        readInside_of_delivers h (n := min remaining readChunk) (by omega)
      obtain ⟨source₂, hbody, hrest⟩ := ih (remaining - min remaining readChunk) (by omega) hrest
        (by rw [List.length_drop]; omega) (frame ++ bytes.take (min remaining readChunk))
      have hsplit : remaining = min remaining readChunk + (remaining - min remaining readChunk) := by
        omega
      refine ⟨source₂, ?_, ?_⟩
      · dsimp only
        rw [hread]
        dsimp only
        rw [hbody, List.append_assoc, ← List.take_add, ← hsplit]
      · rwa [List.drop_drop, ← hsplit] at hrest

/-- A clean end of the input. -/
theorem readFully_of_delivers_nil (h : Delivers source []) (need : Nat) :
    ∃ source', readFully true source (need + 1) [] = .ok (none, source') := by
  generalize hbytes : ([] : Bytes) = bytes at h
  induction h with
  | nil => exact ⟨[], rfl⟩
  | data hne h ih => exact absurd (List.append_eq_nil_iff.mp hbytes.symm).1 hne
  | interrupted h ih => exact ih hbytes
  | timedOut h ih => exact ih hbytes

theorem maxLengthOf_lt (tag : UInt8) : maxLengthOf tag < 2 ^ 32 := by
  rw [maxLengthOf]
  split <;> decide

/-- The length prefix says how long the body is. -/
theorem ofLeBytes_u32 (n : UInt32) : UInt32.ofNat (ofLeBytes (Encoder.u32 n)) = n := by
  rw [Encoder.u32, ofLeBytes_leBytes (by simpa using n.toNat_lt), UInt32.ofNat_toNat]

/-- The length and the tag of a frame are read first. -/
theorem readHeader_of_delivers {tag : UInt8} {payload rest : Bytes}
    (hlen : (tag :: payload).length < 2 ^ 32)
    (h : Delivers source (frame (tag :: payload) ++ rest)) :
    ∃ len : UInt32, len = UInt32.ofNat (tag :: payload).length ∧ len.toNat = payload.length + 1 ∧
      len ≠ 0 ∧ ∃ source₁ source₂,
        readFully true source 4 [] = .ok (some (Encoder.u32 len), source₁) ∧
        readInside source₁ 1 = .ok ([tag], source₂) ∧ Delivers source₂ (payload ++ rest) := by
  have hlen' : (UInt32.ofNat (tag :: payload).length).toNat = payload.length + 1 := by
    rw [UInt32.toNat_ofNat_of_lt' hlen, List.length_cons]
  rw [frame, List.append_assoc] at h
  have hfour : 4 ≤ (Encoder.u32 (UInt32.ofNat (tag :: payload).length) ++
      (tag :: payload ++ rest)).length := by
    rw [List.length_append, Decoder.length_u32]
    omega
  obtain ⟨source₁, hheader, h₁⟩ := readFully_of_delivers true h hfour []
  rw [List.drop_left' (Decoder.length_u32 _)] at h₁
  rw [List.take_left' (Decoder.length_u32 _), List.nil_append] at hheader
  obtain ⟨source₂, htag, h₂⟩ := readInside_of_delivers h₁ (n := 1) (by simp)
  refine ⟨_, rfl, hlen', fun hzero ↦ ?_, source₁, source₂, hheader, htag, h₂⟩
  rw [hzero] at hlen'
  cases hlen'

/-- **A frame that is delivered is read**, and what follows it is delivered afterwards. -/
theorem readFrame_of_delivers {tag : UInt8} {payload rest : Bytes}
    (hcap : (tag :: payload).length ≤ maxLengthOf tag)
    (h : Delivers source (frame (tag :: payload) ++ rest)) :
    ∃ source', (readFrame source).1 = .ok (some (frame (tag :: payload)), source') ∧
      Delivers source' rest := by
  obtain ⟨len, rfl, hlen, hzero, source₁, source₂, hheader, htag, h₂⟩ :=
    readHeader_of_delivers (Nat.lt_of_le_of_lt hcap (maxLengthOf_lt tag)) h
  obtain ⟨source₃, hbody, h₃⟩ := readBody_of_delivers h₂
    (List.length_append ▸ Nat.le_add_right payload.length _)
    (Encoder.u32 (UInt32.ofNat (tag :: payload).length) ++ [tag])
  refine ⟨source₃, ?_, by simpa using h₃⟩
  rw [readFrame, hheader]
  dsimp only
  rw [ofLeBytes_u32, if_neg hzero, htag]
  dsimp only
  have hfits : ¬ maxLengthOf tag < payload.length + 1 := Nat.not_lt.mpr hcap
  rw [List.headD_cons, hlen, if_neg hfits, Nat.add_sub_cancel, hbody]
  simp [frame, Except.map]

/-- **A frame that is too long for its kind is refused** once its tag has been read. -/
theorem readFrame_of_tooLong {tag : UInt8} {payload rest : Bytes}
    (hcap : maxLengthOf tag < (tag :: payload).length) (hlen : (tag :: payload).length < 2 ^ 32)
    (h : Delivers source (frame (tag :: payload) ++ rest)) :
    (readFrame source).1 = .error (.decode (.tooLong (UInt32.ofNat (tag :: payload).length))) := by
  obtain ⟨len, rfl, hlen', hzero, source₁, source₂, hheader, htag, -⟩ :=
    readHeader_of_delivers hlen h
  have hlong : maxLengthOf tag < (UInt32.ofNat (tag :: payload).length).toNat := by
    rw [hlen']
    exact hcap
  rw [readFrame, hheader]
  dsimp only
  rw [ofLeBytes_u32, if_neg hzero, htag]
  dsimp only
  rw [List.headD_cons, if_pos hlong]

/-- **The frames that are delivered are read in order, and nothing is left over.** -/
theorem readsAll_of_delivers {bodies : List (UInt8 × Bytes)}
    (hcap : ∀ body ∈ bodies, (body.1 :: body.2).length ≤ maxLengthOf body.1)
    (h : Delivers source (bodies.flatMap fun body ↦ frame (body.1 :: body.2))) :
    ReadsAll (bodies.map fun body ↦ frame (body.1 :: body.2)) source := by
  induction bodies generalizing source with
  | nil =>
    obtain ⟨source', hread⟩ := readFully_of_delivers_nil h 3
    exact ⟨source', by rw [readFrame, hread]⟩
  | cons body bodies ih =>
    obtain ⟨source', hread, hrest⟩ := readFrame_of_delivers (hcap body List.mem_cons_self) h
    exact ⟨source', hread, ih (fun b hb ↦ hcap b (List.mem_cons_of_mem body hb)) hrest⟩

/-! ## Whatever arrives -/

variable {source' : Source S}

theorem length_readFully {clean : Bool} {need : Nat} {b : Bytes}
    (h : readFully clean source need filled = .ok (some b, source')) :
    b.length = filled.length + need := by
  fun_induction readFully clean source need filled with
  | case1 source filled =>
    cases h
    rfl
  | case2 => cases h
  | case3 => cases h
  | case4 => cases h
  | case5 => cases h
  | case6 filled bytes source need hne hle ih =>
    rw [ih h, List.length_append]
    omega
  | case7 filled bytes source need hne hgt =>
    cases h
    rw [List.length_append, List.length_take]
    omega
  | case8 _ _ _ ih => exact ih h
  | case9 _ _ _ ih => exact ih h
  | case10 => cases h
  | case11 => cases h

theorem length_readInside {n : Nat} {b : Bytes} (h : readInside source n = .ok (b, source')) :
    b.length = n := by
  rw [readInside] at h
  split at h
  · cases h
  · cases h
  · rename_i bytes source₁ hread
    cases h
    rw [length_readFully hread, List.length_nil, Nat.zero_add]

/-- What is read of a body is as long as it has to be. -/
theorem readBody_eq_ok {start b : Bytes} {remaining : Nat}
    (h : (readBody source start remaining).1 = .ok (b, source')) :
    ∃ rest, b = start ++ rest ∧ rest.length = remaining := by
  induction remaining using Nat.strong_induction_on generalizing source start with
  | _ remaining ih =>
    rw [readBody] at h
    split at h
    · rename_i hzero
      cases h
      exact ⟨[], (List.append_nil b).symm, hzero.symm⟩
    · rename_i hne
      have hchunk : 0 < readChunk := by decide
      dsimp only at h
      split at h
      · cases h
      · rename_i bytes source₁ hread
        obtain ⟨rest, rfl, hrest⟩ := ih _ (by omega) h
        refine ⟨bytes ++ rest, List.append_assoc .., ?_⟩
        rw [List.length_append, length_readInside hread, hrest]
        omega

/-- **A frame that is read** is a length and a body of that length, within the cap of its tag. -/
theorem readFrame_eq_some {f : Bytes} (h : (readFrame source).1 = .ok (some f, source')) :
    ∃ tag payload, f = frame (tag :: payload) ∧ (tag :: payload).length ≤ maxLengthOf tag := by
  rw [readFrame] at h
  split at h
  · cases h
  · cases h
  · rename_i header source₁ hheader
    have hheader : header.length = 4 := length_readFully hheader
    dsimp only at h
    generalize hlen : UInt32.ofNat (ofLeBytes header) = len at h
    by_cases hzero : len = 0
    · rw [if_pos hzero] at h
      cases h
    · rw [if_neg hzero] at h
      cases hread : readInside source₁ 1 with
      | error e =>
        rw [hread] at h
        cases h
      | ok r =>
        obtain ⟨tagBytes, source₂⟩ := r
        obtain ⟨tag, rfl⟩ := List.length_eq_one_iff.mp (length_readInside hread)
        rw [hread] at h
        dsimp only at h
        rw [List.headD_cons] at h
        by_cases hcap : maxLengthOf tag < len.toNat
        · rw [if_pos hcap] at h
          cases h
        · rw [if_neg hcap] at h
          cases hbody : (readBody source₂ (header ++ [tag]) (len.toNat - 1)).1 with
          | error e =>
            dsimp only at h
            rw [hbody] at h
            cases h
          | ok r =>
            dsimp only at h
            rw [hbody] at h
            cases h
            obtain ⟨payload, hr, hpayload⟩ := readBody_eq_ok hbody
            have hpos : 0 < len.toNat := by
              rw [Nat.pos_iff_ne_zero]
              exact fun hz ↦ hzero (UInt32.toNat_inj.mp hz)
            have hlength : (tag :: payload).length = len.toNat := by
              rw [List.length_cons]
              omega
            refine ⟨tag, payload, ?_, by omega⟩
            have hbefore : Encoder.u32 len = header := by
              rw [← hlen, Encoder.u32, UInt32.toNat_ofNat_of_lt', ← hheader, leBytes_ofLeBytes]
              have := ofLeBytes_lt header
              rw [hheader] at this
              simpa using this
            rw [hr, frame, hlength, UInt32.ofNat_toNat, hbefore, List.append_assoc,
              List.singleton_append]

theorem readBody_frugal {start : Bytes} {remaining : Nat} :
    ∀ resize ∈ (readBody source start remaining).2, resize.len ≤ resize.got + readChunk ∧
      resize.len ≤ start.length + remaining := by
  induction remaining using Nat.strong_induction_on generalizing source start with
  | _ remaining ih =>
    intro resize hmem
    rw [readBody] at hmem
    split at hmem
    · cases hmem
    · have hchunk : 0 < readChunk := by decide
      have hfirst : start.length + min remaining readChunk ≤ start.length + readChunk ∧
          start.length + min remaining readChunk ≤ start.length + remaining := by omega
      dsimp only at hmem
      split at hmem
      · obtain rfl := List.mem_singleton.mp hmem
        exact hfirst
      · rename_i bytes source₁ hread
        rcases List.mem_cons.mp hmem with rfl | hmem
        · exact hfirst
        · obtain ⟨hgot, hlen⟩ := ih _ (by omega) resize hmem
          rw [List.length_append, length_readInside hread] at hlen
          exact ⟨hgot, by omega⟩

theorem maxLengthOf_le (tag : UInt8) : maxLengthOf tag ≤ maxMessageLength := by
  rw [maxLengthOf]
  split <;> decide

/-- **Room is made for what has arrived and one chunk more**, and for no more than the cap of the tag
allows. -/
theorem readFrame_frugal (source : Source S) :
    ∀ resize ∈ (readFrame source).2, resize.len ≤ resize.got + readChunk ∧
      resize.len ≤ maxMessageLength + 4 := by
  have hstart : ∀ resize ∈ [(⟨4, 0⟩ : Resize), ⟨5, 4⟩], resize.len ≤ resize.got + readChunk ∧
      resize.len ≤ maxMessageLength + 4 := by decide
  have hfirst : ∀ resize ∈ [(⟨4, 0⟩ : Resize)], resize.len ≤ resize.got + readChunk ∧
      resize.len ≤ maxMessageLength + 4 := by decide
  intro resize hmem
  rw [readFrame] at hmem
  cases hheader : readFully true source 4 [] with
  | error e =>
    rw [hheader] at hmem
    exact hfirst resize hmem
  | ok r =>
    obtain ⟨header, source₁⟩ := r
    rw [hheader] at hmem
    cases header with
    | none => exact hfirst resize hmem
    | some header =>
      dsimp only at hmem
      split at hmem
      · exact hfirst resize hmem
      · cases hread : readInside source₁ 1 with
        | error e =>
          rw [hread] at hmem
          exact hstart resize hmem
        | ok r =>
          obtain ⟨tag, source₂⟩ := r
          rw [hread] at hmem
          dsimp only at hmem
          split at hmem
          · exact hstart resize hmem
          · rename_i hcap
            have hmem : resize ∈ [(⟨4, 0⟩ : Resize), ⟨5, 4⟩] ++ _ := hmem
            rcases List.mem_append.mp hmem with hmem | hmem
            · exact hstart resize hmem
            · obtain ⟨hgot, hlen⟩ := readBody_frugal resize hmem
              have htag := length_readInside hread
              have hheader' : header.length = 4 := length_readFully hheader
              have hmax := maxLengthOf_le (tag.headD 0)
              have hpos : 1 ≤ maxMessageLength := by decide
              rw [List.length_append, htag, hheader'] at hlen
              exact ⟨hgot, by omega⟩

end PlayTogether

end SuperShuckie
