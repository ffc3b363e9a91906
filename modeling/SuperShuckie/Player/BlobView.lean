import SuperShuckie.Player.Blob

/-!
# What a blob shows

How far a blob is decoded is a matter of which of its packets were needed so far.  It makes no
difference to what is read from it: every operation on a blob computes a value that depends only on
the blob's `BlobView`, the bytes the library delivers for it in the end (`Act.Computes`).
-/

set_option autoImplicit false

namespace SuperShuckie

open ByteFormat ByteFormat.Reader

/-- A blob as it is in the file: the size it claims, all the bytes that can be decoded of it, and its
usable offset table. -/
structure BlobView where
  size : Nat
  content : Bytes
  table : Option (List Nat)

namespace BlobView

/-- The table of keyframe offsets in use: the blob's own, or the one a scan gives. -/
def usedTable (version : Nat) (v : BlobView) : Option (List Nat) :=
  match v.table with
  | some table => some table
  | none =>
    if v.content.length = v.size then
      (DecodedBlob.scanOffsets version v.size v.content).toOption
    else none

/-- The keyframe offsets of a blob that starts with a full keyframe. -/
def offsets (version : Nat) (v : BlobView) : Option (List Nat) :=
  match v.usedTable version with
  | none => none
  | some table =>
    if table.head? = some 0 ∧ v.content.head? = some PacketDiscriminator.keyframe.toByte then
      some table
    else none

/-- The packet at a byte offset, and the offset of the one after it. -/
def parseAt (version offset : Nat) (v : BlobView) : Option (Packet × Nat) :=
  if v.size ≤ offset ∨ v.content.length ≤ offset then none
  else
    match Packet.readAll version (v.content.drop offset) with
    | .ok (packet, rest) => some (packet, v.content.length - rest.length)
    | .error _ => none

/-- Whether there is a full keyframe at a byte offset. -/
def isFullKeyframeAt (offset : Nat) (v : BlobView) : Option Bool :=
  if v.content.length < min (offset + 1) v.size then none
  else some (decide (v.content[offset]? = some PacketDiscriminator.keyframe.toByte))

end BlobView

namespace DecodedBlob

/-- What is decoded so far, and by which decoder, of a frame that delivers `content`. -/
def Decodes (size : Nat) (content : Bytes) (decoder : Option Zstd.BlobDecoder) (raw : Bytes) :
    Prop :=
  match decoder with
  | none => raw = content ∧ content.length = size
  | some steps => raw ++ delivered steps = content ∧ raw.length ≤ size ∧
      FrameSteps (size - raw.length) steps

/-- What is decoded of a blob is the front of what its view holds, and the decoder delivers the
rest. -/
structure Shows (version : Nat) (v : BlobView) (d : DecodedBlob) : Prop where
  size : d.size = v.size
  content : Decodes v.size v.content d.decoder d.raw
  table : d.keyframeOffsets = v.table ∨ d.keyframeOffsets = v.usedTable version

variable {version : Nat} {v : BlobView}

variable {d : DecodedBlob} {steps : List DecodeStep} {upto size : Nat} {raw : Bytes}

/-- The view of a blob never holds more bytes than it claims. -/
theorem Shows.length_content_le (h : d.Shows version v) : v.content.length ≤ v.size := by
  have hc := h.content
  cases hd : d.decoder with
  | none =>
    rw [hd] at hc
    exact hc.2.le
  | some steps =>
    rw [hd] at hc
    obtain ⟨heq, hle, hsteps⟩ := hc
    have := hsteps.length_delivered_le
    rw [← heq, List.length_append]
    omega

/-- What is decoded is the front of the content. -/
theorem Shows.raw_append (h : d.Shows version v) :
    ∃ rest, v.content = d.raw ++ rest := by
  have hc := h.content
  cases hd : d.decoder with
  | none =>
    rw [hd] at hc
    exact ⟨[], by rw [hc.1, List.append_nil]⟩
  | some steps =>
    rw [hd] at hc
    exact ⟨_, hc.1.symm⟩

/-! ## Decoding on -/

theorem decodeSteps_of_le (h : upto ≤ raw.length) :
    decodeSteps size upto steps raw = .ok () (some steps, raw) := by
  rw [decodeSteps.eq_def]
  exact if_pos h

theorem decodeSteps_last {chunk : Bytes} (h : raw.length < upto)
    (hsize : (raw ++ chunk).length = size) :
    decodeSteps size upto (.ok (chunk, true) :: steps) raw = .ok () (none, raw ++ chunk) := by
  rw [decodeSteps.eq_def]
  simp only [if_neg (Nat.not_le.mpr h), hsize, ne_eq, not_true_eq_false, if_false]

theorem decodeSteps_more {chunk : Bytes} (h : raw.length < upto) :
    decodeSteps size upto (.ok (chunk, false) :: steps) raw =
      decodeSteps size upto steps (raw ++ chunk) := by
  rw [decodeSteps.eq_def]
  exact if_neg (Nat.not_le.mpr h)

/-- A decoder that is at its end, or fails, delivers no more. -/
theorem decodeSteps_stuck (h : raw.length < upto) (hsteps : ∀ out rest, steps ≠ .ok out :: rest) :
    ∃ e, decodeSteps size upto steps raw = .error e (some steps, raw) := by
  rw [decodeSteps.eq_def]
  simp only [if_neg (Nat.not_le.mpr h)]
  match steps with
  | [] => exact ⟨_, rfl⟩
  | .error e :: _ => exact ⟨_, rfl⟩
  | .ok out :: rest => exact (hsteps out rest rfl).elim

/-- Stepping a decoder fails just when there are not enough bytes. -/
theorem decodeSteps_spec (hupto : upto ≤ size) {content : Bytes}
    (h : Decodes size content (some steps) raw) :
    ∃ decoder raw', Decodes size content decoder raw' ∧
      if upto ≤ content.length then
        decodeSteps size upto steps raw = .ok () (decoder, raw') ∧ upto ≤ raw'.length
      else ∃ e, decodeSteps size upto steps raw = .error e (decoder, raw') := by
  have hstuck : ∀ steps raw, Decodes size content (some steps) raw → raw.length < upto →
      (∀ out rest, steps ≠ .ok out :: rest) → delivered steps = [] →
      ∃ decoder raw', Decodes size content decoder raw' ∧
        if upto ≤ content.length then
          decodeSteps size upto steps raw = .ok () (decoder, raw') ∧ upto ≤ raw'.length
        else ∃ e, decodeSteps size upto steps raw = .error e (decoder, raw') := by
    intro steps raw h hlt hsteps hdone
    have hcontent : raw = content := by rw [← h.1, hdone, List.append_nil]
    refine ⟨some steps, raw, h, ?_⟩
    rw [if_neg (by rw [← hcontent]; omega)]
    exact decodeSteps_stuck hlt hsteps
  induction steps generalizing raw with
  | nil =>
    by_cases hle : upto ≤ raw.length
    · refine ⟨some [], raw, h, ?_⟩
      rw [if_pos (by rw [← h.1, List.length_append]; omega)]
      exact ⟨decodeSteps_of_le hle, hle⟩
    · exact hstuck [] raw h (by omega) (by simp) rfl
  | cons step steps ih =>
    by_cases hle : upto ≤ raw.length
    · refine ⟨some (step :: steps), raw, h, ?_⟩
      rw [if_pos (by rw [← h.1, List.length_append]; omega)]
      exact ⟨decodeSteps_of_le hle, hle⟩
    · have hlt : raw.length < upto := by omega
      obtain ⟨heq, hraw, hsteps⟩ := h
      match step with
      | .error e => exact hstuck _ raw ⟨heq, hraw, hsteps⟩ hlt (by simp) rfl
      | .ok (chunk, true) =>
        have hchunk : chunk.length = size - raw.length := hsteps
        have hlen : (raw ++ chunk).length = size := by rw [List.length_append]; omega
        rw [delivered_last] at heq
        refine ⟨none, raw ++ chunk, ⟨heq, by rw [← heq, hlen]⟩, ?_⟩
        rw [if_pos (by rw [← heq, hlen]; exact hupto), hlen]
        exact ⟨decodeSteps_last hlt hlen, hupto⟩
      | .ok (chunk, false) =>
        obtain ⟨hchunk, hrest⟩ :
          chunk.length ≤ size - raw.length ∧
            FrameSteps (size - raw.length - chunk.length) steps := hsteps
        rw [delivered_more, ← List.append_assoc] at heq
        have hnext : Decodes size content (some steps) (raw ++ chunk) := by
          refine ⟨heq, by rw [List.length_append]; omega, ?_⟩
          rwa [List.length_append, ← Nat.sub_sub]
        obtain ⟨decoder, raw', hdec, hres⟩ := ih hnext
        exact ⟨decoder, raw', hdec, by rwa [decodeSteps_more hlt]⟩

/-- Decoding up to some point makes that much available, or fails just when there is less. -/
theorem ensureDecoded_spec (hd : d.Shows version v) (upto : Nat) :
    if min upto v.size ≤ v.content.length then
      ∃ d', ensureDecoded upto d = .ok () d' ∧ d'.Shows version v ∧
        min upto v.size ≤ d'.raw.length ∧ d'.keyframeOffsets = d.keyframeOffsets
    else ∃ e d', ensureDecoded upto d = .error e d' ∧ d'.Shows version v := by
  obtain ⟨raw, size, decoder, table⟩ := d
  obtain ⟨hsize, hc, htable⟩ := hd
  subst hsize
  cases decoder with
  | none =>
    have hraw : raw = v.content := hc.1
    have hlen : v.content.length = v.size := hc.2
    have hmin : min upto v.size ≤ raw.length := by rw [hraw]; omega
    rw [if_pos (by rw [← hraw]; exact hmin)]
    refine ⟨⟨raw, v.size, none, table⟩, ?_, ⟨rfl, hc, htable⟩, hmin, rfl⟩
    simp only [ensureDecoded]
    rw [if_pos hmin]
  | some steps =>
    obtain ⟨decoder, raw', hdec, hres⟩ := decodeSteps_spec (Nat.min_le_right _ _) hc
    have hshows : Shows version v ⟨raw', v.size, decoder, table⟩ := ⟨rfl, hdec, htable⟩
    split
    · rename_i henough
      rw [if_pos henough] at hres
      refine ⟨_, ?_, hshows, hres.2, rfl⟩
      simp only [ensureDecoded, hres.1]
    · rename_i henough
      rw [if_neg henough] at hres
      obtain ⟨e, he⟩ := hres
      refine ⟨e, _, ?_, hshows⟩
      simp only [ensureDecoded, he]

/-- Nothing is decoded when enough is there. -/
theorem ensureDecoded_of_le (h : min upto d.size ≤ d.raw.length) :
    ensureDecoded upto d = .ok () d := by
  obtain ⟨raw, size, decoder, table⟩ := d
  cases decoder with
  | none => exact if_pos h
  | some steps =>
    simp only [ensureDecoded]
    rw [decodeSteps_of_le h]

/-! ## What is read -/

/-- Parsing a packet that is there in full, or cut short, and decoding on in the second case. -/
theorem parseAtGo_spec {offset fuel : Nat} (hd : d.Shows version v)
    (hoffset : offset < d.raw.length) (hfuel : v.size - d.raw.length < fuel) :
    Act.Gives (Shows version v) (v.parseAt version offset)
      (parseAtGo version offset fuel d) := by
  induction fuel generalizing d with
  | zero => omega
  | succ fuel ih =>
    obtain ⟨more, hmore⟩ := hd.raw_append
    have hle := hd.length_content_le
    have hlen : v.content.length = d.raw.length + more.length := by
      rw [hmore, List.length_append]
    have hdrop : v.content.drop offset = d.raw.drop offset ++ more := by
      rw [hmore, List.drop_append_of_le_length hoffset.le]
    have hview : v.parseAt version offset =
        match Packet.readAll version (d.raw.drop offset ++ more) with
        | .ok (packet, rest) => some (packet, v.content.length - rest.length)
        | .error _ => none := by
      rw [BlobView.parseAt, if_neg (by omega), hdrop]
    have hstart : ensureDecoded (offset + 1) d = .ok () d :=
      ensureDecoded_of_le (by rw [hd.size]; omega)
    rw [parseAtGo, Act.bind_apply, hstart]
    simp only [Act.get_bind_apply]
    cases hread : Packet.readAll version (d.raw.drop offset) with
    | ok r =>
      obtain ⟨packet, rest⟩ := r
      have hfull := (Packet.stable version).append hread more
      rw [hfull] at hview
      rw [hview]
      refine ⟨d, ?_, hd⟩
      simp only [Act.pure_apply, List.length_append]
      rw [hlen, Nat.add_sub_add_right]
    | error e =>
      by_cases hall : more = []
      · rw [hall, List.append_nil, hread] at hview
        rw [hview]
        by_cases hcomplete : d.isComplete
        · simp only [hcomplete, if_true]
          exact ⟨_, d, rfl, hd⟩
        · simp only [hcomplete, Bool.false_eq_true, if_false]
          have hstep := ensureDecoded_spec hd (d.raw.length + 1)
          simp only [isComplete, hd.size, decide_eq_true_eq, not_le] at hcomplete
          rw [if_neg (by rw [hlen, hall, List.length_nil]; omega)] at hstep
          obtain ⟨e', d', herr, hd'⟩ := hstep
          refine ⟨e', d', ?_, hd'⟩
          rw [Act.bind_apply, herr]
      · have hpos : 0 < more.length := List.length_pos_iff.mpr hall
        have hcomplete : d.isComplete = false := by
          simp only [isComplete, hd.size, decide_eq_false_iff_not, not_le]
          omega
        simp only [hcomplete, Bool.false_eq_true, if_false]
        have hstep := ensureDecoded_spec hd (d.raw.length + 1)
        rw [if_pos (by omega)] at hstep
        obtain ⟨d', hok, hd', hraw, -⟩ := hstep
        have hih := ih hd' (by omega) (by omega)
        simpa only [Act.bind_apply, hok] using hih

theorem computes_parseAt (version offset : Nat) (v : BlobView) :
    Act.Computes (Shows version v) (parseAt version offset) (v.parseAt version offset) := by
  intro d hd
  rw [parseAt, Act.get_bind_apply, hd.size]
  by_cases hsize : v.size ≤ offset
  · rw [if_pos hsize, BlobView.parseAt, if_pos (.inl hsize)]
    exact ⟨_, d, rfl, hd⟩
  · rw [if_neg hsize]
    have hfirst := ensureDecoded_spec hd (offset + 1)
    split at hfirst
    · obtain ⟨d', hok, hd', hraw, -⟩ := hfirst
      have hsame : parseAtGo version offset (v.size + 1) d =
          parseAtGo version offset (v.size + 1) d' := by
        have hagain : ensureDecoded (offset + 1) d' = .ok () d' :=
          ensureDecoded_of_le (by rw [hd'.size]; exact hraw)
        rw [parseAtGo, Act.bind_apply, hok, Act.bind_apply, hagain]
      rw [hsame]
      exact parseAtGo_spec hd' (by omega) (by omega)
    · rename_i hshort
      obtain ⟨e, d', herr, hd'⟩ := hfirst
      rw [BlobView.parseAt, if_pos (.inr (by omega))]
      exact ⟨e, d', by rw [parseAtGo, Act.bind_apply, herr], hd'⟩

theorem computes_isFullKeyframeAt (version offset : Nat) (v : BlobView) :
    Act.Computes (Shows version v) (isFullKeyframeAt offset) (v.isFullKeyframeAt offset) := by
  intro d hd
  have hstep := ensureDecoded_spec hd (offset + 1)
  split at hstep
  · obtain ⟨d', hok, hd', hraw, -⟩ := hstep
    obtain ⟨more, hmore⟩ := hd'.raw_append
    have hle := hd'.length_content_le
    rw [BlobView.isFullKeyframeAt, if_neg (by omega)]
    refine ⟨d', ?_, hd'⟩
    have hbyte : d'.raw[offset]? = v.content[offset]? := by
      rw [hmore, List.length_append] at hle
      rw [hmore]
      by_cases hlt : offset < d'.raw.length
      · rw [List.getElem?_append_left hlt]
      · rw [List.getElem?_eq_none (by omega), List.getElem?_eq_none]
        rw [List.length_append]
        omega
    rw [isFullKeyframeAt, Act.bind_apply, hok]
    simp only [Act.get_bind_apply, Act.pure_apply, hbyte]
  · rename_i hshort
    obtain ⟨e, d', herr, hd'⟩ := hstep
    rw [BlobView.isFullKeyframeAt, if_pos (by omega)]
    exact ⟨e, d', by rw [isFullKeyframeAt, Act.bind_apply, herr], hd'⟩

/-! ## The offset table -/

theorem usedTable_of_table {table : List Nat} (h : v.table = some table) :
    v.usedTable version = some table := by
  rw [BlobView.usedTable, h]

/-- A blob with a table uses it; one without has none of its own. -/
theorem Shows.usedTable_of_some (h : d.Shows version v) {table : List Nat}
    (ht : d.keyframeOffsets = some table) : v.usedTable version = some table := by
  rcases h.table with h | h
  · exact usedTable_of_table (h ▸ ht)
  · exact h ▸ ht

theorem Shows.table_of_none (h : d.Shows version v) (ht : d.keyframeOffsets = none) :
    v.table = none := by
  cases hv : v.table with
  | none => rfl
  | some table =>
    rcases h.table with h | h
    · rw [hv, ht] at h
      cases h
    · rw [usedTable_of_table hv, ht] at h
      cases h

/-- After the scan there is a table, or the scan failed for good. -/
theorem scanTable_spec (hd : d.Shows version v) :
    match v.usedTable version with
    | some table => ∃ d', scanTable version d = .ok () d' ∧ d'.Shows version v ∧
        d'.keyframeOffsets = some table
    | none => ∃ e d', scanTable version d = .error e d' ∧ d'.Shows version v := by
  rw [scanTable, Act.get_bind_apply]
  cases ht : d.keyframeOffsets with
  | some table =>
    rw [hd.usedTable_of_some ht]
    exact ⟨d, rfl, hd, ht⟩
  | none =>
    have hnone := hd.table_of_none ht
    have hfull := ensureDecoded_spec hd v.size
    simp only [Option.isSome_none, Bool.false_eq_true, if_false, BlobView.usedTable, hnone]
    by_cases hlen : v.content.length = v.size
    · simp only [hlen, if_true]
      rw [if_pos (by omega)] at hfull
      obtain ⟨d', hok, hd', hraw, -⟩ := hfull
      have hall : d'.raw = v.content := by
        obtain ⟨more, hmore⟩ := hd'.raw_append
        have hnil : more = [] := by
          have := congrArg List.length hmore
          rw [List.length_append] at this
          exact List.length_eq_zero_iff.mp (by omega)
        rw [hmore, hnil, List.append_nil]
      have hcomplete : ensureComplete d = .ok () d' := by
        rw [ensureComplete, Act.get_bind_apply, hd.size, hok]
      rw [Act.bind_apply, hcomplete]
      simp only [Act.get_bind_apply, hall, hd'.size]
      cases hscan : scanOffsets version v.size v.content with
      | error e => exact ⟨e, d', rfl, hd'⟩
      | ok scanned =>
        refine ⟨{ d' with keyframeOffsets := some scanned }, rfl, ⟨hd'.size, hd'.content, ?_⟩, rfl⟩
        right
        rw [BlobView.usedTable, hnone]
        simp only [hlen, if_true, hscan]
        rfl
    · have hle := hd.length_content_le
      simp only [hlen, if_false]
      rw [if_neg (by omega)] at hfull
      obtain ⟨e, d', herr, hd'⟩ := hfull
      refine ⟨e, d', ?_, hd'⟩
      rw [Act.bind_apply, ensureComplete, Act.get_bind_apply, hd.size, herr]

theorem computes_offsets (version : Nat) (v : BlobView) :
    Act.Computes (Shows version v) (DecodedBlob.offsets version) (v.offsets version) := by
  intro d hd
  have hscan := scanTable_spec hd
  rw [BlobView.offsets, DecodedBlob.offsets]
  cases hused : v.usedTable version with
  | none =>
    rw [hused] at hscan
    obtain ⟨e, d', herr, hd'⟩ := hscan
    exact ⟨e, d', by rw [Act.bind_apply, herr], hd'⟩
  | some table =>
    rw [hused] at hscan
    obtain ⟨d₁, hok₁, hd₁, ht₁⟩ := hscan
    rw [Act.bind_apply, hok₁]
    have hone := ensureDecoded_spec hd₁ 1
    split at hone
    · obtain ⟨d₂, hok₂, hd₂, hraw, ht₂⟩ := hone
      have hhead : d₂.raw.head? = v.content.head? := by
        obtain ⟨more, hmore⟩ := hd₂.raw_append
        have hle := hd₂.length_content_le
        rw [hmore, List.length_append] at hle
        cases hr : d₂.raw with
        | nil =>
          rw [hr, List.length_nil] at hraw hle
          have hnil : more = [] := List.length_eq_zero_iff.mp (by omega)
          rw [hmore, hr, hnil]
          rfl
        | cons b bs => rw [hmore, hr]; rfl
      simp only [Act.bind_apply (ensureDecoded 1), hok₂, Act.get_bind_apply, ht₂.trans ht₁, hhead]
      by_cases hfirst : table.head? = some 0 ∧
          v.content.head? = some PacketDiscriminator.keyframe.toByte
      · rw [if_pos hfirst, if_neg (by simp [hfirst.1, hfirst.2])]
        exact ⟨d₂, rfl, hd₂⟩
      · rw [if_neg hfirst, if_pos (by tauto)]
        exact ⟨_, d₂, rfl, hd₂⟩
    · rename_i hshort
      obtain ⟨e, d₂, herr, hd₂⟩ := hone
      have hempty : v.content = [] := List.length_eq_zero_iff.mp (by omega)
      simp only [hempty, List.head?_nil, reduceCtorEq, and_false, if_false]
      exact ⟨e, d₂, by rw [Act.bind_apply, herr], hd₂⟩

/-! ## Partial decoding -/

/-- A blob of which nothing is decoded yet, with a decoder that goes through the given steps. -/
def undecoded (steps : List DecodeStep) (size : Nat) (table : Option (List Nat)) : DecodedBlob :=
  ⟨[], size, some steps, table⟩

theorem shows_undecoded {content : Bytes} (h : StepsDecode steps content)
    (table : Option (List Nat)) :
    (undecoded steps content.length table).Shows version ⟨content.length, content, table⟩ :=
  ⟨rfl, ⟨h.delivered_eq, Nat.zero_le _, h.frameSteps⟩, Or.inl rfl⟩

/-- Parse at one offset after the other, whatever comes of each: the blob after that, `none` after a
panic. -/
def parseEach (version : Nat) : List Nat → DecodedBlob → Option DecodedBlob
  | [], d => some d
  | offset :: offsets, d =>
    match parseAt version offset d with
    | .ok _ d' | .error _ d' => parseEach version offsets d'
    | .abort => none

theorem parseEach_shows (hd : d.Shows version v) (offsets : List Nat) :
    ∃ d', parseEach version offsets d = some d' ∧ d'.Shows version v := by
  induction offsets generalizing d with
  | nil => exact ⟨d, rfl, hd⟩
  | cons offset offsets ih =>
    have hparse := computes_parseAt version offset v d hd
    rw [parseEach]
    cases hview : v.parseAt version offset with
    | none =>
      rw [hview] at hparse
      obtain ⟨e, d', herror, hd'⟩ := hparse
      rw [herror]
      exact ih hd'
    | some r =>
      rw [hview] at hparse
      obtain ⟨d', hok, hd'⟩ := hparse
      rw [hok]
      exact ih hd'

/-- In a blob that is decoded in full, parsing at an offset is reading what stands there. -/
theorem parseAt_view (p : Bytes) (table : Option (List Nat)) (offset : Nat) :
    BlobView.parseAt version offset ⟨p.length, p, table⟩ =
      match Packet.readAll version (p.drop offset) with
      | .ok (packet, rest) => some (packet, p.length - rest.length)
      | .error _ => none := by
  rw [BlobView.parseAt]
  by_cases hoffset : p.length ≤ offset
  · rw [if_pos (Or.inl hoffset), List.drop_of_length_le hoffset]
    rfl
  · rw [if_neg fun h ↦ h.elim hoffset hoffset]

/-- **Partial decoding of a blob is invisible.**  What is read of the front of a byte string is read in
the same way whatever follows it.  And whatever pieces a decoder delivers packets in, and wherever they
were parsed before: parsing at an offset does not panic, and comes to what reading the packets does when
all of them are there, which at the place of each packet is that packet. -/
theorem partial_decoding_invisible (version : Nat) :
    (∀ bs packet rest, Packet.readAll version bs = .ok (packet, rest) →
      ∀ more, Packet.readAll version (bs ++ more) = .ok (packet, rest ++ more)) ∧
    ∀ (p : Bytes) (steps : List DecodeStep) (table : Option (List Nat)), StepsDecode steps p →
      ∀ offsets, ∃ d, parseEach version offsets (undecoded steps p.length table) = some d ∧
        (∀ offset, match Packet.readAll version (p.drop offset) with
          | .ok (packet, rest) =>
            ∃ d', parseAt version offset d = .ok (packet, p.length - rest.length) d'
          | .error _ => ∃ e d', parseAt version offset d = .error e d') ∧
        ∀ q ∈ (readStream version p).1, ∃ d',
          parseAt version (p.length - q.before) d = .ok (q.packet, p.length - q.after) d' := by
  refine ⟨fun bs packet rest h more ↦ (Packet.stable version).append h more, ?_⟩
  intro p steps table hsteps offsets
  have hundecoded : (undecoded steps p.length table).Shows version ⟨p.length, p, table⟩ :=
    shows_undecoded hsteps table
  obtain ⟨d, hparsed, hd⟩ := parseEach_shows hundecoded offsets
  have hat : ∀ offset, match Packet.readAll version (p.drop offset) with
      | .ok (packet, rest) => ∃ d', parseAt version offset d = .ok (packet, p.length - rest.length) d'
      | .error _ => ∃ e d', parseAt version offset d = .error e d' := by
    intro offset
    have hparse := computes_parseAt version offset _ d hd
    rw [parseAt_view] at hparse
    cases hread : Packet.readAll version (p.drop offset) with
    | ok r =>
      rw [hread] at hparse
      obtain ⟨d', hok, -⟩ := hparse
      exact ⟨d', hok⟩
    | error e =>
      rw [hread] at hparse
      obtain ⟨e', d', herror, -⟩ := hparse
      exact ⟨e', d', herror⟩
  refine ⟨d, hparsed, hat, fun q hq ↦ ?_⟩
  obtain ⟨hafter, hbefore, hread⟩ := readAll_of_mem_readStream hq
  have hplace := hat (p.length - q.before)
  rw [hread] at hplace
  obtain ⟨d', hok⟩ := hplace
  rw [List.length_drop, Nat.sub_sub_self (by omega)] at hok
  exact ⟨d', hok⟩

/-- Two packets that are delivered byte by byte at first, the second of which is parsed. -/
theorem partial_decoding_invisible_two :
    let first := (Packet.nextFrame 16).write
    let second := (Packet.nextFrame 300).write
    ∃ d d', parseEach replayVersion [0, 40]
        (undecoded [.ok (first.take 1, false), .ok (first.drop 1 ++ second, true)]
          (first ++ second).length none) = some d ∧
      parseAt replayVersion first.length d = .ok (.nextFrame 300, (first ++ second).length) d' := by
  intro first second
  obtain ⟨d, hparsed, hat, -⟩ := (partial_decoding_invisible replayVersion).2 (first ++ second)
    [.ok (first.take 1, false), .ok (first.drop 1 ++ second, true)] none
    (.more (first.take 1) (.last (first.drop 1 ++ second))) [0, 40]
  have hread : Packet.readAll replayVersion ((first ++ second).drop first.length) =
      .ok (.nextFrame 300, []) := by
    decide +kernel
  have hsecond := hat first.length
  rw [hread] at hsecond
  obtain ⟨d', hok⟩ := hsecond
  exact ⟨d, d', hparsed, hok⟩

end DecodedBlob

end SuperShuckie
