import SuperShuckie.Packet.Primitives

/-!
# The replay header

A replay file starts with a header of 2048 bytes (`ReplayHeaderRaw`), which `parse` turns into the
metadata of the replay and `asRawHeader` makes out of it.  The raw header is a plain layout, so
writing and reading it back is the identity (`ReplayHeaderRaw.reads`).

`parse_asRawHeader` says that a header made out of metadata parses, whatever a recording later
writes into its patch length, stream end and crop fields.
-/

set_option autoImplicit false

namespace SuperShuckie

open ByteFormat ByteFormat.Reader

/-! ## Console types and formats -/

inductive ReplayConsoleType
  | unknown | gameBoy | superGameBoy2 | gameBoyColor | gameBoyAdvance | nintendoDS | nintendo3DS
deriving DecidableEq

def ReplayConsoleType.toNat : ReplayConsoleType → Nat
  | .unknown => 0
  | .gameBoy => 1
  | .superGameBoy2 => 2
  | .gameBoyColor => 3
  | .gameBoyAdvance => 4
  | .nintendoDS => 5
  | .nintendo3DS => 6

def ReplayConsoleType.ofNat? : Nat → Option ReplayConsoleType
  | 0 => some .unknown
  | 1 => some .gameBoy
  | 2 => some .superGameBoy2
  | 3 => some .gameBoyColor
  | 4 => some .gameBoyAdvance
  | 5 => some .nintendoDS
  | 6 => some .nintendo3DS
  | _ => none

inductive ReplayPatchFormat
  | unpatched | bps
deriving DecidableEq

def ReplayPatchFormat.toNat : ReplayPatchFormat → Nat
  | .unpatched => 0
  | .bps => 1

def ReplayPatchFormat.ofNat? : Nat → Option ReplayPatchFormat
  | 0 => some .unpatched
  | 1 => some .bps
  | _ => none

/-- The format version that is written, except for Nintendo 3DS files. -/
def replayVersion : Nat := 7
/-- The format version of Nintendo 3DS files. -/
def replayVersionNintendo3DS : Nat := 10
def replayVersionMinimumSupported : Nat := 2
def replayVersionMaxSupported : Nat := replayVersionNintendo3DS
/-- First version with a stream end in the header and a bookmark section. -/
def replayVersionBookmarkSection : Nat := 5
/-- First Nintendo 3DS version whose delta keyframes may leave video memory partly stale. -/
def replayVersionNintendo3DSStaleVram : Nat := 10
/-- First Nintendo 3DS version whose delta keyframes copy bytes from the ROM. -/
def replayVersionNintendo3DSRomReferences : Nat := 9

abbrev ReplayHeaderBlake3Hash := FixedBytes 32
/-- A null-terminated UTF-8 text of at most 255 bytes. -/
abbrev ReplayHeaderString := FixedBytes 256

def signatureStart : FixedBytes 4 := ⟨[0x4E, 0x49, 0x44, 0x4F], rfl⟩
def signatureEnd : FixedBytes 4 := ⟨[0x52, 0x49, 0x4E, 0x41], rfl⟩

/-! ## The raw header -/

/-- The header as it lies in the file, field by field (`crop_start` and `crop_end` are flags that
any non-zero byte sets). -/
structure ReplayHeaderRaw where
  signatureStart : FixedBytes 4
  replayVersion : UInt32
  consoleType : UInt32
  cropStart : UInt8
  cropEnd : UInt8
  padding0 : FixedBytes 2
  emulatorCoreName : ReplayHeaderString
  patchDataLength : UnsignedInteger
  patchFormat : UInt32
  padding1 : FixedBytes 4
  patchTargetChecksum : ReplayHeaderBlake3Hash
  romName : ReplayHeaderString
  romFilename : ReplayHeaderString
  romChecksum : ReplayHeaderBlake3Hash
  biosChecksum : ReplayHeaderBlake3Hash
  cropStartFrame : UnsignedInteger
  cropStartMillis : TimestampMillis
  cropEndFrame : UnsignedInteger
  cropEndMillis : TimestampMillis
  cropTimerOffset : TimestampMillis
  packetStreamEnd : UnsignedInteger
  padding2 : FixedBytes (0x7FC - 0x3B0)
  signatureEnd : FixedBytes 4
deriving DecidableEq

/-- The size of a header (`ReplayHeaderBytes`). -/
def headerLen : Nat := 2048

/-- A `u64` field. -/
def U64.bytes (n : UInt64) : Bytes := leBytes 8 n.toNat

def U64.read : Reader Unit UInt64 := do
  let bytes ← takeBytes () 8
  pure (UInt64.ofNat (ofLeBytes bytes))

/-- A `u32` field. -/
def U32.read : Reader Unit UInt32 := do
  let bytes ← takeBytes () 4
  pure (UInt32.ofNat (ofLeBytes bytes))

theorem U64.reads (n : UInt64) : Reads U64.read (U64.bytes n) n := by
  have hback : UInt64.ofNat (ofLeBytes (leBytes 8 n.toNat)) = n := by
    rw [ofLeBytes_leBytes (by simpa using n.toNat_lt), UInt64.ofNat_toNat]
  have hread := (reads_takeBytes_of_length (e := ())
    (length_leBytes 8 n.toNat)).bind_pure (f := fun bytes ↦ UInt64.ofNat (ofLeBytes bytes))
  rwa [hback] at hread

theorem U32.reads_field (n : UInt32) : Reads U32.read (U32.write n) n := by
  have hback : UInt32.ofNat (ofLeBytes (leBytes 4 n.toNat)) = n := by
    rw [ofLeBytes_leBytes (by simpa using n.toNat_lt), UInt32.ofNat_toNat]
  have hread := (reads_takeBytes_of_length (e := ())
    (length_leBytes 4 n.toNat)).bind_pure (f := fun bytes ↦ UInt32.ofNat (ofLeBytes bytes))
  rwa [hback] at hread

namespace ReplayHeaderRaw

/-- The header as bytes. -/
def asBytes (h : ReplayHeaderRaw) : Bytes :=
  h.signatureStart.bytes ++ (U32.write h.replayVersion ++ (U32.write h.consoleType ++
  ([h.cropStart] ++ ([h.cropEnd] ++ (h.padding0.bytes ++ (h.emulatorCoreName.bytes ++
  (U64.bytes h.patchDataLength ++ (U32.write h.patchFormat ++ (h.padding1.bytes ++
  (h.patchTargetChecksum.bytes ++ (h.romName.bytes ++ (h.romFilename.bytes ++
  (h.romChecksum.bytes ++ (h.biosChecksum.bytes ++ (U64.bytes h.cropStartFrame ++
  (U64.bytes h.cropStartMillis ++ (U64.bytes h.cropEndFrame ++ (U64.bytes h.cropEndMillis ++
  (U64.bytes h.cropTimerOffset ++ (U64.bytes h.packetStreamEnd ++ (h.padding2.bytes ++
  h.signatureEnd.bytes)))))))))))))))))))))

/-- The bytes as a header; fails only when there are fewer than 2048. -/
def fromBytes : Reader Unit ReplayHeaderRaw := do
  let signatureStart ← takeFixed () 4
  let replayVersion ← U32.read
  let consoleType ← U32.read
  let cropStart ← takeByte ()
  let cropEnd ← takeByte ()
  let padding0 ← takeFixed () 2
  let emulatorCoreName ← takeFixed () 256
  let patchDataLength ← U64.read
  let patchFormat ← U32.read
  let padding1 ← takeFixed () 4
  let patchTargetChecksum ← takeFixed () 32
  let romName ← takeFixed () 256
  let romFilename ← takeFixed () 256
  let romChecksum ← takeFixed () 32
  let biosChecksum ← takeFixed () 32
  let cropStartFrame ← U64.read
  let cropStartMillis ← U64.read
  let cropEndFrame ← U64.read
  let cropEndMillis ← U64.read
  let cropTimerOffset ← U64.read
  let packetStreamEnd ← U64.read
  let padding2 ← takeFixed () (0x7FC - 0x3B0)
  let signatureEnd ← takeFixed () 4
  pure
    { signatureStart, replayVersion, consoleType, cropStart, cropEnd, padding0, emulatorCoreName
      patchDataLength, patchFormat, padding1, patchTargetChecksum, romName, romFilename
      romChecksum, biosChecksum, cropStartFrame, cropStartMillis, cropEndFrame, cropEndMillis
      cropTimerOffset, packetStreamEnd, padding2, signatureEnd }

theorem length_asBytes (h : ReplayHeaderRaw) : h.asBytes.length = headerLen := by
  simp only [asBytes, List.length_append, FixedBytes.length_eq, U32.write, U64.bytes,
    length_leBytes, List.length_cons, List.length_nil]
  rfl

/-- **The raw header is read back as it was written.** -/
theorem reads (h : ReplayHeaderRaw) : Reads fromBytes h.asBytes h := by
  refine (reads_takeFixed _ _).bind <| (U32.reads_field _).bind <| (U32.reads_field _).bind <|
    (reads_takeByte _ _).bind <| (reads_takeByte _ _).bind <| (reads_takeFixed _ _).bind <|
    (reads_takeFixed _ _).bind <| (U64.reads _).bind <| (U32.reads_field _).bind <|
    (reads_takeFixed _ _).bind <| (reads_takeFixed _ _).bind <| (reads_takeFixed _ _).bind <|
    (reads_takeFixed _ _).bind <| (reads_takeFixed _ _).bind <| (reads_takeFixed _ _).bind <|
    (U64.reads _).bind <| (U64.reads _).bind <| (U64.reads _).bind <| (U64.reads _).bind <|
    (U64.reads _).bind <| (U64.reads _).bind <| (reads_takeFixed _ _).bind
    (reads_takeFixed _ _).bind_pure

/-- Where the packet stream ends and the bookmark section begins, if the header records it: since
format 5, in a file that was closed. -/
def streamEnd (h : ReplayHeaderRaw) : Option Nat :=
  if replayVersionBookmarkSection ≤ h.replayVersion.toNat ∧ h.packetStreamEnd ≠ 0 then
    some h.packetStreamEnd.toNat
  else none

/-- `MaybeEnum::get_or_default` of the console type. -/
def consoleTypeOrDefault (h : ReplayHeaderRaw) : ReplayConsoleType :=
  (ReplayConsoleType.ofNat? h.consoleType.toNat).getD .unknown

end ReplayHeaderRaw

/-! ## Metadata -/

/-- What a replay file is generated from. -/
structure ReplayFileMetadata where
  consoleType : ReplayConsoleType
  romName : String
  romFilename : String
  romChecksum : ReplayHeaderBlake3Hash
  biosChecksum : ReplayHeaderBlake3Hash
  emulatorCoreName : String
  patchFormat : ReplayPatchFormat
  patchTargetChecksum : ReplayHeaderBlake3Hash
  cropStart : Option (UnsignedInteger × TimestampMillis)
  cropEnd : Option (UnsignedInteger × TimestampMillis)
  timerOffset : Option TimestampMillis
deriving DecidableEq

/-- The metadata of an unpatched game without a name. -/
def ReplayFileMetadata.unnamed (console : ReplayConsoleType) : ReplayFileMetadata :=
  { consoleType := console
    romName := ""
    romFilename := ""
    romChecksum := FixedBytes.zero 32
    biosChecksum := FixedBytes.zero 32
    emulatorCoreName := ""
    patchFormat := .unpatched
    patchTargetChecksum := FixedBytes.zero 32
    cropStart := none
    cropEnd := none
    timerOffset := none }

/-- A byte as two hexadecimal digits (the format `X?` inside a byte array). -/
def hexByte (b : UInt8) : String := String.ofList ((Nat.toDigits 16 b.toNat).map Char.toUpper)

def hexBytes (bytes : Bytes) : String := "[" ++ ", ".intercalate (bytes.map hexByte) ++ "]"

/-- At least eight hexadecimal digits, as in the format `08X`. -/
def hex8 (n : Nat) : String :=
  let digits := (Nat.toDigits 16 n).map Char.toUpper
  String.ofList (List.replicate (8 - digits.length) '0' ++ digits)

/-- The text of a null-terminated buffer. -/
def parseStringBuffer (what : ReplayHeaderString) (name : String) : Except String String :=
  if 0 ∈ what.bytes then
    match String.fromUTF8? ⟨(what.bytes.takeWhile (· ≠ 0)).toArray⟩ with
    | some s => .ok s
    | none => .error s!"{name} is non-UTF-8 (cannot parse)"
  else .error s!"{name} length exceeds 255 bytes"

/-- The header as metadata, or a description of what is invalid in it. -/
def ReplayHeaderRaw.parse (h : ReplayHeaderRaw) : Except String ReplayFileMetadata := do
  if h.signatureStart ≠ SuperShuckie.signatureStart then
    throw s!"Unrecognized signature_start {hexBytes h.signatureStart.bytes}"
  if h.signatureEnd ≠ SuperShuckie.signatureEnd then
    throw s!"Unrecognized signature_end {hexBytes h.signatureEnd.bytes}"
  if h.replayVersion.toNat < replayVersionMinimumSupported ∨
      replayVersionMaxSupported < h.replayVersion.toNat then
    throw (s!"Unrecognized replay format version {h.replayVersion.toNat} (not in " ++
      s!"{replayVersionMinimumSupported}..={replayVersionMaxSupported})")
  let consoleType ← match ReplayConsoleType.ofNat? h.consoleType.toNat with
    | some t => pure t
    | none => throw s!"Unrecognized console_type 0x{hex8 h.consoleType.toNat}"
  let patchFormat ← match ReplayPatchFormat.ofNat? h.patchFormat.toNat with
    | some t => pure t
    | none => throw s!"Unrecognized patch_format 0x{hex8 h.patchFormat.toNat}"
  let romName ← parseStringBuffer h.romName "rom_name"
  let romFilename ← parseStringBuffer h.romFilename "rom_filename"
  let emulatorCoreName ← parseStringBuffer h.emulatorCoreName "emulator_core_name"
  pure
    { consoleType, patchFormat, romName, romFilename, emulatorCoreName
      biosChecksum := h.biosChecksum
      romChecksum := h.romChecksum
      patchTargetChecksum := h.patchTargetChecksum
      cropStart := if h.cropStart ≠ 0 then some (h.cropStartFrame, h.cropStartMillis) else none
      cropEnd := if h.cropEnd ≠ 0 then some (h.cropEndFrame, h.cropEndMillis) else none
      timerOffset := if h.cropStart ≠ 0 then some h.cropTimerOffset else none }

/-- A text as a null-terminated buffer. -/
def intoStrBytes (what : String) (name : String) : Except String ReplayHeaderString :=
  if h : (strBytes what).length ≤ 255 then
    .ok ⟨strBytes what ++ List.replicate (256 - (strBytes what).length) 0, by
      rw [List.length_append, List.length_replicate]
      omega⟩
  else .error s!"{name} exceeds 255 bytes"

/-- The header that metadata is written as. -/
def ReplayFileMetadata.asRawHeader (m : ReplayFileMetadata) : Except String ReplayHeaderRaw := do
  let romName ← intoStrBytes m.romName "rom_name"
  let romFilename ← intoStrBytes m.romFilename "rom_filename"
  let emulatorCoreName ← intoStrBytes m.emulatorCoreName "emulator_core_name"
  pure
    { signatureStart := SuperShuckie.signatureStart
      replayVersion := UInt32.ofNat
        (if m.consoleType = .nintendo3DS then replayVersionNintendo3DS else replayVersion)
      consoleType := UInt32.ofNat m.consoleType.toNat
      romName, romFilename, emulatorCoreName
      romChecksum := m.romChecksum
      biosChecksum := m.biosChecksum
      patchFormat := UInt32.ofNat m.patchFormat.toNat
      patchDataLength := 0
      patchTargetChecksum := m.patchTargetChecksum
      signatureEnd := SuperShuckie.signatureEnd
      cropStartFrame := (m.cropStart.map Prod.fst).getD 0
      cropEndFrame := (m.cropEnd.map Prod.fst).getD 0
      cropStartMillis := (m.cropStart.map Prod.snd).getD 0
      cropEndMillis := (m.cropEnd.map Prod.snd).getD 0
      cropTimerOffset := m.timerOffset.getD 0
      cropStart := if m.cropStart.isSome then 1 else 0
      cropEnd := if m.cropEnd.isSome then 1 else 0
      packetStreamEnd := 0
      padding0 := FixedBytes.zero 2
      padding1 := FixedBytes.zero 4
      padding2 := FixedBytes.zero (0x7FC - 0x3B0) }

/-! ## A header that was made from metadata parses -/

/-- Only the character zero is encoded with a zero byte. -/
theorem ne_zero_of_mem_utf8EncodeChar {c : Char} (hc : c.val.toNat ≠ 0) {b : UInt8}
    (hb : b ∈ String.utf8EncodeChar c) : b ≠ 0 := by
  have hpos : ∀ k : Nat, k % 256 ≠ 0 → UInt8.ofNat k ≠ 0 := by
    intro k hk h0
    have hnat := congrArg UInt8.toNat h0
    rw [UInt8.toNat_ofNat'] at hnat
    exact hk hnat
  simp only [String.utf8EncodeChar] at hb
  split at hb
  · rw [List.mem_singleton] at hb
    exact hb ▸ hpos _ (by omega)
  · split at hb
    · simp only [List.mem_cons, List.not_mem_nil, or_false] at hb
      rcases hb with rfl | rfl <;> exact hpos _ (by omega)
    · split at hb
      · simp only [List.mem_cons, List.not_mem_nil, or_false] at hb
        rcases hb with rfl | rfl | rfl <;> exact hpos _ (by omega)
      · simp only [List.mem_cons, List.not_mem_nil, or_false] at hb
        rcases hb with rfl | rfl | rfl | rfl <;> exact hpos _ (by omega)

/-- Cutting an encoded text at its first zero byte cuts it between characters. -/
theorem takeWhile_utf8Encode (m : List Char) (n : Nat) :
    ∃ m' : List Char, ((m.flatMap String.utf8EncodeChar ++ List.replicate n 0).takeWhile (· ≠ 0)) =
      m'.flatMap String.utf8EncodeChar := by
  induction m with
  | nil => exact ⟨[], by cases n <;> simp [List.replicate_succ]⟩
  | cons c m ih =>
    by_cases hc : c.val.toNat = 0
    · refine ⟨[], ?_⟩
      have henc : String.utf8EncodeChar c = [0] := by
        simp [String.utf8EncodeChar, hc]
      simp [henc]
    · obtain ⟨m', hm'⟩ := ih
      refine ⟨c :: m', ?_⟩
      rw [List.flatMap_cons, List.append_assoc, List.takeWhile_append_of_pos, hm',
        List.flatMap_cons]
      intro b hb
      simpa using ne_zero_of_mem_utf8EncodeChar hc hb

theorem strBytes_eq_flatMap (s : String) : ∃ m : List Char, strBytes s =
    m.flatMap String.utf8EncodeChar := by
  obtain ⟨m, hm⟩ := s.isValidUTF8
  refine ⟨m, ?_⟩
  have hdata : (m.flatMap String.utf8EncodeChar).toByteArray.data.toList =
      m.flatMap String.utf8EncodeChar := by simp
  rw [← hdata]
  exact congrArg (fun b : ByteArray ↦ b.data.toList) hm

/-- A text that fits its buffer is found in it again, up to its first null character. -/
theorem parseStringBuffer_intoStrBytes {what name : String} {buffer : ReplayHeaderString}
    (h : intoStrBytes what name = .ok buffer) (name' : String) :
    ∃ s, parseStringBuffer buffer name' = .ok s := by
  simp only [intoStrBytes] at h
  split at h
  · rename_i hlen
    cases h
    obtain ⟨m, hm⟩ := strBytes_eq_flatMap what
    obtain ⟨m', hm'⟩ := takeWhile_utf8Encode m (256 - (strBytes what).length)
    have hmem : (0 : UInt8) ∈ strBytes what ++ List.replicate (256 - (strBytes what).length) 0 := by
      rw [List.mem_append]
      right
      rw [List.mem_replicate]
      exact ⟨by omega, rfl⟩
    have hvalid : (⟨(m'.flatMap String.utf8EncodeChar).toArray⟩ : ByteArray).IsValidUTF8 :=
      ⟨m', by simp [List.utf8Encode, ByteArray.ext_iff]⟩
    rw [parseStringBuffer, if_pos hmem]
    simp only [hm] at hm' ⊢
    rw [hm', String.fromUTF8?, dif_pos hvalid]
    exact ⟨_, rfl⟩
  · cases h

theorem ReplayConsoleType.ofNat?_toNat (t : ReplayConsoleType) :
    ReplayConsoleType.ofNat? t.toNat = some t := by
  cases t <;> rfl

theorem ReplayPatchFormat.ofNat?_toNat (t : ReplayPatchFormat) :
    ReplayPatchFormat.ofNat? t.toNat = some t := by
  cases t <;> rfl

/-- Two headers that differ at most in what a recording writes into them: the patch length, the
end of the stream and the crop fields. -/
structure ReplayHeaderRaw.SameReplay (a b : ReplayHeaderRaw) : Prop where
  signatureStart : a.signatureStart = b.signatureStart
  signatureEnd : a.signatureEnd = b.signatureEnd
  replayVersion : a.replayVersion = b.replayVersion
  consoleType : a.consoleType = b.consoleType
  patchFormat : a.patchFormat = b.patchFormat
  romName : a.romName = b.romName
  romFilename : a.romFilename = b.romFilename
  emulatorCoreName : a.emulatorCoreName = b.emulatorCoreName

variable {m : ReplayFileMetadata}

/-- What is known of a header that metadata was written as. -/
theorem ReplayFileMetadata.asRawHeader_ok {h : ReplayHeaderRaw} (hm : m.asRawHeader = .ok h) :
    h.signatureStart = SuperShuckie.signatureStart ∧ h.signatureEnd = SuperShuckie.signatureEnd ∧
      h.replayVersion.toNat =
        (if m.consoleType = .nintendo3DS then replayVersionNintendo3DS else replayVersion) ∧
      h.consoleType.toNat = m.consoleType.toNat ∧ h.patchFormat.toNat = m.patchFormat.toNat ∧
      h.packetStreamEnd = 0 ∧
      (∃ s, parseStringBuffer h.romName "rom_name" = .ok s) ∧
      (∃ s, parseStringBuffer h.romFilename "rom_filename" = .ok s) ∧
      (∃ s, parseStringBuffer h.emulatorCoreName "emulator_core_name" = .ok s) := by
  simp only [ReplayFileMetadata.asRawHeader] at hm
  cases h1 : intoStrBytes m.romName "rom_name" with
  | error e => rw [h1] at hm; cases hm
  | ok romName =>
    cases h2 : intoStrBytes m.romFilename "rom_filename" with
    | error e => rw [h1, h2] at hm; cases hm
    | ok romFilename =>
      cases h3 : intoStrBytes m.emulatorCoreName "emulator_core_name" with
      | error e => rw [h1, h2, h3] at hm; cases hm
      | ok emulatorCoreName =>
        rw [h1, h2, h3] at hm
        cases hm
        refine ⟨rfl, rfl, ?_, ?_, ?_, rfl, parseStringBuffer_intoStrBytes h1 _,
          parseStringBuffer_intoStrBytes h2 _, parseStringBuffer_intoStrBytes h3 _⟩
        · dsimp only
          split <;> rfl
        · cases m.consoleType <;> rfl
        · cases m.patchFormat <;> rfl

/-- **A header made from metadata parses**, also after a recording has written its own fields. -/
theorem ReplayHeaderRaw.parse_of_sameReplay {h h' : ReplayHeaderRaw} (hm : m.asRawHeader = .ok h)
    (hs : h'.SameReplay h) :
    ∃ parsed, h'.parse = .ok parsed ∧ parsed.consoleType = m.consoleType := by
  obtain ⟨hstart, hend, hversion, hconsole, hformat, -, ⟨s1, h1⟩, ⟨s2, h2⟩, ⟨s3, h3⟩⟩ :=
    ReplayFileMetadata.asRawHeader_ok hm
  have hlow : ¬ (h.replayVersion.toNat < replayVersionMinimumSupported ∨
      replayVersionMaxSupported < h.replayVersion.toNat) := by
    rw [hversion]
    split <;> decide
  simp only [ReplayHeaderRaw.parse, hs.signatureStart, hs.signatureEnd, hs.replayVersion,
    hs.consoleType, hs.patchFormat, hs.romName, hs.romFilename, hs.emulatorCoreName, hstart, hend,
    hconsole, hformat, ReplayConsoleType.ofNat?_toNat, ReplayPatchFormat.ofNat?_toNat, h1, h2, h3,
    hlow, ne_eq, not_true_eq_false, if_false]
  exact ⟨_, rfl, rfl⟩

end SuperShuckie
