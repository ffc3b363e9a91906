import SuperShuckie.Packet.Types
import SuperShuckie.Lib.LittleEndian

/-!
# Reading and writing the parts of a packet

Every value of the stream is written as a byte string and read back by a `PacketReader`.  An
integer is a length byte and its little-endian bytes without the trailing zeros; a byte string, a
text and a list are their length followed by their contents.

The round trips hold for values that fit: what is written in one go is shorter than `2 ^ 64`
bytes, so every length inside it is a 64-bit integer.
-/

set_option autoImplicit false

namespace SuperShuckie

open ByteFormat ByteFormat.Reader

abbrev PacketReader (α : Type) := Reader PacketReadError α

/-! ## Integers -/

/-- A length byte, then the little-endian bytes without the trailing zeros. -/
def UnsignedInteger.write (n : UnsignedInteger) : Bytes :=
  if n = 0 then [0]
  else
    let len := 1 + n.toNat.log2 / 8
    UInt8.ofNat len :: leBytes len n.toNat

def UnsignedInteger.readAll : PacketReader UnsignedInteger := do
  let lenByte ← takeByte .notEnoughData
  if lenByte = 0 then pure 0
  else if 8 < lenByte.toNat then
    throw (.parseFail s!"invalid UnsignedInteger (bad byte length {lenByte.toNat})")
  else
    let bytes ← takeBytes .notEnoughData lenByte.toNat
    pure (UInt64.ofNat (ofLeBytes bytes))

theorem UnsignedInteger.reads (n : UnsignedInteger) :
    Reads UnsignedInteger.readAll (UnsignedInteger.write n) n := by
  rw [UnsignedInteger.write]
  split
  · rename_i h
    rw [h]
    exact (reads_takeByte _ 0).bind (reads_pure 0)
  · rename_i hn
    have hnat : n.toNat ≠ 0 := fun h ↦ hn (UInt64.toNat_inj.mp h)
    have hlog : n.toNat.log2 < 64 := (Nat.log2_lt hnat).mpr n.toNat_lt
    have hlen : (UInt8.ofNat (1 + n.toNat.log2 / 8)).toNat = 1 + n.toNat.log2 / 8 := by
      rw [UInt8.toNat_ofNat']
      omega
    have hne : UInt8.ofNat (1 + n.toNat.log2 / 8) ≠ 0 := by
      intro h0
      rw [h0] at hlen
      simp at hlen
      omega
    have hback : UInt64.ofNat (ofLeBytes (leBytes (1 + n.toNat.log2 / 8) n.toNat)) = n := by
      rw [ofLeBytes_leBytes (lt_pow_byteLength n.toNat), UInt64.ofNat_toNat]
    refine (reads_takeByte _ (UInt8.ofNat (1 + n.toNat.log2 / 8))).bind ?_
    rw [if_neg hne, if_neg (by omega)]
    have hbytes : Reads (takeBytes PacketReadError.notEnoughData
        (UInt8.ofNat (1 + n.toNat.log2 / 8)).toNat) (leBytes (1 + n.toNat.log2 / 8) n.toNat) _ :=
      reads_takeBytes_of_length (by rw [length_leBytes, hlen])
    have hread := hbytes.bind_pure (f := fun bytes ↦ UInt64.ofNat (ofLeBytes bytes))
    rwa [hback] at hread

theorem UnsignedInteger.stable : Stable UnsignedInteger.readAll :=
  (stable_takeByte _).bind fun _ ↦ Stable.ite (stable_pure 0) <| Stable.ite (stable_throw _) <|
    (stable_takeBytes _ _).bind fun _ ↦ stable_pure _

theorem UnsignedInteger.write_ne_nil (n : UnsignedInteger) : UnsignedInteger.write n ≠ [] := by
  rw [UnsignedInteger.write]
  split <;> simp

/-- A signed integer is written as the unsigned one with the same bits. -/
def SignedInteger.write (n : SignedInteger) : Bytes := UnsignedInteger.write n.toUInt64

def SignedInteger.readAll : PacketReader SignedInteger := UInt64.toInt64 <$> UnsignedInteger.readAll

theorem SignedInteger.reads (n : SignedInteger) :
    Reads SignedInteger.readAll (SignedInteger.write n) n := by
  have h := (UnsignedInteger.reads n.toUInt64).map (f := UInt64.toInt64)
  rwa [Int64.toInt64_toUInt64] at h

theorem SignedInteger.stable : Stable SignedInteger.readAll := UnsignedInteger.stable.map _

/-- A length (`usize`). -/
def Usize.write (n : Nat) : Bytes := UnsignedInteger.write (UInt64.ofNat n)

def Usize.readAll : PacketReader Nat := UInt64.toNat <$> UnsignedInteger.readAll

theorem Usize.reads {n : Nat} (h : n < 2 ^ 64) : Reads Usize.readAll (Usize.write n) n := by
  have hback : (UInt64.ofNat n).toNat = n := by
    rw [UInt64.toNat_ofNat']
    omega
  have hread := (UnsignedInteger.reads (UInt64.ofNat n)).map (f := UInt64.toNat)
  rwa [hback] at hread

theorem Usize.stable : Stable Usize.readAll := UnsignedInteger.stable.map _

/-- A `u8`. -/
def U8.readAll : PacketReader UInt8 := takeByte .notEnoughData

/-- A `u16` in two bytes. -/
def U16.write (n : UInt16) : Bytes := leBytes 2 n.toNat

def U16.readAll : PacketReader UInt16 := do
  let bytes ← takeBytes .notEnoughData 2
  pure (UInt16.ofNat (ofLeBytes bytes))

theorem U16.reads (n : UInt16) : Reads U16.readAll (U16.write n) n := by
  have hback : UInt16.ofNat (ofLeBytes (leBytes 2 n.toNat)) = n := by
    rw [ofLeBytes_leBytes (by simpa using n.toNat_lt), UInt16.ofNat_toNat]
  have hread := (reads_takeBytes_of_length (e := PacketReadError.notEnoughData)
    (length_leBytes 2 n.toNat)).bind_pure (f := fun bytes ↦ UInt16.ofNat (ofLeBytes bytes))
  rwa [hback] at hread

theorem U16.stable : Stable U16.readAll := (stable_takeBytes _ _).bind fun _ ↦ stable_pure _

/-- A `u32` in four bytes. -/
def U32.write (n : UInt32) : Bytes := leBytes 4 n.toNat

def U32.readAll : PacketReader UInt32 := do
  let bytes ← takeBytes .notEnoughData 4
  pure (UInt32.ofNat (ofLeBytes bytes))

theorem U32.reads (n : UInt32) : Reads U32.readAll (U32.write n) n := by
  have hback : UInt32.ofNat (ofLeBytes (leBytes 4 n.toNat)) = n := by
    rw [ofLeBytes_leBytes (by simpa using n.toNat_lt), UInt32.ofNat_toNat]
  have hread := (reads_takeBytes_of_length (e := PacketReadError.notEnoughData)
    (length_leBytes 4 n.toNat)).bind_pure (f := fun bytes ↦ UInt32.ofNat (ofLeBytes bytes))
  rwa [hback] at hread

/-! ## Byte strings, texts and lists -/

/-- The size followed by the actual bytes. -/
def ByteVec.write (bytes : ByteVec) : Bytes := Usize.write bytes.length ++ bytes

def ByteVec.readAll : PacketReader ByteVec := do
  let len ← Usize.readAll
  takeBytes .notEnoughData len

theorem ByteVec.reads {bytes : ByteVec} (h : (ByteVec.write bytes).length < 2 ^ 64) :
    Reads ByteVec.readAll (ByteVec.write bytes) bytes := by
  rw [ByteVec.write, List.length_append] at h
  exact (Usize.reads (by omega)).bind (reads_takeBytes _ bytes)

theorem ByteVec.stable : Stable ByteVec.readAll := Usize.stable.bind fun _ ↦ stable_takeBytes _ _

/-- The bytes of a text (`as_bytes`). -/
def strBytes (s : String) : Bytes := s.toUTF8.data.toList

def Str.write (s : String) : Bytes := Usize.write (strBytes s).length ++ strBytes s

def Str.readAll : PacketReader String := do
  let len ← Usize.readAll
  let bytes ← takeBytes .notEnoughData len
  match String.fromUTF8? ⟨bytes.toArray⟩ with
  | some s => pure s
  | none => throw (.parseFail "invalid utf8 sequence")

theorem fromUTF8?_strBytes (s : String) : String.fromUTF8? ⟨(strBytes s).toArray⟩ = some s := by
  have hbytes : (⟨(strBytes s).toArray⟩ : ByteArray) = s.toByteArray := by
    rw [strBytes, Array.toArray_toList]
    rfl
  rw [hbytes, String.fromUTF8?, dif_pos s.isValidUTF8]
  rfl

theorem Str.reads {s : String} (h : (Str.write s).length < 2 ^ 64) :
    Reads Str.readAll (Str.write s) s := by
  rw [Str.write, List.length_append] at h
  have hbytes : Reads (takeBytes PacketReadError.notEnoughData (strBytes s).length)
      (strBytes s) (strBytes s) := reads_takeBytes _ _
  have hread := hbytes.bind (f := fun bytes ↦ match String.fromUTF8? ⟨bytes.toArray⟩ with
    | some s => pure s
    | none => throw (.parseFail "invalid utf8 sequence")) (b := s)
    (by rw [fromUTF8?_strBytes]; exact reads_pure s)
  rw [List.append_nil] at hread
  exact (Usize.reads (by omega)).bind hread

theorem Str.stable : Stable Str.readAll := by
  refine Usize.stable.bind fun len ↦ (stable_takeBytes _ len).bind fun bytes ↦ ?_
  split
  · exact stable_pure _
  · exact stable_throw _

/-- A list: its length, then its elements. -/
def Vec.write {α : Type} (write : α → Bytes) (as : List α) : Bytes :=
  Usize.write as.length ++ as.flatMap write

def Vec.readAll {α : Type} (read : PacketReader α) : PacketReader (List α) := do
  let len ← Usize.readAll
  count read len

theorem length_le_flatMap {α : Type} {write : α → Bytes} {as : List α}
    (h : ∀ a ∈ as, write a ≠ []) : as.length ≤ (as.flatMap write).length := by
  induction as with
  | nil => simp
  | cons a as ih =>
    have hpos : 0 < (write a).length := List.length_pos_iff.mpr (h a List.mem_cons_self)
    have hrest := ih fun b hb ↦ h b (List.mem_cons_of_mem a hb)
    simp only [List.flatMap_cons, List.length_append, List.length_cons]
    omega

theorem length_write_le_flatMap {α : Type} {write : α → Bytes} {as : List α} {a : α}
    (h : a ∈ as) : (write a).length ≤ (as.flatMap write).length := by
  obtain ⟨before, after, rfl⟩ := List.append_of_mem h
  simp only [List.flatMap_append, List.flatMap_cons, List.length_append]
  omega

theorem Vec.reads {α : Type} {read : PacketReader α} {write : α → Bytes} {as : List α}
    (hne : ∀ a ∈ as, write a ≠ [])
    (hread : ∀ a ∈ as, (write a).length < 2 ^ 64 → Reads read (write a) a)
    (h : (Vec.write write as).length < 2 ^ 64) :
    Reads (Vec.readAll read) (Vec.write write as) as := by
  rw [Vec.write, List.length_append] at h
  have hlen := length_le_flatMap hne
  refine (Usize.reads (by omega)).bind (reads_count fun a ha ↦ hread a ha ?_)
  have ha' : (write a).length ≤ (as.flatMap write).length := length_write_le_flatMap ha
  omega

theorem Vec.stable {α : Type} {read : PacketReader α} (h : Stable read) :
    Stable (Vec.readAll read) := Usize.stable.bind fun n ↦ stable_count h n

/-! ## Speed, counters and metadata -/

def Speed.write (speed : Speed) : Bytes := U16.write speed.speedOver256

def Speed.readAll : PacketReader Speed := do
  let n ← U16.readAll
  if h : n ≠ 0 then pure ⟨n, h⟩
  else throw (.parseFail "read a zero u16 when NonZeroU16 was expected")

theorem Speed.reads (speed : Speed) : Reads Speed.readAll (Speed.write speed) speed := by
  have hread := (U16.reads speed.speedOver256).bind (b := speed)
    (f := fun n ↦ if h : n ≠ 0 then (pure ⟨n, h⟩ : PacketReader Speed)
      else throw (.parseFail "read a zero u16 when NonZeroU16 was expected"))
    (by rw [dif_pos speed.ne_zero]; exact reads_pure speed)
  rwa [List.append_nil] at hread

theorem Speed.stable : Stable Speed.readAll := by
  refine U16.stable.bind fun n ↦ ?_
  split
  · exact stable_pure _
  · exact stable_throw _

def Counter.write (counter : Counter) : Bytes :=
  Str.write counter.name ++ SignedInteger.write counter.value

def Counter.readAll : PacketReader Counter := do
  let name ← Str.readAll
  let value ← SignedInteger.readAll
  pure ⟨name, value⟩

theorem Counter.reads {counter : Counter} (h : (Counter.write counter).length < 2 ^ 64) :
    Reads Counter.readAll (Counter.write counter) counter := by
  rw [Counter.write, List.length_append] at h
  exact (Str.reads (by omega)).bind (SignedInteger.reads _).bind_pure

theorem Counter.stable : Stable Counter.readAll :=
  Str.stable.bind fun _ ↦ SignedInteger.stable.bind fun _ ↦ stable_pure _

theorem Counter.write_ne_nil (counter : Counter) : Counter.write counter ≠ [] := by
  simp [Counter.write, Str.write, Usize.write, UnsignedInteger.write_ne_nil]

def KeyframeMetadata.write (metadata : KeyframeMetadata) : Bytes :=
  ByteVec.write metadata.input ++ (Speed.write metadata.speed ++
    (UnsignedInteger.write metadata.elapsedFrames ++ (UnsignedInteger.write metadata.elapsedMillis ++
      Vec.write Counter.write metadata.counters)))

/-- The counters of a keyframe: there since format 3. -/
def Counters.readAll (version : Nat) : PacketReader (List Counter) :=
  if 3 ≤ version then Vec.readAll Counter.readAll else pure []

def KeyframeMetadata.readAll (version : Nat) : PacketReader KeyframeMetadata := do
  let input ← ByteVec.readAll
  let speed ← Speed.readAll
  let elapsedFrames ← UnsignedInteger.readAll
  let elapsedMillis ← UnsignedInteger.readAll
  let counters ← Counters.readAll version
  pure ⟨input, speed, elapsedFrames, elapsedMillis, counters⟩

theorem KeyframeMetadata.reads {metadata : KeyframeMetadata} {version : Nat} (hv : 3 ≤ version)
    (h : (KeyframeMetadata.write metadata).length < 2 ^ 64) :
    Reads (KeyframeMetadata.readAll version) (KeyframeMetadata.write metadata) metadata := by
  simp only [KeyframeMetadata.write, List.length_append] at h
  have hcounters : Reads (Counters.readAll version)
      (Vec.write Counter.write metadata.counters) metadata.counters := by
    rw [Counters.readAll, if_pos hv]
    exact Vec.reads (fun a _ ↦ a.write_ne_nil) (fun _ _ ↦ Counter.reads) (by omega)
  exact (ByteVec.reads (by omega)).bind <| (Speed.reads _).bind <|
    (UnsignedInteger.reads _).bind <| (UnsignedInteger.reads _).bind hcounters.bind_pure

theorem KeyframeMetadata.stable (version : Nat) : Stable (KeyframeMetadata.readAll version) :=
  ByteVec.stable.bind fun _ ↦ Speed.stable.bind fun _ ↦ UnsignedInteger.stable.bind fun _ ↦
    UnsignedInteger.stable.bind fun _ ↦
      (Stable.ite (Vec.stable Counter.stable) (stable_pure _)).bind fun _ ↦ stable_pure _

theorem KeyframeMetadata.write_ne_nil (metadata : KeyframeMetadata) :
    KeyframeMetadata.write metadata ≠ [] := by
  simp [KeyframeMetadata.write, ByteVec.write, Usize.write, UnsignedInteger.write_ne_nil]

def BookmarkMetadata.write (metadata : BookmarkMetadata) : Bytes :=
  Str.write metadata.name ++ (UnsignedInteger.write metadata.elapsedFrames ++
    UnsignedInteger.write metadata.elapsedMillis)

def BookmarkMetadata.readAll : PacketReader BookmarkMetadata := do
  let name ← Str.readAll
  let elapsedFrames ← UnsignedInteger.readAll
  let elapsedMillis ← UnsignedInteger.readAll
  pure ⟨name, elapsedFrames, elapsedMillis⟩

theorem BookmarkMetadata.reads {metadata : BookmarkMetadata}
    (h : (BookmarkMetadata.write metadata).length < 2 ^ 64) :
    Reads BookmarkMetadata.readAll (BookmarkMetadata.write metadata) metadata := by
  simp only [BookmarkMetadata.write, List.length_append] at h
  exact (Str.reads (by omega)).bind <| (UnsignedInteger.reads _).bind <|
    (UnsignedInteger.reads _).bind_pure

theorem BookmarkMetadata.stable : Stable BookmarkMetadata.readAll :=
  Str.stable.bind fun _ ↦ UnsignedInteger.stable.bind fun _ ↦ UnsignedInteger.stable.bind fun _ ↦
    stable_pure _

theorem BookmarkMetadata.write_ne_nil (metadata : BookmarkMetadata) :
    BookmarkMetadata.write metadata ≠ [] := by
  simp [BookmarkMetadata.write, Str.write, Usize.write, UnsignedInteger.write_ne_nil]

end SuperShuckie
