import SuperShuckie.Lib.Metered
import SuperShuckie.Packet.Primitives

/-!
# The wire format of Play Together

The primitive encoder and decoder of the messages.  Everything is little-endian, and byte strings,
texts and lists are preceded by a length of 32 bits that is checked against a cap before anything is
allocated for it.

Each decoder takes exactly what the encoder writes (`Reads`) and nothing else (`Exact`), and it is
`Frugal`: it never allocates more than the cap of a field, nor more bytes than it took.
-/

set_option autoImplicit false

namespace SuperShuckie

open ByteFormat ByteFormat.Metered

namespace PlayTogether

/-- A participant: 1 for the host, 0 for none or everyone. -/
abbrev PeerId := UInt16

abbrev SessionId := UInt64
abbrev Blake3Hash := FixedBytes 32

/-- A colour of the palette, 0 for any. -/
abbrev PlayerColor := UInt8

/-- Why a message could not be decoded. -/
inductive DecodeError
  | truncated
  | unknownTag (tag : UInt8)
  | badString
  | trailingBytes (count : Nat)
  | tooLong (len : UInt32)
  | badBool (byte : UInt8)
  | zeroPeerId
  | badSpeed
  | badColor (color : UInt8)
  | badEnum (what : String) (value : UInt32)
  | tooMany (what : String) (count : UInt32) (max : Nat)
  | fieldTooLong (what : String) (len : UInt32) (max : Nat)
  | forbiddenPacket (kind : String)
  | badPacket (error : PacketReadError)
  | stateTooLarge (len : UInt64)
  | badState (text : String)
deriving DecidableEq

/-- What a decoder allocates: a byte string, or room for a list of items. -/
inductive Allocation
  | bytes (what : String) (len max : Nat)
  | items (what : String) (count max : Nat)
deriving DecidableEq

/-- The allocation is within the cap of its field. -/
def Allocation.Capped : Allocation → Prop
  | .bytes _ len max => len ≤ max
  | .items _ count max => count ≤ max

/-- The bytes of the message that are copied. -/
def Allocation.cost : Allocation → Nat
  | .bytes _ len _ => len
  | .items _ _ _ => 0

abbrev Decoder (α : Type) := Metered Allocation DecodeError α

/-! ## Writing -/

namespace Encoder

def u8 (v : UInt8) : Bytes := [v]
def u16 (v : UInt16) : Bytes := leBytes 2 v.toNat
def u32 (v : UInt32) : Bytes := leBytes 4 v.toNat
def u64 (v : UInt64) : Bytes := leBytes 8 v.toNat
def i64 (v : Int64) : Bytes := u64 v.toUInt64
def bool (v : Bool) : Bytes := u8 (if v then 1 else 0)
def bytes (b : Bytes) : Bytes := u32 (UInt32.ofNat b.length) ++ b
def string (s : String) : Bytes := bytes (strBytes s)
def hash (h : Blake3Hash) : Bytes := h.bytes

/-- A list, preceded by its length. -/
def vec {α : Type} (write : α → Bytes) (as : List α) : Bytes :=
  u32 (UInt32.ofNat as.length) ++ as.flatMap write

end Encoder

/-! ## Reading -/

namespace Decoder

/-- A number of `k` bytes. -/
def le (k : Nat) : Decoder Nat := do
  let bytes ← take .truncated k
  pure (ofLeBytes bytes)

def u8 : Decoder UInt8 := do
  let n ← le 1
  pure (UInt8.ofNat n)

def u16 : Decoder UInt16 := do
  let n ← le 2
  pure (UInt16.ofNat n)

def u32 : Decoder UInt32 := do
  let n ← le 4
  pure (UInt32.ofNat n)

def u64 : Decoder UInt64 := do
  let n ← le 8
  pure (UInt64.ofNat n)

def i64 : Decoder Int64 := do
  let n ← u64
  pure n.toInt64

def bool : Decoder Bool := do
  let b ← u8
  if b = 0 then pure false
  else if b = 1 then pure true
  else fail (.badBool b)

def hash : Decoder Blake3Hash := takeFixed .truncated 32

/-- A length-prefixed byte field, refused before allocation when longer than `max`. -/
def bytes (what : String) (max : Nat) : Decoder Bytes := do
  let len ← u32
  if max < len.toNat then fail (.fieldTooLong what len max)
  else take .truncated len.toNat

/-- A length-prefixed byte field that is copied. -/
def toVec (what : String) (max : Nat) : Decoder Bytes := do
  let bytes ← bytes what max
  alloc (.bytes what bytes.length max)
  pure bytes

def string (what : String) (max : Nat) : Decoder String := do
  let bytes ← toVec what max
  match String.fromUTF8? ⟨bytes.toArray⟩ with
  | some s => pure s
  | none => fail .badString

/-- The count of a list, refused before allocation when larger than `max` or than what could
possibly fit in the remaining bytes. -/
def count (what : String) (max minItemSize : Nat) : Decoder Nat := do
  let count ← u32
  if max < count.toNat then fail (.tooMany what count max)
  else do
    let rest ← left
    if rest.length < count.toNat * minItemSize then fail .truncated
    else pure count.toNat

/-- A list of items. -/
def vec {α : Type} (what : String) (max minItemSize : Nat) (item : Decoder α) :
    Decoder (List α) := do
  let n ← count what max minItemSize
  alloc (.items what n max)
  repeated item n

/-- The end of the message. -/
def finish : Decoder Unit := do
  let rest ← left
  if rest = [] then pure () else fail (.trailingBytes rest.length)

/-! ## Reading back what was written -/

theorem reads_le {k n : Nat} (h : n < 256 ^ k) : Reads (le k) (leBytes k n) n := by
  have hread := (reads_take (ω := Allocation) (e := DecodeError.truncated)
    (length_leBytes k n)).bind_pure (g := ofLeBytes)
  rwa [ofLeBytes_leBytes h] at hread

theorem reads_u8 (v : UInt8) : Reads u8 (Encoder.u8 v) v := by
  have hbytes : leBytes 1 v.toNat = [v] := by simp [leBytes]
  have hread := (reads_le (k := 1) (by simpa using v.toNat_lt)).bind_pure (g := UInt8.ofNat)
  rwa [UInt8.ofNat_toNat, hbytes] at hread

theorem reads_u16 (v : UInt16) : Reads u16 (Encoder.u16 v) v := by
  have hread := (reads_le (k := 2) (by simpa using v.toNat_lt)).bind_pure (g := UInt16.ofNat)
  rwa [UInt16.ofNat_toNat] at hread

theorem reads_u32 (v : UInt32) : Reads u32 (Encoder.u32 v) v := by
  have hread := (reads_le (k := 4) (by simpa using v.toNat_lt)).bind_pure (g := UInt32.ofNat)
  rwa [UInt32.ofNat_toNat] at hread

theorem reads_u64 (v : UInt64) : Reads u64 (Encoder.u64 v) v := by
  have hread := (reads_le (k := 8) (by simpa using v.toNat_lt)).bind_pure (g := UInt64.ofNat)
  rwa [UInt64.ofNat_toNat] at hread

theorem reads_i64 (v : Int64) : Reads i64 (Encoder.i64 v) v :=
  (reads_u64 v.toUInt64).bind_pure (g := UInt64.toInt64)

theorem reads_bool (v : Bool) : Reads bool (Encoder.bool v) v := by
  cases v
  · exact (reads_u8 0).then_nil (reads_pure false)
  · exact (reads_u8 1).then_nil (reads_pure true)

theorem reads_hash (h : Blake3Hash) : Reads hash (Encoder.hash h) h := reads_takeFixed _ h

variable {max minItemSize : Nat} {what : String} {b : Bytes}

theorem toNat_ofNat_length {n : Nat} (h : n ≤ max) (hmax : max < 2 ^ 32) :
    (UInt32.ofNat n).toNat = n := by
  rw [UInt32.toNat_ofNat']
  omega

theorem reads_bytes (h : b.length ≤ max) (hmax : max < 2 ^ 32) :
    Reads (bytes what max) (Encoder.bytes b) b := by
  have hlen := toNat_ofNat_length h hmax
  refine (reads_u32 _).bind ?_
  rw [hlen, if_neg (Nat.not_lt.mpr h)]
  exact reads_take rfl

theorem reads_toVec (h : b.length ≤ max) (hmax : max < 2 ^ 32) :
    Reads (toVec what max) (Encoder.bytes b) b :=
  (reads_bytes h hmax).then_nil <| (reads_alloc _).bind_nil (reads_pure b)

theorem reads_string {s : String} (h : (strBytes s).length ≤ max) (hmax : max < 2 ^ 32) :
    Reads (string what max) (Encoder.string s) s := by
  refine (reads_toVec h hmax).then_nil ?_
  rw [fromUTF8?_strBytes]
  exact reads_pure s

theorem length_mul_le_flatMap {α : Type} {write : α → Bytes} {min : Nat} {as : List α}
    (h : ∀ a ∈ as, min ≤ (write a).length) : as.length * min ≤ (as.flatMap write).length := by
  induction as with
  | nil => simp
  | cons a as ih =>
    have ha := h a List.mem_cons_self
    have has := ih fun b hb ↦ h b (List.mem_cons_of_mem a hb)
    rw [List.flatMap_cons, List.length_cons, List.length_append, Nat.succ_mul]
    omega

theorem reads_vec {α : Type} {item : Decoder α} {write : α → Bytes} {as : List α}
    (h : as.length ≤ max) (hmax : max < 2 ^ 32) (hitem : ∀ a ∈ as, Reads item (write a) a)
    (hmin : ∀ a ∈ as, minItemSize ≤ (write a).length) :
    Reads (vec what max minItemSize item) (Encoder.vec write as) as := by
  have hlen := toNat_ofNat_length h hmax
  intro rest
  have hcount : (count what max minItemSize).result (Encoder.vec write as ++ rest) =
      .ok (as.length, as.flatMap write ++ rest) := by
    rw [Encoder.vec, List.append_assoc, count, (bind_of_ok (reads_u32 _ _)).1, hlen,
      if_neg (Nat.not_lt.mpr h), (bind_of_ok (show left.result _ = .ok (_, _) from rfl)).1, if_neg]
    · rfl
    · have := length_mul_le_flatMap hmin
      rw [List.length_append]
      omega
  rw [vec, (bind_of_ok hcount).1]
  exact ((reads_alloc _).bind_nil (reads_repeated hitem)) rest

/-! ## Refusing what is too long -/

theorem refuses_bytes (h : max < b.length) (hlen : b.length < 2 ^ 32) :
    Refuses (bytes what max) (Encoder.bytes b) := by
  refine (reads_u32 _).bind_refuses ?_
  rw [toNat_ofNat_length (Nat.le_sub_one_of_lt hlen) (by decide), if_pos h]
  exact refuses_fail _ _

theorem refuses_toVec (h : max < b.length) (hlen : b.length < 2 ^ 32) :
    Refuses (toVec what max) (Encoder.bytes b) :=
  (refuses_bytes h hlen).bind_last

theorem refuses_string {s : String} (h : max < (strBytes s).length)
    (hlen : (strBytes s).length < 2 ^ 32) : Refuses (string what max) (Encoder.string s) :=
  (refuses_toVec h hlen).bind_last

/-- A list that is too long, or an element of which is refused. -/
theorem refuses_vec {α : Type} {item : Decoder α} {write : α → Bytes} {as : List α}
    (hlen : as.length < 2 ^ 32) (hitem : ∀ a ∈ as, Reads item (write a) a ∨ Refuses item (write a))
    (h : max < as.length ∨ ∃ a ∈ as, ¬ Reads item (write a) a) :
    Refuses (vec what max minItemSize item) (Encoder.vec write as) := by
  have hcount : (UInt32.ofNat as.length).toNat = as.length :=
    toNat_ofNat_length (Nat.le_sub_one_of_lt hlen) (by decide)
  by_cases hmany : max < as.length
  · refine Refuses.bind ?_ _
    refine (reads_u32 _).then_refuses ?_
    rw [hcount, if_pos hmany]
    exact refuses_fail _ _
  · have hsome := h.resolve_left hmany
    intro rest
    have hrest : Refuses (alloc (Allocation.items what as.length max) >>= fun _ ↦
        repeated item as.length) ([] ++ as.flatMap write) :=
      (reads_alloc _).bind_refuses (refuses_repeated hitem hsome)
    obtain ⟨e, he⟩ := hrest rest
    by_cases hfits : (as.flatMap write ++ rest).length < as.length * minItemSize
    · have hrefused : (count what max minItemSize).result (Encoder.vec write as ++ rest) =
          .error .truncated := by
        rw [Encoder.vec, List.append_assoc, count, (bind_of_ok (reads_u32 _ _)).1, hcount,
          if_neg hmany, (bind_of_ok (show left.result _ = .ok (_, _) from rfl)).1, if_pos hfits]
        rfl
      exact ⟨_, (bind_of_error hrefused).1⟩
    · have hread : (count what max minItemSize).result (Encoder.vec write as ++ rest) =
          .ok (as.length, as.flatMap write ++ rest) := by
        rw [Encoder.vec, List.append_assoc, count, (bind_of_ok (reads_u32 _ _)).1, hcount,
          if_neg hmany, (bind_of_ok (show left.result _ = .ok (_, _) from rfl)).1, if_neg hfits]
        rfl
      refine ⟨e, ?_⟩
      rw [vec, (bind_of_ok hread).1]
      exact he

/-! ## Taking only what is written -/

theorem exact_le {k n : Nat} {bs rest : Bytes} (h : (le k).result bs = .ok (n, rest)) :
    bs = leBytes k n ++ rest ∧ n < 256 ^ k := by
  obtain ⟨bytes, mid, hbytes, h⟩ := bind_eq_ok.mp h
  cases h
  obtain ⟨rfl, rfl⟩ := exact_take hbytes
  rw [leBytes_ofLeBytes]
  exact ⟨rfl, ofLeBytes_lt bytes⟩

theorem exact_u8 : Exact Encoder.u8 u8 := by
  intro bs v rest h
  obtain ⟨n, mid, hn, h⟩ := bind_eq_ok.mp h
  cases h
  obtain ⟨rfl, -⟩ := exact_le hn
  rfl

theorem exact_u16 : Exact Encoder.u16 u16 := by
  intro bs v rest h
  obtain ⟨n, mid, hn, h⟩ := bind_eq_ok.mp h
  cases h
  obtain ⟨rfl, hlt⟩ := exact_le hn
  rw [Encoder.u16, UInt16.toNat_ofNat_of_lt' (by simpa using hlt)]

theorem exact_u32 : Exact Encoder.u32 u32 := by
  intro bs v rest h
  obtain ⟨n, mid, hn, h⟩ := bind_eq_ok.mp h
  cases h
  obtain ⟨rfl, hlt⟩ := exact_le hn
  rw [Encoder.u32, UInt32.toNat_ofNat_of_lt' (by simpa using hlt)]

theorem exact_u64 : Exact Encoder.u64 u64 := by
  intro bs v rest h
  obtain ⟨n, mid, hn, h⟩ := bind_eq_ok.mp h
  cases h
  obtain ⟨rfl, hlt⟩ := exact_le hn
  rw [Encoder.u64, UInt64.toNat_ofNat_of_lt' (by simpa using hlt)]

theorem exact_i64 : Exact Encoder.i64 i64 := by
  intro bs v rest h
  obtain ⟨n, mid, hn, h⟩ := bind_eq_ok.mp h
  cases h
  rw [exact_u64 hn]
  rfl

theorem exact_bool : Exact Encoder.bool bool := by
  intro bs v rest h
  obtain ⟨b, mid, hb, h⟩ := bind_eq_ok.mp h
  rw [exact_u8 hb]
  split at h
  · rename_i hzero
    cases h
    rw [hzero]
    rfl
  · split at h
    · rename_i hone
      cases h
      rw [hone]
      rfl
    · cases h

theorem exact_hash : Exact Encoder.hash hash := exact_takeFixed _ _

theorem exact_bytes (what : String) (max : Nat) : Exact Encoder.bytes (bytes what max) := by
  intro bs b rest h
  obtain ⟨len, mid, hlen, h⟩ := bind_eq_ok.mp h
  split at h
  · cases h
  · obtain ⟨rfl, hb⟩ := exact_take h
    rw [exact_u32 hlen, Encoder.bytes, hb, UInt32.ofNat_toNat, List.append_assoc]

theorem length_bytes {bs rest : Bytes} (h : (bytes what max).result bs = .ok (b, rest)) :
    b.length ≤ max := by
  obtain ⟨len, mid, hlen, h⟩ := bind_eq_ok.mp h
  split at h
  · cases h
  · rw [(exact_take h).2]
    omega

theorem toVec_eq_ok {bs rest : Bytes} (h : (toVec what max).result bs = .ok (b, rest)) :
    (bytes what max).result bs = .ok (b, rest) := by
  obtain ⟨b', mid, hb, h⟩ := bind_eq_ok.mp h
  obtain ⟨⟨⟩, mid', halloc, h⟩ := bind_eq_ok.mp h
  cases halloc
  cases h
  exact hb

theorem exact_toVec (what : String) (max : Nat) : Exact Encoder.bytes (toVec what max) :=
  fun _ _ _ h ↦ exact_bytes what max (toVec_eq_ok h)

/-- A text has no other bytes than its own. -/
theorem strBytes_of_fromUTF8? {b : Bytes} {s : String}
    (h : String.fromUTF8? ⟨b.toArray⟩ = some s) : strBytes s = b := by
  rw [String.fromUTF8?] at h
  split at h
  · cases h
    rfl
  · cases h

theorem exact_string (what : String) (max : Nat) : Exact Encoder.string (string what max) := by
  intro bs s rest h
  obtain ⟨b, mid, hb, h⟩ := bind_eq_ok.mp h
  split at h
  · rename_i s' hs
    cases h
    rw [exact_toVec what max hb, Encoder.string, strBytes_of_fromUTF8? hs]
  · cases h

theorem count_eq_ok {n : Nat} {bs rest : Bytes}
    (h : (count what max minItemSize).result bs = .ok (n, rest)) :
    bs = Encoder.u32 (UInt32.ofNat n) ++ rest ∧ n ≤ max := by
  obtain ⟨c, mid, hc, h⟩ := bind_eq_ok.mp h
  split at h
  · cases h
  · obtain ⟨left, mid', hleft, h⟩ := bind_eq_ok.mp h
    cases hleft
    split at h
    · cases h
    · cases h
      rw [exact_u32 hc, UInt32.ofNat_toNat]
      exact ⟨rfl, by omega⟩

theorem exact_vec {α : Type} {item : Decoder α} {write : α → Bytes} (hitem : Exact write item) :
    Exact (Encoder.vec write) (vec what max minItemSize item) := by
  intro bs as rest h
  obtain ⟨n, mid, hn, h⟩ := bind_eq_ok.mp h
  obtain ⟨⟨⟩, mid', halloc, h⟩ := bind_eq_ok.mp h
  cases halloc
  obtain ⟨rfl, rfl⟩ := hitem.repeated h
  rw [(count_eq_ok hn).1, Encoder.vec, List.append_assoc]

/-! ## What is allocated -/

/-- `p` never allocates more than the cap of a field, nor more bytes than it takes. -/
structure Frugal {α : Type} (p : Decoder α) : Prop where
  capped : Spends Allocation.Capped p
  within : Within Allocation.cost p

section Frugal

variable {α β : Type} {p : Decoder α} {f : α → Decoder β}

theorem Frugal.bind (hp : Frugal p) (hf : ∀ a, Frugal (f a)) : Frugal (p >>= f) :=
  ⟨hp.capped.bind fun a ↦ (hf a).capped, hp.within.bind fun a ↦ (hf a).within⟩

theorem frugal_pure (a : α) : Frugal (pure a : Decoder α) := ⟨spends_pure, within_pure⟩

theorem frugal_fail (e : DecodeError) : Frugal (fail e : Decoder α) :=
  ⟨spends_fail e, within_fail e⟩

theorem Frugal.ite {c : Prop} [Decidable c] {q : Decoder α} (hp : Frugal p) (hq : Frugal q) :
    Frugal (if c then p else q) := by
  split
  · exact hp
  · exact hq

theorem frugal_take (n : Nat) : Frugal (take .truncated n) := ⟨spends_take _ n, within_take _ n⟩

theorem frugal_left : Frugal left :=
  ⟨.of_log_eq_nil fun _ ↦ rfl, .of_log_eq_nil (fun _ ↦ rfl) fun _ _ _ h ↦ by
    cases h
    exact Nat.le_refl _⟩

theorem frugal_le (k : Nat) : Frugal (le k) := (frugal_take k).bind fun _ ↦ frugal_pure _

theorem frugal_u8 : Frugal u8 := (frugal_le 1).bind fun _ ↦ frugal_pure _
theorem frugal_u16 : Frugal u16 := (frugal_le 2).bind fun _ ↦ frugal_pure _
theorem frugal_u32 : Frugal u32 := (frugal_le 4).bind fun _ ↦ frugal_pure _
theorem frugal_u64 : Frugal u64 := (frugal_le 8).bind fun _ ↦ frugal_pure _
theorem frugal_i64 : Frugal i64 := frugal_u64.bind fun _ ↦ frugal_pure _

theorem frugal_bool : Frugal bool :=
  frugal_u8.bind fun _ ↦ (frugal_pure _).ite ((frugal_pure _).ite (frugal_fail _))

theorem frugal_hash : Frugal hash := ⟨spends_takeFixed _ 32, within_takeFixed _ 32⟩

theorem log_bytes (what : String) (max : Nat) (bs : Bytes) : (bytes what max).log bs = [] := by
  have hle : Spends (fun _ ↦ False) (le 4) := (spends_take _ 4).bind fun _ ↦ spends_pure
  have hu32 : Spends (fun _ ↦ False) u32 := hle.bind fun _ ↦ spends_pure
  have hbytes : Spends (fun _ ↦ False) (bytes what max) := by
    refine hu32.bind fun len ↦ ?_
    split
    · exact spends_fail _
    · exact spends_take _ _
  exact List.eq_nil_iff_forall_not_mem.mpr (hbytes bs)

/-- The copy of a field is paid for by the field. -/
theorem frugal_toVec (what : String) (max : Nat) : Frugal (toVec what max) := by
  constructor
  · intro bs x hx
    rw [toVec] at hx
    cases hb : (bytes what max).result bs with
    | error e =>
      rw [(bind_of_error hb).2, log_bytes] at hx
      cases hx
    | ok r =>
      rw [(bind_of_ok hb).2, log_bytes] at hx
      obtain rfl := List.mem_singleton.mp hx
      exact length_bytes hb
  · intro bs
    rw [toVec]
    cases hb : (bytes what max).result bs with
    | error e =>
      rw [(bind_of_error hb).1, (bind_of_error hb).2, log_bytes]
      exact Nat.zero_le _
    | ok r =>
      obtain ⟨b, rest⟩ := r
      rw [(bind_of_ok hb).1, (bind_of_ok hb).2, log_bytes, exact_bytes what max hb]
      show b.length + 0 + rest.length ≤ _
      simp [Encoder.bytes]

/-- Room for a list is made only when its count is within the cap. -/
theorem frugal_vec {what : String} {max minItemSize : Nat} {item : Decoder α}
    (hitem : Frugal item) : Frugal (vec what max minItemSize item) := by
  have hcount : Frugal (count what max minItemSize) :=
    frugal_u32.bind fun _ ↦ (frugal_fail _).ite <| frugal_left.bind fun _ ↦
      (frugal_fail _).ite (frugal_pure _)
  have hrepeated : ∀ n, Frugal (repeated item n) := fun n ↦
    ⟨hitem.capped.repeated n, hitem.within.repeated n⟩
  constructor
  · intro bs x hx
    rw [vec] at hx
    cases hn : (count what max minItemSize).result bs with
    | error e =>
      rw [(bind_of_error hn).2] at hx
      exact hcount.capped bs x hx
    | ok r =>
      rw [(bind_of_ok hn).2, (bind_of_ok (show (alloc _).result _ = .ok ((), _) from rfl)).2] at hx
      rcases List.mem_append.mp hx with hx | hx
      · exact hcount.capped bs x hx
      · rcases List.mem_append.mp hx with hx | hx
        · obtain rfl := List.mem_singleton.mp hx
          exact (count_eq_ok hn).2
        · exact (hrepeated r.1).capped r.2 x hx
  · refine hcount.within.bind fun n ↦ Within.bind ?_ fun _ ↦ (hrepeated n).within
    intro bs
    show 0 + 0 + bs.length ≤ bs.length
    omega

theorem frugal_string (what : String) (max : Nat) : Frugal (string what max) := by
  refine (frugal_toVec what max).bind fun b ↦ ?_
  split
  · exact frugal_pure _
  · exact frugal_fail _

end Frugal

end Decoder

end PlayTogether

end SuperShuckie
