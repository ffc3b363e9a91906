import SuperShuckie.Lib.LittleEndian

/-!
# Game Boy serial events

Everything a Game Boy received over its link cable during a frame is logged as a list of
`GbSerialEvent`s, and travels as the bytes of a `SerialIn` packet: a run of tagged groups, where
consecutive events of the same kind share a group.

* `GbSerialEvents.encode`, `GbSerialEvents.decode` — the two directions.
* `GbSerialEvents.map_packedBit_packBits`, `GbSerialEvents.reads_slaveBits` — the bits of a group are
  read back, slave bits if they come in the order of their cycles.
-/

set_option autoImplicit false

namespace SuperShuckie

open ByteFormat Reader

/-- Why a link operation failed. -/
inductive LinkError
  | incompatiblePartner
  | notConnected
  | badSerialData (what : String)
  | deadlock
  | emulator (what : String)
deriving DecidableEq

/-- One thing a Game Boy received over its link cable during a frame. -/
inductive GbSerialEvent
  /-- A bit the console received while it was the transfer's master. -/
  | masterBit (bit : Bool)
  /-- A bit shifted into the console while it was the slave, `cycles` after the frame boundary. -/
  | slaveBit (cycles : UInt64) (bit : Bool)
  /-- The cable was plugged in or pulled. -/
  | connected (connected : Bool)
deriving DecidableEq

namespace GbSerialEvents

open GbSerialEvent

def tagMaster : UInt8 := 0x01
def tagSlave : UInt8 := 0x02
def tagInfrared : UInt8 := 0x03
def tagConnected : UInt8 := 0x04

/-- Most events one `SerialIn` packet may describe. -/
def maxGbEvents : Nat := 65536

/-! ## Encoding -/

/-- Append a LEB128 varint (`push_varint`). -/
def pushVarint (value : UInt64) : Bytes := leb128 value.toNat

/-- The bits from the `n`-th on, packed MSB first behind what `byte` holds already. -/
def packBits : Nat → UInt8 → List Bool → Bytes
  | n, byte, [] => if n % 8 = 0 then [] else [byte]
  | n, byte, bit :: bits =>
    let byte := byte ||| (bit.toUInt8 <<< (7 - UInt8.ofNat (n % 8)))
    if n % 8 = 7 then byte :: packBits (n + 1) 0 bits else packBits (n + 1) byte bits

/-- The slave bits of a group, each at its distance from the one before it. -/
def pushSlaveBits : UInt64 → List (UInt64 × Bool) → Bytes
  | _, [] => []
  | previous, (cycles, bit) :: bits =>
    pushVarint (if previous ≤ cycles then cycles - previous else 0) ++
      bit.toUInt8 :: pushSlaveBits cycles bits

/-- The master bits at the front of a log. -/
def spanMaster : List GbSerialEvent → List Bool × List GbSerialEvent
  | masterBit bit :: events => ((bit :: (spanMaster events).1), (spanMaster events).2)
  | events => ([], events)

/-- The slave bits at the front of a log. -/
def spanSlave : List GbSerialEvent → List (UInt64 × Bool) × List GbSerialEvent
  | slaveBit cycles bit :: events => (((cycles, bit) :: (spanSlave events).1), (spanSlave events).2)
  | events => ([], events)

/-- Encode a log of at most `fuel` groups. -/
def encodeGo : Nat → List GbSerialEvent → Bytes
  | 0, _ => []
  | _, [] => []
  | fuel + 1, masterBit bit :: events =>
    let (bits, rest) := spanMaster (masterBit bit :: events)
    tagMaster :: (pushVarint (UInt64.ofNat bits.length) ++ packBits 0 0 bits) ++ encodeGo fuel rest
  | fuel + 1, slaveBit cycles bit :: events =>
    let (bits, rest) := spanSlave (slaveBit cycles bit :: events)
    tagSlave :: (pushVarint (UInt64.ofNat bits.length) ++ pushSlaveBits 0 bits) ++ encodeGo fuel rest
  | fuel + 1, connected c :: events => tagConnected :: c.toUInt8 :: encodeGo fuel events

/-- The encoding of a log; nothing for no events. -/
def encode (events : List GbSerialEvent) : Bytes := encodeGo events.length events

/-! ## Decoding -/

/-- Read a LEB128 varint (`read_varint`), whose next group stands at bit `shift`. -/
def readVarintGo : Bytes → Nat → Nat → Except LinkError (Nat × Bytes)
  | [], _, _ => .error (.badSerialData "truncated varint")
  | byte :: rest, shift, value =>
    let bits := byte.toNat % 128
    if 64 ≤ shift ∨ (shift = 63 ∧ 1 < bits) then .error (.badSerialData "varint too long")
    else if byte.toNat < 128 then .ok (value + bits * 2 ^ shift, rest)
    else readVarintGo rest (shift + 7) (value + bits * 2 ^ shift)

/-- Read a LEB128 varint. -/
def readVarint : Reader LinkError Nat := fun data ↦ readVarintGo data 0 0

/-- The `n`-th of the bits that are packed MSB first. -/
def packedBit (packed : Bytes) (n : Nat) : Bool :=
  packed.getD (n / 8) 0 &&& (0x80 >>> UInt8.ofNat (n % 8)) ≠ 0

/-- Read `count` slave bits, the first at its distance from `cycles`. -/
def readSlaveBits : Nat → UInt64 → Reader LinkError (List GbSerialEvent)
  | 0, _ => pure []
  | count + 1, cycles => do
    let delta ← readVarint
    if 2 ^ 64 ≤ cycles.toNat + delta then throw (.badSerialData "slave bit cycle overflow") else
    let cycles := cycles + UInt64.ofNat delta
    let bit ← takeByte (.badSerialData "truncated slave bit")
    if 1 < bit then throw (.badSerialData s!"slave bit value {bit}") else
    let bits ← readSlaveBits count cycles
    pure (slaveBit cycles (bit ≠ 0) :: bits)

/-- A byte in two hexadecimal digits. -/
def hexByte (byte : UInt8) : String :=
  let digit := fun n ↦ (Nat.digitChar n).toUpper
  String.ofList [digit (byte.toNat / 16), digit (byte.toNat % 16)]

/-- Read a group of events after its tag, when `already` events were read before it. -/
def readGroup (already : Nat) (tag : UInt8) : Reader LinkError (List GbSerialEvent) :=
  if tag = tagMaster then do
    let count ← readVarint
    if maxGbEvents < count ∨ maxGbEvents < already + count then
      throw (.badSerialData s!"{count} master bits in one frame") else
    let packed ← takeBytes (.badSerialData "truncated master bits") ((count + 7) / 8)
    pure ((List.range count).map fun n ↦ masterBit (packedBit packed n))
  else if tag = tagSlave then do
    let count ← readVarint
    if maxGbEvents < count ∨ maxGbEvents < already + count then
      throw (.badSerialData s!"{count} slave bits in one frame") else
    readSlaveBits count 0
  else if tag = tagConnected then do
    let c ← takeByte (.badSerialData "truncated connected flag")
    if 1 < c then throw (.badSerialData s!"connected flag {c}") else
    pure [connected (c ≠ 0)]
  else if tag = tagInfrared then
    throw (.badSerialData "infrared events are not supported by this version")
  else throw (.badSerialData s!"unknown event tag 0x{hexByte tag}")

/-- Decode at most `fuel` groups behind the events that were read already. -/
def decodeGo : Nat → List GbSerialEvent → Bytes → Except LinkError (List GbSerialEvent)
  | 0, events, _ => .ok events
  | _, events, [] => .ok events
  | fuel + 1, events, tag :: data => do
    let (group, rest) ← readGroup events.length tag data
    decodeGo fuel (events ++ group) rest

/-- Decode a packet's bytes into events, which takes as many groups as there are bytes at most. -/
def decode (data : Bytes) : Except LinkError (List GbSerialEvent) := decodeGo data.length [] data

/-! ## Groups are read back -/

theorem readVarintGo_of_readLeb128Go {data rest : Bytes} {shift value n : Nat}
    (h : readLeb128Go data shift value = some (n, rest)) :
    readVarintGo data shift value = .ok (n, rest) := by
  induction data generalizing shift value with
  | nil => cases h
  | cons byte data ih =>
    rw [readLeb128Go] at h
    rw [readVarintGo]
    split_ifs at h with hlong hlast
    · have hok : ¬ (64 ≤ shift ∨ (shift = 63 ∧ 1 < byte.toNat % 128)) := by omega
      cases h
      rw [if_neg hok, if_pos hlast]
    · have hok : ¬ (64 ≤ shift ∨ (shift = 63 ∧ 1 < byte.toNat % 128)) := by omega
      rw [if_neg hok, if_neg hlast]
      exact ih h

theorem reads_varint (value : UInt64) : Reads readVarint (pushVarint value) value.toNat := by
  intro rest
  exact readVarintGo_of_readLeb128Go (readLeb128_leb128 value.toNat_lt rest)

/-- Whether the `n`-th bit of a byte is set, MSB first. -/
theorem and_shiftRight_ne_zero_iff {byte : UInt8} {n : Nat} (hn : n < 8) :
    (byte &&& (0x80 >>> UInt8.ofNat n) ≠ 0) ↔ byte.toNat.testBit (7 - n) = true := by
  have hmask : (0x80 >>> UInt8.ofNat n : UInt8).toNat = 2 ^ (7 - n) := by
    interval_cases n <;> rfl
  rw [ne_eq, ← UInt8.toNat_inj, UInt8.toNat_and, hmask, Nat.and_two_pow]
  cases byte.toNat.testBit (7 - n) <;> simp

theorem testBit_or_shiftLeft {byte : UInt8} {bit : Bool} {k n : Nat} (hk : k < 8) (hn : n < 8) :
    (byte ||| (bit.toUInt8 <<< (7 - UInt8.ofNat k))).toNat.testBit (7 - n) =
      (byte.toNat.testBit (7 - n) || (decide (n = k) && bit)) := by
  have hshift : (bit.toUInt8 <<< (7 - UInt8.ofNat k)).toNat = bit.toNat * 2 ^ (7 - k) := by
    cases bit <;> interval_cases k <;> rfl
  rw [UInt8.toNat_or, hshift, Nat.testBit_or]
  congr 1
  cases bit with
  | false => simp
  | true =>
    rw [Bool.toNat_true, Nat.one_mul, Nat.testBit_two_pow, Bool.and_true]
    exact decide_eq_decide.mpr (by omega)

theorem packedBit_cons {byte : UInt8} {packed : Bytes} {n : Nat} : packedBit (byte :: packed) n =
      if n < 8 then byte.toNat.testBit (7 - n) else packedBit packed (n - 8) := by
  split_ifs with hn
  · rw [packedBit, Nat.div_eq_of_lt hn, Nat.mod_eq_of_lt hn, List.getD_cons_zero]
    exact Bool.eq_iff_iff.mpr (decide_eq_true_iff.trans (and_shiftRight_ne_zero_iff hn))
  · obtain ⟨m, rfl⟩ : ∃ m, n = m + 8 := ⟨n - 8, by omega⟩
    rw [packedBit, packedBit, Nat.add_div_right m (by omega), Nat.add_mod_right,
      Nat.add_sub_cancel, List.getD_cons_succ]

/-- The bits come out in order, behind those that the byte in progress held. -/
theorem packedBit_packBits {bits : List Bool} {n : Nat} {byte : UInt8} {i : Nat}
    (hfree : ∀ j, n % 8 ≤ j → j < 8 → byte.toNat.testBit (7 - j) = false)
    (hi : i < n % 8 + bits.length) : packedBit (packBits n byte bits) i =
      if i < n % 8 then byte.toNat.testBit (7 - i) else bits.getD (i - n % 8) false := by
  induction bits generalizing n byte i with
  | nil =>
    have hlt : i < n % 8 := hi
    have hn : n % 8 ≠ 0 := by omega
    rw [packBits, if_neg hn, packedBit_cons, if_pos (by omega), if_pos hlt]
  | cons bit bits ih =>
    rw [List.length_cons] at hi
    rw [packBits]
    have hk : n % 8 < 8 := Nat.mod_lt _ (by omega)
    generalize hbyte : byte ||| (bit.toUInt8 <<< (7 - UInt8.ofNat (n % 8))) = byte'
    have hbit : ∀ j, j < 8 → byte'.toNat.testBit (7 - j) =
        (byte.toNat.testBit (7 - j) || (decide (j = n % 8) && bit)) := fun j hj ↦ by
      rw [← hbyte, testBit_or_shiftLeft hk hj]
    -- what the first byte shows once the bit is in it
    have hshow : ∀ j, j < n % 8 + 1 → byte'.toNat.testBit (7 - j) =
        if j < n % 8 then byte.toNat.testBit (7 - j) else (bit :: bits).getD (j - n % 8) false := by
      intro j hj
      rw [hbit j (by omega)]
      split_ifs with hlt
      · have hne : j ≠ n % 8 := by omega
        rw [decide_eq_false hne, Bool.false_and, Bool.or_false]
      · have heq : j = n % 8 := by omega
        rw [hfree j (by omega) (by omega), heq]
        simp
    by_cases hseven : n % 8 = 7
    · have hnext : (n + 1) % 8 = 0 := by omega
      rw [if_pos hseven, packedBit_cons]
      by_cases hlt : i < 8
      · rw [if_pos hlt]
        exact hshow i (by omega)
      · have hrest := @ih (n + 1) 0 (i - 8) (fun j _ _ ↦ Nat.zero_testBit _)
          (by omega)
        rw [if_neg hlt, hrest, hnext, if_neg (by omega), if_neg (by omega)]
        obtain ⟨m, hm⟩ : ∃ m, i = m + 8 := ⟨i - 8, by omega⟩
        have hindex : i - n % 8 = (i - 8 - 0) + 1 := by omega
        rw [hindex, List.getD_cons_succ]
    · have hnext : (n + 1) % 8 = n % 8 + 1 := by omega
      rw [if_neg hseven]
      have hfree' : ∀ j, (n + 1) % 8 ≤ j → j < 8 → byte'.toNat.testBit (7 - j) = false := by
        intro j hj hlt
        rw [hbit j hlt, hfree j (by omega) hlt]
        have hne : j ≠ n % 8 := by omega
        rw [decide_eq_false hne, Bool.false_and, Bool.or_false]
      rw [ih hfree' (by omega), hnext]
      split_ifs with hlt hlt' hlt'
      · exact (hshow i (by omega)).trans (if_pos hlt')
      · exact (hshow i (by omega)).trans (if_neg hlt')
      · omega
      · have hindex : i - n % 8 = (i - (n % 8 + 1)) + 1 := by omega
        rw [hindex, List.getD_cons_succ]

theorem length_packBits {bits : List Bool} {n : Nat} {byte : UInt8} :
    (packBits n byte bits).length = (n % 8 + bits.length + 7) / 8 := by
  induction bits generalizing n byte with
  | nil =>
    rw [packBits, List.length_nil]
    split_ifs with h
    · rw [h, List.length_nil]
    · rw [List.length_singleton]
      omega
  | cons bit bits ih =>
    rw [packBits, List.length_cons]
    split_ifs with h
    · rw [List.length_cons, ih]
      omega
    · rw [ih]
      omega

theorem map_packedBit_packBits (bits : List Bool) :
    (List.range bits.length).map (fun n ↦ masterBit (packedBit (packBits 0 0 bits) n)) =
      bits.map masterBit := by
  refine List.ext_getElem (by simp) fun n hn _ ↦ ?_
  rw [List.length_map, List.length_range] at hn
  have hbit := @packedBit_packBits bits 0 0 n
    (fun j _ _ ↦ Nat.zero_testBit _) (by omega)
  simp only [List.getElem_map, List.getElem_range]
  rw [hbit, Nat.zero_mod, if_neg (Nat.not_lt_zero n), Nat.sub_zero, List.getD_eq_getElem _ _ hn]

/-- The bits come in the order of their cycles. -/
def InOrder : UInt64 → List (UInt64 × Bool) → Prop
  | _, [] => True
  | previous, (cycles, _) :: bits => previous ≤ cycles ∧ InOrder cycles bits

theorem reads_slaveBits {previous : UInt64} {bits : List (UInt64 × Bool)}
    (h : InOrder previous bits) :
    Reads (readSlaveBits bits.length previous) (pushSlaveBits previous bits)
      (bits.map fun b ↦ slaveBit b.1 b.2) := by
  induction bits generalizing previous with
  | nil => exact reads_pure _
  | cons b bits ih =>
    obtain ⟨cycles, bit⟩ := b
    obtain ⟨hle, hbits⟩ := h
    have hsub : (cycles - previous).toNat = cycles.toNat - previous.toNat :=
      UInt64.toNat_sub_of_le _ _ hle
    have hle' : previous.toNat ≤ cycles.toNat := UInt64.le_iff_toNat_le.mp hle
    have hfits : ¬ 2 ^ 64 ≤ previous.toNat + (cycles - previous).toNat := by
      have := cycles.toNat_lt
      omega
    have hcycles : previous + UInt64.ofNat (cycles - previous).toNat = cycles := by
      rw [UInt64.ofNat_toNat, UInt64.add_comm, UInt64.sub_add_cancel]
    rw [List.length_cons, readSlaveBits, pushSlaveBits, if_pos hle]
    refine (reads_varint _).bind ?_
    rw [if_neg hfits, hcycles]
    refine (reads_takeByte _ bit.toUInt8).bind ?_
    have hone : ¬ 1 < bit.toUInt8 := by cases bit <;> decide
    have hbit : decide (bit.toUInt8 ≠ 0) = bit := by cases bit <;> rfl
    rw [if_neg hone, hbit]
    exact (ih hbits).bind_pure

end GbSerialEvents

end SuperShuckie
