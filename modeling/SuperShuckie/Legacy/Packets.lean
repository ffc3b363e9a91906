import SuperShuckie.Convert.Job
import SuperShuckie.Lib.Fallible

/-!
# Replays of the original Super Shuckie

An old file is a header of 512 bytes and a stream of packets, each a delay in frames, a type and a
payload.  The stream may be compressed; what it delivers, and how it ends, is given here.

`Delivers` says which packets a stream consists of, and at which frames.  A stream that is cut
inside a packet, or that holds a packet of a type that is not known, delivers none
(`not_delivers_of_cut`, `not_delivers_of_unknown`), and counting its frames fails
(`countFrames_fails`).
-/

set_option autoImplicit false

namespace SuperShuckie

namespace Legacy

open ByteFormat SuperShuckie.Convert Fallible Reader

/-! ## The header -/

/-- First eight bytes of an old file, "GameREC>". -/
def legacyMagic : Bytes := [0x47, 0x61, 0x6D, 0x65, 0x52, 0x45, 0x43, 0x3E]

def headerSize : Nat := 512

/-- What the header of an old file says. -/
structure LegacyHeader where
  /-- The file name of the ROM, as bytes. -/
  romName : Bytes
  romSha256 : Bytes
  /-- Whether the stream of packets is compressed. -/
  compressed : Bool
deriving DecidableEq

def parseHeader (header : Bytes) : Option LegacyHeader :=
  if header.take 8 ≠ legacyMagic ∨ (header.drop 8).take 8 ≠ .replicate 8 0 then none
  else some
    { romName := ((header.drop 32).take 32).takeWhile (· ≠ 0)
      romSha256 := (header.drop 96).take 32
      compressed := header.getD 160 0 &&& 1 ≠ 0 }

/-- Read the header of an old file. -/
def readLegacyHeader (path : String) (file : Bytes) : Except String LegacyHeader :=
  if file.length < headerSize then
    .error s!"cannot read the header of {path}: failed to fill whole buffer"
  else
    match parseHeader (file.take headerSize) with
    | some header => .ok header
    | none => .error s!"{path} is not a replay of the original Super Shuckie"

/-! ## Packets -/

/-- One packet of an old file, as far as importing cares. -/
inductive LegacyPacket
  | addState (index : UInt32) (data : Bytes)
  | loadState (index : UInt32)
  | input (mask : UInt8)
  | writeMemory (bank address : UInt16) (byte : UInt8)
  | reset
  /-- Anything that does not change the emulation. -/
  | ignored
deriving DecidableEq

/-- A failure to read. -/
structure IoError where
  /-- The stream ended too early (`ErrorKind::UnexpectedEof`). -/
  unexpectedEof : Bool
  text : String
deriving DecidableEq

/-- `u64::from_be_bytes`, of any width. -/
def beNat (bytes : Bytes) : Nat := bytes.foldl (fun n b ↦ n * 256 + b.toNat) 0

/-- Most bytes that a packet may carry. -/
def maxState : Nat := 64 * 2 ^ 20

section Reading

variable (e : IoError)

/-- Bytes that come after their number. -/
def sized (lengthWidth : Nat) : Reader IoError Bytes := do
  let length ← Reader.takeBytes e lengthWidth
  if maxState < beNat length then throw ⟨false, "a packet claims an implausible size"⟩
  else Reader.takeBytes e (beNat length)

/-- A packet of which only the length matters. -/
def skipped (payload : Reader IoError Bytes) : Reader IoError LegacyPacket := do
  let _ ← payload
  pure .ignored

def addState : Reader IoError LegacyPacket := do
  let data ← sized e 8
  let index ← Reader.takeBytes e 4
  pure (.addState (.ofNat (beNat index)) data)

def writeMemory : Reader IoError LegacyPacket := do
  let address ← Reader.takeBytes e 4
  let byte ← Reader.takeByte e
  pure (.writeMemory (.ofNat (beNat address / 2 ^ 16)) (.ofNat (beNat address)) byte)

/-- What follows the type of a packet, if the type is known. -/
def payload (kind : UInt8) : Option (Reader IoError LegacyPacket) :=
  match kind.toNat with
  -- custom data
  | 0 => some (skipped (do
    let _ ← Reader.takeBytes e 32
    sized e 8))
  -- load SRAM (the first state carries it anyway)
  | 1 => some (skipped (sized e 8))
  -- game speed (pacing only)
  | 2 => some (skipped (Reader.takeBytes e 2))
  -- bookmark
  | 3 => some (skipped (Reader.takeBytes e 32))
  | 4 => some (do
    let mask ← Reader.takeByte e
    pure (.input mask))
  | 5 => some (skipped (Reader.takeBytes e 2))
  | 6 => some (skipped (Reader.takeBytes e 4))
  | 7 => some (skipped (Reader.takeBytes e 8))
  | 8 => some (skipped (sized e 1))
  | 9 => some (skipped (sized e 2))
  | 10 => some (skipped (sized e 4))
  | 11 => some (skipped (sized e 8))
  | 12 => some (addState e)
  | 13 => some (do
    let index ← Reader.takeBytes e 4
    pure (.loadState (.ofNat (beNat index))))
  | 14 => some (writeMemory e)
  | 15 => some (skipped (Reader.takeBytes e 9))
  | 16 => some (skipped (Reader.takeBytes e 5))
  | 17 => some (skipped (Reader.takeBytes e 9))
  | 18 => some (pure .reset)
  | 255 => some (pure .ignored)
  | _ => none

def packet : Reader IoError LegacyPacket := do
  let kind ← Reader.takeByte e
  match payload e kind with
  | some rest => rest
  | none => throw ⟨false, s!"unknown packet type {kind.toNat}"⟩

end Reading

/-! ## The stream -/

/-- The stream after the header: the bytes it delivers, and the failure that it ends with, if it
does. -/
structure LegacyStream where
  bytes : Bytes
  failure : Option IoError
deriving DecidableEq

/-- What a read fails with that the stream has too few bytes for. -/
def LegacyStream.shortRead (stream : LegacyStream) : IoError :=
  stream.failure.getD ⟨true, "failed to fill whole buffer"⟩

/-- Reads packets, tracking the frame each one applies at. -/
structure PacketReader where
  stream : LegacyStream
  frame : Nat
deriving DecidableEq

/-- The next packet and the frame it applies at; `none` at the end of the stream. -/
def PacketReader.next (r : PacketReader) :
    Except String (Option ((Nat × LegacyPacket) × PacketReader)) :=
  match r.stream.bytes with
  | [] =>
    match r.stream.failure with
    | none => .ok none
    | some e => .error e.text
  | delay :: bytes =>
    match packet r.stream.shortRead bytes with
    | .error e =>
      .error (if e.unexpectedEof then "the replay ends in the middle of a packet" else e.text)
    | .ok (packet, bytes) =>
      .ok (some ((r.frame + delay.toNat, packet),
        ⟨⟨bytes, r.stream.failure⟩, r.frame + delay.toNat⟩))

/-- The packets after the header of a file.  `decompress` stands for zstd. -/
def openPackets (decompress : Bytes → LegacyStream) (path : String) (file : Bytes) :
    Except String (LegacyHeader × PacketReader) := do
  let header ← readLegacyHeader path file
  let body := file.drop headerSize
  pure (header, ⟨if header.compressed then decompress body else ⟨body, none⟩, 0⟩)

/-- The loop of `count_frames`, `n` packets from the start.  Every packet has a byte at least. -/
def countFramesFrom (cancelled : Nat → Bool) : Nat → PacketReader → Nat → Nat →
    Fallible ConvertError Nat
  | 0, _, _, _ => panics
  | fuel + 1, r, frames, n =>
    match r.next with
    | .error e => throw (.failed e)
    | .ok none => pure frames
    | .ok (some ((frame, _), r)) =>
      if (n + 1) % 4096 = 0 ∧ cancelled (n + 1) then throw .cancelled
      else countFramesFrom cancelled fuel r frame (n + 1)

/-- Number of frames in an old file. -/
def countFrames (cancelled : Nat → Bool) (r : PacketReader) : Fallible ConvertError Nat :=
  countFramesFrom cancelled (r.stream.bytes.length + 1) r 0 0

/-! ## What a stream delivers -/

/-- A reader delivers packets, at their frames, up to the end of its stream. -/
inductive Delivers : PacketReader → List (Nat × LegacyPacket) → Prop
  | nil {r : PacketReader} : r.next = .ok none → Delivers r []
  | cons {r r' : PacketReader} {packet : Nat × LegacyPacket} {packets : List (Nat × LegacyPacket)} :
      r.next = .ok (some (packet, r')) → Delivers r' packets → Delivers r (packet :: packets)

variable {r r' : PacketReader} {packet' : Nat × LegacyPacket}
  {packets packets' : List (Nat × LegacyPacket)}

theorem Delivers.unique (h : Delivers r packets) (h' : Delivers r packets') :
    packets = packets' := by
  induction h generalizing packets' with
  | nil hnone =>
    cases h' with
    | nil _ => rfl
    | cons hsome _ => cases hnone.symm.trans hsome
  | cons hsome _ ih =>
    cases h' with
    | nil hnone => cases hnone.symm.trans hsome
    | cons hsome' hrest =>
      cases hsome.symm.trans hsome'
      rw [ih hrest]

/-- The frame of the last packet, if there is one. -/
def lastFrame (frame : Nat) (packets : List (Nat × LegacyPacket)) : Nat :=
  (packets.getLast?.map Prod.fst).getD frame

theorem lastFrame_cons (frame : Nat) (packet : Nat × LegacyPacket)
    (packets : List (Nat × LegacyPacket)) :
    lastFrame frame (packet :: packets) = lastFrame packet.1 packets := by
  cases packets with
  | nil => rfl
  | cons second packets =>
    rw [lastFrame, lastFrame, List.getLast?_cons_cons]
    rw [List.getLast?_eq_some_getLast (List.cons_ne_nil second packets)]
    rfl

/-! ## Reading a packet -/

theorem stable_sized (e : IoError) (lengthWidth : Nat) : Reader.Stable (sized e lengthWidth) :=
  (stable_takeBytes e lengthWidth).bind fun _ ↦
    (stable_throw _).ite (stable_takeBytes e _)

theorem stable_skipped {payload : Reader IoError Bytes} (h : payload.Stable) :
    Reader.Stable (skipped payload) :=
  h.bind fun _ ↦ stable_pure _

theorem stable_payload {e : IoError} {kind : UInt8} {rest : Reader IoError LegacyPacket}
    (h : payload e kind = some rest) : rest.Stable := by
  rw [payload] at h
  split at h
  case h_1 =>
    cases h
    exact stable_skipped ((stable_takeBytes e 32).bind fun _ ↦ stable_sized e 8)
  case h_5 =>
    cases h
    exact (stable_takeByte e).bind fun _ ↦ stable_pure _
  case h_13 =>
    cases h
    exact (stable_sized e 8).bind fun _ ↦ (stable_takeBytes e 4).bind fun _ ↦
      stable_pure _
  case h_14 =>
    cases h
    exact (stable_takeBytes e 4).bind fun _ ↦ stable_pure _
  case h_15 =>
    cases h
    exact (stable_takeBytes e 4).bind fun _ ↦ (stable_takeByte e).bind fun _ ↦
      stable_pure _
  case h_19 | h_20 =>
    cases h
    exact stable_pure _
  case h_2 | h_9 | h_10 | h_11 | h_12 =>
    cases h
    exact stable_skipped (stable_sized e _)
  case h_21 => cases h
  all_goals
    cases h
    exact stable_skipped (stable_takeBytes e _)

theorem stable_packet (e : IoError) : Reader.Stable (packet e) := by
  refine (stable_takeByte e).bind fun kind ↦ ?_
  cases hpayload : payload e kind with
  | some rest => exact stable_payload hpayload
  | none => exact stable_throw _

/-- A packet is at least as long as its delay. -/
theorem length_next (h : r.next = .ok (some (packet', r'))) :
    r'.stream.bytes.length < r.stream.bytes.length ∧ r.frame ≤ r'.frame ∧
      packet'.1 = r'.frame ∧ r'.stream.failure = r.stream.failure := by
  rw [PacketReader.next] at h
  cases hbytes : r.stream.bytes with
  | nil =>
    rw [hbytes] at h
    cases hfailure : r.stream.failure <;> rw [hfailure] at h <;> cases h
  | cons delay bytes =>
    rw [hbytes] at h
    dsimp only at h
    cases hpacket : packet r.stream.shortRead bytes with
    | error e =>
      rw [hpacket] at h
      cases h
    | ok read =>
      rw [hpacket] at h
      cases h
      have hle := (stable_packet _).length_le hpacket
      exact ⟨Nat.lt_succ_of_le hle, Nat.le_add_right _ _, rfl, rfl⟩

/-! ## Counting the frames -/

theorem countFramesFrom_spec (cancelled : Nat → Bool) {fuel : Nat} {r : PacketReader}
    (hfuel : r.stream.bytes.length < fuel) (frames n : Nat) :
    Returns (countFramesFrom cancelled fuel r frames n) ∧
      ∀ total, Gives (countFramesFrom cancelled fuel r frames n) total →
        ∃ packets, Delivers r packets ∧ total = lastFrame frames packets := by
  induction fuel generalizing r frames n with
  | zero => omega
  | succ fuel ih =>
    rw [countFramesFrom]
    cases hnext : r.next with
    | error e => exact ⟨returns_throw, fun total h ↦ absurd h not_gives_throw⟩
    | ok read =>
      cases read with
      | none =>
        refine ⟨returns_pure, fun total h ↦ ⟨[], .nil hnext, ?_⟩⟩
        exact (gives_pure_iff.1 h).symm
      | some read =>
        obtain ⟨⟨frame, packet⟩, r'⟩ := read
        obtain ⟨hlen, -⟩ := length_next hnext
        dsimp only
        split_ifs with hcancel
        · exact ⟨returns_throw, fun total h ↦ absurd h not_gives_throw⟩
        · obtain ⟨hreturns, hgives⟩ := ih (r := r') (by omega) frame (n + 1)
          refine ⟨hreturns, fun total h ↦ ?_⟩
          obtain ⟨packets, hdelivers, htotal⟩ := hgives total h
          exact ⟨_, .cons hnext hdelivers, by rw [lastFrame_cons, htotal]⟩

/-- **Counting the frames of a stream** reads all of it, to the last packet's frame. -/
theorem countFrames_gives {cancelled : Nat → Bool} {total : Nat}
    (h : Gives (countFrames cancelled r) total) :
    ∃ packets, Delivers r packets ∧ total = lastFrame 0 packets :=
  (countFramesFrom_spec cancelled (Nat.lt_succ_self _) 0 0).2 total h

/-- A stream that is not made of packets is refused. -/
theorem countFrames_fails (cancelled : Nat → Bool) (h : ¬ ∃ packets, Delivers r packets) :
    ∃ e, Fails (countFrames cancelled r) e := by
  obtain ⟨result, hresult⟩ := (countFramesFrom_spec cancelled (Nat.lt_succ_self _) 0 0).1
  cases result with
  | error e => exact ⟨e, hresult⟩
  | ok total =>
    obtain ⟨packets, hdelivers, -⟩ := countFrames_gives hresult
    exact absurd ⟨packets, hdelivers⟩ h

/-! ## Streams that are refused -/

/-- The bytes of a packet, its delay first. -/
def IsPacket (e : IoError) (bytes : Bytes) : Prop :=
  ∃ delay body read, bytes = delay :: body ∧ packet e body = .ok (read, [])

/-- The bytes of a packet but for the last ones. -/
def IsCutPacket (e : IoError) (bytes : Bytes) : Prop :=
  bytes ≠ [] ∧ ∃ missing ≠ [], IsPacket e (bytes ++ missing)

/-- The delay and the type of a packet, of a type that is not known. -/
def IsUnknown (bytes : Bytes) : Prop :=
  ∃ delay kind rest, bytes = delay :: kind :: rest ∧ 19 ≤ UInt8.toNat kind ∧ kind.toNat ≤ 254

theorem next_of_isPacket {bytes rest : Bytes} (h : IsPacket r.stream.shortRead bytes)
    (hbytes : r.stream.bytes = bytes ++ rest) :
    ∃ packet' frame, r.next = .ok (some (packet', ⟨⟨rest, r.stream.failure⟩, frame⟩)) := by
  obtain ⟨delay, body, read, rfl, hread⟩ := h
  have hmore := (stable_packet _).append hread rest
  rw [List.nil_append] at hmore
  refine ⟨(r.frame + delay.toNat, read), r.frame + delay.toNat, ?_⟩
  rw [PacketReader.next, hbytes, List.cons_append]
  dsimp only
  rw [hmore]

/-- What comes after whole packets decides whether a stream delivers packets. -/
theorem delivers_after {whole : List Bytes} {rest : Bytes}
    (hwhole : ∀ bytes ∈ whole, IsPacket r.stream.shortRead bytes)
    (hbytes : r.stream.bytes = whole.flatten ++ rest) (h : Delivers r packets) :
    ∃ frame packets', Delivers ⟨⟨rest, r.stream.failure⟩, frame⟩ packets' := by
  induction whole generalizing r packets with
  | nil =>
    obtain ⟨⟨bytes, failure⟩, frame⟩ := r
    cases hbytes
    exact ⟨frame, packets, h⟩
  | cons bytes whole ih =>
    rw [List.flatten_cons, List.append_assoc] at hbytes
    obtain ⟨packet', frame, hnext⟩ := next_of_isPacket (hwhole bytes List.mem_cons_self) hbytes
    cases h with
    | nil hnone => cases hnone.symm.trans hnext
    | cons hsome hrest =>
      cases hsome.symm.trans hnext
      exact @ih ⟨⟨whole.flatten ++ rest, r.stream.failure⟩, frame⟩ _
        (fun b hb ↦ hwhole b (List.mem_cons_of_mem _ hb)) rfl hrest

/-- Nothing is delivered where a packet cannot be read. -/
theorem not_delivers_of_error {stream : LegacyStream} {delay : UInt8} {rest : Bytes} {frame : Nat}
    (h : ∃ e, packet stream.shortRead rest = .error e) :
    ¬ Delivers ⟨⟨delay :: rest, stream.failure⟩, frame⟩ packets := by
  obtain ⟨e, he⟩ := h
  have hshort : LegacyStream.shortRead ⟨delay :: rest, stream.failure⟩ = stream.shortRead := rfl
  have hnext : ∃ message,
      PacketReader.next ⟨⟨delay :: rest, stream.failure⟩, frame⟩ = .error message := by
    rw [PacketReader.next]
    dsimp only
    rw [hshort, he]
    exact ⟨_, rfl⟩
  obtain ⟨message, hmessage⟩ := hnext
  intro hdelivers
  cases hdelivers with
  | nil hnone => cases hnone.symm.trans hmessage
  | cons hsome _ => cases hsome.symm.trans hmessage

/-- **A stream that is cut inside a packet** delivers no packets. -/
theorem not_delivers_of_cut {whole : List Bytes} {cut : Bytes}
    (hwhole : ∀ bytes ∈ whole, IsPacket r.stream.shortRead bytes)
    (hcut : IsCutPacket r.stream.shortRead cut) (hbytes : r.stream.bytes = whole.flatten ++ cut) :
    ¬ ∃ packets, Delivers r packets := by
  rintro ⟨packets, h⟩
  obtain ⟨frame, packets', hafter⟩ := delivers_after hwhole hbytes h
  obtain ⟨hne, missing, hmissing, delay, body, read, hpacket, hread⟩ := hcut
  obtain ⟨first, rest, rfl⟩ := List.exists_cons_of_ne_nil hne
  rw [List.cons_append] at hpacket
  obtain ⟨rfl, rfl⟩ := List.cons.inj hpacket
  have hshort (read' : LegacyPacket) (rest' : Bytes) :
      packet r.stream.shortRead rest ≠ .ok (read', rest') := by
    intro h
    have hmore := (stable_packet _).append h missing
    rw [hread, Except.ok.injEq, Prod.mk.injEq] at hmore
    exact hmissing (List.append_eq_nil_iff.1 hmore.2.symm).2
  have herror : ∃ e, packet r.stream.shortRead rest = .error e := by
    cases hcase : packet r.stream.shortRead rest with
    | error e => exact ⟨e, rfl⟩
    | ok result => exact absurd hcase (hshort result.1 result.2)
  exact not_delivers_of_error herror hafter

/-- **A stream with a packet of an unknown type** delivers no packets. -/
theorem not_delivers_of_unknown {whole : List Bytes} {rest : Bytes}
    (hwhole : ∀ bytes ∈ whole, IsPacket r.stream.shortRead bytes) (hunknown : IsUnknown rest)
    (hbytes : r.stream.bytes = whole.flatten ++ rest) : ¬ ∃ packets, Delivers r packets := by
  rintro ⟨packets, h⟩
  obtain ⟨frame, packets', hafter⟩ := delivers_after hwhole hbytes h
  obtain ⟨delay, kind, rest, rfl, hfrom, hto⟩ := hunknown
  have hnone (e : IoError) : payload e kind = none := by
    rw [payload]
    split <;> first | rfl | omega
  have hpacket (e : IoError) : ∃ e', packet e (kind :: rest) = .error e' := by
    refine ⟨⟨false, s!"unknown packet type {kind.toNat}"⟩, ?_⟩
    rw [packet, bind_apply]
    show (match payload e kind with
      | some rest => rest
      | none => throw ⟨false, s!"unknown packet type {kind.toNat}"⟩ : Reader IoError LegacyPacket)
        rest = _
    rw [hnone]
    rfl
  exact not_delivers_of_error (hpacket _) hafter

end Legacy

end SuperShuckie
