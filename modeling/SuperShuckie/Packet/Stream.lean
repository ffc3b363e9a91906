import SuperShuckie.Packet.IO

/-!
# Streams of packets

A stretch of packets is read front to back until it ends or a packet cannot be read.  Reading what
was written one packet after the other gives the packets back, each where it was written
(`readStream_append`).
-/

set_option autoImplicit false

namespace SuperShuckie

open ByteFormat ByteFormat.Reader Packet Returns

/-- Whether a packet is a keyframe of some kind. -/
def isKeyframeClass : Packet → Bool
  | .keyframe .. => true
  | .deltaKeyframe .. => true
  | .regionDeltaKeyframe .. => true
  | .storedKeyframe .. => true
  | _ => false

/-- Whether a packet is a full keyframe. -/
def isFullKeyframe : Packet → Bool
  | .keyframe .. => true
  | _ => false

/-- Whether a packet is a delta keyframe, of either kind, against the keyframe before it. -/
def isDelta : Packet → Bool
  | .deltaKeyframe .. => true
  | .regionDeltaKeyframe .. => true
  | _ => false

/-- The metadata of a keyframe of any kind. -/
def keyframeMetadata : Packet → Option KeyframeMetadata
  | .keyframe metadata _ => some metadata
  | .deltaKeyframe metadata _ => some metadata
  | .regionDeltaKeyframe metadata .. => some metadata
  | .storedKeyframe k => some k.metadata
  | _ => none

/-! ## Discriminators -/

theorem Packet.returns_payload (version : Nat) (d : PacketDiscriminator) :
    Returns (fun p ↦ isFullKeyframe p = true ↔ d = .keyframe) (readPayload version d) := by
  cases d with
  | noOp => exact pure (by simp [isFullKeyframe])
  | resetConsole => exact pure (by simp [isFullKeyframe])
  | keyframe =>
    exact bind fun _ ↦ bind fun _ ↦ pure (by simp [isFullKeyframe])
  | deltaKeyframe =>
    exact bind fun _ ↦ bind fun _ ↦ pure (by simp [isFullKeyframe])
  | regionDeltaKeyframe =>
    exact bind fun _ ↦ bind fun _ ↦ bind fun _ ↦ bind fun _ ↦
      pure (by simp [isFullKeyframe])
  | incrementCounter =>
    exact bind fun _ ↦ bind fun _ ↦ pure (by simp [isFullKeyframe])
  | writeMemory8 | writeMemory16 | writeMemory32 | writeMemoryVar =>
    exact bind fun _ ↦ bind fun _ ↦ pure (by simp [isFullKeyframe])
  | _ => exact map fun _ ↦ by simp [isFullKeyframe]

theorem PacketDiscriminator.toByte_of_tryFrom {b : UInt8} {d : PacketDiscriminator}
    (h : PacketDiscriminator.tryFrom b = some d) : d.toByte = b := by
  simpa using List.find?_some h

variable {version : Nat} {bs : Bytes}

/-- The first byte of a packet tells whether it is a full keyframe. -/
theorem Packet.isFullKeyframe_iff {b : UInt8} {rest : Bytes} {p : Packet}
    (h : readAll version (b :: bs) = .ok (p, rest)) :
    isFullKeyframe p = true ↔ b = PacketDiscriminator.keyframe.toByte := by
  rw [readAll_cons] at h
  cases hd : PacketDiscriminator.tryFrom b with
  | none => rw [hd] at h; cases h
  | some d =>
    rw [hd] at h
    have hreturns : isFullKeyframe p = true ↔ d = .keyframe := returns_payload version d bs p rest h
    rw [hreturns, ← PacketDiscriminator.toByte_of_tryFrom hd]
    constructor
    · rintro rfl
      rfl
    · intro heq
      have := PacketDiscriminator.tryFrom_toByte d
      rw [heq, PacketDiscriminator.tryFrom_toByte] at this
      exact (Option.some.inj this).symm

/-! ## Reading a stream -/

/-- A packet of a stream, and how many bytes were left before and after it. -/
structure PlacedPacket where
  packet : Packet
  before : Nat
  after : Nat

/-- Read packets until the stream ends or one cannot be read. -/
def readStreamGo (version : Nat) : Nat → Bytes → List PlacedPacket × Option PacketReadError
  | 0, _ => ([], none)
  | _, [] => ([], none)
  | fuel + 1, b :: bs =>
    match Packet.readAll version (b :: bs) with
    | .ok (packet, rest) =>
      let (packets, error) := readStreamGo version fuel rest
      (⟨packet, (b :: bs).length, rest.length⟩ :: packets, error)
    | .error e => ([], some e)

/-- Read packets until the stream ends or one cannot be read.  Every packet takes a byte. -/
def readStream (version : Nat) (bs : Bytes) : List PlacedPacket × Option PacketReadError :=
  readStreamGo version bs.length bs

/-- Reading a packet takes at least its discriminator. -/
theorem Packet.readAll_length_lt {rest : Bytes} {p : Packet}
    (h : readAll version bs = .ok (p, rest)) : rest.length < bs.length := by
  cases bs with
  | nil => cases h
  | cons b bs =>
    rw [readAll_cons] at h
    cases hd : PacketDiscriminator.tryFrom b with
    | none => rw [hd] at h; cases h
    | some d =>
      rw [hd] at h
      have := (stable_payload version d).length_le h
      simp only [List.length_cons]
      omega

theorem readStreamGo_eq {n : Nat} (h : bs.length ≤ n) :
    readStreamGo version n bs = readStream version bs := by
  rw [readStream]
  suffices key : ∀ n m bs, bs.length ≤ n → bs.length ≤ m →
      readStreamGo version n bs = readStreamGo version m bs from key n _ bs h le_rfl
  intro n
  induction n with
  | zero =>
    intro m bs hn _
    rw [List.length_eq_zero_iff.mp (by omega : bs.length = 0)]
    cases m <;> rfl
  | succ n ih =>
    intro m bs hn hm
    cases bs with
    | nil => cases m <;> rfl
    | cons b bs =>
      obtain ⟨m, rfl⟩ : ∃ k, m = k + 1 := ⟨m - 1, by simp only [List.length_cons] at hm; omega⟩
      simp only [readStreamGo]
      cases hread : readAll version (b :: bs) with
      | error e => rfl
      | ok r =>
        have hlt := readAll_length_lt hread
        simp only [List.length_cons] at hlt hn hm
        simp only [ih m r.2 (by omega) (by omega)]

theorem readStream_nil (version : Nat) : readStream version [] = ([], none) := rfl

/-- What is read when the stream starts with a packet. -/
theorem readStream_of_readAll {rest : Bytes} {p : Packet} (h : readAll version bs = .ok (p, rest)) :
    readStream version bs =
      (⟨p, bs.length, rest.length⟩ :: (readStream version rest).1, (readStream version rest).2) := by
  have hlt := readAll_length_lt h
  cases bs with
  | nil => cases h
  | cons b bs =>
    have hrest : readStreamGo version bs.length rest = readStream version rest :=
      readStreamGo_eq (by simp only [List.length_cons] at hlt; omega)
    simp only [readStream, List.length_cons, readStreamGo, h]
    rw [hrest]
    rfl

theorem readStream_of_error {e : PacketReadError} (hne : bs ≠ [])
    (h : readAll version bs = .error e) : readStream version bs = ([], some e) := by
  cases bs with
  | nil => exact absurd rfl hne
  | cons b bs => simp only [readStream, List.length_cons, readStreamGo, h]

/-- A packet of a stream is what is read at its place. -/
theorem readAll_of_mem_readStream {q : PlacedPacket} (h : q ∈ (readStream version bs).1) :
    q.after < q.before ∧ q.before ≤ bs.length ∧
      readAll version (bs.drop (bs.length - q.before)) =
        .ok (q.packet, bs.drop (bs.length - q.after)) := by
  induction hlen : bs.length using Nat.strongRecOn generalizing bs with
  | _ n ih =>
    subst hlen
    by_cases hne : bs = []
    · subst hne
      cases h
    cases hread : readAll version bs with
    | error e =>
      rw [readStream_of_error hne hread] at h
      cases h
    | ok r =>
      obtain ⟨packet, rest⟩ := r
      obtain ⟨pre, hsplit, -⟩ := stable version bs packet rest hread
      have hlt := readAll_length_lt hread
      have hdrop : ∀ k, k ≤ rest.length → bs.drop (bs.length - k) = rest.drop (rest.length - k) := by
        intro k hk
        rw [hsplit, List.length_append, show pre.length + rest.length - k =
          pre.length + (rest.length - k) by omega, List.drop_append]
        rw [List.drop_of_length_le (by omega), Nat.add_sub_cancel_left, List.nil_append]
      rw [readStream_of_readAll hread] at h
      obtain rfl | h := List.mem_cons.1 h
      · refine ⟨hlt, Nat.le_refl _, ?_⟩
        rw [hdrop rest.length (Nat.le_refl _), Nat.sub_self, Nat.sub_self]
        exact hread
      · obtain ⟨hafter, hbefore, hat⟩ := ih rest.length hlt h rfl
        refine ⟨hafter, by omega, ?_⟩
        rw [hdrop q.before hbefore, hdrop q.after (by omega)]
        exact hat

/-- The bytes of packets written one after the other, with what each of them is read as. -/
def writeStream (packets : List (Bytes × Packet)) : Bytes := packets.flatMap Prod.fst

/-- The packets written one after the other, each with the bytes left before and after it when
`more` bytes follow them all. -/
def placeStream : List (Bytes × Packet) → Nat → List PlacedPacket
  | [], _ => []
  | (bs, p) :: packets, more =>
    ⟨p, bs.length + (writeStream packets).length + more, (writeStream packets).length + more⟩ ::
      placeStream packets more

/-- **What was written is read back**, every packet in its place. -/
theorem readStream_append {packets : List (Bytes × Packet)}
    (h : ∀ e ∈ packets, Reads (readAll version) e.1 e.2) (rest : Bytes) :
    readStream version (writeStream packets ++ rest) =
      (placeStream packets rest.length ++ (readStream version rest).1,
        (readStream version rest).2) := by
  induction packets with
  | nil => rfl
  | cons e packets ih =>
    obtain ⟨bs, p⟩ := e
    have hread := h (bs, p) List.mem_cons_self (writeStream packets ++ rest)
    have hsplit : writeStream ((bs, p) :: packets) ++ rest =
        bs ++ (writeStream packets ++ rest) := by
      simp only [writeStream, List.flatMap_cons, List.append_assoc]
    rw [hsplit, readStream_of_readAll hread, ih fun e he ↦ h e (List.mem_cons_of_mem _ he)]
    simp only [placeStream, List.length_append, List.cons_append, Nat.add_assoc]

/-- **What is read of any bytes**: packets that stand one behind the other, to the end of the bytes or
to where nothing can be read. -/
theorem readStream_split (version : Nat) (bs : Bytes) : ∃ packets tail,
    (∀ e ∈ packets, Reads (readAll version) e.1 e.2) ∧ bs = writeStream packets ++ tail ∧
      (readStream version bs).1 = placeStream packets tail.length ∧
      match (readStream version bs).2 with
      | none => tail = []
      | some e => tail ≠ [] ∧ readAll version tail = .error e := by
  induction hlen : bs.length using Nat.strongRecOn generalizing bs with
  | _ n ih =>
    subst hlen
    by_cases hne : bs = []
    · subst hne
      exact ⟨[], [], fun e he ↦ absurd he List.not_mem_nil, rfl, rfl, rfl⟩
    cases hread : readAll version bs with
    | error e =>
      rw [readStream_of_error hne hread]
      exact ⟨[], bs, fun e he ↦ absurd he List.not_mem_nil, rfl, rfl, hne, hread⟩
    | ok r =>
      obtain ⟨packet, rest⟩ := r
      obtain ⟨chunk, rfl, hreads⟩ := stable version bs packet rest hread
      obtain ⟨packets, tail, hall, hrest, hplaced, hend⟩ :=
        ih rest.length (readAll_length_lt hread) rest rfl
      rw [readStream_of_readAll hread]
      refine ⟨(chunk, packet) :: packets, tail, ?_, ?_, ?_, hend⟩
      · exact List.forall_mem_cons.2 ⟨hreads, hall⟩
      · rw [hrest]
        simp only [writeStream, List.flatMap_cons, List.append_assoc]
      · dsimp only
        rw [hplaced, placeStream, hrest]
        simp only [List.length_append, Nat.add_assoc]

end SuperShuckie
