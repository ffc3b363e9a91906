import SuperShuckie.Player.StateAt

/-!
# What a stream of packets plays as

Packets that are written one after the other are handed out one after the other, every delta
keyframe as the full keyframe that it stands for.  `Plays` says what a stretch of packets hands out,
given the state of the keyframe before it; it knows nothing of blobs, tables and cursors.

`keyframeOffsets` says where the keyframes of a stretch lie in its bytes, and `Framed` that each is
labelled with the number of frames before it.
-/

set_option autoImplicit false

namespace SuperShuckie

open ByteFormat

/-! ## Handing out -/

/-- A packet turns the state of the last keyframe into another and is handed out as a packet. -/
inductive PlaysOne (resizing : Bool) (s : Option Bytes) :
    Packet → Option Bytes → Packet → Prop
  | full (metadata : KeyframeMetadata) (state : Bytes) :
      PlaysOne resizing s (.keyframe metadata state) (some state) (.keyframe metadata state)
  | delta {base state : Bytes} {packet : Packet} {metadata : KeyframeMetadata} :
      s = some base → OpenedFile.applyDelta resizing base packet = some state →
      keyframeMetadata packet = some metadata →
      PlaysOne resizing s packet (some state) (.keyframe metadata state)
  | other {packet : Packet} :
      isKeyframeClass packet = false → PlaysOne resizing s packet s packet.readBack

/-- A stretch of packets, from the state of the keyframe before it to that of its last one, is
handed out as `out`. -/
inductive Plays (resizing : Bool) : Option Bytes → List Packet → Option Bytes → List Packet → Prop
  | nil (s : Option Bytes) : Plays resizing s [] s []
  | cons {s s' s'' : Option Bytes} {packet o : Packet} {packets out : List Packet} :
      PlaysOne resizing s packet s' o → Plays resizing s' packets s'' out →
      Plays resizing s (packet :: packets) s'' (o :: out)

variable {resizing : Bool} {s s' s'' : Option Bytes} {packets packets' out out' : List Packet}

theorem Plays.append (h : Plays resizing s packets s' out)
    (h' : Plays resizing s' packets' s'' out') :
    Plays resizing s (packets ++ packets') s'' (out ++ out') := by
  induction h with
  | nil s => exact h'
  | cons hone _ ih => exact .cons hone (ih h')

theorem Plays.snoc (h : Plays resizing s packets s' out) {packet o : Packet}
    (hone : PlaysOne resizing s' packet s'' o) :
    Plays resizing s (packets ++ [packet]) s'' (out ++ [o]) :=
  h.append (.cons hone (.nil s''))

theorem Plays.split (h : Plays resizing s (packets ++ packets') s'' out) :
    ∃ s' out₁ out₂, Plays resizing s packets s' out₁ ∧ Plays resizing s' packets' s'' out₂ ∧
      out = out₁ ++ out₂ := by
  induction packets generalizing s out with
  | nil => exact ⟨s, [], out, .nil s, h, rfl⟩
  | cons packet packets ih =>
    cases h with
    | cons hone hrest =>
      obtain ⟨s', out₁, out₂, h₁, h₂, rfl⟩ := ih hrest
      exact ⟨s', _, out₂, .cons hone h₁, h₂, rfl⟩

/-- A stretch that starts with a full keyframe plays in the same way whatever is before it. -/
theorem Plays.of_full {metadata : KeyframeMetadata} {state : Bytes}
    (h : Plays resizing s (.keyframe metadata state :: packets) s' out) (t : Option Bytes) :
    Plays resizing t (.keyframe metadata state :: packets) s' out := by
  cases h with
  | cons hone hrest =>
    cases hone with
    | full => exact .cons (.full metadata state) hrest
    | delta _ happly => cases happly
    | other hclass => cases hclass

/-- What is handed out for a keyframe is a keyframe with its metadata, and nothing else is. -/
theorem PlaysOne.keyframeMetadata_eq {packet o : Packet} (h : PlaysOne resizing s packet s' o) :
    keyframeMetadata o = keyframeMetadata packet := by
  cases h with
  | full => rfl
  | delta _ _ hmeta => exact hmeta.symm
  | other hclass => cases packet <;> rfl

theorem Plays.forall_keyframeMetadata (h : Plays resizing s packets s' out)
    {P : KeyframeMetadata → Prop} (hP : ∀ p ∈ packets, ∀ m, keyframeMetadata p = some m → P m) :
    ∀ o ∈ out, ∀ m, keyframeMetadata o = some m → P m := by
  induction h with
  | nil s => exact fun o ho ↦ (by cases ho)
  | cons hone _ ih =>
    intro o ho m hm
    rcases List.mem_cons.mp ho with rfl | ho
    · exact hP _ List.mem_cons_self m (hone.keyframeMetadata_eq ▸ hm)
    · exact ih (fun p hp ↦ hP p (List.mem_cons_of_mem _ hp)) o ho m hm

/-! ## Frames -/

/-- Whether a packet runs a frame. -/
def isNextFrame : Packet → Bool
  | .nextFrame _ => true
  | _ => false

/-- The number of frames that a stretch runs. -/
def frameCount (packets : List Packet) : Nat := packets.countP isNextFrame

@[simp] theorem frameCount_nil : frameCount [] = 0 := rfl

@[simp] theorem frameCount_append (packets packets' : List Packet) :
    frameCount (packets ++ packets') = frameCount packets + frameCount packets' :=
  List.countP_append

/-- Every keyframe of a stretch that starts on frame `n` is labelled with the frame it is on. -/
def Framed (n : Nat) (packets : List Packet) : Prop :=
  ∀ before packet after metadata, packets = before ++ packet :: after →
    keyframeMetadata packet = some metadata →
    metadata.elapsedFrames.toNat = n + frameCount before

theorem framed_nil (n : Nat) : Framed n [] := by
  intro before packet after metadata h
  simp at h

theorem Framed.append {n : Nat} (h : Framed n packets)
    (h' : Framed (n + frameCount packets) packets') : Framed n (packets ++ packets') := by
  intro before packet after metadata heq hmeta
  rcases List.append_eq_append_iff.mp heq.symm with ⟨as, hpackets, hrest⟩ | ⟨bs, hbefore, hrest⟩
  · cases as with
    | nil =>
      rw [List.append_nil] at hpackets
      have := h' [] packet after metadata (by simpa using hrest.symm) hmeta
      rw [← hpackets]
      simpa using this
    | cons a as =>
      obtain ⟨rfl, -⟩ := List.cons.inj hrest
      exact h before packet as metadata hpackets hmeta
  · have := h' bs packet after metadata hrest hmeta
    rw [hbefore, frameCount_append]
    omega

theorem framed_append_iff {n : Nat} : Framed n (packets ++ packets') ↔
    Framed n packets ∧ Framed (n + frameCount packets) packets' := by
  refine ⟨fun h ↦ ⟨?_, ?_⟩, fun ⟨h, h'⟩ ↦ h.append h'⟩
  · intro before packet after metadata heq hmeta
    exact h before packet (after ++ packets') metadata (by simp [heq]) hmeta
  · intro before packet after metadata heq hmeta
    have := h (packets ++ before) packet after metadata (by simp [heq]) hmeta
    rw [frameCount_append] at this
    omega

theorem framed_singleton {n : Nat} {packet : Packet} (h : ∀ metadata,
    keyframeMetadata packet = some metadata → metadata.elapsedFrames.toNat = n) :
    Framed n [packet] := by
  intro before p after metadata heq hmeta
  cases before with
  | nil =>
    cases heq
    exact h metadata hmeta
  | cons b before => simp at heq

/-! ## Bytes -/

/-- The bytes of packets written one after the other. -/
def streamBytes (packets : List Packet) : Bytes := packets.flatMap Packet.write

@[simp] theorem streamBytes_nil : streamBytes [] = [] := rfl

@[simp] theorem streamBytes_append (packets packets' : List Packet) :
    streamBytes (packets ++ packets') = streamBytes packets ++ streamBytes packets' :=
  List.flatMap_append

@[simp] theorem streamBytes_cons (packet : Packet) (packets : List Packet) :
    streamBytes (packet :: packets) = packet.write ++ streamBytes packets := rfl

theorem streamBytes_singleton (packet : Packet) : streamBytes [packet] = packet.write := by
  simp

theorem length_write_pos (packet : Packet) : 0 < packet.write.length := Nat.succ_pos _

/-- Byte offset of every keyframe of a stretch, when the stretch starts at `start`. -/
def keyframeOffsets : Nat → List Packet → List Nat
  | _, [] => []
  | start, packet :: packets =>
    if isKeyframeClass packet then start :: keyframeOffsets (start + packet.write.length) packets
    else keyframeOffsets (start + packet.write.length) packets

theorem keyframeOffsets_append (start : Nat) (packets packets' : List Packet) :
    keyframeOffsets start (packets ++ packets') =
      keyframeOffsets start packets ++
        keyframeOffsets (start + (streamBytes packets).length) packets' := by
  induction packets generalizing start with
  | nil => rfl
  | cons packet packets ih =>
    simp only [List.cons_append, keyframeOffsets, ih, streamBytes_cons, List.length_append,
      Nat.add_assoc]
    split <;> rfl

theorem mem_keyframeOffsets {start offset : Nat} :
    offset ∈ keyframeOffsets start packets ↔ ∃ before packet after,
      packets = before ++ packet :: after ∧ isKeyframeClass packet = true ∧
        offset = start + (streamBytes before).length := by
  induction packets generalizing start with
  | nil => simp [keyframeOffsets]
  | cons p packets ih =>
    have htail : offset ∈ keyframeOffsets (start + p.write.length) packets ↔
        ∃ before packet after, p :: packets = (p :: before) ++ packet :: after ∧
          isKeyframeClass packet = true ∧
            offset = start + (streamBytes (p :: before)).length := by
      rw [ih]
      simp only [List.cons_append, List.cons.injEq, true_and, streamBytes_cons,
        List.length_append, Nat.add_assoc]
    rw [keyframeOffsets]
    constructor
    · intro h
      split at h
      · rename_i hclass
        rcases List.mem_cons.mp h with rfl | h
        · exact ⟨[], p, packets, rfl, hclass, rfl⟩
        · obtain ⟨before, h⟩ := htail.mp h
          exact ⟨p :: before, h⟩
      · obtain ⟨before, h⟩ := htail.mp h
        exact ⟨p :: before, h⟩
    · rintro ⟨before, packet, after, heq, hclass, hoffset⟩
      cases before with
      | nil =>
        cases heq
        rw [if_pos hclass]
        exact List.mem_cons.mpr (.inl (by simpa using hoffset))
      | cons b before =>
        obtain ⟨rfl, heq'⟩ := List.cons.inj heq
        have hmem := htail.mpr ⟨before, packet, after, heq, hclass, hoffset⟩
        split
        · exact List.mem_cons_of_mem _ hmem
        · exact hmem

theorem keyframeOffsets_sorted (start : Nat) (packets : List Packet) :
    (keyframeOffsets start packets).Pairwise (· < ·) := by
  induction packets generalizing start with
  | nil => exact .nil
  | cons p packets ih =>
    rw [keyframeOffsets]
    split
    · refine List.Pairwise.cons (fun o ho ↦ ?_) (ih _)
      obtain ⟨before, packet, after, -, -, rfl⟩ := mem_keyframeOffsets.mp ho
      have := length_write_pos p
      omega
    · exact ih _

/-- A packet has metadata just when it is a keyframe. -/
theorem isSome_keyframeMetadata (packet : Packet) :
    (keyframeMetadata packet).isSome = isKeyframeClass packet := by
  cases packet <;> rfl

theorem length_keyframeOffsets (start : Nat) (packets : List Packet) :
    (keyframeOffsets start packets).length = (packets.filterMap keyframeMetadata).length := by
  induction packets generalizing start with
  | nil => rfl
  | cons p packets ih =>
    have hsome := isSome_keyframeMetadata p
    rw [keyframeOffsets, List.filterMap_cons]
    cases hmeta : keyframeMetadata p with
    | none =>
      rw [hmeta] at hsome
      rw [if_neg (by simp [← hsome]), ih]
    | some metadata =>
      rw [hmeta] at hsome
      rw [if_pos (by simp [← hsome]), List.length_cons, List.length_cons, ih]

end SuperShuckie
