import SuperShuckie.Recording.Reading

/-!
# Where a seek goes in a file of blobs

The last keyframe on a frame is found by the lists of keyframes of the blobs.  The keyframes on one
frame lie next to each other, since each is labelled with the number of frames before it; so the scan,
which stops after a blob that has none, finds the last one (`Holds.located_eq`).
-/

set_option autoImplicit false

namespace SuperShuckie

namespace ReplayFilePlayer

/-- A packet is a blob with the keyframes of a stretch. -/
def Lists (packet : Packet) (packets : List Packet) : Prop :=
  ∃ blob, packet = .compressedBlob blob ∧ blob.keyframes = packets.filterMap keyframeMetadata

/-- Whether a packet is a keyframe on a frame. -/
def isKeyframeOn (frame : Nat) (packet : Packet) : Bool :=
  (keyframeMetadata packet).any (onFrame frame)

theorem rposition_onFrame_eq_none (frame : Nat) (packets : List Packet) :
    rposition (onFrame frame) (packets.filterMap keyframeMetadata) = none ↔
      ∀ p ∈ packets, isKeyframeOn frame p = false := by
  rw [rposition_eq_none]
  simp only [List.mem_filterMap, isKeyframeOn, forall_exists_index, and_imp]
  constructor
  · intro h p hp
    cases hmeta : keyframeMetadata p with
    | none => rfl
    | some metadata => exact h metadata p hp hmeta
  · intro h metadata p hp hmeta
    have := h p hp
    rw [hmeta] at this
    exact this

/-- Blobs without a keyframe on the frame do not change the location. -/
theorem locateIn_of_none {frame : Nat} {packets : List Packet} {blobs : List (List Packet)}
    (h : List.Forall₂ Lists packets blobs)
    (hnone : ∀ packets ∈ blobs, ∀ p ∈ packets, isKeyframeOn frame p = false) (start : Nat)
    (location : Option (ListId × Nat)) : locateIn frame packets start location = location := by
  induction h generalizing start with
  | nil => rfl
  | @cons packet stretch packets blobs hlists _ ih =>
    obtain ⟨blob, rfl, hkeyframes⟩ := hlists
    have hno := (rposition_onFrame_eq_none frame stretch).mpr (hnone _ List.mem_cons_self)
    rw [← hkeyframes] at hno
    rw [locateIn, hno]
    simp only
    rw [ih fun s hs ↦ hnone s (List.mem_cons_of_mem _ hs)]
    split <;> rfl

/-- The location is in the last blob with a keyframe on the frame, if the blobs that have one lie
next to each other. -/
theorem locateIn_blobs {frame : Nat} {packets : List Packet} {blobs : List (List Packet)}
    (h : List.Forall₂ Lists packets blobs) {k j : Nat} {stretch : List Packet}
    (hk : blobs[k]? = some stretch)
    (hj : rposition (onFrame frame) (stretch.filterMap keyframeMetadata) = some j)
    (hafter : ∀ packets ∈ blobs.drop (k + 1), ∀ p ∈ packets, isKeyframeOn frame p = false)
    (hnext : ∀ (a : Nat) packets packets', a < k → blobs[a]? = some packets →
      blobs[a + 1]? = some packets' → (∃ p ∈ packets, isKeyframeOn frame p = true) →
      ∃ p ∈ packets', isKeyframeOn frame p = true)
    (location : Option (ListId × Nat)) (hlocation : location.isSome = true →
      ∀ packets, blobs[0]? = some packets → ∃ p ∈ packets, isKeyframeOn frame p = true)
    (start : Nat) : locateIn frame packets start location = some (.blob (start + k), j) := by
  induction h generalizing k start location with
  | nil => cases hk
  | @cons packet first packets blobs hlists hrest ih =>
    obtain ⟨blob, rfl, hkeyframes⟩ := hlists
    rw [locateIn, hkeyframes]
    cases k with
    | zero =>
      cases hk
      rw [hj]
      exact locateIn_of_none hrest hafter _ _
    | succ k =>
      have htail := fun location hlocation ↦ ih (k := k) hk hafter
        (fun a packets packets' ha ↦ hnext (a + 1) packets packets' (by omega)) location
        hlocation (start + 1)
      rw [show start + (k + 1) = start + 1 + k by omega]
      cases hfirst : rposition (onFrame frame) (first.filterMap keyframeMetadata) with
      | some j' =>
        refine htail _ fun _ packets hpackets ↦ hnext 0 first packets (by omega) rfl hpackets ?_
        by_contra hno
        rw [(rposition_onFrame_eq_none frame first).mpr fun p hp ↦ by
          by_contra hon
          exact hno ⟨p, hp, by simpa using hon⟩] at hfirst
        cases hfirst
      | none =>
        have hno := (rposition_onFrame_eq_none frame first).mp hfirst
        have hnotLocated : location = none := by
          cases hlocated : location with
          | none => rfl
          | some at' =>
            obtain ⟨p, hp, hon⟩ := hlocation (by rw [hlocated]; rfl) first rfl
            rw [hno p hp] at hon
            cases hon
        subst hnotLocated
        exact htail none fun h ↦ by cases h

end ReplayFilePlayer

namespace OpenedFile.Holds

open ReplayFilePlayer

variable {z : Zstd} {file : OpenedFile} {blobs : List (List Packet)}

theorem forall₂_lists (h : file.Holds z blobs) : List.Forall₂ Lists file.packets blobs := by
  rw [List.forall₂_iff_get]
  refine ⟨h.length_eq, fun i hi hi' ↦ ?_⟩
  obtain ⟨blob, hat, hsealed⟩ := h.blob i blobs[i] (List.getElem?_eq_getElem hi')
  refine ⟨blob, ?_, hsealed.keyframes⟩
  rw [List.getElem?_eq_getElem hi] at hat
  exact Option.some.inj hat

/-- Between two keyframes on one frame no frame is run. -/
theorem frameCount_of_framed {before after : List Packet} {frame : Nat}
    (h : Framed 0 (before ++ after)) (hbefore : ∃ p ∈ before, isKeyframeOn frame p = true)
    (hafter : ∃ p ∈ after, isKeyframeOn frame p = true) : frameCount before = frame := by
  obtain ⟨p, hp, hon⟩ := hbefore
  obtain ⟨q, hq, hon'⟩ := hafter
  obtain ⟨metadata, hmeta, hframe⟩ := (Option.any_eq_true _ _).mp hon
  obtain ⟨metadata', hmeta', hframe'⟩ := (Option.any_eq_true _ _).mp hon'
  obtain ⟨pre, post, rfl⟩ := List.append_of_mem hp
  obtain ⟨pre', post', rfl⟩ := List.append_of_mem hq
  have hleft := h pre p (post ++ (pre' ++ q :: post')) metadata (by simp) hmeta
  have hright := h (pre ++ p :: post ++ pre') q post' metadata' (by simp) hmeta'
  have hframe : metadata.elapsedFrames.toNat = frame := of_decide_eq_true hframe
  have hframe' : metadata'.elapsedFrames.toNat = frame := of_decide_eq_true hframe'
  simp only [frameCount_append] at hright
  rw [frameCount_append]
  omega

/-- **A seek goes to the last keyframe on a frame.** -/
theorem located_eq (h : file.Holds z blobs) (hframed : Framed 0 blobs.flatten) {frame i : Nat}
    (hindexed : (file.keyframes.get? frame).isSome = true) {before after : List Packet}
    {packet : Packet} (hi : blobs[i]? = some (before ++ packet :: after))
    (hon : isKeyframeOn frame packet = true)
    (hlast : ∀ p ∈ after ++ (blobs.drop (i + 1)).flatten, isKeyframeOn frame p = false) :
    file.located z frame = some (.blob i, (streamBytes before).length) := by
  obtain ⟨metadata, hmeta, hframe⟩ := (Option.any_eq_true _ _).mp hon
  have hkeyframes : (before ++ packet :: after).filterMap keyframeMetadata =
      before.filterMap keyframeMetadata ++ metadata :: after.filterMap keyframeMetadata := by
    rw [List.filterMap_append, List.filterMap_cons, hmeta]
  have hafter := fun p hp ↦ hlast p (List.mem_append_left _ hp)
  have hrposition : rposition (onFrame frame)
      ((before ++ packet :: after).filterMap keyframeMetadata) =
        some (before.filterMap keyframeMetadata).length := by
    rw [hkeyframes]
    exact rposition_append_cons _ hframe
      (rposition_eq_none.mp ((rposition_onFrame_eq_none frame after).mpr hafter))
  have hlocation := locateIn_blobs h.forall₂_lists hi hrposition
    (fun packets hpackets p hp ↦
      hlast p (List.mem_append_right _ (List.mem_flatten_of_mem hpackets hp)))
    (fun a packets packets' ha hpackets hpackets' hex ↦ ?_) none (fun h ↦ by cases h) 0
  · have hclass : isKeyframeClass packet = true := by
      rw [← isSome_keyframeMetadata, hmeta]
      rfl
    have hoffset : (keyframeOffsets 0 (before ++ packet :: after))[
        (before.filterMap keyframeMetadata).length]? = some (streamBytes before).length := by
      rw [keyframeOffsets_append, ← length_keyframeOffsets 0,
        List.getElem?_append_right (le_refl _), Nat.sub_self, keyframeOffsets, if_pos hclass]
      simp
    rw [OpenedFile.located, if_neg (by rw [Option.isNone_iff_eq_none]; intro h; simp [h] at hindexed),
      hlocation, Nat.zero_add]
    simp only [h.view hi, Sealed.offsets_viewOf (h.starts hi), hoffset, Option.map_some]
  · obtain ⟨hlt, hget⟩ := List.getElem?_eq_some_iff.mp hpackets'
    have hsplit : blobs.flatten = (blobs.take (a + 1)).flatten ++ (blobs.drop (a + 1)).flatten := by
      rw [← List.flatten_append, List.take_append_drop]
    obtain ⟨hlt', hget'⟩ := List.getElem?_eq_some_iff.mp hi
    rw [hsplit] at hframed
    have hcount : frameCount (blobs.take (a + 1)).flatten = frame :=
      frameCount_of_framed hframed ?_ ?_
    · obtain ⟨metadata', state, rest, hstarts⟩ := h.starts hpackets'
      refine ⟨.keyframe metadata' state, hstarts ▸ List.mem_cons_self, ?_⟩
      have := (framed_append_iff.mp hframed).2 [] (.keyframe metadata' state)
        (rest ++ (blobs.drop (a + 2)).flatten) metadata'
        (by rw [List.drop_eq_getElem_cons hlt, List.flatten_cons, hget, hstarts]; rfl) rfl
      exact decide_eq_true (by simpa [hcount] using this)
    · obtain ⟨p, hp, hon'⟩ := hex
      refine ⟨p, List.mem_flatten_of_mem (List.mem_of_getElem? (i := a) ?_) hp, hon'⟩
      rw [List.getElem?_take, if_pos (by omega)]
      exact hpackets
    · have hmem : before ++ packet :: after ∈ blobs.drop (a + 1) := by
        refine List.mem_of_getElem? (i := i - (a + 1)) ?_
        rw [List.getElem?_drop, show a + 1 + (i - (a + 1)) = i by omega]
        exact hi
      exact ⟨packet, List.mem_flatten_of_mem hmem
        (List.mem_append_right before List.mem_cons_self), hon⟩

end OpenedFile.Holds

end SuperShuckie
