import SuperShuckie.Recording.Blobs
import SuperShuckie.Player.History

/-!
# The states of a file of blobs

In a file of blobs every keyframe has the state that its stretch plays (`stateAt_of_plays`), and
nothing in the file can bring a player out of step with it (`Holds.regular`).
-/

set_option autoImplicit false

namespace SuperShuckie

open ByteFormat ByteFormat.Reader

theorem isKeyframeClass_readBack (packet : Packet) :
    isKeyframeClass packet.readBack = isKeyframeClass packet := by
  cases packet <;> rfl

theorem readBack_of_class {packet : Packet} (h : isKeyframeClass packet = true) :
    packet.readBack = packet := by
  cases packet <;> first | rfl | cases h

/-- The last keyframe of `before`, by its offset. -/
def LastKeyframe (before : List Packet) (q : Nat) : Prop :=
  (keyframeOffsets 0 before).getLast? = some q

theorem lastKeyframe_snoc {before : List Packet} {packet : Packet}
    (h : isKeyframeClass packet = true) :
    LastKeyframe (before ++ [packet]) (streamBytes before).length := by
  rw [LastKeyframe, keyframeOffsets_append]
  simp [keyframeOffsets, h]

theorem LastKeyframe.snoc {before : List Packet} {packet : Packet} {q : Nat}
    (h : LastKeyframe before q) (hclass : isKeyframeClass packet = false) :
    LastKeyframe (before ++ [packet]) q := by
  rw [LastKeyframe] at h ⊢
  simpa [keyframeOffsets_append, keyframeOffsets, hclass] using h

/-- The keyframes of a stretch up to a place are those of what is before it. -/
theorem mem_keyframeOffsets_append {before after : List Packet} {o : Nat} :
    o ∈ keyframeOffsets 0 (before ++ after) ∧ o < (streamBytes before).length ↔
      o ∈ keyframeOffsets 0 before := by
  rw [keyframeOffsets_append, List.mem_append]
  constructor
  · rintro ⟨h | h, hlt⟩
    · exact h
    · obtain ⟨pre, packet, post, -, -, rfl⟩ := mem_keyframeOffsets.mp h
      omega
  · intro h
    refine ⟨.inl h, ?_⟩
    obtain ⟨pre, packet, post, rfl, -, rfl⟩ := mem_keyframeOffsets.mp h
    have := length_write_pos packet
    simp only [streamBytes_append, streamBytes_cons, List.length_append]
    omega

namespace OpenedFile.Holds

variable {z : Zstd} {rom : Option Bytes} {file : OpenedFile} {blobs : List (List Packet)} {i : Nat}
  {packets before after : List Packet} (h : file.Holds z blobs)
include h

/-- The last keyframe before a place precedes it. -/
theorem precedes (hi : blobs[i]? = some packets) (hpackets : packets = before ++ after) {q : Nat}
    (hlast : LastKeyframe before q) : file.Precedes z (.blob i) q (streamBytes before).length := by
  subst hpackets
  have hmem : q ∈ keyframeOffsets 0 before := List.mem_of_getLast? hlast
  obtain ⟨hmem', hlt⟩ := mem_keyframeOffsets_append.mpr hmem
  refine ⟨hlt, (h.isKeyframePos_iff hi).mpr hmem', fun r hqr hrlt hr ↦ ?_⟩
  have hr' := mem_keyframeOffsets_append.mp ⟨(h.isKeyframePos_iff hi).mp hr, hrlt⟩
  obtain ⟨ys, hys⟩ := List.getLast?_eq_some_iff.mp hlast
  have hsorted := keyframeOffsets_sorted 0 before
  rw [hys] at hr' hsorted
  rcases List.mem_append.mp hr' with hr' | hr'
  · have := (List.pairwise_append.mp hsorted).2.2 r hr' q List.mem_cons_self
    omega
  · rw [List.mem_singleton] at hr'
    omega

variable (hresizing : file.resizing = false)
include hresizing

/-- **The keyframes of a blob have the states that its stretch plays**: the state before a place is
that of the last keyframe before it. -/
theorem stateBefore (hi : blobs[i]? = some packets) (hpackets : packets = before ++ after)
    {state : Bytes} {out : List Packet} (hplays : Plays false none before (some state) out) :
    ∃ q, LastKeyframe before q ∧ file.StateAt z rom (.blob i) q state := by
  induction before using List.reverseRecOn generalizing after state out with
  | nil => cases hplays
  | append_singleton before packet ih =>
    have hsplit : packets = before ++ packet :: after := by
      rw [hpackets, List.append_assoc]
      rfl
    obtain ⟨s, out₁, out₂, hbefore, hone, -⟩ := hplays.split
    cases hone with
    | cons hone hnil =>
      cases hnil
      by_cases hclass : isKeyframeClass packet = true
      · have hpos := h.isKeyframePos_of_split hi hsplit hclass
        have hat := h.packetAt hi hsplit
        rw [readBack_of_class hclass] at hat
        refine ⟨_, lastKeyframe_snoc hclass, ?_⟩
        cases hone with
        | full metadata => exact .full hpos hat
        | delta hs happly =>
          subst hs
          obtain ⟨q, hq, hstate⟩ := ih hsplit hbefore
          rw [← hresizing] at happly
          exact .delta hpos hat (h.precedes hi hsplit hq) hstate happly
        | other hno =>
          rw [hclass] at hno
          cases hno
      · rw [Bool.not_eq_true] at hclass
        cases hone with
        | full => cases hclass
        | delta _ _ hmeta =>
          rw [← isSome_keyframeMetadata, hmeta] at hclass
          cases hclass
        | other =>
          obtain ⟨q, hq, hstate⟩ := ih hsplit hbefore
          exact ⟨q, hq.snoc hclass, hstate⟩

omit hresizing in
/-- Packets of a blob are read where they begin, or at its end. -/
theorem split_of_readAt (hi : blobs[i]? = some packets) {offset : Nat}
    (hread : file.ReadAt z i offset) :
    ∃ before after, packets = before ++ after ∧ offset = (streamBytes before).length := by
  induction hread with
  | first => exact ⟨[], packets, rfl, rfl⟩
  | @listed v t offset hv ht hmem =>
    have hpos : file.IsKeyframePos z (.blob i) offset := ⟨v, t, hv, ht, hmem⟩
    obtain ⟨before, packet, after, heq, -, hoffset⟩ :=
      mem_keyframeOffsets.mp ((h.isKeyframePos_iff hi).mp hpos)
    exact ⟨before, packet :: after, heq, by omega⟩
  | @next v offset next packet _ hv hparse ih =>
    obtain ⟨before, after, heq, hoffset⟩ := ih
    rw [h.view hi] at hv
    cases hv
    cases after with
    | nil =>
      have hend : (viewOf packets).size ≤ offset := by
        rw [hoffset, heq, List.append_nil, viewOf]
      rw [BlobView.parseAt, if_pos (.inl hend)] at hparse
      cases hparse
    | cons p after =>
      rw [hoffset, h.parseAt hi heq] at hparse
      cases hparse
      exact ⟨before ++ [p], after, by simp [heq], rfl⟩

omit hresizing in
theorem tablesComplete : file.TablesComplete z := by
  intro i offset v t packet after hread hv ht hparse hclass
  obtain ⟨blob, hat, -⟩ := exists_of_blobView hv
  obtain ⟨hlt, -⟩ := List.getElem?_eq_some_iff.mp hat
  rw [h.length_eq] at hlt
  have hi := List.getElem?_eq_getElem hlt
  obtain ⟨before, rest, heq, rfl⟩ := h.split_of_readAt hi hread
  rw [h.view hi] at hv
  cases hv
  rw [Sealed.offsets_viewOf (h.starts hi)] at ht
  cases ht
  cases rest with
  | nil =>
    have hend : (viewOf blobs[i]).size ≤ (streamBytes before).length := by
      rw [viewOf, heq, List.append_nil]
    rw [BlobView.parseAt, if_pos (.inl hend)] at hparse
    cases hparse
  | cons p rest =>
    rw [h.parseAt hi heq] at hparse
    cases hparse
    rw [isKeyframeClass_readBack] at hclass
    exact mem_keyframeOffsets.mpr ⟨before, p, rest, heq, hclass, (Nat.zero_add _).symm⟩

/-- A file of blobs is regular. -/
theorem regular (hindexed : file.StoredIndexed) : file.Regular z rom := by
  refine regular_of_not_resizing hindexed hresizing (fun i k hk ↦ ?_) h.tablesComplete
  obtain ⟨hlt, -⟩ := List.getElem?_eq_some_iff.mp hk
  obtain ⟨blob, hat, -⟩ := h.blob i _ (List.getElem?_eq_getElem (h.length_eq ▸ hlt))
  rw [hk] at hat
  cases hat

end OpenedFile.Holds

end SuperShuckie
