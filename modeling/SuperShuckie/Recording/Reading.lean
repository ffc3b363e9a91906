import SuperShuckie.Recording.States

/-!
# Reading a file of blobs to its end

From the start of the file, or from a keyframe that was sought, `nextPacket` hands out what the
packets from there on play as, one after the other and across the ends of blobs, and then nothing.
-/

set_option autoImplicit false

namespace SuperShuckie

open ByteFormat ByteFormat.Reader

namespace ReplayFilePlayer

/-- Reads one after the other hand out some packets, and then nothing. -/
inductive ReadsToEnd (x : Externals) : ReplayFilePlayer → List Packet → Prop
  | stop {p p' : ReplayFilePlayer} : nextPacket x p = .ok none p' → ReadsToEnd x p []
  | next {p p' : ReplayFilePlayer} {packet : Packet} {packets : List Packet} :
      nextPacket x p = .ok (some packet) p' → ReadsToEnd x p' packets →
      ReadsToEnd x p (packet :: packets)

/-- A player in step that hands out states, with its cursor at an offset of a blob. -/
structure ReadsAt (z : Zstd) (rom : Option Bytes) (file : OpenedFile) (i offset : Nat)
    (p : ReplayFilePlayer) : Prop where
  inStep : p.InStep z rom file
  wanted : p.keyframeStatesWanted = true
  index : p.nextUncompressedPacketIndex = i
  offset : p.nextBlobOffset.getD 0 = offset

/-- The chain holds the state before a place of a blob, at the last keyframe before it. -/
def Primed (i : Nat) (before : List Packet) (s : Option Bytes) (c : ChainState) : Prop :=
  ∀ state, s = some state → ∃ q, LastKeyframe before q ∧ c.At (.blob i) q state

section Blobs

variable {x : Externals} {rom : Option Bytes} {file : OpenedFile} {blobs : List (List Packet)}
  {p : ReplayFilePlayer} {i : Nat} {packets before after : List Packet} {packet : Packet}
  (h : file.Holds x.zstd blobs) (hchecks : x.zstd.ChecksSize)
include h hchecks

/-- A read at a packet that can be folded hands it out. -/
theorem nextPacketGo_step (hregular : file.Regular x.zstd rom)
    (hp : ReadsAt x.zstd rom file i (streamBytes before).length p) (hi : blobs[i]? = some packets)
    (hpackets : packets = before ++ packet :: after)
    (hcan : CanFold x.zstd rom file (.blob i) (streamBytes before).length packet.readBack p.chain)
    (fuel : Nat) :
    ∃ p', nextPacketGo x (fuel + 1) p =
        .ok (some (handed true p'.chain.current packet.readBack)) p' ∧
      ReadsAt x.zstd rom file i (streamBytes (before ++ [packet])).length p' ∧
      if OpenedFile.moves (.blob i) packet.readBack then
        ∃ s, p'.chain.At (.blob i) (streamBytes before).length s ∧
          file.StateAt x.zstd rom (.blob i) (streamBytes before).length s
      else p'.chain = p.chain := by
  obtain ⟨hstep, hwanted, hindex, hoffset⟩ := hp
  obtain ⟨blob, hat, -⟩ := h.blob i packets hi
  have hrun := nextPacketGo_blob hchecks hstep (hindex ▸ hat) fuel
  rw [hindex, h.view hi, hoffset] at hrun
  obtain ⟨q, hq, hopen, hgo⟩ := hrun
  have hsame := cleanup_same p
  have hlt : ¬ (viewOf packets).size ≤ (streamBytes before).length := by
    have := length_write_pos packet
    simp only [viewOf, hpackets, streamBytes_append, streamBytes_cons, List.length_append]
    omega
  rw [if_neg hlt] at hgo
  have hparse := h.parseAt hi hpackets
  have hfold := foldInBlob_spec hregular hq.inStep hopen (h.view hi)
    fun t packet' next ht (hparse' : (viewOf packets).parseAt file.version
      (streamBytes before).length = some (packet', next)) hclass ↦ by
      rw [Sealed.offsets_viewOf (h.starts hi)] at ht
      cases ht
      cases hparse.symm.trans hparse'
      rw [isKeyframeClass_readBack] at hclass
      exact mem_keyframeOffsets.mpr ⟨before, packet, after, hpackets, hclass, (Nat.zero_add _).symm⟩
  have hchain : q.chain = p.chain := by
    rw [hq.chain_eq, hsame]
  rw [hparse, hchain] at hfold
  rcases hfold with ⟨p', hok, hfolded⟩ | ⟨-, hnot⟩
  · obtain ⟨stale, hhand⟩ := handOut_spec packet.readBack
      { p' with nextBlobOffset := some (streamBytes (before ++ [packet])).length }
    have hfields := hfolded.same
    have hwanted' : p'.keyframeStatesWanted = true := by
      rw [hfields, hq.same, hsame]
      exact hwanted
    have hindex' : p'.nextUncompressedPacketIndex = i := by
      rw [hfields, hq.same, hsame]
      exact hindex
    refine ⟨{ p' with
        nextBlobOffset := some (streamBytes (before ++ [packet])).length
        keyframeTransientsStale := stale }, ?_,
      ⟨hfolded.inStep.congr rfl rfl rfl rfl, hwanted', hindex', rfl⟩, hchain ▸ hfolded.chain⟩
    · rw [hgo, Act.bind_apply, hok]
      dsimp only
      rw [passInBlob, Act.modify_bind_apply, Act.map_apply, hhand]
      dsimp only
      rw [hwanted']
  · exact (hnot hcan).elim

/-- A read at the end of a blob goes on to the next. -/
theorem nextPacketGo_cross (hp : ReadsAt x.zstd rom file i (streamBytes packets).length p)
    (hi : blobs[i]? = some packets) (fuel : Nat) :
    ∃ q, nextPacketGo x (fuel + 1) p = nextPacketGo x fuel q ∧
      ReadsAt x.zstd rom file (i + 1) 0 q := by
  obtain ⟨hstep, hwanted, hindex, hoffset⟩ := hp
  obtain ⟨blob, hat, -⟩ := h.blob i packets hi
  have hrun := nextPacketGo_blob hchecks hstep (hindex ▸ hat) fuel
  rw [hindex, h.view hi, hoffset] at hrun
  obtain ⟨q, hq, -, hgo⟩ := hrun
  rw [if_pos (show (viewOf packets).size ≤ (streamBytes packets).length from le_rfl)] at hgo
  refine ⟨_, hgo, hq.inStep.congr rfl rfl rfl rfl, ?_, rfl, rfl⟩
  dsimp only
  rw [hq.same, cleanup_same]
  exact hwanted

omit hchecks in
/-- A read at the end of the file hands out nothing. -/
theorem nextPacketGo_end {offset : Nat} (hp : ReadsAt x.zstd rom file blobs.length offset p)
    (fuel : Nat) : nextPacketGo x (fuel + 1) p = .ok none p := by
  have hnone : file.packets[p.nextUncompressedPacketIndex]? = none := by
    rw [List.getElem?_eq_none_iff, hp.index, h.length_eq]
  rw [nextPacketGo, Act.get_bind_apply, hp.inStep.file_eq, hnone]
  rfl

section

variable (hregular : file.Regular x.zstd rom) (hresizing : file.resizing = false)
    (hp : ReadsAt x.zstd rom file i (streamBytes before).length p)
include hregular hresizing hp

/-- **A read hands out what the next packet plays as**, and leaves the chain at its state. -/
theorem nextPacketGo_plays
    {s s' : Option Bytes} {o : Packet} {out : List Packet} (hi : blobs[i]? = some packets)
    (hpackets : packets = before ++ packet :: after) (hbefore : Plays false none before s out)
    (hone : PlaysOne false s packet s' o) (hready : Primed i before s p.chain ∨
      CanFold x.zstd rom file (.blob i) (streamBytes before).length packet.readBack p.chain)
    (fuel : Nat) :
    ∃ p', nextPacketGo x (fuel + 1) p = .ok (some o) p' ∧
      ReadsAt x.zstd rom file i (streamBytes (before ++ [packet])).length p' ∧
      (isKeyframeClass packet = false → p'.chain = p.chain) ∧
      (isKeyframeClass packet = true → Primed i (before ++ [packet]) s' p'.chain) := by
  by_cases hclass : isKeyframeClass packet = true
  · have hback := readBack_of_class hclass
    have hnotStored : ∀ k, packet ≠ .storedKeyframe k := by
      rintro k rfl
      obtain ⟨blob, -, hsealed⟩ := h.blob i packets hi
      exact hsealed.readable _ (hpackets ▸ List.mem_append_right _ List.mem_cons_self)
    have hmoves : OpenedFile.moves (.blob i) packet = true :=
      OpenedFile.moves_of_not_stored hclass hnotStored
    obtain ⟨state, rfl, hhanded, hneeds⟩ : ∃ state, s' = some state ∧
        handed true state packet = o ∧ (isDelta packet = false ∨ ∃ base, s = some base) := by
      cases hone with
      | full metadata state => exact ⟨state, rfl, rfl, .inl rfl⟩
      | @delta base state packet metadata hs happly hmeta =>
        refine ⟨state, rfl, ?_, .inr ⟨base, hs⟩⟩
        have hdelta := OpenedFile.isDelta_of_applyDelta happly
        cases packet with
        | deltaKeyframe m diff =>
          cases hmeta
          rfl
        | regionDeltaKeyframe m stateLen control data =>
          cases hmeta
          rfl
        | _ => cases hdelta
      | other hno =>
        rw [hclass] at hno
        cases hno
    have hsplit : packets = (before ++ [packet]) ++ after := by
      rw [hpackets, List.append_assoc]
      rfl
    obtain ⟨q, hq, hstate⟩ := h.stateBefore hresizing hi hsplit (hbefore.snoc hone)
    obtain rfl : q = (streamBytes before).length :=
      Option.some.inj (hq.symm.trans (lastKeyframe_snoc hclass))
    have hcan : CanFold x.zstd rom file (.blob i) (streamBytes before).length packet.readBack
        p.chain := by
      rcases hready with hprimed | hcan
      · refine .inr ⟨⟨state, hstate⟩, .inr ?_⟩
        rcases hneeds with hnot | ⟨base, hs⟩
        · left
          intro packet' hp'
          rw [h.packetAt hi hpackets, hback] at hp'
          cases hp'
          exact hnot
        · right
          obtain ⟨q, hlast, hat⟩ := hprimed base hs
          exact ⟨hat.list, q, hat.lastApplied, h.precedes hi hpackets hlast⟩
      · exact hcan
    obtain ⟨p', hrun, hreads, hchain⟩ :=
      nextPacketGo_step h hchecks hregular hp hi hpackets hcan fuel
    rw [hback, if_pos hmoves] at hchain
    obtain ⟨s, hat, hstate'⟩ := hchain
    obtain rfl := hstate'.unique hstate
    refine ⟨p', ?_, hreads, fun hno ↦ ?_, fun _ state' hs' ↦ ?_⟩
    · rw [hrun, hback, hat.current, hhanded]
    · rw [hclass] at hno
      cases hno
    · cases hs'
      exact ⟨_, lastKeyframe_snoc hclass, hat⟩
  · rw [Bool.not_eq_true] at hclass
    have hback : isKeyframeClass packet.readBack = false := by
      rw [isKeyframeClass_readBack, hclass]
    have hmoves : OpenedFile.moves (.blob i) packet.readBack = false :=
      OpenedFile.moves_of_not_class hback
    obtain ⟨p', hrun, hreads, hchain⟩ := nextPacketGo_step h hchecks hregular hp hi hpackets
      (.inl ⟨hmoves, .inl hback⟩) fuel
    rw [hmoves] at hchain
    refine ⟨p', ?_, hreads, fun _ ↦ hchain, fun hyes ↦ ?_⟩
    · rw [hrun]
      cases hone with
      | full => cases hclass
      | delta _ _ hmeta =>
        rw [← isSome_keyframeMetadata, hmeta] at hclass
        cases hclass
      | other => cases packet <;> first | rfl | cases hclass
    · rw [hclass] at hyes
      cases hyes

/-- The packets from a place of a blob on: those of the blob, and all later blobs. -/
theorem readsToEnd_of_plays {s s' : Option Bytes} {out outBefore : List Packet}
    (hi : blobs[i]? = some (before ++ after)) (hbefore : Plays false none before s outBefore)
    (hplays : Plays false s (after ++ (blobs.drop (i + 1)).flatten) s' out)
    (hprimed : Primed i before s p.chain) : ReadsToEnd x p out := by
  have hfuel : file.packets.length = (file.packets.length - 1) + 1 := by
    obtain ⟨hlt, -⟩ := List.getElem?_eq_some_iff.mp hi
    rw [h.length_eq]
    omega
  have hnext : ∀ q : ReplayFilePlayer, q.file = file →
      nextPacket x q = nextPacketGo x (file.packets.length - 1 + 1 + 1) q := by
    intro q hq
    rw [nextPacket, Act.get_bind_apply, hq, ← hfuel]
  induction out generalizing i p before after s outBefore with
  | nil =>
    have hnil : after ++ (blobs.drop (i + 1)).flatten = [] := by
      cases hrest : after ++ (blobs.drop (i + 1)).flatten with
      | nil => rfl
      | cons packet rest =>
        rw [hrest] at hplays
        cases hplays
    obtain ⟨rfl, hflat⟩ := List.append_eq_nil_iff.mp hnil
    rw [List.append_nil] at hi
    obtain ⟨q, hcross, hq⟩ := nextPacketGo_cross h hchecks hp hi (file.packets.length - 1 + 1)
    have hlast : i + 1 = blobs.length := by
      obtain ⟨hlt, -⟩ := List.getElem?_eq_some_iff.mp hi
      by_contra hne
      have hlt' : i + 1 < blobs.length := by omega
      obtain ⟨metadata, state, rest, hstarts⟩ := h.starts (List.getElem?_eq_getElem hlt')
      have hmem : blobs[i + 1] ∈ blobs.drop (i + 1) := by
        rw [List.drop_eq_getElem_cons hlt']
        exact List.mem_cons_self
      have := List.flatten_eq_nil_iff.mp hflat _ hmem
      rw [hstarts] at this
      cases this
    rw [hlast] at hq
    have hstop : nextPacket x p = .ok none q := by
      rw [hnext p hp.inStep.file_eq, hcross]
      exact nextPacketGo_end h hq _
    exact .stop hstop
  | cons o out ih =>
    cases after with
    | cons packet after =>
      cases hplays with
      | cons hone hrest =>
        obtain ⟨p', hrun, hreads, hsame, hnew⟩ := nextPacketGo_plays h hchecks hregular hresizing
          hp hi rfl hbefore hone (.inl hprimed) (file.packets.length - 1 + 1)
        refine .next ?_ (ih hreads (by simpa using hi) (hbefore.snoc hone) hrest ?_)
        · rw [hnext p hp.inStep.file_eq, hrun]
        · by_cases hclass : isKeyframeClass packet = true
          · exact hnew hclass
          · rw [Bool.not_eq_true] at hclass
            intro state hs
            have hs' : s = some state := by
              cases hone with
              | full => cases hclass
              | delta _ _ hmeta =>
                rw [← isSome_keyframeMetadata, hmeta] at hclass
                cases hclass
              | other => exact hs
            obtain ⟨q, hq, hat⟩ := hprimed state hs'
            exact ⟨q, hq.snoc hclass, hsame hclass ▸ hat⟩
    | nil =>
      rw [List.append_nil] at hi
      rw [List.nil_append] at hplays
      obtain ⟨q, hcross, hq⟩ := nextPacketGo_cross h hchecks hp hi (file.packets.length - 1 + 1)
      have hlt : i + 1 < blobs.length := by
        by_contra hge
        rw [List.drop_eq_nil_of_le (by omega)] at hplays
        cases hplays
      have hi' := List.getElem?_eq_getElem hlt
      rw [List.drop_eq_getElem_cons hlt, List.flatten_cons] at hplays
      obtain ⟨metadata, state, rest, hstarts⟩ := h.starts hi'
      rw [hstarts] at hi' hplays
      rw [List.cons_append] at hplays
      have hfull := hplays.of_full none
      cases hfull with
      | cons hone hrest =>
        have hsplit : Packet.keyframe metadata state :: rest =
            [] ++ Packet.keyframe metadata state :: rest := rfl
        have hcan : CanFold x.zstd rom file (.blob (i + 1)) (streamBytes []).length
            (Packet.keyframe metadata state).readBack q.chain :=
          .inr ⟨⟨state, .full (h.isKeyframePos_of_split hi' rfl rfl)
            (h.packetAt hi' hsplit)⟩, .inr (.inl fun packet' hp' ↦ by
              rw [h.packetAt hi' rfl] at hp'
              cases hp'
              rfl)⟩
        obtain ⟨p', hrun, hreads, -, hnew⟩ := nextPacketGo_plays h hchecks hregular hresizing
          hq hi' hsplit (.nil none) hone (.inr hcan) (file.packets.length - 1)
        refine .next ?_ (ih hreads hi'
          (.cons hone (.nil _)) hrest (hnew rfl))
        rw [hnext p hp.inStep.file_eq, hcross, hrun]

end

/-- **A player just opened reads the whole file.** -/
theorem readsToEnd_start (hregular : file.Regular x.zstd none) (hresizing : file.resizing = false)
    (hblobs : blobs ≠ []) {s' : Option Bytes} {out : List Packet}
    (hplays : Plays false none blobs.flatten s' out) : ReadsToEnd x (start file) out := by
  obtain ⟨first, rest, rfl⟩ := List.exists_cons_of_ne_nil hblobs
  have hstart := (following_start (z := x.zstd) file ⟨none, true, false⟩).inStep
  exact readsToEnd_of_plays h hchecks hregular hresizing ⟨hstart, rfl, rfl, rfl⟩ rfl
    (.nil none) hplays fun state hs ↦ by cases hs

/-- **A seek to a keyframe of a blob, and reading from there**, hands out what the packets from the
keyframe on play as. -/
theorem readsToEnd_seek (hregular : file.Regular x.zstd rom) (hresizing : file.resizing = false)
    (hindexed : file.StoredIndexed) (hp : p.InStep x.zstd rom file)
    (hwanted : p.keyframeStatesWanted = true) {frame : Nat}
    (hlocated : file.located x.zstd frame = some (.blob i, (streamBytes before).length))
    (hi : blobs[i]? = some (before ++ packet :: after)) (hclass : isKeyframeClass packet = true)
    {s s' : Option Bytes} {out outBefore : List Packet}
    (hbefore : Plays false none before s outBefore)
    (hplays : Plays false s (packet :: after ++ (blobs.drop (i + 1)).flatten) s' out) :
    ∃ p', goToKeyframe x frame p = .ok () p' ∧ ReadsToEnd x p' out := by
  have hback := readBack_of_class hclass
  rw [List.cons_append] at hplays
  cases hplays with
  | @cons _ s₁ _ _ o _ out hone hrest =>
    obtain ⟨state, rfl⟩ : ∃ state, s₁ = some state := by
      cases hone with
      | full metadata state => exact ⟨state, rfl⟩
      | @delta _ state => exact ⟨state, rfl⟩
      | other hno =>
        rw [hclass] at hno
        cases hno
    have hsplit : before ++ packet :: after = (before ++ [packet]) ++ after := by simp
    obtain ⟨q, hq, hstate⟩ := h.stateBefore hresizing hi hsplit (hbefore.snoc hone)
    obtain rfl : q = (streamBytes before).length :=
      Option.some.inj (hq.symm.trans (lastKeyframe_snoc hclass))
    have hspec := goToKeyframe_spec hregular hindexed rfl hchecks hp frame
    rw [hlocated] at hspec
    rcases hspec with ⟨p₁, hok, hmoved, hready, -⟩ | ⟨-, hnot⟩
    · have hstep : (p₁.atPosition (.blob i) (streamBytes before).length).InStep x.zstd rom file :=
        hmoved.inStep.congr rfl rfl rfl rfl
      have hreads : ReadsAt x.zstd rom file i (streamBytes before).length
          (p₁.atPosition (.blob i) (streamBytes before).length) := by
        refine ⟨hstep, ?_, rfl, rfl⟩
        rw [atPosition, hmoved.same]
        exact hwanted
      obtain ⟨packet', hat', hmoves⟩ := hstate.moves
      have hcan := hready.canFold hmoved.inStep.chain
        (h.isKeyframePos_of_split hi rfl hclass) ⟨hat', .inl ⟨hmoves, hstate⟩⟩
      rw [h.packetAt hi rfl] at hat'
      cases hat'
      obtain ⟨p', hrun, hreads', -, hprimed⟩ := nextPacketGo_plays h hchecks hregular hresizing
        hreads hi rfl hbefore hone (.inr hcan) file.packets.length
      have hnext : nextPacket x (p₁.atPosition (.blob i) (streamBytes before).length) =
          .ok (some o) p' := by
        rw [nextPacket, Act.get_bind_apply, hstep.file_eq, hrun]
      exact ⟨_, hok, .next hnext <| readsToEnd_of_plays h hchecks hregular hresizing hreads'
          (by simpa using hi) (hbefore.snoc hone) hrest (hprimed hclass)⟩
    · exact (hnot (.inl ⟨state, hstate⟩)).elim

end Blobs

end ReplayFilePlayer

end SuperShuckie
