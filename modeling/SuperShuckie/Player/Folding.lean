import SuperShuckie.Player.InStep

/-!
# Folding packets keeps a player in step

The invariant of the whole player, and what the operations on its blobs and its chain do to it.
Reading a blob only decodes more of it (`Decoding`); folding a packet moves the chain.
-/

set_option autoImplicit false

namespace SuperShuckie

open ByteFormat

namespace OpenedFile

variable (z : Zstd) (rom : Option Bytes) (file : OpenedFile)

/-- The offsets of a blob at which packets are read: the first packet, those that its table lists,
and any packet after one of them. -/
inductive ReadAt (i : Nat) : Nat → Prop
  | first : ReadAt i 0
  | listed {v : BlobView} {t : List Nat} {offset : Nat} : file.blobView z i = some v →
      v.offsets file.version = some t → offset ∈ t → ReadAt i offset
  | next {v : BlobView} {offset after : Nat} {packet : Packet} : ReadAt i offset →
      file.blobView z i = some v → v.parseAt file.version offset = some (packet, after) →
      ReadAt i after

/-- No table leaves out a keyframe of its blob. -/
def TablesComplete : Prop :=
  ∀ i offset v t packet after, file.ReadAt z i offset → file.blobView z i = some v →
    v.offsets file.version = some t → v.parseAt file.version offset = some (packet, after) →
    isKeyframeClass packet = true → offset ∈ t

/-- All keyframes of the file are stored ones. -/
def AllStored : Prop :=
  ∀ list pos packet, file.IsKeyframePos z list pos → file.packetAt z list pos = some packet →
    moves list packet = true → ∃ k, packet = .storedKeyframe k

/-- What makes the result of a seek a matter of the file alone. -/
structure Regular : Prop where
  resizes : file.ResizesApply z rom
  apart : file.DeltasApart z
  stored : file.StoredApply z rom ∨ file.AllStored z
  tables : file.TablesComplete z

end OpenedFile

namespace ReplayFilePlayer

/-- What is decoded shows the blobs of the file, and the chain is in step. -/
structure InStep (z : Zstd) (rom : Option Bytes) (file : OpenedFile) (p : ReplayFilePlayer) :
    Prop where
  file_eq : p.file = file
  rom_eq : p.rom = rom
  blobs : ∀ i d, p.decodedBlobs i = some d →
    ∃ v, file.blobView z i = some v ∧ d.Shows file.version v
  chain : p.chain.InStep z rom file

/-- `p'` is `p` with other things decoded and the chain elsewhere, and is in step; the blob that `p`
has open, if any, it has open too. -/
structure Moved (z : Zstd) (rom : Option Bytes) (file : OpenedFile) (p p' : ReplayFilePlayer) :
    Prop where
  inStep : p'.InStep z rom file
  same : p' = { p with decodedBlobs := p'.decodedBlobs, chain := p'.chain }
  isOpen : ∀ i, (p.decodedBlobs i).isSome = true → (p'.decodedBlobs i).isSome = true

/-- `p'` is `p` with more decoded of its blobs. -/
structure Decoding (z : Zstd) (rom : Option Bytes) (file : OpenedFile) (p p' : ReplayFilePlayer) :
    Prop extends Moved z rom file p p' where
  chain_eq : p'.chain = p.chain

variable {z : Zstd} {rom : Option Bytes} {file : OpenedFile} {p p₀ p' p'' : ReplayFilePlayer}
  {i : Nat} {v : BlobView}

theorem Moved.refl (h : p.InStep z rom file) : Moved z rom file p p := ⟨h, rfl, fun _ h ↦ h⟩

theorem Moved.trans (h : Moved z rom file p p') (h' : Moved z rom file p' p'') :
    Moved z rom file p p'' :=
  ⟨h'.inStep, by rw [h'.same, h.same], fun i hi ↦ h'.isOpen i (h.isOpen i hi)⟩

theorem Decoding.refl (h : p.InStep z rom file) : Decoding z rom file p p := ⟨.refl h, rfl⟩

theorem Decoding.trans (h : Decoding z rom file p p') (h' : Decoding z rom file p' p'') :
    Decoding z rom file p p'' := ⟨h.toMoved.trans h'.toMoved, h'.chain_eq.trans h.chain_eq⟩

theorem InStep.withChain (h : p.InStep z rom file) {chain : ChainState}
    (hchain : chain.InStep z rom file) : { p with chain := chain }.InStep z rom file :=
  ⟨h.file_eq, h.rom_eq, h.blobs, hchain⟩

theorem InStep.version_eq (h : p.InStep z rom file) : p.version = file.version := by
  rw [version, h.file_eq]
  rfl

/-! ## Reading a blob -/

/-- An operation on a blob computes, for the player, what it computes for the blob. -/
theorem computes_onBlob {α : Type} {f : BlobAction α} {r : Option α}
    (hv : file.blobView z i = some v) (hopen : (p₀.decodedBlobs i).isSome = true)
    (hf : Act.Computes (DecodedBlob.Shows file.version v) f r) :
    Act.Computes (Decoding z rom file p₀) (onBlob i f) r := by
  refine hf.focus (fun p hp ↦ ?_) (fun p d hp hd ↦ ⟨⟨⟨hp.inStep.file_eq, hp.inStep.rom_eq, ?_,
    hp.inStep.chain⟩, ?_, fun j hj ↦ ?_⟩, hp.chain_eq⟩)
  · obtain ⟨d, hd⟩ := Option.isSome_iff_exists.mp (hp.isOpen i hopen)
    obtain ⟨v', hv', hshows⟩ := hp.inStep.blobs i d hd
    rw [hv] at hv'
    cases hv'
    exact ⟨d, hd, hshows⟩
  · intro j d' hj
    dsimp only at hj
    split at hj
    · rename_i hji
      cases hj
      exact ⟨v, hji ▸ hv, hd⟩
    · exact hp.inStep.blobs j d' hj
  · dsimp only
    rw [hp.same]
  · dsimp only
    split
    · rfl
    · exact hp.isOpen j hj

/-! ## Folding -/

/-- The packet at a position can be folded: it does not move the chain, or it is a keyframe that
materialises and that the chain is ready for, or at already. -/
def CanFold (z : Zstd) (rom : Option Bytes) (file : OpenedFile) (list : ListId) (pos : Nat)
    (packet : Packet) (c : ChainState) : Prop :=
  (OpenedFile.moves list packet = false ∧
    (isKeyframeClass packet = false ∨ file.IsKeyframePos z list pos)) ∨
    (∃ s, file.StateAt z rom list pos s) ∧ (c.isAt list pos = true ∨ c.ReadyFor z file list pos)

/-- What folding the packet at a position does, if it can be: the chain gets to it, if it moves
the chain. -/
structure Folded (z : Zstd) (rom : Option Bytes) (file : OpenedFile) (list : ListId) (pos : Nat)
    (packet : Packet) (p p' : ReplayFilePlayer) : Prop extends Moved z rom file p p' where
  chain : if OpenedFile.moves list packet then
      ∃ s, p'.chain.At list pos s ∧ file.StateAt z rom list pos s
    else p'.chain = p.chain
  canFold : CanFold z rom file list pos packet p.chain

theorem keyframesBetween_iff {packets : List Packet} {a b : Nat} :
    ((packets.drop (a + 1)).take (b - (a + 1))).any isKeyframeClass = true ↔
      ∃ r, a < r ∧ r < b ∧ ∃ packet, packets[r]? = some packet ∧ isKeyframeClass packet = true := by
  simp only [List.any_eq_true, List.mem_iff_getElem?]
  constructor
  · rintro ⟨packet, ⟨n, hn⟩, hclass⟩
    rw [List.getElem?_take] at hn
    split at hn
    · rw [List.getElem?_drop] at hn
      exact ⟨a + 1 + n, by omega, by omega, packet, hn, hclass⟩
    · cases hn
  · rintro ⟨r, har, hrb, packet, hr, hclass⟩
    refine ⟨packet, ⟨r - (a + 1), ?_⟩, hclass⟩
    rw [List.getElem?_take, if_pos (by omega), List.getElem?_drop]
    rwa [show a + 1 + (r - (a + 1)) = r by omega]

/-- The top-level list knows the predecessor of a keyframe by its packets. -/
theorem holds_topLevel_iff {c : ChainState} (hc : c.InStep z rom file) {pos : Nat} :
    c.holdsPredecessorOf .topLevel pos (fun a b ↦
        ((file.packets.drop (a + 1)).take (b - (a + 1))).any isKeyframeClass) = true ↔
      c.list = some .topLevel ∧ ∃ q, c.lastApplied = some q ∧ file.Precedes z .topLevel q pos := by
  rw [ChainState.holdsPredecessorOf_iff]
  refine and_congr_right fun hlist ↦ exists_congr fun q ↦ and_congr_right fun hq ↦ ?_
  have hkey := hc.isKeyframePos hlist hq
  rw [← Bool.not_eq_true, keyframesBetween_iff]
  constructor
  · rintro ⟨hlt, hnone⟩
    exact ⟨hlt, hkey, fun r hqr hrp ⟨packet, hr, hclass⟩ ↦ hnone ⟨r, hqr, hrp, packet, hr, hclass⟩⟩
  · rintro ⟨hlt, -, hnone⟩
    exact ⟨hlt, fun ⟨r, hqr, hrp, packet, hr, hclass⟩ ↦ hnone r hqr hrp ⟨packet, hr, hclass⟩⟩

/-- A blob knows the predecessor of a keyframe by its offset table. -/
theorem holds_blob_iff {c : ChainState} (hc : c.InStep z rom file) (hv : file.blobView z i = some v)
    {t : List Nat} (ht : v.offsets file.version = some t) {pos : Nat} :
    c.holdsPredecessorOf (.blob i) pos (DecodedBlob.keyframeBetween t) = true ↔
      c.list = some (.blob i) ∧ ∃ q, c.lastApplied = some q ∧ file.Precedes z (.blob i) q pos := by
  rw [ChainState.holdsPredecessorOf_iff]
  refine and_congr_right fun hlist ↦ exists_congr fun q ↦ and_congr_right fun hq ↦ ?_
  have hkey := hc.isKeyframePos hlist hq
  have hpos_iff : ∀ r, file.IsKeyframePos z (.blob i) r ↔ r ∈ t := by
    intro r
    constructor
    · rintro ⟨v', t', hv', ht', hr⟩
      rw [hv] at hv'
      cases hv'
      rw [ht] at ht'
      cases ht'
      exact hr
    · exact fun hr ↦ ⟨v, t, hv, ht, hr⟩
  rw [← Bool.not_eq_true, keyframeBetween_iff (OpenedFile.offsets_sorted hv ht)]
  constructor
  · rintro ⟨hlt, hnone⟩
    exact ⟨hlt, hkey, fun r hqr hrp hr ↦ hnone ⟨r, (hpos_iff r).mp hr, hqr, hrp⟩⟩
  · rintro ⟨hlt, -, hnone⟩
    exact ⟨hlt, fun ⟨r, hr, hqr, hrp⟩ ↦ hnone r hqr hrp ((hpos_iff r).mpr hr)⟩

section Folding

variable (hregular : file.Regular z rom)
include hregular

/-- Folding the chain of a player at a keyframe. -/
theorem onChain_fold_spec (hp : p.InStep z rom file) {list : ListId} {pos : Nat} {packet : Packet}
    (hpos : file.IsKeyframePos z list pos) (hat : file.packetAt z list pos = some packet)
    (hclass : isKeyframeClass packet = true) (hnotStored : ∀ k, packet ≠ .storedKeyframe k)
    (hnotAt : p.chain.isAt list pos = false) {held : Bool} (hheld : held = true ↔
      p.chain.list = some list ∧ ∃ q, p.chain.lastApplied = some q ∧ file.Precedes z list q pos) :
    (∃ p', onChain (ChainState.fold list pos packet held) p = .ok () p' ∧
      Folded z rom file list pos packet p p') ∨
    (∃ e, onChain (ChainState.fold list pos packet held) p = .error e p) ∧
      ¬ CanFold z rom file list pos packet p.chain := by
  have hmoves : OpenedFile.moves list packet = true :=
    OpenedFile.moves_of_not_stored hclass hnotStored
  rcases ChainState.fold_spec hp.chain hregular.resizes hregular.apart hpos hat hclass hnotStored
    hheld with ⟨c', s, hok, hc', hat', hs, hready⟩ | ⟨⟨e, herr⟩, hnot⟩
  · refine .inl ⟨{ p with chain := c' }, ?_, ⟨hp.withChain hc', rfl, fun i h ↦ h⟩, ?_,
      .inr ⟨⟨s, hs⟩, .inr hready⟩⟩
    · simp only [onChain, Act.focus, hok]
    · rw [if_pos hmoves]
      exact ⟨s, hat', hs⟩
  · refine .inr ⟨⟨e, ?_⟩, ?_⟩
    · simp only [onChain, Act.focus, herr]
    · rintro (⟨hno, -⟩ | ⟨hstate, hready | hready⟩)
      · rw [hmoves] at hno
        cases hno
      · rw [hnotAt] at hready
        cases hready
      · exact hnot ⟨hstate, hready⟩

/-- A failure to fold a stored keyframe leaves the chain in step. -/
theorem InStep.withStored (hp : p.InStep z rom file) {s : StoredBuffers}
    (hs : s.InStep z rom file) (hcurrent : s.current = p.chain.stored.current ∨ s.current = none ∨
      ¬ file.StoredApply z rom) : (p.withStored s).InStep z rom file := by
  refine ⟨hp.file_eq, hp.rom_eq, hp.blobs, hp.chain.resizing, hs, fun list pos hlist hpos ↦ ?_⟩
  rcases hp.chain.state list pos hlist hpos with hstored | ⟨hnone, hstate⟩
  · exact .inl hstored
  · rcases hcurrent with h | h | hno
    · exact .inr ⟨h.trans hnone, hstate⟩
    · exact .inr ⟨h, hstate⟩
    · obtain ⟨packet, hpacket, hmoves⟩ := hstate.moves
      obtain ⟨k, rfl⟩ := hregular.stored.resolve_left hno list pos packet hstate.isKeyframePos
        hpacket hmoves
      cases list with
      | topLevel => exact .inl ⟨rfl, k, hpacket⟩
      | blob b => cases hmoves

omit hregular in
/-- The chain at a stored keyframe, with other buffers. -/
theorem InStep.atStored (hp : p.InStep z rom file) {s : StoredBuffers}
    (hs : s.InStep z rom file) {pos : Nat} {keyframe : StoredKeyframe}
    (hpos : file.packets[pos]? = some (.storedKeyframe keyframe)) : { p with chain := { p.chain with
      stored := s, list := some .topLevel, lastApplied := some pos } }.InStep z rom file := by
  refine ⟨hp.file_eq, hp.rom_eq, hp.blobs, hp.chain.resizing, hs, fun list q hlist hq ↦ ?_⟩
  cases hlist
  cases hq
  exact .inl ⟨rfl, keyframe, hpos⟩

variable (hindexed : file.StoredIndexed)
include hindexed

theorem foldTopLevel_spec {x : Externals} (hz : x.zstd = z) (hp : p.InStep z rom file)
    {index : Nat} {packet : Packet} (hat : file.packets[index]? = some packet) :
    (∃ p', foldTopLevel x index p = .ok () p' ∧ Folded z rom file .topLevel index packet p p') ∨
    (∃ e p', foldTopLevel x index p = .error e p' ∧ Moved z rom file p p') ∧
      ¬ CanFold z rom file .topLevel index packet p.chain := by
  subst hz
  have hfile := hp.file_eq
  by_cases hstored : ∃ k, packet = .storedKeyframe k
  · obtain ⟨keyframe, rfl⟩ := hstored
    have hnotFold : (¬ ∃ s, file.StateAt x.zstd rom .topLevel index s) →
        ¬ CanFold x.zstd rom file .topLevel index (.storedKeyframe keyframe) p.chain := by
      rintro hno (⟨hmoves, -⟩ | ⟨hs, -⟩)
      · cases hmoves
      · exact hno hs
    simp only [foldTopLevel, Act.get_bind_apply, hfile, hat]
    cases hindex : file.storedIndexOf index with
    | error e =>
      refine .inr ⟨⟨e, p, rfl, .refl hp⟩, hnotFold ?_⟩
      rintro ⟨s, hs⟩
      obtain ⟨k, _, hk, -⟩ := (OpenedFile.StateAt.stored_iff hat).mp hs
      rw [hindex] at hk
      cases hk
    | ok k =>
      simp only [Act.ofExcept, Act.pure_bind_apply]
      obtain ⟨info, hinfo, hpacketEq⟩ := OpenedFile.info_of_storedIndexOf hindex
      rcases foldStored_spec hfile hp.rom_eq hp.chain.buffers hindexed hinfo with
        ⟨p', s, b, hok, hp', hs, hcurrent, hb⟩ | ⟨e, s, herr, hs, hcurrent, hnot⟩
      · subst hp'
        have hstate : file.StateAt x.zstd rom .topLevel index (s.states b) :=
          (OpenedFile.StateAt.stored_iff hat).mpr ⟨k, _, hindex, hs b k hb⟩
        refine .inl ⟨_, hok, ⟨hp.atStored hs (hpacketEq ▸ hat), rfl, fun i h ↦ h⟩, ?_,
          .inr ⟨⟨_, hstate⟩, .inr (.inl fun packet hpacket ↦ ?_)⟩⟩
        · rw [if_pos (show OpenedFile.moves .topLevel (.storedKeyframe keyframe) = true from rfl)]
          refine ⟨s.states b, ⟨rfl, by rw [hpacketEq], ?_⟩, hstate⟩
          simp only [ChainState.current, hcurrent]
        · cases hat.symm.trans hpacket
          rfl
      · refine .inr ⟨⟨e, _, herr, hp.withStored hregular hs hcurrent, rfl, fun i h ↦ h⟩,
          hnotFold ?_⟩
        rintro ⟨state, hstate⟩
        obtain ⟨k', payload, hk', hstate'⟩ := (OpenedFile.StateAt.stored_iff hat).mp hstate
        rw [hindex] at hk'
        cases hk'
        exact hnot ⟨payload, state, hstate'⟩
  · rw [not_exists] at hstored
    rw [foldTopLevel_of_not_stored (hfile ▸ hat) hstored, hfile]
    by_cases hclass : isKeyframeClass packet = true
    · have hpos : file.IsKeyframePos x.zstd .topLevel index := ⟨packet, hat, hclass⟩
      by_cases hisAt : p.chain.isAt .topLevel index = true
      · left
        obtain ⟨s, hs, hstate⟩ := hp.chain.at_of_isAt hisAt fun _ k hk ↦
          hstored k (Option.some.inj (hat.symm.trans hk))
        refine ⟨p, by simp only [hisAt, or_true, if_true]; rfl, .refl hp, ?_,
          .inr ⟨⟨s, hstate⟩, .inl hisAt⟩⟩
        rw [if_pos (show OpenedFile.moves .topLevel packet = true from hclass)]
        exact ⟨s, hs, hstate⟩
      · rw [Bool.not_eq_true] at hisAt
        simp only [hclass, hisAt, Bool.true_eq_false, Bool.false_eq_true, or_self, if_false]
        rcases onChain_fold_spec hregular hp hpos hat hclass hstored hisAt
          (holds_topLevel_iff hp.chain) with hok | ⟨⟨e, herr⟩, hnot⟩
        · exact .inl hok
        · exact .inr ⟨⟨e, p, herr, .refl hp⟩, hnot⟩
    · rw [Bool.not_eq_true] at hclass
      have hmoves : OpenedFile.moves .topLevel packet = false := hclass
      exact .inl ⟨p, by simp only [hclass, true_or, if_true]; rfl, .refl hp, by simp [hmoves],
        .inl ⟨hmoves, .inl hclass⟩⟩

omit hindexed

/-- Reading the packet at an offset of a blob, which the offset table lists if it is a keyframe. -/
theorem foldInBlob_spec (hp : p.InStep z rom file) (hopen : (p.decodedBlobs i).isSome)
    (hv : file.blobView z i = some v) {offset : Nat}
    (hlisted : ∀ t packet next, v.offsets file.version = some t →
      v.parseAt file.version offset = some (packet, next) → isKeyframeClass packet = true →
      offset ∈ t) :
    match v.parseAt file.version offset with
    | none => ∃ e p', foldInBlob i offset p = .error e p' ∧ Decoding z rom file p p'
    | some (packet, next) =>
      (∃ p', foldInBlob i offset p = .ok (packet, next) p' ∧
        Folded z rom file (.blob i) offset packet p p') ∨
      (∃ e p', foldInBlob i offset p = .error e p' ∧ Decoding z rom file p p') ∧
        ¬ CanFold z rom file (.blob i) offset packet p.chain := by
  have hparse := computes_onBlob hv hopen
    (DecodedBlob.computes_parseAt file.version offset v) p (.refl hp)
  rw [foldInBlob_apply, hp.version_eq]
  cases hr : v.parseAt file.version offset with
  | none =>
    rw [hr] at hparse
    obtain ⟨e, p', herr, hp'⟩ := hparse
    refine ⟨e, p', ?_, hp'⟩
    rw [Act.bind_apply, herr]
  | some r =>
    obtain ⟨packet, next⟩ := r
    rw [hr] at hparse
    obtain ⟨p₁, hok₁, hp₁⟩ := hparse
    rw [Act.bind_apply, hok₁]
    dsimp only
    have hchain₁ := hp₁.chain_eq
    by_cases hclass : isKeyframeClass packet = true
    · have hoffsets := computes_onBlob hv hopen (DecodedBlob.computes_offsets file.version v) p₁ hp₁
      have hat : file.packetAt z (.blob i) offset = some packet := by
        simp only [OpenedFile.packetAt, hv, Option.bind_some, hr, Option.map_some]
      simp only [hclass, if_true, Act.bind_apply (onBlob i (DecodedBlob.offsets file.version))]
      cases ht : v.offsets file.version with
      | none =>
        rw [ht] at hoffsets
        obtain ⟨e, p₂, herr₂, hp₂⟩ := hoffsets
        have hnotPos : ¬ file.IsKeyframePos z (.blob i) offset := by
          rintro ⟨v', t, hv', ht', -⟩
          rw [hv] at hv'
          cases hv'
          rw [ht] at ht'
          cases ht'
        refine .inr ⟨⟨e, p₂, by rw [herr₂], hp₂⟩, ?_⟩
        rintro (⟨-, hno | hpos⟩ | ⟨⟨s, hs⟩, -⟩)
        · rw [hclass] at hno
          cases hno
        · exact hnotPos hpos
        · exact hnotPos hs.isKeyframePos
      | some t =>
        rw [ht] at hoffsets
        obtain ⟨p₂, hok₂, hp₂⟩ := hoffsets
        have hpos : file.IsKeyframePos z (.blob i) offset :=
          ⟨v, t, hv, ht, hlisted t packet next ht hr hclass⟩
        have hchain₂ := hp₂.chain_eq
        simp only [hok₂, Act.get_bind_apply, hchain₂]
        by_cases hstored : ∃ k, packet = .storedKeyframe k
        · obtain ⟨k, rfl⟩ := hstored
          left
          refine ⟨p₂, ?_, hp₂.toMoved, by simpa [OpenedFile.moves] using hchain₂,
            .inl ⟨rfl, .inr hpos⟩⟩
          cases p.chain.isAt (.blob i) offset <;> rfl
        · rw [not_exists] at hstored
          by_cases hisAt : p.chain.isAt (.blob i) offset = true
          · left
            obtain ⟨s, hs, hstate⟩ := hp₂.inStep.chain.at_of_isAt (hchain₂ ▸ hisAt)
              fun h ↦ by cases h
            refine ⟨p₂, by simp only [hisAt, if_true]; rfl, hp₂.toMoved, ?_,
              .inr ⟨⟨s, hstate⟩, .inl hisAt⟩⟩
            rw [if_pos (OpenedFile.moves_of_not_stored hclass hstored)]
            exact ⟨s, hs, hstate⟩
          · rw [Bool.not_eq_true] at hisAt
            have hfold := onChain_fold_spec hregular hp₂.inStep hpos hat hclass hstored
              (by rw [hchain₂, hisAt]) (holds_blob_iff hp₂.inStep.chain hv ht)
            simp only [hchain₂] at hfold
            simp only [hisAt, Bool.false_eq_true, if_false]
            rcases hfold with ⟨p', hok, hfolded⟩ | ⟨⟨e, herr⟩, hnot⟩
            · refine .inl ⟨p', by rw [Act.bind_apply, hok]; rfl,
                hp₂.toMoved.trans hfolded.toMoved, ?_, hchain₂ ▸ hfolded.canFold⟩
              have := hfolded.chain
              rwa [hchain₂] at this
            · exact .inr ⟨⟨e, p₂, by rw [Act.bind_apply, herr], hp₂⟩, hnot⟩
    · rw [Bool.not_eq_true] at hclass
      simp only [hclass, Bool.false_eq_true, if_false]
      have hmoves : OpenedFile.moves (.blob i) _ = false := OpenedFile.moves_of_not_class hclass
      refine .inl ⟨p₁, rfl, hp₁.toMoved, ?_, .inl ⟨hmoves, .inl hclass⟩⟩
      rw [hmoves]
      exact hchain₁

end Folding

end ReplayFilePlayer

end SuperShuckie
