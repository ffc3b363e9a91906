import SuperShuckie.Lib.Commutes
import SuperShuckie.Player.History

/-!
# Where a seek lands

A seek into a blob goes to the offset that the table has at the place of the frame in the metadata
list, and nothing compares the packet there with the frame.  So what is handed out after a seek is a
keyframe of the frame just when the packet that the cursor was left at says so itself
(`seek_lands_iff`), whatever the file and the calls before the seek were.

Nothing is assumed of the file here.  What the calls keep is what is decoded and what the buffers
hold (`Reads`); the state of the chain may be anything.
-/

set_option autoImplicit false

namespace SuperShuckie

open ByteFormat

/-! ## Folding anything -/

namespace ChainState

/-- The packet at a position can be folded: the chain is there, or the packet is no delta, or it is
one that applies to the keyframe before it, which the chain holds. -/
def Folds (c : ChainState) (list : ListId) (pos : Nat) (between : Nat → Nat → Bool)
    (packet : Packet) : Prop :=
  c.isAt list pos = true ∨ isDelta packet = false ∨
    (c.holdsPredecessorOf list pos between = true ∧
      (OpenedFile.applyDelta c.resizing c.state packet).isSome = true)

/-- A fold moves the chain or fails, and leaves what the buffers hold. -/
theorem fold_settles (c : ChainState) (list : ListId) (pos : Nat) (packet : Packet) (held : Bool) :
    match fold list pos packet held c with
    | .ok _ c' => (isDelta packet = true →
        held = true ∧ (OpenedFile.applyDelta c.resizing c.state packet).isSome = true) ∧
        c'.stored.holds = c.stored.holds ∧ c'.stored.states = c.stored.states ∧
        c'.stored.payloads = c.stored.payloads
    | .error _ c' => (isDelta packet = true ∧ (held = true →
        OpenedFile.applyDelta c.resizing c.state packet = none)) ∧ c'.stored = c.stored
    | .abort => False := by
  cases packet with
  | keyframe metadata state => exact ⟨fun h ↦ (by cases h), rfl, rfl, rfl⟩
  | deltaKeyframe metadata diff =>
    cases held with
    | false => exact ⟨⟨rfl, fun h ↦ by cases h⟩, rfl⟩
    | true =>
      simp only [fold, if_true, Act.get_bind_apply, OpenedFile.applyDelta]
      cases applyDiffInPlace c.state diff with
      | none => exact ⟨⟨rfl, fun _ ↦ rfl⟩, rfl⟩
      | some s => exact ⟨fun _ ↦ ⟨trivial, rfl⟩, rfl, rfl, rfl⟩
  | regionDeltaKeyframe metadata stateLen control data =>
    cases held with
    | false => exact ⟨⟨rfl, fun h ↦ by cases h⟩, rfl⟩
    | true =>
      have hfit := fitState_spec stateLen c
      simp only [fold, if_true, OpenedFile.applyDelta]
      by_cases heq : stateLen.toNat = c.state.length
      · rw [if_pos heq] at hfit
        rw [if_pos heq, Act.bind_apply, hfit]
        simp only [Act.get_bind_apply]
        cases applyRegionDiffInPlace c.state control data with
        | none => exact ⟨⟨rfl, fun _ ↦ rfl⟩, rfl⟩
        | some s => exact ⟨fun _ ↦ ⟨trivial, rfl⟩, rfl, rfl, rfl⟩
      · rw [if_neg heq] at hfit
        rw [if_neg heq, Act.bind_apply]
        by_cases hbad : c.resizing = false ∨ plausibleLen c.state.length < stateLen.toNat
        · rw [if_pos hbad] at hfit
          obtain ⟨e, he⟩ := hfit
          rw [he, if_pos hbad]
          exact ⟨⟨rfl, fun _ ↦ rfl⟩, rfl⟩
        · rw [if_neg hbad] at hfit
          rw [hfit, if_neg hbad]
          simp only [Act.get_bind_apply]
          cases applyRegionDiffInPlace (resizeZero c.state stateLen.toNat) control data with
          | none => exact ⟨⟨rfl, fun _ ↦ rfl⟩, rfl⟩
          | some s => exact ⟨fun _ ↦ ⟨trivial, rfl⟩, rfl, rfl, rfl⟩
  | _ => exact ⟨fun h ↦ (by cases h), rfl, rfl, rfl⟩

end ChainState

theorem StoredBuffers.InStep.congr {z : Zstd} {rom : Option Bytes} {file : OpenedFile}
    {s s' : StoredBuffers} (h : s.InStep z rom file) (hholds : s'.holds = s.holds)
    (hstates : s'.states = s.states) (hpayloads : s'.payloads = s.payloads) :
    s'.InStep z rom file := by
  intro b k hb
  rw [hstates, hpayloads]
  exact h b k (hholds ▸ hb)

namespace ReplayFilePlayer

variable {z : Zstd} {rom : Option Bytes} {file : OpenedFile} {p p' : ReplayFilePlayer}

/-! ## Players of a file -/

/-- The player with another chain. -/
def withChain (c : ChainState) (p : ReplayFilePlayer) : ReplayFilePlayer := { p with chain := c }

/-- The player with a chain that is nowhere, and with its buffers. -/
def restarted (p : ReplayFilePlayer) : ReplayFilePlayer :=
  p.withChain { ChainState.new p.file.resizing with stored := p.chain.stored }

/-- What the player has decoded shows the blobs of the file, and its buffers hold the states they
say; nothing is said of the state of its chain. -/
def Reads (z : Zstd) (rom : Option Bytes) (file : OpenedFile) (p : ReplayFilePlayer) : Prop :=
  p.restarted.InStep z rom file

theorem reads_iff : p.Reads z rom file ↔ p.file = file ∧ p.rom = rom ∧
    (∀ i d, p.decodedBlobs i = some d → ∃ v, file.blobView z i = some v ∧ d.Shows file.version v) ∧
    p.chain.stored.InStep z rom file := by
  constructor
  · exact fun h ↦ ⟨h.file_eq, h.rom_eq, h.blobs, h.chain.buffers⟩
  · rintro ⟨rfl, hrom, hblobs, hbuffers⟩
    exact ⟨rfl, hrom, hblobs, rfl, hbuffers, fun list pos h ↦ by cases h⟩

theorem Reads.file_eq (h : p.Reads z rom file) : p.file = file := (reads_iff.mp h).1

theorem Reads.buffers (h : p.Reads z rom file) : p.chain.stored.InStep z rom file :=
  (reads_iff.mp h).2.2.2

theorem Reads.version_eq (h : p.Reads z rom file) : p.version = file.version := by
  rw [version, h.file_eq]
  rfl

/-- Being a player of the file is about the file, the ROM, the blobs and the buffers. -/
theorem Reads.congr (h : p.Reads z rom file) (hfile : p'.file = p.file) (hrom : p'.rom = p.rom)
    (hblobs : p'.decodedBlobs = p.decodedBlobs)
    (hholds : p'.chain.stored.holds = p.chain.stored.holds)
    (hstates : p'.chain.stored.states = p.chain.stored.states)
    (hpayloads : p'.chain.stored.payloads = p.chain.stored.payloads) : p'.Reads z rom file := by
  obtain ⟨hf, hr, hb, hs⟩ := reads_iff.mp h
  exact reads_iff.mpr ⟨hfile.trans hf, hrom.trans hr, fun i d hd ↦ hb i d (by rwa [← hblobs]),
    hs.congr hholds hstates hpayloads⟩

theorem Reads.withStored (h : p.Reads z rom file) {s : StoredBuffers} (hs : s.InStep z rom file) :
    (p.withStored s).Reads z rom file := by
  obtain ⟨hf, hr, hb, -⟩ := reads_iff.mp h
  exact reads_iff.mpr ⟨hf, hr, hb, hs⟩

theorem Reads.atPosition (hp : p.Reads z rom file) (list : ListId) (pos : Nat) :
    (p.atPosition list pos).Reads z rom file := by
  cases list <;> exact hp.congr rfl rfl rfl rfl rfl rfl

theorem cleanup_withChain (c : ChainState) (p : ReplayFilePlayer) :
    (p.withChain c).cleanup = p.cleanup.withChain c := by
  by_cases henabled : p.cleanupEnabled = true
  · cases hlast : (p.file.blobIndices.filter fun i ↦ i < p.nextUncompressedPacketIndex).getLast?
    all_goals simp only [cleanup, withChain, henabled, hlast, if_true]
  · simp only [cleanup, withChain, henabled, Bool.false_eq_true, if_false]

theorem Reads.cleanup (h : p.Reads z rom file) : p.cleanup.Reads z rom file := by
  have hclean := InStep.cleanup h
  rw [restarted, cleanup_withChain] at hclean
  have hsame := cleanup_same p
  refine reads_iff.mpr ⟨?_, ?_, hclean.blobs, ?_⟩
  · rw [hsame]
    exact h.file_eq
  · rw [hsame]
    exact (reads_iff.mp h).2.1
  · rw [hsame]
    exact h.buffers

/-- `p'` is `p` with more decoded of its blobs. -/
structure Scans (z : Zstd) (rom : Option Bytes) (file : OpenedFile) (p p' : ReplayFilePlayer) :
    Prop where
  reads : p'.Reads z rom file
  same : p' = { p with decodedBlobs := p'.decodedBlobs }
  isOpen : ∀ i, (p.decodedBlobs i).isSome = true → (p'.decodedBlobs i).isSome = true

theorem Decoding.scans {q : ReplayFilePlayer} (h : Decoding z rom file p.restarted q) :
    Scans z rom file p (q.withChain p.chain) := by
  have hq := h.same
  refine ⟨?_, ?_, h.isOpen⟩
  · refine reads_iff.mpr ⟨h.inStep.file_eq, h.inStep.rom_eq, h.inStep.blobs, ?_⟩
    have hbuffers := h.inStep.chain.buffers
    rw [h.chain_eq] at hbuffers
    exact hbuffers
  · rw [hq]
    rfl

/-! ## Reading a blob does not look at the chain -/

variable {α : Type}

theorem commutes_onBlob (c : ChainState) (i : Nat) (f : BlobAction α) :
    Act.Commutes (withChain c) (onBlob i f) := by
  intro p
  have hblobs : (p.withChain c).decodedBlobs i = p.decodedBlobs i := rfl
  simp only [onBlob, Act.focus, hblobs]
  cases p.decodedBlobs i with
  | none => rfl
  | some d =>
    dsimp only
    cases f d <;> rfl

theorem commutes_ofExcept {ε : Type} (c : ChainState) (r : Except ε α) :
    Act.Commutes (withChain c) (Act.ofExcept r) := by
  cases r with
  | ok a => exact .pure a
  | error e => exact .fail e

theorem commutes_decompressImmediately (x : Externals) (c : ChainState) (i : Nat) :
    Act.Commutes (withChain c) (decompressImmediately x i) := by
  refine .get_bind (fun p ↦ rfl) fun p ↦ .ite (.pure ()) ?_
  split
  · exact (commutes_ofExcept c _).bind fun d ↦ .modify fun p ↦ rfl
  · exact .abort

theorem commutes_seekRead {c : ChainState} {f : PlayerAction α} (h : Act.Commutes (withChain c) f) :
    Act.Commutes (withChain c) (seekRead f) := by
  intro p
  rw [seekRead, seekRead, h p]
  cases f p <;> rfl

theorem commutes_locateKeyframe (x : Externals) (c : ChainState) (frame : Nat) :
    Act.Commutes (withChain c) (locateKeyframe x frame) := by
  refine .get_bind (fun p ↦ rfl) fun p ↦ .ite ?_ (commutes_seekRead ?_)
  · split
    · exact .fail _
    · exact .abort
  · refine .get_bind (fun p ↦ rfl) fun p ↦ ?_
    split
    · exact .fail _
    · exact .pure _
    · refine (commutes_decompressImmediately x c _).bind fun _ ↦
        (commutes_onBlob c _ _).bind fun offsets ↦ ?_
      split
      · exact .fail _
      · exact .pure _

/-- What an action does that does not look at the chain, it does from any chain. -/
theorem gives_of_commutes {ε : Type} {f : Act ε ReplayFilePlayer α} {r : Option α}
    (hf : ∀ c, Act.Commutes (withChain c) f)
    (h : Act.Gives (Decoding z rom file p.restarted) r (f p.restarted)) :
    Act.Gives (Scans z rom file p) r (f p) := by
  have hp : f p = (f p.restarted).mapState (withChain p.chain) := hf p.chain p.restarted
  rw [hp]
  cases r with
  | none =>
    obtain ⟨e, q, hq, hdec⟩ := h
    exact ⟨e, q.withChain p.chain, by rw [hq]; rfl, hdec.scans⟩
  | some a =>
    obtain ⟨q, hq, hdec⟩ := h
    exact ⟨q.withChain p.chain, by rw [hq]; rfl, hdec.scans⟩

/-- An operation on a blob computes what it computes for the blob. -/
theorem gives_onBlob {f : BlobAction α} {r : Option α} {i : Nat} {v : BlobView}
    (hp : p.Reads z rom file) (hv : file.blobView z i = some v)
    (hopen : (p.decodedBlobs i).isSome = true)
    (hf : Act.Computes (DecodedBlob.Shows file.version v) f r) :
    Act.Gives (Scans z rom file p) r (onBlob i f p) :=
  have hopen' : (p.restarted.decodedBlobs i).isSome = true := hopen
  gives_of_commutes (fun c ↦ commutes_onBlob c i f)
    (computes_onBlob hv hopen' hf p.restarted (.refl hp))

/-! ## The calls keep a player of the file -/

/-- The action leaves a player of the file one of the file. -/
abbrev KeepsReads {ε α : Type} (z : Zstd) (rom : Option Bytes) (file : OpenedFile)
    (f : Act ε ReplayFilePlayer α) : Prop :=
  Act.Hoare (Reads z rom file) f (fun _ ↦ Reads z rom file) (Reads z rom file)

theorem keepsReads_seekRead {f : PlayerAction α} (h : KeepsReads z rom file f) :
    KeepsReads z rom file (seekRead f) := by
  intro p hp
  rw [seekRead]
  cases hrun : f p with
  | ok a p' => exact h.ok hp hrun
  | error e p' => exact h.error hp hrun
  | abort => trivial

theorem keepsReads_onBlob {f : BlobAction α} {r : BlobView → Option α}
    (hf : ∀ v, Act.Computes (DecodedBlob.Shows file.version v) f (r v)) (i : Nat) :
    KeepsReads z rom file (onBlob i f) := by
  intro p hp
  cases hslot : p.decodedBlobs i with
  | none => simp only [onBlob, Act.focus, hslot]
  | some d =>
    obtain ⟨v, hv, -⟩ := (reads_iff.mp hp).2.2.1 i d hslot
    have hscan := gives_onBlob hp hv (by rw [hslot]; rfl) (hf v)
    cases hr : r v with
    | none =>
      rw [hr] at hscan
      obtain ⟨e, p', herr, hp'⟩ := hscan
      rw [herr]
      exact hp'.reads
    | some a =>
      rw [hr] at hscan
      obtain ⟨p', hok, hp'⟩ := hscan
      rw [hok]
      exact hp'.reads

/-- A fold of the chain never aborts. -/
theorem onChain_fold_settles (hp : p.Reads z rom file) (list : ListId) (pos : Nat) (packet : Packet)
    (held : Bool) :
    (onChain (ChainState.fold list pos packet held) p).Leaves (Reads z rom file) := by
  have hfold := ChainState.fold_settles p.chain list pos packet held
  simp only [onChain, Act.focus]
  cases hrun : ChainState.fold list pos packet held p.chain with
  | ok u c =>
    rw [hrun] at hfold
    exact hp.congr rfl rfl rfl hfold.2.1 hfold.2.2.1 hfold.2.2.2
  | error e c =>
    rw [hrun] at hfold
    have hstored : c.stored = p.chain.stored := hfold.2
    exact hp.congr rfl rfl rfl (by rw [hstored]) (by rw [hstored]) (by rw [hstored])
  | abort =>
    rw [hrun] at hfold
    exact hfold

section Calls

variable {x : Externals} (hz : x.zstd = z) (hindexed : file.StoredIndexed)
include hz hindexed

theorem foldStored_settles (hp : p.Reads z rom file) {k : Nat} {info : StoredKeyframeInfo}
    (hinfo : file.storedKeyframes[k]? = some info) :
    (foldStored x k p).Leaves (Reads z rom file) := by
  subst hz
  obtain ⟨hfile, hrom, hblobs, hbuffers⟩ := reads_iff.mp hp
  rcases foldStored_spec hfile hrom hbuffers hindexed hinfo with
    ⟨p', s, b, hok, rfl, hs, -, -⟩ | ⟨e, s, herr, hs, -, -⟩
  · rw [hok]
    exact reads_iff.mpr ⟨hfile, hrom, hblobs, hs⟩
  · rw [herr]
    exact hp.withStored hs

/-- Folding a packet of the top-level list never aborts. -/
theorem foldTopLevel_settles (hp : p.Reads z rom file) {index : Nat} {packet : Packet}
    (hat : file.packets[index]? = some packet) :
    (foldTopLevel x index p).Leaves (Reads z rom file) := by
  by_cases hstored : ∃ k, packet = .storedKeyframe k
  · obtain ⟨keyframe, rfl⟩ := hstored
    rw [foldTopLevel, Act.get_bind_apply, hp.file_eq, hat]
    dsimp only
    cases hindex : file.storedIndexOf index with
    | error e => exact hp
    | ok k =>
      obtain ⟨info, hinfo, -⟩ := OpenedFile.info_of_storedIndexOf hindex
      exact foldStored_settles hz hindexed hp hinfo
  · rw [not_exists] at hstored
    rw [foldTopLevel_of_not_stored (hp.file_eq ▸ hat) hstored, hp.file_eq]
    split_ifs
    · exact hp
    · exact onChain_fold_settles hp .topLevel index packet _

theorem keepsReads_foldTopLevel (index : Nat) : KeepsReads z rom file (foldTopLevel x index) := by
  intro p hp
  cases hat : file.packets[index]? with
  | none =>
    rw [foldTopLevel, Act.get_bind_apply, hp.file_eq, hat]
    trivial
  | some packet =>
    exact Act.Hoare.of_leaves (P := (· = p))
      (fun q hq ↦ hq ▸ foldTopLevel_settles hz hindexed hp hat) p rfl

theorem keepsReads_fastForwardStoredChain (target : Nat) :
    KeepsReads z rom file (fastForwardStoredChain x target) := by
  intro p hp
  rw [fastForwardStoredChain, Act.get_bind_apply, hp.file_eq]
  cases hindex : file.storedIndexOf target with
  | error e => exact hp
  | ok k =>
    obtain ⟨info, hinfo, -⟩ := OpenedFile.info_of_storedIndexOf hindex
    simp only [Act.ofExcept, Act.pure_bind_apply]
    split_ifs
    · exact hp
    · simp only [hinfo]
      cases href : info.reference with
      | none => exact hp
      | some r =>
        dsimp only
        split_ifs
        · obtain ⟨hk, -⟩ := List.getElem?_eq_some_iff.mp hinfo
          have hr : r < file.storedKeyframes.length := ((hindexed k info hinfo).2 r href).trans hk
          exact Act.Hoare.of_leaves (P := (· = p)) (fun q hq ↦ hq ▸
            foldStored_settles hz hindexed hp (List.getElem?_eq_getElem hr)) p rfl
        · exact hp

omit hz hindexed in
theorem keepsReads_restartInBlob (i : Nat) (offsets : List (Nat × Nat)) :
    KeepsReads z rom file (restartInBlob i offsets) := by
  induction offsets with
  | nil => exact Act.Hoare.pure fun p hp ↦ hp
  | cons entry offsets ih =>
    obtain ⟨offset, j⟩ := entry
    refine (keepsReads_onBlob
      (DecodedBlob.computes_isFullKeyframeAt file.version offset) i).bind fun full ↦ ?_
    split_ifs
    · exact Act.Hoare.pure fun p hp ↦ hp
    · exact ih

omit hz hindexed in
/-- Reading the packet at an offset of a blob: it is parsed and, if it is a keyframe, folded. -/
theorem foldInBlob_settles (hp : p.Reads z rom file) {i : Nat} {v : BlobView}
    (hv : file.blobView z i = some v) (hopen : (p.decodedBlobs i).isSome = true) (offset : Nat) :
    (foldInBlob i offset p).Leaves (Reads z rom file) ∧
    ∀ r, (∃ p', foldInBlob i offset p = .ok r p') ↔
      v.parseAt file.version offset = some r ∧ (isKeyframeClass r.1 = true →
        ∃ t, v.offsets file.version = some t ∧
          p.chain.Folds (.blob i) offset (DecodedBlob.keyframeBetween t) r.1) := by
  have hparse := gives_onBlob hp hv hopen (DecodedBlob.computes_parseAt file.version offset v)
  rw [foldInBlob_apply, hp.version_eq, Act.bind_apply]
  cases hr : v.parseAt file.version offset with
  | none =>
    rw [hr] at hparse
    obtain ⟨e, p', herr, hp'⟩ := hparse
    rw [herr]
    refine ⟨hp'.reads, fun r ↦ ⟨?_, fun h ↦ by cases h.1⟩⟩
    rintro ⟨q, hq⟩
    cases hq
  | some r =>
    obtain ⟨packet, next⟩ := r
    rw [hr] at hparse
    obtain ⟨p₁, hok₁, hp₁⟩ := hparse
    rw [hok₁]
    dsimp only
    by_cases hclass : isKeyframeClass packet = true
    · have hoffsets := gives_onBlob hp₁.reads hv (hp₁.isOpen i hopen)
        (DecodedBlob.computes_offsets file.version v)
      simp only [hclass, if_true, Act.bind_apply (onBlob i (DecodedBlob.offsets file.version))]
      cases ht : v.offsets file.version with
      | none =>
        rw [ht] at hoffsets
        obtain ⟨e, p₂, herr, hp₂⟩ := hoffsets
        rw [herr]
        refine ⟨hp₂.reads, fun r ↦ ⟨?_, ?_⟩⟩
        · rintro ⟨q, hq⟩
          cases hq
        · rintro ⟨heq, h⟩
          cases heq
          obtain ⟨t, hno, -⟩ := h hclass
          cases hno
      | some t =>
        rw [ht] at hoffsets
        obtain ⟨p₂, hok₂, hp₂⟩ := hoffsets
        have hchain : p₂.chain = p.chain := by
          rw [hp₂.same, hp₁.same]
        simp only [hok₂, Act.get_bind_apply, hchain]
        by_cases hisAt : p.chain.isAt (.blob i) offset = true
        · simp only [hisAt, if_true]
          refine ⟨hp₂.reads, fun r ↦ ⟨?_, ?_⟩⟩
          · rintro ⟨q, hq⟩
            cases hq
            exact ⟨rfl, fun _ ↦ ⟨t, rfl, .inl hisAt⟩⟩
          · rintro ⟨heq, -⟩
            cases heq
            exact ⟨p₂, rfl⟩
        · simp only [hisAt, Bool.false_eq_true, if_false]
          have hleaves := onChain_fold_settles hp₂.reads (.blob i) offset packet
            (p.chain.holdsPredecessorOf (.blob i) offset (DecodedBlob.keyframeBetween t))
          have hfold := ChainState.fold_settles p.chain (.blob i) offset packet
            (p.chain.holdsPredecessorOf (.blob i) offset (DecodedBlob.keyframeBetween t))
          simp only [Act.bind_apply, onChain, Act.focus, hchain] at hleaves ⊢
          cases hrun : ChainState.fold (.blob i) offset packet
            (p.chain.holdsPredecessorOf (.blob i) offset (DecodedBlob.keyframeBetween t))
            p.chain with
          | ok u c =>
            rw [hrun] at hleaves hfold
            refine ⟨hleaves, fun r ↦ ⟨?_, ?_⟩⟩
            · rintro ⟨q, hq⟩
              cases hq
              refine ⟨rfl, fun _ ↦ ⟨t, rfl, .inr ?_⟩⟩
              cases hdelta : isDelta packet with
              | false => exact .inl rfl
              | true => exact .inr (hfold.1 hdelta)
            · rintro ⟨heq, -⟩
              cases heq
              exact ⟨_, rfl⟩
          | error e c =>
            rw [hrun] at hleaves hfold
            obtain ⟨⟨hdelta, hnone⟩, -⟩ := hfold
            refine ⟨hleaves, fun r ↦ ⟨?_, ?_⟩⟩
            · rintro ⟨q, hq⟩
              cases hq
            · rintro ⟨heq, h⟩
              cases heq
              obtain ⟨t', ht', hfolds⟩ := h hclass
              cases ht'
              rcases hfolds with hat | hnot | ⟨hheld, hsome⟩
              · exact (hisAt hat).elim
              · rw [hdelta] at hnot
                cases hnot
              · rw [hnone hheld] at hsome
                cases hsome
          | abort =>
            rw [hrun] at hfold
            exact hfold.elim
    · simp only [hclass, Bool.false_eq_true, if_false]
      refine ⟨hp₁.reads, fun r ↦ ⟨?_, ?_⟩⟩
      · rintro ⟨q, hq⟩
        cases hq
        exact ⟨rfl, fun h ↦ (hclass h).elim⟩
      · rintro ⟨heq, -⟩
        cases heq
        exact ⟨p₁, rfl⟩

omit hz hindexed in
theorem keepsReads_foldInBlob (i offset : Nat) : KeepsReads z rom file (foldInBlob i offset) := by
  intro p hp
  cases hslot : p.decodedBlobs i with
  | none =>
    have habort : onBlob i (DecodedBlob.parseAt p.version offset) p = .abort := by
      simp only [onBlob, Act.focus, hslot]
    rw [foldInBlob, Act.get_bind_apply, Act.bind_apply, habort]
    trivial
  | some d =>
    obtain ⟨v, hv, -⟩ := (reads_iff.mp hp).2.2.1 i d hslot
    exact Act.Hoare.of_leaves (P := (· = p)) (fun q hq ↦ hq ▸
      (foldInBlob_settles hp hv (by rw [hslot]; rfl) offset).1) p rfl

theorem keepsReads_fastForwardChain (list : ListId) (target : Nat) :
    KeepsReads z rom file (fastForwardChain x list target) := by
  intro p hp
  rw [fastForwardChain, Act.get_bind_apply]
  cases list with
  | topLevel =>
    dsimp only
    cases p.file.packets[target]? with
    | none => trivial
    | some packet =>
      have hwalk : ∀ positions : List Nat,
          KeepsReads z rom file (positions.forM (foldTopLevel x)) :=
        fun positions ↦ Act.Hoare.forM fun index _ ↦ keepsReads_foldTopLevel hz hindexed index
      by_cases hstored : ∃ k, packet = .storedKeyframe k
      · obtain ⟨k, rfl⟩ := hstored
        exact keepsReads_fastForwardStoredChain hz hindexed target p hp
      · rw [not_exists] at hstored
        cases packet <;> first
          | exact (hstored _ rfl).elim
          | (dsimp only
             cases rposition isFullKeyframe (p.file.packets.take (target + 1)) with
             | none => exact hp
             | some restart => exact hwalk _ p hp)
  | blob top =>
    dsimp only
    rw [hp.version_eq]
    refine ((keepsReads_onBlob (DecodedBlob.computes_offsets file.version) top).bind
      fun offsets ↦ ?_) p hp
    split_ifs
    · exact Act.Hoare.fail fun q hq ↦ hq
    · refine (keepsReads_restartInBlob top _).bind fun restart ↦ ?_
      cases restart with
      | none => exact Act.Hoare.fail fun q hq ↦ hq
      | some restart =>
        exact Act.Hoare.forM fun offset _ ↦ (keepsReads_foldInBlob top offset).bind fun _ ↦
          Act.Hoare.pure fun q hq ↦ hq

variable (hchecks : z.ChecksSize)
include hchecks

omit hindexed in
/-- Where a frame's last keyframe is does not depend on the chain either. -/
theorem locateKeyframe_reads (frame : Nat) : Act.Hoare (Reads z rom file) (locateKeyframe x frame)
      (fun r p' ↦ file.located z frame = some r ∧ p'.Reads z rom file) (Reads z rom file) := by
  subst hz
  intro p hp
  have hsame : locateKeyframe x frame p =
      (locateKeyframe x frame p.restarted).mapState (withChain p.chain) :=
    commutes_locateKeyframe x p.chain frame p.restarted
  have hspec := locateKeyframe_spec hchecks hp frame
  rw [hsame]
  cases hlocated : file.located x.zstd frame with
  | none =>
    rw [hlocated] at hspec
    obtain ⟨hnotOk, herror⟩ := hspec
    cases hrun : locateKeyframe x frame p.restarted with
    | ok r q => exact (hnotOk r q hrun).elim
    | error e q => exact (herror e q hrun).scans.reads
    | abort => trivial
  | some r =>
    rw [hlocated] at hspec
    obtain ⟨q, hok, hq, -⟩ := hspec
    rw [hok]
    exact ⟨rfl, hq.scans.reads⟩

/-- A seek that succeeds leaves the cursor where the frame is located. -/
theorem goToKeyframe_reads (frame : Nat) : Act.Hoare (Reads z rom file) (goToKeyframe x frame)
      (fun _ p' ↦ ∃ list pos p₁, file.located z frame = some (list, pos) ∧
        Reads z rom file p₁ ∧ p' = atPosition p₁ list pos) (Reads z rom file) := by
  intro p hp
  rw [goToKeyframe_eq]
  refine ((locateKeyframe_reads hz hchecks frame).bind fun r ↦ ?_) p hp
  intro p₁ hp₁
  have hforward : KeepsReads z rom file (seekRead (fastForwardChain x r.1 r.2)) :=
    keepsReads_seekRead (keepsReads_fastForwardChain hz hindexed r.1 r.2)
  rw [Act.bind_apply]
  cases hrun : seekRead (fastForwardChain x r.1 r.2) p₁ with
  | ok u p₂ => exact ⟨r.1, r.2, p₂, hp₁.1, hforward.ok hp₁.2 hrun, rfl⟩
  | error e p₂ => exact hforward.error hp₁.2 hrun
  | abort => trivial

theorem keepsReads_goToKeyframe (frame : Nat) : KeepsReads z rom file (goToKeyframe x frame) := by
  refine (goToKeyframe_reads hz hindexed hchecks frame).conseq (fun p hp ↦ hp) fun _ p' hp' ↦ ?_
  obtain ⟨list, pos, p₁, -, hp₁, rfl⟩ := hp'
  exact hp₁.atPosition list pos

omit hindexed in
theorem keepsReads_keyframeIsStoredFull (frame : Nat) :
    KeepsReads z rom file (keyframeIsStoredFull x frame) := by
  intro p hp
  refine ((locateKeyframe_reads hz hchecks frame).bind fun r ↦ ?_) p hp
  intro q hq
  obtain ⟨list, target⟩ := r
  cases list with
  | topLevel =>
    dsimp only
    rw [Act.get_bind_apply]
    cases q.file.packets[target]? with
    | none => trivial
    | some packet => cases packet <;> exact hq.2
  | blob top =>
    exact keepsReads_seekRead (keepsReads_onBlob
      (DecodedBlob.computes_isFullKeyframeAt file.version target) top) q hq.2

omit hindexed in
/-- Setting up a blob that has a view succeeds, and one that has none is not set up. -/
theorem decompressImmediately_reads (hp : p.Reads z rom file) (i : Nat) :
    match file.blobView z i with
    | some _ => ∃ p', decompressImmediately x i p = .ok () p' ∧ Scans z rom file p p' ∧
        (p'.decodedBlobs i).isSome = true
    | none => ∀ p', decompressImmediately x i p ≠ .ok () p' ∧
        ∀ e, decompressImmediately x i p = .error e p' → p'.Reads z rom file := by
  subst hz
  have hsame : decompressImmediately x i p =
      (decompressImmediately x i p.restarted).mapState (withChain p.chain) :=
    commutes_decompressImmediately x p.chain i p.restarted
  have hspec := decompressImmediately_spec hchecks hp (i := i)
  cases hv : file.blobView x.zstd i with
  | none =>
    rw [hv] at hspec
    obtain ⟨hnotOk, herror⟩ := hspec
    cases hrun : decompressImmediately x i p.restarted with
    | ok u q => exact (hnotOk q hrun).elim
    | error e q =>
      obtain rfl := herror e q hrun
      rw [hsame, hrun]
      exact fun p' ↦ ⟨fun h ↦ (by cases h), fun e' h ↦ by cases h; exact hp⟩
    | abort =>
      rw [hsame, hrun]
      exact fun p' ↦ ⟨fun h ↦ (by cases h), fun e' h ↦ by cases h⟩
  | some v =>
    rw [hv] at hspec
    obtain ⟨q, hok, hq, hopen⟩ := hspec
    exact ⟨q.withChain p.chain, by rw [hsame, hok]; rfl, hq.scans, hopen⟩

omit hz hindexed hchecks in
theorem keepsReads_handOut (packet : Packet) : KeepsReads z rom file (handOut packet) := by
  intro p hp
  rw [handOut_eq]
  exact hp.congr rfl rfl rfl rfl rfl rfl

omit hchecks in
theorem keepsReads_nextTopLevel (index : Nat) (packet : Packet) :
    KeepsReads z rom file (nextTopLevel x index packet) := by
  intro p hp
  rcases nextTopLevel_cases x index packet p with ⟨k, -, -, hrun⟩ | hrun
  · rw [hrun]
    exact hp.congr rfl rfl rfl rfl rfl rfl
  · rw [hrun]
    exact ((keepsReads_foldTopLevel hz hindexed index).bind fun _ ↦ keepsReads_handOut packet) _
      (hp.congr rfl rfl rfl rfl rfl rfl)

omit hz hindexed hchecks in
theorem KeepsReads.map {α β : Type} {g : α → β} {f : PlayerAction α} (h : KeepsReads z rom file f) :
    KeepsReads z rom file (g <$> f) := by
  intro p hp
  rw [Act.map_apply]
  cases hrun : f p with
  | ok a p' => exact h.ok hp hrun
  | error e p' => exact h.error hp hrun
  | abort => trivial

theorem keepsReads_nextPacketGo (fuel : Nat) : KeepsReads z rom file (nextPacketGo x fuel) := by
  induction fuel with
  | zero => exact Act.Hoare.abort
  | succ fuel ih =>
    intro p hp
    rw [nextPacketGo, Act.get_bind_apply]
    dsimp only
    cases hat : p.file.packets[p.nextUncompressedPacketIndex]? with
    | none => exact hp
    | some packet =>
      dsimp only
      rw [Act.modify_bind_apply]
      by_cases hblob : ∃ b, packet = .compressedBlob b
      · obtain ⟨b, rfl⟩ := hblob
        dsimp only
        have hdec := decompressImmediately_reads hz hchecks hp.cleanup p.nextUncompressedPacketIndex
        rw [Act.bind_apply]
        cases hv : file.blobView z p.nextUncompressedPacketIndex with
        | none =>
          rw [hv] at hdec
          cases hrun : decompressImmediately x p.nextUncompressedPacketIndex p.cleanup with
          | ok u q => exact ((hdec q).1 hrun).elim
          | error e q => exact (hdec q).2 e hrun
          | abort => trivial
        | some v =>
          rw [hv] at hdec
          obtain ⟨q, hok, hq, hopen⟩ := hdec
          rw [hok]
          dsimp only
          rw [Act.get_bind_apply]
          obtain ⟨d, hd⟩ := Option.isSome_iff_exists.mp hopen
          rw [hd]
          dsimp only
          split_ifs
          · exact ih _ (hq.reads.congr rfl rfl rfl rfl rfl rfl)
          · refine ((keepsReads_foldInBlob _ _).bind fun r ↦ ?_) q hq.reads
            refine Act.Hoare.bind (Act.Hoare.modify (R := fun _ ↦ Reads z rom file) fun p' hp' ↦
              hp'.congr rfl rfl rfl rfl rfl rfl) fun _ ↦ ?_
            exact (keepsReads_handOut r.1).map
      · rw [not_exists] at hblob
        have hnext := (keepsReads_nextTopLevel (x := x) hz hindexed
          p.nextUncompressedPacketIndex packet).map (g := some) p.cleanup hp.cleanup
        cases packet <;> first | exact hnext | exact (hblob _ rfl).elim

/-- A call leaves a player of the file one of the file. -/
theorem perform_reads {call : SeekCall} (hp : p.Reads z rom file)
    (h : perform x call p = some p') : p'.Reads z rom file := by
  have hafter : ∀ {ε α : Type} {f : Act ε ReplayFilePlayer α}, KeepsReads z rom file f →
      stateAfter (f p) = some p' → p'.Reads z rom file := by
    intro ε α f hf hstate
    cases hrun : f p with
    | ok a q =>
      rw [hrun] at hstate
      cases hstate
      exact hf.ok hp hrun
    | error e q =>
      rw [hrun] at hstate
      cases hstate
      exact hf.error hp hrun
    | abort =>
      rw [hrun] at hstate
      cases hstate
  cases call with
  | goToKeyframe frame => exact hafter (keepsReads_goToKeyframe hz hindexed hchecks frame) h
  | nextPacket =>
    exact hafter (f := nextPacket x)
      (fun q hq ↦ keepsReads_nextPacketGo hz hindexed hchecks _ q hq) h
  | keyframeIsStoredFull frame =>
    exact hafter (keepsReads_keyframeIsStoredFull hz hchecks frame) h

/-- So does a run of calls. -/
theorem runSeeks_reads {calls : List SeekCall} (hp : p.Reads z rom file)
    (h : runSeeks x calls p = some p') : p'.Reads z rom file := by
  induction calls generalizing p with
  | nil =>
    cases h
    exact hp
  | cons call calls ih =>
    obtain ⟨q, hq, hrest⟩ := Option.bind_eq_some_iff.mp h
    exact ih (perform_reads hz hindexed hchecks hp hq) hrest

end Calls

/-! ## What is handed out after a seek -/

/-- The call fails, or hands out a keyframe on the frame. -/
def HandsOut (frame : Nat) :
    Outcome ReplayFileReadError ReplayFilePlayer (Option Packet) → Prop
  | .ok r _ => ∃ metadata state, r = some (.keyframe metadata state) ∧
      metadata.elapsedFrames.toNat = frame
  | .error _ _ => True
  | .abort => False

/-- The packet at the cursor, when the cursor is in a blob, is a keyframe that says that it is on the
frame, unless it cannot be read, or is a delta that cannot be folded. -/
def AimsAt (z : Zstd) (frame : Nat) (p : ReplayFilePlayer) : Prop :=
  ∀ offset v t r, p.nextBlobOffset = some offset →
    p.file.blobView z p.nextUncompressedPacketIndex = some v →
    v.offsets p.version = some t → v.parseAt p.version offset = some r →
    p.chain.Folds (.blob p.nextUncompressedPacketIndex) offset (DecodedBlob.keyframeBetween t) r.1 →
    (keyframeMetadata r.1).any (onFrame frame) = true

/-- What is handed out is a keyframe on the frame just when the packet is. -/
theorem handed_iff {frame : Nat} {wanted : Bool} {s : Bytes} {packet : Packet} :
    (∃ metadata state, some (handed wanted s packet) = some (.keyframe metadata state) ∧
      metadata.elapsedFrames.toNat = frame) ↔
      (keyframeMetadata packet).any (onFrame frame) = true := by
  cases packet <;> simp [handed, keyframeMetadata, onFrame]

section Landing

variable {x : Externals} (hz : x.zstd = z) (hindexed : file.StoredIndexed)
  (hchecks : z.ChecksSize) {frame pos : Nat}
include hz hindexed hchecks

omit hchecks in
theorem handsOut_topLevel (hp : p.Reads z rom file)
    (hlocated : file.located z frame = some (.topLevel, pos)) :
    HandsOut frame (nextPacket x (p.atPosition .topLevel pos)) := by
  obtain ⟨packet, hat, hany⟩ := located_topLevel hlocated
  have hblob : ∀ b, packet ≠ .compressedBlob b := by
    rintro b rfl
    cases hany
  have hrun : nextPacket x (p.atPosition .topLevel pos) =
      (some <$> nextTopLevel x pos packet) (p.atPosition .topLevel pos).cleanup :=
    nextPacketGo_topLevel (p := p.atPosition .topLevel pos) hp.file_eq hat hblob _
  have hq := (hp.atPosition .topLevel pos).cleanup
  have hnext : (p.atPosition .topLevel pos).cleanup.materialiseNext = true := by
    rw [cleanup_same]
    rfl
  rw [hrun, Act.map_apply]
  generalize (p.atPosition .topLevel pos).cleanup = q at hq hnext
  rcases nextTopLevel_cases x pos packet q with ⟨k, -, hno, -⟩ | hfoldRun
  · rw [hnext] at hno
    cases hno
  · have hq' : { q with nextUncompressedPacketIndex := pos + 1, materialiseNext := false }.Reads
        z rom file := hq.congr rfl rfl rfl rfl rfl rfl
    have hfold := foldTopLevel_settles hz hindexed hq' hat
    rw [hfoldRun, Act.bind_apply]
    cases hres : foldTopLevel x pos
        { q with nextUncompressedPacketIndex := pos + 1, materialiseNext := false } with
    | ok u q' =>
      dsimp only
      rw [handOut_eq]
      exact handed_iff.mpr hany
    | error e q' => trivial
    | abort =>
      rw [hres] at hfold
      exact hfold

omit hindexed in
theorem handsOut_blob (hp : p.Reads z rom file) {top : Nat}
    (hlocated : file.located z frame = some (.blob top, pos)) :
    HandsOut frame (nextPacket x (p.atPosition (.blob top) pos)) ↔
      (p.atPosition (.blob top) pos).AimsAt z frame := by
  obtain ⟨v, t, hv, ht, hmem⟩ := located_spec hlocated
  obtain ⟨b, hat, -⟩ := OpenedFile.exists_of_blobView hv
  have hinside : ¬ v.size ≤ pos := by
    have := OpenedFile.offsets_lt_size hv ht pos hmem
    omega
  have hclean := (hp.atPosition (.blob top) pos).cleanup
  have hdec := decompressImmediately_reads hz hchecks hclean top
  rw [hv] at hdec
  obtain ⟨q, hok, hq, hopen⟩ := hdec
  have hsame : q = { p.atPosition (.blob top) pos with decodedBlobs := q.decodedBlobs } := by
    rw [hq.same, cleanup_same]
  obtain ⟨d, hd⟩ := Option.isSome_iff_exists.mp hopen
  obtain ⟨v', hv', hshows⟩ := (reads_iff.mp hq.reads).2.2.1 _ d hd
  rw [hv] at hv'
  cases hv'
  have hoffset : q.nextBlobOffset = some pos := by
    rw [hsame]
    rfl
  have hchain : q.chain = p.chain := by
    rw [hsame]
    rfl
  have hrun : nextPacket x (p.atPosition (.blob top) pos) =
      (foldInBlob top pos >>= passInBlob) q := by
    have hatTop : (p.atPosition (.blob top) pos).file.packets[
        (p.atPosition (.blob top) pos).nextUncompressedPacketIndex]? =
        some (.compressedBlob b) := by
      rw [← hat, ← hp.file_eq]
      rfl
    simp only [nextPacket, Act.get_bind_apply, nextPacketGo, hatTop, Act.modify_bind_apply]
    rw [Act.bind_apply, show (p.atPosition (.blob top) pos).nextUncompressedPacketIndex = top
      from rfl, hok]
    simp only [Act.get_bind_apply, hd, hoffset, Option.getD_some, hshows.size, hinside, if_false]
    rfl
  have haims : (p.atPosition (.blob top) pos).AimsAt z frame ↔
      ∀ r, v.parseAt file.version pos = some r →
        p.chain.Folds (.blob top) pos (DecodedBlob.keyframeBetween t) r.1 →
        (keyframeMetadata r.1).any (onFrame frame) = true := by
    constructor
    · intro h r hr hfolds
      refine h pos v t r rfl (hp.file_eq.symm ▸ hv) ?_ ?_ hfolds
      · rw [(hp.atPosition (.blob top) pos).version_eq, ht]
      · rw [(hp.atPosition (.blob top) pos).version_eq, hr]
    · intro h offset v' t' r hoffset' hv' ht' hr hfolds
      cases hoffset'
      rw [(hp.atPosition (.blob top) pos).version_eq] at ht' hr
      have hv'' : file.blobView z top = some v' := hp.file_eq ▸ hv'
      rw [hv] at hv''
      cases hv''
      rw [ht] at ht'
      cases ht'
      exact h r hr hfolds
  obtain ⟨hleaves, hreads⟩ := foldInBlob_settles hq.reads hv hopen pos
  rw [hchain] at hreads
  rw [hrun, haims, Act.bind_apply]
  cases hres : foldInBlob top pos q with
  | ok r q' =>
    obtain ⟨hr, hfolds⟩ := (hreads r).mp ⟨q', hres⟩
    have hpass : HandsOut frame (passInBlob r q') ↔
        (keyframeMetadata r.1).any (onFrame frame) = true := by
      rw [passInBlob, Act.modify_bind_apply, Act.map_apply, handOut_eq]
      exact handed_iff
    dsimp only
    rw [hpass]
    constructor
    · intro hany r' hr' _
      cases hr.symm.trans hr'
      exact hany
    · intro h
      by_cases hclass : isKeyframeClass r.1 = true
      · obtain ⟨t', ht', hfolds⟩ := hfolds hclass
        rw [ht] at ht'
        cases ht'
        exact h r hr hfolds
      · refine h r hr (.inr (.inl ?_))
        cases hpacket : r.1 <;> first | rfl | (rw [hpacket] at hclass; exact (hclass rfl).elim)
  | error e q' =>
    refine ⟨fun _ r hr hfolds ↦ ?_, fun _ ↦ trivial⟩
    obtain ⟨q'', hok''⟩ := (hreads r).mpr ⟨hr, fun _ ↦ ⟨t, ht, hfolds⟩⟩
    cases hres.symm.trans hok''
  | abort =>
    rw [hres] at hleaves
    exact hleaves.elim

end Landing

/-- An unclosed recording of one blob: its list of keyframes has one on frame 0, and it holds a
keyframe that says it is on `frame`. -/
def blobFile (frame : UnsignedInteger) : Bytes :=
  let content := (Packet.keyframe (idleMetadata frame) [1, 2, 3, 4]).write
  unclosedFile .gameBoy [.compressedBlob
    { keyframes := [idleMetadata 0], keyframeOffsets := [], bookmarks := []
      compressedData := rawFrameHead content.length ++ (leBytes 3 (content.length * 8 + 1) ++ content)
      uncompressedSize := UInt64.ofNat content.length
      timestampStart := 0, timestampEnd := 0, elapsedFramesStart := 0, elapsedFramesEnd := 0 }]

end ReplayFilePlayer

end SuperShuckie
