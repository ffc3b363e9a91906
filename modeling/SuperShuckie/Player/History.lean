import SuperShuckie.Player.FastForward
import SuperShuckie.Player.Opened

/-!
# A seek does not depend on what came before it

What `goToKeyframe` and the `nextPacket` after it hand out is `Shown` by the file.  A player stays in
step over any run of seeks and reads, failed ones included, so that a seek from any state it gets to
gives what it gives in a player just opened (`seek_forgets_history`).
-/

set_option autoImplicit false

namespace SuperShuckie

open ByteFormat

namespace ReplayFilePlayer

variable {z : Zstd} {rom : Option Bytes} {file : OpenedFile} {p : ReplayFilePlayer}

/-! ## What a seek shows -/

/-- A packet as it is handed out, with the state `s` of the chain. -/
def handed (wanted : Bool) (s : Bytes) : Packet → Packet
  | .deltaKeyframe metadata _ => .keyframe metadata (if wanted then s else [])
  | .regionDeltaKeyframe metadata .. => .keyframe metadata (if wanted then s else [])
  | .storedKeyframe k => .keyframe k.metadata (if wanted then s else [])
  | packet => packet

/-- The file has `packet` at a position, with the state `s`: its own, if it moves the chain, or that
of the last keyframe before it. -/
def Shown (z : Zstd) (rom : Option Bytes) (file : OpenedFile) (list : ListId) (pos : Nat)
    (packet : Packet) (s : Bytes) : Prop :=
  file.packetAt z list pos = some packet ∧
    ((OpenedFile.moves list packet = true ∧ file.StateAt z rom list pos s) ∨
      (OpenedFile.moves list packet = false ∧
        ∃ q, file.StateAt z rom list q s ∧ q < pos ∧ NothingBetween z file list q pos))

variable {packet : Packet}

theorem Shown.unique {list : ListId} {pos : Nat} {packet' : Packet} {s s' : Bytes}
    (h : Shown z rom file list pos packet s) (h' : Shown z rom file list pos packet' s') :
    packet = packet' ∧ s = s' := by
  obtain ⟨hpacket, h⟩ := h
  obtain ⟨hpacket', h'⟩ := h'
  rw [hpacket] at hpacket'
  cases hpacket'
  refine ⟨rfl, ?_⟩
  rcases h with ⟨hmoves, hs⟩ | ⟨hmoves, q, hs, hq, hnone⟩
  · rcases h' with ⟨-, hs'⟩ | ⟨hmoves', -⟩
    · exact hs.unique hs'
    · rw [hmoves] at hmoves'
      cases hmoves'
  · rcases h' with ⟨hmoves', -⟩ | ⟨-, q', hs', hq', hnone'⟩
    · rw [hmoves] at hmoves'
      cases hmoves'
    · have hle : ∀ {a b : Nat} {sb : Bytes}, file.StateAt z rom list b sb → b < pos →
          NothingBetween z file list a pos → b ≤ a := by
        intro a b sb hb hbp hab
        by_contra hnot
        obtain ⟨p₁, hp₁, hno⟩ := hab b (not_le.mp hnot) hbp hb.isKeyframePos
        obtain ⟨p₂, hp₂, hyes⟩ := hb.moves
        rw [hp₁] at hp₂
        cases hp₂
        rw [hno] at hyes
        cases hyes
      obtain rfl : q = q' := le_antisymm (hle hs hq hnone') (hle hs' hq' hnone)
      exact hs.unique hs'

theorem Shown.reachable {list : ListId} {pos : Nat} {s : Bytes}
    (h : Shown z rom file list pos packet s) : Reachable z rom file list pos := by
  obtain ⟨hpacket, ⟨-, hs⟩ | ⟨hmoves, q, hs, hq, hnone⟩⟩ := h
  · exact .inl ⟨s, hs⟩
  · exact .inr ⟨⟨packet, hpacket, hmoves⟩, q, s, hs, hq, hnone⟩

/-! ## Handing out -/

theorem handOut_eq (packet : Packet) (p : ReplayFilePlayer) :
    handOut packet p = .ok (handed p.keyframeStatesWanted p.chain.current packet)
      { p with keyframeTransientsStale :=
          if isKeyframeClass packet then p.leavesTransients packet
          else p.keyframeTransientsStale } := by
  cases packet <;> rfl

theorem handOut_spec (packet : Packet) (p : ReplayFilePlayer) :
    ∃ stale, handOut packet p = .ok (handed p.keyframeStatesWanted p.chain.current packet)
      { p with keyframeTransientsStale := stale } := by
  exact ⟨_, handOut_eq packet p⟩

/-- The chain is where it has to be for the packet at a position to be folded. -/
def Ready (z : Zstd) (file : OpenedFile) (list : ListId) (pos : Nat) (c : ChainState) : Prop :=
  (list = .topLevel ∧ ∃ k, file.packets[pos]? = some (.storedKeyframe k)) ∨
    Arrived z file list pos c

theorem Ready.canFold {list : ListId} {pos : Nat} {s : Bytes} {c : ChainState}
    (h : Ready z file list pos c) (hc : c.InStep z rom file) (hpos : file.IsKeyframePos z list pos)
    (hshown : Shown z rom file list pos packet s) : CanFold z rom file list pos packet c := by
  obtain ⟨hpacket, ⟨-, hs⟩ | ⟨hmoves, -⟩⟩ := hshown
  · refine .inr ⟨⟨s, hs⟩, ?_⟩
    rcases h with ⟨rfl, k, hk⟩ | hat | hcaught | hanew
    · refine .inr (.inl fun packet' hp' ↦ ?_)
      cases hk.symm.trans hp'
      rfl
    · exact .inl hat
    · exact .inr (hcaught.readyFor hc hs)
    · exact .inr (CanStart.readyFor (.inr hanew) hc hs)
  · exact .inl ⟨hmoves, .inr hpos⟩

/-- What was folded is what the file shows. -/
theorem Folded.shown {list : ListId} {pos : Nat} {p' : ReplayFilePlayer}
    (h : Folded z rom file list pos packet p p') (hp : p.InStep z rom file)
    (hat : file.packetAt z list pos = some packet) (hready : Ready z file list pos p.chain)
    (htop : list = .topLevel → OpenedFile.moves list packet = true) :
    Shown z rom file list pos packet p'.chain.current := by
  refine ⟨hat, ?_⟩
  have hchain := h.chain
  split at hchain
  · rename_i hmoves
    obtain ⟨s, hs, hstate⟩ := hchain
    rw [hs.current]
    exact .inl ⟨hmoves, hstate⟩
  · rename_i hno
    rw [Bool.not_eq_true] at hno
    have hnotTop : list ≠ .topLevel := fun hlist ↦ by
      rw [htop hlist] at hno
      cases hno
    have hstate : ∀ q, p.chain.list = some list → p.chain.lastApplied = some q →
        file.StateAt z rom list q p.chain.current := by
      intro q hlist hq
      rcases hp.chain.state list q hlist hq with ⟨hlist', -⟩ | ⟨hcurrent, hs⟩
      · exact (hnotTop hlist').elim
      · rwa [ChainState.current, hcurrent]
    rw [hchain]
    refine .inr ⟨hno, ?_⟩
    rcases hready with ⟨hlist, -⟩ | hisAt | ⟨hlist, q, hq, hlt, hnone⟩ | hanew
    · exact (hnotTop hlist).elim
    · obtain ⟨hlist, hlast⟩ := ChainState.isAt_iff.mp hisAt
      obtain ⟨packet', hat', hmoves⟩ := (hstate pos hlist hlast).moves
      rw [hat] at hat'
      cases hat'
      rw [hno] at hmoves
      cases hmoves
    · exact ⟨q, hstate q hlist hq, hlt, hnone⟩
    · have : OpenedFile.moves list packet = true := OpenedFile.moves_of_full (hanew packet hat)
      rw [hno] at this
      cases this

/-! ## Reading at the cursor -/

/-- A packet of the top-level list is folded and handed out, unless it is a stored keyframe that
nobody wants the state of. -/
theorem nextTopLevel_cases (x : Externals) (index : Nat) (packet : Packet) (p : ReplayFilePlayer) :
    (∃ k, packet = .storedKeyframe k ∧ p.materialiseNext = false ∧
      nextTopLevel x index packet p = .ok (.keyframe k.metadata [])
        { p with nextUncompressedPacketIndex := index + 1, keyframeTransientsStale := false }) ∨
    nextTopLevel x index packet p = (foldTopLevel x index >>= fun _ ↦ handOut packet)
      { p with nextUncompressedPacketIndex := index + 1, materialiseNext := false } := by
  rw [nextTopLevel, Act.modify_bind_apply, Act.get_bind_apply]
  cases packet with
  | storedKeyframe k =>
    dsimp only
    split
    · rename_i hskip
      simp only [Bool.and_eq_true, Bool.not_eq_true'] at hskip
      exact .inl ⟨k, rfl, hskip.1.2, rfl⟩
    · exact .inr rfl
  | _ => exact .inr rfl

/-- The end of reading a packet of a blob. -/
def passInBlob (r : Packet × Nat) : PlayerAction (Option Packet) := do
  Act.modify fun p ↦ { p with nextBlobOffset := some r.2 }
  some <$> handOut r.1

theorem nextPacketGo_topLevel {x : Externals} (hfile : p.file = file)
    (hat : file.packets[p.nextUncompressedPacketIndex]? = some packet)
    (hblob : ∀ b, packet ≠ .compressedBlob b) (fuel : Nat) : nextPacketGo x (fuel + 1) p =
      (some <$> nextTopLevel x p.nextUncompressedPacketIndex packet) p.cleanup := by
  simp only [nextPacketGo, Act.get_bind_apply, hfile, hat, Act.modify_bind_apply]

theorem nextPacketGo_of_blob {x : Externals} (hfile : p.file = file) {b : CompressedBlob}
    (hat : file.packets[p.nextUncompressedPacketIndex]? = some (.compressedBlob b)) (fuel : Nat) :
    nextPacketGo x (fuel + 1) p =
      (decompressImmediately x p.nextUncompressedPacketIndex >>= fun _ ↦ do
        let p' ← Act.get
        let offset := p'.nextBlobOffset.getD 0
        match p'.decodedBlobs p.nextUncompressedPacketIndex with
        | none => Act.abort
        | some blob =>
          if blob.size ≤ offset then
            Act.modify fun p' ↦ { p' with
              nextBlobOffset := none
              nextUncompressedPacketIndex := p.nextUncompressedPacketIndex + 1 }
            nextPacketGo x fuel
          else foldInBlob p.nextUncompressedPacketIndex offset >>= passInBlob) p.cleanup := by
  simp only [nextPacketGo, Act.get_bind_apply, hfile, hat, Act.modify_bind_apply]
  rfl

/-- Reading in a blob: at its end the cursor goes on to the next packet. -/
theorem nextPacketGo_blob {x : Externals} (hz : x.zstd.ChecksSize) (hp : p.InStep x.zstd rom file)
    {b : CompressedBlob}
    (hat : file.packets[p.nextUncompressedPacketIndex]? = some (.compressedBlob b)) (fuel : Nat) :
    match file.blobView x.zstd p.nextUncompressedPacketIndex with
    | none => (∀ r p', nextPacketGo x (fuel + 1) p ≠ .ok r p') ∧
        ∀ e p', nextPacketGo x (fuel + 1) p = .error e p' → p' = p.cleanup
    | some v => ∃ q, Decoding x.zstd rom file p.cleanup q ∧
        (q.decodedBlobs p.nextUncompressedPacketIndex).isSome = true ∧
        nextPacketGo x (fuel + 1) p =
          if v.size ≤ p.nextBlobOffset.getD 0 then
            nextPacketGo x fuel { q with
              nextBlobOffset := none
              nextUncompressedPacketIndex := p.nextUncompressedPacketIndex + 1 }
          else
            (foldInBlob p.nextUncompressedPacketIndex (p.nextBlobOffset.getD 0) >>= passInBlob)
              q := by
  have hdec := decompressImmediately_spec hz hp.cleanup (i := p.nextUncompressedPacketIndex)
  rw [nextPacketGo_of_blob hp.file_eq hat, Act.bind_apply]
  cases hv : file.blobView x.zstd p.nextUncompressedPacketIndex with
  | none =>
    rw [hv] at hdec
    obtain ⟨hnotOk, herror⟩ := hdec
    cases hrun : decompressImmediately x p.nextUncompressedPacketIndex p.cleanup with
    | ok a q => exact (hnotOk q hrun).elim
    | error e q =>
      refine ⟨fun r p' h ↦ (by cases h), fun e' p' h ↦ ?_⟩
      cases h
      exact herror e q hrun
    | abort => exact ⟨fun r p' h ↦ (by cases h), fun e' p' h ↦ by cases h⟩
  | some v =>
    rw [hv] at hdec
    obtain ⟨q, hok, hq, hopen⟩ := hdec
    refine ⟨q, hq, hopen, ?_⟩
    rw [hok]
    obtain ⟨d, hd⟩ := Option.isSome_iff_exists.mp hopen
    obtain ⟨v', hv', hshows⟩ := hq.inStep.blobs _ d hd
    rw [hv] at hv'
    cases hv'
    have hoffset : q.nextBlobOffset = p.nextBlobOffset := by
      rw [hq.same, cleanup_same]
    simp only [Act.get_bind_apply, hd, hshows.size, hoffset]
    split <;> rfl

/-! ## A seek and the packet after it -/

/-- The player with its cursor at a position, as a seek leaves it. -/
def atPosition (p : ReplayFilePlayer) : ListId → Nat → ReplayFilePlayer
  | .topLevel, pos =>
    { p with materialiseNext := true, nextUncompressedPacketIndex := pos, nextBlobOffset := none }
  | .blob top, pos =>
    { p with materialiseNext := true, nextUncompressedPacketIndex := top
             nextBlobOffset := some pos }

theorem goToKeyframe_eq (x : Externals) (frame : Nat) (p : ReplayFilePlayer) :
    goToKeyframe x frame p = (locateKeyframe x frame >>= fun r ↦
      seekRead (fastForwardChain x r.1 r.2) >>= fun _ ↦
        Act.modify fun p ↦ p.atPosition r.1 r.2) p := by
  rw [goToKeyframe, Act.bind_apply, Act.bind_apply]
  cases locateKeyframe x frame p with
  | ok r p₁ =>
    obtain ⟨list, pos⟩ := r
    dsimp only
    rw [Act.bind_apply, Act.bind_apply]
    cases seekRead (fastForwardChain x list pos) p₁ <;> cases list <;> rfl
  | error e p₁ => rfl
  | abort => rfl

/-- Where the cursor is once the packet at a position has been read. -/
def cursorAfter (z : Zstd) (file : OpenedFile) : ListId → Nat → Nat × Option Nat
  | .topLevel, pos => (pos + 1, none)
  | .blob top, pos =>
    (top, (file.blobView z top).bind fun v ↦ (v.parseAt file.version pos).map Prod.snd)

/-- What the read after a seek does to the player. -/
structure Landed (z : Zstd) (rom : Option Bytes) (file : OpenedFile) (list : ListId) (pos : Nat)
    (packet : Packet) (p p' : ReplayFilePlayer) : Prop where
  chain : if OpenedFile.moves list packet then
      ∃ s, p'.chain.At list pos s ∧ file.StateAt z rom list pos s
    else p'.chain = p.chain
  cursor : (p'.nextUncompressedPacketIndex, p'.nextBlobOffset) = cursorAfter z file list pos
  wanted : p'.keyframeStatesWanted = p.keyframeStatesWanted
  every : p'.materialiseEveryKeyframe = p.materialiseEveryKeyframe
  next : p'.materialiseNext = decide (list ≠ .topLevel)
  stale : p'.keyframeTransientsStale =
    if isKeyframeClass packet then p'.leavesTransients packet else p.keyframeTransientsStale

section Seek

variable (hregular : file.Regular z rom) (hindexed : file.StoredIndexed) {x : Externals}
  (hz : x.zstd = z) (hchecks : z.ChecksSize)
include hregular hindexed hz hchecks

/-- **A seek** to a keyframe that can be sought gets there; another one may fail. -/
theorem goToKeyframe_spec (hp : p.InStep z rom file) (frame : Nat) :
    match file.located z frame with
    | none => (∀ p', goToKeyframe x frame p ≠ .ok () p') ∧
        ∀ e p', goToKeyframe x frame p = .error e p' → Moved z rom file p p'
    | some (list, pos) =>
      (∃ p₁, goToKeyframe x frame p = .ok () (p₁.atPosition list pos) ∧ Moved z rom file p p₁ ∧
        Ready z file list pos p₁.chain ∧
        ∀ top, list = .blob top → (p₁.decodedBlobs top).isSome = true) ∨
      (∃ e p', goToKeyframe x frame p = .error e p' ∧ Moved z rom file p p') ∧
        ¬ Reachable z rom file list pos := by
  subst hz
  have hlocate := locateKeyframe_spec hchecks hp frame
  rw [goToKeyframe_eq, Act.bind_apply]
  cases hlocated : file.located x.zstd frame with
  | none =>
    rw [hlocated] at hlocate
    obtain ⟨hnotOk, herror⟩ := hlocate
    cases hrun : locateKeyframe x frame p with
    | ok r p₁ => exact (hnotOk r p₁ hrun).elim
    | error e p₁ =>
      refine ⟨fun p' h ↦ (by cases h), fun e' p' h ↦ ?_⟩
      cases h
      exact (herror e p₁ hrun).toMoved
    | abort => exact ⟨fun p' h ↦ (by cases h), fun e' p' h ↦ by cases h⟩
  | some r =>
    obtain ⟨list, pos⟩ := r
    rw [hlocated] at hlocate
    obtain ⟨p₁, hok₁, hp₁, hopen₁⟩ := hlocate
    rw [hok₁]
    dsimp only
    rw [Act.bind_apply, seekRead]
    have hforward : (∃ p', fastForwardChain x list pos p₁ = .ok () p' ∧
        Moved x.zstd rom file p₁ p' ∧ Ready x.zstd file list pos p'.chain) ∨
        (∃ e p', fastForwardChain x list pos p₁ = .error e p' ∧ Moved x.zstd rom file p₁ p') ∧
          ¬ Reachable x.zstd rom file list pos := by
      have hspec := located_spec hlocated
      cases list with
      | topLevel =>
        obtain ⟨packet, hat, hclass⟩ := hspec
        rcases fastForwardTopLevel_spec hregular hindexed rfl hp₁.inStep hat hclass with
          ⟨p', hok, hmoved, harrived⟩ | herr
        · refine .inl ⟨p', hok, hmoved, ?_⟩
          rcases harrived with ⟨k, rfl⟩ | harrived
          · exact .inl ⟨rfl, k, hat⟩
          · exact .inr harrived
        · exact .inr herr
      | blob top =>
        obtain ⟨v, t, hv, ht, hmem⟩ := hspec
        rcases fastForwardBlob_spec hregular x hp₁.inStep hv ht (hopen₁ top rfl) hmem with
          ⟨p', hok, hmoved, harrived⟩ | herr
        · exact .inl ⟨p', hok, hmoved, .inr harrived⟩
        · exact .inr herr
    rcases hforward with ⟨p', hok, hmoved, hready⟩ | ⟨⟨e, p', herr, hmoved⟩, hnot⟩
    · refine .inl ⟨p', by rw [hok]; rfl, hp₁.toMoved.trans hmoved, hready, fun top h ↦
        hmoved.isOpen top (hopen₁ top h)⟩
    · exact .inr ⟨⟨.readError e, p', by rw [herr], hp₁.toMoved.trans hmoved⟩, hnot⟩

/-- **The packet after a seek** is the one that the file shows there; it is an error when the file
shows none. -/
theorem nextPacket_atPosition {list : ListId} {pos frame : Nat}
    (hlocated : file.located z frame = some (list, pos)) (hp : p.InStep z rom file)
    (hready : Ready z file list pos p.chain)
    (hopen : ∀ top, list = .blob top → (p.decodedBlobs top).isSome = true) :
    (∃ packet p', nextPacket x (p.atPosition list pos) =
        .ok (some (handed p.keyframeStatesWanted p'.chain.current packet)) p' ∧
      Shown z rom file list pos packet p'.chain.current ∧
      Landed z rom file list pos packet p p') ∨
    (∃ e p', nextPacket x (p.atPosition list pos) = .error e p') ∧
      ¬ ∃ packet s, Shown z rom file list pos packet s := by
  subst hz
  have hspec := located_spec hlocated
  cases list with
  | topLevel =>
    obtain ⟨packet, hat, hclass⟩ := hspec
    have hblob : ∀ b, packet ≠ .compressedBlob b := by
      rintro b rfl
      cases hclass
    have hrun : nextPacket x (p.atPosition .topLevel pos) =
        (some <$> nextTopLevel x pos packet) (p.atPosition .topLevel pos).cleanup :=
      nextPacketGo_topLevel (p := p.atPosition .topLevel pos) hp.file_eq hat hblob _
    have hq : (p.atPosition .topLevel pos).cleanup.InStep x.zstd rom file :=
      InStep.cleanup (hp.congr rfl rfl rfl rfl)
    have hsame := cleanup_same (p.atPosition .topLevel pos)
    rw [hrun, Act.map_apply]
    generalize (p.atPosition .topLevel pos).cleanup = q at hq hsame ⊢
    have hchain : q.chain = p.chain := by
      rw [hsame]
      rfl
    have hwanted : q.keyframeStatesWanted = p.keyframeStatesWanted := by
      rw [hsame]
      rfl
    rcases nextTopLevel_cases x pos packet q with ⟨k, -, hno, -⟩ | hfoldRun
    · rw [hsame] at hno
      cases hno
    rw [hfoldRun, Act.bind_apply]
    have hpos : file.IsKeyframePos x.zstd .topLevel pos := ⟨packet, hat, hclass⟩
    have hq' : { q with nextUncompressedPacketIndex := pos + 1, materialiseNext := false }.InStep
        x.zstd rom file := hq.congr rfl rfl rfl rfl
    rcases foldTopLevel_spec hregular hindexed rfl hq' hat with
      ⟨p', hok, hfolded⟩ | ⟨⟨e, p', herr, -⟩, hnot⟩
    · left
      have hshown := hfolded.shown hq' hat (hchain ▸ hready) fun _ ↦ hclass
      have hwanted' : p'.keyframeStatesWanted = p.keyframeStatesWanted := by
        rw [hfolded.same]
        exact hwanted
      refine ⟨packet, { p' with
        keyframeTransientsStale := (if isKeyframeClass packet then p'.leavesTransients packet
          else p'.keyframeTransientsStale) }, ?_, hshown, ?_⟩
      · rw [hok]
        dsimp only
        rw [handOut_eq, hwanted']
      · refine ⟨hchain ▸ hfolded.chain, ?_, hwanted', ?_, ?_, ?_⟩
        · rw [hfolded.same, hsame]
          rfl
        · rw [hfolded.same, hsame]
          rfl
        · rw [hfolded.same]
          rfl
        · rw [hfolded.same, hsame]
          rfl
    · refine .inr ⟨⟨e, p', by rw [herr]⟩, ?_⟩
      rintro ⟨packet', s, hshown⟩
      have heq := hshown.1
      cases hat.symm.trans heq
      exact hnot (hchain.symm ▸ hready.canFold hp.chain hpos hshown)
  | blob top =>
    obtain ⟨v, t, hv, ht, hmem⟩ := hspec
    obtain ⟨b, hat, -⟩ := OpenedFile.exists_of_blobView hv
    have hp' : (p.atPosition (.blob top) pos).InStep x.zstd rom file := hp.congr rfl rfl rfl rfl
    have hrun := nextPacketGo_blob hchecks hp' hat (p.file.packets.length)
    have hsame := cleanup_same (p.atPosition (.blob top) pos)
    rw [show (p.atPosition (.blob top) pos).nextUncompressedPacketIndex = top from rfl, hv] at hrun
    obtain ⟨q, hq, hqopen, hgo⟩ := hrun
    have hlt := OpenedFile.offsets_lt_size hv ht pos hmem
    have hnext : nextPacket x (p.atPosition (.blob top) pos) =
        (foldInBlob top pos >>= passInBlob) q := by
      refine Eq.trans hgo (if_neg ?_)
      exact not_le.mpr hlt
    have hchain : q.chain = p.chain := by
      rw [hq.chain_eq, hsame]
      rfl
    have hwanted : q.keyframeStatesWanted = p.keyframeStatesWanted := by
      rw [hq.same, hsame]
      rfl
    rw [hnext, Act.bind_apply]
    have hpos : file.IsKeyframePos x.zstd (.blob top) pos := ⟨v, t, hv, ht, hmem⟩
    have hat' : file.packetAt x.zstd (.blob top) pos = (v.parseAt file.version pos).map Prod.fst := by
      simp only [OpenedFile.packetAt, hv, Option.bind_some]
    have hfold := foldInBlob_spec hregular hq.inStep hqopen hv
      fun t' packet next ht' _ _ ↦ by
        rw [ht] at ht'
        cases ht'
        exact hmem
    cases hparse : v.parseAt file.version pos with
    | none =>
      rw [hparse] at hfold hat'
      obtain ⟨e, p', herr, -⟩ := hfold
      refine .inr ⟨⟨e, p', by rw [herr]⟩, ?_⟩
      rintro ⟨packet, s, hshown, -⟩
      rw [hat'] at hshown
      cases hshown
    | some r =>
      obtain ⟨packet, next⟩ := r
      rw [hparse] at hfold hat'
      rw [hchain] at hfold
      rcases hfold with ⟨p', hok, hfolded⟩ | ⟨⟨e, p', herr, -⟩, hnot⟩
      · left
        have hshown := hfolded.shown hq.inStep hat' (hchain ▸ hready) fun h ↦ by cases h
        have hwanted' : p'.keyframeStatesWanted = p.keyframeStatesWanted := by
          rw [hfolded.same]
          exact hwanted
        refine ⟨packet, { p' with
          nextBlobOffset := some next
          keyframeTransientsStale := (if isKeyframeClass packet then p'.leavesTransients packet
            else p'.keyframeTransientsStale) }, ?_, hshown, ?_⟩
        · rw [hok]
          dsimp only
          rw [passInBlob, Act.modify_bind_apply, Act.map_apply, handOut_eq]
          dsimp only
          rw [hwanted']
          cases packet <;> rfl
        · refine ⟨hchain ▸ hfolded.chain, ?_, hwanted', ?_, ?_, ?_⟩
          · rw [hfolded.same, hq.same, hsame]
            simp [cursorAfter, hv, hparse, atPosition]
          · rw [hfolded.same, hq.same, hsame]
            rfl
          · rw [hfolded.same, hq.same, hsame]
            rfl
          · rw [hfolded.same, hq.same, hsame]
            rfl
      · refine .inr ⟨⟨e, p', by rw [herr]⟩, ?_⟩
        rintro ⟨packet', s, hshown⟩
        have heq := hshown.1
        rw [hat'] at heq
        cases heq
        exact hnot (hready.canFold hp.chain hpos hshown)

/-! ## Runs -/

omit hregular hindexed hz hchecks in
/-- A player in step, with its cursor where packets are read. -/
structure Following (z : Zstd) (rom : Option Bytes) (file : OpenedFile) (wanted : Bool)
    (p : ReplayFilePlayer) : Prop where
  inStep : p.InStep z rom file
  wanted_eq : p.keyframeStatesWanted = wanted
  cursor : ∀ offset, p.nextBlobOffset = some offset →
    (∃ b, file.packets[p.nextUncompressedPacketIndex]? = some (.compressedBlob b)) ∧
      file.ReadAt z p.nextUncompressedPacketIndex offset

omit hregular hindexed hz hchecks in
theorem Following.moved {wanted : Bool} {p' : ReplayFilePlayer} (h : Following z rom file wanted p)
    (hmoved : Moved z rom file p p') : Following z rom file wanted p' := by
  refine ⟨hmoved.inStep, ?_, ?_⟩
  · rw [hmoved.same]
    exact h.wanted_eq
  · rw [hmoved.same]
    exact h.cursor

omit hregular hindexed hz hchecks in
theorem Following.cleanup {wanted : Bool} (hp : Following z rom file wanted p) :
    Following z rom file wanted p.cleanup := by
  refine ⟨hp.inStep.cleanup, ?_, ?_⟩
  · rw [cleanup_same]
    exact hp.wanted_eq
  · rw [cleanup_same]
    exact hp.cursor

omit hregular hindexed hz hchecks in
theorem Following.readAt {wanted : Bool} (hp : Following z rom file wanted p) :
    file.ReadAt z p.nextUncompressedPacketIndex (p.nextBlobOffset.getD 0) := by
  cases hoffset : p.nextBlobOffset with
  | none => exact .first
  | some o => exact (hp.cursor o hoffset).2

omit hindexed hz hchecks in
/-- The offset table lists a keyframe that the cursor is left at. -/
theorem Following.listed {wanted : Bool} (hp : Following z rom file wanted p) {v : BlobView}
    (hv : file.blobView z p.nextUncompressedPacketIndex = some v) (t packet next)
    (ht : v.offsets file.version = some t)
    (hparse : v.parseAt file.version (p.nextBlobOffset.getD 0) = some (packet, next))
    (hclass : isKeyframeClass packet = true) : p.nextBlobOffset.getD 0 ∈ t :=
  hregular.tables _ _ v t packet next hp.readAt hv ht hparse hclass

/-- Reading on keeps a player in step. -/
theorem nextPacketGo_keeps (wanted : Bool) (fuel : Nat) :
    Act.Hoare (Following z rom file wanted) (nextPacketGo x fuel)
      (fun _ ↦ Following z rom file wanted) (Following z rom file wanted) := by
  subst hz
  induction fuel with
  | zero => exact Act.Hoare.abort
  | succ fuel ih =>
    intro p hp
    cases hat : file.packets[p.nextUncompressedPacketIndex]? with
    | none =>
      have hrun : nextPacketGo x (fuel + 1) p = .ok none p := by
        rw [nextPacketGo, Act.get_bind_apply, hp.inStep.file_eq, hat]
        rfl
      rw [hrun]
      exact hp
    | some packet =>
      by_cases hblob : ∃ b, packet = .compressedBlob b
      · obtain ⟨b, rfl⟩ := hblob
        have hrun := nextPacketGo_blob hchecks hp.inStep hat fuel
        cases hv : file.blobView x.zstd p.nextUncompressedPacketIndex with
        | none =>
          rw [hv] at hrun
          obtain ⟨hnotOk, herror⟩ := hrun
          cases hres : nextPacketGo x (fuel + 1) p with
          | ok r p' => exact (hnotOk r p' hres).elim
          | error e p' => exact herror e p' hres ▸ hp.cleanup
          | abort => trivial
        | some v =>
          rw [hv] at hrun
          obtain ⟨q, hq, hopen, hgo⟩ := hrun
          have hfollow := hp.cleanup.moved hq.toMoved
          have hindex : q.nextUncompressedPacketIndex = p.nextUncompressedPacketIndex := by
            rw [hq.same, cleanup_same]
          rw [hgo]
          by_cases hend : v.size ≤ p.nextBlobOffset.getD 0
          · rw [if_pos hend]
            refine ih _ ⟨hq.inStep.congr rfl rfl rfl rfl, hfollow.wanted_eq, fun o ho ↦ ?_⟩
            cases ho
          · rw [if_neg hend]
            have hfold := foldInBlob_spec hregular hq.inStep hopen hv (hp.listed hregular hv)
            rw [Act.bind_apply]
            cases hparse : v.parseAt file.version (p.nextBlobOffset.getD 0) with
            | none =>
              rw [hparse] at hfold
              obtain ⟨e, p', herr, hmoved⟩ := hfold
              rw [herr]
              exact hfollow.moved hmoved.toMoved
            | some r =>
              obtain ⟨packet, next⟩ := r
              rw [hparse] at hfold
              rcases hfold with ⟨p', hok, hfolded⟩ | ⟨⟨e, p', herr, hmoved⟩, -⟩
              · rw [hok]
                obtain ⟨stale, hhand⟩ := handOut_spec packet { p' with nextBlobOffset := some next }
                dsimp only
                rw [passInBlob, Act.modify_bind_apply, Act.map_apply, hhand]
                have hp' := hfollow.moved hfolded.toMoved
                refine ⟨hp'.inStep.congr rfl rfl rfl rfl, hp'.wanted_eq, fun o ho ↦ ?_⟩
                cases ho
                have hindex' : p'.nextUncompressedPacketIndex = p.nextUncompressedPacketIndex := by
                  rw [hfolded.same]
                  exact hindex
                dsimp only
                rw [hindex']
                exact ⟨⟨b, hat⟩, .next hp.readAt hv hparse⟩
              · rw [herr]
                exact hfollow.moved hmoved.toMoved
      · rw [not_exists] at hblob
        rw [nextPacketGo_topLevel hp.inStep.file_eq hat hblob fuel, Act.map_apply]
        have hoffset : p.cleanup.nextBlobOffset = none := by
          rw [cleanup_same]
          cases ho : p.nextBlobOffset with
          | none => rfl
          | some o =>
            obtain ⟨⟨b, hb⟩, -⟩ := hp.cursor o ho
            rw [hat] at hb
            cases hb
            exact (hblob b rfl).elim
        rcases nextTopLevel_cases x p.nextUncompressedPacketIndex packet p.cleanup with
          ⟨k, -, -, hskip⟩ | hrun
        · rw [hskip]
          refine ⟨hp.cleanup.inStep.congr rfl rfl rfl rfl, hp.cleanup.wanted_eq, fun o ho ↦ ?_⟩
          cases hoffset.symm.trans ho
        · rw [hrun, Act.bind_apply]
          have hq : Following x.zstd rom file wanted { p.cleanup with
              nextUncompressedPacketIndex := p.nextUncompressedPacketIndex + 1
              materialiseNext := false } :=
            ⟨hp.cleanup.inStep.congr rfl rfl rfl rfl, hp.cleanup.wanted_eq, fun o ho ↦ by
              cases hoffset.symm.trans ho⟩
          rcases foldTopLevel_spec hregular hindexed rfl hq.inStep hat with
            ⟨p', hok, hfolded⟩ | ⟨⟨e, p', herr, hmoved⟩, -⟩
          · rw [hok]
            obtain ⟨stale, hhand⟩ := handOut_spec packet p'
            dsimp only
            rw [hhand]
            have hp' := hq.moved hfolded.toMoved
            exact ⟨hp'.inStep.congr rfl rfl rfl rfl, hp'.wanted_eq, hp'.cursor⟩
          · rw [herr]
            exact hq.moved hmoved

theorem goToKeyframe_keeps (wanted : Bool) (frame : Nat) :
    Act.Hoare (Following z rom file wanted) (goToKeyframe x frame)
      (fun _ ↦ Following z rom file wanted) (Following z rom file wanted) := by
  intro p hp
  have hspec := goToKeyframe_spec hregular hindexed hz hchecks hp.inStep frame
  cases hlocated : file.located z frame with
  | none =>
    rw [hlocated] at hspec
    obtain ⟨hnotOk, herror⟩ := hspec
    cases hrun : goToKeyframe x frame p with
    | ok r p' => exact (hnotOk p' hrun).elim
    | error e p' => exact hp.moved (herror e p' hrun)
    | abort => trivial
  | some r =>
    obtain ⟨list, pos⟩ := r
    rw [hlocated] at hspec
    rcases hspec with ⟨p₁, hok, hmoved, -, -⟩ | ⟨⟨e, p', herr, hmoved⟩, -⟩
    · rw [hok]
      have hp₁ := hp.moved hmoved
      have hspec := located_spec hlocated
      cases list with
      | topLevel =>
        exact ⟨hp₁.inStep.congr rfl rfl rfl rfl, hp₁.wanted_eq, fun o ho ↦ by cases ho⟩
      | blob top =>
        obtain ⟨v, t, hv, ht, hmem⟩ := hspec
        obtain ⟨b, hb, -⟩ := OpenedFile.exists_of_blobView hv
        refine ⟨hp₁.inStep.congr rfl rfl rfl rfl, hp₁.wanted_eq, fun o ho ↦ ?_⟩
        cases ho
        exact ⟨⟨b, hb⟩, .listed hv ht hmem⟩
    · rw [herr]
      exact hp.moved hmoved

omit hregular hindexed in
theorem keyframeIsStoredFull_keeps (wanted : Bool) (frame : Nat) :
    Act.Hoare (Following z rom file wanted) (keyframeIsStoredFull x frame)
      (fun _ ↦ Following z rom file wanted) (Following z rom file wanted) := by
  subst hz
  intro p hp
  have hlocate := locateKeyframe_spec hchecks hp.inStep frame
  rw [keyframeIsStoredFull, Act.bind_apply]
  cases hlocated : file.located x.zstd frame with
  | none =>
    rw [hlocated] at hlocate
    obtain ⟨hnotOk, herror⟩ := hlocate
    cases hrun : locateKeyframe x frame p with
    | ok r p' => exact (hnotOk r p' hrun).elim
    | error e p' => exact hp.moved (herror e p' hrun).toMoved
    | abort => trivial
  | some r =>
    obtain ⟨list, pos⟩ := r
    rw [hlocated] at hlocate
    obtain ⟨p₁, hok₁, hp₁, hopen₁⟩ := hlocate
    rw [hok₁]
    have hfollow := hp.moved hp₁.toMoved
    have hspec := located_spec hlocated
    cases list with
    | topLevel =>
      dsimp only
      rw [Act.get_bind_apply]
      cases p₁.file.packets[pos]? with
      | none => trivial
      | some packet => cases packet <;> exact hfollow
    | blob top =>
      obtain ⟨v, t, hv, ht, hmem⟩ := hspec
      have hread := computes_onBlob hv (hopen₁ top rfl)
        (DecodedBlob.computes_isFullKeyframeAt file.version pos v) p₁ (.refl hp₁.inStep)
      dsimp only
      rw [seekRead]
      cases hfull : v.isFullKeyframeAt pos with
      | none =>
        rw [hfull] at hread
        obtain ⟨e, p₂, herr, hp₂⟩ := hread
        rw [herr]
        exact hfollow.moved hp₂.toMoved
      | some full =>
        rw [hfull] at hread
        obtain ⟨p₂, hok, hp₂⟩ := hread
        rw [hok]
        exact hfollow.moved hp₂.toMoved

end Seek

/-- A call of the reading interface. -/
inductive SeekCall
  | goToKeyframe (frame : Nat)
  | nextPacket
  | keyframeIsStoredFull (frame : Nat)

/-- The player that an outcome leaves, an error included. -/
def stateAfter {ε α : Type} : Outcome ε ReplayFilePlayer α → Option ReplayFilePlayer
  | .ok _ p => some p
  | .error _ p => some p
  | .abort => none

def perform (x : Externals) : SeekCall → ReplayFilePlayer → Option ReplayFilePlayer
  | .goToKeyframe frame, p => stateAfter (goToKeyframe x frame p)
  | .nextPacket, p => stateAfter (nextPacket x p)
  | .keyframeIsStoredFull frame, p => stateAfter (keyframeIsStoredFull x frame p)

/-- Make calls one after the other, whatever they return. -/
def runSeeks (x : Externals) : List SeekCall → ReplayFilePlayer → Option ReplayFilePlayer
  | [], p => some p
  | call :: calls, p => (perform x call p).bind (runSeeks x calls)

/-- The settings of a player, which its owner makes after opening it. -/
structure Settings where
  rom : Option Bytes
  keyframeStatesWanted : Bool
  materialiseEveryKeyframe : Bool

/-- A player just opened, with its settings made. -/
def withSettings (settings : Settings) (p : ReplayFilePlayer) : ReplayFilePlayer :=
  setMaterialiseEveryKeyframe settings.materialiseEveryKeyframe
    (setKeyframeStatesWanted settings.keyframeStatesWanted
      (match settings.rom with
        | some rom => setRom rom p
        | none => p))

theorem following_start (file : OpenedFile) (settings : Settings) :
    Following z settings.rom file settings.keyframeStatesWanted
      ((start file).withSettings settings) := by
  obtain ⟨rom, wanted, every⟩ := settings
  have hchain : (ChainState.new (decide (file.metadata.consoleType = .nintendo3DS))).InStep z rom
      file := ⟨rfl, fun b k h ↦ (by cases h), fun list pos h ↦ by cases h⟩
  cases rom with
  | none =>
    exact ⟨⟨rfl, rfl, fun i d h ↦ (by cases h), hchain⟩, rfl, fun o h ↦ by cases h⟩
  | some rom =>
    exact ⟨⟨rfl, rfl, fun i d h ↦ (by cases h), hchain⟩, rfl, fun o h ↦ by cases h⟩

section Runs

variable (hregular : file.Regular z rom) (hindexed : file.StoredIndexed) {x : Externals}
  (hz : x.zstd = z) (hchecks : z.ChecksSize)
include hregular hindexed hz hchecks

/-- A call keeps a player in step. -/
theorem perform_keeps {wanted : Bool} {call : SeekCall} {p' : ReplayFilePlayer}
    (hp : Following z rom file wanted p) (h : perform x call p = some p') :
    Following z rom file wanted p' := by
  have hafter : ∀ {ε α : Type} {f : Act ε ReplayFilePlayer α},
      Act.Hoare (Following z rom file wanted) f (fun _ ↦ Following z rom file wanted)
        (Following z rom file wanted) → stateAfter (f p) = some p' →
      Following z rom file wanted p' := by
    intro ε α f hf hstate
    have := hf p hp
    cases hrun : f p with
    | ok a q =>
      rw [hrun] at this hstate
      cases hstate
      exact this
    | error e q =>
      rw [hrun] at this hstate
      cases hstate
      exact this
    | abort =>
      rw [hrun] at hstate
      cases hstate
  cases call with
  | goToKeyframe frame =>
    exact hafter (goToKeyframe_keeps hregular hindexed hz hchecks wanted frame) h
  | nextPacket =>
    refine hafter (f := nextPacket x) (fun q hq ↦ ?_) h
    exact nextPacketGo_keeps hregular hindexed hz hchecks wanted _ q hq
  | keyframeIsStoredFull frame => exact hafter (keyframeIsStoredFull_keeps hz hchecks wanted frame) h

/-- So does a run of calls. -/
theorem runSeeks_keeps {wanted : Bool} {calls : List SeekCall} {p' : ReplayFilePlayer}
    (hp : Following z rom file wanted p) (h : runSeeks x calls p = some p') :
    Following z rom file wanted p' := by
  induction calls generalizing p with
  | nil =>
    cases h
    exact hp
  | cons call calls ih =>
    obtain ⟨q, hq, hrest⟩ := Option.bind_eq_some_iff.mp h
    exact ih (perform_keeps hregular hindexed hz hchecks hp hq) hrest

/-- What a seek and the packet after it hand out from one player in step, they hand out from every
other. -/
theorem seek_same {wanted : Bool} {q p' p'' : ReplayFilePlayer} {frame : Nat} {r : Option Packet}
    (hp : Following z rom file wanted p) (hq : Following z rom file wanted q)
    (hgo : goToKeyframe x frame p = .ok () p') (hnext : nextPacket x p' = .ok r p'') :
    ∃ q' q'', goToKeyframe x frame q = .ok () q' ∧ nextPacket x q' = .ok r q'' ∧
      q''.currentKeyframeState = p''.currentKeyframeState := by
  have hspec := goToKeyframe_spec hregular hindexed hz hchecks hp.inStep frame
  have hspec' := goToKeyframe_spec hregular hindexed hz hchecks hq.inStep frame
  cases hlocated : file.located z frame with
  | none =>
    rw [hlocated] at hspec
    exact (hspec.1 p' hgo).elim
  | some at' =>
    obtain ⟨list, pos⟩ := at'
    rw [hlocated] at hspec hspec'
    rcases hspec with ⟨p₁, hok, hmoved, hready, hopen⟩ | ⟨⟨e, p₁, herr, -⟩, -⟩
    · rw [hgo] at hok
      cases hok
      obtain ⟨packet, p₂, hok₂, hshown⟩ : ∃ packet p₂, nextPacket x (p₁.atPosition list pos) =
          .ok (some (handed p₁.keyframeStatesWanted p₂.chain.current packet)) p₂ ∧
          Shown z rom file list pos packet p₂.chain.current := by
        rcases nextPacket_atPosition hregular hindexed hz hchecks hlocated hmoved.inStep hready
          hopen with ⟨packet, p₂, hok, hshown, -⟩ | ⟨⟨e, p₂, herr⟩, -⟩
        · exact ⟨packet, p₂, hok, hshown⟩
        · have := hnext.symm.trans herr
          cases this
      have heq := hnext.symm.trans hok₂
      cases heq
      rcases hspec' with ⟨q₁, hgo', hmoved', hready', hopen'⟩ | ⟨-, hnot⟩
      · rcases nextPacket_atPosition hregular hindexed hz hchecks hlocated hmoved'.inStep hready'
          hopen' with ⟨packet', q₂, hok', hshown', -⟩ | ⟨-, hnot⟩
        · obtain ⟨rfl, hstate⟩ := hshown'.unique hshown
          refine ⟨_, q₂, hgo', ?_, hstate⟩
          rw [hok', hstate, (hq.moved hmoved').wanted_eq, (hp.moved hmoved).wanted_eq]
        · exact (hnot ⟨packet, _, hshown⟩).elim
      · exact (hnot hshown.reachable).elim
    · rw [hgo] at herr
      cases herr

end Runs

/-! ## Files that are regular -/

end ReplayFilePlayer

namespace OpenedFile

variable {z : Zstd} {file : OpenedFile}

/-- A file of packets without blobs has no table that could leave something out. -/
theorem tablesComplete_of_no_blob (h : ∀ (i : Nat) b, file.packets[i]? ≠ some (Packet.compressedBlob b)) :
    file.TablesComplete z := by
  intro i offset v t packet after _ hv
  obtain ⟨b, hb, -⟩ := exists_of_blobView hv
  exact (h i b hb).elim

/-- A file of a console whose states keep their length is regular, if it has no stored keyframes and
its tables are complete. -/
theorem regular_of_not_resizing {rom : Option Bytes} (hindexed : file.StoredIndexed)
    (hresizing : file.resizing = false)
    (hstored : ∀ (i : Nat) k, file.packets[i]? ≠ some (Packet.storedKeyframe k))
    (htables : file.TablesComplete z) : file.Regular z rom := by
  refine ⟨?_, fun q pos k packet _ hk ↦ (hstored q k hk).elim, .inl ?_, htables⟩
  · intro list q pos base packet _ _ _ _ hspoils
    cases packet with
    | regionDeltaKeyframe metadata stateLen control data =>
      have hyes := hspoils.2.1
      rw [hresizing] at hyes
      cases hyes
    | _ => exact hspoils
  · intro k info r hinfo
    obtain ⟨⟨keyframe, hkeyframe, -⟩, -⟩ := hindexed k info hinfo
    exact (hstored _ _ hkeyframe).elim

end OpenedFile

namespace ReplayFilePlayer

variable {p : ReplayFilePlayer}

/-! ## From the start or from anywhere -/

/-- What a seek and the read after it hand out, the state included, when both succeed. -/
def seekAndRead (x : Externals) (frame : Nat) (p : ReplayFilePlayer) :
    Option (Option Packet × Bytes) :=
  match goToKeyframe x frame p with
  | .ok _ p' =>
    match nextPacket x p' with
    | .ok r p'' => some (r, p''.currentKeyframeState)
    | _ => none
  | _ => none

theorem seekAndRead_eq_some {x : Externals} {frame : Nat} {r : Option Packet} {s : Bytes} :
    seekAndRead x frame p = some (r, s) ↔ ∃ p' p'', goToKeyframe x frame p = .ok () p' ∧
      nextPacket x p' = .ok r p'' ∧ p''.currentKeyframeState = s := by
  rw [seekAndRead]
  cases hgo : goToKeyframe x frame p with
  | ok u p' =>
    dsimp only
    cases hnext : nextPacket x p' with
    | ok r' p'' =>
      simp only [Option.some.injEq, Prod.mk.injEq]
      constructor
      · rintro ⟨rfl, rfl⟩
        exact ⟨p', p'', rfl, hnext, rfl⟩
      · rintro ⟨q, q', hq, hq', hs⟩
        cases hq
        cases hnext.symm.trans hq'
        exact ⟨rfl, hs⟩
    | error e p'' =>
      refine ⟨fun h ↦ (by cases h), ?_⟩
      rintro ⟨q, q', hq, hq', -⟩
      cases hq
      cases hnext.symm.trans hq'
    | abort =>
      refine ⟨fun h ↦ (by cases h), ?_⟩
      rintro ⟨q, q', hq, hq', -⟩
      cases hq
      cases hnext.symm.trans hq'
  | error e p' => exact ⟨fun h ↦ (by cases h), fun ⟨q, q', hq, _⟩ ↦ by cases hq⟩
  | abort => exact ⟨fun h ↦ (by cases h), fun ⟨q, q', hq, _⟩ ↦ by cases hq⟩

/-- **What a seek hands out does not depend on the calls before it**, in a file that is regular: in
whatever order calls were made and whatever they returned, a seek and the read after it hand out
what they hand out from a player just opened. -/
theorem seek_forgets_history {x : Externals} (hchecks : x.zstd.ChecksSize) {bytes : Bytes}
    {allowSomeCorruption : Bool} {player p : ReplayFilePlayer} {settings : Settings}
    {calls : List SeekCall} {frame : Nat} {shown : Option Packet × Bytes}
    (hnew : new x bytes allowSomeCorruption = .ok player)
    (hregular : player.file.Regular x.zstd settings.rom)
    (hrun : runSeeks x calls (player.withSettings settings) = some p)
    (hshown : seekAndRead x frame p = some shown) :
    seekAndRead x frame (player.withSettings settings) = some shown := by
  obtain ⟨source, file, hread, rfl⟩ := read_of_new hnew
  have hindexed := OpenedFile.storedIndexed_of_read hread
  have hfresh := following_start (z := x.zstd) file settings
  obtain ⟨r, s⟩ := shown
  obtain ⟨p', p'', hgo, hnext, hs⟩ := seekAndRead_eq_some.mp hshown
  have hp := runSeeks_keeps hregular hindexed rfl hchecks hfresh hrun
  obtain ⟨q', q'', hgo', hnext', hs'⟩ :=
    seek_same hregular hindexed rfl hchecks hp hfresh hgo hnext
  exact seekAndRead_eq_some.mpr ⟨q', q'', hgo', hnext', hs'.trans hs⟩

/-- Metadata of a keyframe on a frame, with nothing held. -/
def idleMetadata (frame : UnsignedInteger) : KeyframeMetadata :=
  ⟨[], Speed.default, frame, 0, []⟩

/-- A recording without a single blob, which its recorder never closed. -/
def unclosedFile (console : ReplayConsoleType) (packets : List Packet) : Bytes :=
  match (ReplayFileMetadata.unnamed console).asRawHeader with
  | .ok header => header.asBytes ++ packets.flatMap Packet.write
  | .error _ => []

/-- A full keyframe and a delta that applies. -/
def deltaPackets : List Packet :=
  [.keyframe (idleMetadata 0) [0, 0, 0, 0], .nextFrame 16,
    .regionDeltaKeyframe (idleMetadata 1) 4 [0, 1] [1, 2, 3, 4]]

/-- The same, and a delta that grows the state to eight bytes and has no valid diff. -/
def spoilingPackets : List Packet :=
  deltaPackets ++ [.nextFrame 16, .regionDeltaKeyframe (idleMetadata 2) 8 [0] []]

theorem seek_forgets_history_deltas :
    ∃ player p shown, new .plain (unclosedFile .gameBoy deltaPackets) false = .ok player ∧
      runSeeks .plain [.goToKeyframe 1, .nextPacket, .nextPacket, .goToKeyframe 0]
        (player.withSettings ⟨none, true, false⟩) = some p ∧
      seekAndRead .plain 1 p = some shown ∧
      seekAndRead .plain 1 (player.withSettings ⟨none, true, false⟩) = some shown := by
  obtain ⟨player, hnew, hfacts⟩ := exists_ok_of_any
    (e := new .plain (unclosedFile .gameBoy deltaPackets) false)
    (f := fun player ↦ decide (player.file.packets = deltaPackets ∧
      player.file.resizing = false ∧ ((runSeeks .plain
        [.goToKeyframe 1, .nextPacket, .nextPacket, .goToKeyframe 0]
        (player.withSettings ⟨none, true, false⟩)).any fun p ↦
          (seekAndRead .plain 1 p).isSome) = true)) (by decide +kernel)
  obtain ⟨hpackets, hresizing, hruns⟩ := of_decide_eq_true hfacts
  obtain ⟨p, hrun, hshown⟩ := (Option.any_eq_true _ _).mp hruns
  obtain ⟨shown, hshown⟩ := Option.isSome_iff_exists.mp hshown
  obtain ⟨source, file, hread, rfl⟩ := read_of_new hnew
  have hregular : file.Regular rawZstd none :=
    OpenedFile.regular_of_not_resizing (OpenedFile.storedIndexed_of_read hread) hresizing
      (fun i k hk ↦ by
        have hmem : Packet.storedKeyframe k ∈ deltaPackets := hpackets ▸ List.mem_of_getElem? hk
        simp [deltaPackets] at hmem)
      (OpenedFile.tablesComplete_of_no_blob fun i b hb ↦ by
        have hmem : Packet.compressedBlob b ∈ deltaPackets := hpackets ▸ List.mem_of_getElem? hb
        simp [deltaPackets] at hmem)
  exact ⟨_, p, shown, hnew, hrun, hshown,
    seek_forgets_history rawZstd_checksSize hnew hregular hrun hshown⟩

/-- A delta that spoils the state is remembered: reading it fails, and the seek back to the keyframe
before it hands out a state of its length. -/
theorem seek_remembers_spoiled_state :
    ∃ player p, new .plain (unclosedFile .nintendo3DS spoilingPackets) false = .ok player ∧
      runSeeks .plain [.goToKeyframe 2, .nextPacket] player = some p ∧
      seekAndRead .plain 1 player =
        some (some (.keyframe (idleMetadata 1) [1, 2, 3, 4]), [1, 2, 3, 4]) ∧
      seekAndRead .plain 1 p =
        some (some (.keyframe (idleMetadata 1) [1, 2, 3, 4, 0, 0, 0, 0]),
          [1, 2, 3, 4, 0, 0, 0, 0]) := by
  obtain ⟨player, hnew, hfacts⟩ := exists_ok_of_any
    (e := new .plain (unclosedFile .nintendo3DS spoilingPackets) false)
    (f := fun player ↦ decide (seekAndRead .plain 1 player =
        some (some (.keyframe (idleMetadata 1) [1, 2, 3, 4]), [1, 2, 3, 4]) ∧
      ((runSeeks .plain [.goToKeyframe 2, .nextPacket] player).any fun p ↦
        decide (seekAndRead .plain 1 p =
          some (some (.keyframe (idleMetadata 1) [1, 2, 3, 4, 0, 0, 0, 0]),
            [1, 2, 3, 4, 0, 0, 0, 0]))) = true)) (by decide +kernel)
  obtain ⟨hfresh, hruns⟩ := of_decide_eq_true hfacts
  obtain ⟨p, hrun, hshown⟩ := (Option.any_eq_true _ _).mp hruns
  exact ⟨player, p, hnew, hrun, hfresh, of_decide_eq_true hshown⟩

end ReplayFilePlayer

end SuperShuckie
