import SuperShuckie.Player.Opened
import SuperShuckie.Lib.Tiers

/-!
# The references of stored keyframes

The index of a file that opened gives every stored keyframe the latest one before it of at most its
level as its reference: it is the tower of their levels (`Tower.of_read`).  So the keyframes that a
seek materialises are the chain of the one that it goes to (`coldSeek_steps`).
-/

set_option autoImplicit false

namespace SuperShuckie

open ByteFormat Tiers

namespace OpenedFile

/-- The levels of the stored keyframes among some packets. -/
def storedLevels (packets : List Packet) : List Level :=
  packets.filterMap fun
    | .storedKeyframe keyframe => some (PacketIndex.levelIndex keyframe.level)
    | _ => none

theorem storedLevels_append (packets packets' : List Packet) :
    storedLevels (packets ++ packets') = storedLevels packets ++ storedLevels packets' :=
  List.filterMap_append

theorem PacketIndex.levelIndex_eq_bot {level : UInt8} : levelIndex level = ⊥ ↔ level = 0 := by
  rw [levelIndex]
  split_ifs with h0 h1
  · exact ⟨fun _ ↦ h0, fun _ ↦ rfl⟩
  · exact ⟨fun h ↦ absurd h (by decide), fun h ↦ absurd h h0⟩
  · exact ⟨fun h ↦ absurd h (by decide), fun h ↦ absurd h h0⟩

/-- An entry of the index: a level and a reference. -/
def entryOf (info : StoredKeyframeInfo) : Level × Option Nat :=
  (PacketIndex.levelIndex info.level, info.reference)

namespace PacketIndex

/-- The index of some packets has the tower of their levels, in the order of the packets. -/
structure Indexes (packets : List Packet) (index : PacketIndex) : Prop where
  entries : index.storedKeyframes.map entryOf = (Tower.build (storedLevels packets)).entries
  latest : index.latestAtMost = (Tower.build (storedLevels packets)).latest
  ordered : index.storedKeyframes.Pairwise fun info info' ↦ info.packet < info'.packet
  below : ∀ info ∈ index.storedKeyframes, info.packet < packets.length

theorem Indexes.empty : empty.Indexes [] :=
  ⟨rfl, rfl, .nil, fun _ hinfo ↦ absurd hinfo List.not_mem_nil⟩

variable {packets : List Packet} {index index' : PacketIndex}

/-- A packet that is no stored keyframe. -/
theorem Indexes.congr (h : index.Indexes packets) {packet : Packet}
    (hlevels : storedLevels [packet] = []) (hstored : index'.storedKeyframes = index.storedKeyframes)
    (hlatest : index'.latestAtMost = index.latestAtMost) : index'.Indexes (packets ++ [packet]) := by
  have hsame : storedLevels (packets ++ [packet]) = storedLevels packets := by
    rw [storedLevels_append, hlevels, List.append_nil]
  refine ⟨?_, ?_, hstored ▸ h.ordered, fun info hinfo ↦ ?_⟩
  · rw [hstored, hsame, h.entries]
  · rw [hlatest, hsame, h.latest]
  · rw [List.length_append, List.length_singleton]
    exact Nat.lt_succ_of_lt (h.below info (hstored ▸ hinfo))

theorem Indexes.addStored (h : index.Indexes packets) (keyframe : StoredKeyframe) :
    (index.addStored packets.length keyframe).Indexes (packets ++ [.storedKeyframe keyframe]) := by
  have hlevels : storedLevels (packets ++ [.storedKeyframe keyframe]) =
      storedLevels packets ++ [levelIndex keyframe.level] := storedLevels_append _ _
  have hlen : index.storedKeyframes.length = (Tower.build (storedLevels packets)).entries.length := by
    rw [← h.entries, List.length_map]
  rw [PacketIndex.addStored]
  dsimp only [addKeyframe]
  refine ⟨?_, ?_, ?_, fun info hinfo ↦ ?_⟩
  · rw [hlevels, Tower.build_append_singleton, Tower.push, List.map_append, h.entries,
      List.map_singleton, entryOf, h.latest]
    simp only [levelIndex_eq_bot]
  · rw [hlevels, Tower.build_append_singleton]
    funext m
    rw [Tower.latest_push, h.latest, hlen]
  · refine List.pairwise_append.mpr ⟨h.ordered, List.pairwise_singleton _ _, fun info hinfo last hlast ↦ ?_⟩
    rw [List.mem_singleton] at hlast
    subst hlast
    exact h.below info hinfo
  · rw [List.length_append, List.length_singleton]
    rcases List.mem_append.mp hinfo with hold | hnew
    · exact Nat.lt_succ_of_lt (h.below info hold)
    · rw [List.mem_singleton] at hnew
      subst hnew
      exact Nat.lt_succ_self _

theorem Indexes.add (h : index.Indexes packets) {packet : Packet}
    (hadd : index.add packets.length packet = .ok index') : index'.Indexes (packets ++ [packet]) := by
  cases packet with
  | compressedBlob blob =>
    rw [PacketIndex.add, addBlob] at hadd
    split_ifs at hadd
    cases hadd
    obtain ⟨hstored, hlatest⟩ := foldl_addKeyframe_stored blob.keyframes index
    obtain ⟨hstored', hlatest'⟩ :=
      foldl_addBookmark_stored blob.bookmarks (blob.keyframes.foldl addKeyframe index)
    exact h.congr rfl (hstored'.trans hstored) (hlatest'.trans hlatest)
  | storedKeyframe keyframe =>
    cases hadd
    exact h.addStored keyframe
  | nextFrame delta =>
    rw [PacketIndex.add] at hadd
    split_ifs at hadd
    cases hadd
    exact h.congr rfl rfl rfl
  | _ =>
    cases hadd
    exact h.congr rfl rfl rfl

theorem Indexes.addAll (h : index.Indexes packets) {rest : List Packet}
    (hadd : addAll index packets.length rest = .ok index') : index'.Indexes (packets ++ rest) := by
  induction rest generalizing index packets with
  | nil =>
    cases hadd
    rw [List.append_nil]
    exact h
  | cons packet rest ih =>
    rw [PacketIndex.addAll] at hadd
    cases hone : index.add packets.length packet with
    | error e =>
      rw [hone] at hadd
      cases hadd
    | ok next =>
      rw [hone] at hadd
      have hnext := ih (h.add hone) (by rwa [List.length_append, List.length_singleton])
      rwa [List.append_assoc] at hnext

end PacketIndex

/-- The stored keyframes of a file are the tower of their levels, in the order of the packets. -/
structure Towers (file : OpenedFile) : Prop where
  entries : file.storedKeyframes.map entryOf = (Tower.build (storedLevels file.packets)).entries
  ordered : file.storedKeyframes.Pairwise fun info info' ↦ info.packet < info'.packet
  indexed : file.StoredIndexed

/-- **A file that opened has the tower of its levels.** -/
theorem Towers.of_read {x : Externals} {bytes : Bytes} {source : Option Bytes} {allow : Bool}
    {file : OpenedFile} (h : read x bytes source allow = .ok file) : file.Towers := by
  obtain ⟨index, hindex, hstored, -⟩ := index_of_read h
  have hindexes : index.Indexes file.packets := by
    have hall := PacketIndex.Indexes.empty.addAll hindex
    rwa [List.nil_append] at hall
  exact ⟨hstored ▸ hindexes.entries, hstored ▸ hindexes.ordered, storedIndexed_of_read h⟩

namespace Towers

variable {file : OpenedFile} {k : Nat} {info : StoredKeyframeInfo} {chain : List Nat}

theorem entry (h : file.Towers) (hinfo : file.storedKeyframes[k]? = some info) :
    (Tower.build (storedLevels file.packets)).entries[k]? = some (entryOf info) := by
  rw [← h.entries, List.getElem?_map, hinfo, Option.map_some]

theorem exists_info (h : file.Towers) {e : Level × Option Nat}
    (he : (Tower.build (storedLevels file.packets)).entries[k]? = some e) :
    ∃ info, file.storedKeyframes[k]? = some info ∧ entryOf info = e := by
  rw [← h.entries, List.getElem?_map, Option.map_eq_some_iff] at he
  exact he

theorem length_eq (h : file.Towers) :
    file.storedKeyframes.length = (storedLevels file.packets).length := by
  rw [← Tower.length_build (storedLevels file.packets), ← h.entries, List.length_map]

theorem reference_lt (h : file.Towers) {l : Level} {r : Nat}
    (he : (Tower.build (storedLevels file.packets)).entries[k]? = some (l, some r)) : r < k := by
  obtain ⟨info, hinfo, hentry⟩ := h.exists_info he
  exact (h.indexed k info hinfo).2 r (congrArg Prod.snd hentry)

/-- A stored keyframe is found by its packet. -/
theorem storedIndexOf (h : file.Towers) (hinfo : file.storedKeyframes[k]? = some info) :
    file.storedIndexOf info.packet = .ok k := by
  obtain ⟨hk, hget⟩ := List.getElem?_eq_some_iff.mp hinfo
  rw [OpenedFile.storedIndexOf]
  have hfound : (file.storedKeyframes.findIdx? fun i ↦ i.packet = info.packet) = some k := by
    rw [List.findIdx?_eq_some_iff_getElem]
    refine ⟨hk, decide_eq_true (congrArg StoredKeyframeInfo.packet hget), fun j hj ↦ ?_⟩
    have hlt := List.pairwise_iff_getElem.mp h.ordered j k (hj.trans hk) hk hj
    rw [hget] at hlt
    simpa using Nat.ne_of_lt hlt
  rw [hfound]

/-- A chain is as long as its keyframe is far into the file, at most: references point backwards. -/
theorem length_chain_le (h : file.Towers)
    (hchain : Chain (Tower.build (storedLevels file.packets)).entries k chain) :
    chain.length ≤ k + 1 := by
  induction hchain with
  | own => simp
  | @delta k r l rest hentry hl hrest ih =>
    have hr := h.reference_lt hentry
    rw [List.length_cons]
    omega

end Towers

end OpenedFile

namespace ReplayFilePlayer

open OpenedFile

variable {x : Externals} {file : OpenedFile} {k : Nat} {chain : List Nat} {p : ReplayFilePlayer}

/-- **A walk is the start of the chain**: it stops at the first keyframe that a buffer holds. -/
theorem referenceWalk_chain (h : file.Towers) (hfile : p.file = file)
    (hchain : Chain (Tower.build (storedLevels file.packets)).entries k chain) {fuel : Nat}
    (hfuel : chain.length ≤ fuel) : p.referenceWalk fuel k =
      .ok (some (chain.takeWhile fun i ↦ !(p.chain.stored.holding i).isSome)) := by
  induction hchain generalizing fuel with
  | @own k r hentry =>
    obtain ⟨fuel, rfl⟩ : ∃ n, fuel = n + 1 := ⟨fuel - 1, by simp at hfuel; omega⟩
    obtain ⟨info, hinfo, hentry⟩ := h.exists_info hentry
    rw [referenceWalk]
    by_cases hheld : (p.chain.stored.holding k).isSome = true
    · rw [if_pos hheld, List.takeWhile_cons, hheld]
      rfl
    · have hlevel : info.level = 0 := PacketIndex.levelIndex_eq_bot.mp (congrArg Prod.fst hentry)
      rw [if_neg hheld, hfile, hinfo]
      dsimp only
      rw [if_pos hlevel, List.takeWhile_cons, Bool.eq_false_of_not_eq_true hheld]
      rfl
  | @delta k r l rest hentry hl hrest ih =>
    obtain ⟨fuel, rfl⟩ : ∃ n, fuel = n + 1 :=
      ⟨fuel - 1, by rw [List.length_cons] at hfuel; omega⟩
    obtain ⟨info, hinfo, hentry⟩ := h.exists_info hentry
    rw [referenceWalk]
    by_cases hheld : (p.chain.stored.holding k).isSome = true
    · rw [if_pos hheld, List.takeWhile_cons, hheld]
      rfl
    · have hlevel : info.level ≠ 0 := fun hzero ↦
        hl (((congrArg Prod.fst hentry).symm).trans (PacketIndex.levelIndex_eq_bot.mpr hzero))
      have href : info.reference = some r := congrArg Prod.snd hentry
      rw [if_neg hheld, hfile, hinfo]
      dsimp only
      rw [if_neg hlevel, href]
      dsimp only
      rw [ih (by rw [List.length_cons] at hfuel; omega), List.takeWhile_cons,
        Bool.eq_false_of_not_eq_true hheld]
      rfl

/-! ## Seeking -/

/-- What bringing the chain to a stored keyframe is made of: a keyframe is decoded, or one that a
buffer holds becomes the current one. -/
inductive ChainStep
  | materialise (k : Nat)
  | select (k : Nat)

/-- The keyframe `k` that a buffer holds becomes the chain's current one. -/
def selectStored (k : Nat) : PlayerAction Unit := do
  let p ← Act.get
  match p.chain.stored.holding k, p.file.storedKeyframes[k]? with
  | some b, some info =>
    Act.modify fun p ↦ { p with chain := { p.chain with
      stored := { p.chain.stored with current := some b }
      list := some .topLevel
      lastApplied := some info.packet } }
  | _, _ => Act.abort

namespace ChainStep

def run (x : Externals) : ChainStep → PlayerAction Unit
  | .materialise k => materialiseStored x k
  | .select k => selectStored k

def isMaterialise : ChainStep → Bool
  | .materialise _ => true
  | .select _ => false

/-- The steps of folding a keyframe after a walk. -/
def ofWalk (walk : List Nat) (k : Nat) : List ChainStep :=
  walk.reverse.map .materialise ++ [.select k]

theorem count_ofWalk (walk : List Nat) (k : Nat) :
    (ofWalk walk k).countP isMaterialise = walk.length := by
  rw [ofWalk, List.countP_append, List.countP_map]
  simp [isMaterialise, Function.comp_def]

end ChainStep

/-- Folding a keyframe is decoding those of its walk. -/
theorem foldStored_eq {walk : List Nat} (hwalk : p.referenceWalk (k + 1) k = .ok (some walk)) :
    foldStored x k p = (ChainStep.ofWalk walk k).forM (ChainStep.run x) p := by
  have hmap : ∀ (l : List Nat) (q : ReplayFilePlayer),
      (l.map ChainStep.materialise ++ [ChainStep.select k]).forM (ChainStep.run x) q =
        (l.forM (materialiseStored x) >>= fun _ ↦ selectStored k) q := by
    intro l
    induction l with
    | nil =>
      intro q
      change (selectStored k >>= fun _ ↦ pure ()) q = selectStored k q
      rw [Act.bind_apply]
      cases selectStored k q <;> rfl
    | cons i l ih =>
      intro q
      change (materialiseStored x i >>= fun _ ↦ (l.map ChainStep.materialise ++ [ChainStep.select k]).forM
        (ChainStep.run x)) q = _
      change _ = ((materialiseStored x i >>= fun _ ↦ l.forM (materialiseStored x)) >>=
        fun _ ↦ selectStored k) q
      rw [Act.bind_assoc_apply, Act.bind_apply, Act.bind_apply]
      cases materialiseStored x i q with
      | ok u q' => exact ih q'
      | error e q' => rfl
      | abort => rfl
  rw [foldStored, Act.get_bind_apply, hwalk, ChainStep.ofWalk, hmap]
  rfl

/-- What a seek to a stored keyframe and reading it do to the chain: it is brought to the reference of
the keyframe, and then the keyframe is folded. -/
def seekStored (x : Externals) (target : Nat) : PlayerAction Unit := do
  fastForwardChain x .topLevel target
  foldTopLevel x target

variable {info : StoredKeyframeInfo}

/-- Of a keyframe that no buffer holds, the reference is folded first, if it has one. -/
theorem fastForward_stored (h : file.Towers) (hfile : p.file = file)
    (hinfo : file.storedKeyframes[k]? = some info) (hnot : p.chain.stored.holding k = none) :
    fastForwardChain x .topLevel info.packet p =
      match info.reference with
      | some reference => if 0 < info.level then foldStored x reference p else .ok () p
      | none => .ok () p := by
  obtain ⟨⟨keyframe, hpacket, -⟩, -⟩ := h.indexed k info hinfo
  rw [fastForwardChain, Act.get_bind_apply]
  dsimp only
  rw [hfile, hpacket]
  dsimp only
  rw [fastForwardStoredChain, Act.get_bind_apply, hfile, h.storedIndexOf hinfo, Act.bind_apply]
  change (if (p.chain.stored.holding k).isSome = true then pure () else _ : PlayerAction Unit) p = _
  rw [hnot, if_neg (by simp), hinfo]
  dsimp only
  cases info.reference with
  | none => rfl
  | some reference =>
    dsimp only
    split_ifs <;> rfl

theorem foldTopLevel_stored (h : file.Towers) (hfile : p.file = file)
    (hinfo : file.storedKeyframes[k]? = some info) :
    foldTopLevel x info.packet p = foldStored x k p := by
  obtain ⟨⟨keyframe, hpacket, -⟩, -⟩ := h.indexed k info hinfo
  rw [foldTopLevel, Act.get_bind_apply, hfile, hpacket]
  dsimp only
  rw [h.storedIndexOf hinfo]
  rfl

/-- **A cold seek decodes the chain of the keyframe it goes to**, and no more. -/
theorem coldSeek_steps (h : file.Towers) (hfile : p.file = file)
    (hcold : ∀ b, p.chain.stored.holds b = none) (hinfo : file.storedKeyframes[k]? = some info)
    (hchain : Chain (Tower.build (storedLevels file.packets)).entries k chain) :
    ∃ steps : List ChainStep, steps.countP ChainStep.isMaterialise ≤ chain.length ∧
      seekStored x info.packet p = steps.forM (ChainStep.run x) p := by
  have hnone : ∀ i, p.chain.stored.holding i = none := by
    intro i
    rw [StoredBuffers.holding, List.find?_eq_none]
    intro b _
    rw [hcold b]
    simp
  have hwalk : ∀ {i : Nat} {c : List Nat},
      Chain (Tower.build (storedLevels file.packets)).entries i c →
        p.referenceWalk (i + 1) i = .ok (some c) := by
    intro i c hc
    rw [referenceWalk_chain h hfile hc (h.length_chain_le hc), List.takeWhile_eq_self_iff.mpr]
    intro j _
    rw [hnone j]
    rfl
  rw [seekStored, Act.bind_apply, fastForward_stored h hfile hinfo (hnone k)]
  cases hchain with
  | @own _ r hentry =>
    have hlevel : info.level = 0 :=
      PacketIndex.levelIndex_eq_bot.mp (congrArg Prod.fst (Option.some.inj
        ((h.entry hinfo).symm.trans hentry)))
    have hstay : (match info.reference with
        | some reference => if 0 < info.level then foldStored x reference p else .ok () p
        | none => .ok () p) = .ok () p := by
      cases info.reference with
      | none => rfl
      | some reference =>
        dsimp only
        rw [hlevel, if_neg (by decide)]
    rw [hstay]
    dsimp only
    rw [foldTopLevel_stored h hfile hinfo]
    exact ⟨_, (ChainStep.count_ofWalk [k] k).le, foldStored_eq (hwalk (.own hentry))⟩
  | @delta _ r l rest hentry hl hrest =>
    have hinfoEq := Option.some.inj ((h.entry hinfo).symm.trans hentry)
    have href : info.reference = some r := congrArg Prod.snd hinfoEq
    have hlevel : 0 < info.level := by
      refine UInt8.pos_iff_ne_zero.mpr fun hzero ↦ hl ?_
      exact (congrArg Prod.fst hinfoEq).symm.trans (PacketIndex.levelIndex_eq_bot.mpr hzero)
    rw [href]
    dsimp only
    rw [if_pos hlevel]
    have hr : r < k := (h.indexed k info hinfo).2 r href
    obtain ⟨rinfo, hrinfo⟩ : ∃ rinfo, file.storedKeyframes[r]? = some rinfo :=
      ⟨_, List.getElem?_eq_getElem (hr.trans (List.getElem?_eq_some_iff.mp hinfo).1)⟩
    have hfirst := foldStored_eq (x := x) (hwalk hrest)
    have hstep : p.chain.stored.InStep x.zstd p.rom file := fun b i hb ↦ by
      rw [hcold b] at hb
      cases hb
    rcases foldStored_spec hfile rfl hstep h.indexed hrinfo with
      ⟨q, s, b, hok, hq, -, hcurrent, hb⟩ | ⟨e, s, herror, -⟩
    · -- the reference is held now, so the second walk is the keyframe itself
      have hqfile : q.file = file := by
        rw [hq]
        exact hfile
      have hheld : (q.chain.stored.holding r).isSome = true := by
        rw [hq]
        exact StoredBuffers.holding_isSome hb
      have hstop : rest.takeWhile (fun i ↦ !(q.chain.stored.holding i).isSome) = [] := by
        cases hrest <;> rw [List.takeWhile_cons, hheld] <;> rfl
      have hsecond := referenceWalk_chain (p := q) h hqfile (.delta hentry hl hrest)
        (h.length_chain_le (.delta hentry hl hrest))
      rw [List.takeWhile_cons, hstop] at hsecond
      rw [hok] at hfirst ⊢
      dsimp only
      rw [foldTopLevel_stored h hqfile hinfo, foldStored_eq hsecond]
      refine ⟨ChainStep.ofWalk rest r ++ ChainStep.ofWalk _ k, ?_,
        (Act.forM_append_of_ok hfirst.symm).symm⟩
      rw [List.countP_append, ChainStep.count_ofWalk, ChainStep.count_ofWalk, List.length_cons]
      have hone : (if (!(q.chain.stored.holding k).isSome) = true then [k] else []).length ≤ 1 := by
        split_ifs <;> simp
      omega
    · rw [herror] at hfirst ⊢
      refine ⟨ChainStep.ofWalk rest r, ?_, hfirst⟩
      rw [ChainStep.count_ofWalk, List.length_cons]
      exact Nat.le_succ _

end ReplayFilePlayer

end SuperShuckie
