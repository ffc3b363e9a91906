import SuperShuckie.Player.Seeking

/-!
# Fast-forwarding the chain

A seek brings the chain to the keyframe right before its target: from wherever the chain is, if that
is on the way, or from the last full keyframe.  Whether it gets there depends on the file alone
(`fastForwardChain_spec`).
-/

set_option autoImplicit false

namespace SuperShuckie

open ByteFormat ByteFormat.Reader

namespace ReplayFilePlayer

variable {z : Zstd} {rom : Option Bytes} {file : OpenedFile} {p : ReplayFilePlayer}

/-! ## Walking the chain -/

/-- No keyframe strictly between two positions moves the chain. -/
def NothingBetween (z : Zstd) (file : OpenedFile) (list : ListId) (q pos : Nat) : Prop :=
  ∀ r, q < r → r < pos → file.IsKeyframePos z list r →
    ∃ packet, file.packetAt z list r = some packet ∧ OpenedFile.moves list packet = false

/-- The chain is at the last keyframe before a position that moves it. -/
def CaughtUp (z : Zstd) (file : OpenedFile) (list : ListId) (pos : Nat) (c : ChainState) : Prop :=
  c.list = some list ∧ ∃ q, c.lastApplied = some q ∧ q < pos ∧ NothingBetween z file list q pos

variable {pos target : Nat} {c : ChainState} {v : BlobView}

theorem CaughtUp.readyFor {list : ListId} {s : Bytes} (h : CaughtUp z file list pos c)
    (hc : c.InStep z rom file) (hs : file.StateAt z rom list pos s) :
    c.ReadyFor z file list pos := by
  obtain ⟨hlist, q, hq, hlt, hnone⟩ := h
  cases hs with
  | full _ hp =>
    left
    intro packet hp'
    rw [hp] at hp'
    cases hp'
    rfl
  | stored hlist' hp =>
    subst hlist'
    left
    intro packet hp'
    cases hp.symm.trans hp'
    rfl
  | @delta q' _ _ _ _ _ _ hprec hbase _ =>
    right
    refine ⟨hlist, q, hq, ?_⟩
    rcases Nat.lt_trichotomy q q' with hqq | rfl | hqq
    · obtain ⟨packet, hp, hmoves⟩ := hnone q' hqq hprec.lt hprec.isKeyframe
      obtain ⟨packet', hp', hmoves'⟩ := hbase.moves
      rw [hp] at hp'
      cases hp'
      rw [hmoves] at hmoves'
      cases hmoves'
    · exact hprec
    · exact (hprec.between q hqq hlt (hc.isKeyframePos hlist hq)).elim

/-- There is a full keyframe at a position. -/
def FullAt (z : Zstd) (file : OpenedFile) (list : ListId) (pos : Nat) : Prop :=
  ∃ metadata state, file.packetAt z list pos = some (.keyframe metadata state)

/-- There is nothing but a full keyframe at a position. -/
def StartsAnew (z : Zstd) (file : OpenedFile) (list : ListId) (pos : Nat) : Prop :=
  ∀ packet, file.packetAt z list pos = some packet → isFullKeyframe packet = true

theorem FullAt.startsAnew {list : ListId} (h : FullAt z file list pos) :
    StartsAnew z file list pos := by
  obtain ⟨metadata, state, h⟩ := h
  intro packet hp
  rw [h] at hp
  cases hp
  rfl

/-- The chain can start a walk at a position: it is caught up with it, or the chain starts anew
there. -/
def CanStart (z : Zstd) (file : OpenedFile) (list : ListId) (pos : Nat) (c : ChainState) : Prop :=
  CaughtUp z file list pos c ∨ StartsAnew z file list pos

theorem CanStart.readyFor {list : ListId} {s : Bytes} (h : CanStart z file list pos c)
    (hc : c.InStep z rom file) (hs : file.StateAt z rom list pos s) :
    c.ReadyFor z file list pos := by
  rcases h with h | h
  · exact h.readyFor hc hs
  · left
    intro packet hp
    have := h packet hp
    cases packet <;> first | rfl | cases this

/-- The packet at a position can be passed by a walk. -/
def Passable (z : Zstd) (rom : Option Bytes) (file : OpenedFile) (list : ListId) (pos : Nat) :
    Prop :=
  (∃ s, file.StateAt z rom list pos s) ∨
    ∃ packet, file.packetAt z list pos = some packet ∧ OpenedFile.moves list packet = false ∧
      (isKeyframeClass packet = false ∨ file.IsKeyframePos z list pos)

/-- `positions` leads up to `target`, leaving out no keyframe. -/
def LeadsTo (z : Zstd) (file : OpenedFile) (list : ListId) (target : Nat) : List Nat → Prop
  | [] => True
  | [pos] => pos < target ∧ ∀ r, pos < r → r < target → ¬ file.IsKeyframePos z list r
  | pos :: next :: rest =>
    (pos < next ∧ ∀ r, pos < r → r < next → ¬ file.IsKeyframePos z list r) ∧
      LeadsTo z file list target (next :: rest)

theorem LeadsTo.tail {list : ListId} {positions : List Nat}
    (h : LeadsTo z file list target (pos :: positions)) : LeadsTo z file list target positions := by
  cases positions with
  | nil => trivial
  | cons next rest => exact h.2

theorem LeadsTo.drop {list : ListId} {positions : List Nat}
    (h : LeadsTo z file list target positions) (n : Nat) :
    LeadsTo z file list target (positions.drop n) := by
  induction n generalizing positions with
  | zero => exact h
  | succ n ih =>
    cases positions with
    | nil => trivial
    | cons pos positions => exact ih h.tail

/-- What follows the first of the positions that lead to a target. -/
theorem LeadsTo.gap {list : ListId} {target pos next : Nat} {positions : List Nat}
    (h : LeadsTo z file list target (pos :: positions))
    (hnext : (positions ++ [target]).head? = some next) :
    pos < next ∧ ∀ r, pos < r → r < next → ¬ file.IsKeyframePos z list r := by
  cases positions with
  | nil =>
    cases hnext
    exact h
  | cons _ _ =>
    cases hnext
    exact h.1

/-- A walk over the positions that lead to a target. -/
structure Walk (z : Zstd) (rom : Option Bytes) (file : OpenedFile) (list : ListId)
    (keep : ReplayFilePlayer → Prop) (f : Nat → PlayerAction Unit) (positions : List Nat) :
    Prop where
  keeps : ∀ {p p'}, Moved z rom file p p' → keep p → keep p'
  step : ∀ pos ∈ positions, ∀ p, p.InStep z rom file → keep p →
    (∃ packet p', file.packetAt z list pos = some packet ∧ f pos p = .ok () p' ∧
      Folded z rom file list pos packet p p') ∨
    (∃ e p', f pos p = .error e p' ∧ Moved z rom file p p') ∧
      ∀ packet, file.packetAt z list pos = some packet →
        ¬ CanFold z rom file list pos packet p.chain

variable {list : ListId} {keep : ReplayFilePlayer → Prop} {f : Nat → PlayerAction Unit}
  {positions : List Nat}

theorem Walk.tail (h : Walk z rom file list keep f (pos :: positions)) :
    Walk z rom file list keep f positions :=
  ⟨h.keeps, fun q hq ↦ h.step q (List.mem_cons_of_mem _ hq)⟩

/-- After a position was passed, the chain is caught up with the next one. -/
theorem Folded.caughtUp {next : Nat} {packet : Packet} {p' : ReplayFilePlayer}
    (h : Folded z rom file list pos packet p p') (hat : file.packetAt z list pos = some packet)
    (hstart : CanStart z file list pos p.chain)
    (hgap : pos < next ∧ ∀ r, pos < r → r < next → ¬ file.IsKeyframePos z list r) :
    CaughtUp z file list next p'.chain := by
  have hchain := h.chain
  split at hchain
  · obtain ⟨s, hs, -⟩ := hchain
    exact ⟨hs.list, pos, hs.lastApplied, hgap.1, fun r hpr hrn hr ↦ (hgap.2 r hpr hrn hr).elim⟩
  · rename_i hno
    rw [hchain]
    rcases hstart with ⟨hlist, q, hq, hlt, hnone⟩ | hanew
    · refine ⟨hlist, q, hq, hlt.trans hgap.1, fun r hqr hrn hr ↦ ?_⟩
      rcases Nat.lt_trichotomy r pos with hrp | rfl | hrp
      · exact hnone r hqr hrp hr
      · exact ⟨packet, hat, by simpa using hno⟩
      · exact (hgap.2 r hrp hrn hr).elim
    · exact (hno (OpenedFile.moves_of_full (hanew packet hat))).elim

/-- A walk ends caught up with its target, or at a position that cannot be passed. -/
theorem Walk.run {target : Nat} (h : Walk z rom file list keep f positions)
    (hlead : LeadsTo z file list target positions) (hp : p.InStep z rom file) (hkeep : keep p)
    (hstart : ∀ pos, positions.head? = some pos → CanStart z file list pos p.chain) :
    (∃ p', positions.forM f p = .ok () p' ∧ Moved z rom file p p' ∧
      (positions = [] ∧ p' = p ∨ CaughtUp z file list target p'.chain)) ∨
    (∃ e p', positions.forM f p = .error e p' ∧ Moved z rom file p p') ∧
      ∃ pos ∈ positions, ¬ Passable z rom file list pos := by
  induction positions generalizing p with
  | nil => exact .inl ⟨p, rfl, .refl hp, .inl ⟨rfl, rfl⟩⟩
  | cons pos rest ih =>
    have hcan := hstart pos rfl
    rcases h.step pos List.mem_cons_self p hp hkeep with
      ⟨packet, p₁, hat, hok, hfolded⟩ | ⟨⟨e, p₁, herr, hmoved⟩, hnot⟩
    · rw [Act.forM_cons_of_ok hok]
      rcases ih h.tail hlead.tail hfolded.inStep (h.keeps hfolded.toMoved hkeep)
          (fun next hnext ↦ .inl (hfolded.caughtUp hat hcan (hlead.gap (by
            rw [List.head?_append, hnext]; rfl)))) with
        ⟨p', hok', hmoved', hend⟩ | ⟨⟨e, p', herr', hmoved'⟩, q, hq, hnot⟩
      · refine .inl ⟨p', hok', hfolded.toMoved.trans hmoved', .inr ?_⟩
        rcases hend with ⟨rfl, rfl⟩ | hcaught
        · exact hfolded.caughtUp hat hcan (hlead.gap rfl)
        · exact hcaught
      · exact .inr ⟨⟨e, p', herr', hfolded.toMoved.trans hmoved'⟩, q,
          List.mem_cons_of_mem _ hq, hnot⟩
    · refine .inr ⟨⟨e, p₁, Act.forM_cons_of_error herr, hmoved⟩, pos, List.mem_cons_self, ?_⟩
      rintro (⟨s, hs⟩ | ⟨packet, hpacket, hmoves, hkey⟩)
      · obtain ⟨packet, hpacket, -⟩ := hs.moves
        exact hnot packet hpacket (.inr ⟨⟨s, hs⟩, .inr (hcan.readyFor hp.chain hs)⟩)
      · exact hnot packet hpacket (.inl ⟨hmoves, hkey⟩)

/-- The chain is where it has to be to fold the target of a seek. -/
def Arrived (z : Zstd) (file : OpenedFile) (list : ListId) (target : Nat) (c : ChainState) : Prop :=
  c.isAt list target = true ∨ CaughtUp z file list target c ∨ StartsAnew z file list target

/-- How a chain is on its way to a target: it is there; or the positions left follow the keyframe it
is at; or it starts anew at the first of them. -/
inductive Approach (z : Zstd) (file : OpenedFile) (list : ListId) (target : Nat) (c : ChainState) :
    List Nat → Prop
  | there : c.isAt list target = true → Approach z file list target c []
  | after {last : Nat} {positions : List Nat} : c.list = some list → c.lastApplied = some last →
      LeadsTo z file list target (last :: positions) → Approach z file list target c positions
  | restart {positions : List Nat} : LeadsTo z file list target positions →
      (∀ pos, (positions ++ [target]).head? = some pos → StartsAnew z file list pos) →
      Approach z file list target c positions

theorem Walk.arrives (h : Walk z rom file list keep f positions)
    (happroach : Approach z file list target p.chain positions) (hp : p.InStep z rom file)
    (hkeep : keep p) : (∃ p', positions.forM f p = .ok () p' ∧ Moved z rom file p p' ∧
      Arrived z file list target p'.chain) ∨
    (∃ e p', positions.forM f p = .error e p' ∧ Moved z rom file p p') ∧
      ∃ pos ∈ positions, ¬ Passable z rom file list pos := by
  cases happroach with
  | there hat => exact .inl ⟨p, rfl, .refl hp, .inl hat⟩
  | @after last _ hlist hlast hlead =>
    have hcaught : ∀ next, (positions ++ [target]).head? = some next →
        CaughtUp z file list next p.chain := fun next hnext ↦
      ⟨hlist, last, hlast, (hlead.gap hnext).1, fun r hr hr' hkey ↦
        ((hlead.gap hnext).2 r hr hr' hkey).elim⟩
    rcases h.run hlead.tail hp hkeep fun pos hpos ↦ .inl (hcaught pos (by
        rw [List.head?_append, hpos]; rfl)) with ⟨p', hok, hmoved, hend⟩ | herr
    · refine .inl ⟨p', hok, hmoved, .inr (.inl ?_)⟩
      rcases hend with ⟨rfl, rfl⟩ | hend
      · exact hcaught target rfl
      · exact hend
    · exact .inr herr
  | restart hlead hfull =>
    rcases h.run hlead hp hkeep fun pos hpos ↦ .inr (hfull pos (by
        rw [List.head?_append, hpos]; rfl)) with ⟨p', hok, hmoved, hend⟩ | herr
    · refine .inl ⟨p', hok, hmoved, ?_⟩
      rcases hend with ⟨rfl, rfl⟩ | hend
      · exact .inr (.inr (hfull target rfl))
      · exact .inr (.inl hend)
    · exact .inr herr

/-! ## Targets -/

/-- The packet at a position can be sought: it is a keyframe that materialises, or it does not move
the chain, and a keyframe before it materialises. -/
def Reachable (z : Zstd) (rom : Option Bytes) (file : OpenedFile) (list : ListId) (target : Nat) :
    Prop :=
  (∃ s, file.StateAt z rom list target s) ∨
    (∃ packet, file.packetAt z list target = some packet ∧ OpenedFile.moves list packet = false) ∧
    ∃ q s, file.StateAt z rom list q s ∧ q < target ∧ NothingBetween z file list q target

/-- The last full keyframe up to a target that can be sought: all that is between can be passed. -/
theorem Reachable.passable (hapart : file.DeltasApart z) {restart : Nat}
    (h : Reachable z rom file list target)
    (hnot : list = .topLevel → ∃ packet, file.packets[target]? = some packet ∧
      isKeyframeClass packet = true ∧ ∀ k, packet ≠ .storedKeyframe k)
    (hlast : ∀ o, restart < o → o ≤ target → file.IsKeyframePos z list o →
      ¬ FullAt z file list o) (hle : restart ≤ pos) (hlt : pos < target)
    (hpos : file.IsKeyframePos z list pos) : Passable z rom file list pos := by
  have hrests : ∀ q s, file.StateAt z rom list q s → q ≤ target → pos ≤ q →
      (list = .topLevel → ∀ k, file.packets[q]? ≠ some (.storedKeyframe k)) →
      ∃ s, file.StateAt z rom list pos s := by
    intro q s hs hq hpq hnotStored
    obtain ⟨r, hrest⟩ := hs.restsOn hapart hnotStored
    have hr : r ≤ restart := by
      by_contra hnle
      exact hlast r (not_le.mp hnle) (hrest.le.trans hq) hrest.isKeyframe hrest.full
    exact hrest.states pos (hr.trans hle) hpq hpos
  rcases h with ⟨s, hs⟩ | ⟨⟨packet, hpacket, hmoves⟩, q, s, hs, hq, hnone⟩
  · refine .inl (hrests target s hs le_rfl hlt.le fun hlist k hk ↦ ?_)
    obtain ⟨packet, hpacket, -, hstored⟩ := hnot hlist
    exact hstored k (Option.some.inj (hpacket.symm.trans hk))
  · rcases Nat.lt_or_ge q pos with hqp | hpq
    · obtain ⟨packet', hpacket', hmoves'⟩ := hnone pos hqp hlt hpos
      exact .inr ⟨packet', hpacket', hmoves', .inr hpos⟩
    · refine .inl (hrests q s hs hq.le hpq fun hlist ↦ ?_)
      obtain ⟨packet', hpacket', hclass, -⟩ := hnot hlist
      subst hlist
      cases hpacket.symm.trans hpacket'
      have := hclass.symm.trans hmoves
      cases this

/-! ## The top-level list -/

theorem fullAt_topLevel_iff : FullAt z file .topLevel pos ↔
    ∃ packet, file.packets[pos]? = some packet ∧ isFullKeyframe packet = true := by
  constructor
  · rintro ⟨metadata, state, h⟩
    exact ⟨_, h, rfl⟩
  · rintro ⟨packet, h, hfull⟩
    cases packet with
    | keyframe metadata state => exact ⟨metadata, state, h⟩
    | _ => cases hfull

/-- Where a walk of the top-level list starts. -/
def topLevelStart (target restart : Nat) (c : ChainState) : Nat :=
  match c.lastApplied with
  | some last =>
    if c.list = some .topLevel ∧ last ≤ target then max (last + 1) restart else restart
  | none => restart

/-- The packets from a position of the top-level list up to another lead to it. -/
theorem leadsTo_range' (z : Zstd) (file : OpenedFile) (start n : Nat) :
    LeadsTo z file .topLevel (start + n) (List.range' start n) := by
  induction n generalizing start with
  | zero => trivial
  | succ n ih =>
    have hnext := ih (start + 1)
    rw [show start + 1 + n = start + (n + 1) by omega] at hnext
    rw [List.range'_succ]
    cases n with
    | zero => exact ⟨by omega, by omega⟩
    | succ n =>
      rw [List.range'_succ] at hnext ⊢
      exact ⟨⟨by omega, by omega⟩, hnext⟩

theorem approach_topLevel {restart : Nat} (hle : restart ≤ target)
    (hanew : StartsAnew z file .topLevel restart) : restart ≤ topLevelStart target restart c ∧
      Approach z file .topLevel target c
        (List.range' (topLevelStart target restart c) (target - topLevelStart target restart c)) := by
  have hrestart : Approach z file .topLevel target c (List.range' restart (target - restart)) := by
    refine .restart ?_ fun pos hpos ↦ ?_
    · have := leadsTo_range' z file restart (target - restart)
      rwa [Nat.add_sub_cancel' hle] at this
    · have hpos : pos = restart := by
        cases hn : target - restart with
        | zero =>
          rw [hn] at hpos
          have : target = pos := by simpa using hpos
          omega
        | succ n =>
          rw [hn, List.range'_succ] at hpos
          simpa [eq_comm] using hpos
      exact hpos ▸ hanew
  rw [topLevelStart]
  cases hlast : c.lastApplied with
  | none => exact ⟨le_rfl, hrestart⟩
  | some last =>
    dsimp only
    by_cases hon : c.list = some .topLevel ∧ last ≤ target
    · rw [if_pos hon]
      refine ⟨le_max_right _ _, ?_⟩
      obtain ⟨hlist, hlt⟩ := hon
      rcases Nat.lt_or_ge last target with hlt | hge
      · rcases Nat.lt_or_ge (last + 1) restart with hbefore | hafter
        · rw [max_eq_right hbefore.le]
          exact hrestart
        · rw [max_eq_left hafter]
          refine .after hlist hlast ?_
          have := leadsTo_range' z file last (target - last)
          rw [Nat.add_sub_cancel' hlt.le,
            show target - last = (target - (last + 1)) + 1 by omega, List.range'_succ] at this
          exact this
      · obtain rfl : last = target := by omega
        rw [show last - max (last + 1) restart = 0 by omega]
        exact .there (ChainState.isAt_iff.mpr ⟨hlist, hlast⟩)
    · rw [if_neg hon]
      exact ⟨le_rfl, hrestart⟩

section TopLevel

variable (hregular : file.Regular z rom) (hindexed : file.StoredIndexed) {x : Externals}
  (hz : x.zstd = z)
include hregular hindexed hz

theorem fastForwardStoredChain_spec (hp : p.InStep z rom file) {target : Nat}
    {keyframe : StoredKeyframe} (hat : file.packets[target]? = some (.storedKeyframe keyframe)) :
    (∃ p', fastForwardStoredChain x target p = .ok () p' ∧ Moved z rom file p p') ∨
    (∃ e p', fastForwardStoredChain x target p = .error e p' ∧ Moved z rom file p p') ∧
      ¬ ∃ s, file.StateAt z rom .topLevel target s := by
  subst hz
  simp only [fastForwardStoredChain, Act.get_bind_apply, hp.file_eq]
  cases hindex : file.storedIndexOf target with
  | error e =>
    refine .inr ⟨⟨e, p, rfl, .refl hp⟩, ?_⟩
    rintro ⟨s, hs⟩
    obtain ⟨k, _, hk, -⟩ := (OpenedFile.StateAt.stored_iff hat).mp hs
    rw [hindex] at hk
    cases hk
  | ok k =>
    simp only [Act.ofExcept, Act.pure_bind_apply]
    obtain ⟨info, hinfo, -⟩ := OpenedFile.info_of_storedIndexOf hindex
    by_cases hheld : (p.chain.stored.holding k).isSome = true
    · exact .inl ⟨p, by simp only [hheld, if_true]; rfl, .refl hp⟩
    · simp only [hheld, Bool.false_eq_true, if_false, hinfo]
      cases href : info.reference with
      | none => exact .inl ⟨p, rfl, .refl hp⟩
      | some r =>
        dsimp only
        by_cases hlevel : 0 < info.level
        · rw [if_pos hlevel]
          obtain ⟨hk, -⟩ := List.getElem?_eq_some_iff.mp hinfo
          have hrk := (hindexed k info hinfo).2 r href
          have hinfo' : file.storedKeyframes[r]? = some file.storedKeyframes[r] :=
            List.getElem?_eq_getElem (hrk.trans hk)
          obtain ⟨⟨keyframe', hpacket', -⟩, -⟩ := hindexed r _ hinfo'
          rcases foldStored_spec hp.file_eq hp.rom_eq hp.chain.buffers hindexed hinfo' with
            ⟨p', s, b, hok, rfl, hs, -, -⟩ | ⟨e, s, herr, hs, hcurrent, hnot⟩
          · exact .inl ⟨_, hok, hp.atStored hs hpacket', rfl, fun i h ↦ h⟩
          · refine .inr ⟨⟨e, _, herr, hp.withStored hregular hs hcurrent, rfl, fun i h ↦ h⟩, ?_⟩
            rintro ⟨s', hs'⟩
            obtain ⟨k', payload, hk', hstate⟩ := (OpenedFile.StateAt.stored_iff hat).mp hs'
            rw [hindex] at hk'
            cases hk'
            obtain ⟨r', basePayload, base, href', hbase⟩ :=
              hstate.reference hindexed hinfo (by
                intro h0
                rw [h0] at hlevel
                exact absurd hlevel (by decide))
            rw [href] at href'
            cases href'
            exact hnot ⟨basePayload, base, hbase⟩
        · exact .inl ⟨p, by rw [if_neg hlevel]; rfl, .refl hp⟩

theorem walk_topLevel {positions : List Nat}
    (hpositions : ∀ pos ∈ positions, pos < file.packets.length) :
    Walk z rom file .topLevel (fun _ ↦ True) (foldTopLevel x) positions := by
  refine ⟨fun _ _ ↦ trivial, fun pos hpos p hp _ ↦ ?_⟩
  obtain ⟨packet, hat⟩ : ∃ packet, file.packets[pos]? = some packet :=
    ⟨_, List.getElem?_eq_getElem (hpositions pos hpos)⟩
  rcases foldTopLevel_spec hregular hindexed hz hp hat with ⟨p', hok, hfolded⟩ | ⟨herr, hnot⟩
  · exact .inl ⟨_, p', hat, hok, hfolded⟩
  · refine .inr ⟨herr, fun packet hpacket ↦ ?_⟩
    cases hat.symm.trans hpacket
    exact hnot

omit hregular hindexed hz in
theorem fastForwardChain_topLevel (hfile : p.file = file) {target : Nat} {packet : Packet}
    (hat : file.packets[target]? = some packet) (hstored : ∀ k, packet ≠ .storedKeyframe k) :
    fastForwardChain x .topLevel target p =
      (match rposition isFullKeyframe (file.packets.take (target + 1)) with
        | none => brokenPacket "delta keyframe with no full keyframe before it"
        | some restart => (List.range' (topLevelStart target restart p.chain)
            (target - topLevelStart target restart p.chain)).forM (foldTopLevel x) :
        PlayerAction Unit) p := by
  rw [fastForwardChain, Act.get_bind_apply, hfile]
  simp only [hat]
  rfl

/-- Bringing the chain to a keyframe of the top-level list. -/
theorem fastForwardTopLevel_spec (hp : p.InStep z rom file) {target : Nat} {packet : Packet}
    (hat : file.packets[target]? = some packet) (hclass : isKeyframeClass packet = true) :
    (∃ p', fastForwardChain x .topLevel target p = .ok () p' ∧ Moved z rom file p p' ∧
      ((∃ k, packet = .storedKeyframe k) ∨ Arrived z file .topLevel target p'.chain)) ∨
    (∃ e p', fastForwardChain x .topLevel target p = .error e p' ∧ Moved z rom file p p') ∧
      ¬ Reachable z rom file .topLevel target := by
  have hnotReachable : (¬ ∃ s, file.StateAt z rom .topLevel target s) →
      ¬ Reachable z rom file .topLevel target := by
    rintro hno (hs | ⟨⟨packet', hpacket', hmoves⟩, -⟩)
    · exact hno hs
    · cases hat.symm.trans hpacket'
      have := hclass.symm.trans hmoves
      cases this
  by_cases hstored : ∃ k, packet = .storedKeyframe k
  · obtain ⟨keyframe, rfl⟩ := hstored
    have hunfold : fastForwardChain x .topLevel target p = fastForwardStoredChain x target p := by
      rw [fastForwardChain, Act.get_bind_apply, hp.file_eq]
      simp only [hat]
    rw [hunfold]
    rcases fastForwardStoredChain_spec hregular hindexed hz hp hat with
      ⟨p', hok, hmoved⟩ | ⟨herr, hnot⟩
    · exact .inl ⟨p', hok, hmoved, .inl ⟨keyframe, rfl⟩⟩
    · exact .inr ⟨herr, hnotReachable hnot⟩
  · obtain ⟨htarget, -⟩ := List.getElem?_eq_some_iff.mp hat
    rw [not_exists] at hstored
    have hkeyframe : .topLevel = ListId.topLevel → ∃ packet, file.packets[target]? = some packet ∧
        isKeyframeClass packet = true ∧ ∀ k, packet ≠ .storedKeyframe k :=
      fun _ ↦ ⟨packet, hat, hclass, hstored⟩
    rw [fastForwardChain_topLevel hp.file_eq hat hstored]
    cases hrestart : rposition isFullKeyframe (file.packets.take (target + 1)) with
    | none =>
      refine .inr ⟨⟨_, p, rfl, .refl hp⟩, hnotReachable ?_⟩
      rintro ⟨s, hs⟩
      obtain ⟨r, hrest⟩ := hs.restsOn hregular.apart fun _ k hk ↦
        hstored k (Option.some.inj (hat.symm.trans hk))
      obtain ⟨a, ha, hfull⟩ := fullAt_topLevel_iff.mp hrest.full
      have hmem : a ∈ file.packets.take (target + 1) := by
        refine List.mem_of_getElem? (i := r) ?_
        rw [List.getElem?_take, if_pos (Nat.lt_succ_of_le hrest.le)]
        exact ha
      rw [rposition_eq_none.mp hrestart a hmem] at hfull
      cases hfull
    | some restart =>
      obtain ⟨⟨a, ha, hfull⟩, hlast⟩ := rposition_spec hrestart
      rw [List.getElem?_take] at ha
      split at ha
      · rename_i hlt
        have hle : restart ≤ target := Nat.lt_succ_iff.mp hlt
        have hnoFull : ∀ o, restart < o → o ≤ target → file.IsKeyframePos z .topLevel o →
            ¬ FullAt z file .topLevel o := by
          rintro o hro hot - ho
          obtain ⟨b, hb, hbfull⟩ := fullAt_topLevel_iff.mp ho
          rw [hlast o b hro (by rw [List.getElem?_take, if_pos (Nat.lt_succ_of_le hot)]; exact hb)]
            at hbfull
          cases hbfull
        obtain ⟨hstart, happroach⟩ := approach_topLevel (c := p.chain) hle
          (fullAt_topLevel_iff.mpr ⟨a, ha, hfull⟩).startsAnew
        dsimp only
        have hbelow : ∀ pos ∈ List.range' (topLevelStart target restart p.chain)
            (target - topLevelStart target restart p.chain), restart ≤ pos ∧ pos < target := by
          intro pos hpos
          have := List.mem_range'_1.mp hpos
          omega
        rcases (walk_topLevel hregular hindexed hz fun pos hpos ↦
          (hbelow pos hpos).2.trans htarget).arrives happroach hp trivial with
          ⟨p', hok, hmoved, harrived⟩ | ⟨herr, pos, hpos, hnot⟩
        · exact .inl ⟨p', hok, hmoved, .inr harrived⟩
        · refine .inr ⟨herr, fun hreach ↦ hnot ?_⟩
          obtain ⟨hge, hlt⟩ := hbelow pos hpos
          have hposAt : file.packets[pos]? = some file.packets[pos] :=
            List.getElem?_eq_getElem (hlt.trans htarget)
          by_cases hposClass : isKeyframeClass file.packets[pos] = true
          · exact hreach.passable hregular.apart hkeyframe hnoFull hge hlt ⟨_, hposAt, hposClass⟩
          · rw [Bool.not_eq_true] at hposClass
            exact .inr ⟨_, hposAt, OpenedFile.moves_of_not_class hposClass, .inl hposClass⟩
      · cases ha

end TopLevel

/-! ## Blobs -/

/-- The last full keyframe among some keyframe offsets of a blob, given from the last one back. -/
def restartIn (v : BlobView) : List (Nat × Nat) → Option (Option Nat)
  | [] => some none
  | (offset, i) :: offsets =>
    v.isFullKeyframeAt offset >>= fun full ↦ if full then some (some i) else restartIn v offsets

theorem computes_restartInBlob {i : Nat} (hv : file.blobView z i = some v)
    (hopen : (p.decodedBlobs i).isSome = true) (offsets : List (Nat × Nat)) :
    Act.Computes (Decoding z rom file p) (restartInBlob i offsets) (restartIn v offsets) := by
  induction offsets with
  | nil => exact .pure none
  | cons o offsets ih =>
    obtain ⟨offset, j⟩ := o
    refine (computes_onBlob hv hopen
      (DecodedBlob.computes_isFullKeyframeAt file.version offset v)).bind fun full _ ↦ ?_
    cases full with
    | true => exact .pure (some j)
    | false => exact ih

/-- Sorted positions that hold all keyframes of a list lead up to the last of them. -/
theorem leadsTo_of_sorted {positions after : List Nat}
    (hsorted : (positions ++ target :: after).Pairwise (· < ·))
    (hall : ∀ r, file.IsKeyframePos z list r → r ∉ positions ++ target :: after →
      ∀ o ∈ positions ++ target :: after, r < o) : LeadsTo z file list target positions := by
  induction positions with
  | nil => trivial
  | cons pos rest ih =>
    rw [List.cons_append] at hsorted
    obtain ⟨hpos, hrest⟩ := List.pairwise_cons.mp hsorted
    have htail := ih hrest fun r hr hnot o ho ↦ by
      by_cases hrp : r = pos
      · exact hrp ▸ hpos o ho
      · exact hall r hr (by simp only [List.cons_append, List.mem_cons, not_or]; exact ⟨hrp, hnot⟩)
          o (List.mem_cons_of_mem _ ho)
    have hgap : ∀ next, (rest ++ [target]).head? = some next →
        pos < next ∧ ∀ r, pos < r → r < next → ¬ file.IsKeyframePos z list r := by
      intro next hnext
      have hhead : ∃ l, rest ++ target :: after = next :: l := by
        cases rest with
        | nil =>
          cases hnext
          exact ⟨_, rfl⟩
        | cons a l =>
          cases hnext
          exact ⟨_, rfl⟩
      obtain ⟨l, hl⟩ := hhead
      rw [hl] at hpos hrest
      refine ⟨hpos next List.mem_cons_self, fun r hpr hrn hr ↦ ?_⟩
      have hmem : r ∈ pos :: rest ++ target :: after := by
        by_contra hnot
        have := hall r hr hnot pos List.mem_cons_self
        omega
      rw [List.cons_append, hl] at hmem
      rcases List.mem_cons.mp hmem with rfl | hmem
      · omega
      · rcases List.mem_cons.mp hmem with rfl | hmem
        · omega
        · have := (List.pairwise_cons.mp hrest).1 r hmem
          omega
    cases rest with
    | nil => exact hgap target rfl
    | cons next rest => exact ⟨hgap next rfl, htail⟩

/-- The walk back finds the last full keyframe by the bytes at the offsets. -/
theorem restartIn_eq {offsets : List Nat} (hlen : ∀ o ∈ offsets, o < v.content.length) :
    restartIn v offsets.zipIdx.reverse = some (rposition
      (fun o ↦ decide (v.content[o]? = some PacketDiscriminator.keyframe.toByte)) offsets) := by
  induction offsets using List.reverseRecOn with
  | nil => rfl
  | append_singleton offsets o ih =>
    have ho := hlen o (by simp)
    rw [rposition_append_singleton, List.zipIdx_append, List.reverse_append]
    have hlast : restartIn v ((([o].zipIdx (0 + offsets.length)).reverse) ++
        offsets.zipIdx.reverse) =
        (v.isFullKeyframeAt o >>= fun full ↦
          if full then some (some (0 + offsets.length)) else restartIn v offsets.zipIdx.reverse) :=
      rfl
    rw [hlast, BlobView.isFullKeyframeAt, if_neg (by omega), Option.bind_eq_bind, Option.bind_some,
      Nat.zero_add, ih fun q hq ↦ hlen q (by simp [hq])]
    cases decide (v.content[o]? = some PacketDiscriminator.keyframe.toByte) <;> rfl

/-- Whether there is a full keyframe at an offset, by the byte there. -/
theorem isFullKeyframe_of_packetAt {i offset : Nat} {packet : Packet}
    (hv : file.blobView z i = some v) (hp : file.packetAt z (.blob i) offset = some packet) :
    offset < v.content.length ∧ (isFullKeyframe packet = true ↔
      v.content[offset]? = some PacketDiscriminator.keyframe.toByte) := by
  simp only [OpenedFile.packetAt, hv, Option.bind_some, BlobView.parseAt] at hp
  split at hp
  · cases hp
  · rename_i hlen
    rw [not_or, not_le, not_le] at hlen
    refine ⟨hlen.2, ?_⟩
    cases hread : Packet.readAll file.version (v.content.drop offset) with
    | error e => rw [hread] at hp; cases hp
    | ok r =>
      rw [hread] at hp
      cases hp
      have hdrop : v.content.drop offset = v.content[offset] :: v.content.drop (offset + 1) :=
        List.drop_eq_getElem_cons hlen.2
      rw [hdrop] at hread
      rw [Packet.isFullKeyframe_iff hread, List.getElem?_eq_getElem hlen.2, Option.some.injEq]

/-- Where a walk of the keyframe offsets of a blob starts, as an index into those up to the
target. -/
def blobStart (top target restart : Nat) (upTo : List Nat) (c : ChainState) : Nat :=
  match c.lastApplied with
  | some last =>
    if c.list = some (.blob top) ∧ last ≤ target then
      max (upTo.takeWhile fun o ↦ o ≤ last).length restart
    else restart
  | none => restart

theorem approach_blob {top restart : Nat} {before after : List Nat} (hc : c.InStep z rom file)
    (hsorted : (before ++ target :: after).Pairwise (· < ·))
    (hpos : ∀ o, file.IsKeyframePos z (.blob top) o ↔ o ∈ before ++ target :: after)
    (hle : restart ≤ before.length)
    (hanew : ∀ o, (before ++ [target])[restart]? = some o → StartsAnew z file (.blob top) o) :
    restart ≤ blobStart top target restart (before ++ [target]) c ∧
      Approach z file (.blob top) target c
        (before.drop (blobStart top target restart (before ++ [target]) c)) := by
  have hlead : LeadsTo z file (.blob top) target before :=
    leadsTo_of_sorted hsorted fun r hr hnot ↦ (hnot ((hpos r).mp hr)).elim
  have hupTo : (before ++ [target]).Pairwise (· < ·) :=
    hsorted.sublist ((List.Sublist.refl before).append
      (List.cons_sublist_cons.mpr (List.nil_sublist after)))
  have hrestart : Approach z file (.blob top) target c (before.drop restart) := by
    refine .restart (hlead.drop restart) fun o ho ↦ hanew o ?_
    rwa [← List.drop_append_of_le_length hle, List.head?_drop] at ho
  rw [blobStart]
  cases hlast : c.lastApplied with
  | none => exact ⟨le_rfl, hrestart⟩
  | some last =>
    dsimp only
    by_cases hon : c.list = some (.blob top) ∧ last ≤ target
    · rw [if_pos hon]
      refine ⟨le_max_right _ _, ?_⟩
      obtain ⟨hlist, hlt⟩ := hon
      have hmem := (hpos last).mp (hc.isKeyframePos hlist hlast)
      rcases Nat.lt_or_ge last target with hlt | hge
      · have hbefore : last ∈ before := by
          rcases List.mem_append.mp hmem with h | h
          · exact h
          · obtain ⟨-, hright, -⟩ := List.pairwise_append.mp hsorted
            rcases List.mem_cons.mp h with rfl | h
            · omega
            · have := (List.pairwise_cons.mp hright).1 last h
              omega
        obtain ⟨front, rest, rfl⟩ := List.append_of_mem hbefore
        rw [List.append_assoc, List.cons_append] at hupTo
        have htake := takeWhile_le_of_sorted hupTo
        rw [List.append_assoc, List.cons_append, htake, List.length_append, List.length_singleton]
        rcases Nat.lt_or_ge (front.length + 1) restart with hbefore | hafter
        · rw [max_eq_right hbefore.le]
          exact hrestart
        · rw [max_eq_left hafter]
          have hdrop := hlead.drop front.length
          rw [List.drop_left] at hdrop
          have hrest : (front ++ last :: rest).drop (front.length + 1) = rest := by
            rw [← List.drop_drop, List.drop_left]
            rfl
          rw [hrest]
          exact .after hlist hlast hdrop
      · obtain rfl : last = target := by omega
        have htake := takeWhile_le_of_sorted hupTo
        rw [htake, List.length_append, List.length_singleton,
          List.drop_eq_nil_of_le ((Nat.le_succ _).trans (le_max_left _ _))]
        exact .there (ChainState.isAt_iff.mpr ⟨hlist, hlast⟩)
    · rw [if_neg hon]
      exact ⟨le_rfl, hrestart⟩

theorem walk_blob (hregular : file.Regular z rom) {top : Nat} {t : List Nat}
    (hv : file.blobView z top = some v) (ht : v.offsets file.version = some t)
    {positions : List Nat} (hpositions : ∀ pos ∈ positions, pos ∈ t) :
    Walk z rom file (.blob top) (fun p ↦ (p.decodedBlobs top).isSome = true)
      (fun offset ↦ do
        let _ ← foldInBlob top offset
        pure ()) positions := by
  refine ⟨fun hmoved hopen ↦ hmoved.isOpen top hopen, fun pos hpos p hp hopen ↦ ?_⟩
  have hfold := foldInBlob_spec hregular hp hopen hv fun t' packet next ht' _ _ ↦ by
    rw [ht] at ht'
    cases ht'
    exact hpositions pos hpos
  have hat : file.packetAt z (.blob top) pos = (v.parseAt file.version pos).map Prod.fst := by
    simp only [OpenedFile.packetAt, hv, Option.bind_some]
  rw [hat]
  cases hparse : v.parseAt file.version pos with
  | none =>
    rw [hparse] at hfold
    obtain ⟨e, p', herr, hp'⟩ := hfold
    refine .inr ⟨⟨e, p', by rw [Act.bind_apply, herr], hp'.toMoved⟩, fun packet h ↦ ?_⟩
    cases h
  | some r =>
    obtain ⟨packet, next⟩ := r
    rw [hparse] at hfold
    rcases hfold with ⟨p', hok, hfolded⟩ | ⟨⟨e, p', herr, hp'⟩, hnot⟩
    · exact .inl ⟨packet, p', rfl, by rw [Act.bind_apply, hok]; rfl, hfolded⟩
    · refine .inr ⟨⟨e, p', by rw [Act.bind_apply, herr], hp'.toMoved⟩, fun packet' h ↦ ?_⟩
      cases h
      exact hnot

/-- Bringing the chain to a keyframe of a blob. -/
theorem fastForwardBlob_spec (hregular : file.Regular z rom) (x : Externals)
    (hp : p.InStep z rom file) {top : Nat} {t : List Nat} (hv : file.blobView z top = some v)
    (ht : v.offsets file.version = some t) (hopen : (p.decodedBlobs top).isSome = true)
    (hmem : target ∈ t) :
    (∃ p', fastForwardChain x (.blob top) target p = .ok () p' ∧ Moved z rom file p p' ∧
      Arrived z file (.blob top) target p'.chain) ∨
    (∃ e p', fastForwardChain x (.blob top) target p = .error e p' ∧ Moved z rom file p p') ∧
      ¬ Reachable z rom file (.blob top) target := by
  have hsorted := OpenedFile.offsets_sorted hv ht
  have hpos : ∀ o, file.IsKeyframePos z (.blob top) o ↔ o ∈ t := by
    intro o
    constructor
    · rintro ⟨v', t', hv', ht', ho⟩
      rw [hv] at hv'
      cases hv'
      rw [ht] at ht'
      cases ht'
      exact ho
    · exact fun ho ↦ ⟨v, t, hv, ht, ho⟩
  obtain ⟨before, after, rfl⟩ := List.append_of_mem hmem
  obtain ⟨-, hright, hcross⟩ := List.pairwise_append.mp hsorted
  have hupTo : (before ++ target :: after).takeWhile (fun o ↦ o ≤ target) = before ++ [target] :=
    takeWhile_le_of_sorted hsorted
  have hupToSorted : (before ++ [target]).Pairwise (· < ·) :=
    hsorted.sublist ((List.Sublist.refl before).append
      (List.cons_sublist_cons.mpr (List.nil_sublist after)))
  have hupToLe : ∀ o ∈ before ++ [target], o ≤ target := by
    intro o ho
    rcases List.mem_append.mp ho with h | h
    · exact (hcross o h target List.mem_cons_self).le
    · exact (List.mem_singleton.mp h).le
  -- the table, and the walk back for a full keyframe
  have hoffsets := computes_onBlob hv hopen (DecodedBlob.computes_offsets file.version v) p
    (.refl hp)
  rw [ht] at hoffsets
  obtain ⟨p₁, hok₁, hp₁⟩ := hoffsets
  have hback := computes_restartInBlob hv hopen ((before ++ [target]).zipIdx.reverse) p₁ hp₁
  obtain ⟨fold, hunfold, hfold⟩ : ∃ fold : Option Nat → PlayerAction Unit,
      fastForwardChain x (.blob top) target p =
        (restartInBlob top ((before ++ [target]).zipIdx.reverse) >>= fold) p₁ ∧
      ∀ restart, fold (some restart) =
        (before.drop (blobStart top target restart (before ++ [target]) p.chain)).forM
          fun offset ↦ (do
            let _ ← foldInBlob top offset
            pure ()) := by
    rw [fastForwardChain, Act.get_bind_apply]
    dsimp only
    rw [hp.version_eq, Act.bind_apply, hok₁]
    dsimp only
    rw [hupTo, List.getLast?_concat, if_neg (not_not.mpr rfl), List.dropLast_concat]
    exact ⟨_, rfl, fun _ ↦ rfl⟩
  rw [hunfold, Act.bind_apply]
  by_cases hshort : v.content.length ≤ target
  · have hnone : restartIn v ((before ++ [target]).zipIdx.reverse) = none := by
      have hlt := OpenedFile.offsets_lt_size hv ht target hmem
      rw [List.zipIdx_append, List.reverse_append]
      have hfull : v.isFullKeyframeAt target = none := by
        rw [BlobView.isFullKeyframeAt, if_pos (by omega)]
      have hfirst : restartIn v (([target].zipIdx (0 + before.length)).reverse ++
          before.zipIdx.reverse) = (v.isFullKeyframeAt target >>= fun full ↦
            if full then some (some (0 + before.length))
            else restartIn v before.zipIdx.reverse) := rfl
      rw [hfirst, hfull]
      rfl
    rw [hnone] at hback
    obtain ⟨e, p₂, herr₂, hp₂⟩ := hback
    refine .inr ⟨⟨e, p₂, by rw [herr₂], hp₂.toMoved⟩, fun hreach ↦ ?_⟩
    have hsome : ∃ packet, file.packetAt z (.blob top) target = some packet := by
      rcases hreach with ⟨s, hs⟩ | ⟨⟨packet, hpacket, -⟩, -⟩
      · obtain ⟨packet, hpacket, -⟩ := hs.moves
        exact ⟨packet, hpacket⟩
      · exact ⟨packet, hpacket⟩
    obtain ⟨packet, hpacket⟩ := hsome
    have := (isFullKeyframe_of_packetAt hv hpacket).1
    omega
  · have hlong : ∀ o ∈ before ++ [target], o < v.content.length := by
      intro o ho
      have := hupToLe o ho
      omega
    rw [restartIn_eq hlong] at hback
    obtain ⟨p₂, hok₂, hp₂⟩ := hback
    rw [hok₂]
    cases hrestart : rposition (fun o ↦
        decide (v.content[o]? = some PacketDiscriminator.keyframe.toByte)) (before ++ [target]) with
    | none =>
      obtain ⟨-, hhead, hfirst⟩ := OpenedFile.usedTable_of_offsets ht
      have hzero : 0 ∈ before ++ [target] := by
        cases before with
        | nil =>
          cases hhead
          simp
        | cons o before =>
          cases hhead
          simp
      have := rposition_eq_none.mp hrestart 0 hzero
      rw [decide_eq_false_iff_not, ← List.head?_eq_getElem?] at this
      exact (this hfirst).elim
    | some restart =>
      obtain ⟨⟨first, hfirst, hfull⟩, hafter⟩ := rposition_spec hrestart
      have hle : restart ≤ before.length := by
        obtain ⟨hlt, -⟩ := List.getElem?_eq_some_iff.mp hfirst
        rw [List.length_append, List.length_singleton] at hlt
        omega
      have hanew : ∀ o, (before ++ [target])[restart]? = some o →
          StartsAnew z file (.blob top) o := by
        intro o ho packet hpacket
        rw [hfirst] at ho
        cases ho
        exact (isFullKeyframe_of_packetAt hv hpacket).2.mpr (of_decide_eq_true hfull)
      have hnoFull : ∀ o, first < o → o ≤ target → file.IsKeyframePos z (.blob top) o →
          ¬ FullAt z file (.blob top) o := by
        rintro o hlt hot ho ⟨metadata, state, hpacket⟩
        have hoUpTo : o ∈ before ++ [target] := by
          rcases List.mem_append.mp ((hpos o).mp ho) with h | h
          · exact List.mem_append_left _ h
          · rcases List.mem_cons.mp h with rfl | h
            · simp
            · have := (List.pairwise_cons.mp hright).1 o h
              omega
        obtain ⟨j, hj⟩ := List.mem_iff_getElem?.mp hoUpTo
        have := hafter j o (lt_of_getElem?_lt hupToSorted hfirst hj hlt) hj
        rw [decide_eq_false_iff_not] at this
        exact this ((isFullKeyframe_of_packetAt hv hpacket).2.mp rfl)
      obtain ⟨hstart, happroach⟩ := approach_blob hp.chain hsorted hpos hle hanew
      rw [← hp₂.chain_eq] at happroach hstart
      dsimp only
      rw [hfold, ← hp₂.chain_eq]
      rcases (walk_blob hregular hv ht fun o ho ↦
          List.mem_append_left _ (List.mem_of_mem_drop ho)).arrives happroach hp₂.inStep
          (hp₂.isOpen top hopen) with ⟨p', hok, hmoved, harrived⟩ | ⟨⟨e, p', herr, hmoved⟩, o, ho, hnot⟩
      · exact .inl ⟨p', hok, hp₂.toMoved.trans hmoved, harrived⟩
      · refine .inr ⟨⟨e, p', herr, hp₂.toMoved.trans hmoved⟩, fun hreach ↦ hnot ?_⟩
        have hoBefore := List.mem_of_mem_drop ho
        have hge : first ≤ o := by
          obtain ⟨j, hj⟩ := List.mem_iff_getElem?.mp ho
          rw [List.getElem?_drop] at hj
          obtain ⟨hlt, -⟩ := List.getElem?_eq_some_iff.mp hj
          rw [← List.getElem?_append_left hlt] at hj
          by_contra hnle
          have := lt_of_getElem?_lt hupToSorted hj hfirst (not_le.mp hnle)
          omega
        exact hreach.passable hregular.apart (fun h ↦ by cases h) hnoFull hge
          (hcross o hoBefore target List.mem_cons_self)
          ((hpos o).mpr (List.mem_append_left _ hoBefore))

end ReplayFilePlayer

end SuperShuckie
