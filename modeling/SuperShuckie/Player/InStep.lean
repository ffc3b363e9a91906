import SuperShuckie.Player.StateAt

/-!
# The chain stays in step

The invariant of the chain: whenever it claims to be at a keyframe, it holds the state of that
keyframe (`InStep`).  Folding a keyframe keeps it, failures included; a delta whose predecessor the
chain holds takes it to the delta.  For a stored keyframe, it is the buffers that have to be right.

One kind of failure does not leave the state alone: a delta that changes its length and is found to
be malformed afterwards.  `ResizesApply` says that a file has no such delta.
-/

set_option autoImplicit false

namespace SuperShuckie

open ByteFormat

/-! ## The chain -/

namespace ChainState

/-- The chain is at the keyframe at `pos`, with the state `s`. -/
structure At (c : ChainState) (list : ListId) (pos : Nat) (s : Bytes) : Prop where
  list : c.list = some list
  lastApplied : c.lastApplied = some pos
  current : c.current = s

/-- Whenever the chain is at a keyframe, it holds its state, or its buffers do. -/
structure InStep (z : Zstd) (rom : Option Bytes) (file : OpenedFile) (c : ChainState) : Prop where
  resizing : c.resizing = file.resizing
  buffers : c.stored.InStep z rom file
  state : ∀ list pos, c.list = some list → c.lastApplied = some pos →
    (list = .topLevel ∧ ∃ k, file.packets[pos]? = some (.storedKeyframe k)) ∨
    (c.stored.current = none ∧ file.StateAt z rom list pos c.state)

theorem isAt_iff {c : ChainState} {list : ListId} {pos : Nat} :
    c.isAt list pos = true ↔ c.list = some list ∧ c.lastApplied = some pos := by
  simp [isAt]

theorem holdsPredecessorOf_iff {c : ChainState} {list : ListId} {pos : Nat}
    {between : Nat → Nat → Bool} : c.holdsPredecessorOf list pos between = true ↔
      c.list = some list ∧ ∃ q, c.lastApplied = some q ∧ q < pos ∧ between q pos = false := by
  simp only [holdsPredecessorOf, Bool.and_eq_true, decide_eq_true_eq, Option.any_eq_true,
    Bool.not_eq_true']

/-- Without a length change, nothing happens to the state; a change of length is made or refused. -/
theorem fitState_spec (stateLen : UnsignedInteger) (c : ChainState) :
    if stateLen.toNat = c.state.length then fitState stateLen c = .ok () c
    else if c.resizing = false ∨ plausibleLen c.state.length < stateLen.toNat then
      ∃ e, fitState stateLen c = .error e c
    else fitState stateLen c = .ok () { c with state := resizeZero c.state stateLen.toNat } := by
  rw [fitState, Act.get_bind_apply]
  by_cases heq : stateLen.toNat = c.state.length
  · simp only [heq, if_true, ne_eq, not_true_eq_false, if_false]
    rfl
  · by_cases hbad : c.resizing = false ∨ plausibleLen c.state.length < stateLen.toNat
    · simp only [heq, hbad, ne_eq, not_false_eq_true, if_true, if_false]
      exact ⟨_, rfl⟩
    · simp only [heq, hbad, ne_eq, not_false_eq_true, if_true, if_false]
      rfl

/-- A delta that changes the length of the state and then turns out to be malformed. -/
def SpoilsState (resizing : Bool) (base : Bytes) : Packet → Prop
  | .regionDeltaKeyframe _ stateLen control data =>
    stateLen.toNat ≠ base.length ∧ resizing = true ∧
      stateLen.toNat ≤ plausibleLen base.length ∧
      applyRegionDiffInPlace (resizeZero base stateLen.toNat) control data = none
  | _ => False

/-- Folding a delta applies it; a delta that does not apply leaves the chain as it is, unless it
spoils the state. -/
theorem fold_delta {c : ChainState} (list : ListId) (pos : Nat) {packet : Packet}
    (hdelta : isDelta packet = true) (hspoil : ¬ SpoilsState c.resizing c.state packet) :
    match OpenedFile.applyDelta c.resizing c.state packet with
    | some s => fold list pos packet true c = .ok () { c with state := s, lastApplied := some pos }
    | none => ∃ e, fold list pos packet true c = .error e c := by
  cases packet with
  | deltaKeyframe metadata diff =>
    simp only [OpenedFile.applyDelta, fold, if_true, Act.get_bind_apply]
    cases applyDiffInPlace c.state diff with
    | none => exact ⟨_, rfl⟩
    | some s => rfl
  | regionDeltaKeyframe metadata stateLen control data =>
    have hfit := fitState_spec stateLen c
    simp only [OpenedFile.applyDelta, fold, if_true]
    split at hfit
    · rename_i heq
      rw [if_pos heq, Act.bind_apply, hfit]
      simp only [Act.get_bind_apply]
      cases applyRegionDiffInPlace c.state control data with
      | none => exact ⟨_, rfl⟩
      | some s => rfl
    · rename_i hne
      split at hfit
      · rename_i hbad
        obtain ⟨e, he⟩ := hfit
        rw [if_neg hne, if_pos hbad]
        exact ⟨e, by rw [Act.bind_apply, he]⟩
      · rename_i hgood
        rw [if_neg hne, if_neg hgood, Act.bind_apply, hfit]
        simp only [Act.get_bind_apply]
        cases happly : applyRegionDiffInPlace (resizeZero c.state stateLen.toNat) control data with
        | none =>
          rw [not_or, Bool.not_eq_false, not_lt] at hgood
          exact (hspoil ⟨hne, hgood.1, hgood.2, happly⟩).elim
        | some s => rfl
  | _ => cases hdelta

variable {z : Zstd} {rom : Option Bytes} {file : OpenedFile} {c : ChainState} {list : ListId}
  {pos : Nat}

theorem InStep.isKeyframePos (h : c.InStep z rom file) (hlist : c.list = some list)
    (hpos : c.lastApplied = some pos) : file.IsKeyframePos z list pos := by
  rcases h.state list pos hlist hpos with ⟨rfl, k, hk⟩ | ⟨-, hs⟩
  · exact ⟨_, hk, rfl⟩
  · exact hs.isKeyframePos

/-- What the chain has when it is at a keyframe that is not a stored one. -/
theorem InStep.at_of_isAt (h : c.InStep z rom file) (hat : c.isAt list pos = true)
    (hnot : list = .topLevel → ∀ k, file.packets[pos]? ≠ some (.storedKeyframe k)) :
    ∃ s, c.At list pos s ∧ file.StateAt z rom list pos s := by
  obtain ⟨hlist, hpos⟩ := isAt_iff.mp hat
  rcases h.state list pos hlist hpos with ⟨heq, k, hk⟩ | ⟨hcurrent, hs⟩
  · exact (hnot heq k hk).elim
  · exact ⟨c.state, ⟨hlist, hpos, by simp only [current, hcurrent]⟩, hs⟩

theorem InStep.setFull (h : c.InStep z rom file) {s : Bytes} (hs : file.StateAt z rom list pos s) :
    (c.setFull list pos s).InStep z rom file := by
  refine ⟨h.resizing, h.buffers, fun l q hl hq ↦ .inr ⟨rfl, ?_⟩⟩
  cases hl
  cases hq
  exact hs

theorem InStep.advance (h : c.InStep z rom file) {s : Bytes} (hlist : c.list = some list)
    (hcurrent : c.stored.current = none) (hs : file.StateAt z rom list pos s) :
    { c with state := s, lastApplied := some pos : ChainState }.InStep z rom file := by
  refine ⟨h.resizing, h.buffers, fun l q hl hq ↦ .inr ⟨hcurrent, ?_⟩⟩
  rw [hlist] at hl
  cases hl
  cases hq
  exact hs

/-- The chain can fold the keyframe at `pos`: it is not a delta, or the chain is at the keyframe
before it. -/
def ReadyFor (z : Zstd) (file : OpenedFile) (list : ListId) (pos : Nat) (c : ChainState) : Prop :=
  (∀ packet, file.packetAt z list pos = some packet → isDelta packet = false) ∨
    (c.list = some list ∧ ∃ q, c.lastApplied = some q ∧ file.Precedes z list q pos)

end ChainState

/-- Every region delta of the file that changes the length of the state applies to it. -/
def OpenedFile.ResizesApply (z : Zstd) (rom : Option Bytes) (file : OpenedFile) : Prop :=
  ∀ list q pos base packet, file.IsKeyframePos z list pos →
    file.packetAt z list pos = some packet → file.Precedes z list q pos →
    file.StateAt z rom list q base → ¬ ChainState.SpoilsState file.resizing base packet

namespace ChainState

variable {z : Zstd} {rom : Option Bytes} {file : OpenedFile} {c : ChainState} {list : ListId}
  {pos : Nat}

/-- **Folding a keyframe keeps the chain in step**, and takes it to the keyframe when it succeeds.
It succeeds when the chain is ready for a keyframe that materialises. -/
theorem fold_spec (hc : c.InStep z rom file) (hresize : file.ResizesApply z rom)
    (hapart : file.DeltasApart z) {packet : Packet} (hpos : file.IsKeyframePos z list pos)
    (hp : file.packetAt z list pos = some packet) (hclass : isKeyframeClass packet = true)
    (hnotStored : ∀ k, packet ≠ .storedKeyframe k) {held : Bool} (hheld : held = true ↔
      c.list = some list ∧ ∃ q, c.lastApplied = some q ∧ file.Precedes z list q pos) :
    (∃ c' s, fold list pos packet held c = .ok () c' ∧ c'.InStep z rom file ∧ c'.At list pos s ∧
      file.StateAt z rom list pos s ∧ c.ReadyFor z file list pos) ∨
    (∃ e, fold list pos packet held c = .error e c) ∧
      ¬ ((∃ s, file.StateAt z rom list pos s) ∧ c.ReadyFor z file list pos) := by
  have hdeltaCase : isDelta packet = true →
      (∃ c' s, fold list pos packet held c = .ok () c' ∧ c'.InStep z rom file ∧ c'.At list pos s ∧
        file.StateAt z rom list pos s ∧ c.ReadyFor z file list pos) ∨
      (∃ e, fold list pos packet held c = .error e c) ∧
        ¬ ((∃ s, file.StateAt z rom list pos s) ∧ c.ReadyFor z file list pos) := by
    intro hdelta
    cases hh : held with
    | false =>
      refine .inr ⟨?_, ?_⟩
      · cases packet <;> first | exact ⟨_, rfl⟩ | cases hdelta
      · rintro ⟨-, hready | hready⟩
        · rw [hready packet hp] at hdelta
          cases hdelta
        · rw [hheld.mpr hready] at hh
          cases hh
    | true =>
      obtain ⟨hlist, q, hq, hprec⟩ := hheld.mp hh
      obtain ⟨hcurrent, hbase⟩ : c.stored.current = none ∧ file.StateAt z rom list q c.state := by
        rcases hc.state list q hlist hq with ⟨rfl, k, hk⟩ | h
        · have := hapart q pos k packet hprec hk hp
          rw [hdelta] at this
          cases this
        · exact h
      have hspoil : ¬ SpoilsState c.resizing c.state packet := by
        rw [hc.resizing]
        exact hresize list q pos c.state packet hpos hp hprec hbase
      have hfold := fold_delta list pos hdelta hspoil
      cases happly : OpenedFile.applyDelta c.resizing c.state packet with
      | some s =>
        rw [happly] at hfold
        have hs : file.StateAt z rom list pos s := .delta hpos hp hprec hbase (hc.resizing ▸ happly)
        refine .inl ⟨_, s, hfold, hc.advance hlist hcurrent hs, ⟨hlist, rfl, ?_⟩, hs,
          .inr (hheld.mp hh)⟩
        simp only [current, hcurrent]
      | none =>
        rw [happly] at hfold
        refine .inr ⟨hfold, ?_⟩
        rintro ⟨⟨s, hs⟩, -⟩
        cases hs with
        | full _ hp' =>
          rw [hp] at hp'
          cases hp'
          cases hdelta
        | stored hlist' hpacket =>
          subst hlist'
          exact hnotStored _ (Option.some.inj (hp.symm.trans hpacket))
        | delta _ hp' hprec' hbase' happly' =>
          rw [hp] at hp'
          cases hp'
          obtain rfl := hprec.unique hprec'
          rw [hbase.unique hbase', hc.resizing, happly'] at happly
          cases happly
  cases packet with
  | keyframe metadata state =>
    have hs : file.StateAt z rom list pos state := .full hpos hp
    refine .inl ⟨_, state, rfl, hc.setFull hs, ⟨rfl, rfl, rfl⟩, hs, .inl fun packet hp' ↦ ?_⟩
    cases hp.symm.trans hp'
    rfl
  | deltaKeyframe metadata diff => exact hdeltaCase rfl
  | regionDeltaKeyframe metadata stateLen control data => exact hdeltaCase rfl
  | storedKeyframe k => exact (hnotStored k rfl).elim
  | _ => cases hclass

end ChainState

end SuperShuckie
