import SuperShuckie.Player.Open

/-!
# Stored keyframes

The keyframes of a Nintendo 3DS file form trees: a delta is made against the keyframe the index names
as its reference.  What a stored keyframe materialises to depends on the file and the ROM alone
(`StoredState`).  The player keeps one buffer for each level; whatever keyframe a buffer says it
holds, it holds (`StoredBuffers.InStep`), and `foldStored` gets any keyframe that materialises.
-/

set_option autoImplicit false

namespace SuperShuckie

open ByteFormat StoredBuffers

namespace OpenedFile

/-! ## What a stored keyframe materialises to -/

section

variable (z : Zstd) (rom : Option Bytes) (file : OpenedFile)

/-- Entry `k` of the index of stored keyframes, its packet, and the frame of the packet. -/
structure StoredEntry (k : Nat) (info : StoredKeyframeInfo) (keyframe : StoredKeyframe)
    (frame : Bytes) : Prop where
  atIndex : file.storedKeyframes[k]? = some info
  atPacket : file.packets[info.packet]? = some (.storedKeyframe keyframe)
  hasFrame : file.storedFrame keyframe = .ok frame

/-- Stored keyframe `k` materialises to a state.  In format 8, deltas are made against the payload
of their reference, not its state. -/
inductive StoredState : Nat → Bytes → Bytes → Prop
  | full {k : Nat} {info : StoredKeyframeInfo} {keyframe : StoredKeyframe} {frame state : Bytes} :
      file.StoredEntry k info keyframe frame → levelOf keyframe.level = some 0 →
      z.decompressDataWithPrefix frame keyframe.uncompressedLen.toNat [] = .ok state →
      state.length = keyframe.stateLen.toNat → StoredState k [] state
  | delta {k r : Nat} {info : StoredKeyframeInfo} {keyframe : StoredKeyframe} {level : Level}
      {frame basePayload base payload control data state : Bytes} :
      file.StoredEntry k info keyframe frame → levelOf keyframe.level = some level → level ≠ 0 →
      info.reference = some r → StoredState r basePayload base →
      keyframe.stateLen.toNat ≤ ChainState.plausibleLen base.length →
      file.decodeDelta z rom frame keyframe.uncompressedLen.toNat base basePayload =
        .ok (payload, control, data) →
      applyRegionDiffInPlace (resizeZero base keyframe.stateLen.toNat) control data = some state →
      StoredState k (if file.isV9 then [] else payload) state

/-- The references of the index point backwards, and it knows the levels of its keyframes. -/
def StoredIndexed : Prop :=
  ∀ k (info : StoredKeyframeInfo), file.storedKeyframes[k]? = some info →
    (∃ keyframe : StoredKeyframe, file.packets[info.packet]? = some (.storedKeyframe keyframe) ∧
      info.level = keyframe.level) ∧
    ∀ r, info.reference = some r → r < k

/-- Every stored keyframe of the file materialises if its reference does. -/
def StoredApply : Prop :=
  ∀ k (info : StoredKeyframeInfo) r, file.storedKeyframes[k]? = some info → info.reference = some r →
    (∃ payload state, file.StoredState z rom r payload state) →
    ∃ payload state, file.StoredState z rom k payload state

end

variable {z : Zstd} {rom : Option Bytes} {file : OpenedFile}

variable {info : StoredKeyframeInfo} {keyframe : StoredKeyframe} {k : Nat} {state payload : Bytes}

theorem StoredEntry.unique {info' : StoredKeyframeInfo} {keyframe' : StoredKeyframe}
    {frame frame' : Bytes} (h : file.StoredEntry k info keyframe frame)
    (h' : file.StoredEntry k info' keyframe' frame') :
    info = info' ∧ keyframe = keyframe' ∧ frame = frame' := by
  obtain ⟨hinfo, hpacket, hframe⟩ := h
  obtain ⟨hinfo', hpacket', hframe'⟩ := h'
  rw [hinfo] at hinfo'
  cases hinfo'
  rw [hpacket] at hpacket'
  cases hpacket'
  rw [hframe] at hframe'
  cases hframe'
  exact ⟨rfl, rfl, rfl⟩

/-- A stored keyframe materialises to one state only. -/
theorem StoredState.unique {payload' state' : Bytes} (h : file.StoredState z rom k payload state)
    (h' : file.StoredState z rom k payload' state') : payload = payload' ∧ state = state' := by
  induction h generalizing payload' state' with
  | full hentry hlevel hdecode hlen =>
    cases h' with
    | full hentry' hlevel' hdecode' hlen' =>
      obtain ⟨rfl, rfl, rfl⟩ := hentry.unique hentry'
      rw [hdecode] at hdecode'
      cases hdecode'
      exact ⟨rfl, rfl⟩
    | delta hentry' hlevel' hne =>
      obtain ⟨rfl, rfl, rfl⟩ := hentry.unique hentry'
      rw [hlevel] at hlevel'
      cases hlevel'
      exact (hne rfl).elim
  | delta hentry hlevel hne href hbase hlen hdecode happly ih =>
    cases h' with
    | full hentry' hlevel' =>
      obtain ⟨rfl, rfl, rfl⟩ := hentry.unique hentry'
      rw [hlevel] at hlevel'
      cases hlevel'
      exact (hne rfl).elim
    | delta hentry' hlevel' hne' href' hbase' hlen' hdecode' happly' =>
      obtain ⟨rfl, rfl, rfl⟩ := hentry.unique hentry'
      rw [href] at href'
      cases href'
      obtain ⟨rfl, rfl⟩ := ih hbase'
      rw [hdecode] at hdecode'
      cases hdecode'
      rw [happly] at happly'
      cases happly'
      exact ⟨rfl, rfl⟩

/-- The index of a stored keyframe finds it. -/
theorem info_of_storedIndexOf {packet : Nat} (h : file.storedIndexOf packet = .ok k) :
    ∃ info : StoredKeyframeInfo, file.storedKeyframes[k]? = some info ∧ info.packet = packet := by
  rw [storedIndexOf] at h
  split at h
  · rename_i j hj
    cases h
    obtain ⟨hlt, hfound, -⟩ := List.findIdx?_eq_some_iff_getElem.mp hj
    exact ⟨_, List.getElem?_eq_getElem hlt, of_decide_eq_true hfound⟩
  · cases h

/-- What materialises is in the index. -/
theorem StoredState.entry (h : file.StoredState z rom k payload state) :
    ∃ info keyframe frame, file.StoredEntry k info keyframe frame := by
  cases h with
  | full hentry => exact ⟨_, _, _, hentry⟩
  | delta hentry => exact ⟨_, _, _, hentry⟩

/-- A delta materialises only if it has a reference that does. -/
theorem StoredState.reference (hindexed : file.StoredIndexed)
    (hinfo : file.storedKeyframes[k]? = some info) (hlevel : info.level ≠ 0)
    (h : file.StoredState z rom k payload state) :
    ∃ r basePayload base, info.reference = some r ∧ file.StoredState z rom r basePayload base := by
  cases h with
  | full hentry hfull =>
    obtain ⟨hinfo', hpacket', -⟩ := hentry
    rw [hinfo] at hinfo'
    cases hinfo'
    obtain ⟨⟨keyframe, hpacket, hlevelEq⟩, -⟩ := hindexed k _ hinfo
    rw [hpacket] at hpacket'
    cases hpacket'
    rw [levelOf, ← hlevelEq, if_neg hlevel] at hfull
    split_ifs at hfull <;> simp at hfull
  | delta hentry _ _ href hbase =>
    obtain ⟨hinfo', -, -⟩ := hentry
    rw [hinfo] at hinfo'
    cases hinfo'
    exact ⟨_, _, _, href, hbase⟩

/-- What a full keyframe materialises to. -/
theorem StoredState.full_iff {frame : Bytes} (hentry : file.StoredEntry k info keyframe frame)
    (hlevel : levelOf keyframe.level = some 0) :
    file.StoredState z rom k payload state ↔ payload = [] ∧
      z.decompressDataWithPrefix frame keyframe.uncompressedLen.toNat [] = .ok state ∧
      state.length = keyframe.stateLen.toNat := by
  constructor
  · intro h
    cases h with
    | full hentry' _ hdecode hlen =>
      obtain ⟨rfl, rfl, rfl⟩ := hentry.unique hentry'
      exact ⟨rfl, hdecode, hlen⟩
    | delta hentry' hlevel' hne =>
      obtain ⟨rfl, rfl, rfl⟩ := hentry.unique hentry'
      rw [hlevel] at hlevel'
      cases hlevel'
      exact (hne rfl).elim
  · rintro ⟨rfl, hdecode, hlen⟩
    exact .full hentry hlevel hdecode hlen

/-- What a delta materialises to, on top of its reference. -/
theorem StoredState.delta_iff {r : Nat} {level : Level} {frame basePayload base payload' : Bytes}
    (hentry : file.StoredEntry k info keyframe frame) (hlevel : levelOf keyframe.level = some level)
    (hne : level ≠ 0) (href : info.reference = some r)
    (hbase : file.StoredState z rom r basePayload base) : file.StoredState z rom k payload' state ↔
      keyframe.stateLen.toNat ≤ ChainState.plausibleLen base.length ∧
      ∃ payload control data, file.decodeDelta z rom frame keyframe.uncompressedLen.toNat base
          basePayload = .ok (payload, control, data) ∧
        applyRegionDiffInPlace (resizeZero base keyframe.stateLen.toNat) control data =
          some state ∧ payload' = if file.isV9 then [] else payload := by
  constructor
  · intro h
    cases h with
    | full hentry' hlevel' =>
      obtain ⟨rfl, rfl, rfl⟩ := hentry.unique hentry'
      rw [hlevel] at hlevel'
      cases hlevel'
      exact (hne rfl).elim
    | delta hentry' _ _ href' hbase' hlen hdecode happly =>
      obtain ⟨rfl, rfl, rfl⟩ := hentry.unique hentry'
      rw [href] at href'
      cases href'
      obtain ⟨rfl, rfl⟩ := hbase.unique hbase'
      exact ⟨hlen, _, _, _, hdecode, happly, rfl⟩
  · rintro ⟨hlen, payload, control, data, hdecode, happly, rfl⟩
    exact .delta hentry hlevel hne href hbase hlen hdecode happly

end OpenedFile

/-! ## The buffers -/

namespace StoredBuffers

/-- Every buffer holds what it says it holds. -/
def InStep (z : Zstd) (rom : Option Bytes) (file : OpenedFile) (s : StoredBuffers) : Prop :=
  ∀ b k, s.holds b = some k → file.StoredState z rom k (s.payloads b) (s.states b)

variable {z : Zstd} {rom : Option Bytes} {file : OpenedFile} {s : StoredBuffers}

theorem holding_isSome {k : Nat} {b : Level} (h : s.holds b = some k) :
    (s.holding k).isSome = true := by
  rw [holding, List.find?_isSome]
  have hall : ∀ m : Level, m ∈ [0, 1, 2] := by decide
  exact ⟨b, hall b, by simp [h]⟩

theorem holds_of_holding {k : Nat} {b : Level} (h : s.holding k = some b) : s.holds b = some k := by
  simpa using List.find?_some h

theorem InStep.holding (h : s.InStep z rom file) {k : Nat} {b : Level} (hb : s.holding k = some b) :
    file.StoredState z rom k (s.payloads b) (s.states b) := h b k (holds_of_holding hb)

/-- Other buffers stay in step when one is written. -/
theorem InStep.replace (h : s.InStep z rom file) {s' : StoredBuffers} (b : Level)
    (hother : ∀ m, m ≠ b → s'.holds m = s.holds m ∧ s'.states m = s.states m ∧
      s'.payloads m = s.payloads m)
    (hb : ∀ k, s'.holds b = some k → file.StoredState z rom k (s'.payloads b) (s'.states b)) :
    s'.InStep z rom file := by
  intro m k hm
  by_cases hmb : m = b
  · subst hmb
    exact hb k hm
  · obtain ⟨hholds, hstates, hpayloads⟩ := hother m hmb
    rw [hholds] at hm
    rw [hstates, hpayloads]
    exact h m k hm

/-- The current buffer after buffer `b` is forgotten. -/
theorem dropBuffer_current (s : StoredBuffers) (b : Level) :
    (s.dropBuffer b).current = s.current ∨ (s.dropBuffer b).current = none := by
  rw [dropBuffer]
  dsimp only
  split
  · exact .inr rfl
  · exact .inl rfl

end StoredBuffers

/-! ## Materialising -/

namespace ReplayFilePlayer

/-- The player with other buffers. -/
def withStored (p : ReplayFilePlayer) (s : StoredBuffers) : ReplayFilePlayer :=
  p.setStored fun _ ↦ s

@[simp] theorem setStored_stored (p : ReplayFilePlayer) (f : StoredBuffers → StoredBuffers) :
    (p.setStored f).chain.stored = f p.chain.stored := rfl

@[simp] theorem setStored_file (p : ReplayFilePlayer) (f : StoredBuffers → StoredBuffers) :
    (p.setStored f).file = p.file := rfl

section

variable {x : Externals} {rom : Option Bytes} {file : OpenedFile} {p : ReplayFilePlayer}
  (hfile : p.file = file) (hrom : p.rom = rom) (hp : p.chain.stored.InStep x.zstd rom file)
include hp

variable {info : StoredKeyframeInfo}

theorem materialiseFull_spec {k : Nat} {keyframe : StoredKeyframe} {frame : Bytes}
    (hentry : file.StoredEntry k info keyframe frame) (hlevel : levelOf keyframe.level = some 0) :
    (∃ s, materialiseFull x k keyframe frame p = .ok () (p.withStored s) ∧
      s.InStep x.zstd rom file ∧ s.holds 0 = some k ∧ s.current = some 0) ∨
    (∃ e s, materialiseFull x k keyframe frame p = .error e (p.withStored s) ∧
      s.InStep x.zstd rom file ∧ (s.current = p.chain.stored.current ∨ s.current = none) ∧
      ¬ ∃ payload state, file.StoredState x.zstd rom k payload state) := by
  have hempty : ((p.chain.stored.dropBuffer 0).setState 0 []).InStep x.zstd rom file :=
    hp.replace 0 (fun m hm ↦ by simp [dropBuffer, setState, hm])
      fun j hj ↦ by simp [dropBuffer, setState] at hj
  rw [materialiseFull, Act.modify_bind_apply]
  cases hdecode : x.zstd.decompressDataWithPrefix frame keyframe.uncompressedLen.toNat [] with
  | error e =>
    refine .inr ⟨_, _, rfl, hempty, dropBuffer_current _ 0, ?_⟩
    rintro ⟨payload, state, hk⟩
    have := ((OpenedFile.StoredState.full_iff hentry hlevel).mp hk).2.1
    rw [hdecode] at this
    cases this
  | ok state =>
    dsimp only
    rw [Act.modify_bind_apply]
    by_cases hlen : state.length = keyframe.stateLen.toNat
    · rw [if_neg (not_not.mpr hlen)]
      refine .inl ⟨_, rfl, hp.replace 0 (fun m hm ↦ ?_) (fun j hj ↦ ?_), rfl, rfl⟩
      · simp [dropBuffer, setState, hold, hm]
      · have hkj : k = j := by simpa [hold] using hj
        subst hkj
        exact .full hentry hlevel hdecode hlen
    · rw [if_pos hlen]
      refine .inr ⟨_, _, rfl, hp.replace 0 (fun m hm ↦ ?_) (fun j hj ↦ ?_),
        dropBuffer_current _ 0, ?_⟩
      · simp [dropBuffer, setState, hm]
      · simp [dropBuffer, setState] at hj
      · rintro ⟨payload, state', hk⟩
        obtain ⟨-, hdecode', hlen'⟩ := (OpenedFile.StoredState.full_iff hentry hlevel).mp hk
        rw [hdecode] at hdecode'
        cases hdecode'
        exact hlen hlen'

include hfile hrom

theorem materialiseDelta_spec {k r : Nat} {keyframe : StoredKeyframe} {level : Level}
    {frame : Bytes} (hentry : file.StoredEntry k info keyframe frame)
    (hlevel : levelOf keyframe.level = some level) (hne : level ≠ 0)
    (href : info.reference = some r) (hheld : (p.chain.stored.holding r).isSome = true) :
    (∃ s b, materialiseDelta x k info keyframe level frame p = .ok () (p.withStored s) ∧
      s.InStep x.zstd rom file ∧ s.holds b = some k ∧ s.current = some b) ∨
    (∃ e s, materialiseDelta x k info keyframe level frame p = .error e (p.withStored s) ∧
      s.InStep x.zstd rom file ∧ (s.current = p.chain.stored.current ∨ s.current = none) ∧
      ¬ ∃ payload state, file.StoredState x.zstd rom k payload state) := by
  obtain ⟨source, hsource⟩ := Option.isSome_iff_exists.mp hheld
  have hiff : ∀ payload state, file.StoredState x.zstd rom k payload state ↔ _ :=
    fun payload state ↦ OpenedFile.StoredState.delta_iff hentry hlevel hne href (hp.holding hsource)
  rw [materialiseDelta, Act.get_bind_apply, href]
  dsimp only
  rw [hsource]
  dsimp only
  by_cases hlen : keyframe.stateLen.toNat ≤
      ChainState.plausibleLen (p.chain.stored.states source).length
  · rw [if_neg (not_lt.mpr hlen), hfile, hrom]
    cases hdecode : file.decodeDelta x.zstd rom frame keyframe.uncompressedLen.toNat
        (p.chain.stored.states source) (p.chain.stored.payloads source) with
    | error e =>
      refine .inr ⟨e, p.chain.stored, rfl, hp, .inl rfl, ?_⟩
      rintro ⟨payload, state, hk⟩
      obtain ⟨-, _, _, _, hdecode', -⟩ := (hiff payload state).mp hk
      rw [hdecode] at hdecode'
      cases hdecode'
    | ok r =>
      obtain ⟨payload, control, data⟩ := r
      simp only [Act.ofExcept, Act.pure_bind_apply, Act.modify_bind_apply]
      cases happly : applyRegionDiffInPlace (resizeZero (p.chain.stored.states source)
          keyframe.stateLen.toNat) control data with
      | none =>
        refine .inr ⟨_, _, rfl, hp.replace level (fun m hm ↦ ?_) (fun j hj ↦ ?_),
          dropBuffer_current _ level, ?_⟩
        · simp [dropBuffer, setState, hm]
        · simp [dropBuffer, setState] at hj
        · rintro ⟨payload', state, hk⟩
          obtain ⟨-, _, _, _, hdecode', happly', -⟩ := (hiff payload' state).mp hk
          rw [hdecode] at hdecode'
          cases hdecode'
          rw [happly] at happly'
          cases happly'
      | some state =>
        have hk := (hiff _ state).mpr ⟨hlen, payload, control, data, hdecode, happly, rfl⟩
        refine .inl ⟨_, level, rfl, hp.replace level (fun m hm ↦ ?_) (fun j hj ↦ ?_), ?_, rfl⟩
        · cases hv9 : file.isV9 <;>
            simp [dropBuffer, setState, hold, hm, hfile, hv9]
        · have hkj : k = j := by simpa [hold] using hj
          subst hkj
          cases hv9 : file.isV9 <;> rw [hv9] at hk <;>
            simpa [dropBuffer, setState, hold, hfile, hv9] using hk
        · simp [hold]
  · rw [if_pos (not_le.mp hlen)]
    refine .inr ⟨_, p.chain.stored, rfl, hp, .inl rfl, ?_⟩
    rintro ⟨payload, state, hk⟩
    exact hlen ((hiff payload state).mp hk).1

/-- Materialising a keyframe whose reference is held. -/
theorem materialiseStored_spec (hindexed : file.StoredIndexed) {k : Nat}
    (hinfo : file.storedKeyframes[k]? = some info) (hheld : info.level ≠ 0 →
      ∀ r, info.reference = some r → (p.chain.stored.holding r).isSome = true) :
    (∃ s b, materialiseStored x k p = .ok () (p.withStored s) ∧
      s.InStep x.zstd rom file ∧ s.holds b = some k ∧ s.current = some b) ∨
    (∃ e s, materialiseStored x k p = .error e (p.withStored s) ∧
      s.InStep x.zstd rom file ∧ (s.current = p.chain.stored.current ∨ s.current = none) ∧
      ¬ ∃ payload state, file.StoredState x.zstd rom k payload state) := by
  obtain ⟨⟨keyframe, hpacket, hlevelEq⟩, -⟩ := hindexed k info hinfo
  have hentryOf : ∀ {info' keyframe' frame'}, file.StoredEntry k info' keyframe' frame' →
      info' = info ∧ keyframe' = keyframe ∧ file.storedFrame keyframe = .ok frame' := by
    rintro info' keyframe' frame' ⟨hinfo', hpacket', hframe'⟩
    rw [hinfo] at hinfo'
    cases hinfo'
    rw [hpacket] at hpacket'
    cases hpacket'
    exact ⟨rfl, rfl, hframe'⟩
  simp only [materialiseStored, Act.get_bind_apply, hfile, hinfo, hpacket]
  cases hlevel : levelOf keyframe.level with
  | none =>
    refine .inr ⟨_, p.chain.stored, rfl, hp, .inl rfl, ?_⟩
    rintro ⟨payload, state, hk⟩
    cases hk with
    | full hentry hlevel' =>
      obtain ⟨rfl, rfl, -⟩ := hentryOf hentry
      rw [hlevel] at hlevel'
      cases hlevel'
    | delta hentry hlevel' =>
      obtain ⟨rfl, rfl, -⟩ := hentryOf hentry
      rw [hlevel] at hlevel'
      cases hlevel'
  | some level =>
    cases hframe : file.storedFrame keyframe with
    | error e =>
      refine .inr ⟨e, p.chain.stored, rfl, hp, .inl rfl, ?_⟩
      rintro ⟨payload, state, hk⟩
      obtain ⟨info', keyframe', frame', hentry⟩ := hk.entry
      obtain ⟨-, -, hframe'⟩ := hentryOf hentry
      rw [hframe] at hframe'
      cases hframe'
    | ok frame =>
      have hentry : file.StoredEntry k info keyframe frame := ⟨hinfo, hpacket, hframe⟩
      simp only [Act.ofExcept, Act.pure_bind_apply]
      by_cases hzero : level = 0
      · subst hzero
        rw [if_pos rfl]
        rcases materialiseFull_spec hp hentry hlevel with ⟨s, hok⟩ | herr
        · exact .inl ⟨s, 0, hok⟩
        · exact .inr herr
      · rw [if_neg hzero]
        have hnotZero : info.level ≠ 0 := by
          rw [hlevelEq]
          intro h0
          rw [h0] at hlevel
          cases hlevel
          exact hzero rfl
        cases href : info.reference with
        | some r =>
          exact materialiseDelta_spec hfile hrom hp hentry hlevel hzero href
            (hheld hnotZero r href)
        | none =>
          have hrun : ∃ e, materialiseDelta x k info keyframe level frame p = .error e p :=
            ⟨_, by rw [materialiseDelta, Act.get_bind_apply, href]; rfl⟩
          obtain ⟨e, herr⟩ := hrun
          refine .inr ⟨e, p.chain.stored, herr, hp, .inl rfl, ?_⟩
          · rintro ⟨payload, state, hk⟩
            cases hk with
            | full hentry' hlevel' =>
              obtain ⟨rfl, rfl, -⟩ := hentryOf hentry'
              rw [hlevel] at hlevel'
              cases hlevel'
              exact hzero rfl
            | delta hentry' _ _ href' =>
              obtain ⟨rfl, -, -⟩ := hentryOf hentry'
              rw [href] at href'
              cases href'

/-- **The references of a keyframe are materialised in order**, from the last one that a buffer
holds, or the full one.  It fails when the keyframe does not materialise. -/
theorem referenceWalk_spec (hindexed : file.StoredIndexed) {fuel k : Nat} (hfuel : k < fuel)
    (hk : k < file.storedKeyframes.length) :
    match p.referenceWalk fuel k with
    | .error _ => ¬ ∃ payload state, file.StoredState x.zstd rom k payload state
    | .ok none => False
    | .ok (some walk) =>
      (∃ s, walk.reverse.forM (materialiseStored x) p = .ok () (p.withStored s) ∧
        s.InStep x.zstd rom file ∧ (s.holding k).isSome = true) ∨
      (∃ e s, walk.reverse.forM (materialiseStored x) p = .error e (p.withStored s) ∧
        s.InStep x.zstd rom file ∧
        (s.current = p.chain.stored.current ∨ s.current = none ∨ ¬ file.StoredApply x.zstd rom) ∧
        ¬ ∃ payload state, file.StoredState x.zstd rom k payload state) := by
  induction fuel generalizing k with
  | zero => omega
  | succ fuel ih =>
    rw [referenceWalk]
    by_cases hheld : (p.chain.stored.holding k).isSome = true
    · rw [if_pos hheld]
      exact .inl ⟨p.chain.stored, rfl, hp, hheld⟩
    · have hinfo : file.storedKeyframes[k]? = some file.storedKeyframes[k] :=
        List.getElem?_eq_getElem hk
      rw [if_neg hheld, hfile, hinfo]
      dsimp only
      have hone := fun (q : ReplayFilePlayer) hq hqrom
        (hqs : q.chain.stored.InStep x.zstd rom file) ↦ materialiseStored_spec (x := x) hq hqrom hqs hindexed hinfo
      by_cases hlevel : file.storedKeyframes[k].level = 0
      · rw [if_pos hlevel]
        dsimp only
        rw [List.reverse_singleton]
        rcases hone p hfile hrom hp fun h ↦ (h hlevel).elim with
          ⟨s, b, hok, hs, hb, -⟩ | ⟨e, s, herr, hs, hcurrent, hnot⟩
        · refine .inl ⟨s, ?_, hs, holding_isSome hb⟩
          rw [Act.forM_cons_of_ok hok]
          rfl
        · refine .inr ⟨e, s, Act.forM_cons_of_error herr, hs, ?_, hnot⟩
          rcases hcurrent with h | h
          · exact .inl h
          · exact .inr (.inl h)
      · rw [if_neg hlevel]
        cases href : file.storedKeyframes[k].reference with
        | none =>
          rintro ⟨payload, state, hstate⟩
          obtain ⟨r, _, _, href', -⟩ := hstate.reference hindexed hinfo hlevel
          rw [href] at href'
          cases href'
        | some r =>
          have hrk : r < k := (hindexed k _ hinfo).2 r href
          have hwalk := ih (k := r) (by omega) (by omega)
          dsimp only
          have hneeds : (¬ ∃ payload state, file.StoredState x.zstd rom r payload state) →
              ¬ ∃ payload state, file.StoredState x.zstd rom k payload state := by
            rintro hnot ⟨payload, state, hstate⟩
            obtain ⟨r', basePayload, base, href', hbase⟩ := hstate.reference hindexed hinfo hlevel
            rw [href] at href'
            cases href'
            exact hnot ⟨_, _, hbase⟩
          cases hres : p.referenceWalk fuel r with
          | error e =>
            rw [hres] at hwalk
            exact hneeds hwalk
          | ok walk? =>
            rw [hres] at hwalk
            cases walk? with
            | none => exact hwalk.elim
            | some walk =>
              dsimp only [Except.map, Option.map_some] at hwalk ⊢
              rw [List.reverse_cons]
              rcases hwalk with ⟨s, hok, hs, hr⟩ | ⟨e, s, herr, hs, hcurrent, hnot⟩
              · rw [Act.forM_append_of_ok hok]
                rcases hone (p.withStored s) hfile hrom hs (fun _ r' hr' ↦ by
                    rw [href] at hr'
                    cases hr'
                    exact hr) with
                  ⟨s', b, hok', hs', hb, -⟩ | ⟨e, s', herr', hs', -, hnot⟩
                · refine .inl ⟨s', ?_, hs', holding_isSome hb⟩
                  rw [Act.forM_cons_of_ok hok']
                  rfl
                · refine .inr ⟨e, s', Act.forM_cons_of_error herr', hs', .inr (.inr ?_), hnot⟩
                  obtain ⟨source, hsource⟩ := Option.isSome_iff_exists.mp hr
                  exact fun happly ↦ hnot (happly k _ r hinfo href ⟨_, _, hs.holding hsource⟩)
              · exact .inr ⟨e, s, Act.forM_append_of_error herr, hs, hcurrent, hneeds hnot⟩

/-- **Folding a stored keyframe** gets its state if it has one, and fails otherwise. -/
theorem foldStored_spec (hindexed : file.StoredIndexed) {k : Nat}
    (hinfo : file.storedKeyframes[k]? = some info) : (∃ p' s b, foldStored x k p = .ok () p' ∧
      p' = { p with chain := { p.chain with
        stored := s, list := some .topLevel, lastApplied := some info.packet } } ∧
      s.InStep x.zstd rom file ∧ s.current = some b ∧ s.holds b = some k) ∨
    (∃ e s, foldStored x k p = .error e (p.withStored s) ∧ s.InStep x.zstd rom file ∧
      (s.current = p.chain.stored.current ∨ s.current = none ∨ ¬ file.StoredApply x.zstd rom) ∧
      ¬ ∃ payload state, file.StoredState x.zstd rom k payload state) := by
  obtain ⟨hk, -⟩ := List.getElem?_eq_some_iff.mp hinfo
  have hwalk := referenceWalk_spec hfile hrom hp hindexed (Nat.lt_succ_self k) hk
  rw [foldStored, Act.get_bind_apply]
  cases hres : p.referenceWalk (k + 1) k with
  | error e =>
    rw [hres] at hwalk
    exact .inr ⟨e, p.chain.stored, rfl, hp, .inl rfl, hwalk⟩
  | ok walk? =>
    rw [hres] at hwalk
    cases walk? with
    | none => exact hwalk.elim
    | some walk =>
      simp only [Act.ofExcept, Act.pure_bind_apply]
      rcases hwalk with ⟨s, hok, hs, hheld⟩ | ⟨e, s, herr, hs, hcurrent, hnot⟩
      · left
        obtain ⟨b, hb⟩ := Option.isSome_iff_exists.mp hheld
        refine ⟨_, { s with current := some b }, b, ?_, rfl, hs, rfl, holds_of_holding hb⟩
        rw [Act.bind_apply, hok]
        have hb' : (p.withStored s).chain.stored.holding k = some b := hb
        have hinfo' : (p.withStored s).file.storedKeyframes[k]? = some info := by
          rw [← hinfo, ← hfile]
          rfl
        simp only [Act.get_bind_apply, hb', hinfo']
        rfl
      · exact .inr ⟨e, s, by rw [Act.bind_apply, herr], hs, hcurrent, hnot⟩

end

end ReplayFilePlayer

end SuperShuckie
