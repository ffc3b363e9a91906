import SuperShuckie.Player.BlobView
import SuperShuckie.Player.Stored

/-!
# The state of a keyframe

What a keyframe materialises to depends on the file and the ROM alone: a full keyframe is its own
state, a delta is applied to the state of the keyframe right before it in its list, and a stored
keyframe has its own tree of references (`StateAt`).  The player's chain, the tables of offsets and
the partly decoded blobs are ways to get there.
-/

set_option autoImplicit false

namespace SuperShuckie

open ByteFormat ByteFormat.Reader

/-! ## Sorted offsets -/

variable {offsets : List UnsignedInteger}

theorem ascending_of_zip (h : (offsets.zip offsets.tail).all (fun o ↦ o.1 < o.2) = true) :
    (offsets.map UInt64.toNat).IsChain (· < ·) := by
  induction offsets with
  | nil => exact .nil
  | cons first rest ih =>
    cases rest with
    | nil => exact .singleton _
    | cons second rest =>
      simp only [List.tail_cons, List.zip_cons_cons, List.all_cons, Bool.and_eq_true,
        decide_eq_true_eq] at h
      exact .cons_cons (UInt64.lt_iff_toNat_lt.mp h.1) (ih h.2)

theorem validateOffsetTable_sorted {keyframes : Nat} {size : UnsignedInteger} {table : List Nat}
    (h : validateOffsetTable offsets keyframes size = some table) : table.Pairwise (· < ·) := by
  cases offsets with
  | nil => cases h
  | cons first rest =>
    simp only [validateOffsetTable] at h
    split at h
    · cases h
    · split at h
      · rename_i hcheck
        cases h
        rw [Bool.and_eq_true] at hcheck
        exact List.isChain_iff_pairwise.mp (ascending_of_zip hcheck.2)
      · cases h

theorem validateOffsetTable_lt {keyframes : Nat} {size : UnsignedInteger} {table : List Nat}
    (h : validateOffsetTable offsets keyframes size = some table) :
    ∀ o ∈ table, o < size.toNat := by
  cases offsets with
  | nil => cases h
  | cons first rest =>
    simp only [validateOffsetTable] at h
    split at h
    · cases h
    · split at h
      · rename_i hcheck
        cases h
        rw [Bool.and_eq_true, List.all_eq_true] at hcheck
        intro o ho
        obtain ⟨u, hu, rfl⟩ := List.mem_map.mp ho
        exact UInt64.lt_iff_toNat_lt.mp (of_decide_eq_true (hcheck.1 u hu))
      · cases h

/-- The packets of a stream lie one after the other. -/
theorem readStream_before_sorted (version : Nat) (bs : Bytes) :
    ((readStream version bs).1.map PlacedPacket.before).Pairwise (· > ·) ∧
      ∀ p ∈ (readStream version bs).1, 0 < p.before ∧ p.before ≤ bs.length := by
  induction hn : bs.length using Nat.strong_induction_on generalizing bs with
  | _ n ih =>
    subst hn
    cases hread : Packet.readAll version bs with
    | error e =>
      cases bs with
      | nil => exact ⟨.nil, by simp [readStream, readStreamGo]⟩
      | cons b bs => simp [readStream, readStreamGo, hread]
    | ok r =>
      obtain ⟨p, rest⟩ := r
      have hlt := Packet.readAll_length_lt hread
      obtain ⟨hsorted, hle⟩ := ih rest.length hlt rest rfl
      rw [readStream_of_readAll hread]
      refine ⟨?_, ?_⟩
      · rw [List.map_cons, List.pairwise_cons]
        refine ⟨fun b hb ↦ ?_, hsorted⟩
        obtain ⟨q, hq, rfl⟩ := List.mem_map.mp hb
        exact lt_of_le_of_lt (hle q hq).2 hlt
      · intro q hq
        rcases List.mem_cons.mp hq with rfl | hq
        · exact ⟨(Nat.zero_le _).trans_lt hlt, le_rfl⟩
        · exact ⟨(hle q hq).1, (hle q hq).2.trans hlt.le⟩

theorem scanOffsets_sorted {version size : Nat} {raw : Bytes} {table : List Nat}
    (hsize : raw.length = size) (h : DecodedBlob.scanOffsets version size raw = .ok table) :
    table.Pairwise (· < ·) ∧ ∀ o ∈ table, o < size := by
  obtain ⟨hsorted, hle⟩ := readStream_before_sorted version raw
  rw [DecodedBlob.scanOffsets] at h
  cases hread : readStream version raw with
  | mk packets error =>
    rw [hread] at h hsorted hle
    cases error with
    | some e => cases h
    | none =>
      cases h
      rw [List.pairwise_map] at hsorted ⊢
      refine ⟨(hsorted.filter _).imp_of_mem fun {a b} ha hb hab ↦ ?_, fun o ho ↦ ?_⟩
      · have ha' := hle a (List.mem_of_mem_filter ha)
        omega
      · obtain ⟨p, hp, rfl⟩ := List.mem_map.mp ho
        have hp' := hle p (List.mem_of_mem_filter hp)
        omega

/-- Whether a table offset lies strictly between two offsets. -/
theorem keyframeBetween_iff {offsets : List Nat} (h : offsets.Pairwise (· < ·)) (a b : Nat) :
    DecodedBlob.keyframeBetween offsets a b = true ↔ ∃ o ∈ offsets, a < o ∧ o < b := by
  induction offsets with
  | nil => simp [DecodedBlob.keyframeBetween]
  | cons o offsets ih =>
    obtain ⟨hhead, htail⟩ := List.pairwise_cons.mp h
    by_cases ho : o ≤ a
    · have hdrop : DecodedBlob.keyframeBetween (o :: offsets) a b =
          DecodedBlob.keyframeBetween offsets a b := by
        simp only [DecodedBlob.keyframeBetween, List.dropWhile_cons, ho, decide_true, if_true]
      rw [hdrop, ih htail]
      constructor
      · rintro ⟨q, hq, hlt⟩
        exact ⟨q, List.mem_cons_of_mem _ hq, hlt⟩
      · rintro ⟨q, hq, hlt⟩
        rcases List.mem_cons.mp hq with rfl | hq
        · omega
        · exact ⟨q, hq, hlt⟩
    · have hdrop : DecodedBlob.keyframeBetween (o :: offsets) a b = decide (o < b) := by
        simp only [DecodedBlob.keyframeBetween, List.dropWhile_cons, ho, decide_false,
          Bool.false_eq_true, if_false]
      rw [hdrop, decide_eq_true_eq]
      constructor
      · exact fun hlt ↦ ⟨o, List.mem_cons_self, by omega, hlt⟩
      · rintro ⟨q, hq, hlt⟩
        rcases List.mem_cons.mp hq with rfl | hq
        · exact hlt.2
        · have := hhead q hq
          omega

/-! ## Lists and positions -/

namespace OpenedFile

/-- The format version the packets are read as. -/
def version (file : OpenedFile) : Nat := file.headerRaw.replayVersion.toNat

variable (z : Zstd) (file : OpenedFile)

/-- What the blob at a top-level index shows. -/
def blobView (i : Nat) : Option BlobView :=
  match file.packets[i]? with
  | some (.compressedBlob b) =>
    match z.blobDecoder b.compressedData b.uncompressedSize.toNat with
    | .ok steps => some ⟨b.uncompressedSize.toNat, delivered steps, packetOffsetTable b⟩
    | .error _ => none
  | _ => none

/-- The packet at a position of a list. -/
def packetAt : ListId → Nat → Option Packet
  | .topLevel, i => file.packets[i]?
  | .blob b, o => (file.blobView z b).bind fun v ↦ (v.parseAt file.version o).map Prod.fst

/-- The positions of a list at which there are keyframes: by the packets of the top-level list, by
the offset table of a blob. -/
def IsKeyframePos : ListId → Nat → Prop
  | .topLevel, i => ∃ p, file.packets[i]? = some p ∧ isKeyframeClass p = true
  | .blob b, o => ∃ v t, file.blobView z b = some v ∧ v.offsets file.version = some t ∧ o ∈ t

/-- `q` is the keyframe position right before `pos`. -/
structure Precedes (list : ListId) (q pos : Nat) : Prop where
  lt : q < pos
  isKeyframe : file.IsKeyframePos z list q
  between : ∀ r, q < r → r < pos → ¬ file.IsKeyframePos z list r

variable {pos : Nat} {packet : Packet}

theorem Precedes.unique {z : Zstd} {file : OpenedFile} {list : ListId} {q q' : Nat}
    (h : file.Precedes z list q pos) (h' : file.Precedes z list q' pos) : q = q' := by
  rcases Nat.lt_trichotomy q q' with hlt | heq | hlt
  · exact (h.between q' hlt h'.lt h'.isKeyframe).elim
  · exact heq
  · exact (h'.between q hlt h.lt h.isKeyframe).elim

/-- The keyframe offsets of a blob are those of the table in use, which starts at the full keyframe
that the blob starts with. -/
theorem usedTable_of_offsets {v : BlobView} {version : Nat} {t : List Nat}
    (ht : v.offsets version = some t) : v.usedTable version = some t ∧ t.head? = some 0 ∧
      v.content.head? = some PacketDiscriminator.keyframe.toByte := by
  rw [BlobView.offsets] at ht
  cases hu : v.usedTable version with
  | none => rw [hu] at ht; cases ht
  | some t' =>
    rw [hu] at ht
    simp only at ht
    split at ht
    · rename_i hhead
      cases ht
      exact ⟨rfl, hhead⟩
    · cases ht

/-- A table in use is ascending and stays inside the blob. -/
theorem usedTable_spec {z : Zstd} {file : OpenedFile} {i : Nat} {v : BlobView} {t : List Nat}
    (hv : file.blobView z i = some v) (ht : v.usedTable file.version = some t) :
    t.Pairwise (· < ·) ∧ ∀ o ∈ t, o < v.size := by
  rw [BlobView.usedTable] at ht
  cases hvt : v.table with
  | some t' =>
    rw [hvt] at ht
    cases ht
    rw [blobView] at hv
    split at hv
    · split at hv
      · cases hv
        exact ⟨validateOffsetTable_sorted hvt, validateOffsetTable_lt hvt⟩
      · cases hv
    · cases hv
  | none =>
    rw [hvt] at ht
    simp only at ht
    split at ht
    · rename_i hlen
      cases hscan : DecodedBlob.scanOffsets file.version v.size v.content with
      | error e => rw [hscan] at ht; cases ht
      | ok t' =>
        rw [hscan] at ht
        cases ht
        exact scanOffsets_sorted hlen hscan
    · cases ht

theorem offsets_sorted {z : Zstd} {file : OpenedFile} {i : Nat} {v : BlobView} {t : List Nat}
    (hv : file.blobView z i = some v) (ht : v.offsets file.version = some t) :
    t.Pairwise (· < ·) := (usedTable_spec hv (usedTable_of_offsets ht).1).1

theorem offsets_lt_size {z : Zstd} {file : OpenedFile} {i : Nat} {v : BlobView} {t : List Nat}
    (hv : file.blobView z i = some v) (ht : v.offsets file.version = some t) :
    ∀ o ∈ t, o < v.size := (usedTable_spec hv (usedTable_of_offsets ht).1).2

/-! ## States -/

/-- A delta keyframe applied to the state before it. -/
def applyDelta (resizing : Bool) (base : Bytes) : Packet → Option Bytes
  | .deltaKeyframe _ diff => applyDiffInPlace base diff
  | .regionDeltaKeyframe _ stateLen control data =>
    if stateLen.toNat = base.length then applyRegionDiffInPlace base control data
    else if resizing = false ∨ ChainState.plausibleLen base.length < stateLen.toNat then none
    else applyRegionDiffInPlace (resizeZero base stateLen.toNat) control data
  | _ => none

/-- Whether region deltas of the file may change the length of the state. -/
def resizing : Bool := decide (file.metadata.consoleType = .nintendo3DS)

/-- Whether a packet of a list moves the chain: a keyframe does, but for a stored one in a blob. -/
def moves : ListId → Packet → Bool
  | .topLevel, packet => isKeyframeClass packet
  | .blob _, .storedKeyframe _ => false
  | .blob _, packet => isKeyframeClass packet

variable (rom : Option Bytes)

/-- The keyframe at a position materialises to a state. -/
inductive StateAt (list : ListId) : Nat → Bytes → Prop
  | full {pos : Nat} {metadata : KeyframeMetadata} {state : Bytes} :
      file.IsKeyframePos z list pos → file.packetAt z list pos = some (.keyframe metadata state) →
      StateAt list pos state
  | stored {pos k : Nat} {keyframe : StoredKeyframe} {payload state : Bytes} :
      list = .topLevel → file.packets[pos]? = some (.storedKeyframe keyframe) →
      file.storedIndexOf pos = .ok k → file.StoredState z rom k payload state →
      StateAt list pos state
  | delta {q pos : Nat} {base state : Bytes} {packet : Packet} :
      file.IsKeyframePos z list pos → file.packetAt z list pos = some packet →
      file.Precedes z list q pos → StateAt list q base →
      applyDelta file.resizing base packet = some state → StateAt list pos state

/-- No delta of the top-level list follows right after a stored keyframe. -/
def DeltasApart : Prop :=
  ∀ q pos keyframe packet, file.Precedes z .topLevel q pos →
    file.packets[q]? = some (.storedKeyframe keyframe) → file.packets[pos]? = some packet →
    isDelta packet = false

/-- The keyframes from the full one at `r` up to `pos` are deltas, and all of them materialise. -/
structure RestsOn (list : ListId) (r pos : Nat) : Prop where
  le : r ≤ pos
  isKeyframe : file.IsKeyframePos z list r
  full : ∃ metadata state, file.packetAt z list r = some (.keyframe metadata state)
  states : ∀ o, r ≤ o → o ≤ pos → file.IsKeyframePos z list o → ∃ s, StateAt z file rom list o s
  deltas : ∀ o, r < o → o ≤ pos → file.IsKeyframePos z list o →
    ∀ packet, file.packetAt z list o = some packet → isDelta packet = true

variable {z : Zstd} {file : OpenedFile} {rom : Option Bytes} {list : ListId}

theorem moves_of_not_class (h : isKeyframeClass packet = false) : moves list packet = false := by
  cases list <;> cases packet <;> first | rfl | exact h

theorem moves_of_full (h : isFullKeyframe packet = true) : moves list packet = true := by
  cases packet with
  | keyframe metadata state => cases list <;> rfl
  | _ => cases h

theorem moves_of_not_stored (h : isKeyframeClass packet = true)
    (hnot : ∀ k, packet ≠ .storedKeyframe k) : moves list packet = true := by
  cases list <;> cases packet <;> first | rfl | exact (hnot _ rfl).elim | exact h

theorem isDelta_of_applyDelta {resizing : Bool} {base state : Bytes}
    (h : applyDelta resizing base packet = some state) : isDelta packet = true := by
  cases packet <;> first | rfl | cases h

theorem StateAt.isKeyframePos {s : Bytes} (h : file.StateAt z rom list pos s) :
    file.IsKeyframePos z list pos := by
  cases h with
  | full h _ => exact h
  | stored hlist hpacket _ _ =>
    subst hlist
    exact ⟨_, hpacket, rfl⟩
  | delta h _ _ _ _ => exact h

/-- What materialises moves the chain. -/
theorem StateAt.moves {s : Bytes} (h : file.StateAt z rom list pos s) :
    ∃ packet, file.packetAt z list pos = some packet ∧ OpenedFile.moves list packet = true := by
  cases h with
  | full _ hp => exact ⟨_, hp, by cases list <;> rfl⟩
  | stored hlist hpacket _ _ =>
    subst hlist
    exact ⟨_, hpacket, rfl⟩
  | @delta _ _ _ _ packet _ hp _ _ happly =>
    refine ⟨packet, hp, ?_⟩
    have hdelta := isDelta_of_applyDelta happly
    cases list <;> cases packet <;> first | rfl | cases hdelta

/-- A keyframe materialises to one state only. -/
theorem StateAt.unique {s s' : Bytes} (h : file.StateAt z rom list pos s)
    (h' : file.StateAt z rom list pos s') : s = s' := by
  induction h generalizing s' with
  | full _ hp =>
    cases h' with
    | full _ hp' =>
      rw [hp] at hp'
      cases hp'
      rfl
    | stored hlist hpacket' _ _ =>
      subst hlist
      cases hp.symm.trans hpacket'
    | delta _ hp' _ _ happly =>
      rw [hp] at hp'
      cases hp'
      cases happly
  | stored hlist hpacket hk hstate =>
    subst hlist
    cases h' with
    | full _ hp' => cases hp'.symm.trans hpacket
    | stored _ hpacket' hk' hstate' =>
      rw [hk] at hk'
      cases hk'
      exact (hstate.unique hstate').2
    | delta _ hp' _ _ happly =>
      cases hp'.symm.trans hpacket
      cases happly
  | delta _ hp hq _ happly ih =>
    cases h' with
    | full _ hp' =>
      rw [hp] at hp'
      cases hp'
      cases happly
    | stored hlist hpacket' _ _ =>
      subst hlist
      cases hp.symm.trans hpacket'
      cases happly
    | delta _ hp' hq' hbase happly' =>
      rw [hp] at hp'
      cases hp'
      obtain rfl := hq.unique hq'
      rw [ih hbase, happly'] at happly
      cases happly
      rfl

/-- What a stored keyframe of the top-level list materialises to. -/
theorem StateAt.stored_iff {keyframe : StoredKeyframe} {s : Bytes}
    (hpacket : file.packets[pos]? = some (.storedKeyframe keyframe)) :
    file.StateAt z rom .topLevel pos s ↔
      ∃ k payload, file.storedIndexOf pos = .ok k ∧ file.StoredState z rom k payload s := by
  constructor
  · intro h
    cases h with
    | full _ hp => cases hp.symm.trans hpacket
    | stored _ _ hk hstate => exact ⟨_, _, hk, hstate⟩
    | delta _ hp _ _ happly =>
      cases hp.symm.trans hpacket
      cases happly
  · rintro ⟨k, payload, hk, hstate⟩
    exact .stored rfl hpacket hk hstate

/-- A keyframe that materialises and is not a stored one rests on a full one. -/
theorem StateAt.restsOn (hapart : file.DeltasApart z) {s : Bytes}
    (h : file.StateAt z rom list pos s)
    (hnot : list = .topLevel → ∀ k, file.packets[pos]? ≠ some (.storedKeyframe k)) :
    ∃ r, file.RestsOn z rom list r pos := by
  induction h with
  | @full pos metadata state hpos hp =>
    refine ⟨pos, le_rfl, hpos, ⟨metadata, state, hp⟩, fun o hle hge ho ↦ ?_, by omega⟩
    obtain rfl : o = pos := by omega
    exact ⟨state, .full ho hp⟩
  | stored hlist hpacket _ _ => exact (hnot hlist _ hpacket).elim
  | @delta q pos base state packet hpos hp hq hbase happly ih =>
    have hdelta := isDelta_of_applyDelta happly
    obtain ⟨r, hrest⟩ := ih fun hlist k hk ↦ by
      subst hlist
      have := hapart q pos k packet hq hk hp
      rw [hdelta] at this
      cases this
    have hcases : ∀ o, r ≤ o → o ≤ pos → file.IsKeyframePos z list o → o ≤ q ∨ o = pos := by
      intro o _ hle ho
      by_contra hnot
      rw [not_or, not_le] at hnot
      exact hq.between o hnot.1 (by omega) ho
    refine ⟨r, hrest.le.trans hq.lt.le, hrest.isKeyframe, hrest.full, fun o hro hle ho ↦ ?_,
      fun o hro hle ho packet' hp' ↦ ?_⟩
    · rcases hcases o hro hle ho with hoq | rfl
      · exact hrest.states o hro hoq ho
      · exact ⟨state, .delta ho hp hq hbase happly⟩
    · rcases hcases o hro.le hle ho with hoq | rfl
      · exact hrest.deltas o hro hoq ho packet' hp'
      · rw [hp] at hp'
        cases hp'
        exact hdelta

end OpenedFile

end SuperShuckie
