import SuperShuckie.Player.Stored

/-!
# What an opened file has

The index of a file that opened is in step with its packets: it knows where the stored keyframes are
and of which level, and what each of them is a delta against comes before it.
-/

set_option autoImplicit false

namespace SuperShuckie

open ByteFormat

theorem Opening.bind_eq_ok {α β : Type} {a : Opening α} {f : α → Opening β} {b : β} :
    (a >>= f) = .ok b ↔ ∃ r, a = .ok r ∧ f r = .ok b := by
  cases a with
  | ok r => exact ⟨fun h ↦ ⟨r, rfl, h⟩, fun ⟨r', hr, h⟩ ↦ by cases hr; exact h⟩
  | error e => exact ⟨fun h ↦ (by cases h), fun ⟨r', hr, h⟩ ↦ by cases hr⟩

theorem Opening.ok_bind {α β : Type} (r : α) (f : α → Opening β) :
    ((.ok r : Opening α) >>= f) = f r := rfl

namespace OpenedFile

namespace PacketIndex

/-- The stored keyframes of an index are in step with the packets, of which it has seen the first
`n`. -/
structure InStep (packets : List Packet) (index : PacketIndex) : Prop where
  stored : ∀ k (info : StoredKeyframeInfo), index.storedKeyframes[k]? = some info →
    (∃ keyframe : StoredKeyframe, packets[info.packet]? = some (.storedKeyframe keyframe) ∧
      info.level = keyframe.level) ∧
    ∀ r, info.reference = some r → r < k
  latest : ∀ m r, index.latestAtMost m = some r → r < index.storedKeyframes.length

variable {packets : List Packet} {index : PacketIndex}

theorem InStep.congr {index' : PacketIndex} (h : index.InStep packets)
    (hstored : index'.storedKeyframes = index.storedKeyframes)
    (hlatest : index'.latestAtMost = index.latestAtMost) : index'.InStep packets :=
  ⟨fun k info hinfo ↦ h.stored k info (hstored ▸ hinfo), fun m r hr ↦ by
    rw [hstored]
    exact h.latest m r (hlatest ▸ hr)⟩

theorem InStep.addStored (h : index.InStep packets) {i : Nat} {keyframe : StoredKeyframe}
    (hi : packets[i]? = some (.storedKeyframe keyframe)) :
    (index.addStored i keyframe).InStep packets := by
  refine ⟨fun k info hinfo ↦ ?_, fun m r hr ↦ ?_⟩
  · rw [PacketIndex.addStored] at hinfo
    dsimp only [addKeyframe] at hinfo
    rcases Nat.lt_or_ge k index.storedKeyframes.length with hk | hk
    · rw [List.getElem?_append_left hk] at hinfo
      exact h.stored k info hinfo
    · rw [List.getElem?_append_right hk, List.getElem?_singleton] at hinfo
      split at hinfo
      · cases hinfo
        refine ⟨⟨keyframe, hi, rfl⟩, fun r hr ↦ ?_⟩
        dsimp only at hr
        split at hr
        · cases hr
        · exact (h.latest _ r hr).trans_le hk
      · cases hinfo
  · rw [PacketIndex.addStored] at hr ⊢
    dsimp only [addKeyframe] at hr ⊢
    rw [List.length_append, List.length_singleton]
    split at hr
    · cases hr
      omega
    · exact (h.latest m r hr).trans (Nat.lt_succ_self _)

theorem foldl_addKeyframe_stored (keyframes : List KeyframeMetadata) (index : PacketIndex) :
    (keyframes.foldl addKeyframe index).storedKeyframes = index.storedKeyframes ∧
      (keyframes.foldl addKeyframe index).latestAtMost = index.latestAtMost := by
  induction keyframes generalizing index with
  | nil => exact ⟨rfl, rfl⟩
  | cons keyframe keyframes ih => exact ih (index.addKeyframe keyframe)

theorem foldl_addBookmark_stored (bookmarks : List BookmarkMetadata) (index : PacketIndex) :
    (bookmarks.foldl addBookmark index).storedKeyframes = index.storedKeyframes ∧
      (bookmarks.foldl addBookmark index).latestAtMost = index.latestAtMost := by
  induction bookmarks generalizing index with
  | nil => exact ⟨rfl, rfl⟩
  | cons bookmark bookmarks ih => exact ih (index.addBookmark bookmark)

theorem InStep.add {index' : PacketIndex} (h : index.InStep packets) {i : Nat} {packet : Packet}
    (hi : packets[i]? = some packet) (hadd : index.add i packet = .ok index') :
    index'.InStep packets := by
  cases packet with
  | compressedBlob blob =>
    rw [PacketIndex.add, addBlob] at hadd
    split at hadd
    · cases hadd
    · split at hadd
      · cases hadd
      · cases hadd
        obtain ⟨hstored, hlatest⟩ := foldl_addKeyframe_stored blob.keyframes index
        obtain ⟨hstored', hlatest'⟩ :=
          foldl_addBookmark_stored blob.bookmarks (blob.keyframes.foldl addKeyframe index)
        exact h.congr (hstored'.trans hstored) (hlatest'.trans hlatest)
  | storedKeyframe keyframe =>
    cases hadd
    exact h.addStored hi
  | nextFrame delta =>
    rw [PacketIndex.add] at hadd
    split at hadd
    · cases hadd
      exact h.congr rfl rfl
    · cases hadd
  | _ =>
    cases hadd
    exact h.congr rfl rfl

theorem InStep.addAll {index' : PacketIndex} (h : index.InStep packets) {i : Nat}
    {rest : List Packet} (hrest : rest = packets.drop i) (hadd : addAll index i rest = .ok index') :
    index'.InStep packets := by
  induction rest generalizing index i with
  | nil =>
    cases hadd
    exact h
  | cons packet rest ih =>
    rw [PacketIndex.addAll] at hadd
    have hi : packets[i]? = some packet := by
      rw [← List.head?_drop, ← hrest]
      rfl
    have htail : rest = packets.drop (i + 1) := by
      rw [← List.drop_drop, ← hrest]
      rfl
    cases hone : index.add i packet with
    | error e =>
      rw [hone] at hadd
      cases hadd
    | ok next =>
      rw [hone] at hadd
      exact ih (h.add hi hone) htail hadd

end PacketIndex

/-- A file that opened has an index of its packets. -/
theorem index_of_read {x : Externals} {bytes : Bytes} {source : Option Bytes} {allow : Bool}
    {file : OpenedFile} (h : read x bytes source allow = .ok file) :
    ∃ index, PacketIndex.addAll PacketIndex.empty 0 file.packets = .ok index ∧
      file.storedKeyframes = index.storedKeyframes ∧ file.thumbnails = index.thumbnails := by
  rw [read] at h
  obtain ⟨headerRaw, -, h⟩ := Opening.bind_eq_ok.mp h
  obtain ⟨metadata, -, h⟩ := Opening.bind_eq_ok.mp h
  obtain ⟨⟨patchData, patchEnd⟩, -, h⟩ := Opening.bind_eq_ok.mp h
  obtain ⟨⟨streamEnd, endTruncated⟩, -, h⟩ := Opening.bind_eq_ok.mp h
  obtain ⟨stream, -, h⟩ := Opening.bind_eq_ok.mp h
  obtain ⟨⟨packets, readTruncated⟩, -, h⟩ := Opening.bind_eq_ok.mp h
  obtain ⟨⟨packets', deltaTruncated⟩, -, h⟩ := Opening.bind_eq_ok.mp h
  obtain ⟨-, -, h⟩ := Opening.bind_eq_ok.mp h
  obtain ⟨index, hindex, h⟩ := Opening.bind_eq_ok.mp h
  obtain ⟨-, -, h⟩ := Opening.bind_eq_ok.mp h
  cases h
  exact ⟨index, hindex, rfl, rfl⟩

theorem storedIndexed_of_read {x : Externals} {bytes : Bytes} {source : Option Bytes}
    {allow : Bool} {file : OpenedFile} (h : read x bytes source allow = .ok file) :
    file.StoredIndexed := by
  obtain ⟨index, hindex, hstored, -⟩ := index_of_read h
  have hempty : PacketIndex.empty.InStep file.packets :=
    ⟨fun k info hinfo ↦ by simp [PacketIndex.empty] at hinfo, fun m r hr ↦ by cases hr⟩
  have hstep := hempty.addAll rfl hindex
  exact fun k info hinfo ↦ hstep.stored k info (hstored ▸ hinfo)

end OpenedFile

/-- A player just opened is at the start of the file that was read. -/
theorem ReplayFilePlayer.read_of_new {x : Externals} {bytes : Bytes} {allow : Bool}
    {player : ReplayFilePlayer} (h : ReplayFilePlayer.new x bytes allow = .ok player) :
    ∃ source file, OpenedFile.read x bytes source allow = .ok file ∧ player = start file := by
  obtain ⟨source, hsource⟩ : ∃ source, new x bytes allow = build x bytes source allow := ⟨_, rfl⟩
  rw [hsource, build] at h
  cases hread : OpenedFile.read x bytes source allow with
  | error e =>
    rw [hread] at h
    cases h
  | ok file =>
    rw [hread] at h
    cases h
    exact ⟨source, file, hread, rfl⟩

end SuperShuckie
