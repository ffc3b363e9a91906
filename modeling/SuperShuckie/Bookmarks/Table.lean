import SuperShuckie.Player.Open
import SuperShuckie.Lib.Runs

/-!
# Editing a bookmark table

A table hands out ids and keeps its bookmarks sorted by frame and id.  `BookmarkTable.WellFormed` says
that it is sorted, that its ids are distinct and not zero, and that its next id is above all of them.

* `WellFormed.insert`, `WellFormed.remove`, `WellFormed.truncatedTo`: the operations keep it.
* `Started.wellFormed`: a new table has it, one made of legacy bookmarks, and one read from bytes whose
  records have distinct ids, none of them zero or the largest.
* `wellFormed_run`: so does every table of a run in which no bookmark gets the largest id.
* `largest_id_twice`: past the largest id, the next id is one that is in use.
-/

set_option autoImplicit false

namespace SuperShuckie

open ByteFormat

namespace BookmarkTable

/-! ## The operations -/

/-- Reserve a new bookmark id. -/
def allocateId (t : BookmarkTable) : UnsignedInteger × BookmarkTable :=
  let id := max t.nextId 1
  (id, { t with nextId := saturatingSucc id })

/-- The key of `a` is below that of `b`: `(in_frame, id)` in lexicographic order. -/
def below (a b : Bookmark) : Bool :=
  decide (a.inFrame < b.inFrame) || (a.inFrame == b.inFrame && decide (a.id < b.id))

/-- Put a bookmark in front of the first one whose key is not below its own (`partition_point`). -/
def insertSorted (bookmarks : List Bookmark) (b : Bookmark) : List Bookmark :=
  bookmarks.takeWhile (below · b) ++ b :: bookmarks.dropWhile (below · b)

/-- Insert a bookmark, keeping the table sorted.  An id of 0 is replaced with a new one; a bookmark
with an id that already exists replaces it. -/
def insert (t : BookmarkTable) (b : Bookmark) : UnsignedInteger × BookmarkTable :=
  let (b, t) :=
    if b.id = 0 then ({ b with id := t.allocateId.1 }, t.allocateId.2)
    else if t.nextId ≤ b.id then (b, { t with nextId := saturatingSucc b.id })
    else (b, t)
  (b.id, { t with bookmarks := insertSorted (t.bookmarks.filter (·.id ≠ b.id)) b })

/-- Remove the bookmark with an id. -/
def remove (t : BookmarkTable) (id : UnsignedInteger) : Option Bookmark × BookmarkTable :=
  (t.bookmarks.find? (·.id = id), { t with bookmarks := t.bookmarks.eraseP (·.id = id) })

/-- Drop type records no bookmark uses, and sort the rest by id. -/
def pruneTypes (t : BookmarkTable) : BookmarkTable :=
  { t with
    types := (t.types.filter fun r ↦ r.id ≠ 0 ∧ t.bookmarks.any (·.typeId = r.id)).insertionSort
      fun a b ↦ a.id ≤ b.id }

/-- A bookmark of a replay cut after `frame`: a range that ends after it loses its end. -/
def cutBookmark (frame : UnsignedInteger) (b : Bookmark) : Bookmark :=
  if b.out.any fun out ↦ frame < out.1 then { b with out := none } else b

/-- The table as it applies to a replay cut after `frame`. -/
def truncatedTo (t : BookmarkTable) (frame : UnsignedInteger) : BookmarkTable :=
  pruneTypes
    { t with bookmarks := (t.bookmarks.filter (·.inFrame ≤ frame)).map (cutBookmark frame) }

/-! ## What they keep -/

/-- A table as it should be. -/
structure WellFormed (t : BookmarkTable) : Prop where
  sorted : t.bookmarks.Pairwise fun a b ↦ a.before b = true
  nodup : (t.bookmarks.map (·.id)).Nodup
  nonzero : ∀ b ∈ t.bookmarks, b.id ≠ 0
  above : ∀ b ∈ t.bookmarks, b.id < t.nextId
  pos : t.nextId ≠ 0

variable {t : BookmarkTable} {a b c : Bookmark}

theorem WellFormed.kept (h : t.WellFormed) : t.Kept := ⟨h.sorted, h.above⟩

theorem wellFormed_new : WellFormed .new :=
  ⟨List.Pairwise.nil, List.nodup_nil, by simp [BookmarkTable.new], by simp [BookmarkTable.new],
    by decide⟩

/-- **What is written is read back.** -/
theorem WellFormed.decode_encode (h : t.WellFormed) (hlen : t.encode.length < 2 ^ 64) :
    BookmarkTable.decode t.encode = .ok t := by
  have hdecode := BookmarkTable.decode_encode hlen []
  rwa [List.append_nil, BookmarkTable.normalised_eq h.kept h.pos] at hdecode

theorem lt_saturatingSucc {n : UnsignedInteger} (h : n.toNat + 1 < 2 ^ 64) :
    n < saturatingSucc n := by
  rw [saturatingSucc, if_pos h, UInt64.lt_iff_toNat_lt, UInt64.toNat_add,
    show (1 : UInt64).toNat = 1 from rfl, Nat.mod_eq_of_lt h]
  exact Nat.lt_succ_self _

theorem le_saturatingSucc (n : UnsignedInteger) : n ≤ saturatingSucc n := by
  by_cases h : n.toNat + 1 < 2 ^ 64
  · exact UInt64.le_of_lt (lt_saturatingSucc h)
  · rw [saturatingSucc, if_neg h]
    exact UInt64.le_refl n

theorem max_one {n : UnsignedInteger} (h : n ≠ 0) : max n 1 = n := by
  have hpos : n.toNat ≠ 0 := fun hzero ↦ h (UInt64.toNat_inj.mp hzero)
  rw [max_eq_ite]
  split
  · rename_i hle
    rw [UInt64.le_iff_toNat_le, show (1 : UInt64).toNat = 1 from rfl] at hle
    exact UInt64.toNat_inj.mp (show (1 : UInt64).toNat = n.toNat by
      rw [show (1 : UInt64).toNat = 1 from rfl]; omega)
  · rfl

/-- **A new id is not in use.** -/
theorem WellFormed.allocateId_not_mem (h : t.WellFormed) :
    t.allocateId.1 ≠ 0 ∧ ∀ b ∈ t.bookmarks, b.id ≠ t.allocateId.1 := by
  have hid : t.allocateId.1 = t.nextId := max_one h.pos
  rw [hid]
  exact ⟨h.pos, fun b hb heq ↦ UInt64.lt_irrefl _ (heq ▸ h.above b hb)⟩

theorem WellFormed.allocateId (h : t.WellFormed) : t.allocateId.2.WellFormed := by
  have hnext : t.allocateId.2.nextId = saturatingSucc t.nextId := by
    show saturatingSucc (max t.nextId 1) = _
    rw [max_one h.pos]
  refine ⟨h.sorted, h.nodup, h.nonzero, ?_, ?_⟩
  · intro b hb
    rw [hnext]
    exact UInt64.lt_of_lt_of_le (h.above b hb) (le_saturatingSucc _)
  · rw [hnext]
    intro hzero
    have hle := le_saturatingSucc t.nextId
    rw [hzero, UInt64.le_iff_toNat_le] at hle
    exact h.pos (UInt64.toNat_inj.mp (Nat.le_zero.1 hle))

/-! ### Order -/

theorem before_iff : a.before b = true ↔
    a.inFrame.toNat < b.inFrame.toNat ∨
      (a.inFrame.toNat = b.inFrame.toNat ∧ a.id.toNat ≤ b.id.toNat) := by
  simp only [Bookmark.before, Bool.or_eq_true, Bool.and_eq_true, decide_eq_true_eq, beq_iff_eq,
    UInt64.lt_iff_toNat_lt, UInt64.le_iff_toNat_le, UInt64.toNat_inj]

theorem below_iff : below a b = true ↔
    a.inFrame.toNat < b.inFrame.toNat ∨
      (a.inFrame.toNat = b.inFrame.toNat ∧ a.id.toNat < b.id.toNat) := by
  simp only [below, Bool.or_eq_true, Bool.and_eq_true, decide_eq_true_eq, beq_iff_eq,
    UInt64.lt_iff_toNat_lt, UInt64.toNat_inj]

theorem before_of_below (h : below a b = true) : a.before b = true := by
  rw [below_iff] at h
  rw [before_iff]
  omega

theorem before_of_not_below (h : below a b = false) : b.before a = true := by
  rw [← Bool.not_eq_true, below_iff] at h
  rw [before_iff]
  omega

theorem before_trans (hab : a.before b = true) (hbc : b.before c = true) : a.before c = true := by
  rw [before_iff] at *
  omega

/-- **A bookmark goes where it belongs**: a sorted list stays sorted. -/
theorem sorted_insertSorted {bookmarks : List Bookmark}
    (h : bookmarks.Pairwise fun a b ↦ a.before b = true) :
    (insertSorted bookmarks b).Pairwise fun a b ↦ a.before b = true := by
  have hsplit := List.takeWhile_append_dropWhile (p := (below · b)) (l := bookmarks)
  have hfirst : ∀ a ∈ bookmarks.takeWhile (below · b), a.before b = true := fun a ha ↦
    before_of_below (List.mem_takeWhile_imp (p := (below · b)) ha)
  rw [← hsplit, List.pairwise_append] at h
  obtain ⟨hbefore, hafter, hbetween⟩ := h
  have hlast : ∀ c ∈ bookmarks.dropWhile (below · b), b.before c = true := by
    cases hdrop : bookmarks.dropWhile (below · b) with
    | nil => exact fun c hc ↦ absurd hc List.not_mem_nil
    | cons d rest =>
      have hhead : below d b = false := by
        have hnot := List.head?_dropWhile_not (below · b) bookmarks
        rw [hdrop] at hnot
        simpa using hnot
      rw [hdrop, List.pairwise_cons] at hafter
      intro c hc
      obtain rfl | hc := List.mem_cons.1 hc
      · exact before_of_not_below hhead
      · exact before_trans (before_of_not_below hhead) (hafter.1 c hc)
  rw [insertSorted, List.pairwise_append]
  refine ⟨hbefore, List.pairwise_cons.2 ⟨hlast, hafter⟩, ?_⟩
  intro a ha c hc
  obtain rfl | hc := List.mem_cons.1 hc
  · exact hfirst a ha
  · exact hbetween a ha c hc

theorem perm_insertSorted (bookmarks : List Bookmark) (b : Bookmark) :
    (insertSorted bookmarks b).Perm (b :: bookmarks) := by
  rw [insertSorted]
  refine List.perm_middle.trans (List.Perm.cons b ?_)
  rw [List.takeWhile_append_dropWhile]

/-- A bookmark with a new id below the next one. -/
theorem WellFormed.insertSorted (h : t.WellFormed) (hnonzero : b.id ≠ 0) (habove : b.id < t.nextId) :
    WellFormed
      { t with bookmarks := BookmarkTable.insertSorted (t.bookmarks.filter (·.id ≠ b.id)) b } := by
  have hperm := perm_insertSorted (t.bookmarks.filter (·.id ≠ b.id)) b
  have hmem : ∀ c ∈ BookmarkTable.insertSorted (t.bookmarks.filter (·.id ≠ b.id)) b,
      c = b ∨ c ∈ t.bookmarks := by
    intro c hc
    obtain rfl | hc := List.mem_cons.1 (hperm.mem_iff.1 hc)
    · exact Or.inl rfl
    · exact Or.inr (List.mem_filter.1 hc).1
  refine ⟨sorted_insertSorted (h.sorted.filter _), ?_, ?_, ?_, h.pos⟩
  · rw [(hperm.map _).nodup_iff, List.map_cons, List.nodup_cons]
    refine ⟨?_, h.nodup.sublist (List.filter_sublist.map _)⟩
    intro hin
    obtain ⟨c, hc, hid⟩ := List.mem_map.1 hin
    simpa [hid] using (List.mem_filter.1 hc).2
  · intro c hc
    obtain rfl | hc := hmem c hc
    · exact hnonzero
    · exact h.nonzero c hc
  · intro c hc
    obtain rfl | hc := hmem c hc
    · exact habove
    · exact h.above c hc

/-- What `insert` is given: a next id is left above the id that the bookmark gets. -/
def Insertable (t : BookmarkTable) (b : Bookmark) : Prop :=
  if b.id = 0 then t.nextId.toNat + 1 < 2 ^ 64 else b.id.toNat + 1 < 2 ^ 64

instance (t : BookmarkTable) (b : Bookmark) : Decidable (t.Insertable b) := by
  unfold Insertable
  infer_instance

theorem WellFormed.raiseNextId (h : t.WellFormed) {n : UnsignedInteger} (hn : t.nextId ≤ n) :
    WellFormed { t with nextId := n } := by
  refine ⟨h.sorted, h.nodup, h.nonzero, fun b hb ↦ UInt64.lt_of_lt_of_le (h.above b hb) hn, ?_⟩
  rintro rfl
  rw [UInt64.le_iff_toNat_le] at hn
  exact h.pos (UInt64.toNat_inj.mp (Nat.le_zero.1 hn))

theorem WellFormed.insert (h : t.WellFormed) (hb : t.Insertable b) : (t.insert b).2.WellFormed := by
  rw [Insertable] at hb
  by_cases hzero : b.id = 0
  · -- The id is a new one: the table's next id.
    rw [if_pos hzero] at hb
    have hid : t.allocateId.1 = t.nextId := max_one h.pos
    have hnext : t.allocateId.2.nextId = saturatingSucc t.nextId := by
      show saturatingSucc (max t.nextId 1) = _
      rw [max_one h.pos]
    have hkept := WellFormed.insertSorted (b := { b with id := t.allocateId.1 }) h.allocateId
      (hid ▸ h.pos) (by
        show t.allocateId.1 < _
        rw [hnext, hid]
        exact lt_saturatingSucc hb)
    simpa only [BookmarkTable.insert, if_pos hzero] using hkept
  · rw [if_neg hzero] at hb
    by_cases hnext : t.nextId ≤ b.id
    · have hraised := h.raiseNextId (UInt64.le_trans hnext (le_saturatingSucc b.id))
      have hkept := hraised.insertSorted hzero (lt_saturatingSucc hb)
      simpa only [BookmarkTable.insert, if_neg hzero, if_pos hnext] using hkept
    · have hkept := h.insertSorted hzero (UInt64.not_le.1 hnext)
      simpa only [BookmarkTable.insert, if_neg hzero, if_neg hnext] using hkept

/-- Some bookmarks of a table, in their order, with the frames and ids they have. -/
theorem WellFormed.sublist (h : t.WellFormed) {bookmarks : List Bookmark}
    (hsub : bookmarks.Sublist t.bookmarks) : WellFormed { t with bookmarks := bookmarks } :=
  ⟨h.sorted.sublist hsub, h.nodup.sublist (hsub.map _), fun b hb ↦ h.nonzero b (hsub.mem hb),
    fun b hb ↦ h.above b (hsub.mem hb), h.pos⟩

theorem WellFormed.remove (h : t.WellFormed) (id : UnsignedInteger) : (t.remove id).2.WellFormed :=
  h.sublist List.eraseP_sublist

@[simp] theorem cutBookmark_id (frame : UnsignedInteger) (b : Bookmark) :
    (cutBookmark frame b).id = b.id := by
  rw [cutBookmark]
  split <;> rfl

@[simp] theorem cutBookmark_inFrame (frame : UnsignedInteger) (b : Bookmark) :
    (cutBookmark frame b).inFrame = b.inFrame := by
  rw [cutBookmark]
  split <;> rfl

theorem WellFormed.map (h : t.WellFormed) {f : Bookmark → Bookmark} (hid : ∀ b, (f b).id = b.id)
    (hframe : ∀ b, (f b).inFrame = b.inFrame) :
    WellFormed { t with bookmarks := t.bookmarks.map f } := by
  refine ⟨?_, ?_, ?_, ?_, h.pos⟩
  · refine List.pairwise_map.2 (h.sorted.imp fun hab ↦ ?_)
    simpa only [Bookmark.before, hid, hframe] using hab
  · rw [List.map_map]
    simpa only [Function.comp_def, hid] using h.nodup
  · intro b hb
    obtain ⟨c, hc, rfl⟩ := List.mem_map.1 hb
    exact hid c ▸ h.nonzero c hc
  · intro b hb
    obtain ⟨c, hc, rfl⟩ := List.mem_map.1 hb
    exact hid c ▸ h.above c hc

theorem WellFormed.pruneTypes (h : t.WellFormed) : t.pruneTypes.WellFormed :=
  ⟨h.sorted, h.nodup, h.nonzero, h.above, h.pos⟩

theorem WellFormed.truncatedTo (h : t.WellFormed) (frame : UnsignedInteger) :
    (t.truncatedTo frame).WellFormed :=
  ((h.sublist List.filter_sublist).map (cutBookmark_id frame)
    (cutBookmark_inFrame frame)).pruneTypes

/-! ## Where tables come from -/

/-- The ids of the records in a table's bytes, as they are read. -/
def FileIds (P : List UnsignedInteger → Prop) (bytes : Bytes) : Prop :=
  ∀ raw, decodeRecord BookmarkTable.readFields bytes = .ok raw → P (raw.bookmarks.map (·.id))

/-- Ids that a table can hold: distinct ones, not zero, with one left above them. -/
def IdsUsable (ids : List UnsignedInteger) : Prop :=
  ids.Nodup ∧ ∀ id ∈ ids, id ≠ 0 ∧ id.toNat + 1 < 2 ^ 64

theorem le_max_ids (a b : UnsignedInteger) : a ≤ max a b ∧ b ≤ max a b := by
  rw [max_eq_ite]
  split
  · rename_i hle
    exact ⟨hle, UInt64.le_refl _⟩
  · rename_i hle
    exact ⟨UInt64.le_refl _, UInt64.le_of_lt (UInt64.not_le.1 hle)⟩

theorem le_foldl_max {ids : List Bookmark} {highest : UnsignedInteger} :
    highest ≤ ids.foldl (fun highest b ↦ max highest b.id) highest ∧
      ∀ b ∈ ids, b.id ≤ ids.foldl (fun highest b ↦ max highest b.id) highest := by
  induction ids generalizing highest with
  | nil => exact ⟨UInt64.le_refl _, fun b hb ↦ absurd hb List.not_mem_nil⟩
  | cons b ids ih =>
    obtain ⟨hhighest, hids⟩ := @ih (max highest b.id)
    refine ⟨UInt64.le_trans (le_max_ids _ _).1 hhighest, ?_⟩
    intro c hc
    obtain rfl | hc := List.mem_cons.1 hc
    · exact UInt64.le_trans (le_max_ids _ _).2 hhighest
    · exact hids c hc

theorem saturatingSucc_ne_zero (n : UnsignedInteger) : saturatingSucc n ≠ 0 ∨ n = 0 := by
  by_cases hn : n = 0
  · exact Or.inr hn
  · refine Or.inl fun hzero ↦ hn ?_
    have hle := le_saturatingSucc n
    rw [hzero, UInt64.le_iff_toNat_le] at hle
    exact UInt64.toNat_inj.mp (Nat.le_zero.1 hle)

/-- **A table read from a file** whose ids are usable. -/
theorem wellFormed_normalised {raw : BookmarkTable} (h : IdsUsable (raw.bookmarks.map (·.id))) :
    raw.normalised.WellFormed := by
  obtain ⟨hnodup, husable⟩ := h
  have hperm : raw.sort.bookmarks.Perm raw.bookmarks := List.perm_insertionSort _ _
  have husable' : ∀ b ∈ raw.sort.bookmarks, b.id ≠ 0 ∧ b.id.toNat + 1 < 2 ^ 64 := fun b hb ↦
    husable _ (List.mem_map_of_mem (hperm.mem_iff.1 hb))
  have hnext : saturatingSucc
      (raw.sort.bookmarks.foldl (fun highest b ↦ max highest b.id) 0) ≤ raw.normalised.nextId :=
    UInt64.le_trans (le_max_ids _ _).2 (le_max_ids _ _).1
  have hlast : raw.sort.bookmarks.foldl (fun highest b ↦ max highest b.id) 0 <
      (UInt64.ofNat (2 ^ 64 - 1)) := by
    refine foldl_max_id_lt (by decide) fun b hb ↦ ?_
    have hid := (husable' b hb).2
    rw [UInt64.lt_iff_toNat_lt, show (UInt64.ofNat (2 ^ 64 - 1)).toNat = 2 ^ 64 - 1 from rfl]
    omega
  refine ⟨?_, (hperm.map _).nodup_iff.2 hnodup, fun b hb ↦ (husable' b hb).1, ?_, ?_⟩
  · have hnot : ∀ a b : Bookmark, ¬ a.before b = true → b.before a = true := by
      intro a b h
      rw [before_iff] at h ⊢
      omega
    exact pairwise_insertionSort_of (r := fun a b : Bookmark ↦ a.before b = true)
      (R := fun a b : Bookmark ↦ a.before b = true)
      (fun _ _ _ hab hbc ↦ before_trans hab hbc) (fun _ _ h ↦ h) hnot raw.bookmarks
  · intro b hb
    refine UInt64.lt_of_lt_of_le ?_ hnext
    have hb : b ∈ raw.sort.bookmarks := hb
    refine UInt64.lt_of_le_of_lt (le_foldl_max.2 b hb) (lt_saturatingSucc ?_)
    rw [UInt64.lt_iff_toNat_lt, show (UInt64.ofNat (2 ^ 64 - 1)).toNat = 2 ^ 64 - 1 from rfl] at hlast
    omega
  · intro hzero
    have hone : (1 : UnsignedInteger) ≤ raw.normalised.nextId := (le_max_ids _ _).2
    rw [hzero] at hone
    exact absurd hone (by decide)

/-- What `from_legacy` does with one legacy bookmark. -/
def appendLegacy (table : BookmarkTable) (metadata : BookmarkMetadata) : BookmarkTable :=
  let id := max table.nextId 1
  { table with
    nextId := saturatingSucc id
    bookmarks := table.bookmarks ++
      [⟨id, metadata.name, 0, metadata.elapsedFrames, metadata.elapsedMillis, none, false⟩] }

theorem WellFormed.appendLegacy (h : t.WellFormed) {metadata : BookmarkMetadata}
    (hlast : ∀ b ∈ t.bookmarks, b.inFrame ≤ metadata.elapsedFrames)
    (hroom : t.nextId.toNat + 1 < 2 ^ 64) : (appendLegacy t metadata).WellFormed := by
  have hnext : (BookmarkTable.appendLegacy t metadata).nextId = saturatingSucc t.nextId := by
    show saturatingSucc (max t.nextId 1) = _
    rw [max_one h.pos]
  have hid : max t.nextId 1 = t.nextId := max_one h.pos
  refine ⟨?_, ?_, ?_, ?_, ?_⟩
  · refine List.pairwise_append.2 ⟨h.sorted, List.pairwise_singleton _ _, fun a ha b hb ↦ ?_⟩
    obtain rfl := List.mem_singleton.1 hb
    have hframe := UInt64.le_iff_toNat_le.1 (hlast a ha)
    have habove := UInt64.lt_iff_toNat_lt.1 (h.above a ha)
    rw [before_iff]
    dsimp only
    rw [hid]
    omega
  · rw [BookmarkTable.appendLegacy, List.map_append, List.nodup_append]
    refine ⟨h.nodup, List.nodup_singleton _, fun a ha b hb ↦ ?_⟩
    obtain rfl := List.mem_singleton.1 hb
    obtain ⟨c, hc, rfl⟩ := List.mem_map.1 ha
    rintro heq
    exact UInt64.lt_irrefl _ (hid ▸ heq ▸ h.above c hc)
  · intro b hb
    obtain hb | hb := List.mem_append.1 hb
    · exact h.nonzero b hb
    · obtain rfl := List.mem_singleton.1 hb
      show max t.nextId 1 ≠ 0
      exact hid.symm ▸ h.pos
  · intro b hb
    rw [hnext]
    obtain hb | hb := List.mem_append.1 hb
    · exact UInt64.lt_trans (h.above b hb) (lt_saturatingSucc hroom)
    · obtain rfl := List.mem_singleton.1 hb
      show max t.nextId 1 < _
      exact hid.symm ▸ lt_saturatingSucc hroom
  · rw [hnext]
    exact (saturatingSucc_ne_zero _).resolve_right h.pos

theorem wellFormed_foldl_appendLegacy {legacy : List BookmarkMetadata} (h : t.WellFormed)
    (hsorted : legacy.Pairwise fun a b ↦ a.elapsedFrames ≤ b.elapsedFrames)
    (hlast : ∀ b ∈ t.bookmarks, ∀ m ∈ legacy, b.inFrame ≤ m.elapsedFrames)
    (hroom : t.nextId.toNat + legacy.length < 2 ^ 64) :
    (legacy.foldl appendLegacy t).WellFormed := by
  induction legacy generalizing t with
  | nil => exact h
  | cons m legacy ih =>
    obtain ⟨hm, hsorted⟩ := List.pairwise_cons.1 hsorted
    rw [List.length_cons] at hroom
    have hnext : (appendLegacy t m).nextId.toNat = t.nextId.toNat + 1 := by
      show (saturatingSucc (max t.nextId 1)).toNat = _
      rw [max_one h.pos, saturatingSucc, if_pos (by omega), UInt64.toNat_add,
        show (1 : UInt64).toNat = 1 from rfl, Nat.mod_eq_of_lt (by omega)]
    refine ih (h.appendLegacy (fun b hb ↦ hlast b hb m List.mem_cons_self) (by omega)) hsorted ?_
      (by omega)
    intro b hb m' hm'
    obtain hb | hb := List.mem_append.1 hb
    · exact hlast b hb m' (List.mem_cons_of_mem _ hm')
    · obtain rfl := List.mem_singleton.1 hb
      exact hm m' hm'

/-- **A legacy table.** -/
theorem wellFormed_fromLegacy {legacy : List BookmarkMetadata} (h : legacy.length + 1 < 2 ^ 64) :
    (OpenedFile.fromLegacy legacy).WellFormed := by
  refine wellFormed_foldl_appendLegacy wellFormed_new ?_ ?_ ?_
  · refine @pairwise_insertionSort_of BookmarkMetadata _
      (fun a b ↦ a.elapsedFrames ≤ b.elapsedFrames) _ (fun _ _ _ ↦ UInt64.le_trans) ?_ ?_ legacy
    · rintro a b (hlt | ⟨heq, -⟩)
      · exact UInt64.le_of_lt hlt
      · exact heq ▸ UInt64.le_refl _
    · intro a b hnot
      refine UInt64.not_lt.1 fun hlt ↦ hnot (Or.inl hlt)
  · exact fun b hb ↦ absurd hb List.not_mem_nil
  · rw [List.length_insertionSort, show BookmarkTable.new.nextId.toNat = 1 from rfl]
    omega

/-- A table that a run starts with: a new one, one made of legacy bookmarks, or one read from bytes
whose records have usable ids. -/
inductive Started : BookmarkTable → Prop where
  | new : Started .new
  | legacy (legacy : List BookmarkMetadata) : legacy.length + 1 < 2 ^ 64 →
      Started (OpenedFile.fromLegacy legacy)
  | decoded (bytes : Bytes) (t : BookmarkTable) : BookmarkTable.decode bytes = .ok t →
      FileIds IdsUsable bytes → Started t

theorem Started.wellFormed (h : Started t) : t.WellFormed := by
  cases h with
  | new => exact wellFormed_new
  | legacy legacy hlength => exact wellFormed_fromLegacy hlength
  | decoded bytes t hdecode hids =>
    rw [BookmarkTable.decode] at hdecode
    cases hraw : decodeRecord BookmarkTable.readFields bytes with
    | error e => rw [hraw] at hdecode; cases hdecode
    | ok raw =>
      rw [hraw] at hdecode
      cases hdecode
      exact wellFormed_normalised (hids raw hraw)

/-! ## Runs -/

/-- An operation on a table. -/
inductive Op where
  | insert (b : Bookmark)
  | allocateId
  | remove (id : UnsignedInteger)
  | truncatedTo (frame : UnsignedInteger)
  /-- Write the table and read it back. -/
  | reload

/-- The table after an operation. -/
def Op.exec : Op → BookmarkTable → Except PacketReadError BookmarkTable
  | .insert b, t => .ok (t.insert b).2
  | .allocateId, t => .ok t.allocateId.2
  | .remove id, t => .ok (t.remove id).2
  | .truncatedTo frame, t => .ok (t.truncatedTo frame)
  | .reload, t => BookmarkTable.decode t.encode

/-- What an operation is given: an inserted bookmark does not get the largest id, and a table that is
written fits in memory. -/
def Op.Fits : Op → BookmarkTable → Prop
  | .insert b, t => t.Insertable b
  | .reload, t => t.encode.length < 2 ^ 64
  | _, _ => True

instance : (op : Op) → (t : BookmarkTable) → Decidable (op.Fits t)
  | .insert b, t => inferInstanceAs (Decidable (t.Insertable b))
  | .reload, t => inferInstanceAs (Decidable (t.encode.length < 2 ^ 64))
  | .allocateId, _ | .remove _, _ | .truncatedTo _, _ => isTrue trivial

/-- **An operation keeps a table well formed.** -/
theorem WellFormed.exec (h : t.WellFormed) {op : Op} (hop : op.Fits t) :
    ∃ t', op.exec t = .ok t' ∧ t'.WellFormed := by
  cases op with
  | insert b => exact ⟨_, rfl, h.insert hop⟩
  | allocateId => exact ⟨_, rfl, h.allocateId⟩
  | remove id => exact ⟨_, rfl, h.remove id⟩
  | truncatedTo frame => exact ⟨_, rfl, h.truncatedTo frame⟩
  | reload => exact ⟨t, h.decode_encode hop, h⟩

/-- The next step of a run: nothing follows a table that could not be read back. -/
def step (op : Op) (result : Except PacketReadError BookmarkTable) :
    Except PacketReadError BookmarkTable :=
  result >>= op.exec

/-- What each step of a run is given. -/
def FitsStep (op : Op) (result : Except PacketReadError BookmarkTable) : Prop :=
  ∀ t, result = .ok t → op.Fits t

/-- **A run keeps a table well formed**, and so its new ids unused and its bytes readable, if no
bookmark in it gets the largest id. -/
theorem wellFormed_run {ops : List Op} (hstarted : Started t)
    (hops : Runs.Along step FitsStep ops (.ok t)) :
    ∃ t', Runs.run step ops (.ok t) = .ok t' ∧ t'.WellFormed ∧
      (∀ b ∈ t'.bookmarks, b.id ≠ t'.allocateId.1) ∧
      (t'.encode.length < 2 ^ 64 → BookmarkTable.decode t'.encode = .ok t') := by
  have hrun := Runs.run_along (Q := fun result ↦ ∃ t', result = .ok t' ∧ t'.WellFormed)
    (fun op result ⟨t', hresult, hwell⟩ hfits ↦ by
      rw [hresult]
      exact hwell.exec (hfits t' hresult)) hops ⟨t, rfl, hstarted.wellFormed⟩
  obtain ⟨t', hresult, hwell⟩ := hrun
  exact ⟨t', hresult, hwell, hwell.allocateId_not_mem.2, hwell.decode_encode⟩

/-- A bookmark of frame `frame` with an id, for runs on fixed tables. -/
def pointAt (id frame : UnsignedInteger) : Bookmark := ⟨id, "", 0, frame, 0, none, false⟩

theorem wellFormed_run_two :
    ∃ t', Runs.run step [.insert (pointAt 0 5), .insert (pointAt 9 2), .remove 1, .allocateId]
        (.ok .new) = .ok t' ∧ t'.WellFormed ∧
      (∀ b ∈ t'.bookmarks, b.id ≠ t'.allocateId.1) ∧
      (t'.encode.length < 2 ^ 64 → BookmarkTable.decode t'.encode = .ok t') := by
  refine wellFormed_run .new ⟨?_, ?_, ?_, ?_, trivial⟩
  · rintro t ⟨⟩
    decide
  · rintro t ⟨⟩
    decide
  · exact fun _ _ ↦ trivial
  · exact fun _ _ ↦ trivial

/-- **The largest id is given twice**: the bookmark that got it leaves no id above its own, and the
next new id is the one it has. -/
theorem largest_id_twice :
    let max : UnsignedInteger := UInt64.ofNat (2 ^ 64 - 1)
    let t := (BookmarkTable.new.insert (pointAt max 5)).2
    ¬ t.WellFormed ∧ t.bookmarks = [pointAt max 5] ∧ t.allocateId.1 = max := by
  refine ⟨fun h ↦ ?_, by decide, by decide⟩
  exact absurd (h.above (pointAt (UInt64.ofNat (2 ^ 64 - 1)) 5) (by decide)) (by decide)

end BookmarkTable

end SuperShuckie
