import SuperShuckie.Packet.IO

/-!
# The round trip of a packet

Reading takes from a stream exactly what was written of a packet, its frame included, and gives back
the packet itself (`Packet.readAll_write`), for every packet that the writer can produce.

A bookmark table comes back in its normal form (`BookmarkTable.normalised`).  A table that is sorted,
with its next id above every id and not zero, is in normal form already; the next id of an empty
table may be written as zero, and then comes back as one.
-/

set_option autoImplicit false

namespace SuperShuckie

open ByteFormat ByteFormat.Reader

/-! ## Bookmark tables in normal form -/

/-- A table as the program keeps it: sorted, and with the next id above every id in use. -/
structure BookmarkTable.Kept (t : BookmarkTable) : Prop where
  sorted : t.bookmarks.Pairwise fun a b ↦ a.before b = true
  nextId : ∀ b ∈ t.bookmarks, b.id < t.nextId

theorem max_eq_ite (a b : UnsignedInteger) : max a b = if a ≤ b then b else a := rfl

/-- The highest id of a table is zero or one of its ids. -/
theorem foldl_max_id_lt {bookmarks : List Bookmark} {highest n : UnsignedInteger}
    (hhighest : highest < n) (h : ∀ b ∈ bookmarks, b.id < n) :
    bookmarks.foldl (fun highest b ↦ max highest b.id) highest < n := by
  induction bookmarks generalizing highest with
  | nil => exact hhighest
  | cons b bookmarks ih =>
    refine ih ?_ fun b' hb' ↦ h b' (List.mem_cons_of_mem _ hb')
    dsimp only
    rw [max_eq_ite]
    split
    · exact h b List.mem_cons_self
    · exact hhighest

theorem saturatingSucc_le_of_lt {a n : UnsignedInteger} (h : a < n) : saturatingSucc a ≤ n := by
  rw [UInt64.lt_iff_toNat_lt] at h
  rw [saturatingSucc, UInt64.le_iff_toNat_le]
  split
  · rename_i hlt
    rw [UInt64.toNat_add, show (1 : UInt64).toNat = 1 from rfl, Nat.mod_eq_of_lt hlt]
    omega
  · omega

theorem BookmarkTable.sort_eq {t : BookmarkTable} (h : t.Kept) : t.sort = t := by
  rw [BookmarkTable.sort, h.sorted.insertionSort_eq]

/-- **A kept table is in normal form**, unless its next id is zero. -/
theorem BookmarkTable.normalised_eq {t : BookmarkTable} (h : t.Kept) (hnext : t.nextId ≠ 0) :
    t.normalised = t := by
  have hpos : (0 : UnsignedInteger) < t.nextId := by
    rw [UInt64.lt_iff_toNat_lt]
    have : t.nextId.toNat ≠ 0 := fun hzero ↦ hnext (UInt64.toNat_inj.mp hzero)
    exact Nat.pos_of_ne_zero this
  have hhighest := saturatingSucc_le_of_lt (foldl_max_id_lt hpos h.nextId)
  have hone : (1 : UnsignedInteger) ≤ t.nextId := by
    rw [UInt64.lt_iff_toNat_lt] at hpos
    rw [UInt64.le_iff_toNat_le]
    exact hpos
  have hmax : max t.nextId (saturatingSucc (t.bookmarks.foldl (fun highest b ↦ max highest b.id) 0)) =
      t.nextId := by
    rw [max_eq_ite]
    split
    · rename_i hle
      exact UInt64.le_antisymm hhighest hle
    · rfl
  have hmax' : max t.nextId 1 = t.nextId := by
    rw [max_eq_ite]
    split
    · rename_i hle
      exact UInt64.le_antisymm hone hle
    · rfl
  rw [BookmarkTable.normalised, BookmarkTable.sort_eq h, hmax, hmax']

/-! ## Packets -/

/-- A packet that the writer can produce. -/
def Packet.Producible : Packet → Prop
  | .serialIn data => data.length ≤ maxSerialInBytes
  | .bookmarkTable table => table.Kept ∧ table.nextId ≠ 0
  | .thumbnail picture => ¬ (picture.jpeg = true ∧ picture.againstPrevious = true)
  | .storedKeyframe k => k.frameOffset = 0
  | _ => True

/-- How many bytes follow the write instructions of a packet: the frame of a stored keyframe. -/
def Packet.frameLen : Packet → Nat
  | .storedKeyframe k => k.frameLen.toNat
  | _ => 0

/-- A producible packet that no frame follows is read back from its write instructions, as it is. -/
theorem Packet.Producible.readBack_eq {p : Packet} (hp : p.Producible)
    (hstored : ∀ k, p ≠ .storedKeyframe k) : p.Readable ∧ p.readBack = p := by
  cases p with
  | serialIn data => exact ⟨hp, rfl⟩
  | bookmarkTable table =>
    refine ⟨trivial, ?_⟩
    rw [Packet.readBack, BookmarkTable.normalised_eq hp.1 hp.2]
  | thumbnail picture =>
    refine ⟨trivial, ?_⟩
    obtain ⟨f, tw, th, bw, bh, top, bottom, againstPrevious, jpeg⟩ := picture
    cases jpeg with
    | false => simp [Packet.readBack]
    | true =>
      cases againstPrevious with
      | false => rfl
      | true => exact (hp ⟨rfl, rfl⟩).elim
  | storedKeyframe k => exact (hstored k rfl).elim
  | _ => exact ⟨trivial, rfl⟩

/-- **Packet round trip.** Reading takes what was written of a packet, with the frame that follows
it, and leaves what comes after.  The bytes written fit into memory. -/
theorem Packet.readAll_write {p : Packet} {version : Nat}
    (hversion : version = replayVersion ∨ version = replayVersionNintendo3DS) (hp : p.Producible)
    {frame : Bytes} (hframe : frame.length = p.frameLen) (hlen : p.write.length < 2 ^ 64)
    (trailing : Bytes) :
    Packet.readAll version (p.write ++ frame ++ trailing) = .ok (p, trailing) := by
  have hv : 3 ≤ version := by
    rcases hversion with rfl | rfl <;> decide
  by_cases hstored : ∃ k, p = .storedKeyframe k
  · obtain ⟨k, rfl⟩ := hstored
    have hoffset : k.frameOffset = 0 := hp
    have hread := Packet.reads_storedKeyframe hv hlen hframe trailing
    rwa [← hoffset] at hread
  · have hnot : ∀ k, p ≠ .storedKeyframe k := fun k hk ↦ hstored ⟨k, hk⟩
    obtain ⟨hreadable, hback⟩ := hp.readBack_eq hnot
    have hnil : frame = [] := by
      refine List.length_eq_zero_iff.mp ?_
      rw [hframe]
      cases p with
    | storedKeyframe k => exact (hnot k rfl).elim
    | _ => rfl
    have hread := Packet.reads hv hreadable hlen trailing
    rwa [hback, ← List.append_nil p.write, ← hnil] at hread

/-- A stored keyframe of a Nintendo 3DS file, with its frame and what comes after. -/
theorem Packet.readAll_write_storedKeyframe :
    let p : Packet := .storedKeyframe
      { metadata := ⟨[1, 2], Speed.default, 3, 50, [⟨"deaths", -1⟩]⟩
        level := 2, stateLen := 300, uncompressedLen := 128, frameLen := 2, frameOffset := 0 }
    Packet.readAll replayVersionNintendo3DS (p.write ++ [7, 8] ++ [9]) = .ok (p, [9]) := by
  intro p
  have hp : p.Producible := rfl
  exact Packet.readAll_write (.inr rfl) hp rfl (by decide +kernel) [9]

/-- **The next id of an empty table is not read back when it is zero**: it comes back as one. -/
theorem Packet.readAll_write_nextId_zero :
    let table : BookmarkTable := ⟨0, [], []⟩
    table.Kept ∧ Packet.bookmarkTable ⟨1, [], []⟩ ≠ Packet.bookmarkTable table ∧
      Packet.readAll replayVersion (Packet.bookmarkTable table).write =
        .ok (.bookmarkTable ⟨1, [], []⟩, []) := by
  refine ⟨⟨.nil, fun b hb ↦ by cases hb⟩, by decide, ?_⟩
  decide +kernel

end SuperShuckie
