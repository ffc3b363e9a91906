import SuperShuckie.Packet.RoundTrip

/-!
# The bookmark section

A closed replay ends with its bookmark table in a section of its own: a magic number, a format, the
length of the table, its hash and the table.  A section that does not check out is treated as
missing.  The hash function is a parameter.

Every byte of a section is checked against the others: what `decodeBookmarkSection` accepts is the
section of its own payload (`eq_sectionOf_of_ok`).  So a table comes back from its section, and
nothing is read from a section that was cut, extended or changed outside of its hash
(`section_round_trip`).
-/

set_option autoImplicit false

namespace SuperShuckie

open ByteFormat

def bookmarkSectionMagic : Bytes := [0x53, 0x53, 0x42, 0x4D]
def bookmarkSectionFormat : Nat := 1
def bookmarkSectionHeaderLen : Nat := 0x30

/-- Why a bookmark section could not be read. -/
inductive BookmarkSectionError
  | truncated
  | badMagic
  | unsupportedFormat (format : Nat)
  | lengthMismatch (recorded present : Nat)
  | hashMismatch
  | badPayload (explanation : String)
deriving DecidableEq

variable (blake3 : Bytes → FixedBytes 32)

/-- A table as a complete section. -/
def encodeBookmarkSection (table : BookmarkTable) : Bytes :=
  let payload := table.encode
  bookmarkSectionMagic ++ (leBytes 4 bookmarkSectionFormat ++ (leBytes 8 payload.length ++
    ((blake3 payload).bytes ++ payload)))

/-- Parse a section, which runs from the end of the packet stream to the end of the file. -/
def decodeBookmarkSection (data : Bytes) : Except BookmarkSectionError BookmarkTable :=
  if data.length < bookmarkSectionHeaderLen then .error .truncated
  else
    let payload := data.drop bookmarkSectionHeaderLen
    let format := ofLeBytes ((data.drop 4).take 4)
    let recorded := ofLeBytes ((data.drop 8).take 8)
    if data.take 4 ≠ bookmarkSectionMagic then .error .badMagic
    else if format ≠ bookmarkSectionFormat then .error (.unsupportedFormat format)
    else if recorded ≠ payload.length then .error (.lengthMismatch recorded payload.length)
    else if (data.drop 0x10).take 32 ≠ (blake3 payload).bytes then .error .hashMismatch
    else
      match BookmarkTable.decode payload with
      | .ok table => .ok table
      | .error .notEnoughData => .error (.badPayload "not enough data")
      | .error (.parseFail explanation) => .error (.badPayload explanation)

/-! ## What is accepted -/

/-- A payload in a section. -/
def sectionOf (payload : Bytes) : Bytes :=
  bookmarkSectionMagic ++ (leBytes 4 bookmarkSectionFormat ++ (leBytes 8 payload.length ++
    ((blake3 payload).bytes ++ payload)))

variable {blake3} {payload data : Bytes} {table : BookmarkTable}

theorem length_sectionOf :
    (sectionOf blake3 payload).length = bookmarkSectionHeaderLen + payload.length := by
  have hmagic : bookmarkSectionMagic.length = 4 := rfl
  simp only [sectionOf, List.length_append, length_leBytes, (blake3 payload).length_eq, hmagic,
    bookmarkSectionHeaderLen]
  omega

/-- What stands behind the first `n` bytes. -/
theorem drop_append_length {a rest : Bytes} {n : Nat} (h : a.length = n) (k : Nat) :
    (a ++ rest).drop (n + k) = rest.drop k := by
  rw [← List.drop_drop, ← h, List.drop_left]

theorem take_append_length {a rest : Bytes} {n : Nat} (h : a.length = n) :
    (a ++ rest).take n = a := by
  rw [← h, List.take_left]

theorem magic_sectionOf : (sectionOf blake3 payload).take 4 = bookmarkSectionMagic :=
  take_append_length rfl

theorem format_sectionOf :
    ((sectionOf blake3 payload).drop 4).take 4 = leBytes 4 bookmarkSectionFormat := by
  have hdrop : (sectionOf blake3 payload).drop 4 = leBytes 4 bookmarkSectionFormat ++
      (leBytes 8 payload.length ++ ((blake3 payload).bytes ++ payload)) :=
    drop_append_length (show bookmarkSectionMagic.length = 4 from rfl) 0
  rw [hdrop, take_append_length (length_leBytes _ _)]

theorem drop_eight_sectionOf : (sectionOf blake3 payload).drop 8 =
    leBytes 8 payload.length ++ ((blake3 payload).bytes ++ payload) := by
  rw [sectionOf, drop_append_length (n := 4) rfl 4,
    drop_append_length (n := 4) (length_leBytes _ _) 0, List.drop_zero]

theorem recorded_sectionOf :
    ((sectionOf blake3 payload).drop 8).take 8 = leBytes 8 payload.length := by
  rw [drop_eight_sectionOf, take_append_length (length_leBytes _ _)]

theorem drop_sixteen_sectionOf :
    (sectionOf blake3 payload).drop 0x10 = (blake3 payload).bytes ++ payload := by
  show (sectionOf blake3 payload).drop (8 + 8) = _
  rw [← List.drop_drop, drop_eight_sectionOf, drop_append_length (n := 8) (length_leBytes _ _) 0,
    List.drop_zero]

theorem hash_sectionOf :
    ((sectionOf blake3 payload).drop 0x10).take 32 = (blake3 payload).bytes := by
  rw [drop_sixteen_sectionOf, take_append_length (blake3 payload).length_eq]

theorem payload_sectionOf : (sectionOf blake3 payload).drop bookmarkSectionHeaderLen = payload := by
  show (sectionOf blake3 payload).drop (0x10 + 32) = _
  rw [← List.drop_drop, drop_sixteen_sectionOf,
    drop_append_length (n := 32) (blake3 payload).length_eq 0, List.drop_zero]

/-- A section checks out, and its payload decides. -/
theorem decodeBookmarkSection_sectionOf (hlen : payload.length < 2 ^ 64)
    (h : BookmarkTable.decode payload = .ok table) :
    decodeBookmarkSection blake3 (sectionOf blake3 payload) = .ok table := by
  have hformat : ofLeBytes (leBytes 4 bookmarkSectionFormat) = bookmarkSectionFormat :=
    ofLeBytes_leBytes (by decide)
  have hrecorded : ofLeBytes (leBytes 8 payload.length) = payload.length :=
    ofLeBytes_leBytes (by omega)
  have hlong : ¬ (sectionOf blake3 payload).length < bookmarkSectionHeaderLen := by
    rw [length_sectionOf]
    omega
  rw [decodeBookmarkSection, if_neg hlong]
  simp only [payload_sectionOf, format_sectionOf, recorded_sectionOf, hash_sectionOf,
    magic_sectionOf, hformat, hrecorded, ne_eq, not_true_eq_false, if_false, h]

/-- **Every byte is checked**: what is accepted is the section of its own payload. -/
theorem eq_sectionOf_of_ok (h : decodeBookmarkSection blake3 data = .ok table) :
    data = sectionOf blake3 (data.drop bookmarkSectionHeaderLen) ∧
      (data.drop bookmarkSectionHeaderLen).length < 2 ^ 64 := by
  rw [decodeBookmarkSection] at h
  dsimp only at h
  split_ifs at h with hlong hmagic hformat hrecorded hhash
  simp only [ne_eq, not_not] at hmagic hformat hrecorded hhash
  have hlen : bookmarkSectionHeaderLen ≤ data.length := Nat.not_lt.1 hlong
  have hheader : bookmarkSectionHeaderLen = 0x30 := rfl
  have hfour : ((data.drop 4).take 4).length = 4 := by
    rw [List.length_take, List.length_drop]
    omega
  have height : ((data.drop 8).take 8).length = 8 := by
    rw [List.length_take, List.length_drop]
    omega
  have hformat' : (data.drop 4).take 4 = leBytes 4 bookmarkSectionFormat := by
    rw [← leBytes_ofLeBytes ((data.drop 4).take 4), hfour, hformat]
  have hrecorded' : (data.drop 8).take 8 =
      leBytes 8 (data.drop bookmarkSectionHeaderLen).length := by
    rw [← leBytes_ofLeBytes ((data.drop 8).take 8), height, hrecorded]
  have hshort : (data.drop bookmarkSectionHeaderLen).length < 2 ^ 64 := by
    have hlt := ofLeBytes_lt ((data.drop 8).take 8)
    rw [hrecorded, height] at hlt
    omega
  refine ⟨?_, hshort⟩
  rw [sectionOf, ← hmagic, ← hformat', ← hrecorded', ← hhash, hheader]
  have hjoin : ∀ n k, data.drop n = (data.drop n).take k ++ data.drop (n + k) := by
    intro n k
    rw [← List.drop_drop, List.take_append_drop]
  calc data = data.take 4 ++ data.drop 4 := (List.take_append_drop 4 data).symm
    _ = data.take 4 ++ ((data.drop 4).take 4 ++ data.drop 8) :=
      congrArg (data.take 4 ++ ·) (hjoin 4 4)
    _ = data.take 4 ++ ((data.drop 4).take 4 ++ ((data.drop 8).take 8 ++
          data.drop 16)) :=
      congrArg (fun rest ↦ data.take 4 ++ ((data.drop 4).take 4 ++ rest)) (hjoin 8 8)
    _ = _ := congrArg (fun rest ↦ data.take 4 ++ ((data.drop 4).take 4 ++
      ((data.drop 8).take 8 ++ rest))) (hjoin 16 32)

/-! ## What comes back -/

/-- What can happen to a section: it is cut, something is appended, or bytes outside of the stored
hash change. -/
def Altered (original data : Bytes) : Prop :=
  (∃ n, data = original.take n) ∨ (∃ more, data = original ++ more) ∨
    (data.length = original.length ∧ (data.drop 0x10).take 32 = (original.drop 0x10).take 32)

/-- The length that a section records fixes its own. -/
theorem length_eq_of_recorded {other : Bytes} (hlen : payload.length < 2 ^ 64)
    (hother : other.length < 2 ^ 64)
    (h : ((sectionOf blake3 other).drop 8).take 8 = ((sectionOf blake3 payload).drop 8).take 8) :
    (sectionOf blake3 other).length = (sectionOf blake3 payload).length := by
  rw [recorded_sectionOf, recorded_sectionOf] at h
  have heq := congrArg ofLeBytes h
  rw [ofLeBytes_leBytes (by omega), ofLeBytes_leBytes (by omega)] at heq
  rw [length_sectionOf, length_sectionOf, heq]

/-- **An altered section is refused**, unless its payload has the hash of the original one. -/
theorem decodeBookmarkSection_altered (hlen : payload.length < 2 ^ 64)
    (halt : Altered (sectionOf blake3 payload) data) (hne : data ≠ sectionOf blake3 payload)
    (hcollision : blake3 (data.drop bookmarkSectionHeaderLen) = blake3 payload →
      data.drop bookmarkSectionHeaderLen = payload) :
    ∃ e, decodeBookmarkSection blake3 data = .error e := by
  cases hdecode : decodeBookmarkSection blake3 data with
  | error e => exact ⟨e, rfl⟩
  | ok table =>
    obtain ⟨heq, hshort⟩ := eq_sectionOf_of_ok hdecode
    generalize data.drop bookmarkSectionHeaderLen = other at heq hcollision hshort
    subst heq
    exfalso
    obtain ⟨n, hcut⟩ | ⟨more, hmore⟩ | ⟨-, hhash⟩ := halt
    · by_cases hn : (sectionOf blake3 payload).length ≤ n
      · exact hne (hcut.trans (List.take_of_length_le hn))
      · have hlength := congrArg List.length hcut
        rw [List.length_take, Nat.min_eq_left (by omega), length_sectionOf,
          bookmarkSectionHeaderLen] at hlength
        have hsame : ((sectionOf blake3 other).drop 8).take 8 =
            ((sectionOf blake3 payload).drop 8).take 8 := by
          rw [hcut, List.drop_take, List.take_take, Nat.min_eq_left (by omega)]
        have heq := length_eq_of_recorded hlen hshort hsame
        rw [length_sectionOf, bookmarkSectionHeaderLen] at heq
        omega
    · have hlong : 16 ≤ (sectionOf blake3 payload).length := by
        rw [length_sectionOf, bookmarkSectionHeaderLen]
        omega
      have hsame : ((sectionOf blake3 other).drop 8).take 8 =
          ((sectionOf blake3 payload).drop 8).take 8 := by
        rw [hmore, List.drop_append_of_le_length (by omega),
          List.take_append_of_le_length (by rw [List.length_drop]; omega)]
      have heq := length_eq_of_recorded hlen hshort hsame
      rw [hmore, List.length_append, Nat.add_eq_left, List.length_eq_zero_iff] at heq
      rw [heq, List.append_nil] at hmore
      exact hne hmore
    · rw [hash_sectionOf, hash_sectionOf] at hhash
      have hfixed : blake3 other = blake3 payload := FixedBytes.ext_bytes hhash
      exact hne (congrArg (sectionOf blake3) (hcollision hfixed))

/-- **A table comes back from its section**, if its next id is not zero, and an altered section is
refused. -/
theorem section_round_trip (h : table.Kept) (hnext : table.nextId ≠ 0)
    (hlen : table.encode.length < 2 ^ 64) :
    decodeBookmarkSection blake3 (encodeBookmarkSection blake3 table) = .ok table ∧
      ∀ altered, Altered (encodeBookmarkSection blake3 table) altered →
        altered ≠ encodeBookmarkSection blake3 table →
        (blake3 (altered.drop bookmarkSectionHeaderLen) = blake3 table.encode →
          altered.drop bookmarkSectionHeaderLen = table.encode) →
        ∃ e, decodeBookmarkSection blake3 altered = .error e := by
  constructor
  · have hdecode := BookmarkTable.decode_encode hlen []
    rw [List.append_nil, BookmarkTable.normalised_eq h hnext] at hdecode
    exact decodeBookmarkSection_sectionOf hlen hdecode
  · intro altered halt hne hcollision
    exact decodeBookmarkSection_altered hlen halt hne hcollision

/-- One bookmark, in the table of a new replay. -/
def oneBookmark : BookmarkTable := ⟨2, [], [⟨1, "start", 0, 60, 1000, none, false⟩]⟩

theorem section_round_trip_oneBookmark :
    let blake3 := fun _ ↦ FixedBytes.zero 32
    decodeBookmarkSection blake3 (encodeBookmarkSection blake3 oneBookmark) = .ok oneBookmark ∧
      ∀ altered, Altered (encodeBookmarkSection blake3 oneBookmark) altered →
        altered ≠ encodeBookmarkSection blake3 oneBookmark →
        (blake3 (altered.drop bookmarkSectionHeaderLen) = blake3 oneBookmark.encode →
          altered.drop bookmarkSectionHeaderLen = oneBookmark.encode) →
        ∃ e, decodeBookmarkSection blake3 altered = .error e :=
  section_round_trip
    ⟨List.pairwise_singleton _ _, fun b hb ↦ by obtain rfl := List.mem_singleton.1 hb; decide⟩
    (by decide) (by decide)

/-- **A next id of zero does not come back**: a table without bookmarks may have one, and is read
with a next id of one. -/
theorem section_of_zero_nextId :
    BookmarkTable.Kept ⟨0, [], []⟩ ∧
      ∀ blake3 : Bytes → FixedBytes 32,
        decodeBookmarkSection blake3 (encodeBookmarkSection blake3 ⟨0, [], []⟩) ≠ .ok ⟨0, [], []⟩ := by
  refine ⟨⟨List.Pairwise.nil, fun b hb ↦ absurd hb List.not_mem_nil⟩, ?_⟩
  intro blake3
  have hdecode : BookmarkTable.decode (BookmarkTable.encode ⟨0, [], []⟩) = .ok .new := by
    decide +kernel
  have hone : decodeBookmarkSection blake3 (encodeBookmarkSection blake3 ⟨0, [], []⟩) = .ok .new :=
    decodeBookmarkSection_sectionOf (by decide) hdecode
  rw [hone]
  decide

end SuperShuckie
