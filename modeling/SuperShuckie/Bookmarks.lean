import SuperShuckie.Packet.Primitives

/-!
# Replay bookmarks

A replay's bookmarks are one `BookmarkTable`, written to the stream as a whole whenever it changes
and once more in a section of its own at the end of a closed file.  Its records are length-prefixed,
and a reader ignores what follows the fields it knows, both in a record and in the table.

`BookmarkTable.decode_encode` says what comes back: the table sorted and with a `nextId` above
every id in it (`BookmarkTable.normalised`), which is the table itself when it was so already.
-/

set_option autoImplicit false

namespace SuperShuckie

open ByteFormat ByteFormat.Reader

/-- Encoding version of a table. -/
def bookmarkTableFormat : Nat := 1

def flagHasOut : UnsignedInteger := 1
def flagKeyframe : UnsignedInteger := 2

/-- Run a reader on a record of its own; what it leaves belongs to a newer writer. -/
def decodeRecord {α : Type} (read : PacketReader α) (record : Bytes) : Except PacketReadError α :=
  (read record).map Prod.fst

/-- Read a length-prefixed record. -/
def readRecord {α : Type} (decode : Bytes → Except PacketReadError α) : PacketReader α := do
  let record ← ByteVec.readAll
  match decode record with
  | .ok a => pure a
  | .error e => throw e

/-! ## Records -/

/-- The flags of a bookmark: whether it is a range, and whether it has a keyframe of its own. -/
def bookmarkFlags (hasOut keyframe : Bool) : UnsignedInteger :=
  (if hasOut then flagHasOut else 0) ||| (if keyframe then flagKeyframe else 0)

theorem bookmarkFlags_and (hasOut keyframe : Bool) :
    (bookmarkFlags hasOut keyframe &&& flagHasOut ≠ 0 ↔ hasOut = true) ∧
      (bookmarkFlags hasOut keyframe &&& flagKeyframe ≠ 0 ↔ keyframe = true) := by
  revert hasOut keyframe
  decide

def Bookmark.encode (b : Bookmark) : Bytes :=
  let flags := bookmarkFlags b.out.isSome b.keyframe
  let out := b.out.getD (0, 0)
  UnsignedInteger.write b.id ++ (Str.write b.name ++ (UnsignedInteger.write b.typeId ++
    (UnsignedInteger.write b.inFrame ++ (UnsignedInteger.write b.inMillis ++
      (UnsignedInteger.write flags ++ (UnsignedInteger.write out.1 ++
        UnsignedInteger.write out.2))))))

def Bookmark.readAll : PacketReader Bookmark := do
  let id ← UnsignedInteger.readAll
  let name ← Str.readAll
  let typeId ← UnsignedInteger.readAll
  let inFrame ← UnsignedInteger.readAll
  let inMillis ← UnsignedInteger.readAll
  let flags ← UnsignedInteger.readAll
  let outFrame ← UnsignedInteger.readAll
  let outMillis ← UnsignedInteger.readAll
  pure
    { id, name, typeId, inFrame, inMillis
      out := if flags &&& flagHasOut ≠ 0 then some (outFrame, outMillis) else none
      keyframe := decide (flags &&& flagKeyframe ≠ 0) }

def Bookmark.decode (record : Bytes) : Except PacketReadError Bookmark :=
  decodeRecord Bookmark.readAll record

def BookmarkTypeRecord.encode (t : BookmarkTypeRecord) : Bytes :=
  UnsignedInteger.write t.id ++ (Str.write t.name ++ U32.write t.color)

def BookmarkTypeRecord.readAll : PacketReader BookmarkTypeRecord := do
  let id ← UnsignedInteger.readAll
  let name ← Str.readAll
  let color ← U32.readAll
  pure ⟨id, name, color⟩

def BookmarkTypeRecord.decode (record : Bytes) : Except PacketReadError BookmarkTypeRecord :=
  decodeRecord BookmarkTypeRecord.readAll record

theorem Bookmark.reads {b : Bookmark} (h : b.encode.length < 2 ^ 64) :
    Reads Bookmark.readAll b.encode b := by
  have hname : (Str.write b.name).length < 2 ^ 64 := by
    simp only [Bookmark.encode, List.length_append] at h
    omega
  refine (UnsignedInteger.reads _).bind <| (Str.reads hname).bind <| (UnsignedInteger.reads _).bind <|
    (UnsignedInteger.reads _).bind <| (UnsignedInteger.reads _).bind <|
    (UnsignedInteger.reads _).bind <| (UnsignedInteger.reads _).bind ?_
  rw [← List.append_nil (UnsignedInteger.write _)]
  refine (UnsignedInteger.reads _).bind ?_
  obtain ⟨hout, hkeyframe⟩ := bookmarkFlags_and b.out.isSome b.keyframe
  simp only [hout, hkeyframe, Bool.decide_eq_true]
  obtain ⟨id, name, typeId, inFrame, inMillis, out, keyframe⟩ := b
  cases out <;> exact reads_pure _

theorem BookmarkTypeRecord.reads {t : BookmarkTypeRecord} (h : t.encode.length < 2 ^ 64) :
    Reads BookmarkTypeRecord.readAll t.encode t := by
  simp only [BookmarkTypeRecord.encode, List.length_append] at h
  exact (UnsignedInteger.reads _).bind <| (Str.reads (by omega)).bind (U32.reads _).bind_pure

theorem decodeRecord_of_reads {α : Type} {read : PacketReader α} {bs : Bytes} {a : α}
    (h : Reads read bs a) (trailing : Bytes) : decodeRecord read (bs ++ trailing) = .ok a := by
  rw [decodeRecord, h trailing]
  rfl

theorem reads_readRecord {α : Type} {decode : Bytes → Except PacketReadError α} {record : Bytes}
    {a : α} (hlen : (ByteVec.write record).length < 2 ^ 64) (h : decode record = .ok a) :
    Reads (readRecord decode) (ByteVec.write record) a := by
  rw [← List.append_nil (ByteVec.write record)]
  refine (ByteVec.reads hlen).bind ?_
  simp only [h]
  exact reads_pure a

theorem stable_readRecord {α : Type} (decode : Bytes → Except PacketReadError α) :
    Stable (readRecord decode) := by
  refine ByteVec.stable.bind fun record ↦ ?_
  cases decode record with
  | ok a => exact stable_pure a
  | error e => exact stable_throw e

/-! ## The table -/

/-- The order of the bookmarks in a table: by `(in_frame, id)`. -/
def Bookmark.before (a b : Bookmark) : Bool :=
  decide (a.inFrame < b.inFrame) || (a.inFrame == b.inFrame && decide (a.id ≤ b.id))

/-- Sort the bookmarks by `(in_frame, id)`, bookmarks with the same key staying in their order. -/
def BookmarkTable.sort (t : BookmarkTable) : BookmarkTable :=
  { t with bookmarks := t.bookmarks.insertionSort fun a b ↦ a.before b }

/-- `u64::saturating_add(1)`. -/
def saturatingSucc (n : UnsignedInteger) : UnsignedInteger :=
  if n.toNat + 1 < 2 ^ 64 then n + 1 else n

/-- What `decode` makes of the fields it has read: the bookmarks sorted, and the next id above every
id in use. -/
def BookmarkTable.normalised (t : BookmarkTable) : BookmarkTable :=
  let t := t.sort
  let highest := t.bookmarks.foldl (fun highest b ↦ max highest b.id) 0
  { t with nextId := max (max t.nextId (saturatingSucc highest)) 1 }

/-- The table as bytes: the payload of both the bookmark section and a `bookmarkTable` packet. -/
def BookmarkTable.encode (t : BookmarkTable) : Bytes :=
  U32.write (UInt32.ofNat bookmarkTableFormat) ++ (UnsignedInteger.write t.nextId ++
    (Vec.write (fun r ↦ ByteVec.write r.encode) t.types ++
      Vec.write (fun b ↦ ByteVec.write b.encode) t.bookmarks))

/-- The fields of a table. -/
def BookmarkTable.readFields : PacketReader BookmarkTable := do
  let format ← U32.readAll
  if format.toNat = 0 ∨ bookmarkTableFormat < format.toNat then
    throw (.parseFail s!"unsupported bookmark table format {format.toNat}")
  else
    let nextId ← UnsignedInteger.readAll
    let types ← Vec.readAll (readRecord BookmarkTypeRecord.decode)
    let bookmarks ← Vec.readAll (readRecord Bookmark.decode)
    pure ⟨nextId, types, bookmarks⟩

/-- Parse a table written by `encode`.  Bytes after the table are ignored. -/
def BookmarkTable.decode (bytes : Bytes) : Except PacketReadError BookmarkTable :=
  (decodeRecord BookmarkTable.readFields bytes).map BookmarkTable.normalised

theorem ByteVec.write_ne_nil (bytes : ByteVec) : ByteVec.write bytes ≠ [] := by
  simp [ByteVec.write, Usize.write, UnsignedInteger.write_ne_nil]

theorem BookmarkTable.reads_fields {t : BookmarkTable} (h : t.encode.length < 2 ^ 64) :
    Reads BookmarkTable.readFields t.encode t := by
  simp only [BookmarkTable.encode, List.length_append] at h
  have htypes : Reads (Vec.readAll (readRecord BookmarkTypeRecord.decode))
      (Vec.write (fun r ↦ ByteVec.write r.encode) t.types) t.types := by
    refine Vec.reads (fun r _ ↦ ByteVec.write_ne_nil _) (fun r _ hr ↦ ?_) (by omega)
    refine reads_readRecord hr ?_
    rw [ByteVec.write, List.length_append] at hr
    have hdec := decodeRecord_of_reads (BookmarkTypeRecord.reads (t := r) (by omega)) []
    rwa [List.append_nil] at hdec
  have hbookmarks : Reads (Vec.readAll (readRecord Bookmark.decode))
      (Vec.write (fun b ↦ ByteVec.write b.encode) t.bookmarks) t.bookmarks := by
    refine Vec.reads (fun b _ ↦ ByteVec.write_ne_nil _) (fun b _ hb ↦ ?_) (by omega)
    refine reads_readRecord hb ?_
    rw [ByteVec.write, List.length_append] at hb
    have hdec := decodeRecord_of_reads (Bookmark.reads (b := b) (by omega)) []
    rwa [List.append_nil] at hdec
  refine (U32.reads _).bind ?_
  rw [if_neg (by decide)]
  exact (UnsignedInteger.reads _).bind <| htypes.bind hbookmarks.bind_pure

/-- **A table comes back as it was, sorted and with a next id above its ids.** -/
theorem BookmarkTable.decode_encode {t : BookmarkTable} (h : t.encode.length < 2 ^ 64)
    (trailing : Bytes) : BookmarkTable.decode (t.encode ++ trailing) = .ok t.normalised := by
  rw [BookmarkTable.decode, decodeRecord_of_reads (BookmarkTable.reads_fields h)]
  rfl

/-- `PacketIO` of a table: length-prefixed, so that a reader can skip what a newer writer appends. -/
def BookmarkTable.write (t : BookmarkTable) : Bytes := ByteVec.write t.encode

def BookmarkTable.readAll : PacketReader BookmarkTable := readRecord BookmarkTable.decode

theorem BookmarkTable.reads {t : BookmarkTable} (h : t.write.length < 2 ^ 64) :
    Reads BookmarkTable.readAll t.write t.normalised := by
  refine reads_readRecord h ?_
  rw [BookmarkTable.write, ByteVec.write, List.length_append] at h
  have hdec := BookmarkTable.decode_encode (t := t) (by omega) []
  rwa [List.append_nil] at hdec

theorem BookmarkTable.stable : Stable BookmarkTable.readAll := stable_readRecord _

end SuperShuckie
