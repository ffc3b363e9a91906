import SuperShuckie.Player.Opened

/-!
# Timeline pictures

A picture is decoded on its own or against the one before it, back to the one that starts its group.
A player keeps the last one that it decoded and walks back to that one instead when it is on the way
(`thumbnailAtOrBefore`).  What it finds never depends on what it keeps
(`thumbnailsAtOrBefore_eq`).
-/

set_option autoImplicit false

namespace SuperShuckie

open ByteFormat

/-- Both screens of a picture. -/
abbrev Screens := Screen × Screen

/-- A timeline picture as a player hands it out. -/
structure ReplayThumbnail where
  frame : UnsignedInteger
  top : Screen
  bottom : Screen
deriving DecidableEq

/-- The picture that was decoded last, by its place among the pictures. -/
abbrev ThumbnailCache := Option (Nat × Screens)

/-! ## Decoding -/

/-- The largest screen, in bytes. -/
def maxScreenLen : Nat := 16 * 2 ^ 20

section

variable (x : Externals) (decodeJpeg : Bytes → Nat → Nat → Option Bytes)

/-- One screen of a picture, given the same screen of the picture before. -/
def decodeScreen (picture : Thumbnail) (previous : Option Screen) (width height : UnsignedInteger)
    (data : ByteVec) : Option Screen :=
  let w := width.toNat
  let h := height.toNat
  let len := w * h * 2
  if 2 ^ 32 ≤ w ∨ 2 ^ 32 ≤ h ∨ 2 ^ 64 ≤ len then none
  else if len = 0 ∨ maxScreenLen < len then none
  else if picture.jpeg then (decodeJpeg data w h).map fun pixels ↦ (w, h, pixels)
  else if picture.againstPrevious = false then
    (x.zstd.decompressData data len).toOption.map fun pixels ↦ (w, h, pixels)
  else
    match previous with
    | none => none
    | some previous =>
      if previous.1 ≠ w ∨ previous.2.1 ≠ h then none
      else if data.isEmpty then some (w, h, previous.2.2)
      else
        (x.zstd.decompressDataWithPrefix data len previous.2.2).toOption.map fun pixels ↦
          (w, h, pixels)

/-- A picture, given the one before when it is stored against it. -/
def decodeThumbnail (picture : Thumbnail) (previous : Option Screens) : Option Screens := do
  let top ← decodeScreen x decodeJpeg picture (previous.map Prod.fst) picture.topWidth
    picture.topHeight picture.top
  let bottom ← decodeScreen x decodeJpeg picture (previous.map Prod.snd) picture.bottomWidth
    picture.bottomHeight picture.bottom
  pure (top, bottom)

end

/-- A group of pictures that the walk back gives up on is longer than this. -/
def longestWalk : Nat := 4 * 60

namespace OpenedFile

/-- The picture at place `k`. -/
def thumbnail? (file : OpenedFile) (k : Nat) : Option Thumbnail :=
  match file.thumbnails[k]? with
  | none => none
  | some (_, i) =>
    match file.packets[i]? with
    | some (.thumbnail picture) => some picture
    | _ => none

/-- Whether decoding can start at place `first`, and with what before it: at the kept picture's own
place it starts behind it. -/
def startAt (file : OpenedFile) (cache : ThumbnailCache) (first : Nat) :
    Option (Option (Nat × Option Screens)) :=
  match cache.filter fun kept ↦ kept.1 = first with
  | some (_, pictures) => some (some (first + 1, some pictures))
  | none =>
    (file.thumbnail? first).map fun picture ↦
      if picture.againstPrevious then none else some (first, none)

/-- Walk back from place `first` to where decoding starts for the picture at place `at'`. -/
def walkBack (file : OpenedFile) (cache : ThumbnailCache) (at' : Nat) :
    Nat → Option (Nat × Option Screens)
  | 0 => (file.startAt cache 0).bind id
  | before + 1 =>
    match file.startAt cache (before + 1) with
    | none => none
    | some (some start) => some start
    | some none =>
      if longestWalk < at' - (before + 1) then none else file.walkBack cache at' before

section

variable (x : Externals) (decodeJpeg : Bytes → Nat → Nat → Option Bytes)

/-- The pictures from one place on, each given the one before. -/
def decodeThumbnails (file : OpenedFile) (places : List Nat) (previous : Option Screens) :
    Option (Option Screens) :=
  places.foldlM (fun previous i ↦ do
    let picture ← file.thumbnail? i
    let pictures ← decodeThumbnail x decodeJpeg picture previous
    pure (some pictures)) previous

/-- The picture at or before a frame, and what is kept for the next query. -/
def thumbnailAtOrBefore (file : OpenedFile) (frame : UnsignedInteger) (cache : ThumbnailCache) :
    Option ReplayThumbnail × ThumbnailCache :=
  let count := (file.thumbnails.takeWhile fun place ↦ place.1 ≤ frame).length
  if count = 0 then (none, cache)
  else
    let at' := count - 1
    let found := do
      let (first, previous) ← file.walkBack cache at' at'
      let pictures ← file.decodeThumbnails x decodeJpeg (List.range' first (at' + 1 - first)) previous
      pictures
    match found with
    | none => (none, cache)
    | some pictures =>
      (file.thumbnails[at']?.map fun place ↦ ⟨place.1, pictures.1, pictures.2⟩, some (at', pictures))

/-- What a sequence of queries finds. -/
def thumbnailsAtOrBefore (file : OpenedFile) : List UnsignedInteger → ThumbnailCache →
    List (Option ReplayThumbnail)
  | [], _ => []
  | frame :: frames, cache =>
    let (found, cache') := file.thumbnailAtOrBefore x decodeJpeg frame cache
    found :: file.thumbnailsAtOrBefore frames cache'

end

end OpenedFile

/-! ## The index -/

/-- The pictures among some packets. -/
def picturesOf (packets : List Packet) : List Thumbnail :=
  packets.filterMap fun
    | .thumbnail picture => some picture
    | _ => none

theorem picturesOf_append (packets packets' : List Packet) :
    picturesOf (packets ++ packets') = picturesOf packets ++ picturesOf packets' :=
  List.filterMap_append

namespace OpenedFile

namespace PacketIndex

variable {packets : List Packet} {index index' : PacketIndex}

/-- The index of some packets has the frames and the positions of the pictures among them. -/
def Pictured (packets : List Packet) (index : PacketIndex) : Prop :=
  List.Forall₂ (fun place picture ↦
    place.1 = picture.elapsedFrames ∧ packets[place.2]? = some (.thumbnail picture))
    index.thumbnails (picturesOf packets)

/-- More packets follow. -/
theorem Pictured.grow (h : index.Pictured packets) (packet : Packet) :
    List.Forall₂ (fun place picture ↦ place.1 = picture.elapsedFrames ∧
      (packets ++ [packet])[place.2]? = some (.thumbnail picture))
      index.thumbnails (picturesOf packets) := by
  refine h.imp fun place picture hplace ↦ ⟨hplace.1, ?_⟩
  obtain ⟨hlt, -⟩ := List.getElem?_eq_some_iff.mp hplace.2
  rw [List.getElem?_append_left hlt, hplace.2]

/-- A packet that is no picture. -/
theorem Pictured.congr (h : index.Pictured packets) {packet : Packet}
    (hnone : picturesOf [packet] = []) (hsame : index'.thumbnails = index.thumbnails) :
    index'.Pictured (packets ++ [packet]) := by
  rw [Pictured, picturesOf_append, hnone, List.append_nil, hsame]
  exact h.grow packet

theorem Pictured.addThumbnail (h : index.Pictured packets) (picture : Thumbnail) :
    Pictured (packets ++ [.thumbnail picture])
      { index with
        thumbnails := index.thumbnails ++ [(picture.elapsedFrames, packets.length)] } := by
  rw [Pictured, picturesOf_append]
  exact List.rel_append (h.grow _) (.cons ⟨rfl, List.getElem?_concat_length⟩ .nil)

theorem foldl_addKeyframe_thumbnails (keyframes : List KeyframeMetadata) (index : PacketIndex) :
    (keyframes.foldl addKeyframe index).thumbnails = index.thumbnails := by
  induction keyframes generalizing index with
  | nil => rfl
  | cons keyframe keyframes ih => exact ih (index.addKeyframe keyframe)

theorem foldl_addBookmark_thumbnails (bookmarks : List BookmarkMetadata) (index : PacketIndex) :
    (bookmarks.foldl addBookmark index).thumbnails = index.thumbnails := by
  induction bookmarks generalizing index with
  | nil => rfl
  | cons bookmark bookmarks ih => exact ih (index.addBookmark bookmark)

theorem Pictured.add (h : index.Pictured packets) {packet : Packet}
    (hadd : index.add packets.length packet = .ok index') : index'.Pictured (packets ++ [packet]) := by
  cases packet with
  | compressedBlob blob =>
    rw [PacketIndex.add, addBlob] at hadd
    split_ifs at hadd
    cases hadd
    exact h.congr rfl ((foldl_addBookmark_thumbnails blob.bookmarks _).trans
      (foldl_addKeyframe_thumbnails blob.keyframes index))
  | thumbnail picture =>
    cases hadd
    exact h.addThumbnail picture
  | nextFrame delta =>
    rw [PacketIndex.add] at hadd
    split_ifs at hadd
    cases hadd
    exact h.congr rfl rfl
  | _ =>
    cases hadd
    exact h.congr rfl rfl

theorem Pictured.addAll (h : index.Pictured packets) {rest : List Packet}
    (hadd : addAll index packets.length rest = .ok index') : index'.Pictured (packets ++ rest) := by
  induction rest generalizing index packets with
  | nil =>
    cases hadd
    rw [List.append_nil]
    exact h
  | cons packet rest ih =>
    rw [PacketIndex.addAll] at hadd
    cases hone : index.add packets.length packet with
    | error e =>
      rw [hone] at hadd
      cases hadd
    | ok next =>
      rw [hone] at hadd
      have hnext := ih (h.add hone) (by rwa [List.length_append, List.length_singleton])
      rwa [List.append_assoc] at hnext

end PacketIndex

/-- The pictures of a file are where its index says. -/
theorem pictured_of_read {x : Externals} {bytes : Bytes} {source : Option Bytes} {allow : Bool}
    {file : OpenedFile} (h : read x bytes source allow = .ok file) :
    file.thumbnails.map Prod.fst = (picturesOf file.packets).map Thumbnail.elapsedFrames ∧
      ∀ k, file.thumbnail? k = (picturesOf file.packets)[k]? := by
  obtain ⟨index, hindex, -, hthumbnails⟩ := index_of_read h
  have hall : index.Pictured file.packets := by
    have hempty : PacketIndex.empty.Pictured [] := .nil
    have hall := hempty.addAll hindex
    rwa [List.nil_append] at hall
  rw [PacketIndex.Pictured, ← hthumbnails] at hall
  constructor
  · rw [← List.forall₂_eq_eq_eq, List.forall₂_map_left_iff, List.forall₂_map_right_iff]
    exact hall.imp fun _ _ hplace ↦ hplace.1
  · intro k
    rw [thumbnail?]
    cases hplace : file.thumbnails[k]? with
    | none =>
      rw [List.getElem?_eq_none_iff, hall.length_eq, ← List.getElem?_eq_none_iff] at hplace
      rw [hplace]
    | some place =>
      obtain ⟨hk, rfl⟩ := List.getElem?_eq_some_iff.mp hplace
      have hk' : k < (picturesOf file.packets).length := hall.length_eq ▸ hk
      obtain ⟨-, hat⟩ := hall.get hk hk'
      rw [List.get_eq_getElem, List.get_eq_getElem] at hat
      dsimp only
      rw [hat, List.getElem?_eq_getElem hk']

end OpenedFile

/-! ## Without a cache -/

section

variable (x : Externals) (decodeJpeg : Bytes → Nat → Nat → Option Bytes)

/-- The picture at place `k`, decoded from the start of its group. -/
def pictureAt (pictures : List Thumbnail) : Nat → Option Screens
  | 0 =>
    pictures[0]?.bind fun picture ↦
      if picture.againstPrevious then none else decodeThumbnail x decodeJpeg picture none
  | k + 1 =>
    pictures[k + 1]?.bind fun picture ↦
      if picture.againstPrevious then
        (pictureAt pictures k).bind fun previous ↦
          decodeThumbnail x decodeJpeg picture (some previous)
      else decodeThumbnail x decodeJpeg picture none

/-- The picture at or before a frame. -/
def pictureBefore (pictures : List Thumbnail) (frame : UnsignedInteger) : Option ReplayThumbnail :=
  let count := (pictures.takeWhile fun picture ↦ picture.elapsedFrames ≤ frame).length
  if count = 0 then none
  else
    pictures[count - 1]?.bind fun picture ↦
      (pictureAt x decodeJpeg pictures (count - 1)).map fun screens ↦
        ⟨picture.elapsedFrames, screens.1, screens.2⟩

end

/-- The picture at place `k` stands on its own. -/
def OwnAt (pictures : List Thumbnail) (k : Nat) : Prop :=
  ∃ picture, pictures[k]? = some picture ∧ picture.againstPrevious = false

/-- The pictures at the places from `first` on, up to `last`, are against the ones before them. -/
def AgainstUpTo (pictures : List Thumbnail) (first last : Nat) : Prop :=
  ∀ k, first < k → k ≤ last → ∃ picture, pictures[k]? = some picture ∧ picture.againstPrevious = true

/-- Every picture has one on its own at most a walk before it. -/
def Grouped (pictures : List Thumbnail) : Prop :=
  ∀ last < pictures.length, ∃ first ≤ last,
    last - first ≤ longestWalk ∧ OwnAt pictures first ∧ AgainstUpTo pictures first last

section

variable {x : Externals} {decodeJpeg : Bytes → Nat → Nat → Option Bytes}
variable {pictures : List Thumbnail} {k n : Nat}

theorem pictureAt_own {picture : Thumbnail} (hk : pictures[k]? = some picture)
    (hown : picture.againstPrevious = false) :
    pictureAt x decodeJpeg pictures k = decodeThumbnail x decodeJpeg picture none := by
  cases k with
  | zero =>
    rw [pictureAt, hk, Option.bind_some, if_neg (by rw [hown]; exact Bool.false_ne_true)]
  | succ k =>
    rw [pictureAt, hk, Option.bind_some, if_neg (by rw [hown]; exact Bool.false_ne_true)]

theorem pictureAt_against {picture : Thumbnail} (hk : pictures[k + 1]? = some picture)
    (hagainst : picture.againstPrevious = true) : pictureAt x decodeJpeg pictures (k + 1) =
      (pictureAt x decodeJpeg pictures k).bind fun previous ↦
        decodeThumbnail x decodeJpeg picture (some previous) := by
  rw [pictureAt, hk, Option.bind_some, if_pos hagainst]

/-! ## The cache -/

/-- What is kept is the picture at its place. -/
def ThumbnailCache.Valid (x : Externals) (decodeJpeg : Bytes → Nat → Nat → Option Bytes)
    (pictures : List Thumbnail) (cache : ThumbnailCache) : Prop :=
  ∀ kept ∈ cache, pictureAt x decodeJpeg pictures kept.1 = some kept.2

namespace OpenedFile

variable {file : OpenedFile} {cache : ThumbnailCache}

theorem decodeThumbnails_singleton {picture : Thumbnail} (hk : file.thumbnail? k = some picture)
    (previous : Option Screens) : file.decodeThumbnails x decodeJpeg [k] previous =
      (decodeThumbnail x decodeJpeg picture previous).map some := by
  simp only [decodeThumbnails, List.foldlM_cons, List.foldlM_nil, hk, Option.bind_eq_bind,
    Option.bind_some]
  cases decodeThumbnail x decodeJpeg picture previous <;> rfl

section

variable (hfile : ∀ k, file.thumbnail? k = pictures[k]?)
include hfile

/-- Decoding goes on to the end of a group. -/
theorem decodeThumbnails_append {places : List Nat} {previous : Option Screens}
    (h : file.decodeThumbnails x decodeJpeg places previous =
      (pictureAt x decodeJpeg pictures k).map some) (hagainst : AgainstUpTo pictures k (k + n)) :
    file.decodeThumbnails x decodeJpeg (places ++ List.range' (k + 1) n) previous =
      (pictureAt x decodeJpeg pictures (k + n)).map some := by
  induction n with
  | zero =>
    rw [List.range'_zero, List.append_nil, h]
    rfl
  | succ n ih =>
    have hbefore := ih fun i hlt hle ↦ hagainst i hlt (by omega)
    obtain ⟨picture, hpicture, hisAgainst⟩ := hagainst (k + n + 1) (by omega) (by omega)
    have hone : ∀ screens, file.decodeThumbnails x decodeJpeg [k + n + 1] (some screens) =
        (decodeThumbnail x decodeJpeg picture (some screens)).map some := fun screens ↦
      decodeThumbnails_singleton ((hfile (k + n + 1)).trans hpicture) _
    rw [decodeThumbnails] at hbefore
    rw [List.range'_concat, Nat.one_mul, ← List.append_assoc, decodeThumbnails, List.foldlM_append,
      hbefore, show k + 1 + n = k + n + 1 by omega, ← Nat.add_assoc,
      pictureAt_against hpicture hisAgainst]
    cases pictureAt x decodeJpeg pictures (k + n) with
    | none => rfl
    | some screens => exact hone screens

/-- **The walk back** ends at a picture on its own or behind the kept one. -/
theorem walkBack_eq (hvalid : cache.Valid x decodeJpeg pictures) {start first last : Nat}
    (hown : OwnAt pictures start) (hagainst : AgainstUpTo pictures start last)
    (hstart : start ≤ first) (hfirst : first ≤ last) (hshort : last - start ≤ longestWalk) :
    (∃ k, start ≤ k ∧ k ≤ first ∧ OwnAt pictures k ∧
        file.walkBack cache last first = some (k, none)) ∨
      ∃ k screens, start ≤ k ∧ k ≤ first ∧ pictureAt x decodeJpeg pictures k = some screens ∧
        file.walkBack cache last first = some (k + 1, some screens) := by
  have hkept : ∀ {i : Nat} {kept : Nat × Screens}, cache.filter (fun kept ↦ kept.1 = i) = some kept →
      kept.1 = i ∧ pictureAt x decodeJpeg pictures i = some kept.2 := by
    intro i kept h
    rw [Option.filter_eq_some_iff, decide_eq_true_iff] at h
    obtain ⟨hmem, rfl⟩ := h
    exact ⟨rfl, hvalid kept hmem⟩
  have hstartAt : ∀ {i : Nat}, cache.filter (fun kept ↦ kept.1 = i) = none →
      ∀ {picture : Thumbnail}, pictures[i]? = some picture →
      file.startAt cache i =
        some (if picture.againstPrevious then none else some (i, none)) := by
    intro i hnone picture hpicture
    rw [startAt, hnone]
    dsimp only
    rw [hfile, hpicture, Option.map_some]
  have hstarts : ∀ {i : Nat} {kept : Nat × Screens},
      cache.filter (fun kept ↦ kept.1 = i) = some kept →
      file.startAt cache i = some (some (i + 1, some kept.2)) := by
    intro i kept h
    rw [startAt, h]
  induction first with
  | zero =>
    obtain rfl : start = 0 := by omega
    rw [walkBack]
    cases hcache : cache.filter (fun kept ↦ kept.1 = 0) with
    | some kept =>
      rw [hstarts hcache]
      exact .inr ⟨0, kept.2, le_rfl, le_rfl, (hkept hcache).2, rfl⟩
    | none =>
      obtain ⟨picture, hpicture, hisOwn⟩ := hown
      rw [hstartAt hcache hpicture, hisOwn]
      exact .inl ⟨0, le_rfl, le_rfl, ⟨picture, hpicture, hisOwn⟩, rfl⟩
  | succ before ih =>
    rw [walkBack]
    cases hcache : cache.filter (fun kept ↦ kept.1 = before + 1) with
    | some kept =>
      rw [hstarts hcache]
      exact .inr ⟨before + 1, kept.2, hstart, le_rfl, (hkept hcache).2, rfl⟩
    | none =>
      by_cases hat : start = before + 1
      · obtain ⟨picture, hpicture, hisOwn⟩ := hown
        subst hat
        rw [hstartAt hcache hpicture, hisOwn]
        exact .inl ⟨before + 1, le_rfl, le_rfl, ⟨picture, hpicture, hisOwn⟩, rfl⟩
      · obtain ⟨picture, hpicture, hisAgainst⟩ := hagainst (before + 1) (by omega) hfirst
        rw [hstartAt hcache hpicture, hisAgainst, if_pos rfl]
        dsimp only
        rw [if_neg (by omega)]
        rcases ih (by omega) (by omega) with ⟨k, hle, hk, hrest⟩ | ⟨k, screens, hle, hk, hrest⟩
        · exact .inl ⟨k, hle, hk.trans (Nat.le_succ _), hrest⟩
        · exact .inr ⟨k, screens, hle, hk.trans (Nat.le_succ _), hrest⟩

/-- **A query finds the picture at or before its frame**, whatever is kept, and keeps what it
found. -/
theorem thumbnailAtOrBefore_eq
    (hframes : file.thumbnails.map Prod.fst = pictures.map Thumbnail.elapsedFrames)
    (hgrouped : Grouped pictures) (hvalid : cache.Valid x decodeJpeg pictures)
    (frame : UnsignedInteger) : (file.thumbnailAtOrBefore x decodeJpeg frame cache).1 =
        pictureBefore x decodeJpeg pictures frame ∧
      ThumbnailCache.Valid x decodeJpeg pictures
        (file.thumbnailAtOrBefore x decodeJpeg frame cache).2 := by
  have hcount : (file.thumbnails.takeWhile fun place ↦ place.1 ≤ frame).length =
      (pictures.takeWhile fun picture ↦ picture.elapsedFrames ≤ frame).length := by
    have hsame := congrArg (fun frames ↦ (frames.takeWhile fun f ↦ decide (f ≤ frame)).length) hframes
    simpa only [List.takeWhile_map, List.length_map, Function.comp_def] using hsame
  rw [thumbnailAtOrBefore, pictureBefore]
  dsimp only
  rw [hcount]
  generalize hn : (pictures.takeWhile fun picture ↦ picture.elapsedFrames ≤ frame).length = count
  have hle : count ≤ pictures.length := hn ▸ ( List.takeWhile_prefix _).length_le
  by_cases hzero : count = 0
  · rw [if_pos hzero, if_pos hzero]
    exact ⟨rfl, hvalid⟩
  rw [if_neg hzero, if_neg hzero]
  obtain ⟨last, rfl⟩ : ∃ last, count = last + 1 := ⟨count - 1, by omega⟩
  rw [Nat.add_sub_cancel]
  have hlast : pictures[last]? = some pictures[last] := List.getElem?_eq_getElem hle
  have hplace : file.thumbnails[last]?.map Prod.fst = some pictures[last].elapsedFrames := by
    rw [← List.getElem?_map, hframes, List.getElem?_map, hlast, Option.map_some]
  obtain ⟨start, hstart, hshort, hown, hagainst⟩ := hgrouped last hle
  have hfound : (do
      let (first, previous) ← file.walkBack cache last last
      let pictures ← file.decodeThumbnails x decodeJpeg (List.range' first (last + 1 - first)) previous
      pictures) = pictureAt x decodeJpeg pictures last := by
    have hjoin : ∀ found : Option Screens, (do
        let pictures ← found.map some
        pictures) = found := by
      intro found
      cases found <;> rfl
    rcases walkBack_eq hfile hvalid hown hagainst hstart le_rfl hshort with
      ⟨k, hk, hkl, ⟨picture, hpicture, hisOwn⟩, hwalk⟩ | ⟨k, screens, hk, hkl, hscreens, hwalk⟩
    · -- decoding starts at a picture on its own
      have hone : file.decodeThumbnails x decodeJpeg [k] none =
          (pictureAt x decodeJpeg pictures k).map some := by
        rw [pictureAt_own hpicture hisOwn, decodeThumbnails_singleton ((hfile k).trans hpicture)]
      have hall := decodeThumbnails_append (n := last - k) hfile hone fun i hlt hle ↦
        hagainst i (by omega) (by omega)
      rw [hwalk]
      rw [List.singleton_append, ← List.range'_succ, Nat.add_sub_cancel' hkl] at hall
      rw [← hjoin (pictureAt x decodeJpeg pictures last), ← hall,
        show last - k + 1 = last + 1 - k by omega]
      rfl
    · -- it starts behind the kept one
      have hnone : file.decodeThumbnails x decodeJpeg [] (some screens) =
          (pictureAt x decodeJpeg pictures k).map some := by
        rw [hscreens]
        rfl
      have hall := decodeThumbnails_append (n := last - k) hfile hnone fun i hlt hle ↦
        hagainst i (by omega) (by omega)
      rw [hwalk]
      rw [List.nil_append, Nat.add_sub_cancel' hkl] at hall
      rw [← hjoin (pictureAt x decodeJpeg pictures last), ← hall,
        show last - k = last + 1 - (k + 1) by omega]
      rfl
  rw [hfound, hlast, Option.bind_some]
  cases hat : pictureAt x decodeJpeg pictures last with
  | none => exact ⟨rfl, hvalid⟩
  | some screens =>
    refine ⟨?_, fun kept hkept ↦ ?_⟩
    · dsimp only
      obtain ⟨place, hplaceAt, hframe⟩ := Option.map_eq_some_iff.mp hplace
      rw [hplaceAt, Option.map_some, Option.map_some, hframe]
    · cases hkept
      exact hat

/-- **Queries in any order** find the same as each on its own. -/
theorem thumbnailsAtOrBefore_eq
    (hframes : file.thumbnails.map Prod.fst = pictures.map Thumbnail.elapsedFrames)
    (hgrouped : Grouped pictures) (hvalid : cache.Valid x decodeJpeg pictures)
    (frames : List UnsignedInteger) : file.thumbnailsAtOrBefore x decodeJpeg frames cache =
      frames.map (pictureBefore x decodeJpeg pictures) := by
  induction frames generalizing cache with
  | nil => rfl
  | cons frame frames ih =>
    obtain ⟨hfound, hkept⟩ := thumbnailAtOrBefore_eq hfile hframes hgrouped hvalid frame
    rw [thumbnailsAtOrBefore, List.map_cons, ← hfound, ← ih hkept]

end

end OpenedFile

end

end SuperShuckie
