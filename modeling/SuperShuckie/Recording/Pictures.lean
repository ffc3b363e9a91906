import SuperShuckie.Recording.StoredFile
import SuperShuckie.Player.Thumbnails

/-!
# The timeline pictures of a recording

A recorder stores a picture on its own or against the last one that it stored, never more than
`thumbnailGroup` of one group (`Filmed`).  So the player decodes each as it was recorded, when there is
something to show on both screens (`Screen.Showable`); what it does not show was no picture, or one
that is too large (`thumbnails_recorded`).
-/

set_option autoImplicit false

namespace SuperShuckie

open ByteFormat OpenedFile

/-! ## Screens -/

/-- The sizes of a screen are 32-bit numbers. -/
def Screen.Sized (s : Screen) : Prop := s.1 < 2 ^ 32 ∧ s.2.1 < 2 ^ 32

/-- A screen that a player shows: it has pixels, two bytes for each, and not too many. -/
def Screen.Showable (s : Screen) : Prop :=
  s.1 * s.2.1 * 2 ≠ 0 ∧ s.1 * s.2.1 * 2 ≤ maxScreenLen ∧ s.2.2.length = s.1 * s.2.1 * 2

instance (s : Screen) : Decidable s.Showable := by
  unfold Screen.Showable
  infer_instance

/-- A picture that a player shows. -/
def ReplayThumbnail.Showable (picture : ReplayThumbnail) : Prop :=
  picture.top.Showable ∧ picture.bottom.Showable

instance (picture : ReplayThumbnail) : Decidable picture.Showable := by
  unfold ReplayThumbnail.Showable
  infer_instance

/-- Screens of one size, of as many bytes. -/
def Screen.SameSize (p s : Screen) : Prop :=
  p.1 = s.1 ∧ p.2.1 = s.2.1 ∧ p.2.2.length = s.2.2.length

theorem Screen.SameSize.showable {p s : Screen} (h : p.SameSize s) : p.Showable ↔ s.Showable := by
  obtain ⟨hw, hh, hlen⟩ := h
  rw [Showable, Showable, hw, hh, hlen]

/-- What is compressed comes back, and a frame is never empty. -/
structure Zstd.Restores (z : Zstd) : Prop where
  contentSize : ∀ {level window pfx data frame}, z.compress2 level window pfx data = .ok frame →
    z.frameContentSize frame = data.length
  decompress : ∀ {level window pfx data frame}, z.compress2 level window pfx data = .ok frame →
    z.decompressDCtx pfx data.length frame = .ok data
  frame_ne : ∀ {level window pfx data frame}, z.compress2 level window pfx data = .ok frame →
    frame ≠ []

/-- What was compressed is decompressed into a buffer of its own size, and no other. -/
theorem Zstd.Restores.toOption_decompress {z : Zstd} (hz : z.Restores) {level : Int}
    {window : Option Nat} {pfx data frame : Bytes} {len : Nat}
    (h : z.compress2 level window pfx data = .ok frame) (hlen : len ≤ maxScreenLen) :
    (z.decompressDataWithPrefix frame len pfx).toOption =
      if data.length = len then some data else none := by
  have hmax : maxScreenLen < contentSizeError := by decide
  have hmax' : maxScreenLen < contentSizeUnknown := by decide
  rw [decompressDataWithPrefix]
  by_cases hsame : data.length = len
  · have hcheck : z.checkContentSize frame len = .ok () := by
      rw [checkContentSize, hz.contentSize h]
      rw [if_neg (by omega), if_neg (by omega), if_neg (by simp [hsame])]
    subst hsame
    rw [hcheck, if_pos rfl]
    change (z.decompressDCtx pfx data.length frame >>= _).toOption = _
    rw [hz.decompress h]
    change (if data.length ≠ data.length then _ else _ : Except String Bytes).toOption = _
    rw [if_neg (by simp)]
    rfl
  · have hcheck : ∃ e, z.checkContentSize frame len = .error e := by
      rw [checkContentSize, hz.contentSize h]
      split_ifs
      · exact ⟨_, rfl⟩
      · exact ⟨_, rfl⟩
      · exact ⟨_, rfl⟩
    obtain ⟨e, he⟩ := hcheck
    rw [he, if_neg hsame]
    rfl

section

variable {x : Externals} {decodeJpeg : Bytes → Nat → Nat → Option Bytes}

/-- A lossless screen on its own is decoded as it was stored. -/
theorem decodeScreen_own (hz : x.zstd.Restores) {picture : Thumbnail} (hjpeg : picture.jpeg = false)
    (hown : picture.againstPrevious = false) {s : Screen} (hsized : s.Sized) {data : ByteVec}
    (hdata : Recorder.encodeScreen x none s = .ok data) (previous : Option Screen) :
    decodeScreen x decodeJpeg picture previous (UInt64.ofNat s.1) (UInt64.ofNat s.2.1) data =
      if s.Showable then some s else none := by
  obtain ⟨w, h, pixels⟩ := s
  obtain ⟨hw, hh⟩ := hsized
  dsimp only at hw hh
  unfold decodeScreen
  rw [UInt64.toNat_ofNat_of_lt' (hw.trans (by decide)),
    UInt64.toNat_ofNat_of_lt' (hh.trans (by decide)), hjpeg, hown]
  dsimp only
  have hmax : maxScreenLen < 2 ^ 64 := by decide
  by_cases hlen : w * h * 2 = 0 ∨ maxScreenLen < w * h * 2
  · rw [if_pos hlen, ite_self, if_neg]
    rintro ⟨hne, hle, -⟩
    dsimp only at hne hle
    omega
  · rw [if_neg (by omega), if_neg hlen, if_neg Bool.false_ne_true, if_pos rfl, Zstd.decompressData,
      hz.toOption_decompress hdata (by omega)]
    have hshowable : Screen.Showable (w, h, pixels) ↔ pixels.length = w * h * 2 := by
      rw [Screen.Showable]
      dsimp only
      omega
    rw [if_congr hshowable rfl rfl]
    dsimp only
    split <;> rfl

/-- A lossless screen against one that was decoded is decoded as it was stored. -/
theorem decodeScreen_against (hz : x.zstd.Restores) {picture : Thumbnail}
    (hjpeg : picture.jpeg = false) (hagainst : picture.againstPrevious = true) {p s : Screen}
    (hsized : s.Sized) (hsame : p.SameSize s) (hshowable : s.Showable) {data : ByteVec}
    (hdata : Recorder.encodeScreen x (some p) s = .ok data) :
    decodeScreen x decodeJpeg picture (some p) (UInt64.ofNat s.1) (UInt64.ofNat s.2.1) data =
      some s := by
  obtain ⟨w, h, pixels⟩ := s
  obtain ⟨hw, hh⟩ := hsized
  obtain ⟨hne, hle, hlen⟩ := hshowable
  obtain ⟨hpw, hph, -⟩ := hsame
  dsimp only at hw hh hne hle hlen hpw hph
  have hmax : maxScreenLen < 2 ^ 64 := by decide
  rw [decodeScreen, UInt64.toNat_ofNat_of_lt' (hw.trans (by decide)),
    UInt64.toNat_ofNat_of_lt' (hh.trans (by decide)), hjpeg, hagainst]
  rw [if_neg (by omega), if_neg (by omega), if_neg Bool.false_ne_true, if_neg (by simp),
    if_neg (by simp [hpw, hph])]
  rw [Recorder.encodeScreen] at hdata
  dsimp only at hdata
  split_ifs at hdata with hpixels
  · cases hdata
    rw [if_pos List.isEmpty_nil, hpixels]
  · rw [if_neg (by simpa using hz.frame_ne hdata), hz.toOption_decompress hdata hle, if_pos hlen]
    rfl

end

/-! ## Groups -/

/-- The packet of a lossless picture. -/
def storedPicture (picture : ReplayThumbnail) (top bottom : ByteVec) (againstPrevious : Bool) :
    Thumbnail :=
  { elapsedFrames := picture.frame
    topWidth := UInt64.ofNat picture.top.1
    topHeight := UInt64.ofNat picture.top.2.1
    bottomWidth := UInt64.ofNat picture.bottom.1
    bottomHeight := UInt64.ofNat picture.bottom.2.1
    top, bottom, againstPrevious
    jpeg := false }

/-- How recorded pictures are stored, with the last one and how many its group has so far. -/
inductive Filmed (x : Externals) :
    List ReplayThumbnail → List Thumbnail → Option Screens → Nat → Prop
  | nil : Filmed x [] [] none 0
  | own {ps : List ReplayThumbnail} {ts : List Thumbnail} {last : Option Screens} {n : Nat}
      {top bottom : ByteVec} (picture : ReplayThumbnail) :
      Filmed x ps ts last n →
      Recorder.encodeScreen x none picture.top = .ok top →
      Recorder.encodeScreen x none picture.bottom = .ok bottom →
      Filmed x (ps ++ [picture]) (ts ++ [storedPicture picture top bottom false])
        (some (picture.top, picture.bottom)) 1
  | against {ps : List ReplayThumbnail} {ts : List Thumbnail} {last : Screens} {n : Nat}
      {top bottom : ByteVec} (picture : ReplayThumbnail) :
      Filmed x ps ts (some last) n → n < Recorder.thumbnailGroup →
      last.1.SameSize picture.top → last.2.SameSize picture.bottom →
      Recorder.encodeScreen x (some last.1) picture.top = .ok top →
      Recorder.encodeScreen x (some last.2) picture.bottom = .ok bottom →
      Filmed x (ps ++ [picture]) (ts ++ [storedPicture picture top bottom true])
        (some (picture.top, picture.bottom)) (n + 1)

/-- What a player makes of a picture. -/
def ReplayThumbnail.shown (picture : ReplayThumbnail) : Option Screens :=
  if picture.Showable then some (picture.top, picture.bottom) else none

section

variable {x : Externals} {decodeJpeg : Bytes → Nat → Nat → Option Bytes}

variable {picture : ReplayThumbnail} {ts : List Thumbnail} {ps : List ReplayThumbnail}
  {kept : Option Screens}

theorem decodeThumbnail_own (hz : x.zstd.Restores)
    (hsized : picture.top.Sized ∧ picture.bottom.Sized) {top bottom : ByteVec}
    (htop : Recorder.encodeScreen x none picture.top = .ok top)
    (hbottom : Recorder.encodeScreen x none picture.bottom = .ok bottom)
    (previous : Option Screens) :
    decodeThumbnail x decodeJpeg (storedPicture picture top bottom false) previous =
      picture.shown := by
  set stored := storedPicture picture top bottom false
  have htop' : decodeScreen x decodeJpeg stored (previous.map Prod.fst) stored.topWidth
      stored.topHeight stored.top = if picture.top.Showable then some picture.top else none :=
    decodeScreen_own hz rfl rfl hsized.1 htop _
  have hbottom' : decodeScreen x decodeJpeg stored (previous.map Prod.snd) stored.bottomWidth
      stored.bottomHeight stored.bottom =
        if picture.bottom.Showable then some picture.bottom else none :=
    decodeScreen_own hz rfl rfl hsized.2 hbottom _
  rw [decodeThumbnail, ReplayThumbnail.shown, htop', hbottom']
  by_cases ht : picture.top.Showable
  · by_cases hb : picture.bottom.Showable
    · rw [if_pos ht, if_pos hb, if_pos (show picture.Showable from ⟨ht, hb⟩)]
      rfl
    · rw [if_pos ht, if_neg hb, if_neg fun h : picture.Showable ↦ hb h.2]
      rfl
  · rw [if_neg ht, if_neg fun h : picture.Showable ↦ ht h.1]
    rfl

theorem decodeThumbnail_against (hz : x.zstd.Restores)
    (hsized : picture.top.Sized ∧ picture.bottom.Sized) {top bottom : ByteVec} {last : Screens}
    (hsameTop : last.1.SameSize picture.top) (hsameBottom : last.2.SameSize picture.bottom)
    (htop : Recorder.encodeScreen x (some last.1) picture.top = .ok top)
    (hbottom : Recorder.encodeScreen x (some last.2) picture.bottom = .ok bottom)
    (hshowable : picture.Showable) :
    decodeThumbnail x decodeJpeg (storedPicture picture top bottom true) (some last) =
      some (picture.top, picture.bottom) := by
  set stored := storedPicture picture top bottom true
  have htop' : decodeScreen x decodeJpeg stored ((some last).map Prod.fst) stored.topWidth
      stored.topHeight stored.top = some picture.top :=
    decodeScreen_against hz rfl rfl hsized.1 hsameTop hshowable.1 htop
  have hbottom' : decodeScreen x decodeJpeg stored ((some last).map Prod.snd) stored.bottomWidth
      stored.bottomHeight stored.bottom = some picture.bottom :=
    decodeScreen_against hz rfl rfl hsized.2 hsameBottom hshowable.2 hbottom
  rw [decodeThumbnail, htop', hbottom']
  rfl

/-- A picture does not depend on those behind it. -/
theorem pictureAt_append {k : Nat} (hk : k < ts.length) (more : List Thumbnail) :
    pictureAt x decodeJpeg (ts ++ more) k = pictureAt x decodeJpeg ts k := by
  induction k with
  | zero => rw [pictureAt, pictureAt, List.getElem?_append_left hk]
  | succ k ih => rw [pictureAt, pictureAt, List.getElem?_append_left hk, ih (Nat.lt_of_succ_lt hk)]

/-- How the pictures of a recording are read. -/
structure Filmed.Read (x : Externals) (decodeJpeg : Bytes → Nat → Nat → Option Bytes)
    (ps : List ReplayThumbnail) (ts : List Thumbnail) (kept : Option Screens) (n : Nat) : Prop where
  frames : ts.map Thumbnail.elapsedFrames = ps.map ReplayThumbnail.frame
  shown : ∀ k picture, ps[k]? = some picture → pictureAt x decodeJpeg ts k = picture.shown
  grouped : Grouped ts
  jpeg : ∀ picture ∈ ts, picture.jpeg = false
  last : ∀ screens, kept = some screens →
    ∃ before picture, ps = before ++ [picture] ∧ screens = (picture.top, picture.bottom)
  group : ∀ screens, kept = some screens → 0 < n ∧ n ≤ Recorder.thumbnailGroup ∧ n ≤ ts.length ∧
    OwnAt ts (ts.length - n) ∧ AgainstUpTo ts (ts.length - n) (ts.length - 1)

theorem Filmed.Read.length_eq {n : Nat} (h : Filmed.Read x decodeJpeg ps ts kept n) :
    ts.length = ps.length := by
  have := congrArg List.length h.frames
  rwa [List.length_map, List.length_map] at this

/-- One more picture that is read as it was recorded. -/
theorem Filmed.Read.snoc {n m : Nat} (h : Filmed.Read x decodeJpeg ps ts kept n)
    {stored : Thumbnail} (hframe : stored.elapsedFrames = picture.frame)
    (hjpeg : stored.jpeg = false)
    (hshown : pictureAt x decodeJpeg (ts ++ [stored]) ts.length = picture.shown) (hpos : 0 < m)
    (hle : m ≤ Recorder.thumbnailGroup) (hm : m ≤ ts.length + 1)
    (hown : OwnAt (ts ++ [stored]) (ts.length + 1 - m))
    (hagainst : AgainstUpTo (ts ++ [stored]) (ts.length + 1 - m) ts.length) :
    Filmed.Read x decodeJpeg (ps ++ [picture]) (ts ++ [stored])
      (some (picture.top, picture.bottom)) m := by
  have hlen : (ts ++ [stored]).length = ts.length + 1 := by
    rw [List.length_append, List.length_singleton]
  refine ⟨?_, fun k picture' hk ↦ ?_, fun last hlast ↦ ?_, fun picture' hmem ↦ ?_,
    fun screens hscreens ↦ ?_, fun screens hscreens ↦ ?_⟩
  · rw [List.map_append, List.map_append, h.frames, List.map_singleton, List.map_singleton, hframe]
  · obtain ⟨hlt, -⟩ := List.getElem?_eq_some_iff.mp hk
    rw [List.length_append, List.length_singleton, ← h.length_eq] at hlt
    by_cases hbefore : k < ts.length
    · rw [List.getElem?_append_left (h.length_eq ▸ hbefore)] at hk
      rw [pictureAt_append hbefore]
      exact h.shown k picture' hk
    · obtain rfl : k = ts.length := by omega
      rw [h.length_eq, List.getElem?_concat_length] at hk
      cases hk
      exact hshown
  · rw [hlen] at hlast
    by_cases hbefore : last < ts.length
    · obtain ⟨first, hfirst, hshort, ⟨own, hownAt, hisOwn⟩, hup⟩ := h.grouped last hbefore
      refine ⟨first, hfirst, hshort, ⟨own, ?_, hisOwn⟩, fun k hlt hk ↦ ?_⟩
      · rw [List.getElem?_append_left (by omega), hownAt]
      · rw [List.getElem?_append_left (by omega)]
        exact hup k hlt hk
    · obtain rfl : last = ts.length := by omega
      refine ⟨ts.length + 1 - m, by omega, ?_, hown, hagainst⟩
      have hwalk : Recorder.thumbnailGroup ≤ longestWalk := by decide
      omega
  · rcases List.mem_append.mp hmem with hold | hnew
    · exact h.jpeg picture' hold
    · rw [List.mem_singleton.mp hnew]
      exact hjpeg
  · cases hscreens
    exact ⟨ps, picture, rfl, rfl⟩
  · rw [hlen, Nat.add_sub_cancel]
    exact ⟨hpos, hle, hm, hown, hagainst⟩

/-- **The pictures of a recording are read** as they were recorded. -/
theorem Filmed.read (hz : x.zstd.Restores) {n : Nat} (h : Filmed x ps ts kept n)
    (hsized : ∀ picture ∈ ps, picture.top.Sized ∧ picture.bottom.Sized) :
    Filmed.Read x decodeJpeg ps ts kept n := by
  induction h with
  | nil =>
    exact ⟨rfl, fun k picture hk ↦ (by cases hk), fun last hlast ↦ absurd hlast (Nat.not_lt_zero _),
      fun picture hpicture ↦ absurd hpicture List.not_mem_nil, fun screens hscreens ↦ (by cases hscreens),
      fun screens hscreens ↦ by cases hscreens⟩
  | @own ps ts last n top bottom picture h htop hbottom ih =>
    have hread := ih fun picture hpicture ↦ hsized picture (List.mem_append_left _ hpicture)
    have hat : (ts ++ [storedPicture picture top bottom false])[ts.length]? =
        some (storedPicture picture top bottom false) := List.getElem?_concat_length
    refine hread.snoc rfl rfl ?_ Nat.one_pos (by decide) (by omega) ?_ fun k hlt hle ↦ ?_
    · rw [pictureAt_own hat rfl]
      exact decodeThumbnail_own hz (hsized picture (by simp)) htop hbottom none
    · exact ⟨_, hat, rfl⟩
    · omega
  | @against ps ts last n top bottom picture h hn hsameTop hsameBottom htop hbottom ih =>
    have hread := ih fun picture hpicture ↦ hsized picture (List.mem_append_left _ hpicture)
    obtain ⟨hpos, hle, hlen, ⟨own, hownAt, hisOwn⟩, hup⟩ := hread.group last rfl
    obtain ⟨before, picture', rfl, rfl⟩ := hread.last last rfl
    have hat : (ts ++ [storedPicture picture top bottom true])[ts.length]? =
        some (storedPicture picture top bottom true) := List.getElem?_concat_length
    refine hread.snoc rfl rfl ?_ (Nat.succ_pos n) hn (by omega) ⟨own, ?_, hisOwn⟩ fun k hlt hle ↦ ?_
    · obtain ⟨m, hm⟩ : ∃ m, ts.length = m + 1 := ⟨ts.length - 1, by omega⟩
      have hbefore : pictureAt x decodeJpeg ts m = picture'.shown := by
        refine hread.shown m picture' ?_
        have hlength := hread.length_eq
        rw [List.length_append, List.length_singleton, hm, Nat.succ_inj] at hlength
        rw [hlength, List.getElem?_concat_length]
      rw [hm] at hat ⊢
      rw [pictureAt_against hat rfl, pictureAt_append (by omega), hbefore, ReplayThumbnail.shown]
      have hshowable : picture'.Showable ↔ picture.Showable :=
        and_congr hsameTop.showable hsameBottom.showable
      by_cases hshow : picture.Showable
      · rw [if_pos (hshowable.mpr hshow), Option.bind_some, ReplayThumbnail.shown, if_pos hshow]
        exact decodeThumbnail_against hz (hsized picture (by simp)) hsameTop hsameBottom htop hbottom
          hshow
      · rw [if_neg (hshowable.not.mpr hshow), Option.bind_none, ReplayThumbnail.shown, if_neg hshow]
    · rw [show ts.length + 1 - (n + 1) = ts.length - n by omega,
        List.getElem?_append_left (by omega), hownAt]
    · by_cases hlast : k = ts.length
      · subst hlast
        exact ⟨_, hat, rfl⟩
      · rw [List.getElem?_append_left (by omega)]
        exact hup k (by omega) (by omega)

/-! ## What is shown -/

/-- The last picture at or before a frame. -/
def lastPicture (ps : List ReplayThumbnail) (frame : UnsignedInteger) : Option ReplayThumbnail :=
  (ps.filter fun picture ↦ picture.frame ≤ frame).getLast?

/-- In a list in order, what is below a bound comes first. -/
theorem filter_eq_takeWhile (h : ps.Pairwise fun p p' ↦ p.frame ≤ p'.frame)
    (frame : UnsignedInteger) : (ps.filter fun picture ↦ picture.frame ≤ frame) =
      ps.takeWhile fun picture ↦ picture.frame ≤ frame := by
  induction h with
  | nil => rfl
  | @cons p ps hp _ ih =>
    by_cases hle : p.frame ≤ frame
    · simp [hle, ih]
    · rw [List.filter_cons, List.takeWhile_cons, decide_eq_false hle, if_neg Bool.false_ne_true]
      refine List.filter_eq_nil_iff.mpr fun p' hp' hle' ↦ hle ?_
      exact UInt64.le_trans (hp p' hp') (of_decide_eq_true hle')

/-- **A query shows the last picture** at or before its frame. -/
theorem Filmed.Read.pictureBefore_eq {n : Nat} (h : Filmed.Read x decodeJpeg ps ts kept n)
    (hordered : ps.Pairwise fun p p' ↦ p.frame ≤ p'.frame) (frame : UnsignedInteger) :
    pictureBefore x decodeJpeg ts frame =
      (lastPicture ps frame).filter fun picture ↦ decide picture.Showable := by
  have hcount : (ts.takeWhile fun picture ↦ picture.elapsedFrames ≤ frame).length =
      (ps.takeWhile fun picture ↦ picture.frame ≤ frame).length := by
    have hsame := congrArg (fun frames ↦ (frames.takeWhile fun f ↦ decide (f ≤ frame)).length) h.frames
    simpa only [List.takeWhile_map, List.length_map, Function.comp_def] using hsame
  rw [pictureBefore, lastPicture, filter_eq_takeWhile hordered, hcount, List.getLast?_eq_getElem?]
  have hbegins := List.takeWhile_prefix (fun picture ↦ decide (picture.frame ≤ frame)) (l := ps)
  generalize ps.takeWhile (fun picture ↦ decide (picture.frame ≤ frame)) = below at hbegins
  by_cases hzero : below.length = 0
  · rw [if_pos hzero, List.length_eq_zero_iff.mp hzero]
    rfl
  · rw [if_neg hzero]
    have hlt : below.length - 1 < below.length := by omega
    have hps : ps[below.length - 1]? = some below[below.length - 1] := by
      obtain ⟨rest, rfl⟩ := hbegins
      rw [List.getElem?_append_left hlt, List.getElem?_eq_getElem hlt]
    have hts : below.length - 1 < ts.length := h.length_eq ▸ (hlt.trans_le hbegins.length_le)
    have hframe : ts[below.length - 1].elapsedFrames = below[below.length - 1].frame := by
      have hmap := congrArg (fun frames ↦ frames[below.length - 1]?) h.frames
      simpa [hps, List.getElem?_eq_getElem hts] using hmap
    rw [List.getElem?_eq_getElem hts, Option.bind_some, h.shown _ _ hps,
      List.getElem?_eq_getElem hlt, ReplayThumbnail.shown, hframe]
    generalize below[below.length - 1] = picture
    by_cases hshow : picture.Showable
    · rw [if_pos hshow, Option.filter_some, if_pos (decide_eq_true hshow)]
      rfl
    · rw [if_neg hshow, Option.filter_some, if_neg (by simpa using hshow)]
      rfl

end

/-! ## Recording -/

/-- The pictures among the parts of a stream. -/
def storedPictures (log : List Part) : List Thumbnail :=
  log.filterMap fun
    | .packet (.thumbnail picture) _ => some picture
    | _ => none

theorem storedPictures_append (log log' : List Part) :
    storedPictures (log ++ log') = storedPictures log ++ storedPictures log' := List.filterMap_append

namespace Recorder

variable {x : Externals} {patch : Bytes} {log : List Part} {c : Course} {r r' : Recorder}

/-- The picture that a call records. -/
def pictureOf : Recorder × Call → Option ReplayThumbnail
  | (r, .thumbnail top bottom) => some ⟨r.elapsedFrames, top, bottom⟩
  | _ => none

/-- The pictures that the calls of a run record. -/
def album (x : Externals) (calls : List Call) (r : Recorder) : List ReplayThumbnail :=
  (accepted x calls r).filterMap pictureOf

/-- A lossless picture that was stored was encoded. -/
theorem thumbnail_ok (h : Mirrors true patch log r)
    (hquality : r.settings.storedThumbnailJpegQuality = 0) {top bottom : Screen}
    (hrun : thumbnail x top bottom r = .ok () r') :
    ∃ topData bottomData,
      encodeScreen x ((r.previousThumbnail top bottom).map Prod.fst) top = .ok topData ∧
      encodeScreen x ((r.previousThumbnail top bottom).map Prod.snd) bottom = .ok bottomData ∧
      thumbnailOf x r top bottom = .ok (.thumbnail (storedPicture ⟨r.elapsedFrames, top, bottom⟩
        topData bottomData (r.previousThumbnail top bottom).isSome)) := by
  have hlossless : ¬ (r.stored.isSome = true ∧ 0 < r.settings.storedThumbnailJpegQuality) := by
    rw [hquality]
    exact fun hpos ↦ Nat.lt_irrefl 0 hpos.2
  rw [thumbnail, Act.bind_apply, h.assertNotClosed] at hrun
  dsimp only at hrun
  rw [Act.get_bind_apply, if_neg hlossless] at hrun
  rw [thumbnailOf]
  dsimp only
  rw [if_neg hlossless]
  cases htop : encodeScreen x ((r.previousThumbnail top bottom).map Prod.fst) top with
  | error e =>
    rw [htop] at hrun
    cases hrun
  | ok topData =>
    cases hbottom : encodeScreen x ((r.previousThumbnail top bottom).map Prod.snd) bottom with
    | error e =>
      rw [htop, hbottom] at hrun
      cases hrun
    | ok bottomData => exact ⟨topData, bottomData, rfl, rfl, rfl⟩

/-- The pictures so far are stored in groups, in the order of their frames. -/
structure Filming (x : Externals) (made : List (Recorder × Call)) (log : List Part) (c : Course) :
    Prop where
  quality : c.settings.storedThumbnailJpegQuality = 0
  filmed : Filmed x (made.filterMap pictureOf) (storedPictures log) c.thumbnail c.thumbnailsInGroup
  ordered : (made.filterMap pictureOf).Pairwise fun p p' ↦ p.frame ≤ p'.frame
  before : ∀ picture ∈ made.filterMap pictureOf, picture.frame ≤ c.elapsedFrames
  sized : ∀ picture ∈ made.filterMap pictureOf, picture.top.Sized ∧ picture.bottom.Sized

theorem le_saturatingSucc (n : UnsignedInteger) : n ≤ saturatingSucc n := by
  rw [saturatingSucc]
  split_ifs with hroom
  · rw [UInt64.le_iff_toNat_le, UInt64.toNat_add, UInt64.toNat_one]
    omega
  · exact UInt64.le_refl n

/-- A call that records no picture. -/
theorem Filming.skip {made : List (Recorder × Call)} (h : Filming x made log c) {call : Call}
    (hnone : pictureOf (r, call) = none) {parts : List Part} (hparts : storedPictures parts = [])
    {c' : Course} (hsettings : c'.settings = c.settings) (hthumbnail : c'.thumbnail = c.thumbnail)
    (hgroup : c'.thumbnailsInGroup = c.thumbnailsInGroup)
    (hframes : c.elapsedFrames ≤ c'.elapsedFrames) :
    Filming x (made ++ [(r, call)]) (log ++ parts) c' := by
  have hsame : (made ++ [(r, call)]).filterMap pictureOf = made.filterMap pictureOf := by
    rw [List.filterMap_append, List.filterMap_cons_none hnone, List.filterMap_nil, List.append_nil]
  refine ⟨hsettings ▸ h.quality, ?_, hsame ▸ h.ordered, fun picture hpicture ↦ ?_, hsame ▸ h.sized⟩
  · rw [hsame, storedPictures_append, hparts, List.append_nil, hthumbnail, hgroup]
    exact h.filmed
  · rw [hsame] at hpicture
    exact UInt64.le_trans (h.before picture hpicture) hframes

theorem storedPictures_part (packet : Packet) (hnot : ∀ picture, packet ≠ .thumbnail picture) :
    storedPictures (r.part packet) = [] := by
  rw [part]
  split
  · cases packet with
    | thumbnail picture => exact absurd rfl (hnot picture)
    | _ => rfl
  · rfl

theorem Course.previous_eq_some {top bottom : Screen} {last : Screens}
    (h : c.previous top bottom = some last) : c.thumbnail = some last ∧ last.1.SameSize top ∧
      last.2.SameSize bottom ∧ c.thumbnailsInGroup < thumbnailGroup := by
  rw [Course.previous] at h
  cases hthumbnail : c.thumbnail with
  | none =>
    rw [hthumbnail] at h
    cases h
  | some last' =>
    rw [hthumbnail] at h
    dsimp only at h
    split_ifs at h with hsame
    cases h
    exact ⟨rfl, hsame⟩

/-- A picture is stored in the group of the last one, or starts one of its own. -/
theorem Filming.addPicture {made : List (Recorder × Call)} (h : Filming x made log c)
    (hcourse : OnCourse patch log c r) {top bottom : Screen} (hsized : top.Sized ∧ bottom.Sized)
    (hrun : thumbnail x top bottom r = .ok () r') :
    Filming x (made ++ [(r, .thumbnail top bottom)]) (log ++ added x r (.thumbnail top bottom))
      (c.afterPicture top bottom) := by
  obtain ⟨stored, hstored⟩ := hcourse.steady.stored
  have hof : r.course = some c := hcourse.steady.course
  have hprevious := previousThumbnail_eq hof top bottom
  have hfields : r.settings = c.settings ∧ r.elapsedFrames = c.elapsedFrames := by
    rw [course, hstored] at hof
    cases hof
    exact ⟨rfl, rfl⟩
  obtain ⟨topData, bottomData, htop, hbottom, hpacket⟩ :=
    thumbnail_ok hcourse.mirrors (hfields.1 ▸ h.quality) hrun
  set picture : ReplayThumbnail := ⟨r.elapsedFrames, top, bottom⟩ with hpicture
  have hmade : (made ++ [(r, Call.thumbnail top bottom)]).filterMap pictureOf =
      made.filterMap pictureOf ++ [picture] := List.filterMap_append
  have hadded : storedPictures (log ++ added x r (.thumbnail top bottom)) = storedPictures log ++
      [storedPicture picture topData bottomData (r.previousThumbnail top bottom).isSome] := by
    rw [storedPictures_append, added, hpacket]
    change storedPictures log ++ storedPictures (r.part _) = _
    rw [part, hstored]
    rfl
  rw [hprevious] at htop hbottom hadded
  rw [Course.afterPicture, if_neg (by rw [h.quality]; exact Nat.lt_irrefl 0)]
  refine ⟨h.quality, ?_, ?_, fun picture' hmem ↦ ?_, fun picture' hmem ↦ ?_⟩
  · rw [hmade, hadded]
    cases hlast : c.previous top bottom with
    | none =>
      rw [hlast] at htop hbottom
      exact h.filmed.own picture htop hbottom
    | some last =>
      rw [hlast] at htop hbottom
      obtain ⟨hthumbnail, hsameTop, hsameBottom, hgroup⟩ := Course.previous_eq_some hlast
      have hfilmed := h.filmed
      rw [hthumbnail] at hfilmed
      exact hfilmed.against picture hgroup hsameTop hsameBottom htop hbottom
  · rw [hmade]
    refine List.pairwise_append.mpr ⟨h.ordered, List.pairwise_singleton _ _, fun p hp p' hp' ↦ ?_⟩
    rw [List.mem_singleton] at hp'
    subst hp'
    change p.frame ≤ r.elapsedFrames
    rw [hfields.2]
    exact h.before p hp
  · rw [hmade] at hmem
    rcases List.mem_append.mp hmem with hold | hnew
    · exact h.before picture' hold
    · rw [List.mem_singleton.mp hnew]
      exact hfields.2 ▸ UInt64.le_refl _
  · rw [hmade] at hmem
    rcases List.mem_append.mp hmem with hold | hnew
    · exact h.sized picture' hold
    · rw [List.mem_singleton.mp hnew]
      exact hsized

/-- **One call**: the pictures stay in groups. -/
theorem Filming.next {made : List (Recorder × Call)} (h : Filming x made log c)
    (hcourse : OnCourse patch log c r) {call : Call}
    (hsized : ∀ top bottom, call = .thumbnail top bottom → top.Sized ∧ bottom.Sized)
    (hrun : Recorder.perform x call r = .ok () r') :
    Filming x (made ++ [(r, call)]) (log ++ added x r call) (c.after call) := by
  cases call with
  | thumbnail top bottom => exact h.addPicture hcourse (hsized top bottom rfl) hrun
  | nextFrame timestamp =>
    exact h.skip rfl (storedPictures_part _ fun picture hp ↦ by cases hp) rfl rfl rfl
      (le_saturatingSucc _)
  | insertKeyframe state elapsedMillis encoding =>
    refine h.skip rfl ?_ rfl rfl rfl (UInt64.le_refl _)
    rw [added]
    cases r.stored <;> rfl
  | setInput | setSpeed | serialIn | setBookmarkTable =>
    refine h.skip rfl ?_ rfl rfl rfl (UInt64.le_refl _)
    rw [added]
    split_ifs
    · rfl
    · exact storedPictures_part _ fun picture hp ↦ by cases hp
  | writeMemory | resetConsole | loadSaveState | changeCounter =>
    exact h.skip rfl (storedPictures_part _ fun picture hp ↦ by cases hp) rfl rfl rfl
      (UInt64.le_refl _)
  | _ => exact h.skip rfl rfl rfl rfl rfl (UInt64.le_refl _)

end Recorder

/-! ## The closed file -/

/-- Lossless pictures are read back as they were stored. -/
theorem picturesOf_flatten {read : List Part} {packets : List (List Packet)}
    (h : List.Forall₂ Part.ReadAs read packets) (hown : ∀ part ∈ read, part.Own)
    (hjpeg : ∀ picture ∈ storedPictures read, picture.jpeg = false) :
    picturesOf packets.flatten = storedPictures read := by
  induction h with
  | nil => rfl
  | @cons part ps read packets hpart _ ih =>
    obtain ⟨hone, hrest⟩ := List.forall_mem_cons.mp hown
    have hsplit : storedPictures (part :: read) = storedPictures [part] ++ storedPictures read :=
      storedPictures_append [part] read
    rw [hsplit] at hjpeg ⊢
    rw [List.flatten_cons, picturesOf_append,
      ih hrest fun picture hmem ↦ hjpeg picture (List.mem_append_right _ hmem)]
    congr 1
    cases part with
    | packet p extra =>
      obtain rfl : ps = [p.readBack] := hpart
      cases p with
      | thumbnail picture =>
        have hlossless : picture.jpeg = false := hjpeg picture (by simp [storedPictures])
        have hsame : { picture with againstPrevious := picture.againstPrevious && !picture.jpeg } =
            picture := by
          cases picture
          dsimp only at hlossless
          subst hlossless
          simp
        change [{ picture with againstPrevious := picture.againstPrevious && !picture.jpeg }] = [picture]
        rw [hsame]
      | _ => rfl
    | keyframe k =>
      obtain ⟨stateLen, uncompressedLen, frameLen, frameOffset, tables, rfl, htables⟩ := hpart
      refine List.filterMap_eq_nil_iff.mpr fun p hp ↦ ?_
      rcases List.mem_cons.mp hp with rfl | hp
      · rfl
      · obtain ⟨table, rfl⟩ := htables p hp
        rfl

/-- Externals whose compressor takes anything: what is too long for a raw block stands behind one
byte. -/
def Externals.roomy : Externals :=
  { Externals.plain with
    zstd := { rawZstd with
      compress2 := fun level window pfx data ↦
        match rawZstd.compress2 level window pfx data with
        | .ok frame => .ok frame
        | .error _ => .ok (0 :: data)
      frameContentSize := fun frame ↦
        match frame with
        | 0 :: data => data.length
        | frame => rawZstd.frameContentSize frame
      decompressDCtx := fun pfx size frame ↦
        match frame with
        | 0 :: data => .ok data
        | frame => rawZstd.decompressDCtx pfx size frame } }

theorem Externals.roomy_compresses : Recorder.Compresses Externals.roomy := by
  intro level window pfx data
  simp only [Externals.roomy]
  split
  · exact ⟨_, rfl⟩
  · exact ⟨_, rfl⟩

theorem Externals.roomy_restores : Externals.roomy.zstd.Restores := by
  have hframe : ∀ {level : Int} {window : Option Nat} {pfx data frame : Bytes},
      Externals.roomy.zstd.compress2 level window pfx data = .ok frame →
      (rawZstd.compress2 level window pfx data = .ok frame ∧ ∃ rest, frame = 0x28 :: rest) ∨
        frame = 0 :: data := by
    intro level window pfx data frame h
    simp only [Externals.roomy] at h
    cases hraw : rawZstd.compress2 level window pfx data with
    | error e =>
      rw [hraw] at h
      cases h
      exact .inr rfl
    | ok frame' =>
      rw [hraw] at h
      cases h
      refine .inl ⟨rfl, ?_⟩
      simp only [rawZstd] at hraw
      split at hraw
      · cases hraw
        exact ⟨_, rfl⟩
      · cases hraw
  constructor
  · intro level window pfx data frame h
    rcases hframe h with ⟨hraw, rest, rfl⟩ | rfl
    · exact rawZstd_lossless.contentSize hraw
    · rfl
  · intro level window pfx data frame h
    rcases hframe h with ⟨hraw, rest, rfl⟩ | rfl
    · exact rawZstd_lossless.decompress hraw
    · rfl
  · intro level window pfx data frame h hnil
    subst hnil
    rcases hframe h with ⟨-, rest, h⟩ | h
    · cases h
    · cases h

namespace Recorder

variable {x : Externals} {patch : Bytes}

/-- **Timeline pictures decode to what was recorded**, in any order: on the closed file of a Nintendo
3DS recording without JPEG pictures each query finds the frame and both screens of the last picture
that was recorded at or before its frame, whatever the queries before it left; but nothing when one
of the screens of that picture has no pixels, too many, or not two bytes for each. -/
theorem thumbnails_recorded (hz : x.zstd.Restores) (hx : Compresses x)
    {metadata : ReplayFileMetadata} {settings : RecorderSettings} {start : TimestampMillis}
    {input : InputBuffer} {speed : Speed} {state : ByteVec} {finalSink tempSink : Sink}
    (hconsole : metadata.consoleType = .nintendo3DS)
    (hquality : settings.storedThumbnailJpegQuality = 0)
    (hfinal : finalSink.Sound) (htemp : tempSink.Sound)
    (hfinalEmpty : finalSink.bytes = []) (htempEmpty : tempSink.bytes = []) {r₀ r r' : Recorder}
    (hnew : newWithMetadata x metadata patch settings start input speed state finalSink tempSink =
      .ok r₀ ()) {calls : List Call} {results : List (Except ReplayFileWriteError Unit)}
    (hsized : ∀ top bottom, Call.thumbnail top bottom ∈ calls → top.Sized ∧ bottom.Sized)
    (hrun : run x calls r₀ = some (results, r)) {finalFile tempFile : Sink}
    (hclose : close x r = .ok (finalFile, tempFile, none) r')
    (hlen : finalFile.bytes.length < 2 ^ 63) {player : ReplayFilePlayer}
    (hopen : ReplayFilePlayer.new x finalFile.bytes false = .ok player)
    (decodeJpeg : Bytes → Nat → Nat → Option Bytes) (frames : List UnsignedInteger) :
    player.file.thumbnailsAtOrBefore x decodeJpeg frames none = frames.map fun frame ↦
      (lastPicture (album x calls r₀) frame).filter fun picture ↦ decide picture.Showable := by
  obtain ⟨header, b₀, hheader, hcourse₀, hfirst⟩ :=
    onCourse_newWithMetadata hfinal htemp hfinalEmpty htempEmpty hconsole hnew
  have hstart : Filming x [] [] (.start settings header) := by
    refine ⟨?_, .nil, .nil, fun picture hpicture ↦ absurd hpicture List.not_mem_nil,
      fun picture hpicture ↦ absurd hpicture List.not_mem_nil⟩
    rw [Course.start, normaliseSettings]
    split <;> exact hquality
  have hrunAll : run x (.insertKeyframe state start .auto :: calls) b₀ =
      some (.ok () :: results, r) := by
    rw [run, hfirst]
    dsimp only
    rw [hrun]
    rfl
  have halbum : (accepted x (.insertKeyframe state start .auto :: calls) b₀).filterMap pictureOf =
      album x calls r₀ := by
    rw [accepted, hfirst]
    rfl
  obtain ⟨log, c, -, hcourse, hfilming, hsame⟩ := hcourse₀.run_accepted (I := Filming x) hx
    (fun hmem hc hI hrun ↦ hI.next hc (fun top bottom hcall ↦ by
      subst hcall
      rcases List.mem_cons.mp hmem with h | hmem
      · cases h
      · exact hsized top bottom hmem) hrun)
    (fun hI ↦ ⟨hI.quality, hI.filmed, hI.ordered, fun picture hpicture ↦
      UInt64.le_trans (hI.before picture hpicture) (le_saturatingSucc _), hI.sized⟩) [] hstart hrunAll
  obtain ⟨-, hfilmed, hordered, -, hscreens⟩ := hfilming
  rw [List.nil_append, halbum] at hfilmed hordered hscreens
  have hread : Filmed.Read x decodeJpeg _ _ _ _ := hfilmed.read hz hscreens
  obtain ⟨source, file, hfile, rfl⟩ := ReplayFilePlayer.read_of_new hopen
  have hstream := hcourse.closed hx (hsame ▸ hheader) hclose (hlen.trans (by decide))
  obtain ⟨read, packets, -, hreadAs, -, hall⟩ :=
    hstream.packets hcourse.own (hlen.trans (by decide)) hfile
  obtain ⟨rfl, hpackets⟩ := hall rfl
  have hpictures : picturesOf file.packets = storedPictures read := by
    rw [hpackets, picturesOf_flatten hreadAs hcourse.own hread.jpeg]
  obtain ⟨hplaces, hthumbnail⟩ := pictured_of_read hfile
  rw [hpictures] at hplaces hthumbnail
  change file.thumbnailsAtOrBefore x decodeJpeg frames none = _
  rw [thumbnailsAtOrBefore_eq hthumbnail hplaces hread.grouped (fun kept hkept ↦ by cases hkept)]
  exact List.map_congr_left fun frame _ ↦ hread.pictureBefore_eq hordered frame

/-- Two pictures of one pixel on each screen, the second with another top screen, and a frame between
them. -/
def twoPictures : List Call :=
  [.thumbnail (1, 1, [1, 2]) (1, 1, [3, 4]), .nextFrame 16,
    .thumbnail (1, 1, [5, 6]) (1, 1, [3, 4])]

/-- Queries forward and back. -/
theorem thumbnails_recorded_two :
    ∃ (r₀ r r' : Recorder) (results : List (Except ReplayFileWriteError Unit))
      (finalFile tempFile : Sink) (player : ReplayFilePlayer),
      newWithMetadata .roomy (.unnamed .nintendo3DS) [7] exampleSettings 0 [] Speed.default [1, 2]
        Sink.reliable Sink.reliable = .ok r₀ () ∧
      run .roomy twoPictures r₀ = some (results, r) ∧
      close .roomy r = .ok (finalFile, tempFile, none) r' ∧
      ReplayFilePlayer.new .roomy finalFile.bytes false = .ok player ∧
      player.file.thumbnailsAtOrBefore .roomy (fun _ _ _ ↦ none) [1, 0, 2] none =
        [some ⟨1, (1, 1, [5, 6]), (1, 1, [3, 4])⟩, some ⟨0, (1, 1, [1, 2]), (1, 1, [3, 4])⟩,
          some ⟨1, (1, 1, [5, 6]), (1, 1, [3, 4])⟩] := by
  obtain ⟨r₀, ⟨⟩, hnew, hrest⟩ := Outcome.exists_ok_of_any
    (o := newWithMetadata .roomy (.unnamed .nintendo3DS) [7] exampleSettings 0 [] Speed.default [1, 2]
      Sink.reliable Sink.reliable)
    (f := fun r₀ _ ↦ decide ((([1, 0, 2] : List UnsignedInteger).map fun frame ↦
          (lastPicture (album .roomy twoPictures r₀) frame).filter fun picture ↦
            decide picture.Showable) =
        [some ⟨1, (1, 1, [5, 6]), (1, 1, [3, 4])⟩, some ⟨0, (1, 1, [1, 2]), (1, 1, [3, 4])⟩,
          some ⟨1, (1, 1, [5, 6]), (1, 1, [3, 4])⟩]) &&
      (run .roomy twoPictures r₀).any fun done ↦
        (close .roomy done.2).any fun (result : Sink × Sink × Option ReplayFileWriteError) _ ↦
          decide (result.2.2 = none ∧ result.1.bytes.length < 2 ^ 63) &&
          (ReplayFilePlayer.new .roomy result.1.bytes false).toOption.any fun _ ↦ true)
    (by decide +kernel)
  rw [Bool.and_eq_true, decide_eq_true_iff] at hrest
  obtain ⟨hshown, hrest⟩ := hrest
  obtain ⟨⟨results, r⟩, hrun, hrest⟩ := (Option.any_eq_true _ _).mp hrest
  obtain ⟨⟨finalFile, tempFile, error⟩, r', hclose, hrest⟩ := Outcome.exists_ok_of_any hrest
  rw [Bool.and_eq_true, decide_eq_true_iff] at hrest
  obtain ⟨⟨rfl, hlen⟩, hrest⟩ := hrest
  obtain ⟨player, hopen, -⟩ := exists_ok_of_any hrest
  have hsound : Sink.reliable.Sound := fun o ho ↦ by cases ho
  have hsized : ∀ top bottom, Call.thumbnail top bottom ∈ twoPictures →
      top.Sized ∧ bottom.Sized := by
    intro top bottom hmem
    simp only [twoPictures, List.mem_cons, Call.thumbnail.injEq, reduceCtorEq, List.not_mem_nil,
      or_false, false_or] at hmem
    rcases hmem with ⟨rfl, rfl⟩ | ⟨rfl, rfl⟩ <;> simp [Screen.Sized]
  have hall := thumbnails_recorded Externals.roomy_restores Externals.roomy_compresses rfl rfl hsound
    hsound rfl rfl hnew hsized hrun hclose hlen hopen (fun _ _ _ ↦ none) [1, 0, 2]
  exact ⟨r₀, r, r', results, finalFile, tempFile, player, hnew, hrun, hclose, hopen,
    hall.trans hshown⟩

/-- **A picture of screens without pixels is recorded and never found.** -/
theorem thumbnails_empty_screens :
    ∃ (r₀ r r' : Recorder) (finalFile tempFile : Sink) (player : ReplayFilePlayer),
      newWithMetadata .roomy (.unnamed .nintendo3DS) [7] exampleSettings 0 [] Speed.default [1, 2]
        Sink.reliable Sink.reliable = .ok r₀ () ∧
      run .roomy [.thumbnail (0, 0, []) (0, 0, [])] r₀ = some ([.ok ()], r) ∧
      close .roomy r = .ok (finalFile, tempFile, none) r' ∧
      ReplayFilePlayer.new .roomy finalFile.bytes false = .ok player ∧
      lastPicture (album .roomy [.thumbnail (0, 0, []) (0, 0, [])] r₀) 0 =
        some ⟨0, (0, 0, []), (0, 0, [])⟩ ∧
      player.file.thumbnailsAtOrBefore .roomy (fun _ _ _ ↦ none) [0] none = [none] := by
  have hplays := Outcome.exists_ok_of_any
    (o := newWithMetadata .roomy (.unnamed .nintendo3DS) [7] exampleSettings 0 [] Speed.default [1, 2]
      Sink.reliable Sink.reliable)
    (f := fun r₀ _ ↦ decide (lastPicture (album .roomy [.thumbnail (0, 0, []) (0, 0, [])] r₀) 0 =
        some ⟨0, (0, 0, []), (0, 0, [])⟩) &&
      (run .roomy [.thumbnail (0, 0, []) (0, 0, [])] r₀).any fun (done : List (Except ReplayFileWriteError Unit) × Recorder) ↦
        decide (done.1.length = 1) && done.1.all Except.isOk && (close .roomy done.2).any fun (result : Sink × Sink × Option ReplayFileWriteError) _ ↦
          decide (result.2.2 = none) &&
          (ReplayFilePlayer.new .roomy result.1.bytes false).toOption.any fun player ↦
            decide (player.file.thumbnailsAtOrBefore .roomy (fun _ _ _ ↦ none) [0] none = [none]))
    (by decide +kernel)
  obtain ⟨r₀, ⟨⟩, hnew, hrest⟩ := hplays
  rw [Bool.and_eq_true, decide_eq_true_iff] at hrest
  obtain ⟨hlast, hrest⟩ := hrest
  obtain ⟨⟨results, r⟩, hrun, hrest⟩ := (Option.any_eq_true _ _).mp hrest
  simp only [Bool.and_eq_true, decide_eq_true_iff] at hrest
  obtain ⟨⟨hone, hok⟩, hrest⟩ := hrest
  obtain ⟨_ | ⟨⟩, rfl⟩ := List.length_eq_one_iff.mp hone
  · cases hok
  obtain ⟨⟨finalFile, tempFile, error⟩, r', hclose, hrest⟩ := Outcome.exists_ok_of_any hrest
  rw [Bool.and_eq_true, decide_eq_true_iff] at hrest
  obtain ⟨rfl, hrest⟩ := hrest
  obtain ⟨player, hopen, hnone⟩ := exists_ok_of_any hrest
  exact ⟨r₀, r, r', finalFile, tempFile, player, hnew, hrun, hclose, hopen, hlast,
    of_decide_eq_true hnone⟩

end Recorder

end SuperShuckie
