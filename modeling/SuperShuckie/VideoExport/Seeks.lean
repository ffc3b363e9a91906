import SuperShuckie.VideoExport.Course

/-!
# Seeks land

A seek loads a keyframe, runs on from it, and may do so again from the same keyframe or from earlier
ones.  Whatever the console says is missing from its picture, a seek that succeeds has completed and
drawn the frame it was asked for, unless the replay ended before (`goToReplayFrame_lands`).
-/

set_option autoImplicit false

namespace SuperShuckie

namespace VideoExport

namespace Course

variable {C G : Type} {E : DeterministicCore C G} {r : Footage} {course : Course E r}
  {s t : ReplayCore C}

/-- A keyframe at or before `frame` has been loaded. -/
structure Loaded (course : Course E r) (frame : Nat) (s : ReplayCore C) : Prop
    extends Driving s where
  ready : course.Ready s
  totalFrames_le : s.totalFrames ≤ frame
  keyframe_le : s.replayKeyframeLoaded ≤ frame

/-- What a seek for frame `desired` comes to. -/
structure Sought (course : Course E r) (desired : Nat)
    (found : Except String Unit × ReplayCore C) : Prop where
  landed : found.1 = .ok () → course.Landed (desired + 1) found.2
  keyframe_le : found.1 = .ok () → found.2.replayKeyframeLoaded ≤ desired

/-! ## Keyframes -/

theorem load_spec (course : Course E r) {fuel frame : Nat} {result : Except String Unit}
    (h : s.loadReplayKeyframeAtOrBefore E r fuel frame = (result, t))
    (hstopped : s.replayPlaybackStopped = false) :
    t.replayPlaybackStopped = false ∧ (result = .ok () → course.Loaded frame t) := by
  induction fuel generalizing frame with
  | zero =>
    cases h
    exact ⟨hstopped, fun h ↦ nomatch h⟩
  | succ fuel ih =>
    rw [ReplayCore.loadReplayKeyframeAtOrBefore] at h
    cases hread : r.read frame with
    | noSuchKeyframe best =>
      rw [hread] at h
      dsimp only at h
      split_ifs at h with hbest
      · cases h
        exact ⟨hstopped, fun h ↦ nomatch h⟩
      · obtain ⟨hstopped', hloaded⟩ := ih h
        refine ⟨hstopped', fun hok ↦ ?_⟩
        obtain ⟨hdriving, hready, htotal, hkeyframe⟩ := hloaded hok
        exact ⟨hdriving, hready, by omega, by omega⟩
    | readError error =>
      rw [hread] at h
      cases h
      exact ⟨hstopped, fun h ↦ nomatch h⟩
    | noKeyframeFound =>
      rw [hread] at h
      cases h
      exact ⟨hstopped, fun h ↦ nomatch h⟩
    | keyframe keyframe =>
      rw [hread] at h
      dsimp only at h
      obtain ⟨hle, hcourse⟩ := course.keyframe hread
      split at h
      · cases h
        exact ⟨hstopped, fun h ↦ nomatch h⟩
      · next core hload =>
        cases h
        obtain ⟨hmid, hnext⟩ := hcourse hload
        exact ⟨hstopped, fun _ ↦ ⟨⟨rfl, hstopped⟩, ⟨rfl, hmid, hnext⟩, hle, hle⟩⟩

theorem keyframeLoaded_runUnlocked (drawn : Bool) :
    (s.runUnlocked E r drawn).replayKeyframeLoaded = s.replayKeyframeLoaded := by
  have hread : (s.handleReplay E r).replayKeyframeLoaded =
      s.replayKeyframeLoaded := by
    unfold ReplayCore.handleReplay
    dsimp only
    split
    · rfl
    · split <;> rfl
  unfold ReplayCore.runUnlocked
  dsimp only
  split
  · rfl
  · split <;> exact hread

theorem keyframeLoaded_runFrames {drawn : Nat → Bool} {target fuel : Nat}
    (h : s.runFrames E r drawn target fuel = some t) :
    t.replayKeyframeLoaded = s.replayKeyframeLoaded := by
  induction fuel generalizing s with
  | zero =>
    rw [ReplayCore.runFrames] at h
    split at h
    · cases h
    · cases h
      rfl
  | succ fuel ih =>
    rw [ReplayCore.runFrames] at h
    split at h
    · rw [ih h, keyframeLoaded_runUnlocked]
    · cases h
      rfl

/-! ## Running on -/

/-- Running on from a keyframe lands: the frame after `desired` is always drawn. -/
theorem runReplayToDrawingFrom_lands {desired : Nat} (drawFrom : Nat) (hlt : desired < 2 ^ 64)
    (h : course.Loaded desired s) :
    ∃ t, Settles (fun fuel ↦ s.runReplayToDrawingFrom E r fuel desired drawFrom) t ∧
      course.Sought desired (.ok (), t) := by
  have hlast : (fun total ↦ !(decide (saturatingAdd total (E.seekDrawTailFrames s.core) < desired)
      && decide (total < drawFrom))) (desired + 1 - 1) = true := by
    have hdrawn : ¬saturatingAdd desired (E.seekDrawTailFrames s.core) < desired := by
      unfold saturatingAdd
      omega
    dsimp only
    rw [Nat.add_sub_cancel, decide_eq_false hdrawn]
    rfl
  obtain ⟨t, ht, hlanded⟩ : ∃ t, Settles (fun fuel ↦ s.runReplayToDrawingFrom E r
      fuel desired drawFrom) t ∧ course.Landed (desired + 1) t :=
    runFrames_lands hlast ⟨h.toDriving, .inl h.ready⟩ (Nat.lt_succ_of_le h.totalFrames_le)
  refine ⟨t, ht, ⟨fun _ ↦ hlanded, fun _ ↦ ?_⟩⟩
  obtain ⟨n, hn⟩ := ht
  rw [show ((.ok (), t) : Except String Unit × ReplayCore C).2 = t from rfl,
    keyframeLoaded_runFrames (hn n (Nat.le_refl n))]
  exact h.keyframe_le

theorem Landed.stopped {target : Nat} (h : course.Landed target s) :
    s.replayPlaybackStopped = false := by
  rcases h with ⟨hstuck, -⟩ | ⟨harrived, -⟩
  · exact hstuck.stopped
  · exact harrived.stopped

/-- A seek that failed. -/
theorem Sought.error {desired : Nat} {e : String} : course.Sought desired (.error e, t) :=
  ⟨(nomatch ·), (nomatch ·)⟩

theorem Loaded.mono {frame desired : Nat} (h : course.Loaded frame s) (hle : frame ≤ desired) :
    course.Loaded desired s :=
  ⟨h.toDriving, h.ready, by have := h.totalFrames_le; omega, by have := h.keyframe_le; omega⟩

/-- Loading a keyframe and running on from it. -/
theorem reload_lands {frame desired : Nat} (fuel drawFrom : Nat) (hle : frame ≤ desired)
    (hlt : desired < 2 ^ 64) (hstopped : s.replayPlaybackStopped = false) :
    ∃ found, Settles (fun n ↦
        match s.loadReplayKeyframeAtOrBefore E r fuel frame with
        | (.error e, s) => some (.error e, s)
        | (.ok _, s) => do
          let s ← s.runReplayToDrawingFrom E r n desired drawFrom
          some (.ok (), s)) found ∧
      course.Sought desired found := by
  cases hload : s.loadReplayKeyframeAtOrBefore E r fuel frame with
  | mk result s' =>
    obtain ⟨-, hloaded⟩ := load_spec course hload hstopped
    cases result with
    | error e => exact ⟨_, .const _, .error⟩
    | ok _ =>
      obtain ⟨t, ht, hsought⟩ :=
        runReplayToDrawingFrom_lands drawFrom hlt ((hloaded rfl).mono hle)
      exact ⟨_, ht.bind (.const _), hsought⟩

theorem runReplayToCompletePicture_lands {desired : Nat} (hlt : desired < 2 ^ 64)
    (h : course.Loaded desired s) :
    ∃ found, Settles (fun fuel ↦ s.runReplayToCompletePicture E r fuel desired)
        found ∧ course.Sought desired found := by
  obtain ⟨t, ht, hsought⟩ := runReplayToDrawingFrom_lands (2 ^ 64 - 1) hlt h
  unfold ReplayCore.runReplayToCompletePicture
  cases hstale : E.skippedDrawsLeftStale t.core with
  | none =>
    refine ⟨_, ht.bind ?_, hsought⟩
    simp only [hstale]
    exact .const _
  | some framesAgo =>
    cases hstalled : t.replayStalled with
    | true =>
      refine ⟨_, ht.bind ?_, hsought⟩
      simp only [hstale, hstalled, if_true]
      exact .const _
    | false =>
      obtain ⟨found, hfound, hsought'⟩ :=
        reload_lands (s := { t with replaySeekRedraws := t.replaySeekRedraws + 1 })
          (t.replayKeyframeLoaded + 1) (t.totalFrames - framesAgo) (hsought.keyframe_le rfl) hlt
          (hsought.landed rfl).stopped
      refine ⟨found, ht.bind ?_, hsought'⟩
      have hgoes : ¬t.replayStalled = true := by rw [hstalled]; exact Bool.false_ne_true
      simp only [hstale, if_neg hgoes]
      exact hfound

theorem le_of_keyframeBefore {keyframe back earlier : Nat}
    (h : ReplayCore.keyframeBefore r keyframe back = some earlier) : earlier < keyframe := by
  have hmem := List.mem_reverse.1 (List.mem_of_getElem? h)
  exact of_decide_eq_true (List.mem_filter.1 hmem).2

/-! ## Seeking -/

/-- Starting again from earlier keyframes still lands. -/
theorem fallBack_lands {desired keyframe : Nat} (hkeyframe : keyframe ≤ desired)
    (hlt : desired < 2 ^ 64) (backs : List Nat) (h : course.Landed (desired + 1) s)
    (hloaded : s.replayKeyframeLoaded ≤ desired) :
    ∃ found, Settles (fun fuel ↦ s.fallBack E r fuel desired keyframe backs) found ∧
      course.Sought desired found := by
  induction backs generalizing s with
  | nil => exact ⟨_, .const _, ⟨fun _ ↦ h, fun _ ↦ hloaded⟩⟩
  | cons back rest ih =>
    unfold ReplayCore.fallBack
    cases hstale : E.showsStaleOutput s.core with
    | false =>
      simp only [Bool.false_eq_true, if_false]
      exact ⟨_, .const _, ⟨fun _ ↦ h, fun _ ↦ hloaded⟩⟩
    | true =>
      simp only [if_true]
      cases hearlier : ReplayCore.keyframeBefore r keyframe back with
      | none => exact ⟨_, .const _, ⟨fun _ ↦ h, fun _ ↦ hloaded⟩⟩
      | some earlier =>
        have hbefore := le_of_keyframeBefore hearlier
        cases hload : s.loadReplayKeyframeAtOrBefore E r (earlier + 1) earlier with
        | mk result s' =>
          obtain ⟨hstopped, hloaded'⟩ := load_spec course hload h.stopped
          cases result with
          | error e =>
            obtain ⟨found, hfound, hsought⟩ :=
              reload_lands (keyframe + 1) (2 ^ 64 - 1) hkeyframe hlt hstopped
            refine ⟨found, ?_, hsought⟩
            simp only [hload]
            exact hfound
          | ok _ =>
            obtain ⟨t, ht, hsought⟩ := runReplayToDrawingFrom_lands (2 ^ 64 - 1) hlt
              ((hloaded' rfl).mono (by omega))
            obtain ⟨found, hfound, hsought'⟩ := ih (hsought.landed rfl) (hsought.keyframe_le rfl)
            refine ⟨found, ?_, hsought'⟩
            simp only [hload]
            exact ht.bind hfound

theorem seekInReplay_lands {frame desired : Nat} (hle : frame ≤ desired)
    (hlt : desired < r.totalFrames) (hstopped : s.replayPlaybackStopped = false) :
    ∃ found, Settles (fun fuel ↦ s.seekInReplay E r fuel frame desired) found ∧
      course.Sought desired found := by
  have hbound : desired < 2 ^ 64 := by
    have := course.totalFrames_lt
    omega
  have hmin : min desired (r.totalFrames - 1) = desired := by omega
  unfold ReplayCore.seekInReplay
  rw [hmin]
  simp only [if_neg (Nat.not_le.2 hlt)]
  cases hload : s.loadReplayKeyframeAtOrBefore E r (frame + 1) frame with
  | mk result s' =>
    obtain ⟨-, hloaded⟩ := load_spec course hload hstopped
    cases result with
    | error e => exact ⟨_, .const _, .error⟩
    | ok _ =>
      obtain ⟨⟨result, t⟩, ht, hsought⟩ :=
        runReplayToCompletePicture_lands hbound ((hloaded rfl).mono hle)
      cases result with
      | error e => exact ⟨_, ht.bind (.const _), .error⟩
      | ok _ =>
        cases hstale : E.showsStaleOutput t.core with
        | false =>
          refine ⟨_, ht.bind ?_, hsought⟩
          simp only [hstale, Bool.false_eq_true, if_false]
          exact .const _
        | true =>
          obtain ⟨found, hfound, hsought'⟩ := fallBack_lands (hsought.keyframe_le rfl) hbound
            ReplayCore.staleFallbackKeyframes (hsought.landed rfl) (hsought.keyframe_le rfl)
          refine ⟨found, ht.bind ?_, hsought'⟩
          simp only [hstale, if_true]
          exact hfound

/-- **A seek lands** on its frame: if it succeeds, it has drawn it, unless the replay ended. -/
theorem goToReplayFrame_lands (course : Course E r) {frame : Nat} (hpos : 0 < r.totalFrames)
    (hle : frame ≤ r.totalFrames) (hstopped : s.replayPlaybackStopped = false) :
    ∃ found, Settles (fun fuel ↦ s.goToReplayFrame E r fuel frame) found ∧
      (found.1 = .ok () → course.Landed (max frame 1) found.2) := by
  obtain ⟨found, hfound, hsought⟩ : ∃ found, Settles (fun fuel ↦ s.seekInReplay E r
      fuel (frame - ReplayCore.postLoadFrames) (frame - 1)) found ∧
      course.Sought (frame - 1) found :=
    seekInReplay_lands (by unfold ReplayCore.postLoadFrames; omega) (by omega) hstopped
  refine ⟨found, hfound, fun hok ↦ ?_⟩
  have hlanded := hsought.landed hok
  rwa [show frame - 1 + 1 = max frame 1 by omega] at hlanded

end Course

end VideoExport

end SuperShuckie
