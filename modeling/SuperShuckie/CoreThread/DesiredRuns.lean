import SuperShuckie.CoreThread.Desired
import SuperShuckie.Lib.Runs

/-!
# A drag settles where it was released

A thread and an `ExactThread` take the same steps.  While no request waits and playback is not
frozen, a paused replay stands where the exact thread's does (`settles_as_exact`), in every run
whose steps meet `SeekMeets`.

Otherwise a step by some frames, taken while a frame is remembered for the end of the drag, is
undone when that frame is sought (`not_settles_stepped`); a replay that is attached while a request
waits or a frame is remembered is moved by it; and the frame `u32::MAX` is no request.
-/

set_option autoImplicit false

namespace SuperShuckie

namespace CoreThread

/-- The two threads, side by side. -/
abbrev BothThreads := SeekingThread × ExactThread

/-- Both take a step. -/
def stepBoth (event : SeekEvent) (both : BothThreads) : BothThreads :=
  (both.1.step event, both.2.step event)

/-- Both without a replay. -/
def startBoth (core : ReplayCore) : BothThreads := (.start core, .start core)

/-- Nothing that was asked of the thread waits, and it has a replay that is not frozen. -/
structure AllTaken (t : SeekingThread) : Prop where
  attached : t.core.replay.isSome = true
  unfrozen : t.playbackFrozen = false
  frame : t.desiredReplayFrame = noFrame
  delta : t.deltaReplayFrames = 0

instance (t : SeekingThread) : Decidable (AllTaken t) :=
  decidable_of_iff (t.core.replay.isSome = true ∧ t.playbackFrozen = false ∧
    t.desiredReplayFrame = noFrame ∧ t.deltaReplayFrames = 0)
    ⟨fun ⟨h₁, h₂, h₃, h₄⟩ ↦ ⟨h₁, h₂, h₃, h₄⟩, fun h ↦ ⟨h.1, h.2, h.3, h.4⟩⟩

/-- **A drag settles as if every seek had been exact.** -/
def SettlesAsExact (both : BothThreads) : Prop :=
  AllTaken both.1 → both.1.core.played.totalFrames = both.2.core.played.totalFrames

/-- **When a step is as it should be.** -/
def SeekMeets (event : SeekEvent) (t : SeekingThread) : Prop :=
  match event with
  -- The largest frame is not asked for.
  | .goToReplayFrame frame => frame.toNat ≠ noFrame
  -- No frame is remembered, or about to be, when frames are stepped by.
  | .pass _ _ => t.deltaReplayFrames ≠ 0 →
    if t.desiredReplayFrame = noFrame then t.pendingExactFrame = none else t.coarse = false
  -- Nothing is left of what was asked for another replay.
  | .attachReplayPlayer _ => t.desiredReplayFrame = noFrame ∧ t.deltaReplayFrames = 0 ∧
    t.pendingExactFrame = none
  | _ => True

instance (event : SeekEvent) (t : SeekingThread) : Decidable (SeekMeets event t) :=
  match event with
  | .goToReplayFrame frame => inferInstanceAs (Decidable (frame.toNat ≠ noFrame))
  | .pass _ _ => inferInstanceAs (Decidable (t.deltaReplayFrames ≠ 0 →
    if t.desiredReplayFrame = noFrame then t.pendingExactFrame = none else t.coarse = false))
  | .attachReplayPlayer _ => inferInstanceAs (Decidable (t.desiredReplayFrame = noFrame ∧
    t.deltaReplayFrames = 0 ∧ t.pendingExactFrame = none))
  | .advancePlaybackFrames _ | .setPlaybackFrozen _ | .setCoarseSeekWhileFrozen _
  | .detachReplayPlayer | .stopReplayPlayback | .resumeReplayPlayback | .goToReplayResumePoint =>
    isTrue trivial

/-! ## Where seeks land -/

/-- The frame that an exact seek ends on. -/
def land (r : SeekableReplay) (frame : Nat) : Nat :=
  max (min 1 r.totalFrames) (min frame r.totalFrames)

/-- A frame of the replay. -/
def Within (r : SeekableReplay) (frame : Nat) : Prop :=
  min 1 r.totalFrames ≤ frame ∧ frame ≤ r.totalFrames

variable {r : SeekableReplay} {frame : Nat} {played : PlayedCore} {c : ReplayCore}

theorem within_land (r : SeekableReplay) (frame : Nat) : Within r (land r frame) := by
  rw [Within, land]
  omega

theorem land_of_within (h : Within r frame) : land r frame = frame := by
  obtain ⟨hle, hge⟩ := h
  rw [land]
  omega

theorem totalFrames_goToReplayFrame (h : Within r played.totalFrames) :
    (played.goToReplayFrame r frame).totalFrames = land r frame := by
  obtain ⟨hle, hge⟩ := h
  obtain hframes | hframes := Nat.eq_zero_or_pos r.totalFrames
  · rw [PlayedCore.goToReplayFrame_of_empty hframes, land]
    omega
  · rw [(PlayedCore.goToReplayFrame_spec hframes).1, land]
    omega

theorem within_runOn {frames : Nat} (h : Within r played.totalFrames) :
    Within r (played.runOn r frames).totalFrames := by
  obtain ⟨hle, hge⟩ := h
  rw [PlayedCore.runOn]
  split_ifs with hrun
  · rw [Within]
    dsimp only
    omega
  · exact ⟨hle, hge⟩

/-- The core is on a frame of its replay, and a stopped one on its resume point. -/
structure Placed (c : ReplayCore) : Prop where
  within : ∀ r ∈ c.replay, Within r c.played.totalFrames
  resume : c.replay.isSome = true → c.replayPlaybackStopped = true →
    c.replayResumePoint = c.played.totalFrames

/-- **A seek** that stays within the replay leaves the core on its frame. -/
theorem Placed.goToReplayFrameInner {seek : SeekableReplay → PlayedCore → PlayedCore}
    (h : Placed c) (hseek : ∀ r ∈ c.replay, Within r (seek r c.played).totalFrames) :
    Placed (c.goToReplayFrameInner seek) := by
  rw [ReplayCore.goToReplayFrameInner]
  cases hreplay : c.replay with
  | none => exact h
  | some r =>
    refine ⟨fun r' hr' ↦ ?_, fun _ hstopped ↦ if_pos hstopped⟩
    cases hr'
    exact hseek r hreplay

theorem Placed.goToReplayFrame (h : Placed c) (frame : Nat) : Placed (c.goToReplayFrame frame) := by
  refine h.goToReplayFrameInner fun r hr ↦ ?_
  rw [totalFrames_goToReplayFrame (h.within r hr)]
  exact within_land r frame

theorem Placed.goToReplayFrameCoarse (h : Placed c) (frame settle : Nat) :
    Placed (c.goToReplayFrameCoarse frame settle) := by
  refine h.goToReplayFrameInner fun r hr ↦ within_runOn ?_
  rw [totalFrames_goToReplayFrame (h.within r hr)]
  exact within_land r _

theorem Placed.advance (h : Placed c) (delta : Int) : Placed (c.advance delta) := by
  rw [ReplayCore.advance]
  split_ifs
  · exact h.goToReplayFrame _
  · exact h

/-- What a seek leaves alone. -/
theorem goToReplayFrameInner_replay (seek : SeekableReplay → PlayedCore → PlayedCore) :
    (c.goToReplayFrameInner seek).replay = c.replay ∧
      (c.goToReplayFrameInner seek).replayPlaybackStopped = c.replayPlaybackStopped := by
  rw [ReplayCore.goToReplayFrameInner]
  cases hreplay : c.replay with
  | none => exact ⟨hreplay, rfl⟩
  | some r => exact ⟨rfl, rfl⟩

theorem advance_replay (delta : Int) : (c.advance delta).replay = c.replay ∧
    (c.advance delta).replayPlaybackStopped = c.replayPlaybackStopped := by
  rw [ReplayCore.advance]
  split_ifs
  · exact goToReplayFrameInner_replay _
  · exact ⟨rfl, rfl⟩

/-- An exact seek lands. -/
theorem Placed.land_goToReplayFrame (h : Placed c) (hr : c.replay = some r) :
    (c.goToReplayFrame frame).played.totalFrames = land r frame := by
  have hseek : (c.goToReplayFrame frame).played = c.played.goToReplayFrame r frame := by
    rw [ReplayCore.goToReplayFrame, ReplayCore.goToReplayFrameInner]
    rw [hr]
  rw [hseek, totalFrames_goToReplayFrame (h.within r hr)]

/-- Steps from the same frame end on the same frame. -/
theorem advance_congr {c' : ReplayCore} {delta : Int} (h : Placed c) (h' : Placed c')
    (hr : c.replay = some r) (hr' : c'.replay = some r)
    (hframe : c.played.totalFrames = c'.played.totalFrames) :
    (c.advance delta).played.totalFrames = (c'.advance delta).played.totalFrames := by
  rw [ReplayCore.advance, ReplayCore.advance]
  split_ifs
  · rw [h.land_goToReplayFrame hr, h'.land_goToReplayFrame hr', hframe]
  · exact hframe

/-! ## The threads keep in step -/

/-- What a thread still has to seek for what has been taken from it. -/
inductive Owes (r : SeekableReplay) (t : SeekingThread) (e : ExactThread) : Prop
  | nothing (hdesired : t.desiredReplayFrame = noFrame) (hpending : t.pendingExactFrame = none)
    (hframe : t.core.played.totalFrames = e.core.played.totalFrames)
  /-- The frame is remembered for the end of the drag. -/
  | remembered (frame : Nat) (hsome : frame ≠ noFrame) (hdesired : t.desiredReplayFrame = noFrame)
    (hpending : t.pendingExactFrame = some frame)
    (hframe : e.core.played.totalFrames = land r frame)
  /-- The drag has ended, and the next pass seeks its frame. -/
  | released (frame : Nat) (hsome : frame ≠ noFrame) (hdesired : t.desiredReplayFrame = frame)
    (hpending : t.pendingExactFrame = none) (hframe : e.core.played.totalFrames = land r frame)

/-- What is asked of the exact thread is asked of the other one, which may owe something else. -/
def Asked (r : SeekableReplay) (t : SeekingThread) (e : ExactThread) : Prop :=
  match e.desired with
  | some frame => frame ≠ noFrame ∧ t.desiredReplayFrame = frame
  | none => Owes r t e

/-- The threads are in step. -/
structure InStep (both : BothThreads) : Prop where
  replay : both.1.core.replay = both.2.core.replay
  stopped : both.1.core.replayPlaybackStopped = both.2.core.replayPlaybackStopped
  delta : both.1.deltaReplayFrames = both.2.delta
  unfrozen : both.1.playbackFrozen = false → both.1.pendingExactFrame = none
  placed : Placed both.1.core
  placed' : Placed both.2.core
  asked : ∀ r ∈ both.1.core.replay, Asked r both.1 both.2

variable {t : SeekingThread} {e : ExactThread} {core core' : ReplayCore}

/-- What is owed is told by the requests and by where the cores stand. -/
theorem Asked.congr {t' : SeekingThread} {e' : ExactThread} (h : Asked r t e)
    (hdesired : t'.desiredReplayFrame = t.desiredReplayFrame)
    (hpending : t'.pendingExactFrame = t.pendingExactFrame)
    (hframe : t'.core.played.totalFrames = t.core.played.totalFrames)
    (hwanted : e'.desired = e.desired)
    (hframe' : e'.core.played.totalFrames = e.core.played.totalFrames) : Asked r t' e' := by
  rw [Asked] at h ⊢
  rw [hwanted]
  cases hcase : e.desired with
  | some frame =>
    rw [hcase] at h
    exact ⟨h.1, hdesired.trans h.2⟩
  | none =>
    rw [hcase] at h
    cases h with
    | nothing hfree hnone hsame =>
      exact .nothing (hdesired.trans hfree) (hpending.trans hnone) (by rw [hframe, hframe', hsame])
    | remembered frame hsome hfree hremembered hland =>
      exact .remembered frame hsome (hdesired.trans hfree) (hpending.trans hremembered)
        (hframe'.trans hland)
    | released frame hsome hwaits hnone hland =>
      exact .released frame hsome (hdesired.trans hwaits) (hpending.trans hnone)
        (hframe'.trans hland)

/-- Something done to both cores that moves neither keeps the threads in step. -/
theorem InStep.congr (h : InStep (t, e)) (hreplay : core.replay = core'.replay)
    (hstopped : core.replayPlaybackStopped = core'.replayPlaybackStopped) (hplaced : Placed core)
    (hplaced' : Placed core') (hsame : core.replay = t.core.replay)
    (hframe : core.played.totalFrames = t.core.played.totalFrames)
    (hframe' : core'.played.totalFrames = e.core.played.totalFrames) :
    InStep ({ t with core }, { e with core := core' }) :=
  ⟨hreplay, hstopped, h.delta, h.unfrozen, hplaced, hplaced', fun r hr ↦
    (h.asked r (hsame ▸ hr)).congr rfl rfl hframe rfl hframe'⟩

theorem inStep_start (core : ReplayCore) : InStep (startBoth core) :=
  ⟨rfl, rfl, rfl, fun _ ↦ rfl, ⟨fun _ hr ↦ (nomatch hr), fun hr ↦ (nomatch hr)⟩,
    ⟨fun _ hr ↦ (nomatch hr), fun hr ↦ (nomatch hr)⟩, fun _ hr ↦ (nomatch hr)⟩

/-! ## Stopping and resuming -/

/-- Going back to the resume point moves nothing. -/
theorem Placed.totalFrames_resume (h : Placed c) (hreplay : c.replay.isSome = true)
    (hstopped : c.replayPlaybackStopped = true) :
    (c.goToReplayFrame c.replayResumePoint).played.totalFrames = c.played.totalFrames := by
  obtain ⟨r, hr⟩ := Option.isSome_iff_exists.1 hreplay
  rw [h.land_goToReplayFrame hr, h.resume hreplay hstopped, land_of_within (h.within r hr)]

theorem stopReplayPlayback_spec (h : Placed c) : Placed c.stopReplayPlayback ∧
    c.stopReplayPlayback.replay = c.replay ∧ c.stopReplayPlayback.played = c.played ∧
    c.stopReplayPlayback.replayPlaybackStopped =
      (c.replay.isSome && !c.replayPlaybackStopped || c.replayPlaybackStopped) := by
  rw [ReplayCore.stopReplayPlayback]
  split_ifs with hplays
  · refine ⟨⟨h.within, fun _ _ ↦ rfl⟩, rfl, rfl, ?_⟩
    simp [hplays.1]
  · refine ⟨h, rfl, rfl, ?_⟩
    cases hstopped : c.replayPlaybackStopped <;> simp_all

theorem resumeReplayPlayback_spec (h : Placed c) : Placed c.resumeReplayPlayback ∧
    c.resumeReplayPlayback.replay = c.replay ∧
    c.resumeReplayPlayback.played.totalFrames = c.played.totalFrames ∧
    c.resumeReplayPlayback.replayPlaybackStopped =
      (!c.replay.isSome && c.replayPlaybackStopped) := by
  rw [ReplayCore.resumeReplayPlayback]
  split_ifs with hstopped
  · obtain ⟨r, hr⟩ := Option.isSome_iff_exists.1 hstopped.1
    have hplays : Placed { c with replayPlaybackStopped := false } :=
      ⟨h.within, fun _ hstop ↦ (nomatch hstop)⟩
    have hkept := @goToReplayFrameInner_replay { c with replayPlaybackStopped := false }
      fun r played ↦ played.goToReplayFrame r c.replayResumePoint
    refine ⟨hplays.goToReplayFrame _, hkept.1, ?_, ?_⟩
    · rw [hplays.land_goToReplayFrame (r := r) hr, h.resume hstopped.1 hstopped.2,
        land_of_within (h.within r hr)]
    · rw [hstopped.1]
      exact hkept.2
  · refine ⟨h, rfl, rfl, ?_⟩
    cases hreplay : c.replay.isSome <;> simp_all

theorem goToReplayResumePoint_spec (h : Placed c) : Placed c.goToReplayResumePoint ∧
    c.goToReplayResumePoint.replay = c.replay ∧
    c.goToReplayResumePoint.played.totalFrames = c.played.totalFrames ∧
    c.goToReplayResumePoint.replayPlaybackStopped = c.replayPlaybackStopped := by
  rw [ReplayCore.goToReplayResumePoint]
  split_ifs with hstopped
  · have hkept := @goToReplayFrameInner_replay c
      fun r played ↦ played.goToReplayFrame r c.replayResumePoint
    exact ⟨h.goToReplayFrame _, hkept.1, h.totalFrames_resume hstopped.1 hstopped.2, hkept.2⟩
  · exact ⟨h, rfl, rfl, rfl⟩

/-! ## A pass -/

/-- What the absolute seek of a pass leaves alone. -/
theorem seekDesired_kept (h : Placed t.core) (thumbnail : Bool) (settle frame : Nat) :
    Placed (t.seekDesired thumbnail settle frame).core ∧
      (t.seekDesired thumbnail settle frame).core.replay = t.core.replay ∧
      (t.seekDesired thumbnail settle frame).core.replayPlaybackStopped =
        t.core.replayPlaybackStopped ∧
      (t.seekDesired thumbnail settle frame).playbackFrozen = t.playbackFrozen ∧
      (t.seekDesired thumbnail settle frame).desiredReplayFrame = t.desiredReplayFrame ∧
      (t.seekDesired thumbnail settle frame).deltaReplayFrames = t.deltaReplayFrames ∧
      (t.playbackFrozen = false → t.pendingExactFrame = none →
        (t.seekDesired thumbnail settle frame).pendingExactFrame = none) := by
  have hcoarse : t.playbackFrozen = false → t.coarse = false := by
    intro hfrozen
    rw [SeekingThread.coarse, hfrozen, Bool.false_and]
  rw [SeekingThread.seekDesired]
  split_ifs with hnone hthumbnail hdrag
  · exact ⟨h, rfl, rfl, rfl, rfl, rfl, fun _ hpending ↦ hpending⟩
  · refine ⟨h, rfl, rfl, rfl, rfl, rfl, fun hfrozen _ ↦ ?_⟩
    rw [hcoarse hfrozen] at hthumbnail
    cases hthumbnail.1
  · have hkept := @goToReplayFrameInner_replay t.core
      fun r played ↦ (played.goToReplayFrame r (coarseReplayFrame r frame)).runOn r
        (min settle maxCoarseSettleFrames)
    refine ⟨h.goToReplayFrameCoarse frame settle, hkept.1, hkept.2, rfl, rfl, rfl,
      fun hfrozen _ ↦ ?_⟩
    rw [hcoarse hfrozen] at hdrag
    cases hdrag
  · have hkept := @goToReplayFrameInner_replay t.core fun r played ↦ played.goToReplayFrame r frame
    refine ⟨h.goToReplayFrame frame, hkept.1, hkept.2, rfl, rfl, rfl, fun _ _ ↦ ?_⟩
    exact if_neg fun hfar ↦ hdrag hfar.1

/-- **The absolute seek of a pass** lands on its frame, or the frame is remembered. -/
theorem seekDesired_spec (h : Placed t.core) (hr : t.core.replay = some r)
    (hframe : frame ≠ noFrame) (thumbnail : Bool) (settle : Nat) :
    (t.seekDesired thumbnail settle frame).pendingExactFrame = none ∧
        (t.seekDesired thumbnail settle frame).core.played.totalFrames = land r frame ∨
      t.coarse = true ∧
        (t.seekDesired thumbnail settle frame).pendingExactFrame = some frame := by
  rw [SeekingThread.seekDesired, if_neg hframe]
  split_ifs with hthumbnail hdrag
  · exact Or.inr ⟨hthumbnail.1, rfl⟩
  · dsimp only
    by_cases hat : (t.core.goToReplayFrameCoarse frame settle).played.totalFrames = frame
    · have hplaced := h.goToReplayFrameCoarse frame settle
      have hkept := @goToReplayFrameInner_replay t.core
        fun r played ↦ (played.goToReplayFrame r (coarseReplayFrame r frame)).runOn r
          (min settle maxCoarseSettleFrames)
      have hwithin := hplaced.within r (hkept.1.trans hr)
      rw [hat] at hwithin
      refine Or.inl ⟨if_neg fun hfar ↦ hfar.2 hat, ?_⟩
      rw [hat, land_of_within hwithin]
    · exact Or.inr ⟨hdrag, if_pos ⟨hdrag, hat⟩⟩
  · exact Or.inl ⟨if_neg fun hfar ↦ hdrag hfar.1, h.land_goToReplayFrame hr⟩

/-- The absolute seek of the exact thread. -/
theorem exact_seekDesired_spec (h : Placed e.core) : Placed e.seekDesired ∧
    e.seekDesired.replay = e.core.replay ∧
    e.seekDesired.replayPlaybackStopped = e.core.replayPlaybackStopped ∧
    ∀ r, e.core.replay = some r → e.seekDesired.played.totalFrames =
      match e.desired with
      | some frame => land r frame
      | none => e.core.played.totalFrames := by
  rw [ExactThread.seekDesired]
  cases e.desired with
  | none => exact ⟨h, rfl, rfl, fun _ _ ↦ rfl⟩
  | some frame =>
    have hkept := @goToReplayFrameInner_replay e.core fun r played ↦ played.goToReplayFrame r frame
    exact ⟨h.goToReplayFrame frame, hkept.1, hkept.2, fun r hr ↦ h.land_goToReplayFrame hr⟩

/-- What is owed after a pass whose absolute seek was for a frame. -/
theorem owes_of_sought {sought : SeekingThread} {core : ReplayCore} {delta : Int}
    (hr : sought.core.replay = some r) (hr' : core.replay = some r) (hplaced : Placed sought.core)
    (hplaced' : Placed core) (hsome : frame ≠ noFrame) (hdesired : sought.desiredReplayFrame = noFrame)
    (hland : core.played.totalFrames = land r frame)
    (hsought : sought.pendingExactFrame = none ∧ sought.core.played.totalFrames = land r frame ∨
      delta = 0 ∧ sought.pendingExactFrame = some frame) :
    Owes r { sought with core := sought.core.advance delta } ⟨core.advance delta, none, 0⟩ := by
  obtain ⟨hpending, hlanded⟩ | ⟨rfl, hpending⟩ := hsought
  · exact .nothing hdesired hpending
      (advance_congr hplaced hplaced' hr hr' (by rw [hlanded, hland]))
  · exact .remembered frame hsome hdesired hpending hland

/-- **A pass** that does not step while a frame is remembered keeps the threads in step. -/
theorem inStep_pass {thumbnail : Bool} {settle : Nat} (h : InStep (t, e))
    (hmeets : SeekMeets (.pass thumbnail settle) t) :
    InStep (t.goToDesiredFrame thumbnail settle, ⟨e.seekDesired.advance e.delta, none, 0⟩) := by
  have hplaced₀ : Placed t.taken.core := h.placed
  obtain ⟨hplaced, hreplay, hstopped, hfrozen, hdesired, hdelta, hpending⟩ :=
    seekDesired_kept hplaced₀ thumbnail settle t.desiredReplayFrame
  obtain ⟨hplaced', hreplay', hstopped', hland'⟩ := exact_seekDesired_spec h.placed'
  have hspec (r : SeekableReplay) (hr : t.taken.core.replay = some r)
      (hsome : t.desiredReplayFrame ≠ noFrame) :=
    seekDesired_spec hplaced₀ hr hsome thumbnail settle
  have hnone (hfree : t.desiredReplayFrame = noFrame) :
      t.taken.seekDesired thumbnail settle t.desiredReplayFrame = t.taken := by
    rw [SeekingThread.seekDesired, if_pos hfree]
  rw [SeekingThread.goToDesiredFrame]
  generalize t.taken.seekDesired thumbnail settle t.desiredReplayFrame = sought at *
  have hsame : t.deltaReplayFrames = e.delta := h.delta
  refine ⟨?_, ?_, hdelta, fun hunfrozen ↦ ?_, hplaced.advance _, hplaced'.advance _, fun r hr ↦ ?_⟩
  · dsimp only
    rw [(advance_replay _).1, (advance_replay _).1, hreplay, hreplay']
    exact h.replay
  · dsimp only
    rw [(advance_replay _).2, (advance_replay _).2, hstopped, hstopped']
    exact h.stopped
  · have hunfrozen' : t.playbackFrozen = false := hfrozen.symm.trans hunfrozen
    exact hpending hunfrozen' (h.unfrozen hunfrozen')
  · have hr₀ : t.core.replay = some r := by
      have hkept : t.taken.core.replay = t.core.replay := rfl
      rw [← hkept, ← hreplay, ← (advance_replay (c := sought.core) t.deltaReplayFrames).1]
      exact hr
    have hr₁ : e.core.replay = some r := by
      have hreplays : t.core.replay = e.core.replay := h.replay
      rw [← hreplays, hr₀]
    have hr₂ : sought.core.replay = some r := hreplay.trans hr₀
    have hr₃ : e.seekDesired.replay = some r := hreplay'.trans hr₁
    have hland := hland' r hr₁
    -- A frame that is coarsely sought leaves no frames to step by.
    have howes (frame : Nat) (hwaits : t.desiredReplayFrame = frame) (hsome : frame ≠ noFrame)
        (hland : e.seekDesired.played.totalFrames = land r frame) :
        Owes r { sought with core := sought.core.advance e.delta }
          ⟨e.seekDesired.advance e.delta, none, 0⟩ := by
      subst hwaits
      refine owes_of_sought hr₂ hr₃ hplaced hplaced' hsome hdesired hland ?_
      refine (hspec r hr₀ hsome).imp_right fun ⟨hcoarse, hremembered⟩ ↦ ⟨?_, hremembered⟩
      by_contra hstep
      have hexact := hmeets (by rwa [hsame])
      rw [if_neg hsome] at hexact
      have hdrag : t.coarse = true := hcoarse
      rw [hexact] at hdrag
      cases hdrag
    have hasked : Asked r t e := h.asked r hr₀
    rw [Asked] at hasked ⊢
    dsimp only
    rw [hsame]
    cases hwanted : e.desired with
    | some frame =>
      rw [hwanted] at hasked hland
      exact howes frame hasked.2 hasked.1 hland
    | none =>
      rw [hwanted] at hasked hland
      cases hasked with
      | nothing hfree hnothing hframe =>
        rw [hnone hfree]
        refine .nothing rfl hnothing (advance_congr hplaced₀ hplaced' hr₀ hr₃ ?_)
        rw [hland]
        exact hframe
      | remembered frame hsome hfree hremembered hframe =>
        have hstep : e.delta = 0 := by
          by_contra hstep
          have hforgot := hmeets (by rwa [hsame])
          rw [if_pos hfree] at hforgot
          cases hremembered.symm.trans hforgot
        rw [hnone hfree, hstep]
        exact .remembered frame hsome rfl hremembered (hland.trans hframe)
      | released frame hsome hwaits hnothing hframe =>
        exact howes frame hwaits hsome (hland.trans hframe)

/-! ## The other steps -/

/-- **The end of a drag** has the thread seek the frame that it remembers. -/
theorem inStep_unfreeze (h : InStep (t, e)) : InStep (t.unfreeze, e) := by
  refine ⟨h.replay, h.stopped, h.delta, fun _ ↦ rfl, h.placed, h.placed', fun r hr ↦ ?_⟩
  have hfree (hnone : t.desiredReplayFrame = noFrame) :
      t.unfreeze.desiredReplayFrame = t.pendingExactFrame.getD noFrame := if_pos hnone
  have hwaits (hsome : t.desiredReplayFrame ≠ noFrame) :
      t.unfreeze.desiredReplayFrame = t.desiredReplayFrame := if_neg hsome
  have hasked : Asked r t e := h.asked r hr
  show Asked r t.unfreeze e
  rw [Asked] at hasked ⊢
  cases hdesired : e.desired with
  | some frame =>
    rw [hdesired] at hasked
    obtain ⟨hsome, rfl⟩ := hasked
    exact ⟨hsome, hwaits hsome⟩
  | none =>
    rw [hdesired] at hasked
    cases hasked with
    | nothing hnone hpending hframe =>
      exact .nothing (by rw [hfree hnone, hpending]; rfl) rfl hframe
    | remembered frame hsome hnone hpending hframe =>
      exact .released frame hsome (by rw [hfree hnone, hpending]; rfl) rfl hframe
    | released frame hsome hgiven hpending hframe =>
      exact .released frame hsome (by rw [hwaits (hgiven ▸ hsome), hgiven]) rfl hframe

theorem inStep_attach (hmeets : t.desiredReplayFrame = noFrame ∧ t.deltaReplayFrames = 0 ∧
      t.pendingExactFrame = none) (r : SeekableReplay) :
    InStep ({ t with core := t.core.attachReplayPlayer r },
      ⟨e.core.attachReplayPlayer r, none, 0⟩) := by
  have hplaced (c : ReplayCore) : Placed (c.attachReplayPlayer r) := by
    refine ⟨fun r' hr' ↦ ?_, fun _ hstopped ↦ (nomatch hstopped)⟩
    cases hr'
    exact ⟨Nat.le_refl _, Nat.min_le_right _ _⟩
  exact ⟨rfl, rfl, hmeets.2.1, fun _ ↦ hmeets.2.2, hplaced _, hplaced _, fun _ _ ↦
    Owes.nothing hmeets.1 hmeets.2.2 rfl⟩

/-- What is left without a replay. -/
theorem detachReplayPlayer_spec (h : Placed c) : Placed c.detachReplayPlayer ∧
    c.detachReplayPlayer.replay = none ∧
    c.detachReplayPlayer.replayPlaybackStopped =
      (!c.replay.isSome && c.replayPlaybackStopped) := by
  rw [ReplayCore.detachReplayPlayer]
  cases hreplay : c.replay with
  | none => exact ⟨h, hreplay, rfl⟩
  | some r => exact ⟨⟨fun _ hr ↦ (nomatch hr), fun hr ↦ (nomatch hr)⟩, rfl, rfl⟩

theorem inStep_detach (h : InStep (t, e)) :
    InStep ({ t with core := t.core.detachReplayPlayer, pendingExactFrame := none },
      { e with core := e.core.detachReplayPlayer }) := by
  obtain ⟨hplaced, hnone, hstopped⟩ := detachReplayPlayer_spec h.placed
  obtain ⟨hplaced', hnone', hstopped'⟩ := detachReplayPlayer_spec h.placed'
  have hreplay : t.core.replay = e.core.replay := h.replay
  have hstop : t.core.replayPlaybackStopped = e.core.replayPlaybackStopped := h.stopped
  refine ⟨hnone.trans hnone'.symm, ?_, h.delta, fun _ ↦ rfl, hplaced, hplaced', fun r hr ↦ ?_⟩
  · dsimp only
    rw [hstopped, hstopped', hreplay, hstop]
  · cases hnone.symm.trans hr

/-- **Every step that is as it should be** keeps the threads in step. -/
theorem inStep_step (event : SeekEvent) (both : BothThreads) (h : InStep both)
    (hmeets : SeekMeets event both.1) : InStep (stepBoth event both) := by
  obtain ⟨t, e⟩ := both
  have hreplay : t.core.replay = e.core.replay := h.replay
  have hstop : t.core.replayPlaybackStopped = e.core.replayPlaybackStopped := h.stopped
  cases event with
  | goToReplayFrame frame =>
    exact ⟨h.replay, h.stopped, h.delta, h.unfrozen, h.placed, h.placed', fun _ _ ↦ ⟨hmeets, rfl⟩⟩
  | advancePlaybackFrames amount =>
    exact ⟨h.replay, h.stopped, rfl, h.unfrozen, h.placed, h.placed', fun r hr ↦
      (h.asked r hr).congr rfl rfl rfl rfl rfl⟩
  | setPlaybackFrozen frozen =>
    cases frozen with
    | false => exact inStep_unfreeze h
    | true =>
      exact ⟨h.replay, h.stopped, h.delta, fun hfrozen ↦ (nomatch hfrozen), h.placed, h.placed',
        fun r hr ↦ (h.asked r hr).congr rfl rfl rfl rfl rfl⟩
  | setCoarseSeekWhileFrozen coarse =>
    exact ⟨h.replay, h.stopped, h.delta, h.unfrozen, h.placed, h.placed', fun r hr ↦
      (h.asked r hr).congr rfl rfl rfl rfl rfl⟩
  | attachReplayPlayer r => exact inStep_attach hmeets r
  | detachReplayPlayer => exact inStep_detach h
  | stopReplayPlayback =>
    obtain ⟨hplaced, hkept, hplayed, hstopped⟩ := stopReplayPlayback_spec h.placed
    obtain ⟨hplaced', hkept', hplayed', hstopped'⟩ := stopReplayPlayback_spec h.placed'
    exact h.congr (by rw [hkept, hkept', hreplay]) (by rw [hstopped, hstopped', hreplay, hstop])
      hplaced hplaced' hkept (by rw [hplayed]) (by rw [hplayed'])
  | resumeReplayPlayback =>
    obtain ⟨hplaced, hkept, hplayed, hstopped⟩ := resumeReplayPlayback_spec h.placed
    obtain ⟨hplaced', hkept', hplayed', hstopped'⟩ := resumeReplayPlayback_spec h.placed'
    exact h.congr (by rw [hkept, hkept', hreplay]) (by rw [hstopped, hstopped', hreplay, hstop])
      hplaced hplaced' hkept hplayed hplayed'
  | goToReplayResumePoint =>
    obtain ⟨hplaced, hkept, hplayed, hstopped⟩ := goToReplayResumePoint_spec h.placed
    obtain ⟨hplaced', hkept', hplayed', hstopped'⟩ := goToReplayResumePoint_spec h.placed'
    exact h.congr (by rw [hkept, hkept', hreplay]) (by rw [hstopped, hstopped', hstop])
      hplaced hplaced' hkept hplayed hplayed'
  | pass thumbnail settle => exact inStep_pass h hmeets

/-- Threads in step with nothing left to take stand on the same frame. -/
theorem InStep.settled {both : BothThreads} (h : InStep both) : SettlesAsExact both := by
  obtain ⟨t, e⟩ := both
  intro htaken
  obtain ⟨r, hr⟩ := Option.isSome_iff_exists.1 htaken.attached
  have hasked : Asked r t e := h.asked r hr
  rw [Asked] at hasked
  cases hdesired : e.desired with
  | some frame =>
    rw [hdesired] at hasked
    exact absurd (hasked.2.symm.trans htaken.frame) hasked.1
  | none =>
    rw [hdesired] at hasked
    cases hasked with
    | nothing hfree hpending hframe => exact hframe
    | remembered frame hsome hfree hpending hframe =>
      cases hpending.symm.trans (h.unfrozen htaken.unfrozen)
    | released frame hsome hwaits hpending hframe =>
      exact absurd (hwaits.symm.trans htaken.frame) hsome

/-- **A drag settles where it was released**, in every run whose steps meet the condition: a thread
that has taken everything that was asked of it stands where exact seeks would have left it. -/
theorem settles_as_exact (core : ReplayCore) (events : List SeekEvent)
    (h : Runs.Along stepBoth (fun event both ↦ SeekMeets event both.1) events (startBoth core)) :
    SettlesAsExact (Runs.run stepBoth events (startBoth core)) :=
  (Runs.run_along inStep_step h (inStep_start core)).settled

/-- A core that has not run. -/
def idleCore : ReplayCore where
  replay := none
  played := ⟨0, false, false, none, false, 0⟩
  replayPlaybackStopped := false
  replayResumePoint := 0

/-- A replay of a hundred frames without keyframes but the first. -/
def hundredFrames : SeekableReplay where
  totalFrames := 100
  keyframes := [0]
  totalFrames_lt := by decide
  sorted := List.pairwise_singleton _ _
  zero_mem := List.mem_singleton_self 0
  le_totalFrames k hk := by
    rw [List.mem_singleton.1 hk]
    exact Nat.zero_le _

/-- The timeline is dragged to a frame and let go. -/
def dragTo (frame : UInt32) : List SeekEvent :=
  [.attachReplayPlayer hundredFrames, .setPlaybackFrozen true, .goToReplayFrame frame,
    .pass false 0, .setPlaybackFrozen false, .pass false 0]

theorem settles_as_exact_drag :
    AllTaken (Runs.run stepBoth (dragTo 50) (startBoth idleCore)).1 ∧
      SettlesAsExact (Runs.run stepBoth (dragTo 50) (startBoth idleCore)) :=
  ⟨by decide +kernel, settles_as_exact idleCore (dragTo 50) (by decide +kernel)⟩

/-- A frame is stepped by while the timeline is dragged. -/
def stepWhileDragged : List SeekEvent :=
  [.attachReplayPlayer hundredFrames, .setPlaybackFrozen true, .goToReplayFrame 50, .pass false 0,
    .advancePlaybackFrames 1, .pass false 0, .setPlaybackFrozen false, .pass false 0]

/-- The step by a frame is undone at the end of the drag: the replay stands on frame 50, and seeks
that are exact end on frame 51. -/
theorem not_settles_stepped :
    ¬ SettlesAsExact (Runs.run stepBoth stepWhileDragged (startBoth idleCore)) := by
  intro h
  have hframe := h (by decide +kernel)
  exact absurd hframe (by decide +kernel)

end CoreThread

end SuperShuckie
