import SuperShuckie.Core.Modes
import SuperShuckie.Live.Session

/-!
# Which modes exclude each other

A replay file drives the console alone, a game that is published is nobody else's, and whoever
counts finds counters (`Exclusive`).  Every operation keeps that but two: starting a recording does
not stop following another player, and stopping to publish takes the counters away even when nothing
was published and a replay file is attached (`Respects`).  So a run keeps it exactly as long as
neither happens (`run_exclusive_iff`).
-/

set_option autoImplicit false

namespace SuperShuckie

namespace CoreModes

/-- **The modes exclude each other**: a replay file is attached to no core that records, publishes or
follows, a core that publishes does not follow, nor does one that records its own game, and there are
counters while any of these is going on. -/
structure Exclusive (s : CoreModes) : Prop where
  player : s.replayPlayer.isSome = true →
    s.replayFileRecorder = none ∧ s.streamPublisher = false ∧ s.follower = none
  publisher : s.streamPublisher = true → s.follower = none
  recorder : s.replayFileRecorder = some .startRecordingReplay ∨
    s.replayFileRecorder = some .resumeRecordingReplay → s.follower = none
  counters : s.replayFileRecorder.isSome = true ∨ s.replayPlayer.isSome = true ∨
    s.streamPublisher = true ∨ s.follower.isSome = true → s.replayCounters.isSome = true

variable {s : CoreModes}

theorem exclusive_new (console : Option ReplayConsoleType) : (new console).Exclusive := by
  refine ⟨fun h ↦ ?_, fun h ↦ ?_, fun h ↦ ?_, fun h ↦ ?_⟩ <;> simp [new] at h

/-! ## What the operations that stop a mode leave -/

@[simp, grind =] theorem stopRecordingReplay_replayFileRecorder :
    s.stopRecordingReplay.replayFileRecorder = none := by
  rw [stopRecordingReplay]
  split
  · assumption
  · rfl

@[simp, grind =] theorem stopRecordingReplay_replayPlayer :
    s.stopRecordingReplay.replayPlayer = s.replayPlayer := by
  rw [stopRecordingReplay]
  split <;> rfl

@[simp, grind =] theorem stopRecordingReplay_follower :
    s.stopRecordingReplay.follower = s.follower := by
  rw [stopRecordingReplay]
  split <;> rfl

@[simp, grind =] theorem stopRecordingReplay_streamPublisher :
    s.stopRecordingReplay.streamPublisher = s.streamPublisher := by
  rw [stopRecordingReplay]
  split <;> rfl

@[simp, grind =] theorem detachReplayPlayer_replayFileRecorder :
    s.detachReplayPlayer.replayFileRecorder = s.replayFileRecorder := by
  rw [detachReplayPlayer]
  split <;> rfl

@[simp, grind =] theorem detachReplayPlayer_replayPlayer :
    s.detachReplayPlayer.replayPlayer = none := by
  rw [detachReplayPlayer]
  split
  · assumption
  · rfl

@[simp, grind =] theorem detachReplayPlayer_follower :
    s.detachReplayPlayer.follower = s.follower := by
  rw [detachReplayPlayer]
  split <;> rfl

@[simp, grind =] theorem detachReplayPlayer_streamPublisher :
    s.detachReplayPlayer.streamPublisher = s.streamPublisher := by
  rw [detachReplayPlayer]
  split <;> rfl

@[simp, grind =] theorem detachLiveSource_follower : s.detachLiveSource.follower = none := by
  rw [detachLiveSource]
  split
  · assumption
  · simp

@[simp, grind =] theorem detachLiveSource_replayPlayer :
    s.detachLiveSource.replayPlayer = s.replayPlayer := by
  rw [detachLiveSource]
  split <;> simp

@[simp, grind =] theorem detachLiveSource_streamPublisher :
    s.detachLiveSource.streamPublisher = s.streamPublisher := by
  rw [detachLiveSource]
  split <;> simp

@[simp, grind =] theorem detachLiveSource_replayFileRecorder (h : s.replayFileRecorder = none) :
    s.detachLiveSource.replayFileRecorder = none := by
  rw [detachLiveSource]
  split
  · exact h
  · simp

namespace Exclusive

section

variable (h : s.Exclusive)
include h

/-- No replay file is attached to a core that does anything else. -/
theorem replayPlayer_eq_none (hother : s.replayFileRecorder.isSome = true ∨
    s.streamPublisher = true ∨ s.follower.isSome = true) : s.replayPlayer = none := by
  refine Option.not_isSome_iff_eq_none.mp fun hplayer ↦ ?_
  obtain ⟨hrecorder, hpublisher, hfollower⟩ := h.player hplayer
  rcases hother with hother | hother | hother
  · rw [hrecorder] at hother
    cases hother
  · rw [hpublisher] at hother
    cases hother
  · rw [hfollower] at hother
    cases hother

/-- A core that follows does not publish. -/
theorem streamPublisher_eq_false (hfollower : s.follower.isSome = true) :
    s.streamPublisher = false := by
  refine Bool.eq_false_iff.mpr fun hpublisher ↦ ?_
  rw [h.publisher hpublisher] at hfollower
  cases hfollower

theorem stopRecordingReplay : s.stopRecordingReplay.Exclusive := by
  have hnone := h.replayPlayer_eq_none
  obtain ⟨hplayer, hpublisher, hrecorder, hcounters⟩ := h
  rw [CoreModes.stopRecordingReplay]
  cases hr : s.replayFileRecorder with
  | none => exact ⟨hplayer, hpublisher, hrecorder, hcounters⟩
  | some startedBy =>
    -- no replay file is attached, so whoever needs the counters publishes or follows
    refine ⟨fun h ↦ ?_, hpublisher, fun h ↦ ?_, fun h ↦ ?_⟩ <;> grind

theorem detachReplayPlayer : s.detachReplayPlayer.Exclusive := by
  obtain ⟨hplayer, hpublisher, hrecorder, hcounters⟩ := h
  rw [CoreModes.detachReplayPlayer]
  cases hp : s.replayPlayer with
  | none => exact ⟨hplayer, hpublisher, hrecorder, hcounters⟩
  | some frames =>
    obtain ⟨hr, hpub, hf⟩ := hplayer (by rw [hp]; rfl)
    refine ⟨fun h ↦ ?_, fun h ↦ hf, fun h ↦ hf, fun h ↦ ?_⟩ <;> grind

theorem detachLiveSource : s.detachLiveSource.Exclusive := by
  have hplayerNone := h.replayPlayer_eq_none
  have hpublisherNone := h.streamPublisher_eq_false
  obtain ⟨hplayer, hpublisher, hrecorder, hcounters⟩ := h
  rw [CoreModes.detachLiveSource]
  cases hf : s.follower with
  | none => exact ⟨hplayer, hpublisher, hrecorder, hcounters⟩
  | some follower =>
    have hnone : s.replayPlayer = none := hplayerNone (.inr (.inr (by rw [hf]; rfl)))
    have hpub : s.streamPublisher = false := hpublisherNone (by rw [hf]; rfl)
    refine ⟨fun h ↦ ?_, fun h ↦ ?_, fun h ↦ ?_, fun h ↦ ?_⟩ <;> grind

/-- **Everything but publishing is stopped**, and nothing is left of it. -/
theorem tearDown : s.stopRecordingReplay.detachReplayPlayer.detachLiveSource.Exclusive :=
  h.stopRecordingReplay.detachReplayPlayer.detachLiveSource

/-! ## Replay files -/

theorem goToReplayFrame (loaded : Option Counters) : (s.goToReplayFrame loaded).Exclusive := by
  obtain ⟨hplayer, hpublisher, hrecorder, hcounters⟩ := h
  unfold CoreModes.goToReplayFrame
  split
  · exact ⟨hplayer, hpublisher, hrecorder, fun _ ↦ rfl⟩
  · exact ⟨hplayer, hpublisher, hrecorder, hcounters⟩

/-- Whether the replay drives the console is no mode of its own. -/
theorem setStopped (stopped : Bool) :
    ({ s with replayPlaybackStopped := stopped } : CoreModes).Exclusive :=
  ⟨h.player, h.publisher, h.recorder, h.counters⟩

theorem attachReplayPlayer (totalFrames : UnsignedInteger)
    (outcome : AttachOutcome) : (s.attachReplayPlayer totalFrames outcome).Exclusive := by
  unfold CoreModes.attachReplayPlayer
  split
  · exact h
  · rename_i hrefused
    have hpublisher : s.streamPublisher = false := by grind
    have hattached : ({ s.stopRecordingReplay.detachReplayPlayer.detachLiveSource with
        replayPlayer := some totalFrames
        replayCounters := some OrdMap.empty
        replayPlaybackStopped := false } : CoreModes).Exclusive := by
      refine ⟨fun _ ↦ ⟨?_, ?_, ?_⟩, fun _ ↦ ?_, fun _ ↦ ?_, fun _ ↦ rfl⟩ <;> simp [hpublisher]
    cases outcome with
    | mismatched => exact h
    | noFirstKeyframe => exact h.tearDown
    | cannotSeek loaded => exact (hattached.goToReplayFrame loaded).detachReplayPlayer
    | attached loaded => exact hattached.goToReplayFrame loaded

theorem stopReplayPlayback : s.stopReplayPlayback.Exclusive := by
  unfold CoreModes.stopReplayPlayback
  split
  · exact h.setStopped true
  · exact h

theorem resumeReplayPlayback (loaded : Option Counters) :
    (s.resumeReplayPlayback loaded).Exclusive := by
  unfold CoreModes.resumeReplayPlayback
  split
  · exact (h.setStopped false).goToReplayFrame loaded
  · exact h

theorem goToReplayResumePoint (loaded : Option Counters) :
    (s.goToReplayResumePoint loaded).Exclusive := by
  unfold CoreModes.goToReplayResumePoint
  split
  · exact h.goToReplayFrame loaded
  · exact h

theorem exportFrames (loaded : Option Counters) : (s.exportFrames loaded).Exclusive := by
  unfold CoreModes.exportFrames
  split
  · exact h
  · exact (h.setStopped false).goToReplayFrame loaded

/-! ## Recording -/

/-- A recording of the player's own game, while nobody is followed. -/
theorem startRecordingReplay {starts : Bool}
    (hfollower : starts = true → s.replayConsoleType ≠ none → s.follower = none) :
    (s.startRecordingReplay starts).Exclusive := by
  unfold CoreModes.startRecordingReplay
  split
  · exact h
  · rename_i console hconsole
    dsimp only
    split
    · rename_i hstarts
      have hnone : s.follower = none := hfollower hstarts (by rw [hconsole]; exact Option.some_ne_none _)
      refine ⟨fun h ↦ ?_, fun _ ↦ ?_, fun _ ↦ ?_, fun _ ↦ rfl⟩
      · simp at h
      · simpa using hnone
      · simpa using hnone
    · exact h.stopRecordingReplay.detachReplayPlayer

theorem resumeRecordingReplay (outcome : ResumeOutcome) :
    (s.resumeRecordingReplay outcome).Exclusive := by
  unfold CoreModes.resumeRecordingReplay
  split
  · exact h
  · rename_i frames hplayer
    obtain ⟨-, hpublisher, hfollower⟩ := h.player (by rw [hplayer]; rfl)
    cases outcome with
    | cannotSeek loaded => exact h.goToReplayFrame loaded
    | cannotBuild loaded again => exact (h.goToReplayFrame loaded).goToReplayFrame again
    | resumed counters =>
      refine ⟨fun h ↦ ?_, fun _ ↦ hfollower, fun _ ↦ hfollower, fun _ ↦ rfl⟩
      cases h

/-! ## Other players -/

/-- Stopping to publish, while no replay file is attached. -/
theorem stopStreamPublishing (hplayer : s.replayPlayer = none) :
    s.stopStreamPublishing.Exclusive := by
  refine ⟨fun h ↦ ?_, fun h ↦ ?_, h.recorder, fun hcaptured ↦ ?_⟩
  · rw [CoreModes.stopStreamPublishing, hplayer] at h
    cases h
  · cases h
  · have := h.counters
    grind [CoreModes.stopStreamPublishing]

theorem startStreamPublishing : s.startStreamPublishing.Exclusive := by
  unfold CoreModes.startStreamPublishing
  split
  · exact h
  · rename_i hfree
    have hplayer : s.replayPlayer = none := by
      by_contra hsome
      exact hfree (.inr (.inl (Option.isSome_iff_ne_none.mpr hsome)))
    have hfollower : s.follower = none := by
      by_contra hsome
      exact hfree (.inr (.inr (Option.isSome_iff_ne_none.mpr hsome)))
    refine ⟨fun h ↦ ?_, fun _ ↦ hfollower, fun _ ↦ hfollower, fun _ ↦ rfl⟩
    rw [CoreModes.stopStreamPublishing, hplayer] at h
    cases h

theorem attachLiveReplaySource (compatible : Bool) :
    (s.attachLiveReplaySource compatible).Exclusive := by
  unfold CoreModes.attachLiveReplaySource
  split
  · exact h
  · rename_i hrefused
    have hpublisher : s.streamPublisher = false := by grind
    refine ⟨fun h ↦ ?_, fun h ↦ ?_, fun h ↦ ?_, fun _ ↦ rfl⟩
    · simp at h
    · simp [hpublisher] at h
    · simp at h

/-- What is noted about the game that is followed is no mode of its own. -/
theorem setFollower {follower : FollowerModes} (hfollower : s.follower = some follower)
    (follower' : FollowerModes) : ({ s with follower := some follower' } : CoreModes).Exclusive := by
  have hplayer := h.replayPlayer_eq_none (.inr (.inr (by rw [hfollower]; rfl)))
  have hpublisher := h.streamPublisher_eq_false (by rw [hfollower]; rfl)
  refine ⟨fun h ↦ ?_, fun h ↦ ?_, fun hstarted ↦ ?_, fun _ ↦ ?_⟩
  · rw [hplayer] at h
    cases h
  · rw [hpublisher] at h
    cases h
  · rw [h.recorder hstarted] at hfollower
    cases hfollower
  · exact h.counters (.inr (.inr (.inr (by rw [hfollower]; rfl))))

/-- A follower's own file is no recording of the player's own game. -/
theorem startPendingFollowerRecording (starts : Bool) :
    (s.startPendingFollowerRecording starts).Exclusive := by
  unfold CoreModes.startPendingFollowerRecording
  split
  · rename_i haveState hfollower
    have hplayer := h.replayPlayer_eq_none (.inr (.inr (by rw [hfollower]; rfl)))
    have hset := h.setFollower hfollower ⟨false, haveState⟩
    refine ⟨fun h ↦ ?_, hset.publisher, fun hstarted ↦ ?_,
      fun _ ↦ hset.counters (.inr (.inr (.inr rfl)))⟩
    · rw [hplayer] at h
      cases h
    · have := h.recorder
      grind
  · exact h

/-- Other counters are counters. -/
theorem setCounters (counters : Counters) :
    ({ s with replayCounters := some counters } : CoreModes).Exclusive :=
  ⟨h.player, h.publisher, h.recorder, fun _ ↦ rfl⟩

theorem startRecordingFollowerReplay (midFrame starts : Bool) :
    (s.startRecordingFollowerReplay midFrame starts).Exclusive := by
  unfold CoreModes.startRecordingFollowerReplay
  split
  · exact h
  · rename_i follower hfollower
    have hstopped := h.stopRecordingReplay.setFollower
      (by rw [stopRecordingReplay_follower]; exact hfollower) { follower with pendingRecording := true }
    dsimp only
    split
    · exact hstopped.startPendingFollowerRecording starts
    · exact hstopped

theorem applyStreamSnapshot (loads : Bool) (counters : Counters) (starts : Bool) :
    (s.applyStreamSnapshot loads counters starts).Exclusive := by
  unfold CoreModes.applyStreamSnapshot
  split
  · exact h
  · rename_i follower hfollower
    split
    · have hloaded := (h.setCounters counters).setFollower hfollower { follower with haveState := true }
      dsimp only
      split
      · exact hloaded
      · exact hloaded.startPendingFollowerRecording starts
    · exact h

/-! ## Link cables and counters -/

theorem linkHold (port : Bool) : (s.linkHold port).Exclusive := by
  unfold CoreModes.linkHold
  split
  · exact h
  · exact ⟨h.player, h.publisher, h.recorder, h.counters⟩

theorem beginLink (ready : Bool) : (s.beginLink ready).Exclusive := by
  unfold CoreModes.beginLink
  split
  · exact ⟨h.player, h.publisher, h.recorder, h.counters⟩
  · exact h

theorem beginLinkPartner (ready : Bool) : (s.beginLinkPartner ready).Exclusive := by
  unfold CoreModes.beginLinkPartner
  split
  · exact ⟨h.player, h.publisher, h.recorder, h.counters⟩
  · exact h

/-- Nobody who may add to a counter finds none. -/
theorem changeReplayCounterMap (hcounters : s.replayCounters.isSome = true)
    (name : String) (delta : SignedInteger) :
    ∃ s', s.changeReplayCounterMap name delta = some s' ∧ s'.Exclusive := by
  obtain ⟨counters, hsome⟩ := Option.isSome_iff_exists.mp hcounters
  refine ⟨_, by rw [CoreModes.changeReplayCounterMap, hsome]; rfl, h.setCounters _⟩

end

end Exclusive

/-! ## Runs -/

/-- The operation is neither of the two that forget a mode: a recording of the player's own game is
not started while another player is followed, and nothing is unpublished while a replay file is
attached. -/
def Respects : Event → CoreModes → Prop
  | .startRecordingReplay starts, s =>
    starts = true → s.replayConsoleType ≠ none → s.follower = none
  | .stopStreamPublishing, s => s.replayPlayer = none
  | _, _ => True

/-- The operation does not panic and leaves modes that exclude each other. -/
def KeepsModes (event : Event) (s : CoreModes) : Prop := ∃ s', step event s = some s' ∧ s'.Exclusive

/-- **One operation keeps the modes apart exactly if it is neither of the two.** -/
theorem Exclusive.keepsModes_iff (h : s.Exclusive) (event : Event) :
    KeepsModes event s ↔ Respects event s := by
  have of_some : ∀ {s' : CoreModes}, step event s = some s' → s'.Exclusive → KeepsModes event s :=
    fun hstep hs' ↦ ⟨_, hstep, hs'⟩
  cases event with
  | startRecordingReplay starts =>
    refine ⟨?_, fun hrespects ↦ of_some rfl (h.startRecordingReplay hrespects)⟩
    rintro ⟨s', hstep, hs'⟩ rfl hconsole
    cases hstep
    obtain ⟨console, hsome⟩ := Option.ne_none_iff_exists'.mp hconsole
    -- the recording has been started, so whoever is followed still would be followed then
    have hrecorder := hs'.recorder
    rw [CoreModes.startRecordingReplay, hsome] at hrecorder
    simpa using hrecorder (.inl rfl)
  | stopStreamPublishing =>
    refine ⟨?_, fun hplayer ↦ of_some rfl (h.stopStreamPublishing hplayer)⟩
    rintro ⟨s', hstep, hs'⟩
    cases hstep
    by_contra hplayer
    have hsome : s.replayPlayer.isSome = true := Option.isSome_iff_ne_none.mpr hplayer
    obtain ⟨hrecorder, -, hfollower⟩ := h.player hsome
    have hcounters := hs'.counters (.inr (.inl hsome))
    rw [CoreModes.stopStreamPublishing, if_pos ⟨hrecorder, hfollower⟩] at hcounters
    cases hcounters
  | changeReplayCounter name delta =>
    refine ⟨fun _ ↦ trivial, fun _ ↦ ?_⟩
    rw [KeepsModes, step, CoreModes.changeReplayCounter]
    split
    · rename_i hcapturing
      rw [isCapturing, Bool.or_eq_true] at hcapturing
      exact h.changeReplayCounterMap (h.counters (hcapturing.imp_right fun h ↦ .inr (.inl h))) _ _
    · exact ⟨s, rfl, h⟩
  | playIncrementCounter name delta =>
    refine ⟨fun _ ↦ trivial, fun _ ↦ ?_⟩
    rw [KeepsModes, step, CoreModes.playIncrementCounter]
    split
    · rename_i hplaying
      rw [isPlayingBack, Bool.and_eq_true, Bool.or_eq_true] at hplaying
      refine h.changeReplayCounterMap (h.counters ?_) _ _
      exact hplaying.1.elim (fun h ↦ .inr (.inl h)) fun h ↦ .inr (.inr (.inr h))
    · exact ⟨s, rfl, h⟩
  | resumeRecordingReplay outcome =>
    exact ⟨fun _ ↦ trivial, fun _ ↦ of_some rfl (h.resumeRecordingReplay outcome)⟩
  | stopRecordingReplay => exact ⟨fun _ ↦ trivial, fun _ ↦ of_some rfl h.stopRecordingReplay⟩
  | forceStopRecordingReplay =>
    refine ⟨fun _ ↦ trivial, fun _ ↦ of_some rfl ⟨fun hplayer ↦ ⟨rfl, (h.player hplayer).2⟩,
      h.publisher, fun hrecorder ↦ ?_, fun hbusy ↦ h.counters (.inr ?_)⟩⟩
    · rcases hrecorder with hrecorder | hrecorder <;> cases hrecorder
    · exact hbusy.resolve_left Bool.false_ne_true
  | attachReplayPlayer totalFrames outcome =>
    exact ⟨fun _ ↦ trivial, fun _ ↦ of_some rfl (h.attachReplayPlayer totalFrames outcome)⟩
  | detachReplayPlayer => exact ⟨fun _ ↦ trivial, fun _ ↦ of_some rfl h.detachReplayPlayer⟩
  | stopReplayPlayback => exact ⟨fun _ ↦ trivial, fun _ ↦ of_some rfl h.stopReplayPlayback⟩
  | resumeReplayPlayback loaded =>
    exact ⟨fun _ ↦ trivial, fun _ ↦ of_some rfl (h.resumeReplayPlayback loaded)⟩
  | goToReplayResumePoint loaded =>
    exact ⟨fun _ ↦ trivial, fun _ ↦ of_some rfl (h.goToReplayResumePoint loaded)⟩
  | goToReplayFrame loaded =>
    exact ⟨fun _ ↦ trivial, fun _ ↦ of_some rfl (h.goToReplayFrame loaded)⟩
  | exportFrames loaded =>
    exact ⟨fun _ ↦ trivial, fun _ ↦ of_some rfl (h.exportFrames loaded)⟩
  | startStreamPublishing =>
    exact ⟨fun _ ↦ trivial, fun _ ↦ of_some rfl h.startStreamPublishing⟩
  | attachLiveReplaySource compatible =>
    exact ⟨fun _ ↦ trivial, fun _ ↦ of_some rfl (h.attachLiveReplaySource compatible)⟩
  | detachLiveSource => exact ⟨fun _ ↦ trivial, fun _ ↦ of_some rfl h.detachLiveSource⟩
  | startRecordingFollowerReplay midFrame starts =>
    exact ⟨fun _ ↦ trivial, fun _ ↦ of_some rfl (h.startRecordingFollowerReplay midFrame starts)⟩
  | applyStreamSnapshot loads counters starts =>
    exact ⟨fun _ ↦ trivial, fun _ ↦ of_some rfl (h.applyStreamSnapshot loads counters starts)⟩
  | linkHold port => exact ⟨fun _ ↦ trivial, fun _ ↦ of_some rfl (h.linkHold port)⟩
  | linkRelease =>
    exact ⟨fun _ ↦ trivial, fun _ ↦ of_some rfl ⟨h.player, h.publisher, h.recorder, h.counters⟩⟩
  | beginLink ready => exact ⟨fun _ ↦ trivial, fun _ ↦ of_some rfl (h.beginLink ready)⟩
  | beginLinkPartner ready => exact ⟨fun _ ↦ trivial, fun _ ↦ of_some rfl (h.beginLinkPartner ready)⟩
  | endLink =>
    exact ⟨fun _ ↦ trivial, fun _ ↦ of_some rfl ⟨h.player, h.publisher, h.recorder, h.counters⟩⟩
  | endLinkPartner =>
    exact ⟨fun _ ↦ trivial, fun _ ↦ of_some rfl ⟨h.player, h.publisher, h.recorder, h.counters⟩⟩

/-- **The modes of a session exclude each other in every state of a run, and nothing panics, exactly
if no recording of the player's own game is started while another player is followed and nothing is
unpublished while a replay file is attached.** -/
theorem modes_exclusive_iff (console : Option ReplayConsoleType) (events : List Event) :
    (∀ before, before <+: events → ∃ s, run before (new console) = some s ∧ s.Exclusive) ↔
      ∀ before event, before ++ [event] <+: events → ∀ s, run before (new console) = some s →
        Respects event s := by
  constructor
  · intro hall before event hbefore s hrun
    obtain ⟨s', hrun', hs⟩ := hall before ((List.prefix_append _ _).trans hbefore)
    obtain rfl : s' = s := Option.some.inj (hrun'.symm.trans hrun)
    obtain ⟨s'', hstep, hs''⟩ := hall _ hbefore
    rw [run_snoc, hrun] at hstep
    exact (hs.keepsModes_iff event).mp ⟨s'', hstep, hs''⟩
  · intro hrespects before
    induction before using List.reverseRecOn with
    | nil => exact fun _ ↦ ⟨new console, rfl, exclusive_new console⟩
    | append_singleton before event ih =>
      intro hbefore
      obtain ⟨s, hrun, hs⟩ := ih ((List.prefix_append _ _).trans hbefore)
      obtain ⟨s', hstep, hs'⟩ := (hs.keepsModes_iff event).mpr (hrespects before event hbefore s hrun)
      exact ⟨s', by rw [run_snoc, hrun]; exact hstep, hs'⟩

/-- A replay file without counters, whose next `IncrementCounter` panics; and a recording of the
player's own game on a core that follows another player. -/
theorem modes_not_exclusive :
    (∃ s, run [.attachReplayPlayer 9 (.attached (some OrdMap.empty)), .stopStreamPublishing]
      (new (some .gameBoy)) = some s ∧ s.replayPlayer.isSome = true ∧ s.replayCounters = none ∧
      ¬ s.Exclusive) ∧
    run [.attachReplayPlayer 9 (.attached (some OrdMap.empty)), .stopStreamPublishing,
      .playIncrementCounter "deaths" 1] (new (some .gameBoy)) = none ∧
    ∃ s, run [.attachLiveReplaySource true, .startRecordingReplay true] (new (some .gameBoy)) =
      some s ∧ s.replayFileRecorder = some .startRecordingReplay ∧ s.follower.isSome = true ∧
      ¬ s.Exclusive := by
  refine ⟨⟨_, rfl, rfl, rfl, fun h ↦ ?_⟩, rfl, ⟨_, rfl, rfl, rfl, fun h ↦ ?_⟩⟩
  · have := h.counters (.inr (.inl rfl))
    cases this
  · have := h.recorder (.inl rfl)
    cases this

end CoreModes

/-! ## The core of a session -/

namespace SuperShuckieCore

open CoreModes ByteFormat

variable {C : Type} (E : EmulatorCore C) (x : Externals)

/-- The modes of a core that publishes nothing and is not the local end of a link cable; what it
records is the game it follows. -/
def modes (s : SuperShuckieCore C) : CoreModes :=
  { CoreModes.new E.console with
    replayFileRecorder := s.replayFileRecorder.map fun _ ↦ .startRecordingFollowerReplay
    replayPlayer := s.replayPlayer.map fun player ↦ UInt64.ofNat player.file.totalFrameCount
    replayPlaybackStopped := s.replayPlaybackStopped
    follower := s.follower.map fun follower ↦
      ⟨follower.pendingRecording.isSome, decide (0 < follower.snapshotsApplied)⟩
    replayCounters := s.replayCounters
    linkPartner := s.linkPartner.isSome }

variable {E} {s : SuperShuckieCore C}

theorem modes_stopRecordingReplay :
    s.stopRecordingReplay.modes E = (s.modes E).stopRecordingReplay := by
  rw [stopRecordingReplay, CoreModes.stopRecordingReplay]
  cases hr : s.replayFileRecorder with
  | none => simp only [modes, hr, Option.map_none]
  | some file => cases hf : s.follower <;> simp [modes, CoreModes.new, hr, hf]

theorem modes_attachLiveReplaySource :
    s.attachLiveReplaySource.modes E = (s.modes E).attachLiveReplaySource true := by
  rw [CoreModes.attachLiveReplaySource, if_neg (by simp [modes, CoreModes.new])]
  rw [attachLiveReplaySource, CoreModes.stopRecordingReplay, CoreModes.detachReplayPlayer,
    CoreModes.detachLiveSource]
  cases hr : s.replayFileRecorder <;> cases hp : s.replayPlayer <;> cases hf : s.follower <;>
    simp [modes, CoreModes.new, CoreModes.stopRecordingReplay, hr, hp, hf]

/-- A pending file is started from a state, or cannot be. -/
theorem modes_startPendingFollowerRecording (state : Bytes) : ∃ starts,
    (s.startPendingFollowerRecording x state).1.modes E =
      (s.modes E).startPendingFollowerRecording starts := by
  rw [startPendingFollowerRecording]
  cases hf : s.follower with
  | none => exact ⟨false, by simp [modes, CoreModes.startPendingFollowerRecording, hf]⟩
  | some follower =>
    dsimp only
    cases hp : follower.pendingRecording with
    | none => exact ⟨false, by simp [modes, CoreModes.startPendingFollowerRecording, hf, hp]⟩
    | some pending =>
      dsimp only
      split
      · exact ⟨false, by simp [modes, CoreModes.startPendingFollowerRecording, hf, hp]⟩
      · exact ⟨false, by simp [modes, CoreModes.startPendingFollowerRecording, hf, hp]⟩
      · exact ⟨true, by simp [modes, CoreModes.startPendingFollowerRecording, hf, hp]⟩

theorem modes_record (calls : List Call) : (s.record calls).modes E = s.modes E := by
  simp only [modes, record, Option.map_map]
  rfl

theorem modes_noteFileError (e : ReplayFileWriteError) :
    ({ s with follower := s.follower.map (FollowerState.noteFileError e) } :
      SuperShuckieCore C).modes E = s.modes E := by
  simp only [modes, Option.map_map]
  rfl

/-- A file that is written jumps with the snapshot, and one that was asked for starts. -/
theorem modes_recordSnapshot (previous : OrdMap String SignedInteger) (metadata : KeyframeMetadata)
    (state : Bytes) : ∃ starts, (s.recordSnapshot x previous metadata state).modes E =
      if (s.modes E).replayFileRecorder.isSome then s.modes E
      else (s.modes E).startPendingFollowerRecording starts := by
  have hrecorder : (s.modes E).replayFileRecorder.isSome = s.replayFileRecorder.isSome := by
    simp [modes]
  obtain ⟨starts, hstart⟩ := modes_startPendingFollowerRecording (E := E) (s := s) x state
  refine ⟨starts, ?_⟩
  rw [recordSnapshot, hrecorder]
  split
  · exact modes_record _
  · rw [← hstart]
    rcases s.startPendingFollowerRecording x state with ⟨s', e | u⟩
    · exact modes_noteFileError e
    · rfl

/-- **The modes of a core that follows another player are those of the operations it makes**: here
for a snapshot. -/
theorem modes_applyStreamSnapshot (metadata : KeyframeMetadata) (state : Bytes)
    {follower : FollowerState} (hfollower : s.follower = some follower) : ∃ loads starts,
    (s.applyStreamSnapshot E x metadata state).modes E =
      (s.modes E).applyStreamSnapshot loads (snapshotCounters metadata) starts := by
  have hmodes : (s.modes E).follower =
      some ⟨follower.pendingRecording.isSome, decide (0 < follower.snapshotsApplied)⟩ := by
    simp only [modes, hfollower, Option.map_some]
  unfold CoreModes.applyStreamSnapshot applyStreamSnapshot
  rw [hmodes]
  split
  · refine ⟨false, false, ?_⟩
    simp [modes, SuperShuckieCore.noteFailedLoad, FollowerState.noteFailedLoad, hfollower]
  · rename_i core hloaded
    have hmoved : (s.moveToSnapshot E core metadata).modes E = { s.modes E with
        replayCounters := some (snapshotCounters metadata)
        follower := some ⟨follower.pendingRecording.isSome, true⟩ } := by
      have hclock : ∀ (m : SuperShuckieCore C) before millis,
          ((m.keepFileClock before millis).adoptSnapshot metadata).modes E =
            (m.adoptSnapshot metadata).modes E := by
        intro m before millis
        rw [keepFileClock]
        split <;> rfl
      rw [moveToSnapshot]
      dsimp only
      rw [hclock]
      simp [modes, adoptSnapshot, FollowerState.noteSnapshot, hfollower]
    obtain ⟨starts, hrecorded⟩ := modes_recordSnapshot (E := E) x
      (s := s.moveToSnapshot E core metadata) (s.replayCounters.getD OrdMap.empty) metadata state
    refine ⟨true, starts, ?_⟩
    dsimp only
    rw [hrecorded, hmoved, if_pos rfl]

end SuperShuckieCore

end SuperShuckie
