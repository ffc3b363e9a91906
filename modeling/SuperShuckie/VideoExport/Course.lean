import SuperShuckie.Lib.Fuel
import SuperShuckie.VideoExport.Export

/-!
# The course of a recorded game

A console is deterministic if its game goes on in one way, whichever frames are drawn; what it shows
after a frame that was drawn is the picture of the game, unless the console itself says that
something is missing from it (`DeterministicCore`).  The frames of a replay of such a console form a
course: they end, and a keyframe leads to the same frames as the frames before it (`Course`).

Running the replay follows its course: `runUnlocked_going` is what one run does, and `runFrames_spec`
and `runFrames_ends` what the loops that run frames do.
-/

set_option autoImplicit false

namespace SuperShuckie

namespace VideoExport

open ByteFormat ReplayCore

variable {C G : Type}

/-! ## Consoles -/

/-- A frame is being drawn: it was begun at the end of another and every run of it was drawn. -/
inductive Drawing (E : PicturedCore C) : C → Prop
  | begun {c : C} (packets : List Packet) : E.isMidFrame c = false → Drawing E (E.play packets c)
  | run {c : C} : Drawing E c → (E.run true c).1 = 0 → Drawing E (E.run true c).2

/-- The last frame was drawn. -/
def Drawn (E : PicturedCore C) (c : C) : Prop :=
  ∃ before, Drawing E before ∧ (E.run true before).1 ≠ 0 ∧ c = (E.run true before).2

/-- The console does not say that anything is missing from its picture. -/
def Complete (E : PicturedCore C) (c : C) : Prop :=
  E.showsStaleOutput c = false ∧ E.skippedDrawsLeftStale c = none

/-- A console whose game does not depend on what is drawn. -/
structure DeterministicCore (C G : Type) extends PicturedCore C where
  game : C → G
  /-- What a run does to the game, and whether it completes the frame. -/
  advance : G → G
  completes : G → Bool
  midFrame : G → Bool
  playGame : List Packet → G → G
  /-- What a game shows once a frame of it has been drawn. -/
  picture : G → List ScreenData
  run_frames : ∀ drawn c, (run drawn c).1 = if completes (game c) then 1 else 0
  game_run : ∀ drawn c, game (run drawn c).2 = advance (game c)
  isMidFrame_eq : ∀ c, isMidFrame c = midFrame (game c)
  game_play : ∀ packets c, game (play packets c) = playGame packets (game c)
  size_screens : ∀ c c', (screens c).map ScreenData.size = (screens c').map ScreenData.size
  /-- Nothing goes missing as long as everything is drawn. -/
  complete_run : ∀ c, Complete toPicturedCore c → Complete toPicturedCore (run true c).2
  complete_play : ∀ packets c, Complete toPicturedCore c → Complete toPicturedCore (play packets c)
  screens_eq : ∀ c, Drawn toPicturedCore c → Complete toPicturedCore c → screens c = picture (game c)

instance : CoeHead (DeterministicCore C G) (PicturedCore C) := ⟨DeterministicCore.toPicturedCore⟩

/-- Running a game for `more` runs and one leads to the end of its frame. -/
inductive DeterministicCore.Ends (E : DeterministicCore C G) : Nat → G → G → Prop
  | last {g : G} : E.completes g = true → E.Ends 0 g (E.advance g)
  | more {more : Nat} {g g' : G} : E.completes g = false → E.Ends more (E.advance g) g' →
    E.Ends (more + 1) g g'

/-- What a replay recorded: the game after so many frames. -/
structure Course (E : DeterministicCore C G) (r : Footage) where
  game : Nat → G
  totalFrames_lt : r.totalFrames < 2 ^ 64
  midFrame_game : ∀ n, E.midFrame (game n) = false
  /-- The packets of a frame lead to the next one. -/
  frame : ∀ n, (r.packetsAt n false).2 = true →
    ∃ more, E.Ends more (E.playGame (r.packetsAt n false).1 (game n)) (game (n + 1))
  /-- So does a keyframe, with the packets behind it. -/
  keyframe : ∀ {n : Nat} {k : Keyframe}, r.read n = .keyframe k → k.elapsedFrames ≤ n ∧
    ∀ {c c' : C}, E.loadKeyframeState k c = (.ok (), c') →
      let loaded := E.game (E.setInputEncoded k.input (E.adoptReplayKeyframe c'))
      E.midFrame loaded = false ∧
      ((r.packetsAt k.elapsedFrames true).2 = true →
        ∃ more, E.Ends more (E.playGame (r.packetsAt k.elapsedFrames true).1 loaded)
          (game (k.elapsedFrames + 1)))

namespace Course

variable {E : DeterministicCore C G} {r : Footage} (course : Course E r)

/-! ## On course -/

/-- Between two frames. -/
structure Ready (s : ReplayCore C) : Prop where
  pending : s.replayFramePending = false
  midFrame : E.midFrame (E.game s.core) = false
  next : (r.packetsAt s.totalFrames s.behindKeyframe).2 = true →
    ∃ more, E.Ends more (E.playGame (r.packetsAt s.totalFrames s.behindKeyframe).1 (E.game s.core))
      (course.game (s.totalFrames + 1))

/-- In a frame, which takes `more` runs and one. -/
structure InFrame (more : Nat) (s : ReplayCore C) : Prop where
  pending : s.replayFramePending = true
  behindKeyframe : s.behindKeyframe = false
  next : E.Ends more (E.game s.core) (course.game (s.totalFrames + 1))

/-- The replay drives the console, and has not ended. -/
structure Driving (s : ReplayCore C) : Prop where
  stalled : s.replayStalled = false
  stopped : s.replayPlaybackStopped = false

/-- The replay is being run, the frame at hand drawn if `drawn` says so. -/
structure Going (drawn : Bool) (s : ReplayCore C) : Prop extends Driving s where
  place : course.Ready s ∨
    ∃ more, course.InFrame more s ∧ (drawn = true → Drawing E s.core)

/-- A frame has just been completed. -/
structure Arrived (s : ReplayCore C) : Prop extends Driving s where
  pending : s.replayFramePending = false
  behindKeyframe : s.behindKeyframe = false
  game : E.game s.core = course.game s.totalFrames

/-- The replay has ended, or cannot be read any further. -/
structure Stuck (s : ReplayCore C) : Prop where
  stalled : s.replayStalled = true
  stopped : s.replayPlaybackStopped = false

theorem Arrived.ready {course : Course E r} {s : ReplayCore C} (h : course.Arrived s) :
    course.Ready s := by
  refine ⟨h.pending, ?_, fun hmarker ↦ ?_⟩
  · rw [h.game]
    exact course.midFrame_game _
  · rw [h.behindKeyframe] at hmarker ⊢
    rw [h.game]
    exact course.frame _ hmarker

theorem Arrived.going {course : Course E r} {s : ReplayCore C} (h : course.Arrived s)
    (drawn : Bool) : course.Going drawn s :=
  ⟨h.toDriving, .inl h.ready⟩

/-! ## One run -/

variable {course} {s : ReplayCore C}

theorem handleReplay_inFrame {more : Nat} (h : course.InFrame more s) :
    s.handleReplay E r = s :=
  if_pos (.inl h.pending)

/-- Reading begins a frame, or finds that there is none. -/
theorem handleReplay_ready (hdriving : Driving s) (h : course.Ready s) :
    Stuck (s.handleReplay E r) ∧
        (s.handleReplay E r).totalFrames = s.totalFrames ∨
      Driving (s.handleReplay E r) ∧
        (s.handleReplay E r).totalFrames = s.totalFrames ∧
        (∃ more, course.InFrame more (s.handleReplay E r)) ∧
        Drawing E (s.handleReplay E r).core := by
  have hmid : E.isMidFrame s.core = false := by rw [E.isMidFrame_eq, h.midFrame]
  have hreads : ¬(s.replayFramePending = true ∨ s.replayPlaybackStopped = true ∨
      E.isMidFrame s.core = true) := by
    rw [h.pending, hdriving.stopped, hmid]
    decide
  rw [handleReplay, if_neg hreads]
  cases hmarker : (r.packetsAt s.totalFrames s.behindKeyframe).2 with
  | false =>
    left
    dsimp only
    rw [hmarker]
    exact ⟨⟨rfl, hdriving.stopped⟩, rfl⟩
  | true =>
    right
    obtain ⟨more, hends⟩ := h.next hmarker
    dsimp only
    rw [hmarker, if_pos rfl]
    refine ⟨⟨hdriving.stalled, hdriving.stopped⟩, rfl, ⟨more, rfl, rfl, ?_⟩, .begun _ hmid⟩
    dsimp only
    rw [E.game_play]
    exact hends

theorem runUnlocked_inFrame {more : Nat} (hdriving : Driving s) (h : course.InFrame more s)
    (drawn : Bool) :
    s.runUnlocked E r drawn = s.runCore E drawn := by
  unfold runUnlocked
  rw [handleReplay_inFrame h, hdriving.stalled, if_neg Bool.false_ne_true]
  dsimp only
  rw [hdriving.stalled, if_neg Bool.false_ne_true]

/-- A run in a frame takes it further, or completes it. -/
theorem runCore_inFrame {drawn : Bool} {more : Nat} (hdriving : Driving s)
    (h : course.InFrame more s) (hdrawing : drawn = true → Drawing E s.core) :
    (more = 0 ∧ course.Arrived (s.runCore E drawn) ∧
        (s.runCore E drawn).totalFrames = s.totalFrames + 1 ∧
        (drawn = true → Drawn E (s.runCore E drawn).core)) ∨
      ∃ less, more = less + 1 ∧ Driving (s.runCore E drawn) ∧
        (s.runCore E drawn).totalFrames = s.totalFrames ∧
        course.InFrame less (s.runCore E drawn) ∧
        (drawn = true → Drawing E (s.runCore E drawn).core) := by
  have hends := h.next
  have hframes := E.run_frames drawn s.core
  have hgame := E.game_run drawn s.core
  generalize hnext : course.game (s.totalFrames + 1) = next at hends
  cases hends with
  | last hcompletes =>
    left
    rw [if_pos hcompletes] at hframes
    refine ⟨rfl, ⟨⟨hdriving.stalled, hdriving.stopped⟩, ?_, h.behindKeyframe, ?_⟩, ?_, ?_⟩
    · show (if (E.run drawn s.core).1 = 0 then s.replayFramePending else false) = false
      rw [hframes]
      rfl
    · show E.game (E.run drawn s.core).2 = course.game (s.totalFrames + (E.run drawn s.core).1)
      rw [hgame, hframes, hnext]
    · show s.totalFrames + (E.run drawn s.core).1 = s.totalFrames + 1
      rw [hframes]
    · rintro rfl
      refine ⟨s.core, hdrawing rfl, ?_, rfl⟩
      rw [hframes]
      decide
  | more hcompletes hrest =>
    right
    rw [hcompletes, if_neg Bool.false_ne_true] at hframes
    refine ⟨_, rfl, ⟨hdriving.stalled, hdriving.stopped⟩, ?_, ⟨?_, h.behindKeyframe, ?_⟩, ?_⟩
    · show s.totalFrames + (E.run drawn s.core).1 = s.totalFrames
      rw [hframes, Nat.add_zero]
    · show (if (E.run drawn s.core).1 = 0 then s.replayFramePending else false) = true
      rw [hframes, if_pos rfl]
      exact h.pending
    · show E.Ends _ (E.game (E.run drawn s.core).2)
        (course.game (s.totalFrames + (E.run drawn s.core).1 + 1))
      rw [hgame, hframes, Nat.add_zero, hnext]
      exact hrest
    · rintro rfl
      exact .run (hdrawing rfl) hframes

/-! ## Loops that run frames -/

/-- A loop came to the end of frame `target`, the last one drawn, unless the replay ended before. -/
def Landed (course : Course E r) (target : Nat) (s : ReplayCore C) : Prop :=
  (Stuck s ∧ s.totalFrames < target) ∨
    (course.Arrived s ∧ s.totalFrames = target ∧ Drawn E s.core)

/-- A loop that has nothing to do. -/
theorem runFrames_of_le {drawn : Nat → Bool} {target : Nat} (fuel : Nat)
    (h : target ≤ s.totalFrames ∨ s.replayStalled = true) :
    s.runFrames E r drawn target fuel = some s := by
  have hnot : ¬(s.totalFrames < target ∧ s.replayStalled = false) := by
    rintro ⟨hlt, hgoing⟩
    rcases h with h | h
    · omega
    · rw [h] at hgoing
      cases hgoing
  cases fuel with
  | zero => rw [runFrames, if_neg hnot]
  | succ fuel => rw [runFrames, if_neg hnot]

/-- A turn of a loop that has something to do. -/
theorem settles_runFrames {drawn : Nat → Bool} {target : Nat} {t : ReplayCore C}
    (hlt : s.totalFrames < target) (hgoing : s.replayStalled = false)
    (h : Settles (fun fuel ↦ (s.runUnlocked E r (drawn s.totalFrames)).runFrames
      E r drawn target fuel) t) :
    Settles (fun fuel ↦ s.runFrames E r drawn target fuel) t := by
  obtain ⟨n, hn⟩ := h
  refine ⟨n + 1, fun fuel hfuel ↦ ?_⟩
  cases fuel with
  | zero => omega
  | succ fuel =>
    dsimp only
    rw [runFrames, if_pos ⟨hlt, hgoing⟩]
    exact hn fuel (by omega)

/-- A loop in a frame comes to its end. -/
theorem settles_runFrames_inFrame {drawn : Nat → Bool} {target more : Nat} {P : ReplayCore C → Prop}
    (hdriving : Driving s) (h : course.InFrame more s)
    (hdrawing : drawn s.totalFrames = true → Drawing E s.core)
    (hlt : s.totalFrames < target)
    (hnext : ∀ s' : ReplayCore C, course.Arrived s' → s'.totalFrames = s.totalFrames + 1 →
      (drawn s.totalFrames = true → Drawn E s'.core) →
      ∃ t, Settles (fun fuel ↦ s'.runFrames E r drawn target fuel) t ∧ P t) :
    ∃ t, Settles (fun fuel ↦ s.runFrames E r drawn target fuel) t ∧ P t := by
  induction more generalizing s with
  | zero =>
    have hrun : s.runUnlocked E r (drawn s.totalFrames) =
        s.runCore E (drawn s.totalFrames) := runUnlocked_inFrame hdriving h _
    rcases runCore_inFrame hdriving h hdrawing with ⟨-, harrived, htotal, hdrawn⟩ | ⟨_, hmore, _⟩
    · obtain ⟨t, ht, hP⟩ := hnext _ harrived htotal hdrawn
      exact ⟨t, settles_runFrames hlt hdriving.stalled (hrun ▸ ht), hP⟩
    · omega
  | succ more ih =>
    have hrun : s.runUnlocked E r (drawn s.totalFrames) =
        s.runCore E (drawn s.totalFrames) := runUnlocked_inFrame hdriving h _
    rcases runCore_inFrame hdriving h hdrawing with ⟨hmore, _⟩ | ⟨_, hmore, hdriving', htotal, h',
      hdrawing'⟩
    · omega
    · obtain rfl := Nat.succ.inj hmore
      obtain ⟨t, ht, hP⟩ := ih hdriving' h' (by rwa [htotal]) (by rwa [htotal]) (by rwa [htotal])
      exact ⟨t, settles_runFrames hlt hdriving.stalled (hrun ▸ ht), hP⟩

/-- A loop comes to the end of the frame at hand, or finds that the replay has ended. -/
theorem settles_runFrames_going {drawn : Nat → Bool} {target : Nat} {P : ReplayCore C → Prop}
    (h : course.Going (drawn s.totalFrames) s) (hlt : s.totalFrames < target)
    (hstuck : ∀ s', Stuck s' → s'.totalFrames = s.totalFrames → P s')
    (hnext : ∀ s' : ReplayCore C, course.Arrived s' → s'.totalFrames = s.totalFrames + 1 →
      (drawn s.totalFrames = true → Drawn E s'.core) →
      ∃ t, Settles (fun fuel ↦ s'.runFrames E r drawn target fuel) t ∧ P t) :
    ∃ t, Settles (fun fuel ↦ s.runFrames E r drawn target fuel) t ∧ P t := by
  rcases h.place with hready | ⟨more, hin, hdrawing⟩
  · set begun := s.handleReplay E r with hbegun
    rcases handleReplay_ready h.toDriving hready with ⟨hstalled, htotal⟩ |
      ⟨hdriving, htotal, ⟨more, hin⟩, hdrawing⟩
    · have hrun : s.runUnlocked E r (drawn s.totalFrames) = begun := by
        unfold runUnlocked
        rw [h.stalled, if_neg Bool.false_ne_true, ← hbegun]
        dsimp only
        rw [hstalled.stalled, if_pos rfl]
      refine ⟨begun, settles_runFrames hlt h.stalled ?_, hstuck _ hstalled htotal⟩
      rw [hrun]
      exact ⟨0, fun fuel _ ↦ runFrames_of_le fuel (.inr hstalled.stalled)⟩
    · -- The frame has begun: it goes on as if it had been found begun.
      have hrun : s.runUnlocked E r (drawn s.totalFrames) =
          begun.runUnlocked E r (drawn begun.totalFrames) := by
        rw [runUnlocked_inFrame hdriving hin, htotal]
        unfold runUnlocked
        rw [h.stalled, if_neg Bool.false_ne_true, ← hbegun]
        dsimp only
        rw [hdriving.stalled, if_neg Bool.false_ne_true]
      obtain ⟨t, ⟨n, hn⟩, hP⟩ : ∃ t, Settles (fun fuel ↦ begun.runFrames E r drawn
          target fuel) t ∧ P t :=
        settles_runFrames_inFrame hdriving hin (fun _ ↦ hdrawing) (by rwa [htotal])
          (by rwa [htotal])
      refine ⟨t, settles_runFrames hlt h.stalled ⟨n, fun fuel hfuel ↦ ?_⟩, hP⟩
      have hmore := hn (fuel + 1) (by omega)
      dsimp only at hmore
      rw [runFrames, if_pos ⟨by rwa [htotal], hdriving.stalled⟩] at hmore
      dsimp only
      rw [hrun]
      exact hmore
  · exact settles_runFrames_inFrame h.toDriving hin hdrawing hlt hnext

/-- **A loop that runs frames lands** on its target, if its last frame is drawn. -/
theorem runFrames_lands {drawn : Nat → Bool} {target : Nat} (hlast : drawn (target - 1) = true)
    (h : course.Going (drawn s.totalFrames) s) (hlt : s.totalFrames < target) :
    ∃ t, Settles (fun fuel ↦ s.runFrames E r drawn target fuel) t ∧
      course.Landed target t := by
  obtain ⟨frames, htarget⟩ := Nat.exists_eq_add_of_lt hlt
  induction frames generalizing s with
  | zero =>
    refine settles_runFrames_going h hlt (fun s' hs' htotal ↦ .inl ⟨hs', by omega⟩)
      fun s' hs' htotal hdrawn ↦ ⟨s', ⟨0, fun fuel _ ↦ runFrames_of_le fuel (.inl (by omega))⟩,
        .inr ⟨hs', by omega, hdrawn ?_⟩⟩
    rwa [htarget] at hlast
  | succ frames ih =>
    exact settles_runFrames_going h hlt (fun s' hs' htotal ↦ .inl ⟨hs', by omega⟩)
      fun s' hs' htotal _ ↦ ih (hs'.going _) (by omega) (by omega)

/-! ## Frames that are all drawn -/

theorem complete_handleReplay (h : Complete E s.core) :
    Complete E (s.handleReplay E r).core := by
  unfold handleReplay
  dsimp only
  split
  · exact h
  · split
    · exact E.complete_play _ _ h
    · exact E.complete_play _ _ h

theorem complete_runUnlocked (h : Complete E s.core) :
    Complete E (s.runUnlocked E r true).core := by
  unfold runUnlocked
  dsimp only
  split
  · exact h
  · split
    · exact complete_handleReplay h
    · exact E.complete_run _ (complete_handleReplay h)

/-- As long as every frame is drawn, nothing goes missing from the picture. -/
theorem complete_runFrames {target fuel : Nat} {t : ReplayCore C}
    (hrun : s.runFrames E r (fun _ ↦ true) target fuel = some t)
    (h : Complete E s.core) : Complete E t.core := by
  induction fuel generalizing s with
  | zero =>
    rw [runFrames] at hrun
    split at hrun
    · cases hrun
    · cases hrun
      exact h
  | succ fuel ih =>
    rw [runFrames] at hrun
    split at hrun
    · exact ih hrun (complete_runUnlocked h)
    · cases hrun
      exact h

end Course

end VideoExport

end SuperShuckie
