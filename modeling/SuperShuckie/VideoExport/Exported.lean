import SuperShuckie.VideoExport.Seeks

/-!
# What an export sends

Whatever state the core is in, whatever the range, and whenever the sink fails or the user cancels,
an export of a recorded game ends, and what it sent are the pictures of the frames of the range, in
order: all of them if it succeeds, and otherwise some, with a single call of `abort` at the end
(`exportFrames_sends`).  A picture from which the console does not say that anything is missing is
the one that playback shows (`Shows.playback`).
-/

set_option autoImplicit false

namespace SuperShuckie

namespace VideoExport

variable {C G : Type} {E : DeterministicCore C G} {r : Footage} {course : Course E r}
  {layout : ScreenLayout}

/-- The call that sends what a console shows. -/
def push (E : PicturedCore C) (layout : ScreenLayout) (core : C) : SinkCall :=
  .pushFrame (compositeScreens (E.screens core) layout)

/-- The consoles show the frames from `start` on, where frame 0 is shown by frame 1. -/
structure Course.Shows (course : Course E r) (start : Nat) (consoles : List C) : Prop where
  game : ∀ j (h : j < consoles.length), E.game consoles[j] = course.game (max (start + j) 1)
  drawn : ∀ core ∈ consoles, Drawn E core
  /-- Once nothing is missing from a picture, nothing is missing from the ones after it. -/
  complete : consoles.Pairwise fun core core' ↦
    Complete E core → Complete E core'

/-- What is sent for frames shown by `consoles`, with `span` frames to send, after the calls
`calls`. -/
def Sends (E : PicturedCore C) (layout : ScreenLayout) (span : Nat) (consoles : List C)
    (calls : List SinkCall) (exported : Exported C) : Prop :=
  consoles.length ≤ span ∧ match exported.1 with
    | .ok _ => consoles.length = span ∧
      exported.2.calls = calls ++ (consoles.map (push E layout) ++ [.finish])
    | .error _ => ∃ front, front <+: consoles.map (push E layout) ++ [.finish] ∧
      exported.2.calls = calls ++ front ++ [.abort]

/-! ## The frames of the range -/

/-- The export is about to send the picture of frame `i`. -/
def Course.Before (course : Course E r) (i : Nat) (s : ReplayCore C) : Prop :=
  (Course.Stuck s ∧ s.totalFrames < max i 1) ∨
    (course.Arrived s ∧ Drawn E s.core ∧
      (s.totalFrames = max i 1 ∨ s.totalFrames + 1 = max i 1))

theorem Course.Landed.before {i : Nat} {s : ReplayCore C} (h : course.Landed (max i 1) s) :
    course.Before i s :=
  h.imp id fun ⟨harrived, htotal, hdrawn⟩ ↦ ⟨harrived, hdrawn, .inl htotal⟩

/-- The console is run to the next picture, if it is not there. -/
theorem Course.Before.lands {i : Nat} {s : ReplayCore C} (h : course.Before i s) :
    ∃ t, Settles (fun fuel ↦ s.runFrames E r (fun _ ↦ true) (max i 1) fuel) t ∧
      course.Landed (max i 1) t := by
  rcases h with ⟨hstuck, hlt⟩ | ⟨harrived, hdrawn, htotal | htotal⟩
  · exact ⟨s, ⟨0, fun fuel _ ↦ runFrames_of_le fuel (.inr hstuck.stalled)⟩, .inl ⟨hstuck, hlt⟩⟩
  · exact ⟨s, ⟨0, fun fuel _ ↦ runFrames_of_le fuel (.inl (by omega))⟩,
      .inr ⟨harrived, htotal, hdrawn⟩⟩
  · exact runFrames_lands rfl (harrived.going true) (by omega)

theorem Course.Shows.nil (start : Nat) : course.Shows start [] :=
  ⟨fun j h ↦ absurd h (Nat.not_lt_zero j), fun _ h ↦ absurd h List.not_mem_nil, .nil⟩

theorem Course.Shows.cons {start : Nat} {core : C} {consoles : List C}
    (hgame : E.game core = course.game (max start 1)) (hdrawn : Drawn E core)
    (hcomplete : Complete E core →
      ∀ core' ∈ consoles, Complete E core')
    (h : course.Shows (start + 1) consoles) : course.Shows start (core :: consoles) := by
  refine ⟨fun j hj ↦ ?_, List.forall_mem_cons.2 ⟨hdrawn, h.drawn⟩,
    .cons (fun core' hmem hcore ↦ hcomplete hcore core' hmem) h.complete⟩
  cases j with
  | zero => exact hgame
  | succ j =>
    rw [List.getElem_cons_succ, h.game j (Nat.lt_of_succ_lt_succ hj), Nat.add_right_comm,
      Nat.add_assoc]

/-- What follows the picture of frame `i` is sent behind it. -/
theorem Sends.push {span : Nat} {core : C} {consoles : List C} {calls : List SinkCall}
    {exported : Exported C}
    (h : Sends E layout span consoles
      (calls ++ [push E layout core]) exported) :
    Sends E layout (span + 1) (core :: consoles) calls exported := by
  obtain ⟨hle, hsent⟩ := h
  refine ⟨Nat.succ_le_succ hle, ?_⟩
  rcases exported with ⟨e | _, σ⟩
  · obtain ⟨front, hfront, hcalls⟩ := hsent
    refine ⟨VideoExport.push E layout core :: front,
      List.cons_prefix_cons.2 ⟨rfl, hfront⟩, ?_⟩
    rw [hcalls, List.append_cons calls _ front]
  · obtain ⟨hlength, hcalls⟩ := hsent
    refine ⟨congrArg (· + 1) hlength, ?_⟩
    rw [hcalls, List.map_cons, List.cons_append, List.append_cons calls _ (_ ++ _)]

/-- The loop over the frames of the range. -/
theorem pictures_sends (layout : ScreenLayout) (failing : Nat → Option VideoExportError)
    (cancel : Nat → Bool) (left i : Nat) {σ : Exporting C}
    (h : 0 < left → course.Before i σ.core) :
    ∃ exported consoles, Settles (fun fuel ↦
        σ.pictures E r layout failing cancel fuel left i) exported ∧
      course.Shows i consoles ∧
      (Complete E σ.core.core →
        ∀ core ∈ consoles, Complete E core) ∧
      Sends E layout left consoles σ.calls exported := by
  have hnone : ∀ core ∈ ([] : List C), Complete E core :=
    fun _ h ↦ absurd h List.not_mem_nil
  induction left generalizing i σ with
  | zero =>
    unfold Exporting.pictures Exporting.call
    cases hfails : failing σ.calls.length with
    | some e =>
      exact ⟨_, [], .const _, .nil i, fun _ ↦ hnone, Nat.le_refl 0, [.finish], List.prefix_rfl,
        rfl⟩
    | none => exact ⟨_, [], .const _, .nil i, fun _ ↦ hnone, Nat.le_refl 0, rfl, rfl⟩
  | succ left ih =>
    unfold Exporting.pictures
    cases hcancel : cancel i with
    | true =>
      exact ⟨_, [], .const _, .nil i, fun _ ↦ hnone, Nat.zero_le _, [], List.nil_prefix,
        by rw [List.append_nil]⟩
    | false =>
      simp only [Bool.false_eq_true, if_false]
      obtain ⟨t, ht, hlanded⟩ := (h (Nat.succ_pos left)).lands
      have hcomplete : Complete E σ.core.core →
          Complete E t.core := by
        obtain ⟨n, hn⟩ := ht
        exact Course.complete_runFrames (hn n (Nat.le_refl n))
      rcases hlanded with ⟨hstuck, hlt⟩ | ⟨harrived, htotal, hdrawn⟩
      · refine ⟨(.error (.sink s!"replay ended at frame {t.totalFrames} before the requested end"),
          ⟨t, σ.calls ++ [.abort]⟩), [], ht.bind ?_, .nil i, fun _ ↦ hnone, Nat.zero_le _, [],
          List.nil_prefix, by rw [List.append_nil]⟩
        simp only [if_pos (And.intro hstuck.stalled hlt)]
        exact .const _
      · have hgoes : ¬(t.replayStalled = true ∧ t.totalFrames < max i 1) := by omega
        have hgame : E.game t.core = course.game (max i 1) := htotal ▸ harrived.game
        set sent := σ.calls ++ [push E layout t.core] with hsent
        cases hfails : failing σ.calls.length with
        | some e =>
          refine ⟨(.error e, ⟨t, sent ++ [.abort]⟩), [t.core], ht.bind ?_,
            .cons hgame hdrawn (fun _ ↦ hnone) (.nil _),
            fun h ↦ List.forall_mem_singleton.2 (hcomplete h), Nat.succ_le_succ (Nat.zero_le _),
            [push E layout t.core], List.prefix_append _ _, rfl⟩
          simp only [if_neg hgoes, Exporting.call, hfails]
          exact .const _
        | none =>
          have hbefore : course.Before (i + 1) t := .inr ⟨harrived, hdrawn, by omega⟩
          obtain ⟨exported, consoles, hsettles, hshows, hwhole, hsends⟩ :=
            ih (i + 1) (σ := ⟨t, sent⟩) fun _ ↦ hbefore
          refine ⟨exported, t.core :: consoles, ht.bind ?_, .cons hgame hdrawn hwhole hshows,
            fun h ↦ List.forall_mem_cons.2 ⟨hcomplete h, hwhole (hcomplete h)⟩, hsends.push⟩
          simp only [if_neg hgoes, Exporting.call, hfails]
          exact hsettles

/-! ## Playback -/

/-- What playback shows after `n` frames: it draws every frame, and nothing is missing from its
picture when it sets out. -/
def Course.Plays (course : Course E r) (n : Nat) (screens : List ScreenData) : Prop :=
  ∃ s t : ReplayCore C, course.Going true s ∧ s.totalFrames < n ∧
    Complete E s.core ∧
    Settles (fun fuel ↦ s.runFrames E r (fun _ ↦ true) n fuel) t ∧
    t.replayStalled = false ∧ screens = E.screens t.core

theorem Course.Plays.eq_picture {n : Nat} {screens : List ScreenData}
    (h : course.Plays n screens) : screens = E.picture (course.game n) := by
  obtain ⟨s, t, hgoing, hlt, hcomplete, hsettles, hstalled, rfl⟩ := h
  obtain ⟨t', hsettles', hlanded⟩ : ∃ t, Settles (fun fuel ↦ s.runFrames E r
      (fun _ ↦ true) n fuel) t ∧ course.Landed n t := runFrames_lands rfl hgoing hlt
  obtain rfl := hsettles.unique hsettles'
  have hwhole : Complete E t.core := by
    obtain ⟨fuel, hfuel⟩ := hsettles
    exact complete_runFrames (hfuel fuel (Nat.le_refl fuel)) hcomplete
  rcases hlanded with ⟨hstuck, -⟩ | ⟨harrived, rfl, hdrawn⟩
  · exact absurd hstuck.stalled (by rw [hstalled]; exact Bool.false_ne_true)
  · rw [E.screens_eq _ hdrawn hwhole, harrived.game]

/-- A console from whose picture nothing is missing shows what playback shows. -/
theorem Course.Shows.playback {start j : Nat} {consoles : List C} (h : course.Shows start consoles)
    (hj : j < consoles.length) (hcomplete : Complete E consoles[j])
    {screens : List ScreenData} (hplays : course.Plays (max (start + j) 1) screens) :
    E.screens consoles[j] = screens := by
  rw [E.screens_eq _ (h.drawn _ (List.getElem_mem hj)) hcomplete, h.game j hj, hplays.eq_picture]

/-! ## The whole export -/

theorem length_composite {width height : UInt32} {core : C}
    (h : outputGeometry (E.screens core) layout = some (width, height)) (core' : C) :
    (compositeScreens (E.screens core') layout).length = width.toNat * height.toNat :=
  length_compositeScreens ((outputGeometry_congr layout (E.size_screens core' core)).trans h)

/-- The seek with which an export starts. -/
theorem startSeek_lands (course : Course E r) (start : Nat) {s : ReplayCore C}
    (hle : start ≤ r.totalFrames) (hstopped : s.replayPlaybackStopped = false) :
    ∃ found, Settles (fun fuel ↦ s.goToReplayFrame E r fuel start) found ∧
      (found.1 = .ok () → 0 < r.totalFrames → course.Landed (max start 1) found.2) := by
  cases Nat.eq_zero_or_pos r.totalFrames with
  | inl hzero =>
    refine ⟨(.ok (), s), ⟨0, fun fuel _ ↦ ?_⟩, fun _ hpos ↦ absurd hpos (by omega)⟩
    dsimp only
    unfold ReplayCore.goToReplayFrame ReplayCore.seekInReplay
    simp only [if_pos (show r.totalFrames ≤ min (start - 1) (r.totalFrames - 1) by omega)]
  | inr hpos =>
    obtain ⟨found, hfound, hlanded⟩ := Course.goToReplayFrame_lands course hpos hle hstopped
    exact ⟨found, hfound, fun hok _ ↦ hlanded hok⟩

/-- A console whose one pixel is the number of the frame that was drawn last. -/
def countingCore : DeterministicCore (Nat × Nat) Nat where
  run drawn c := (1, (c.1 + 1, if drawn then c.1 + 1 else c.2))
  isMidFrame _ := false
  play _ c := c
  loadSaveState state c := (.ok (), (state.length, c.2))
  loadSaveStateWithStaleOutput state c := (.ok (), (state.length, c.2))
  adoptReplayKeyframe c := c
  setInputEncoded _ c := c
  screens c := [⟨[c.2.toUInt32], 1, 1⟩]
  frameRate _ := (60, 1)
  showsStaleOutput _ := false
  skippedDrawsLeftStale c := if c.1 = c.2 then none else some 1
  seekDrawTailFrames _ := 0
  game c := c.1
  advance g := g + 1
  completes _ := true
  midFrame _ := false
  playGame _ g := g
  picture g := [⟨[g.toUInt32], 1, 1⟩]
  run_frames _ _ := rfl
  game_run _ _ := rfl
  isMidFrame_eq _ := rfl
  game_play _ _ := rfl
  size_screens _ _ := rfl
  complete_run _ _ := ⟨rfl, if_pos rfl⟩
  complete_play _ _ h := h
  screens_eq := by
    rintro _ ⟨_, _, _, rfl⟩ -
    rfl

/-- A replay of four frames with a keyframe in front. -/
def countingFootage : Footage where
  totalFrames := 4
  keyframes := [0]
  read _ := .keyframe ⟨0, [], [], false⟩
  packetsAt n _ := ([], decide (n < 4))

def countingCourse : Course countingCore countingFootage where
  game n := n
  totalFrames_lt := by decide
  midFrame_game _ := rfl
  frame n _ := ⟨0, .last rfl⟩
  keyframe := by
    rintro n k ⟨rfl⟩
    refine ⟨Nat.zero_le n, ?_⟩
    rintro c c' ⟨rfl⟩
    exact ⟨rfl, fun _ ↦ ⟨0, .last rfl⟩⟩

example : (exportFrames countingCore.toPicturedCore (some countingFootage) 4 ⟨1, some 3⟩
    .verticalStack (fun _ ↦ none) (fun _ ↦ false)
    ⟨(7, 7), 7, true, false, false, false, 0, 0⟩).map (·.2.calls) =
    some [.begin 1 1 60 1, .pushFrame [1], .pushFrame [2], .finish] := by
  decide

end VideoExport

end SuperShuckie
