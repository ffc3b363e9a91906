import SuperShuckie.Lib.Runs
import SuperShuckie.CoreThread.Synced

/-!
# A compared replay settles on its target

Once the target of a synced replay stays where it is, the replay seeks at most once more, and after
finitely many passes it stays `Settled`: on the first frame that reaches the target, or where a seek
brought it, with that frame's picture on show.

The program keeps to this while its passes meet `PassMeets` (`follows_target`).  What goes wrong
otherwise: the target is subtracted from without a look at the range of an `i64`; a frame whose time
is just the target is kept although the one before has the same time; and the last picture is not
handed on when the pass that has run the last frame finds the end of the replay, or when a frame
that reaches the target was not expected to and is not drawn (`not_follows_past_end`).
-/

set_option autoImplicit false

namespace SuperShuckie

namespace CoreThread

open SyncedThread

variable {r : TimedReplay}

/-! ## What is to hold -/

/-- The first frame at or after a time, or the last frame if there is none. -/
structure FirstAtOrAfter (r : TimedReplay) (target : Int) (frame : Nat) : Prop where
  within : min 1 r.totalFrames ≤ frame ∧ frame ≤ r.totalFrames
  reached : target ≤ r.time frame ∨ frame = r.totalFrames
  first : ∀ g, 1 ≤ g → g < frame → r.time g < target

/-- A frame that has reached the target and lies at most `postLoadFrames` past the last keyframe at
or before it. -/
structure NearKeyframe (r : TimedReplay) (target : Int) (frame : Nat) : Prop where
  reached : target ≤ r.time frame
  near : ∃ k ∈ r.keyframes, r.time k ≤ target ∧
    (∀ k' ∈ r.keyframes, r.time k' ≤ target → k' ≤ k) ∧ frame ≤ k + postLoadFrames

/-- The replay is where it should be for a target, and shows it. -/
structure Settled (r : TimedReplay) (target : Int) (s : SyncedThread) : Prop where
  position : FirstAtOrAfter r target s.core.totalFrames ∨
    s.sync.prevMillis = none ∧ s.sync.seekedFor ≠ none ∧ NearKeyframe r target s.core.totalFrames
  picture : 0 < r.totalFrames → s.published = some s.core.totalFrames

/-- What the `n`-th pass does. -/
def Does (r : TimedReplay) (drawsAll : Bool) (inputs : Nat → PassInput) (start : SyncedThread)
    (n : Nat) (kind : PassKind) (s' : SyncedThread) : Prop :=
  ∃ s, passes r drawsAll inputs start n = some s ∧ s.pass r drawsAll (inputs n) = some (kind, s')

/-- **A compared replay follows its target.**  Nothing overflows; and where the target stays put
from some pass on, and passes keep having time for a turn, there is at most one seek more, and after
finitely many passes the thread parks for good where it should. -/
structure FollowsTarget (r : TimedReplay) (drawsAll : Bool) (inputs : Nat → PassInput)
    (start : SyncedThread) : Prop where
  noOverflow : ∀ n, ∃ s, passes r drawsAll inputs start n = some s
  settles : ∀ n target, (∀ i ≥ n, (inputs i).target.get = some target) →
    (∀ i ≥ n, ∃ j ≥ i, (inputs j).turns ≠ []) →
    (∀ i ≥ n, ∀ j ≥ n, ∀ s s', Does r drawsAll inputs start i .seeked s →
      Does r drawsAll inputs start j .seeked s' → i = j) ∧
    ∃ m ≥ n, ∀ i ≥ m, ∃ s, Does r drawsAll inputs start i .parked s ∧ Settled r target s

/-! ## When it holds -/

/-- A pass seeks. -/
def Seeks (r : TimedReplay) (target : Int) (s : SyncedThread) : Prop :=
  s.WentBack r target ∨ s.JumpAhead r target (target - s.current r)

/-- **When a pass is as it should be.** -/
structure PassMeets (r : TimedReplay) (input : PassInput) (s : SyncedThread) : Prop where
  /-- The target is not `2 ^ 63` milliseconds before the time of the replay. -/
  inRange : ∀ target ∈ input.target.get, ¬ s.WentBack r target → -2 ^ 63 ≤ target - s.current r
  /-- A frame whose time is just the target is not kept after another one of that time. -/
  distinct : ∀ target ∈ input.target.get, target = s.current r → s.sync.prevMillis ≠ some target
  /-- Every frame is complete before the time of the pass is over. -/
  uncut : ∀ turn ∈ input.turns, ∃ drawDue, turn = .frame drawDue
  /-- Where there is no frame left to be run, the last run has drawn its frame. -/
  drawn : ∀ target ∈ input.target.get, ¬ s.WentBack r target → s.core.replayStalled = false →
    target ≤ s.current r ∨ s.core.totalFrames = r.totalFrames → 0 < r.totalFrames →
    s.core.lastFramePresented = true
  /-- The pass that runs the last frame does not go on to the end of the replay. -/
  stopsAtEnd : ∀ target ∈ input.target.get, target ≤ r.time r.totalFrames ∨
    s.core.totalFrames = r.totalFrames ∨
    s.core.totalFrames + input.turns.length ≤ r.totalFrames
  /-- A seek for a target before the replay finds the first keyframe, and none finds one at the end
  of the replay. -/
  keyframe : ∀ target ∈ input.target.get, Seeks r target s →
    ∀ k ∈ r.replayKeyframeAtOrBeforeMillis (max target 0).toNat,
      (target < 0 → k = 0) ∧ (0 < r.totalFrames → k < r.totalFrames)

/-! ## Times -/

/-- The replay is not so long that its times do not fit. -/
def Short (r : TimedReplay) : Prop := (r.millis r.totalFrames).toNat < 2 ^ 62

theorem time_eq (hshort : Short r) {f : Nat} (hf : f ≤ r.totalFrames) :
    r.time f = (r.millis f).toNat ∧ (r.millis f).toNat < 2 ^ 62 := by
  have hle := UInt64.le_iff_toNat_le.1 (r.mono hf)
  have hlt : (r.millis f).toNat < 2 ^ 62 := Nat.lt_of_le_of_lt hle hshort
  refine ⟨?_, hlt⟩
  rw [TimedReplay.time, asI64, if_pos (by omega)]

theorem time_mono (hshort : Short r) {f g : Nat} (hfg : f ≤ g) (hg : g ≤ r.totalFrames) :
    r.time f ≤ r.time g := by
  rw [(time_eq hshort (Nat.le_trans hfg hg)).1, (time_eq hshort hg).1]
  exact_mod_cast UInt64.le_iff_toNat_le.1 (r.mono hfg)

theorem checkedI64_eq {x : Int} (h : -2 ^ 63 ≤ x ∧ x < 2 ^ 63) : checkedI64 x = some x := if_pos h

/-- The keyframe that is looked up for a time is the last one at or before it. -/
theorem replayKeyframeAtOrBeforeMillis_spec {millis k : Nat}
    (h : r.replayKeyframeAtOrBeforeMillis millis = some k) :
    k ∈ r.keyframes ∧ (r.millis k).toNat ≤ millis ∧
      ∀ k' ∈ r.keyframes, (r.millis k').toNat ≤ millis → k' ≤ k := by
  have hmem := List.mem_of_getLast? h
  have hsub := List.takeWhile_sublist (p := fun k ↦ decide ((r.millis k).toNat ≤ millis))
    (l := r.keyframes)
  have hpast := List.all_eq_true.1 List.all_takeWhile k hmem
  refine ⟨hsub.subset hmem, by simpa using hpast, fun k' hk' hle ↦ ?_⟩
  refine le_getLast (r.sorted.sublist hsub) h (mem_takeWhile r.sorted (fun a ha ↦ ?_) hk')
  have hmillis := UInt64.le_iff_toNat_le.1 (r.mono ha)
  simpa using Nat.le_trans hmillis hle

/-! ## What every pass keeps -/

/-- Frames past a keyframe that a seek loads, and the last ones at or before its target. -/
structure Landed (r : TimedReplay) (target : Int) (frame k : Nat) : Prop where
  mem : k ∈ r.keyframes
  le_target : r.time k ≤ target
  le_frame : k ≤ frame
  near : frame ≤ k + postLoadFrames

/-- The state of a thread between two passes. -/
structure Steady (r : TimedReplay) (s : SyncedThread) : Prop where
  whole : s.core.replayFramePending = false
  within : min 1 r.totalFrames ≤ s.core.totalFrames ∧ s.core.totalFrames ≤ r.totalFrames
  delta : 1 ≤ s.sync.lastDelta ∧ s.sync.lastDelta < 2 ^ 62
  prev : ∀ prev ∈ s.sync.prevMillis, 2 ≤ s.core.totalFrames ∧ prev = r.time (s.core.totalFrames - 1)
  seeked : s.sync.prevMillis = none → ∀ target ∈ s.sync.seekedFor,
    s.core.totalFrames = min 1 r.totalFrames ∨ ∃ k, Landed r target s.core.totalFrames k
  fresh : s.sync.prevMillis = none → s.sync.seekedFor = none →
    s.core.totalFrames = min 1 r.totalFrames
  serial : s.publishedRunSerial ≤ s.core.runSerial
  pictures : 0 < r.totalFrames → s.core.lastFramePresented = true →
    if s.publishedRunSerial = s.core.runSerial then s.published = some s.core.totalFrames
    else s.core.screens = some s.core.totalFrames
  ended : s.core.replayStalled = true → s.core.totalFrames = r.totalFrames ∧
    s.core.lastFramePresented = false ∧ (0 < r.totalFrames → s.published = some r.totalFrames)

variable {s s' : SyncedThread} {drawsAll : Bool} {target : Int} {input : PassInput}

theorem current_eq (h : s.core.replayFramePending = false) :
    s.current r = r.time s.core.totalFrames := by
  rw [current, h]
  rfl

theorem steady_start (r : TimedReplay) (published : Option Nat) :
    Steady r (.start r published) := by
  have hdelta : (1 : Int) ≤ 16 ∧ (16 : Int) < 2 ^ 62 := by decide
  refine ⟨rfl, ⟨Nat.le_refl _, Nat.min_le_right _ _⟩, hdelta, ?_, ?_, fun _ _ ↦ rfl,
    Nat.zero_le _, fun hframes _ ↦ ?_, ?_⟩
  · intro prev hprev
    cases hprev
  · intro _ target htarget
    cases htarget
  · show (if 0 < r.totalFrames then some 1 else none) = some (min 1 r.totalFrames)
    rw [if_pos hframes, Nat.min_eq_left hframes]
  · intro hstalled
    cases hstalled

/-- **Handing on the screens** leaves the frame that the last run has drawn on show. -/
theorem refreshScreenData_spec (running : Bool) (h : Steady r s) :
    Steady r (s.refreshScreenData running) ∧
      (s.refreshScreenData running).core = s.core ∧
      (s.refreshScreenData running).sync = s.sync ∧
      (0 < r.totalFrames → s.core.lastFramePresented = true →
        (s.refreshScreenData running).published = some s.core.totalFrames) := by
  have hpending : ¬ (running = true ∧ s.core.replayFramePending = true) := by
    rw [h.whole]
    exact fun hand ↦ Bool.false_ne_true hand.2
  rw [refreshScreenData, if_neg hpending]
  split_ifs with hserial hpresented
  · refine ⟨h, rfl, rfl, fun hframes hpresented ↦ ?_⟩
    have := h.pictures hframes hpresented
    rwa [if_pos hserial.symm] at this
  · have hscreens (hframes : 0 < r.totalFrames) : s.core.screens = some s.core.totalFrames := by
      have := h.pictures hframes hpresented
      rwa [if_neg (Ne.symm hserial)] at this
    refine ⟨⟨h.whole, h.within, h.delta, h.prev, h.seeked, h.fresh, Nat.le_refl _,
      fun hframes _ ↦ ?_, fun hstalled ↦ ?_⟩, rfl, rfl, fun hframes _ ↦ hscreens hframes⟩
    · rw [if_pos rfl]
      exact hscreens hframes
    · rw [(h.ended hstalled).2.1] at hpresented
      cases hpresented
  · refine ⟨⟨h.whole, h.within, h.delta, h.prev, h.seeked, h.fresh, Nat.le_refl _,
      fun _ hpresented' ↦ absurd hpresented' hpresented, h.ended⟩, rfl, rfl, fun _ hpresented' ↦
      absurd hpresented' hpresented⟩

/-! ## Seeks -/

/-- Where a seek for a target lands. -/
theorem landed_seekFrame (hframes : 0 < r.totalFrames)
    (hkeyframe : ∀ k ∈ r.replayKeyframeAtOrBeforeMillis (max target 0).toNat,
      (target < 0 → k = 0) ∧ (0 < r.totalFrames → k < r.totalFrames)) (hshort : Short r) :
    (max 1 (min (seekFrame r target) r.totalFrames) = min 1 r.totalFrames ∨
      ∃ k, Landed r target (max 1 (min (seekFrame r target) r.totalFrames)) k) ∧
    seekFrame r target - postLoadFrames < r.totalFrames ∧
    ∀ k ∈ r.replayKeyframeAtOrBeforeMillis (max target 0).toNat,
      k ≤ max 1 (min (seekFrame r target) r.totalFrames) := by
  have hthree : postLoadFrames = 3 := rfl
  have htotal := r.totalFrames_lt
  rw [seekFrame]
  cases hfound : r.replayKeyframeAtOrBeforeMillis (max target 0).toNat with
  | none =>
    dsimp only
    refine ⟨Or.inl (by omega), by omega, fun k hk ↦ (nomatch hk)⟩
  | some k =>
    obtain ⟨hmem, hmillis, -⟩ := replayKeyframeAtOrBeforeMillis_spec hfound
    obtain ⟨hnegative, hlt⟩ := hkeyframe k hfound
    have hktotal := hlt hframes
    dsimp only
    by_cases hpos : 0 < k
    · rw [if_pos hpos, saturatingAdd]
      refine ⟨Or.inr ⟨k, hmem, ?_, by omega, by omega⟩, by omega, fun k' hk' ↦ ?_⟩
      · rw [(time_eq hshort (Nat.le_of_lt hktotal)).1]
        omega
      · cases hk'
        omega
    · rw [if_neg hpos]
      refine ⟨Or.inl (by omega), by omega, fun k' hk' ↦ ?_⟩
      cases hk'
      omega

/-- **A seek** is one that is not followed by another for the same target. -/
theorem seekSynced_spec (hshort : Short r) (h : Steady r s)
    (hkeyframe : ∀ k ∈ r.replayKeyframeAtOrBeforeMillis (max target 0).toNat,
      (target < 0 → k = 0) ∧ (0 < r.totalFrames → k < r.totalFrames)) :
    Steady r (s.seekSynced r target) ∧ ¬ Seeks r target (s.seekSynced r target) := by
  have hback : ¬ (s.seekSynced r target).WentBack r target := by
    rintro ⟨-, hbefore⟩
    exact absurd (hbefore target rfl) (Int.lt_irrefl _)
  obtain hframes | hframes := Nat.eq_zero_or_pos r.totalFrames
  · have hcore : (s.seekSynced r target).core = s.core :=
      PlayedCore.goToReplayFrame_of_empty hframes
    have hwithin := h.within
    refine ⟨⟨?_, ?_, h.delta, fun _ hprev ↦ (nomatch hprev), fun _ _ _ ↦ Or.inl ?_,
      fun _ hnone ↦ (nomatch hnone), ?_, fun hpos ↦ by omega, fun hstalled ↦ ?_⟩, ?_⟩
    · rw [hcore]
      exact h.whole
    · rw [hcore]
      exact hwithin
    · rw [hcore]
      omega
    · exact Nat.le_refl _
    · rw [hcore] at hstalled ⊢
      exact ⟨(h.ended hstalled).1, (h.ended hstalled).2.1, fun hpos ↦ by omega⟩
    · rintro (hwent | ⟨-, -, k, hk, hlt⟩)
      · exact hback hwent
      · have hktotal := r.le_totalFrames k (replayKeyframeAtOrBeforeMillis_spec hk).1
        omega
  · obtain ⟨hland, hhint, hreach⟩ := landed_seekFrame hframes hkeyframe hshort
    obtain ⟨k, hkmem, hk, hkle⟩ := PlayedCore.exists_keyframeAtOrBefore r.toSeekableReplay
      (seekFrame r target - postLoadFrames)
    obtain ⟨htotal, hstalled, hpending, hdrawn⟩ := @PlayedCore.goToReplayFrame_spec
      r.toSeekableReplay (seekFrame r target) s.core hframes
    obtain ⟨hscreens, hpresented⟩ := hdrawn (by
      rw [hk, Option.getD_some]
      omega)
    have hframe : (s.seekSynced r target).core.totalFrames =
        max 1 (min (seekFrame r target) r.totalFrames) := htotal
    refine ⟨⟨hpending, by omega, h.delta, fun _ hprev ↦ (nomatch hprev), fun _ t ht ↦ ?_,
      fun _ hnone ↦ (nomatch hnone), Nat.le_refl _, fun _ _ ↦ ?_, fun hstall ↦ ?_⟩, ?_⟩
    · cases ht
      rw [hframe]
      exact hland
    · have hserial : (s.seekSynced r target).publishedRunSerial =
          (s.seekSynced r target).core.runSerial := rfl
      rw [if_pos hserial]
      exact hscreens
    · rw [show (s.seekSynced r target).core.replayStalled = false from hstalled] at hstall
      cases hstall
    · rintro (hwent | ⟨-, -, k, hk, hlt⟩)
      · exact hback hwent
      · have hle := hreach k hk
        have hktotal := r.le_totalFrames k (replayKeyframeAtOrBeforeMillis_spec hk).1
        have hfits := r.totalFrames_lt
        rw [hframe, saturatingAdd] at hlt
        omega

/-! ## The loop of a pass -/

/-- What the frames of a pass leave: nothing has gone back, and the rank of the thread has fallen if
there was a turn. -/
def rank (r : TimedReplay) (s : SyncedThread) : Nat :=
  r.totalFrames - s.core.totalFrames + if s.core.replayStalled then 0 else 1

/-- **A frame is run** without an overflow, and the frame before it had not reached the target. -/
theorem runFrame_spec {drawn : Bool} (hshort : Short r) (h : Steady r s)
    (hlt : s.core.totalFrames < r.totalFrames) (hbefore : s.current r < target)
    (hrunning : s.core.replayStalled = false) :
    ∃ s', s.runFrame r drawn = some s' ∧ Steady r s' ∧ ¬ s'.WentBack r target ∧
      s'.core.replayStalled = false ∧ s'.core.totalFrames = s.core.totalFrames + 1 := by
  have hcurrent := current_eq (r := r) h.whole
  have hnow := time_eq hshort (Nat.le_of_lt hlt)
  have hnext := time_eq hshort (f := s.core.totalFrames + 1) hlt
  have hmono := time_mono hshort (Nat.le_succ s.core.totalFrames) hlt
  have hwithin := h.within
  have hchecked := checkedI64_eq (x := r.time (s.core.totalFrames + 1) - s.current r) (by
    rw [hcurrent]
    omega)
  refine ⟨s.ranFrame drawn (s.current r) (r.time (s.core.totalFrames + 1) - s.current r), ?_,
    ⟨rfl, ⟨?_, hlt⟩, ?_, ?_, fun hnone ↦ (nomatch hnone), fun hnone ↦ (nomatch hnone),
      Nat.le_succ_of_le h.serial, fun _ hpresented ↦ ?_, fun hstalled ↦ ?_⟩, ?_, hrunning, rfl⟩
  · rw [runFrame, hchecked]
    rfl
  · exact Nat.le_trans h.within.1 (Nat.le_succ _)
  · rw [hcurrent, ranFrame]
    dsimp only
    omega
  · intro prev hprev
    rw [← Option.some.inj hprev]
    exact ⟨by rw [ranFrame]; dsimp only; omega, hcurrent⟩
  · have hserial := h.serial
    rw [ranFrame] at hpresented ⊢
    dsimp only at hpresented ⊢
    rw [if_neg (by omega), if_pos hpresented]
  · rw [ranFrame] at hstalled
    dsimp only at hstalled
    rw [hrunning] at hstalled
    cases hstalled
  · rintro ⟨-, hback⟩
    exact absurd hback (Int.not_le.2 hbefore)

/-- Reading on past the last frame leaves its picture on show. -/
theorem steady_stall (h : Steady r s) (hend : s.core.totalFrames = r.totalFrames)
    (hpublished : 0 < r.totalFrames → s.published = some r.totalFrames) : Steady r s.stall :=
  ⟨h.whole, h.within, h.delta, h.prev, h.seeked, h.fresh, h.serial, fun _ hpresented ↦
    (nomatch hpresented), fun _ ↦ ⟨hend, rfl, hpublished⟩⟩

theorem rank_stall (hrunning : s.core.replayStalled = false) : rank r s.stall < rank r s := by
  rw [rank, rank, hrunning]
  show r.totalFrames - s.core.totalFrames + 0 < r.totalFrames - s.core.totalFrames + 1
  omega

/-- What the turns of a pass do. -/
structure Ran (r : TimedReplay) (target : Int) (s s' : SyncedThread) : Prop where
  steady : Steady r s'
  notBack : ¬ s'.WentBack r target
  forward : s.core.totalFrames ≤ s'.core.totalFrames
  stalled : s.core.replayStalled = true → s'.core.replayStalled = true
  rank_le : rank r s' ≤ rank r s

theorem Ran.refl (h : Steady r s) (hback : ¬ s.WentBack r target) : Ran r target s s :=
  ⟨h, hback, Nat.le_refl _, id, Nat.le_refl _⟩

/-- **The turns of a pass** do not overflow, and a turn that has something to do gets the replay on
its way. -/
theorem runTurns_spec (drawsAll : Bool) (hshort : Short r) {turns : List Turn} (h : Steady r s)
    (hback : ¬ s.WentBack r target) (huncut : ∀ turn ∈ turns, ∃ drawDue, turn = .frame drawDue)
    (hend : target ≤ r.time r.totalFrames ∨
      s.core.totalFrames = r.totalFrames ∧ (0 < r.totalFrames → s.published = some r.totalFrames) ∨
      s.core.totalFrames + turns.length ≤ r.totalFrames) :
    ∃ s', s.runTurns r drawsAll target turns = some s' ∧ Ran r target s s' ∧
      (turns ≠ [] → s.current r < target → s.core.replayStalled = false →
        rank r s' < rank r s) := by
  induction turns generalizing s with
  | nil => exact ⟨s, rfl, .refl h hback, fun hne ↦ absurd rfl hne⟩
  | cons turn turns ih =>
    obtain ⟨drawDue, rfl⟩ := huncut turn List.mem_cons_self
    rw [runTurns]
    by_cases hdone : target ≤ s.current r ∨ s.core.replayStalled = true
    · refine ⟨s, by rw [if_pos hdone]; rfl, .refl h hback, fun _ hlt hrunning ↦ ?_⟩
      rw [hrunning] at hdone
      exact absurd hdone (by simpa using hlt)
    · rw [not_or, Int.not_le, Bool.not_eq_true] at hdone
      obtain ⟨hlt, hrunning⟩ := hdone
      have hcurrent := current_eq (r := r) h.whole
      have hnow := time_eq hshort h.within.2
      have hdelta := h.delta
      have hchecked := checkedI64_eq (x := s.current r + s.sync.lastDelta) (by
        rw [hcurrent]
        omega)
      rw [if_neg (by rw [hrunning]; simpa using hlt), hchecked]
      dsimp only [bind, Option.bind]
      by_cases hleft : s.core.totalFrames < r.totalFrames
      · obtain ⟨mid, hmid, hsteady, hmback, hmrunning, hmtotal⟩ := @runFrame_spec r s target
          (decide (target ≤ s.current r + s.sync.lastDelta) || drawDue || drawsAll) hshort h hleft
          hlt hrunning
        have hmrank : rank r mid < rank r s := by
          rw [rank, rank, hmrunning, hrunning, hmtotal]
          omega
        have hmend : target ≤ r.time r.totalFrames ∨
            mid.core.totalFrames = r.totalFrames ∧
              (0 < r.totalFrames → mid.published = some r.totalFrames) ∨
            mid.core.totalFrames + turns.length ≤ r.totalFrames := by
          obtain hreach | ⟨hall, -⟩ | hfew := hend
          · exact Or.inl hreach
          · omega
          · rw [List.length_cons] at hfew
            exact Or.inr (Or.inr (by omega))
        obtain ⟨s', hs', hran, -⟩ := ih hsteady hmback
          (fun turn hturn ↦ huncut turn (List.mem_cons_of_mem _ hturn)) hmend
        rw [if_pos hleft, hmid]
        refine ⟨s', hs', ⟨hran.steady, hran.notBack, ?_, fun hstalled ↦ ?_, ?_⟩, fun _ _ _ ↦ ?_⟩
        · exact Nat.le_trans (by omega) hran.forward
        · rw [hrunning] at hstalled
          cases hstalled
        · exact Nat.le_trans hran.rank_le (Nat.le_of_lt hmrank)
        · exact Nat.lt_of_le_of_lt hran.rank_le hmrank
      · have hat : s.core.totalFrames = r.totalFrames := by
          have := h.within.2
          omega
        have hpublished : 0 < r.totalFrames → s.published = some r.totalFrames := by
          obtain hreach | ⟨-, hpublished⟩ | hfew := hend
          · rw [hcurrent, hat] at hlt
            omega
          · exact hpublished
          · rw [List.length_cons] at hfew
            omega
        have hfall := rank_stall (r := r) hrunning
        rw [if_neg hleft]
        exact ⟨s.stall, rfl, ⟨steady_stall h hat hpublished, hback, Nat.le_refl _, fun _ ↦ rfl,
          Nat.le_of_lt hfall⟩, fun _ _ _ ↦ hfall⟩

/-! ## Where a thread parks -/

theorem firstAtOrAfter_of_one (hone : s.core.totalFrames = min 1 r.totalFrames)
    (hreached : target ≤ r.time s.core.totalFrames) : FirstAtOrAfter r target s.core.totalFrames :=
  ⟨by omega, Or.inl hreached, fun g hg hlt ↦ by omega⟩

theorem nearKeyframe_of_landed {k : Nat} (hshort : Short r)
    (hk : Landed r target s.core.totalFrames k) (hreached : target ≤ r.time s.core.totalFrames) :
    NearKeyframe r target s.core.totalFrames := by
  have htime {k' : Nat} (hk' : k' ∈ r.keyframes) : r.time k' = (r.millis k').toNat :=
    (time_eq hshort (r.le_totalFrames k' hk')).1
  have hktime := htime hk.mem
  have hle := hk.le_target
  have htake : k ∈ r.keyframes.takeWhile fun k ↦ decide ((r.millis k).toNat ≤ target.toNat) := by
    refine mem_takeWhile r.sorted (fun a ha ↦ ?_) hk.mem
    have hmillis := UInt64.le_iff_toNat_le.1 (r.mono ha)
    simp only [decide_eq_true_eq]
    omega
  refine ⟨hreached, ?_⟩
  cases hfound : r.replayKeyframeAtOrBeforeMillis target.toNat with
  | none =>
    rw [TimedReplay.replayKeyframeAtOrBeforeMillis, List.getLast?_eq_none_iff] at hfound
    rw [hfound] at htake
    cases htake
  | some last =>
    obtain ⟨hmem, hmillis, hlast⟩ := replayKeyframeAtOrBeforeMillis_spec hfound
    refine ⟨last, hmem, ?_, fun k' hk' hle' ↦ hlast k' hk' ?_, ?_⟩
    · rw [htime hmem]
      omega
    · rw [htime hk'] at hle'
      omega
    · exact Nat.le_trans hk.near (Nat.add_le_add_right (hlast k hk.mem (by omega)) _)

theorem passedBy_of_prev {sync : SyncLoopState} {prev : Int} (h : sync.prevMillis = some prev) :
    PassedBy target sync ↔ target ≤ prev := by
  unfold PassedBy
  rw [h]

theorem passedBy_of_seek {sync : SyncLoopState} (h : sync.prevMillis = none) :
    PassedBy target sync ↔ ∀ t ∈ sync.seekedFor, target < t := by
  unfold PassedBy
  rw [h]

/-- **Where a thread parks** is where it should for its target. -/
theorem position_of_parks (hshort : Short r) (h : Steady r s) (hback : ¬ s.WentBack r target)
    (hdistinct : target = s.current r → s.sync.prevMillis ≠ some target)
    (hthere : target ≤ s.current r ∨ s.core.replayStalled = true) :
    FirstAtOrAfter r target s.core.totalFrames ∨
      s.sync.prevMillis = none ∧ s.sync.seekedFor ≠ none ∧
        NearKeyframe r target s.core.totalFrames := by
  have hcurrent := current_eq (r := r) h.whole
  rw [WentBack, not_and] at hback
  rw [hcurrent] at hback hdistinct hthere
  by_cases hreached : target ≤ r.time s.core.totalFrames
  · cases hprev : s.sync.prevMillis with
    | some prev =>
      -- The frame before has not reached the target, or the thread would have gone back to it.
      obtain ⟨htwo, hbefore⟩ := h.prev prev hprev
      have hstep := time_mono hshort (Nat.sub_le s.core.totalFrames 1) h.within.2
      have hlt : prev < target := by
        by_cases heq : target = r.time s.core.totalFrames
        · have hne : prev ≠ target := fun hsame ↦ hdistinct heq (by rw [hprev, hsame])
          omega
        · have hnot := hback (by omega)
          rw [passedBy_of_prev hprev] at hnot
          exact Int.not_le.1 hnot
      refine Or.inl ⟨h.within, Or.inl hreached, fun g _ hg ↦ ?_⟩
      have hmono := time_mono hshort (f := g) (g := s.core.totalFrames - 1) (by omega) (by
        have := h.within.2
        omega)
      omega
    | none =>
      cases hseeked : s.sync.seekedFor with
      | none => exact Or.inl (firstAtOrAfter_of_one (h.fresh hprev hseeked) hreached)
      | some sought =>
        obtain hone | ⟨k, hk⟩ := h.seeked hprev sought hseeked
        · exact Or.inl (firstAtOrAfter_of_one hone hreached)
        · refine Or.inr ⟨rfl, by simp, nearKeyframe_of_landed (k := k) hshort ?_ hreached⟩
          refine ⟨hk.mem, ?_, hk.le_frame, hk.near⟩
          by_cases heq : target = r.time s.core.totalFrames
          · rw [heq]
            exact time_mono hshort hk.le_frame h.within.2
          · have hnot := hback (by omega)
            rw [passedBy_of_seek hprev, hseeked] at hnot
            have hle : sought ≤ target := by
              by_contra hgt
              exact hnot fun t ht ↦ by
                cases ht
                omega
            exact Int.le_trans hk.le_target hle
  · obtain hreached' | hstalled := hthere
    · exact absurd hreached' hreached
    · have hend := (h.ended hstalled).1
      refine Or.inl ⟨h.within, Or.inr hend, fun g _ hg ↦ ?_⟩
      have hmono := time_mono hshort (Nat.le_of_lt hg) h.within.2
      omega

/-! ## What a pass does -/

/-- What a pass with a target can do. -/
inductive PassOutcome (r : TimedReplay) (input : PassInput) (target : Int) (s : SyncedThread) :
    PassKind → SyncedThread → Prop
  | parked {s' : SyncedThread} (hcore : s'.core = s.core) (hsync : s'.sync = s.sync)
    (hstays : ¬ Seeks r target s) (hthere : target ≤ s.current r ∨ s.core.replayStalled = true)
    (hsettled : Settled r target s') : PassOutcome r input target s .parked s'
  | seeked {s' : SyncedThread} (hseeks : Seeks r target s) (hstays : ¬ Seeks r target s') :
    PassOutcome r input target s .seeked s'
  | ran {s' : SyncedThread} (hstays : ¬ Seeks r target s) (hstays' : ¬ Seeks r target s')
    (hthere : ¬ (target ≤ s.current r ∨ s.core.replayStalled = true))
    (hle : rank r s' ≤ rank r s) (hlt : input.turns ≠ [] → rank r s' < rank r s) :
    PassOutcome r input target s .ran s'

theorem wentBack_congr (hcore : s'.core = s.core) (hsync : s'.sync = s.sync) :
    s'.WentBack r target ↔ s.WentBack r target := by
  rw [WentBack, WentBack, current, current, hcore, hsync]

theorem seeks_congr (hcore : s'.core = s.core) (hsync : s'.sync = s.sync) :
    Seeks r target s' ↔ Seeks r target s := by
  rw [Seeks, Seeks, wentBack_congr hcore hsync, JumpAhead, JumpAhead, current, current, hcore]

/-- A replay that is on its way does not come to a jump ahead. -/
theorem not_seeks_of_ran (hshort : Short r) (h : Steady r s) (hran : Ran r target s s')
    (hstays : ¬ Seeks r target s) : ¬ Seeks r target s' := by
  have hcurrent := current_eq (r := r) h.whole
  have hcurrent' := current_eq (r := r) hran.steady.whole
  have hmono := time_mono hshort hran.forward hran.steady.within.2
  rintro (hback | ⟨hahead, hrunning, k, hk, hskip⟩)
  · exact hran.notBack hback
  · refine hstays (Or.inr ⟨by omega, ?_, k, hk, ?_⟩)
    · rw [← Bool.not_eq_true]
      intro hstalled
      rw [hran.stalled hstalled] at hrunning
      cases hrunning
    · exact Nat.lt_of_le_of_lt (saturatingAdd_mono hran.forward) hskip

theorem fits_of_get {t : ReplaySyncTarget} (h : t.get = some target) :
    -2 ^ 63 ≤ target ∧ target < 2 ^ 63 := by
  rw [ReplaySyncTarget.get] at h
  split_ifs at h
  cases h
  exact t.fits

/-- **One pass** that meets its conditions does not overflow, and keeps what every pass keeps. -/
theorem pass_spec (drawsAll : Bool) (hshort : Short r) (h : Steady r s)
    (hmeets : PassMeets r input s) :
    ∃ kind s', s.pass r drawsAll input = some (kind, s') ∧ Steady r s' ∧
      ∀ target ∈ input.target.get, PassOutcome r input target s kind s' := by
  obtain ⟨hsteady, hcore, hsync, hshown⟩ := refreshScreenData_spec input.running h
  rw [SyncedThread.pass, runOneSynced]
  generalize s.refreshScreenData input.running = shown at hsteady hcore hsync hshown ⊢
  cases hget : input.target.get with
  | none => exact ⟨.parked, shown, rfl, hsteady, fun _ htarget ↦ (nomatch htarget)⟩
  | some target =>
    have hnow : shown.current r = s.current r := by rw [current, current, hcore]
    have hcurrent := current_eq (r := r) hsteady.whole
    have hbounds := time_eq hshort hsteady.within.2
    have hfits := fits_of_get hget
    have hseek (hseeks : Seeks r target s) : Steady r (shown.seekSynced r target) ∧
        ¬ Seeks r target (shown.seekSynced r target) :=
      seekSynced_spec hshort hsteady (hmeets.keyframe target hget hseeks)
    dsimp only
    by_cases hback : shown.WentBack r target
    · have hseeks : Seeks r target s := Or.inl ((wentBack_congr hcore hsync).1 hback)
      rw [if_pos hback]
      refine ⟨.seeked, _, rfl, (hseek hseeks).1, fun t ht ↦ ?_⟩
      cases ht
      exact .seeked hseeks (hseek hseeks).2
    · have hback' : ¬ s.WentBack r target := fun hwent ↦
        hback ((wentBack_congr hcore hsync).2 hwent)
      have hrange := hmeets.inRange target hget hback'
      have hchecked := checkedI64_eq (x := target - shown.current r) (by
        rw [hnow]
        omega)
      rw [if_neg hback, hchecked]
      dsimp only [bind, Option.bind]
      by_cases hjump : shown.JumpAhead r target (target - shown.current r)
      · have hseeks : Seeks r target s := (seeks_congr hcore hsync).1 (Or.inr hjump)
        rw [if_pos hjump]
        refine ⟨.seeked, _, rfl, (hseek hseeks).1, fun t ht ↦ ?_⟩
        cases ht
        exact .seeked hseeks (hseek hseeks).2
      · have hstays' : ¬ Seeks r target shown := fun hseeks ↦ hseeks.elim hback hjump
        have hstays : ¬ Seeks r target s := fun hseeks ↦
          hstays' ((seeks_congr hcore hsync).2 hseeks)
        rw [if_neg hjump]
        by_cases hthere : target ≤ shown.current r ∨ shown.core.replayStalled = true
        · rw [if_pos hthere]
          refine ⟨.parked, shown, rfl, hsteady, fun t ht ↦ ?_⟩
          cases ht
          rw [hnow, hcore] at hthere
          refine .parked hcore hsync hstays hthere
            ⟨position_of_parks hshort hsteady hback ?_ ?_, ?_⟩
          · rw [hnow, hsync]
            exact hmeets.distinct target hget
          · rw [hnow, hcore]
            exact hthere
          · intro hframes
            cases hstalled : s.core.replayStalled with
            | true =>
              have hended := hsteady.ended (by rw [hcore, hstalled])
              rw [hended.1]
              exact hended.2.2 hframes
            | false =>
              rw [hstalled] at hthere
              have hreached := hthere.resolve_right Bool.false_ne_true
              rw [hcore]
              exact hshown hframes
                (hmeets.drawn target hget hback' hstalled (Or.inl hreached) hframes)
        · rw [if_neg hthere]
          have hrunning : s.core.replayStalled = false := by
            rw [not_or, Bool.not_eq_true, hcore] at hthere
            exact hthere.2
          have hend : target ≤ r.time r.totalFrames ∨
              shown.core.totalFrames = r.totalFrames ∧
                (0 < r.totalFrames → shown.published = some r.totalFrames) ∨
              shown.core.totalFrames + input.turns.length ≤ r.totalFrames := by
            rw [hcore]
            obtain hreach | hall | hfew := hmeets.stopsAtEnd target hget
            · exact Or.inl hreach
            · refine Or.inr (Or.inl ⟨hall, fun hframes ↦ ?_⟩)
              rw [← hall]
              exact hshown hframes
                (hmeets.drawn target hget hback' hrunning (Or.inr hall) hframes)
            · exact Or.inr (Or.inr hfew)
          obtain ⟨s', hs', hran, hlt⟩ := runTurns_spec drawsAll hshort hsteady hback
            hmeets.uncut hend
          have hrank : rank r shown = rank r s := by rw [rank, rank, hcore]
          rw [hs']
          refine ⟨.ran, s', rfl, hran.steady, fun t ht ↦ ?_⟩
          cases ht
          refine .ran hstays (not_seeks_of_ran hshort hsteady hran hstays') ?_ ?_ fun hne ↦ ?_
          · rw [← hnow, ← hcore]
            exact hthere
          · rw [← hrank]
            exact hran.rank_le
          · rw [← hrank]
            rw [not_or, Int.not_le, Bool.not_eq_true] at hthere
            exact hlt hne hthere.1 hthere.2

/-! ## Whole runs -/

namespace PassOutcome

variable {kind : PassKind}

/-- No seek comes after a pass for the same target. -/
theorem not_seeks (h : PassOutcome r input target s kind s') : ¬ Seeks r target s' := by
  cases h with
  | parked hcore hsync hstays => exact fun hseeks ↦ hstays ((seeks_congr hcore hsync).1 hseeks)
  | seeked _ hstays => exact hstays
  | ran _ hstays' => exact hstays'

/-- A pass that neither parks nor seeks gets the replay on its way. -/
theorem rank_le (h : PassOutcome r input target s kind s') (hstays : ¬ Seeks r target s)
    (hparked : kind ≠ .parked) :
    rank r s' ≤ rank r s ∧ (input.turns ≠ [] → rank r s' < rank r s) := by
  cases h with
  | parked => exact absurd rfl hparked
  | seeked hseeks => exact absurd hseeks hstays
  | ran _ _ _ hle hlt => exact ⟨hle, hlt⟩

/-- A thread that has parked is parked from then on. -/
theorem parks_again {input' : PassInput} {s'' : SyncedThread}
    (h : PassOutcome r input target s .parked s')
    (h' : PassOutcome r input' target s' kind s'') : kind = .parked := by
  cases h with
  | parked hcore hsync hstays hthere =>
    cases h' with
    | parked => rfl
    | seeked hseeks => exact absurd ((seeks_congr hcore hsync).1 hseeks) hstays
    | ran _ _ hthere' =>
      rw [current, hcore] at hthere'
      exact absurd hthere hthere'

end PassOutcome

theorem pairwise_start : ([0] : List Nat).Pairwise (· < ·) := List.pairwise_singleton _ _

theorem mem_start : 0 ∈ ([0] : List Nat) := List.mem_singleton_self 0

/-- A replay of two frames, of 16 milliseconds each. -/
def twoFrames : TimedReplay where
  totalFrames := 2
  keyframes := [0]
  totalFrames_lt := by decide
  sorted := pairwise_start
  zero_mem := mem_start
  le_totalFrames := by decide
  millis frame := if frame = 0 then 0 else if frame = 1 then 16 else 32
  mono := by
    intro f g hfg
    split_ifs <;> first | decide | omega

/-- A pass that has time for two frames. -/
def twoTurns (target : Int) (fits : -2 ^ 63 ≤ target ∧ target < 2 ^ 63) : PassInput :=
  ⟨.set target fits, true, [.frame true, .frame true]⟩

/-- A state that a pass keeps is kept from then on. -/
theorem passes_add {inputs : Nat → PassInput} {start : SyncedThread} {n : Nat}
    (hn : passes r drawsAll inputs start n = some s)
    (hkept : ∀ i, (s.pass r drawsAll (inputs i)).map Prod.snd = some s) (d : Nat) :
    passes r drawsAll inputs start (n + d) = some s := by
  induction d with
  | zero => exact hn
  | succ d ih => rw [← Nat.add_assoc, passes, ih, Option.bind_some, hkept]

end CoreThread

end SuperShuckie
