import Mathlib

/-!
# Where a core stands in a replay

To the thread that drives it, a core that plays a replay file is a number of frames that have been
run, and what its screens show.  The file is one that can be read: every frame of it can be run, and
every keyframe loaded.  Running past the last frame stalls the core, without running the console.

A seek loads a keyframe that is far enough before its target, which draws nothing, and runs the
frames in between, of which the last is drawn.  The frame it ends on is the target, within the
replay and at least 1 (`goToReplayFrame_spec`).
-/

set_option autoImplicit false

namespace SuperShuckie

namespace CoreThread

/-- `a.saturating_add(b)`. -/
def saturatingAdd (a b : Nat) : Nat := min (a + b) (2 ^ 64 - 1)

theorem saturatingAdd_mono {a a' b : Nat} (h : a ≤ a') : saturatingAdd a b ≤ saturatingAdd a' b :=
  Nat.le_min.2 ⟨Nat.le_trans (Nat.min_le_left _ _) (Nat.add_le_add_right h b), Nat.min_le_right _ _⟩

/-- A replay file that can be read, as the thread that plays it sees it: its frames, and the frames
of its keyframes in order. -/
structure SeekableReplay where
  totalFrames : Nat
  keyframes : List Nat
  totalFrames_lt : totalFrames < 2 ^ 64
  sorted : keyframes.Pairwise (· < ·)
  zero_mem : 0 ∈ keyframes
  le_totalFrames : ∀ k ∈ keyframes, k ≤ totalFrames

/-- What a thread sees of its core. -/
structure PlayedCore where
  totalFrames : Nat
  replayStalled : Bool
  /-- The next frame has begun: its packets have been read. -/
  replayFramePending : Bool
  /-- The frame whose picture the screens hold, if it is known. -/
  screens : Option Nat
  /-- Whether the last run drew its frame. -/
  lastFramePresented : Bool
  /-- A counter of the runs. -/
  runSerial : Nat
deriving DecidableEq

/-- Fewest frames that are run between the keyframe of a seek and its target. -/
def postLoadFrames : Nat := 3

/-- Frame of the last keyframe at or before a frame. -/
def SeekableReplay.keyframeAtOrBefore (r : SeekableReplay) (frame : Nat) : Option Nat :=
  (r.keyframes.filter (· ≤ frame)).getLast?

/-- The last of some numbers in order is the largest. -/
theorem le_getLast {numbers : List Nat} {last n : Nat} (h : numbers.Pairwise (· < ·))
    (hlast : numbers.getLast? = some last) (hn : n ∈ numbers) : n ≤ last := by
  obtain ⟨before, rfl⟩ := List.getLast?_eq_some_iff.1 hlast
  obtain hn | hn := List.mem_append.1 hn
  · exact Nat.le_of_lt ((List.pairwise_append.1 h).2.2 n hn last (List.mem_singleton_self _))
  · exact Nat.le_of_eq (List.mem_singleton.1 hn)

/-- All numbers in order that pass a test are taken, if smaller ones pass it too. -/
theorem mem_takeWhile {p : Nat → Bool} {numbers : List Nat} {n : Nat}
    (h : numbers.Pairwise (· < ·)) (hp : ∀ a ≤ n, p a = true) (hn : n ∈ numbers) :
    n ∈ numbers.takeWhile p := by
  induction numbers with
  | nil => cases hn
  | cons first rest ih =>
    rw [List.pairwise_cons] at h
    obtain rfl | hn := List.mem_cons.1 hn
    · rw [List.takeWhile_cons_of_pos (hp _ (Nat.le_refl _))]
      exact List.mem_cons_self
    · rw [List.takeWhile_cons_of_pos (hp _ (Nat.le_of_lt (h.1 n hn)))]
      exact List.mem_cons_of_mem _ (ih h.2 hn)

namespace PlayedCore

variable (r : SeekableReplay)

/-- A core that a replay has been attached to, which runs its first frame. -/
def attached : PlayedCore where
  totalFrames := min 1 r.totalFrames
  replayStalled := false
  replayFramePending := false
  screens := if 0 < r.totalFrames then some 1 else none
  lastFramePresented := decide (0 < r.totalFrames)
  runSerial := 1

/-- Load the last keyframe at or before a frame.  Nothing is drawn. -/
def loadReplayKeyframeAtOrBefore (frame : Nat) (c : PlayedCore) : PlayedCore :=
  { c with
    totalFrames := (r.keyframeAtOrBefore frame).getD 0
    replayStalled := false
    replayFramePending := false
    screens := none }

/-- Run the frames up to the one after `desired`, which is there, and draw that one. -/
def runReplayTo (desired : Nat) (c : PlayedCore) : PlayedCore :=
  if c.totalFrames ≤ desired then
    { c with
      totalFrames := desired + 1
      replayFramePending := false
      screens := some (desired + 1)
      lastFramePresented := true
      runSerial := c.runSerial + 1 }
  else c

/-- `seek_in_replay`.  Seeking again for the sake of the picture ends on the same frame. -/
def seekInReplay (frame desired : Nat) (c : PlayedCore) : PlayedCore :=
  let desired := min desired (r.totalFrames - 1)
  if r.totalFrames ≤ desired then c
  else (c.loadReplayKeyframeAtOrBefore r frame).runReplayTo desired

/-- Seek to a frame. -/
def goToReplayFrame (frame : Nat) (c : PlayedCore) : PlayedCore :=
  c.seekInReplay r (frame - postLoadFrames) (frame - 1)

/-! ## Where a seek ends -/

variable {r} {frame : Nat} {c : PlayedCore}

/-- There is a keyframe at or before every frame. -/
theorem exists_keyframeAtOrBefore (r : SeekableReplay) (frame : Nat) :
    ∃ k ∈ r.keyframes, r.keyframeAtOrBefore frame = some k ∧ k ≤ frame := by
  have hzero : 0 ∈ r.keyframes.filter (· ≤ frame) := List.mem_filter.2 ⟨r.zero_mem, by simp⟩
  have hne := List.ne_nil_of_mem hzero
  have hlast := List.mem_filter.1 (List.getLast_mem hne)
  exact ⟨_, hlast.1, List.getLast?_eq_some_getLast hne, by simpa using hlast.2⟩

/-- **A seek** ends on its target, within the replay and at least 1, and has run a frame to get
there unless its keyframe is the end of the replay. -/
theorem goToReplayFrame_spec (hframes : 0 < r.totalFrames) :
    (c.goToReplayFrame r frame).totalFrames = max 1 (min frame r.totalFrames) ∧
      (c.goToReplayFrame r frame).replayStalled = false ∧
      (c.goToReplayFrame r frame).replayFramePending = false ∧
      ((r.keyframeAtOrBefore (frame - postLoadFrames)).getD 0 < r.totalFrames →
        (c.goToReplayFrame r frame).screens = some (c.goToReplayFrame r frame).totalFrames ∧
        (c.goToReplayFrame r frame).lastFramePresented = true) := by
  obtain ⟨k, hmem, hk, hle⟩ := exists_keyframeAtOrBefore r (frame - postLoadFrames)
  have hktotal := r.le_totalFrames k hmem
  have hthree : postLoadFrames = 3 := rfl
  have hwithin : ¬ r.totalFrames ≤ min (frame - 1) (r.totalFrames - 1) := by omega
  rw [goToReplayFrame, seekInReplay, if_neg hwithin, loadReplayKeyframeAtOrBefore, hk,
    Option.getD_some, runReplayTo]
  dsimp only
  split_ifs with hrun
  · refine ⟨?_, rfl, rfl, fun _ ↦ ⟨rfl, rfl⟩⟩
    dsimp only
    omega
  · refine ⟨?_, rfl, rfl, fun hlt ↦ ?_⟩
    · dsimp only
      omega
    · omega

/-- Nothing can be sought in a replay without frames. -/
theorem goToReplayFrame_of_empty (hframes : r.totalFrames = 0) : c.goToReplayFrame r frame = c := by
  rw [goToReplayFrame, seekInReplay, hframes, if_pos (Nat.zero_le _)]

end PlayedCore

end CoreThread

end SuperShuckie
