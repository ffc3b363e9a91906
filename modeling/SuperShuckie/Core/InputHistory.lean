import SuperShuckie.Lib.Runs
import SuperShuckie.Core.Input

/-!
# The input that each frame gets

An input history is what was asked for, and when frames began.  `InputHistory.inputAt` reads off it
the input that a frame is to get: what was enqueued last, what is toggled, what an external program
holds, the presses that have frames left, and rapid fire by its phase.

The layers of a live core follow the history (`Tracks`): between frames they add up to the input of
the next one, and in the middle of a frame they keep apart what was asked for since it began.
-/

set_option autoImplicit false

namespace SuperShuckie

open ByteFormat

/-- What can be asked of the input of a live core. -/
inductive InputCall where
  | enqueueInput (input : Input)
  | setRapidFireInput (input : Option RapidFire)
  | setToggledInput (input : Option Input)
  | setBotInput (input : Option Input)
  | pressForFrames (input : Input) (frames : ℕ+)

def InputCall.apply (midFrame : Bool) : InputCall → InputLayers → InputLayers
  | enqueueInput input => .enqueueInput input
  | setRapidFireInput input => .setRapidFireInput midFrame input
  | setToggledInput input => .setToggledInput input
  | setBotInput input => .setBotInput input
  | pressForFrames input frames => .pressForFrames input frames

/-! ## Histories -/

/-- Something asked for, or the beginning of a frame. -/
inductive InputMark where
  | call (call : InputCall)
  | frame

/-- What happened so far, the latest first. -/
abbrev InputHistory := List InputMark

namespace InputHistory

/-- The last input enqueued. -/
def enqueued : InputHistory → Input
  | [] => {}
  | .call (.enqueueInput input) :: _ => input
  | _ :: h => enqueued h

/-- The toggled input set last. -/
def toggled : InputHistory → Option Input
  | [] => none
  | .call (.setToggledInput input) :: _ => input
  | _ :: h => toggled h

/-- What an external program was last said to hold, if it is anything. -/
def bot : InputHistory → Option Input
  | [] => none
  | .call (.setBotInput input) :: _ => input.filter (!·.isEmpty)
  | _ :: h => bot h

/-- What is counted from when rapid fire is set: frames go on being counted unless it is retimed. -/
def resetFrames (input : RapidFire) : Option (RapidFire × Nat) → RapidFire × Nat
  | some (old, frames) =>
    if input.holdLength = old.holdLength ∧ input.interval = old.interval then (input, frames)
    else (input, 0)
  | none => (input, 0)

/-- The rapid fire input set last, and the frames begun since it was set or retimed. -/
def rapid : InputHistory → Option (RapidFire × Nat)
  | [] => none
  | .frame :: h => (rapid h).map fun (rf, frames) ↦ (rf, frames + 1)
  | .call (.setRapidFireInput input) :: h =>
    input.map fun input ↦ resetFrames input (rapid h)
  | .call _ :: h => rapid h

/-- The presses made before `frames` frames began that are held for more frames than that, and for
how many more. -/
def presses : Nat → InputHistory → List TimedPress
  | _, [] => []
  | frames, .frame :: h => presses (frames + 1) h
  | frames, .call (.pressForFrames input held) :: h =>
    presses frames h ++ if frames < held then [⟨input, held - frames⟩] else []
  | frames, .call _ :: h => presses frames h

/-- **The input of a frame that begins now.** -/
def inputAt (h : InputHistory) : Input :=
  (enqueued h).union
    ((((rapid h).filter fun (rf, frames) ↦ decide (frames % rf.cycle < rf.holdLength)).map
        (·.1.input)).toList ++ (toggled h).toList ++ (bot h).toList ++ (presses 0 h).map (·.input))

variable {h : InputHistory} {calls : List InputCall} {frames : Nat}

/-- What was asked for since a frame began. -/
def since (calls : List InputCall) : InputHistory := calls.map .call

theorem presses_since_append (frames : Nat) (calls : List InputCall) (h : InputHistory) :
    presses frames (since calls ++ h) = presses frames h ++ presses frames (since calls) := by
  induction calls with
  | nil => exact (List.append_nil _).symm
  | cons call calls ih =>
    cases call with
    | pressForFrames input held =>
      simp only [since, List.map_cons, List.cons_append, presses] at ih ⊢
      rw [ih, List.append_assoc]
    | _ => exact ih

/-- When a frame has run, each press has one frame less, and those without any are released. -/
theorem presses_succ (frames : Nat) (h : InputHistory) :
    presses (frames + 1) h = ((presses frames h).map fun press ↦
      { press with framesLeft := press.framesLeft - 1 }).filter (0 < ·.framesLeft) := by
  induction h generalizing frames with
  | nil => rfl
  | cons mark h ih =>
    cases mark with
    | frame => exact ih (frames + 1)
    | call call =>
      cases call with
      | pressForFrames input held =>
        rw [presses, presses, List.map_append, List.filter_append, ← ih]
        refine congrArg (_ ++ ·) ?_
        by_cases hlast : frames + 1 < held
        · have hnow : frames < held := by omega
          have hleft : 0 < (held : Nat) - frames - 1 := by omega
          rw [if_pos hlast, if_pos hnow, List.map_singleton, List.filter_singleton]
          dsimp only
          rw [decide_eq_true hleft, cond_true, Nat.sub_sub]
        · rw [if_neg hlast]
          split_ifs with hnow
          · have hleft : (held : Nat) - frames - 1 = 0 := by omega
            rw [List.map_singleton, List.filter_singleton]
            simp only [hleft, Nat.lt_irrefl, decide_false, cond_false]
          · rfl
      | _ => exact ih frames

end InputHistory

/-! ## Layers follow the history -/

open InputHistory

theorem RapidFire.two_le_cycle (rf : RapidFire) : 2 ≤ rf.cycle := by
  have hhold := rf.holdLength.pos
  have hinterval := rf.interval.pos
  rw [cycle]
  omega

/-- Rapid fire is in the phase that its frames put it in: the frame under way is not counted. -/
structure InPhase (midFrame : Bool) (rf : RapidFire) (set : RapidFire × Nat) : Prop where
  input_eq : rf.input = set.1.input
  holdLength_eq : rf.holdLength = set.1.holdLength
  interval_eq : rf.interval = set.1.interval
  totalFrames_eq : rf.totalFrames = set.1.cycle
  currentFrame_eq : rf.currentFrame =
    (if midFrame then set.2 + set.1.cycle - 1 else set.2) % set.1.cycle

section Phases

variable {midFrame : Bool} {rf : Option RapidFire} {set : Option (RapidFire × Nat)}

theorem inPhase_set {layers : InputLayers}
    (h : Option.Rel (InPhase midFrame) layers.rapidFireInput set) (input : RapidFire) :
    Option.Rel (InPhase midFrame) (layers.setRapidFireInput midFrame (some input)).rapidFireInput
      (some (resetFrames input set)) := by
  have htwo := input.two_le_cycle
  have hreset : (if midFrame then input.cycle - 1 else 0) =
      (if midFrame then 0 + input.cycle - 1 else 0) % input.cycle := by
    cases midFrame with
    | true =>
      simp only [if_true, Nat.zero_add]
      exact (Nat.mod_eq_of_lt (by omega)).symm
    | false => exact (Nat.zero_mod _).symm
  refine .some ?_
  cases hlayers : layers.rapidFireInput with
  | none =>
    rw [hlayers] at h
    cases h
    exact ⟨rfl, rfl, rfl, rfl, hreset⟩
  | some old =>
    rw [hlayers] at h
    obtain ⟨h⟩ := h
    rename_i set
    rw [resetFrames]
    dsimp only
    rw [h.holdLength_eq, h.interval_eq]
    by_cases hsame : input.holdLength = set.1.holdLength ∧ input.interval = set.1.interval
    · rw [if_pos hsame, if_pos hsame]
      have hcycle : input.cycle = set.1.cycle := by
        rw [RapidFire.cycle, hsame.1, hsame.2]
        rfl
      refine ⟨rfl, rfl, rfl, rfl, ?_⟩
      rw [hcycle]
      exact h.currentFrame_eq
    · rw [if_neg hsame, if_neg hsame]
      exact ⟨rfl, rfl, rfl, rfl, hreset⟩

/-- The buttons are down in the first frames of the cycle. -/
theorem inPhase_held (h : Option.Rel (InPhase false) rf set) :
    (rf.filter fun rf ↦ rf.currentFrame < rf.holdLength).map (·.input) =
      (set.filter fun (rf, frames) ↦ decide (frames % rf.cycle < rf.holdLength)).map
        (·.1.input) := by
  cases h with
  | none => rfl
  | some h =>
    rw [Option.filter_some, Option.filter_some, h.currentFrame_eq, h.holdLength_eq]
    simp only [Bool.false_eq_true, if_false]
    split_ifs
    · exact congrArg some h.input_eq
    · rfl

/-- The frame that begins is counted, and is under way. -/
theorem inPhase_begin (h : Option.Rel (InPhase false) rf set) :
    Option.Rel (InPhase true) rf (set.map fun (rf, frames) ↦ (rf, frames + 1)) := by
  cases h with
  | none => exact .none
  | some h =>
    refine .some ⟨h.input_eq, h.holdLength_eq, h.interval_eq, h.totalFrames_eq, ?_⟩
    rename_i rf set
    have hone : set.2 + 1 + set.1.cycle - 1 = set.2 + set.1.cycle := by omega
    simp only [if_true, hone, Nat.add_mod_right]
    exact h.currentFrame_eq

/-- A completed frame moves rapid fire on. -/
theorem inPhase_complete (h : Option.Rel (InPhase true) rf set) :
    Option.Rel (InPhase false) (rf.map fun rf ↦
      { rf with currentFrame := (rf.currentFrame + 1 % rf.totalFrames) % rf.totalFrames }) set := by
  cases h with
  | none => exact .none
  | some h =>
    refine .some ⟨h.input_eq, h.holdLength_eq, h.interval_eq, h.totalFrames_eq, ?_⟩
    rename_i rf set
    have htwo := set.1.two_le_cycle
    have hone : set.2 + set.1.cycle - 1 + 1 = set.2 + set.1.cycle := by omega
    have hmod : 1 % set.1.cycle = 1 := Nat.mod_eq_of_lt (by omega)
    have hcurrent := h.currentFrame_eq
    simp only [if_true] at hcurrent
    simp only [h.totalFrames_eq, hcurrent, hmod, Nat.mod_add_mod, hone, Nat.add_mod_right,
      Bool.false_eq_true, if_false]

end Phases

/-- **The layers of a core follow a history.**  In the middle of a frame, which began with the
history `before`, the presses made since then are pending and the others active. -/
structure Tracks (h before : InputHistory) (midFrame : Bool) (layers : InputLayers) : Prop where
  enqueued_eq : layers.nextInput.getD layers.baseInput = enqueued h
  toggled_eq : layers.toggledInput = toggled h
  bot_eq : layers.botInput = bot h
  rapid : Option.Rel (InPhase midFrame) layers.rapidFireInput (rapid h)
  boundary : midFrame = false → layers.timedPresses ++ layers.pendingTimedPresses = presses 0 h
  underWay : midFrame = true → ∃ calls, h = since calls ++ .frame :: before ∧
    layers.timedPresses = presses 0 before ∧ layers.pendingTimedPresses = presses 0 (since calls)

section Tracks

variable {h before : InputHistory} {midFrame : Bool} {layers : InputLayers} {call : InputCall}

theorem tracks_new : Tracks [] [] false {} :=
  ⟨rfl, rfl, rfl, .none, fun _ ↦ rfl, fun h ↦ nomatch h⟩

/-- **Whatever is asked for is followed.** -/
theorem Tracks.apply (ht : Tracks h before midFrame layers) :
    Tracks (.call call :: h) before midFrame (call.apply midFrame layers) := by
  have hsince : midFrame = true → ∃ calls, .call call :: h = since calls ++ .frame :: before := by
    intro hmid
    obtain ⟨calls, rfl, -⟩ := ht.underWay hmid
    exact ⟨call :: calls, rfl⟩
  -- A call that is not a press leaves both lists of presses alone.
  have hsame (hnot : ∀ input frames, call ≠ .pressForFrames input frames) :
      midFrame = true → ∃ calls, .call call :: h = since calls ++ .frame :: before ∧
        layers.timedPresses = presses 0 before ∧
        layers.pendingTimedPresses = presses 0 (since calls) := by
    intro hmid
    obtain ⟨calls, rfl, htimed, hpending⟩ := ht.underWay hmid
    refine ⟨call :: calls, rfl, htimed, ?_⟩
    rw [hpending]
    cases call with
    | pressForFrames input frames => exact absurd rfl (hnot input frames)
    | _ => rfl
  cases call with
  | enqueueInput input =>
    exact ⟨rfl, ht.toggled_eq, ht.bot_eq, ht.rapid, ht.boundary, hsame fun _ _ h ↦ nomatch h⟩
  | setRapidFireInput input =>
    cases input with
    | none =>
      exact ⟨ht.enqueued_eq, ht.toggled_eq, ht.bot_eq, .none, ht.boundary,
        hsame fun _ _ h ↦ nomatch h⟩
    | some input =>
      exact ⟨ht.enqueued_eq, ht.toggled_eq, ht.bot_eq, inPhase_set ht.rapid input, ht.boundary,
        hsame fun _ _ h ↦ nomatch h⟩
  | setToggledInput input =>
    exact ⟨ht.enqueued_eq, rfl, ht.bot_eq, ht.rapid, ht.boundary, hsame fun _ _ h ↦ nomatch h⟩
  | setBotInput input =>
    exact ⟨ht.enqueued_eq, ht.toggled_eq, rfl, ht.rapid, ht.boundary, hsame fun _ _ h ↦ nomatch h⟩
  | pressForFrames input frames =>
    refine ⟨ht.enqueued_eq, ht.toggled_eq, ht.bot_eq, ht.rapid, fun hboundary ↦ ?_, fun hmid ↦ ?_⟩
    · show layers.timedPresses ++ (layers.pendingTimedPresses ++ [⟨input, frames⟩]) = _
      rw [← List.append_assoc, ht.boundary hboundary, presses, if_pos frames.pos]
      rfl
    · obtain ⟨calls, rfl, htimed, hpending⟩ := ht.underWay hmid
      refine ⟨.pressForFrames input frames :: calls, rfl, htimed, ?_⟩
      show layers.pendingTimedPresses ++ [⟨input, frames⟩] =
        presses 0 (since calls) ++ if 0 < (frames : Nat) then [⟨input, frames - 0⟩] else []
      rw [hpending, if_pos frames.pos]
      rfl

/-- **Between frames the layers add up to the input of the next one**, and all presses become
active. -/
theorem Tracks.compute (ht : Tracks h before false layers) :
    layers.computePendingInput.1 = inputAt h ∧
      Tracks h before false layers.computePendingInput.2 := by
  refine ⟨?_, ?_⟩
  · rw [InputLayers.computePendingInput, inputAt, ← ht.enqueued_eq, ← ht.toggled_eq, ← ht.bot_eq,
      ← ht.boundary rfl, ← inPhase_held ht.rapid]
  · refine ⟨ht.enqueued_eq, ht.toggled_eq, ht.bot_eq, ht.rapid, fun _ ↦ ?_, fun h ↦ nomatch h⟩
    exact (List.append_nil _).trans (ht.boundary rfl)

/-- A frame begins once all presses are active. -/
theorem Tracks.begin (ht : Tracks h before false layers)
    (hpending : layers.pendingTimedPresses = []) : Tracks (.frame :: h) h true layers := by
  have hboundary := ht.boundary rfl
  rw [hpending, List.append_nil] at hboundary
  exact ⟨ht.enqueued_eq, ht.toggled_eq, ht.bot_eq, inPhase_begin ht.rapid, fun h ↦ (nomatch h),
    fun _ ↦ ⟨[], rfl, hboundary, hpending⟩⟩

/-- **A frame completes**: its presses have one frame less, and rapid fire moves on. -/
theorem Tracks.complete (ht : Tracks h before true layers) :
    Tracks h before false (layers.framesCompleted 1) := by
  refine ⟨ht.enqueued_eq, ht.toggled_eq, ht.bot_eq, inPhase_complete ht.rapid, fun _ ↦ ?_,
    fun h ↦ nomatch h⟩
  obtain ⟨calls, rfl, htimed, hpending⟩ := ht.underWay rfl
  rw [presses_since_append, presses, presses_succ, ← htimed, ← hpending]
  rfl

end Tracks

end SuperShuckie
