import SuperShuckie.Lockstep.Machine

/-!
# The course of a pair

Given the events of the link frames of both consoles, a pair of consoles can go on in one way only
(`nextMove`).  So two machines that follow the same events do the same things in the same order, as
far as both have come (`Follows.prefix_of_le`), and a hash that is taken when the first console is
about to begin a frame depends on that frame alone (`Hashed.unique`).
-/

set_option autoImplicit false

namespace SuperShuckie

namespace Lockstep

open ByteFormat

/-- The events of the link frames of both consoles. -/
abbrev Streams : Type := Side → List (List Packet)

/-- More events are known. -/
def Extends (streams streams' : Streams) : Prop := ∀ side, streams side <+: streams' side

theorem Extends.refl (streams : Streams) : Extends streams streams := fun _ ↦ List.prefix_rfl

theorem Extends.getElem? {streams streams' : Streams} (h : Extends streams streams') {side : Side}
    {n : Nat} {events : List Packet} (hn : (streams side)[n]? = some events) :
    (streams' side)[n]? = some events := by
  obtain ⟨tail, htail⟩ := h side
  have hlt := (List.getElem?_eq_some_iff.1 hn).1
  rw [← htail, List.getElem?_append_left hlt, hn]

variable {C : Type} (E : LinkedCore C)

/-- Whose turn it is. -/
def turnOf (seats : Side → Seat C) : Option Side :=
  match E.secondRunsNext (seats .first).core (seats .second).core with
  | .error _ => none
  | .ok secondRuns => some (if secondRuns then .second else .first)

/-- A console is at a frame boundary whose events have not been applied. -/
def Unprepared (seats : Side → Seat C) (side : Side) : Bool :=
  !E.isMidFrame (seats side).core && !(seats side).prepared

/-- The seats after a console's events have been applied. -/
def prepared (side : Side) (events : List Packet) (seats : Side → Seat C) : Side → Seat C :=
  Function.update seats side
    { seats side with core := events.foldl E.applyScheduled (seats side).core, prepared := true }

/-- The seats after a step of a console. -/
def stepped (side : Side) (frames : Nat) (core other : C) (seats : Side → Seat C) : Side → Seat C :=
  Function.update (Function.update seats side.other { seats side.other with core := other }) side
    { core
      frame    := (seats side).frame + frames
      prepared := if frames = 0 then (seats side).prepared else false }

/-- What a pair does next. -/
def nextMove (streams : Streams) (seats : Side → Seat C) : Option (Move × (Side → Seat C)) :=
  match turnOf E seats with
  | none => none
  | some side =>
    if Unprepared E seats side then
      match (streams side)[(seats side).frame]? with
      | none => none
      | some events => some (.prepare side (seats side).frame events, prepared E side events seats)
    else
      match E.stepLinked (seats side).core (seats side.other).core with
      | .error _ => none
      | .ok (frames, core, other) => some (.step side frames, stepped side frames core other seats)

/-- A pair has made some moves. -/
inductive Follows (streams : Streams) (start : Side → Seat C) :
    List Move → (Side → Seat C) → Prop
  | start : Follows streams start [] start
  | move {moves : List Move} {move : Move} {seats seats' : Side → Seat C} :
    Follows streams start moves seats → nextMove E streams seats = some (move, seats') →
    Follows streams start (moves ++ [move]) seats'

variable {E} {streams streams' : Streams} {start seats seats' : Side → Seat C}
  {moves moves' : List Move}

/-- Knowing more events does not change what has been done. -/
theorem Follows.mono (hle : Extends streams streams') (h : Follows E streams start moves seats) :
    Follows E streams' start moves seats := by
  induction h with
  | start => exact .start
  | @move moves move seats seats' _ hnext ih =>
    refine .move ih ?_
    unfold nextMove at hnext ⊢
    cases hturn : turnOf E seats with
    | none => rw [hturn] at hnext; cases hnext
    | some side =>
      rw [hturn] at hnext
      dsimp only at hnext ⊢
      split_ifs at hnext ⊢ with hunprepared
      · cases hevents : (streams side)[(seats side).frame]? with
        | none => rw [hevents] at hnext; cases hnext
        | some events =>
          rw [hevents] at hnext
          rw [hle.getElem? hevents]
          exact hnext
      · exact hnext

/-- As many moves are the same moves. -/
theorem Follows.unique (h : Follows E streams start moves seats)
    (h' : Follows E streams start moves' seats') (hlength : moves.length = moves'.length) :
    moves = moves' ∧ seats = seats' := by
  induction h generalizing moves' seats' with
  | start =>
    cases h' with
    | start => exact ⟨rfl, rfl⟩
    | move _ _ =>
      rw [List.length_nil, List.length_append, List.length_singleton] at hlength
      omega
  | move _ hnext ih =>
    cases h' with
    | start =>
      rw [List.length_nil, List.length_append, List.length_singleton] at hlength
      omega
    | move h' hnext' =>
      rw [List.length_append, List.length_append, List.length_singleton, List.length_singleton]
        at hlength
      obtain ⟨rfl, rfl⟩ := ih h' (by omega)
      obtain ⟨rfl, rfl⟩ := Prod.mk.inj (Option.some.inj (hnext.symm.trans hnext'))
      exact ⟨rfl, rfl⟩

/-- **Two pairs that follow the same events** make the same moves, as far as both have come. -/
theorem Follows.prefix_of_le (h : Follows E streams start moves seats)
    (h' : Follows E streams start moves' seats') (hle : moves.length ≤ moves'.length) :
    moves <+: moves' := by
  induction h' with
  | start =>
    rw [List.eq_nil_of_length_eq_zero (Nat.le_zero.1 hle)]
  | @move moves' move _ _ h' hnext ih =>
    rcases Nat.lt_or_ge moves'.length moves.length with hlt | hge
    · have hlength : moves.length = (moves' ++ [move]).length := by
        rw [List.length_append, List.length_singleton] at hle ⊢
        omega
      exact (h.unique (.move h' hnext) hlength).1 ▸ List.prefix_rfl
    · exact (ih hge).trans (List.prefix_append moves' [move])

/-! ## Frames -/

/-- Both consoles are between frames, or their events have been applied. -/
def Between (E : LinkedCore C) (seats : Side → Seat C) : Prop :=
  ∀ side, (seats side).prepared = false → E.isMidFrame (seats side).core = false

/-- How many frames' events have been applied. -/
def Seat.consumed (seat : Seat C) : Nat := seat.frame + if seat.prepared then 1 else 0

/-- Grows with each frame whose events are applied, and with each that is completed. -/
def Seat.rank (seat : Seat C) : Nat := seat.frame + seat.consumed

theorem Side.ne_other (side : Side) : side ≠ side.other := by
  cases side <;> exact nofun

theorem Side.eq_or_eq_other (side side' : Side) : side' = side ∨ side' = side.other := by
  cases side <;> cases side' <;> simp [Side.other]

theorem extends_update {streams : Streams} {side : Side} {events : List (List Packet)}
    (h : streams side <+: events) : Extends streams (Function.update streams side events) := by
  intro side'
  rcases side.eq_or_eq_other side' with rfl | rfl
  · rwa [Function.update_self]
  · rw [Function.update_of_ne side.ne_other.symm]

/-- What a move does to the seats. -/
inductive Moved (E : LinkedCore C) (streams : Streams) (seats : Side → Seat C) :
    Move → (Side → Seat C) → Prop
  | prepare {side : Side} {events : List Packet} : turnOf E seats = some side →
    (seats side).prepared = false → (streams side)[(seats side).frame]? = some events →
    Moved E streams seats (.prepare side (seats side).frame events) (prepared E side events seats)
  | step {side : Side} {frames : Nat} {core other : C} : turnOf E seats = some side →
    (seats side).prepared = true →
    E.stepLinked (seats side).core (seats side.other).core = .ok (frames, core, other) →
    Moved E streams seats (.step side frames) (stepped side frames core other seats)

theorem moved_of_nextMove {move : Move} (hbetween : Between E seats)
    (h : nextMove E streams seats = some (move, seats')) : Moved E streams seats move seats' := by
  unfold nextMove at h
  cases hturn : turnOf E seats with
  | none => rw [hturn] at h; cases h
  | some side =>
    rw [hturn] at h
    dsimp only at h
    split_ifs at h with hunprepared
    · unfold Unprepared at hunprepared
      rw [Bool.and_eq_true, Bool.not_eq_true', Bool.not_eq_true'] at hunprepared
      cases hevents : (streams side)[(seats side).frame]? with
      | none => rw [hevents] at h; cases h
      | some events =>
        rw [hevents] at h
        obtain ⟨rfl, rfl⟩ := Prod.mk.inj (Option.some.inj h)
        exact .prepare hturn hunprepared.2 hevents
    · have hprepared : (seats side).prepared = true := by
        cases hp : (seats side).prepared with
        | true => rfl
        | false =>
          refine absurd ?_ hunprepared
          rw [Unprepared, hbetween side hp, hp]
          rfl
      cases hstep : E.stepLinked (seats side).core (seats side.other).core with
      | error e => rw [hstep] at h; cases h
      | ok result =>
        obtain ⟨frames, core, other⟩ := result
        rw [hstep] at h
        obtain ⟨rfl, rfl⟩ := Prod.mk.inj (Option.some.inj h)
        exact .step hturn hprepared hstep

theorem Moved.between {move : Move} (h : Moved E streams seats move seats')
    (hbetween : Between E seats) : Between E seats' := by
  intro side' hunprepared
  cases h with
  | @prepare side events _ hprepared _ =>
    rcases side.eq_or_eq_other side' with rfl | rfl
    · rw [prepared, Function.update_self] at hunprepared
      cases hunprepared
    · rw [prepared, Function.update_of_ne side.ne_other.symm] at hunprepared ⊢
      exact hbetween _ hunprepared
  | @step side frames core other _ hprepared hstep =>
    rcases side.eq_or_eq_other side' with rfl | rfl
    · rw [stepped, Function.update_self] at hunprepared ⊢
      dsimp only at hunprepared ⊢
      split_ifs at hunprepared with hframes
      · rw [hprepared] at hunprepared
        cases hunprepared
      · exact E.isMidFrame_stepLinked hstep hframes
    · rw [stepped, Function.update_of_ne side.ne_other.symm, Function.update_self]
        at hunprepared ⊢
      dsimp only at hunprepared ⊢
      rw [E.isMidFrame_other hstep]
      exact hbetween _ hunprepared

/-- No seat is ever set back. -/
theorem Moved.rank_le {move : Move} (h : Moved E streams seats move seats') (side' : Side) :
    (seats side').rank ≤ (seats' side').rank := by
  cases h with
  | @prepare side events _ hprepared _ =>
    rcases side.eq_or_eq_other side' with rfl | rfl
    · rw [prepared, Function.update_self]
      unfold Seat.rank Seat.consumed
      rw [hprepared]
      simp
    · rw [prepared, Function.update_of_ne side.ne_other.symm]
  | @step side frames core other _ hprepared hstep =>
    rcases side.eq_or_eq_other side' with rfl | rfl
    · rw [stepped, Function.update_self]
      unfold Seat.rank Seat.consumed
      rw [hprepared]
      by_cases hframes : frames = 0
      · rw [if_pos hframes, if_pos rfl]
        dsimp only
        omega
      · rw [if_neg hframes, if_pos rfl, if_neg Bool.false_ne_true]
        dsimp only
        omega
    · rw [stepped, Function.update_of_ne side.ne_other.symm, Function.update_self]
      exact Nat.le_refl _

theorem Moved.rank_prepare {side : Side} {frame : Nat} {events : List Packet}
    (h : Moved E streams seats (.prepare side frame events) seats') :
    (seats side).rank < (seats' side).rank := by
  cases h with
  | prepare _ hprepared _ =>
    rw [prepared, Function.update_self]
    unfold Seat.rank Seat.consumed
    rw [hprepared, if_pos rfl, if_neg Bool.false_ne_true]
    dsimp only
    omega

theorem Follows.between (hstart : Between E start) (h : Follows E streams start moves seats) :
    Between E seats := by
  induction h with
  | start => exact hstart
  | move _ hnext ih => exact (moved_of_nextMove ih hnext).between ih

theorem Follows.rank_le (hstart : Between E start) (h : Follows E streams start moves seats)
    (h' : Follows E streams start moves' seats') (hle : moves.length ≤ moves'.length)
    (side : Side) : (seats side).rank ≤ (seats' side).rank := by
  induction h' with
  | start =>
    rw [(h.unique .start (Nat.le_zero.1 hle)).2]
  | @move moves' move _ _ h' hnext ih =>
    rcases Nat.lt_or_ge moves'.length moves.length with hlt | hge
    · have hlength : moves.length = (moves' ++ [move]).length := by
        rw [List.length_append, List.length_singleton] at hle ⊢
        omega
      rw [(h.unique (.move h' hnext) hlength).2]
    · exact Nat.le_trans (ih hge) ((moved_of_nextMove (h'.between hstart) hnext).rank_le side)

/-- A pair that has come less far than another one can go on. -/
theorem Follows.next (h : Follows E streams start moves seats)
    (h' : Follows E streams start moves' seats') (hlt : moves.length < moves'.length) :
    ∃ move after, nextMove E streams seats = some (move, after) := by
  induction h' with
  | start => exact absurd hlt (Nat.not_lt_zero _)
  | @move moves' move _ _ h' hnext ih =>
    rw [List.length_append, List.length_singleton] at hlt
    rcases Nat.lt_or_ge moves.length moves'.length with hlt' | hge
    · exact ih hlt'
    · obtain ⟨-, rfl⟩ := h.unique h' (by omega)
      exact ⟨move, _, hnext⟩

/-- The events that a move applies to a console, and for which frame. -/
def Move.applied (side : Side) : Move → Option (List Packet × Nat)
  | .prepare side' frame events => if side' = side then some (events, frame) else none
  | .step _ _ => none

theorem Moved.consumed {move : Move} (h : Moved E streams seats move seats') (side' : Side) :
    (move.applied side' = none ∧ (seats' side').consumed = (seats side').consumed) ∨
      ∃ events, (streams side')[(seats side').consumed]? = some events ∧
        move.applied side' = some (events, (seats side').consumed) ∧
        (seats' side').consumed = (seats side').consumed + 1 := by
  cases h with
  | @prepare side events _ hprepared hevents =>
    rcases side.eq_or_eq_other side' with rfl | rfl
    · have hconsumed : (seats side').consumed = (seats side').frame := by
        rw [Seat.consumed, hprepared]
        rfl
      refine .inr ⟨events, by rw [hconsumed]; exact hevents, ?_, ?_⟩
      · rw [Move.applied, if_pos rfl, hconsumed]
      · rw [prepared, Function.update_self, hconsumed]
        rfl
    · refine .inl ⟨if_neg side.ne_other, ?_⟩
      rw [prepared, Function.update_of_ne side.ne_other.symm]
  | @step side frames core other _ hprepared hstep =>
    refine .inl ⟨rfl, ?_⟩
    rcases side.eq_or_eq_other side' with rfl | rfl
    · have hle := E.frames_le hstep
      rw [stepped, Function.update_self, Seat.consumed, Seat.consumed, hprepared]
      by_cases hframes : frames = 0
      · rw [if_pos hframes, hframes]
        rfl
      · rw [if_neg hframes, if_neg Bool.false_ne_true, if_pos rfl]
        dsimp only
        omega
    · rw [stepped, Function.update_of_ne side.ne_other.symm, Function.update_self]
      rfl

/-- **Each frame's events are applied once**, and in order. -/
theorem Follows.applied (hstart : Between E start)
    (hfresh : ∀ side, (start side).consumed = 0) (h : Follows E streams start moves seats)
    (side : Side) : (seats side).consumed ≤ (streams side).length ∧
      moves.filterMap (Move.applied side) =
        ((streams side).take (seats side).consumed).zipIdx := by
  induction h with
  | start =>
    rw [hfresh side]
    exact ⟨Nat.zero_le _, rfl⟩
  | @move moves move middle seats' h hnext ih =>
    obtain ⟨hle, happlied⟩ := ih
    rw [List.filterMap_append, happlied]
    rcases (moved_of_nextMove (h.between hstart) hnext).consumed side with
      ⟨hnone, hconsumed⟩ | ⟨events, hevents, hsome, hconsumed⟩
    · rw [hconsumed, List.filterMap_cons_none hnone, List.filterMap_nil, List.append_nil]
      exact ⟨hle, rfl⟩
    · obtain ⟨hlt, -⟩ := List.getElem?_eq_some_iff.1 hevents
      rw [hconsumed, List.filterMap_cons_some hsome, List.filterMap_nil, List.take_add_one, hevents,
        Option.toList_some, List.zipIdx_append, List.length_take, Nat.min_eq_left hle, Nat.zero_add]
      exact ⟨hlt, rfl⟩

/-! ## Pair hashes -/

/-- The second console has caught up with the first one, which is about to begin a frame. -/
structure Due (E : LinkedCore C) (seats : Side → Seat C) (hashed : Nat × Bytes) : Prop where
  turn : turnOf E seats = some .first
  prepared : (seats .first).prepared = false
  frame : (seats .first).frame = hashed.1
  hash : hashed.2 = E.pairHash (seats .first).core (seats .second).core

/-- The pair hash of a frame of the first console. -/
def Hashed (E : LinkedCore C) (streams : Streams) (start : Side → Seat C) (hashed : Nat × Bytes) :
    Prop :=
  ∃ moves seats, Follows E streams start moves seats ∧ Due E seats hashed

theorem Hashed.mono {hashed : Nat × Bytes} (hle : Extends streams streams')
    (h : Hashed E streams start hashed) : Hashed E streams' start hashed := by
  obtain ⟨moves, seats, hfollows, hdue⟩ := h
  exact ⟨moves, seats, hfollows.mono hle, hdue⟩

/-- Once the first console has begun its frame, the hash of that frame is not taken any more. -/
theorem Due.frame_lt {hashed hashed' : Nat × Bytes} (hstart : Between E start)
    (hdue : Due E seats hashed) (hdue' : Due E seats' hashed')
    (h : Follows E streams start moves seats) (h' : Follows E streams start moves' seats')
    (hlt : moves.length < moves'.length) : hashed.1 < hashed'.1 := by
  have hrank : (seats .first).rank < (seats' .first).rank := by
    obtain ⟨move, after, hnext⟩ := h.next h' hlt
    have hlater := (h.move hnext).rank_le hstart h'
      (by rw [List.length_append, List.length_singleton]; omega) .first
    have hmoved := moved_of_nextMove (h.between hstart) hnext
    cases hmoved with
    | @prepare side events hturn hprepared hevents =>
      obtain rfl := Option.some.inj (hturn.symm.trans hdue.turn)
      exact Nat.lt_of_lt_of_le (Moved.rank_prepare (.prepare hturn hprepared hevents)) hlater
    | @step side _ _ _ hturn hprepared =>
      obtain rfl := Option.some.inj (hturn.symm.trans hdue.turn)
      exact Bool.noConfusion (hdue.prepared.symm.trans hprepared)
  unfold Seat.rank Seat.consumed at hrank
  rw [hdue.prepared, hdue'.prepared, hdue.frame, hdue'.frame, if_neg Bool.false_ne_true] at hrank
  omega

/-- **The pair hash of a frame is the same** wherever it is computed. -/
theorem Hashed.unique {hashed hashed' : Nat × Bytes} (hstart : Between E start)
    (h : Hashed E streams start hashed) (h' : Hashed E streams start hashed')
    (hframe : hashed.1 = hashed'.1) : hashed.2 = hashed'.2 := by
  obtain ⟨moves, seats, hfollows, hdue⟩ := h
  obtain ⟨moves', seats', hfollows', hdue'⟩ := h'
  rcases Nat.lt_trichotomy moves.length moves'.length with hlt | heq | hgt
  · exact absurd (hdue.frame_lt hstart hdue' hfollows hfollows' hlt) (by omega)
  · rw [hdue.hash, hdue'.hash, (hfollows.unique hfollows' heq).2]
  · exact absurd (hdue'.frame_lt hstart hdue hfollows' hfollows hgt) (by omega)

end Lockstep

end SuperShuckie
