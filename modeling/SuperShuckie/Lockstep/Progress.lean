import SuperShuckie.Lockstep.Agreement

/-!
# Two machines never wait for each other

A machine stalls when the partner's next link frame has not arrived.  The partner's machine sends
its frames ahead, so the two machines cannot wait for each other: if both stall, a link frame is on
its way (`never_deadlock`), as long as no inbox refuses a frame.
-/

set_option autoImplicit false

namespace SuperShuckie

namespace Lockstep

open ByteFormat

variable {C : Type} {E : LinkedCore C} {start : Side → Seat C} {s : System C} {m : Machine C}
  {streams : Streams}

/-! ## Link frames on their way -/

/-- The next of a machine's link frames to arrive. -/
def Machine.arrived (m : Machine C) : Nat := m.nextSendFrame - m.outbox.length

/-- A machine's link frames are on their way in their turn, up to the last one sent. -/
structure Sends (delay : Nat) (m : Machine C) : Prop where
  delay_eq : m.delay = delay
  outbox : m.outbox.map Prod.fst = List.range' m.arrived m.outbox.length
  outbox_le : m.outbox.length ≤ m.nextSendFrame

/-- A machine has the link frames of the partner's that have arrived and have not been run. -/
def Holds (delay : Nat) (side : Side) (arrived : Nat) (m : Machine C) : Prop :=
  ∀ n, delay ≤ n → (m.seats side.other).consumed ≤ n → n < arrived →
    (m.inbox.frames.get? n).isSome = true

/-- Every link frame is on its way in its turn, or has arrived, or has been run. -/
structure Lossless (delay : Nat) (s : System C) : Prop where
  sends : ∀ side, Sends delay (s.machine side)
  holds : ∀ side, Holds delay side (s.machine side.other).arrived (s.machine side)

/-- An arriving link frame is not refused. -/
def Event.Accepted : Event → System C → Prop
  | .deliver side, s => ∀ sent ∈ (s.machine side.other).outbox.head?,
    (s.machine side).inbox.refuses sent.1 = false
  | _, _ => True

theorem schedule_heldWrites (heldWrites : List Packet) (m : Machine C) :
    let m' := heldWrites.foldl (fun m packet ↦ m.schedule packet) m
    m'.delay = m.delay ∧ m'.nextSendFrame = m.nextSendFrame ∧ m'.outbox = m.outbox := by
  induction heldWrites generalizing m with
  | nil => exact ⟨rfl, rfl, rfl⟩
  | cons packet heldWrites ih => exact ih (m.schedule packet)

variable {delay : Nat}

theorem lossless_start {first second : C} {inputs : Side → Bytes} {clocks : Side → TimestampMillis}
    {heldWrites : Side → List Packet} (h : s.Plugged first second delay inputs clocks heldWrites) :
    Lossless delay s := by
  have hside (side : Side) : (s.machine side).delay = delay ∧
      (s.machine side).nextSendFrame = delay ∧ (s.machine side).outbox = [] := by
    have hbegun := h side
    unfold Machine.beginLink at hbegun
    split_ifs at hbegun with hdelay
    rw [← Except.ok.inj hbegun]
    exact schedule_heldWrites (heldWrites side) _
  refine ⟨fun side ↦ ⟨(hside side).1, ?_, ?_⟩, fun side n hle _ hlt ↦ ?_⟩
  · rw [(hside side).2.2]
    rfl
  · rw [(hside side).2.2]
    exact Nat.zero_le _
  · rw [Machine.arrived, (hside side.other).2.2, (hside side.other).2.1] at hlt
    exact absurd hlt (Nat.not_lt.2 hle)

/-- One machine changes, and no more of its link frames arrive. -/
theorem lossless_change {side : Side} (f : Machine C → Machine C) (h : Lossless delay s)
    (hsends : Sends delay (s.machine side) → Sends delay (f (s.machine side)))
    (harrived : (f (s.machine side)).arrived = (s.machine side).arrived)
    (hholds : ∀ arrived, Holds delay side arrived (s.machine side) →
      Holds delay side arrived (f (s.machine side))) : Lossless delay (s.change side f) := by
  refine ⟨fun side' ↦ ?_, fun side' ↦ ?_⟩
  · rcases side.eq_or_eq_other side' with rfl | rfl
    · rw [machine_change_self]
      exact hsends (h.sends _)
    · rw [machine_change_other]
      exact h.sends _
  · rcases side.eq_or_eq_other side' with rfl | rfl
    · rw [machine_change_self, machine_change_other]
      exact hholds _ (h.holds _)
    · have hother := h.holds side.other
      rw [side.other_other] at hother
      rwa [machine_change_other, side.other_other, machine_change_self, harrived]

/-- One machine goes on, and sends the frames that it has scheduled. -/
theorem lossless_goesOn {side : Side} (f : Machine C → Machine C) (h : Lossless delay s)
    (hside : (s.machine side).side = side)
    (hgoes : GoesOn E start streams (s.machine side) (f (s.machine side))) :
    Lossless delay (s.change side f) := by
  obtain ⟨sent, hsent, hnumbers, hnext⟩ := hgoes.outbox
  have hle := (h.sends side).outbox_le
  have hconsumed := hgoes.consumed_le
  have hinbox := hgoes.inbox
  rw [hside] at hconsumed hinbox
  have harrived : (f (s.machine side)).arrived = (s.machine side).arrived := by
    rw [Machine.arrived, Machine.arrived, hnext, hsent, List.length_append]
    omega
  refine lossless_change f h (fun hsends ↦ ⟨hgoes.delay.trans hsends.delay_eq, ?_, ?_⟩) harrived
    fun arrived hholds n hn hle' hlt ↦ ?_
  · have hreaches : (s.machine side).arrived + (s.machine side).outbox.length =
        (s.machine side).nextSendFrame := by
      rw [Machine.arrived]
      omega
    rw [harrived, hsent, List.map_append, hsends.outbox, hnumbers, List.length_append, ← hreaches,
      List.range'_append_1]
  · rw [hsent, hnext, List.length_append]
    omega
  · rw [hinbox n hle']
    exact hholds n hn (Nat.le_trans hconsumed hle') hlt

/-- A link frame arrives in its turn. -/
theorem lossless_arrive {side : Side} {sent : Nat × LinkFrame} {outbox : List (Nat × LinkFrame)}
    (h : Lossless delay s) (houtbox : (s.machine side.other).outbox = sent :: outbox)
    (haccepted : (s.machine side).inbox.refuses sent.1 = false) :
    Lossless delay (s.arrive side sent outbox) := by
  have hnumbers := (h.sends side.other).outbox
  have hle := (h.sends side.other).outbox_le
  rw [houtbox, List.map_cons, List.length_cons, List.range'_succ] at hnumbers
  rw [houtbox, List.length_cons] at hle
  obtain ⟨hfirst, hrest⟩ := List.cons.inj hnumbers
  have hself : (s.arrive side sent outbox).machine side =
      { s.machine side with inbox := (s.machine side).inbox.push sent.1 sent.2 } := by
    rw [System.arrive, machine_change_self]
    have := machine_change_other side.other (fun m ↦ { m with outbox }) s
    rw [side.other_other] at this
    rw [this]
  have hother : (s.arrive side sent outbox).machine side.other =
      { s.machine side.other with outbox } := by
    rw [System.arrive, machine_change_other, machine_change_self]
  have harrived : ((s.arrive side sent outbox).machine side.other).arrived =
      (s.machine side.other).arrived + 1 := by
    rw [hother, Machine.arrived, Machine.arrived, houtbox, List.length_cons]
    dsimp only
    omega
  refine ⟨fun side' ↦ ?_, fun side' n hn hle' hlt ↦ ?_⟩
  · rcases side.eq_or_eq_other side' with rfl | rfl
    · rw [hself]
      exact { h.sends _ with }
    · refine ⟨?_, ?_, ?_⟩
      · rw [hother]
        exact (h.sends _).delay_eq
      · rw [harrived, hother]
        exact hrest
      · rw [hother]
        dsimp only
        omega
  · rcases side.eq_or_eq_other side' with rfl | rfl
    · rw [harrived] at hlt
      rw [hself] at hle' ⊢
      dsimp only at hle' ⊢
      rw [get?_push, haccepted]
      by_cases hnew : n = sent.1
      · rw [if_pos ⟨hnew, rfl⟩]
        rfl
      · rw [if_neg fun h ↦ hnew h.1]
        exact h.holds _ n hn hle' (by omega)
    · rw [side.other_other, hself] at hlt
      rw [hother] at hle' ⊢
      refine h.holds _ n hn hle' ?_
      rw [side.other_other]
      exact hlt

/-- **No link frame is lost**, as long as none is refused. -/
theorem lossless_step (hstart : Between E start) (event : Event) (hlockstep : InLockstep E start s)
    (h : Lossless delay s) (haccepted : event.Accepted s) : Lossless delay (s.step E event) := by
  cases event with
  | run side due input clock =>
    exact lossless_goesOn (fun m ↦ (m.runLinked E due input clock).2) h (hlockstep.side side)
      (goesOn_runLinked due input clock (hlockstep.sound side) hstart)
  | write _ _ _ | reset _ | hangUp _ =>
    unfold System.step
    refine lossless_change _ h (fun hsends ↦ ?_) ?_ fun _ hholds ↦ ?_
    · exact { hsends with }
    · rfl
    · exact hholds
  | deliver side =>
    unfold System.step
    dsimp only
    cases houtbox : (s.machine side.other).outbox with
    | nil => exact h
    | cons sent outbox =>
      refine lossless_arrive h houtbox (haccepted sent ?_)
      rw [houtbox]
      rfl

/-! ## No deadlock -/

theorem Seat.consumed_eq (seat : Seat C) : seat.consumed = (seat.rank + 1) / 2 := by
  unfold Seat.rank Seat.consumed
  cases seat.prepared with
  | true => rw [if_pos rfl]; omega
  | false => rw [if_neg Bool.false_ne_true]; omega

/-- A machine that waits for a frame that is not on its way has come further with the partner's
console than the partner's machine. -/
theorem consumed_of_waiting {side : Side} {m' other : Machine C} (h : InLockstep E start s)
    (hlossless : Lossless delay s) (hquiet : Quiet (s.machine side) m') (hwaiting : Waiting m')
    (hempty : (s.machine side.other).outbox = []) (hquiet' : Quiet (s.machine side.other) other)
    (hother : Sound E start streams other) :
    (other.seats side.other).consumed < (m'.seats side.other).consumed := by
  have hside : m'.side = side := hquiet.side.trans (h.side side)
  have hside' : other.side = side.other := hquiet'.side.trans (h.side side.other)
  have hprepared := hwaiting.prepared
  have hmissing := hwaiting.missing
  have hle := hquiet.consumed_le
  have hinbox := hquiet.inbox
  rw [hside] at hprepared
  rw [h.side side] at hle hinbox
  have hframe : (m'.seats side.other).consumed = (m'.seats side.other).frame := by
    rw [Seat.consumed, hprepared]
    rfl
  unfold Machine.partnerLinkFrame at hmissing
  rw [hside, hquiet.delay, (hlossless.sends side).delay_eq] at hmissing
  dsimp only at hmissing
  split_ifs at hmissing with hprefill
  have hnone : m'.inbox.frames.get? (m'.seats side.other).frame = none := by
    unfold LinkInbox.take at hmissing
    cases hget : m'.inbox.frames.get? (m'.seats side.other).frame with
    | none => rfl
    | some linkFrame =>
      rw [hget] at hmissing
      cases hmissing
  rw [← hframe, hinbox _ (Nat.le_refl _)] at hnone
  have harrived : (s.machine side.other).arrived ≤ (m'.seats side.other).consumed := by
    by_contra hlt
    have hsome := hlossless.holds side _ (by omega) hle (Nat.not_le.1 hlt)
    rw [hnone] at hsome
    cases hsome
  have hahead := hother.ahead
  have hdelay := hother.delay_pos
  rw [hside', hquiet'.nextSendFrame] at hahead
  rw [Machine.arrived, hempty, List.length_nil, hahead] at harrived
  omega

/-- **The machines never wait for each other**: if calls stall on both, a link frame is on its
way. -/
theorem never_deadlock {first second : C} {delay : Nat} {inputs : Side → Bytes}
    {clocks : Side → TimestampMillis} {heldWrites : Side → List Packet}
    (hfirst : E.isMidFrame first = false) (hsecond : E.isMidFrame second = false)
    (hplugged : s.Plugged first second delay inputs clocks heldWrites) {events : List Event}
    (haccepted : Runs.Along (System.step E) Event.Accepted events s)
    (due : Side → Bool) (input : Side → Bytes) (clock : Side → TimestampMillis)
    (hstalled : ∀ side, (((Runs.run (System.step E) events s).machine side).runLinked E (due side)
      (input side) (clock side)).1 = .stalled) :
    ∃ side, ((Runs.run (System.step E) events s).machine side).outbox ≠ [] := by
  have hstart := between_start_of hfirst hsecond
  set t := Runs.run (System.step E) events s with ht
  have hstep (event : Event) (s : System C)
      (h : InLockstep E (Machine.start first second) s ∧ Lossless delay s)
      (haccepted : event.Accepted s) :
      InLockstep E (Machine.start first second) (s.step E event) ∧
        Lossless delay (s.step E event) :=
    ⟨inLockstep_step hstart event s h.1, lossless_step hstart event h.1 h.2 haccepted⟩
  obtain ⟨hlockstep, hlossless⟩ : InLockstep E (Machine.start first second) t ∧
      Lossless delay t :=
    Runs.run_along hstep haccepted ⟨(inLockstep_start hplugged).1, lossless_start hplugged⟩
  by_contra hnone
  have hempty (side : Side) : (t.machine side).outbox = [] := by
    by_contra hne
    exact hnone ⟨side, hne⟩
  have hwaiting (side : Side) := waiting_runLinked (hlockstep.sound side) hstart (hstalled side)
  have hahead (side : Side) := consumed_of_waiting hlockstep hlossless (hwaiting side).2.1
    (hwaiting side).2.2 (hempty side.other) (hwaiting side.other).2.1 (hwaiting side.other).1
  have hsecond' := hahead .first
  have hfirst' := hahead .second
  dsimp only [Side.other] at hsecond' hfirst'
  rw [Seat.consumed_eq, Seat.consumed_eq] at hsecond' hfirst'
  have hfollows (side : Side) := (hwaiting side).1.follows
  rcases Nat.le_total
      (((t.machine .first).runLinked E (due .first) (input .first) (clock .first)).2.moves.length)
      (((t.machine .second).runLinked E (due .second) (input .second)
        (clock .second)).2.moves.length) with hle | hle
  · have := (hfollows .first).rank_le hstart (hfollows .second) hle .second
    omega
  · have := (hfollows .second).rank_le hstart (hfollows .first) hle .first
    omega

theorem never_deadlock_counters :
    ∃ side, ((Runs.run (System.step counterLink) counterEvents counters).machine side).outbox ≠
      [] :=
  never_deadlock rfl rfl counters_plugged
    ⟨trivial, trivial, trivial, by unfold Event.Accepted; decide +kernel, trivial, trivial, trivial⟩
    (fun _ ↦ true) (fun _ ↦ []) (fun _ ↦ 30) fun side ↦ by cases side <;> decide +kernel

end Lockstep

end SuperShuckie
