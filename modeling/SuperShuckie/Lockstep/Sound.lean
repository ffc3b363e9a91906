import SuperShuckie.Lockstep.Course

/-!
# What a machine keeps

A machine is `Sound` if it follows the course of the pair: what it has done with its two consoles is
what the events scheduled on both machines lead to, its queue and its inbox hold such events, and
every pair hash that it knows is the hash of the frame it is said to be of.

Whatever a machine does keeps this (`goesOn_runLinked`); so no call ever finds that pair hashes
differ.
-/

set_option autoImplicit false

namespace SuperShuckie

namespace Lockstep

open ByteFormat

variable {C : Type} {E : LinkedCore C} {start : Side → Seat C} {streams : Streams}
  {m m' : Machine C}

/-- A link frame of a console that has been sent: its events are what was scheduled, and the hash
that goes with it is one of the pair. -/
structure Carries (E : LinkedCore C) (start : Side → Seat C) (streams : Streams) (side : Side)
    (frame : Nat) (linkFrame : LinkFrame) : Prop where
  events : (streams side)[frame]? = some linkFrame.events
  hash : ∀ hashed ∈ linkFrame.pairHash, Hashed E streams start hashed

/-- A write or a reset, and not the input of a frame. -/
def isRaised : Packet → Bool
  | .changeInput _ => false
  | _ => true

/-- What has been scheduled for the frame that is sent next. -/
def Machine.pending (m : Machine C) : List Packet := (m.queue.get? m.nextSendFrame).getD []

/-- The machine follows the course of the pair, with the events of both machines. -/
structure Sound (E : LinkedCore C) (start : Side → Seat C) (streams : Streams) (m : Machine C) :
    Prop where
  follows : Follows E streams start m.moves m.seats
  own : streams m.side = m.scheduled
  delay_pos : 0 < m.delay
  length_scheduled : m.scheduled.length = m.nextSendFrame
  ahead : m.nextSendFrame = m.delay + (m.seats m.side).consumed
  queue : ∀ n, (m.seats m.side).consumed ≤ n → n < m.nextSendFrame →
    m.queue.get? n = m.scheduled[n]?
  /-- Nothing is scheduled behind the frame that is sent next. -/
  queue_none : ∀ n, m.nextSendFrame < n → m.queue.get? n = none
  /-- Every write and reset is in one frame. -/
  raised : ((m.scheduled.flatten ++ m.pending).filter isRaised).Perm (m.raised.filter isRaised)
  prefill : ∀ n < m.delay, (streams m.side.other)[n]? = some [.changeInput m.prefillInput]
  inbox : ∀ {n linkFrame}, m.inbox.frames.get? n = some linkFrame →
    Carries E start streams m.side.other n linkFrame
  outbox : ∀ {n linkFrame}, (n, linkFrame) ∈ m.outbox → Carries E start streams m.side n linkFrame
  firstFrames : m.firstFrames = (m.seats .first).frame
  due : ∀ {frame}, m.hashDueAt = some frame →
    (m.seats .first).frame = frame ∧ (m.seats .first).prepared = false
  computed : ∀ hashed ∈ m.computedHashes, Hashed E streams start hashed
  received : ∀ hashed ∈ m.receivedHashes, Hashed E streams start hashed
  pendingHash : ∀ hashed ∈ m.pendingHash, Hashed E streams start hashed
  failure : ∀ frame, m.failure ≠ some (.pairHashMismatch frame)

/-! ## More events -/

variable {side : Side} {linkFrame : LinkFrame}

theorem Carries.mono {streams' : Streams} {frame : Nat}
    (h : Carries E start streams side frame linkFrame) (hle : Extends streams streams') :
    Carries E start streams' side frame linkFrame :=
  ⟨hle.getElem? h.events, fun hashed hmem ↦ (h.hash hashed hmem).mono hle⟩

theorem Sound.mono {streams' : Streams} (h : Sound E start streams m)
    (hle : Extends streams streams') (hown : streams' m.side = streams m.side) :
    Sound E start streams' m :=
  { h with
    follows     := h.follows.mono hle
    own         := hown.trans h.own
    prefill     := fun n hn ↦ hle.getElem? (h.prefill n hn)
    inbox       := fun hn ↦ (h.inbox hn).mono hle
    outbox      := fun hn ↦ (h.outbox hn).mono hle
    computed    := fun hashed hmem ↦ (h.computed hashed hmem).mono hle
    received    := fun hashed hmem ↦ (h.received hashed hmem).mono hle
    pendingHash := fun hashed hmem ↦ (h.pendingHash hashed hmem).mono hle }

/-! ## Scheduling -/

theorem get?_schedule (packet : Packet) (n : Nat) : (m.schedule packet).queue.get? n =
      if n = m.nextSendFrame then some (match packet with
        | .resetConsole => packet :: m.pending
        | other => m.pending ++ [other])
      else m.queue.get? n :=
  OrdMap.get?_alter ..

theorem pending_schedule (packet : Packet) :
    ((m.schedule packet).pending).Perm (m.pending ++ [packet]) := by
  rw [Machine.pending, get?_schedule, if_pos (show (m.schedule packet).nextSendFrame =
    m.nextSendFrame from rfl), Option.getD_some]
  split
  · exact (List.perm_append_singleton _ _).symm
  · exact .refl _

theorem sound_schedule (packet : Packet) (h : Sound E start streams m) :
    Sound E start streams (m.schedule packet) := by
  refine { h with
    queue      := fun n hle hlt ↦ ?_
    queue_none := fun n hlt ↦ ?_
    raised     := ?_ }
  · have hlt' : n < m.nextSendFrame := hlt
    rw [get?_schedule, if_neg (by omega)]
    exact h.queue n hle hlt
  · have hlt' : m.nextSendFrame < n := hlt
    rw [get?_schedule, if_neg (by omega)]
    exact h.queue_none n hlt
  · show ((m.scheduled.flatten ++ (m.schedule packet).pending).filter isRaised).Perm
      ((m.raised ++ [packet]).filter isRaised)
    refine (((pending_schedule packet).append_left m.scheduled.flatten).filter isRaised).trans ?_
    rw [← List.append_assoc, List.filter_append, List.filter_append m.raised]
    exact h.raised.append_right _

/-! ## Pair hashes -/

/-- Hashes of the same frames that are the same match. -/
theorem linkMatchHashes_fst (h : ∀ computed ∈ m.computedHashes, ∀ received ∈ m.receivedHashes,
      computed.1 = received.1 → computed.2 = received.2) : m.linkMatchHashes.1 = none := by
  show List.findSome? _ m.receivedHashes = none
  rw [List.findSome?_eq_none_iff]
  rintro ⟨frame, hash⟩ hreceived
  dsimp only
  cases hfind : m.computedHashes.find? (·.1 = frame) with
  | none => rfl
  | some computed =>
    have hframe : computed.1 = frame := by
      have := List.find?_some hfind
      simpa using this
    have hsame := h computed (List.mem_of_find?_eq_some hfind) _ hreceived hframe
    exact if_neg (not_not_intro hsame)

theorem mem_receivedHashes_linkMatchHashes {hashed : Nat × Bytes}
    (h : hashed ∈ m.linkMatchHashes.2.receivedHashes) : hashed ∈ m.receivedHashes :=
  (List.mem_filter.1 (List.mem_of_mem_drop h)).1

/-- Matching hashes changes nothing but the received hashes that are still to be compared. -/
theorem sound_linkMatchHashes (h : Sound E start streams m) (hstart : Between E start) :
    m.linkMatchHashes.1 = none ∧ Sound E start streams m.linkMatchHashes.2 := by
  refine ⟨linkMatchHashes_fst fun computed hcomputed received hreceived hframe ↦
    (h.computed _ hcomputed).unique hstart (h.received _ hreceived) hframe, ?_⟩
  exact { h with
    received := fun hashed hmem ↦ h.received hashed (mem_receivedHashes_linkMatchHashes hmem) }

/-- What only the start of a local frame changes, and what arrived for the partner's frames that have
not begun. -/
structure Quiet (m m' : Machine C) : Prop where
  side : m'.side = m.side
  delay : m'.delay = m.delay
  raised : m'.raised = m.raised
  scheduled : m'.scheduled = m.scheduled
  nextSendFrame : m'.nextSendFrame = m.nextSendFrame
  outbox : m'.outbox = m.outbox
  consumed_le : (m.seats m.side.other).consumed ≤ (m'.seats m.side.other).consumed
  inbox : ∀ n, (m'.seats m.side.other).consumed ≤ n → m'.inbox.frames.get? n = m.inbox.frames.get? n

theorem Quiet.refl (m : Machine C) : Quiet m m :=
  ⟨rfl, rfl, rfl, rfl, rfl, rfl, Nat.le_refl _, fun _ _ ↦ rfl⟩

theorem Quiet.trans {m'' : Machine C} (h : Quiet m m') (h' : Quiet m' m'') : Quiet m m'' := by
  have hle := h'.consumed_le
  have hinbox := h'.inbox
  rw [h.side] at hle hinbox
  exact ⟨h'.side.trans h.side, h'.delay.trans h.delay, h'.raised.trans h.raised,
    h'.scheduled.trans h.scheduled,
    h'.nextSendFrame.trans h.nextSendFrame, h'.outbox.trans h.outbox,
    Nat.le_trans h.consumed_le hle,
    fun n hn ↦ (hinbox n hn).trans (h.inbox n (Nat.le_trans hle hn))⟩

theorem turnOf_eq {secondRuns : Bool} {seats : Side → Seat C}
    (h : E.secondRunsNext (seats .first).core (seats .second).core = .ok secondRuns) :
    turnOf E seats = some (if secondRuns then .second else .first) := by
  rw [turnOf, h]

/-- The hash that is due is the one of the frame, and it is taken before that begins. -/
theorem sound_takeDueHash {secondRuns : Bool} (h : Sound E start streams m)
    (hstart : Between E start)
    (hturn : turnOf E m.seats = some (if secondRuns then .second else .first)) :
    (m.takeDueHash E secondRuns).1 = none ∧ Sound E start streams (m.takeDueHash E secondRuns).2 ∧
      Quiet m (m.takeDueHash E secondRuns).2 ∧ (m.takeDueHash E secondRuns).2.seats = m.seats ∧
      (secondRuns = false → (m.takeDueHash E secondRuns).2.hashDueAt = none) := by
  unfold Machine.takeDueHash
  cases secondRuns with
  | true => exact ⟨rfl, h, .refl m, rfl, (nomatch ·)⟩
  | false =>
    cases hdue : m.hashDueAt with
    | none => exact ⟨rfl, h, .refl m, rfl, fun _ ↦ hdue⟩
    | some frame =>
      set hash := E.pairHash (m.seats .first).core (m.seats .second).core with hhash
      obtain ⟨hframe, hprepared⟩ := h.due hdue
      have hhashed : Hashed E streams start (frame, hash) :=
        ⟨m.moves, m.seats, h.follows, hturn, hprepared, hframe, rfl⟩
      set computed := m.computedHashes ++ [(frame, hash)] with hcomputed
      have hnoted : Sound E start streams { m with
          hashDueAt      := none
          pendingHash    := some (frame, hash)
          computedHashes := computed.drop (computed.length - pairHashWindow) } := by
        refine { h with
          due         := (nomatch ·)
          computed    := fun hashed hmem ↦ ?_
          pendingHash := fun hashed hpending ↦ ?_ }
        · rcases List.mem_append.1 (List.mem_of_mem_drop hmem) with hmem | hmem
          · exact h.computed _ hmem
          · rw [List.mem_singleton.1 hmem]
            exact hhashed
        · rw [← Option.some.inj hpending]
          exact hhashed
      obtain ⟨hnone, hsound⟩ := sound_linkMatchHashes hnoted hstart
      exact ⟨hnone, hsound, ⟨rfl, rfl, rfl, rfl, rfl, rfl, Nat.le_refl _, fun _ _ ↦ rfl⟩, rfl,
        fun _ ↦ rfl⟩

/-! ## Frames -/

theorem applyReceived_eq (c : C) (packet : Packet) :
    E.applyReceived c packet = E.applyScheduled c packet := by
  cases packet <;> rfl

theorem keeps_turn_applyScheduled (c : C) (packet : Packet) :
    E.linkTime (E.applyScheduled c packet) = E.linkTime c ∧
      E.isAsleep (E.applyScheduled c packet) = E.isAsleep c := by
  cases packet with
  | resetConsole =>
    exact ⟨E.hardReset_undisturbed.linkTime_eq c, E.hardReset_undisturbed.isAsleep_eq c⟩
  | changeInput data =>
    exact ⟨(E.setInput_undisturbed data).linkTime_eq c, (E.setInput_undisturbed data).isAsleep_eq c⟩
  | writeMemory address data =>
    show E.linkTime (E.writeMemory address data c) = _ ∧ E.isAsleep (E.writeMemory address data c) = _
    unfold LinkedCore.writeMemory
    split_ifs
    · exact ⟨(E.writeRam_undisturbed _ data).linkTime_eq c,
        (E.writeRam_undisturbed _ data).isAsleep_eq c⟩
    · exact ⟨rfl, rfl⟩
  | _ => exact ⟨rfl, rfl⟩

theorem keeps_turn_applied (events : List Packet) (c : C) :
    E.linkTime (events.foldl E.applyScheduled c) = E.linkTime c ∧
      E.isAsleep (events.foldl E.applyScheduled c) = E.isAsleep c := by
  induction events generalizing c with
  | nil => exact ⟨rfl, rfl⟩
  | cons packet events ih =>
    obtain ⟨htime, hasleep⟩ := ih (E.applyScheduled c packet)
    obtain ⟨htime', hasleep'⟩ := keeps_turn_applyScheduled (E := E) c packet
    exact ⟨htime.trans htime', hasleep.trans hasleep'⟩

/-- Applying a frame's events does not change whose turn it is. -/
theorem turnOf_prepared (side : Side) (events : List Packet) (seats : Side → Seat C) :
    turnOf E (prepared E side events seats) = turnOf E seats := by
  obtain ⟨htime, hasleep⟩ := keeps_turn_applied (E := E) events (seats side).core
  cases side <;>
    simp [turnOf, prepared, LinkedCore.secondRunsNext, Function.update, htime, hasleep]

theorem nextMove_prepare {seats : Side → Seat C} {events : List Packet} (hbetween : Between E seats)
    (hturn : turnOf E seats = some side) (hunprepared : (seats side).prepared = false)
    (hevents : (streams side)[(seats side).frame]? = some events) : nextMove E streams seats =
      some (.prepare side (seats side).frame events, prepared E side events seats) := by
  have hcond : Unprepared E seats side = true := by
    rw [Unprepared, hbetween side hunprepared, hunprepared]
    rfl
  rw [nextMove, hturn]
  dsimp only
  rw [if_pos hcond, hevents]

/-- The frame that the first console completed last is still the last one, if nothing is due
whenever it begins a frame. -/
theorem Sound.due_prepared {events : List Packet} (h : Sound E start streams m)
    (hdue : side = .first → m.hashDueAt = none) {frame : Nat} (hframe : m.hashDueAt = some frame) :
    (prepared E side events m.seats .first).frame = frame ∧
      (prepared E side events m.seats .first).prepared = false := by
  cases side with
  | first =>
    rw [hdue rfl] at hframe
    cases hframe
  | second => exact h.due hframe

theorem frame_prepared (side side' : Side) (events : List Packet) (seats : Side → Seat C) :
    (prepared E side events seats side').frame = (seats side').frame := by
  rcases side.eq_or_eq_other side' with rfl | rfl
  · rw [prepared, Function.update_self]
  · rw [prepared, Function.update_of_ne side.ne_other.symm]

theorem consumed_prepared (events : List Packet) {seats : Side → Seat C}
    (h : (seats side).prepared = false) :
    (prepared E side events seats side).consumed = (seats side).consumed + 1 := by
  rw [prepared, Function.update_self, Seat.consumed, Seat.consumed, h]
  rfl

/-- **The local console's frame**: the fresh input goes to a frame to come, and what is applied is
what was scheduled for this one. -/
theorem sound_linkPrepareLocalFrame (input : Bytes) (clock : TimestampMillis)
    (h : Sound E start streams m) (hstart : Between E start)
    (hturn : turnOf E m.seats = some m.side) (hunprepared : (m.seats m.side).prepared = false)
    (hdue : m.side = .first → m.hashDueAt = none) :
    let m' := m.linkPrepareLocalFrame E input clock
    ∃ events, m'.scheduled = m.scheduled ++ [events] ∧ m'.side = m.side ∧
      Sound E start (Function.update streams m.side m'.scheduled) m' ∧
      turnOf E m'.seats = some m.side ∧ (m'.seats m.side).prepared = true := by
  intro m'
  set fresh := (m.queue.get? m.nextSendFrame).getD [] ++ [.changeInput input] with hfresh
  set queue := m.queue.insert m.nextSendFrame fresh with hqueue
  set seat := m.seats m.side with hseat
  have hconsumed : seat.consumed = seat.frame := by rw [Seat.consumed, hunprepared]; rfl
  have hahead : m.nextSendFrame = m.delay + seat.consumed := h.ahead
  have hlt : seat.frame < m.nextSendFrame := by
    have := h.delay_pos
    omega
  have hget : queue.get? seat.frame = m.scheduled[seat.frame]? := by
    rw [hqueue, OrdMap.get?_insert, if_neg (by omega)]
    exact h.queue _ (Nat.le_of_eq hconsumed) hlt
  obtain ⟨events, hevents⟩ : ∃ events, m.scheduled[seat.frame]? = some events :=
    ⟨_, List.getElem?_eq_getElem (by rw [h.length_scheduled]; exact hlt)⟩
  have hm' : m'.seats = prepared E m.side events m.seats := by
    show prepared E m.side ((queue.get? seat.frame).getD []) m.seats = _
    rw [hget, hevents]
    rfl
  have hmoves : m'.moves = m.moves ++ [.prepare m.side seat.frame events] := by
    show m.moves ++ [.prepare m.side seat.frame ((queue.get? seat.frame).getD [])] = _
    rw [hget, hevents]
    rfl
  set streams' := Function.update streams m.side m'.scheduled with hstreams'
  have hown : streams' m.side = m.scheduled ++ [fresh] := Function.update_self ..
  have hextends : Extends streams streams' :=
    extends_update (h.own ▸ List.prefix_append m.scheduled [fresh])
  have hbetween : Between E m.seats := h.follows.between hstart
  have hnext : nextMove E streams' m.seats =
      some (.prepare m.side seat.frame events, prepared E m.side events m.seats) := by
    refine nextMove_prepare hbetween hturn hunprepared (hextends.getElem? ?_)
    rw [h.own]
    exact hevents
  have hconsumed' : (m'.seats m.side).consumed = seat.consumed + 1 := by
    rw [hm', consumed_prepared events hunprepared]
  refine ⟨fresh, rfl, rfl, ?_, ?_, ?_⟩
  · refine
      { follows          := ?_
        own              := hown
        delay_pos        := h.delay_pos
        length_scheduled := ?_
        ahead            := ?_
        queue            := fun n hle hlt ↦ ?_
        queue_none       := fun n hlt ↦ ?_
        raised           := ?_
        prefill          := fun n hn ↦ hextends.getElem? (h.prefill n hn)
        inbox            := fun hn ↦ (h.inbox hn).mono hextends
        outbox           := fun hn ↦ ?_
        firstFrames      := ?_
        due              := fun hframe ↦ ?_
        computed         := fun hashed hmem ↦ (h.computed hashed hmem).mono hextends
        received         := fun hashed hmem ↦ (h.received hashed hmem).mono hextends
        pendingHash      := fun _ hsome ↦ by cases hsome
        failure          := h.failure }
    · rw [hm', hmoves]
      exact (h.follows.mono hextends).move hnext
    · show (m.scheduled ++ [fresh]).length = m.nextSendFrame + 1
      rw [List.length_append, List.length_singleton, h.length_scheduled]
    · show m.nextSendFrame + 1 = m.delay + (m'.seats m.side).consumed
      rw [hconsumed', hahead, Nat.add_assoc]
    · have hle' : seat.frame + 1 ≤ n := by
        have := hconsumed' ▸ hle
        omega
      have hlt' : n < m.nextSendFrame + 1 := hlt
      show (queue.filter fun other ↦ decide (other ≠ seat.frame)).get? n =
        (m.scheduled ++ [fresh])[n]?
      rw [OrdMap.get?_filter, if_pos (decide_eq_true (by omega)), hqueue, OrdMap.get?_insert]
      split_ifs with hn
      · rw [hn, ← h.length_scheduled, List.getElem?_concat_length]
      · rw [h.queue n (show seat.consumed ≤ n by omega) (by omega),
          List.getElem?_append_left (by rw [h.length_scheduled]; omega)]
    · have hlt' : m.nextSendFrame + 1 < n := hlt
      show (queue.filter fun other ↦ decide (other ≠ seat.frame)).get? n = none
      rw [OrdMap.get?_filter, if_pos (decide_eq_true (by omega)), hqueue, OrdMap.get?_insert,
        if_neg (by omega)]
      exact h.queue_none n (by omega)
    · have hpending : m'.pending = [] := by
        show ((queue.filter fun other ↦ decide (other ≠ seat.frame)).get?
          (m.nextSendFrame + 1)).getD [] = []
        rw [OrdMap.get?_filter, if_pos (decide_eq_true (by omega)), hqueue, OrdMap.get?_insert,
          if_neg (by omega), h.queue_none _ (Nat.lt_succ_self _)]
        rfl
      rw [hpending, List.append_nil]
      show ((m.scheduled ++ [fresh]).flatten.filter isRaised).Perm (m.raised.filter isRaised)
      rw [List.flatten_append, List.flatten_singleton, hfresh, ← List.append_assoc,
        List.filter_append, show [Packet.changeInput input].filter isRaised = [] from rfl,
        List.append_nil]
      exact h.raised
    · rcases List.mem_append.1 hn with hmem | hmem
      · exact (h.outbox hmem).mono hextends
      · obtain ⟨rfl, rfl⟩ := Prod.mk.inj (List.mem_singleton.1 hmem)
        refine ⟨?_, fun hashed hmem ↦ (h.pendingHash hashed hmem).mono hextends⟩
        show (streams' m.side)[m.nextSendFrame]? = some fresh
        rw [hown, ← h.length_scheduled, List.getElem?_concat_length]
    · rw [hm', frame_prepared]
      exact h.firstFrames
    · rw [hm']
      exact h.due_prepared hdue hframe
  · rw [hm', turnOf_prepared]
    exact hturn
  · rw [hm', prepared, Function.update_self]

/-- The events of a frame of the partner's console have been found. -/
theorem sound_applyReceived {events : List Packet} (h : Sound E start streams m)
    (hstart : Between E start) (hturn : turnOf E m.seats = some m.side.other)
    (hunprepared : (m.seats m.side.other).prepared = false)
    (hevents : (streams m.side.other)[(m.seats m.side.other).frame]? = some events)
    (hdue : m.side.other = .first → m.hashDueAt = none) :
    let m' := m.applyEvents m.side.other E.applyReceived events
    Sound E start streams m' ∧ turnOf E m'.seats = some m.side.other ∧
      (m'.seats m.side.other).prepared = true ∧
      (m'.seats m.side.other).consumed = (m.seats m.side.other).consumed + 1 := by
  intro m'
  have hm' : m'.seats = prepared E m.side.other events m.seats := by
    show Function.update m.seats m.side.other { m.seats m.side.other with
      core := events.foldl E.applyReceived (m.seats m.side.other).core, prepared := true } = _
    rw [show E.applyReceived = E.applyScheduled from
      funext fun c ↦ funext fun packet ↦ applyReceived_eq c packet]
    rfl
  have hnext := nextMove_prepare (h.follows.between hstart) hturn hunprepared hevents
  have hlocal : m'.seats m.side = m.seats m.side := by
    rw [hm', prepared, Function.update_of_ne m.side.ne_other]
  refine ⟨{ h with
    follows     := ?_
    ahead       := ?_
    queue       := fun n hle hlt ↦ ?_
    firstFrames := ?_
    due         := fun hframe ↦ ?_ }, ?_, ?_, ?_⟩
  · rw [hm']
    exact h.follows.move hnext
  · show m.nextSendFrame = m.delay + (m'.seats m.side).consumed
    rw [hlocal]
    exact h.ahead
  · have hle' : (m'.seats m.side).consumed ≤ n := hle
    rw [hlocal] at hle'
    exact h.queue n hle' hlt
  · rw [hm', frame_prepared]
    exact h.firstFrames
  · rw [hm']
    exact h.due_prepared hdue hframe
  · rw [hm', turnOf_prepared]
    exact hturn
  · rw [hm', prepared, Function.update_self]
  · rw [hm', consumed_prepared events hunprepared]

theorem LinkInbox.take_some {inbox inbox' : LinkInbox} {frame : Nat}
    (h : inbox.take frame = some (linkFrame, inbox')) :
    inbox.frames.get? frame = some linkFrame ∧ inbox'.applied = frame + 1 ∧
      inbox'.ended = inbox.ended ∧
      ∀ n, inbox'.frames.get? n = if frame < n then inbox.frames.get? n else none := by
  unfold LinkInbox.take at h
  cases hget : inbox.frames.get? frame with
  | none => rw [hget] at h; cases h
  | some found =>
    rw [hget] at h
    obtain ⟨rfl, rfl⟩ := Prod.mk.inj (Option.some.inj h)
    refine ⟨rfl, rfl, rfl, fun n ↦ ?_⟩
    dsimp only
    rw [OrdMap.get?_filter]
    by_cases hlt : frame < n
    · rw [if_pos (decide_eq_true hlt), if_pos hlt]
    · rw [if_neg (by rwa [decide_eq_true_eq]), if_neg hlt]

/-- What the partner's machine scheduled for the frame that is about to run. -/
theorem sound_partnerLinkFrame {inbox : LinkInbox} (h : Sound E start streams m)
    (hframe : m.partnerLinkFrame = some (linkFrame, inbox)) :
    Sound E start streams { m with inbox } ∧
      Carries E start streams m.side.other (m.seats m.side.other).frame linkFrame ∧
      ∀ n, (m.seats m.side.other).frame < n →
        inbox.frames.get? n = m.inbox.frames.get? n := by
  unfold Machine.partnerLinkFrame at hframe
  dsimp only at hframe
  split_ifs at hframe with hprefill
  · obtain ⟨rfl, rfl⟩ := Prod.mk.inj (Option.some.inj hframe)
    exact ⟨h, ⟨h.prefill _ hprefill, fun _ h ↦ nomatch h⟩, fun _ _ ↦ rfl⟩
  · obtain ⟨hfound, -, -, hget⟩ := LinkInbox.take_some hframe
    have hmore {n : Nat} {linkFrame : LinkFrame} (hn : inbox.frames.get? n = some linkFrame) :
        m.inbox.frames.get? n = some linkFrame := by
      rw [hget] at hn
      split_ifs at hn
      exact hn
    exact ⟨{ h with inbox := fun hn ↦ h.inbox (hmore hn) }, h.inbox hfound,
      fun n hlt ↦ by rw [hget, if_pos hlt]⟩

/-- A link frame whose hash is what this machine computed is ready. -/
theorem applyLinkFrame_of_matched {linkFrame : LinkFrame} {hash : _} {noted : Machine C}
    (hpair : linkFrame.pairHash = some hash)
    (hnoted : noted = { m.applyEvents m.side.other E.applyReceived linkFrame.events with
      partnerMillis := max linkFrame.elapsedMillis
        (m.applyEvents m.side.other E.applyReceived linkFrame.events).partnerMillis
      receivedHashes :=
        (m.applyEvents m.side.other E.applyReceived linkFrame.events).receivedHashes ++ [hash] })
    (hnone : noted.linkMatchHashes.1 = none) :
    m.applyLinkFrame E linkFrame = (.ok .ready, noted.linkMatchHashes.2) := by
  subst hnoted
  rw [Machine.applyLinkFrame, hpair]
  dsimp only at hnone ⊢
  split
  · rename_i hmatched
    rw [hmatched] at hnone
    cases hnone
  · rename_i hmatched
    rw [hmatched]

section

variable (h : Sound E start streams m) (hstart : Between E start)
    (hturn : turnOf E m.seats = some m.side.other)
    (hunprepared : (m.seats m.side.other).prepared = false)
include h hstart hturn hunprepared

theorem sound_applyLinkFrame
    (hcarries : Carries E start streams m.side.other (m.seats m.side.other).frame linkFrame)
    (hdue : m.side.other = .first → m.hashDueAt = none) :
    let result := m.applyLinkFrame E linkFrame
    result.1 = .ok .ready ∧ Sound E start streams result.2 ∧ Quiet m result.2 ∧
      turnOf E result.2.seats = some m.side.other ∧
      (result.2.seats m.side.other).prepared = true ∧
      (result.2.seats m.side.other).consumed = (m.seats m.side.other).consumed + 1 ∧
      result.2.hashDueAt = m.hashDueAt := by
  intro result
  obtain ⟨hsound, hturn', hprepared, hconsumed⟩ :=
    sound_applyReceived h hstart hturn hunprepared hcarries.events hdue
  set applied := m.applyEvents m.side.other E.applyReceived linkFrame.events with happlied
  cases hpair : linkFrame.pairHash with
  | none =>
    have hresult : result = (.ok .ready,
        { applied with partnerMillis := max linkFrame.elapsedMillis applied.partnerMillis }) := by
      show m.applyLinkFrame E linkFrame = _
      rw [Machine.applyLinkFrame, hpair]
    rw [hresult]
    exact ⟨rfl, { hsound with },
      ⟨rfl, rfl, rfl, rfl, rfl, rfl, hconsumed ▸ Nat.le_succ _, fun _ _ ↦ rfl⟩, hturn', hprepared,
      hconsumed, rfl⟩
  | some hash =>
    set noted : Machine C := { applied with
      partnerMillis  := max linkFrame.elapsedMillis applied.partnerMillis
      receivedHashes := applied.receivedHashes ++ [hash] } with hnoted
    have hnotes : Sound E start streams noted := by
      refine { hsound with received := fun hashed hmem ↦ ?_ }
      rcases List.mem_append.1 hmem with hmem | hmem
      · exact hsound.received _ hmem
      · rw [List.mem_singleton.1 hmem]
        exact hcarries.hash hash hpair
    obtain ⟨hnone, hmatched⟩ := sound_linkMatchHashes hnotes hstart
    have hresult : result = (.ok .ready, noted.linkMatchHashes.2) := by
      exact applyLinkFrame_of_matched hpair rfl hnone
    rw [hresult]
    exact ⟨rfl, hmatched, ⟨rfl, rfl, rfl, rfl, rfl, rfl, hconsumed ▸ Nat.le_succ _, fun _ _ ↦ rfl⟩,
      hturn', hprepared, hconsumed, rfl⟩

/-- **The partner's frame**: what is applied is what the partner's machine scheduled for it, and the
pair hash that comes with it matches. -/
theorem sound_linkPreparePartnerFrame (hdue : m.side.other = .first → m.hashDueAt = none) :
    let result := m.linkPreparePartnerFrame E
    (m.partnerLinkFrame = none ∧
        result = (.ok (if m.inbox.ended then .ended else .waiting), m)) ∨
      (result.1 = .ok .ready ∧ Sound E start streams result.2 ∧ Quiet m result.2 ∧
        turnOf E result.2.seats = some m.side.other ∧
        (result.2.seats m.side.other).prepared = true ∧
        result.2.hashDueAt = m.hashDueAt) := by
  intro result
  cases hframe : m.partnerLinkFrame with
  | none =>
    left
    refine ⟨rfl, ?_⟩
    show m.linkPreparePartnerFrame E = _
    rw [Machine.linkPreparePartnerFrame, hframe]
  | some found =>
    right
    obtain ⟨linkFrame, inbox⟩ := found
    obtain ⟨hsound, hcarries, hinbox⟩ := sound_partnerLinkFrame h hframe
    have hresult : result = { m with inbox }.applyLinkFrame E linkFrame := by
      show m.linkPreparePartnerFrame E = _
      rw [Machine.linkPreparePartnerFrame, hframe]
    rw [hresult]
    obtain ⟨hready, hsound', hquiet, hturn', hprepared, hconsumed, hsame⟩ :=
      sound_applyLinkFrame hsound hstart hturn hunprepared hcarries hdue
    refine ⟨hready, hsound', { hquiet with inbox := fun n hn ↦ ?_ }, hturn', hprepared, hsame⟩
    have hframe : (m.seats m.side.other).consumed = (m.seats m.side.other).frame := by
      rw [Seat.consumed, hunprepared]
      rfl
    rw [hquiet.inbox n hn]
    exact hinbox n (by have := hconsumed ▸ hn; dsimp only at this; omega)

end

/-! ## Steps -/

theorem nextMove_step {seats : Side → Seat C} {frames : Nat} {core other : C}
    (hturn : turnOf E seats = some side) (hprepared : (seats side).prepared = true)
    (hstep : E.stepLinked (seats side).core (seats side.other).core = .ok (frames, core, other)) :
    nextMove E streams seats =
      some (.step side frames, stepped side frames core other seats) := by
  have hcond : ¬Unprepared E seats side = true := by
    rw [Unprepared, hprepared, Bool.not_true, Bool.and_false]
    exact Bool.false_ne_true
  rw [nextMove, hturn]
  dsimp only
  rw [if_neg hcond, hstep]

theorem consumed_stepped {frames : Nat} {core other : C} {seats : Side → Seat C}
    (hprepared : (seats side).prepared = true) (hle : frames ≤ 1) (side' : Side) :
    (stepped side frames core other seats side').consumed = (seats side').consumed := by
  rcases side.eq_or_eq_other side' with rfl | rfl
  · rw [stepped, Function.update_self, Seat.consumed, Seat.consumed, hprepared]
    by_cases hframes : frames = 0
    · rw [if_pos hframes, hframes]
      rfl
    · rw [if_neg hframes, if_neg Bool.false_ne_true, if_pos rfl]
      dsimp only
      omega
  · rw [stepped, Function.update_of_ne side.ne_other.symm, Function.update_self]
    rfl

/-- A step, and the count of the first console's frames. -/
theorem sound_linkStep {due : Bool} {frames : Nat} (h : Sound E start streams m)
    (hturn : turnOf E m.seats = some side) (hprepared : (m.seats side).prepared = true)
    (hdue : side = .first → m.hashDueAt = none) (hstep : m.linkStep E side due = .ok (frames, m')) :
    Sound E start streams (m'.noteFrames side frames) ∧ Quiet m (m'.noteFrames side frames) := by
  unfold Machine.linkStep at hstep
  cases due with
  | false =>
    obtain ⟨rfl, rfl⟩ := Prod.mk.inj (Except.ok.inj hstep)
    exact ⟨h, .refl m⟩
  | true =>
    rw [if_pos rfl] at hstep
    cases hrun : E.stepLinked (m.seats side).core (m.seats side.other).core with
    | error e => rw [hrun] at hstep; cases hstep
    | ok result =>
      obtain ⟨frames', core, other⟩ := result
      rw [hrun] at hstep
      obtain ⟨rfl, rfl⟩ := Prod.mk.inj (Except.ok.inj hstep)
      have hle := E.frames_le hrun
      have hfollows := h.follows.move (nextMove_step hturn hprepared hrun)
      set seats := stepped side frames' core other m.seats with hseats
      have hconsumed : (seats m.side).consumed = (m.seats m.side).consumed :=
        consumed_stepped hprepared hle m.side
      have hother : (m.seats m.side.other).consumed ≤ (seats m.side.other).consumed :=
        Nat.le_of_eq (consumed_stepped hprepared hle m.side.other).symm
      by_cases hcounts : 0 < frames' ∧ side = .first
      · obtain ⟨hpos, rfl⟩ := hcounts
        obtain rfl : frames' = 1 := by omega
        have hfirst : seats .first = ⟨core, (m.seats .first).frame + 1, false⟩ :=
          Function.update_self ..
        refine ⟨?_, ⟨rfl, rfl, rfl, rfl, rfl, rfl, hother, fun _ _ ↦ rfl⟩⟩
        show Sound E start streams { m with
          seats, moves := m.moves ++ [.step .first 1], firstFrames := m.firstFrames + 1
          hashDueAt := if (m.firstFrames + 1) % pairHashIntervalFrames = 0
            then some (m.firstFrames + 1) else m.hashDueAt }
        refine { h with
          follows     := hfollows
          ahead       := hconsumed ▸ h.ahead
          queue       := fun n hn ↦ h.queue n (hconsumed ▸ hn)
          firstFrames := ?_
          due         := fun hframe ↦ ?_ }
        · show m.firstFrames + 1 = (seats .first).frame
          rw [hfirst, h.firstFrames]
        · show (seats .first).frame = _ ∧ (seats .first).prepared = false
          rw [hfirst]
          dsimp only at hframe ⊢
          rw [hdue rfl, h.firstFrames] at hframe
          split_ifs at hframe
          exact ⟨Option.some.inj hframe, rfl⟩
      · have hfirst : (seats .first).frame = (m.seats .first).frame ∧
            (side ≠ .first → (seats .first).prepared = (m.seats .first).prepared) := by
          cases side with
          | first =>
            have hzero : frames' = 0 := by
              by_contra hne
              exact hcounts ⟨by omega, rfl⟩
            refine ⟨?_, fun hne ↦ absurd rfl hne⟩
            rw [hseats, stepped, Function.update_self, hzero]
            rfl
          | second => exact ⟨rfl, fun _ ↦ rfl⟩
        rw [Machine.noteFrames, if_neg hcounts]
        refine ⟨{ h with
          follows     := hfollows
          ahead       := hconsumed ▸ h.ahead
          queue       := fun n hn ↦ h.queue n (hconsumed ▸ hn)
          firstFrames := ?_
          due         := fun hframe ↦ ?_ },
          ⟨rfl, rfl, rfl, rfl, rfl, rfl, hother, fun _ _ ↦ rfl⟩⟩
        · show m.firstFrames = (seats .first).frame
          rw [hfirst.1, h.firstFrames]
        · show (seats .first).frame = _ ∧ (seats .first).prepared = false
          have hside : side ≠ .first := by
            rintro rfl
            rw [show m.hashDueAt = none from hdue rfl] at hframe
            cases hframe
          rw [hfirst.1, hfirst.2 hside]
          exact h.due hframe

/-! ## Calls -/

/-- A machine has gone on from `m`, and sent the frames that it has scheduled. -/
structure GoesOn (E : LinkedCore C) (start : Side → Seat C) (streams : Streams)
    (m m' : Machine C) : Prop where
  side : m'.side = m.side
  delay : m'.delay = m.delay
  raised : m'.raised = m.raised
  scheduled : m.scheduled <+: m'.scheduled
  outbox : ∃ sent, m'.outbox = m.outbox ++ sent ∧
    sent.map Prod.fst = List.range' m.nextSendFrame sent.length ∧
    m'.nextSendFrame = m.nextSendFrame + sent.length
  consumed_le : (m.seats m.side.other).consumed ≤ (m'.seats m.side.other).consumed
  inbox : ∀ n, (m'.seats m.side.other).consumed ≤ n → m'.inbox.frames.get? n = m.inbox.frames.get? n
  sound : Sound E start (Function.update streams m.side m'.scheduled) m'

theorem Sound.update_own (h : Sound E start streams m) :
    Function.update streams m.side m.scheduled = streams := by
  rw [← h.own, Function.update_eq_self]

/-- A machine that has scheduled nothing. -/
theorem Quiet.goesOn (h : Quiet m m') (hm : Sound E start streams m)
    (hsound : Sound E start streams m') : GoesOn E start streams m m' :=
  ⟨h.side, h.delay, h.raised, h.scheduled ▸ List.prefix_rfl,
    ⟨[], by rw [h.outbox, List.append_nil], rfl, h.nextSendFrame⟩, h.consumed_le, h.inbox,
    by rwa [h.scheduled, hm.update_own]⟩

theorem GoesOn.trans {m'' : Machine C} (h : GoesOn E start streams m m')
    (h' : GoesOn E start (Function.update streams m.side m'.scheduled) m' m'') :
    GoesOn E start streams m m'' := by
  obtain ⟨sent, hsent, hnumbers, hnext⟩ := h.outbox
  obtain ⟨sent', hsent', hnumbers', hnext'⟩ := h'.outbox
  have hle := h'.consumed_le
  have hinbox := h'.inbox
  have hsound := h'.sound
  rw [h.side] at hle hinbox hsound
  refine ⟨h'.side.trans h.side, h'.delay.trans h.delay, h'.raised.trans h.raised,
    h.scheduled.trans h'.scheduled,
    ⟨sent ++ sent', ?_, ?_, ?_⟩, Nat.le_trans h.consumed_le hle,
    fun n hn ↦ (hinbox n hn).trans (h.inbox n (Nat.le_trans hle hn)), ?_⟩
  · rw [hsent', hsent, List.append_assoc]
  · rw [List.map_append, hnumbers, hnumbers', hnext, List.length_append, List.range'_append_1]
  · rw [hnext', hnext, List.length_append, Nat.add_assoc]
  · rwa [Function.update_idem] at hsound

theorem Quiet.goesOn_trans {m'' : Machine C} (h : Quiet m m') (hm : Sound E start streams m)
    (hsound : Sound E start streams m') (h' : GoesOn E start streams m' m'') :
    GoesOn E start streams m m'' :=
  (h.goesOn hm hsound).trans (by rwa [h.scheduled, hm.update_own])

theorem sound_fail {failure : LinkFailure} (h : Sound E start streams m)
    (hfailure : ∀ frame, failure ≠ .pairHashMismatch frame) :
    Sound E start streams (m.fail failure).2 :=
  { h with failure := fun frame hmismatch ↦ hfailure frame (Option.some.inj hmismatch) }

theorem sound_stalled {stalled : Bool} (h : Sound E start streams m) :
    Sound E start streams { m with stalled } :=
  { h with }

theorem prepared_of_not_unprepared (hbetween : Between E m.seats)
    (h : ¬m.unprepared E side = true) : (m.seats side).prepared = true := by
  cases hprepared : (m.seats side).prepared with
  | true => rfl
  | false =>
    refine absurd ?_ h
    rw [Machine.unprepared, hbetween side hprepared, hprepared]
    rfl

theorem not_prepared_of_unprepared (h : m.unprepared E side = true) :
    (m.seats side).prepared = false := by
  rw [Machine.unprepared, Bool.and_eq_true, Bool.not_eq_true', Bool.not_eq_true'] at h
  exact h.2

theorem side_linkStep {due : Bool} {frames : Nat} (h : m.linkStep E side due = .ok (frames, m')) :
    m'.side = m.side := by
  unfold Machine.linkStep at h
  split_ifs at h
  · split at h
    · cases h
    · obtain ⟨-, rfl⟩ := Prod.mk.inj (Except.ok.inj h)
      rfl
  · obtain ⟨-, rfl⟩ := Prod.mk.inj (Except.ok.inj h)
    rfl

/-- Preparing the local console's frame, if that is to be done. -/
theorem goesOn_prepareLocal (input : Bytes) (clock : TimestampMillis) (h : Sound E start streams m)
    (hstart : Between E start) (hturn : turnOf E m.seats = some m.side)
    (hdue : m.side = .first → m.hashDueAt = none) :
    let m' := if m.unprepared E m.side then m.linkPrepareLocalFrame E input clock else m
    GoesOn E start streams m m' ∧ turnOf E m'.seats = some m.side ∧
      (m'.seats m.side).prepared = true ∧ m'.hashDueAt = m.hashDueAt := by
  dsimp only
  split_ifs with hunprepared
  · obtain ⟨events, hscheduled, hside, hsound, hturn', hprepared⟩ :=
      sound_linkPrepareLocalFrame input clock h hstart hturn
        (not_prepared_of_unprepared hunprepared) hdue
    have hother : (m.linkPrepareLocalFrame E input clock).seats m.side.other =
        m.seats m.side.other := Function.update_of_ne m.side.ne_other.symm ..
    exact ⟨⟨hside, rfl, rfl, hscheduled ▸ List.prefix_append _ _, ⟨[_], rfl, rfl, rfl⟩,
      by rw [hother], fun _ _ ↦ rfl, hsound⟩, hturn', hprepared, rfl⟩
  · exact ⟨(Quiet.refl m).goesOn h h, hturn,
      prepared_of_not_unprepared (h.follows.between hstart) hunprepared, rfl⟩

/-- Failing, or noting a stall, leaves the run alone. -/
theorem quiet_ended (m : Machine C) (failure : Option LinkFailure) (stalled : Bool) :
    Quiet m { m with failure, stalled } :=
  ⟨rfl, rfl, rfl, rfl, rfl, rfl, Nat.le_refl _, fun _ _ ↦ rfl⟩

theorem goesOn_localTurn (due : Bool) (input : Bytes) (clock : TimestampMillis)
    (partnerFrames : Nat) (h : Sound E start streams m) (hstart : Between E start)
    (hturn : turnOf E m.seats = some m.side) (hdue : m.side = .first → m.hashDueAt = none) :
    GoesOn E start streams m (m.localTurn E due input clock partnerFrames).2 := by
  obtain ⟨hgoes, hturn', hprepared, hsame⟩ := goesOn_prepareLocal input clock h hstart hturn hdue
  unfold Machine.localTurn
  dsimp only
  set begun := if m.unprepared E m.side then m.linkPrepareLocalFrame E input clock else m
  have hside := hgoes.side
  cases hstep : begun.linkStep E begun.side due with
  | error e =>
    exact hgoes.trans ((quiet_ended begun _ _).goesOn hgoes.sound
      (sound_fail hgoes.sound fun _ h ↦ nomatch h))
  | ok result =>
    obtain ⟨frames, m'⟩ := result
    obtain ⟨hsound, hquiet⟩ := sound_linkStep hgoes.sound (by rw [hside]; exact hturn')
      (by rw [hside]; exact hprepared) (by rw [hside, hsame]; exact hdue) hstep
    dsimp only
    rw [side_linkStep hstep]
    exact hgoes.trans ((hquiet.trans (quiet_ended _ _ _)).goesOn hgoes.sound
      (sound_stalled hsound))

theorem localTurn_ne_stalled (due : Bool) (input : Bytes) (clock : TimestampMillis)
    (partnerFrames : Nat) (m : Machine C) :
    (m.localTurn E due input clock partnerFrames).1 ≠ .stalled := by
  unfold Machine.localTurn
  dsimp only
  split
  · exact nofun
  · exact nofun

theorem sound_partnerStep (h : Sound E start streams m)
    (hturn : turnOf E m.seats = some m.side.other)
    (hprepared : (m.seats m.side.other).prepared = true)
    (hdue : m.side.other = .first → m.hashDueAt = none) :
    Sound E start streams (m.partnerStep E).2 ∧ Quiet m (m.partnerStep E).2 := by
  unfold Machine.partnerStep
  cases hstep : m.linkStep E m.side.other true with
  | error e => exact ⟨sound_fail h (fun _ h ↦ nomatch h), quiet_ended m _ _⟩
  | ok result =>
    obtain ⟨frames, m'⟩ := result
    dsimp only
    rw [side_linkStep hstep]
    exact sound_linkStep h hturn hprepared hdue hstep

theorem partnerStep_ne_stalled (m : Machine C) : (m.partnerStep E).1 ≠ .inr .stalled := by
  unfold Machine.partnerStep
  split
  · exact nofun
  · exact nofun

/-- The partner's next link frame is missing. -/
structure Waiting (m : Machine C) : Prop where
  prepared : (m.seats m.side.other).prepared = false
  missing : m.partnerLinkFrame = none

/-- The turn of the partner's console stalls only if its link frame is missing. -/
theorem sound_partnerTurn (h : Sound E start streams m) (hstart : Between E start)
    (hturn : turnOf E m.seats = some m.side.other)
    (hdue : m.side.other = .first → m.hashDueAt = none) :
    Sound E start streams (m.partnerTurn E).2 ∧ Quiet m (m.partnerTurn E).2 ∧
      ((m.partnerTurn E).1 = .inr .stalled → Waiting (m.partnerTurn E).2) := by
  unfold Machine.partnerTurn
  split_ifs with hunprepared
  · have hnot := not_prepared_of_unprepared hunprepared
    rcases sound_linkPreparePartnerFrame h hstart hturn hnot hdue with
      ⟨hmissing, hwaits⟩ | ⟨hready, hsound, hquiet, hturn', hprepared, hsame⟩
    · rw [hwaits]
      cases m.inbox.ended with
      | true => exact ⟨sound_fail h (fun _ h ↦ nomatch h), quiet_ended m _ _, (nomatch ·)⟩
      | false => exact ⟨sound_stalled h, quiet_ended m _ _, fun _ ↦ ⟨hnot, hmissing⟩⟩
    · generalize m.linkPreparePartnerFrame E = result at *
      obtain ⟨found, m'⟩ := result
      obtain rfl : found = .ok .ready := hready
      dsimp only at *
      rw [← hquiet.side] at hturn' hprepared hdue
      obtain ⟨hsound', hquiet'⟩ := sound_partnerStep hsound hturn' hprepared (hsame ▸ hdue)
      exact ⟨hsound', hquiet.trans hquiet',
        fun hstalled ↦ absurd hstalled (partnerStep_ne_stalled m')⟩
  · obtain ⟨hsound, hquiet⟩ := sound_partnerStep h hturn
      (prepared_of_not_unprepared (h.follows.between hstart) hunprepared) hdue
    exact ⟨hsound, hquiet, fun hstalled ↦ absurd hstalled (partnerStep_ne_stalled m)⟩

theorem goesOn_turns (due : Bool) (input : Bytes) (clock : TimestampMillis)
    (fuel partnerFrames : Nat) (h : Sound E start streams m) (hstart : Between E start) :
    let result := m.turns E due input clock fuel partnerFrames
    GoesOn E start streams m result.2 ∧
      (result.1 = .stalled → Sound E start streams result.2 ∧ Quiet m result.2 ∧
        Waiting result.2) := by
  induction fuel generalizing partnerFrames m with
  | zero =>
    exact ⟨(quiet_ended m _ _).goesOn h (sound_fail h fun _ h ↦ nomatch h), (nomatch ·)⟩
  | succ fuel ih =>
    unfold Machine.turns
    cases hruns : E.secondRunsNext (m.seats .first).core (m.seats .second).core with
    | error e =>
      exact ⟨(quiet_ended m _ _).goesOn h (sound_fail h fun _ h ↦ nomatch h), (nomatch ·)⟩
    | ok secondRuns =>
      have hturn := turnOf_eq hruns
      obtain ⟨hnone, hsound, hquiet, hseats, hdue⟩ := sound_takeDueHash h hstart hturn
      dsimp only
      generalize m.takeDueHash E secondRuns = result at hnone hsound hquiet hseats hdue
      obtain ⟨found, m'⟩ := result
      obtain rfl : found = none := hnone
      dsimp only at hsound hquiet hseats hdue ⊢
      rw [← hseats] at hturn
      have hnotDue : (if secondRuns then Side.second else .first) = .first →
          m'.hashDueAt = none := by
        cases secondRuns with
        | false => exact fun _ ↦ hdue rfl
        | true => exact (nomatch ·)
      by_cases hlocal : (if secondRuns then Side.second else .first) = m'.side
      · rw [if_pos hlocal]
        rw [hlocal] at hturn hnotDue
        have hgoes := goesOn_localTurn due input clock partnerFrames hsound hstart hturn hnotDue
        exact ⟨hquiet.goesOn_trans h hsound hgoes, fun hstalled ↦
          absurd hstalled (localTurn_ne_stalled due input clock partnerFrames m')⟩
      · rw [if_neg hlocal]
        have hother : (if secondRuns then Side.second else .first) = m'.side.other :=
          (m'.side.eq_or_eq_other _).resolve_left hlocal
        rw [hother] at hturn hnotDue
        obtain ⟨hsound', hquiet', hwaiting⟩ := sound_partnerTurn hsound hstart hturn hnotDue
        replace hquiet := hquiet.trans hquiet'
        generalize m'.partnerTurn E = result at hsound' hquiet hwaiting
        obtain ⟨frames | outcome, m''⟩ := result
        · obtain ⟨hgoes, hwaits⟩ := ih (partnerFrames + frames) hsound'
          exact ⟨hquiet.goesOn_trans h hsound' hgoes,
            fun hstalled ↦ (hwaits hstalled).imp_right (.imp_left hquiet.trans)⟩
        · exact ⟨hquiet.goesOn h hsound',
            fun hstalled ↦ ⟨hsound', hquiet, hwaiting (congrArg Sum.inr hstalled)⟩⟩

/-- **Whatever a call of `run_linked` does**, the machine follows the course of the pair. -/
theorem goesOn_runLinked (due : Bool) (input : Bytes) (clock : TimestampMillis)
    (h : Sound E start streams m) (hstart : Between E start) :
    GoesOn E start streams m (m.runLinked E due input clock).2 := by
  unfold Machine.runLinked
  cases m.failure with
  | some failure => exact (Quiet.refl m).goesOn h h
  | none => exact (goesOn_turns due input clock Machine.maxSteps 0 h hstart).1

/-- A call that stalls has scheduled nothing, and ends waiting. -/
theorem waiting_runLinked {due : Bool} {input : Bytes} {clock : TimestampMillis}
    (h : Sound E start streams m) (hstart : Between E start)
    (hstalled : (m.runLinked E due input clock).1 = .stalled) :
    Sound E start streams (m.runLinked E due input clock).2 ∧
      Quiet m (m.runLinked E due input clock).2 ∧ Waiting (m.runLinked E due input clock).2 := by
  unfold Machine.runLinked at hstalled ⊢
  cases hfailure : m.failure with
  | some failure =>
    rw [hfailure] at hstalled
    cases hstalled
  | none =>
    rw [hfailure] at hstalled
    exact (goesOn_turns due input clock Machine.maxSteps 0 h hstart).2 hstalled

end Lockstep

end SuperShuckie
