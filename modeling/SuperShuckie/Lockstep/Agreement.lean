import SuperShuckie.Lib.Runs
import SuperShuckie.Lockstep.Sound

/-!
# Two machines in lockstep

Two machines run the same pair of consoles, each with another of the consoles as its own, and send
each other their link frames.  Anything may happen at any time: calls of `run_linked` on either
machine, writes and resets, the arrival of a link frame, the end of a connection.

Whatever happens, the two machines do the same things with the pair, as far as both have come: what
one of them has done is what the other one has done so far, or a beginning of it
(`machines_agree`).
-/

set_option autoImplicit false

namespace SuperShuckie

namespace Lockstep

open ByteFormat

/-- Two machines, and what each has sent that has not arrived. -/
structure System (C : Type) where
  machine : Side → Machine C

/-- Something happens on one of the machines. -/
inductive Event
  /-- A call of `run_linked`, with the input of the moment. -/
  | run (side : Side) (due : Bool) (input : Bytes) (clock : TimestampMillis)
  | write (side : Side) (address : UnsignedInteger) (data : Bytes)
  | reset (side : Side)
  /-- The next link frame that the other machine sent arrives. -/
  | deliver (side : Side)
  /-- The other machine is gone. -/
  | hangUp (side : Side)

namespace System

variable {C : Type} (E : LinkedCore C)

/-- Change one of the machines. -/
def change (side : Side) (f : Machine C → Machine C) (s : System C) : System C :=
  ⟨Function.update s.machine side (f (s.machine side))⟩

/-- A link frame arrives. -/
def arrive (side : Side) (sent : Nat × LinkFrame) (outbox : List (Nat × LinkFrame))
    (s : System C) : System C :=
  (s.change side.other fun m ↦ { m with outbox }).change side fun m ↦
    { m with inbox := m.inbox.push sent.1 sent.2 }

def step : Event → System C → System C
  | .run side due input clock, s =>
    s.change side fun m ↦ (m.runLinked E due input clock).2
  | .write side address data, s => s.change side fun m ↦ m.schedule (.writeMemory address data)
  | .reset side, s => s.change side fun m ↦ m.schedule .resetConsole
  | .deliver side, s =>
    match (s.machine side.other).outbox with
    | [] => s
    | sent :: outbox => s.arrive side sent outbox
  | .hangUp side, s => s.change side fun m ↦ { m with inbox := { m.inbox with ended := true } }

/-- The cable has gone in on both machines, at the same delay, between the same consoles. -/
def Plugged (first second : C) (delay : Nat) (inputs : Side → Bytes)
    (clocks : Side → TimestampMillis) (heldWrites : Side → List Packet) (s : System C) : Prop :=
  ∀ side, Machine.beginLink side first second delay (inputs side) (inputs side.other)
    (clocks side) (heldWrites side) = .ok (s.machine side)

/-- The events of the link frames that both machines have scheduled. -/
def streams (s : System C) : Streams := fun side ↦ (s.machine side).scheduled

end System

variable {C : Type} {E : LinkedCore C} {start : Side → Seat C} {s : System C}

/-- Both machines follow the course of the pair. -/
structure InLockstep (E : LinkedCore C) (start : Side → Seat C) (s : System C) : Prop where
  side : ∀ side, (s.machine side).side = side
  sound : ∀ side, Sound E start s.streams (s.machine side)

/-! ## The beginning -/

theorem get?_prefill (delay : Nat) (input : Bytes) (n : Nat) :
    (OrdMap.ofList (Machine.prefill delay input)).get? n =
      if n < delay then some [.changeInput input] else none := by
  unfold OrdMap.ofList Machine.prefill
  induction delay with
  | zero => rfl
  | succ delay ih =>
    rw [List.range_succ, List.map_append, List.foldl_append, List.map_singleton, List.foldl_cons,
      List.foldl_nil, OrdMap.get?_insert, ih]
    split_ifs <;> first | rfl | omega

theorem between_start_of {first second : C} (hfirst : E.isMidFrame first = false)
    (hsecond : E.isMidFrame second = false) : Between E (Machine.start first second) :=
  fun side _ ↦ match side with
    | .first => hfirst
    | .second => hsecond

variable {streams : Streams} {side : Side}

/-- Writes held back go to the first frame that can be scheduled. -/
theorem sound_heldWrites {m : Machine C} (heldWrites : List Packet) (h : Sound E start streams m) :
    let m' := heldWrites.foldl (fun m packet ↦ m.schedule packet) m
    Sound E start streams m' ∧ m'.side = m.side ∧ m'.scheduled = m.scheduled ∧
      m'.raised = m.raised ++ heldWrites := by
  induction heldWrites generalizing m with
  | nil => exact ⟨h, rfl, rfl, (List.append_nil _).symm⟩
  | cons packet heldWrites ih =>
    obtain ⟨hsound, hside, hscheduled, hraised⟩ := ih (sound_schedule packet h)
    exact ⟨hsound, hside, hscheduled, hraised.trans (List.append_assoc ..)⟩

/-- What is scheduled on both machines when the cable goes in. -/
def startStreams (delay : Nat) (inputs : Side → Bytes) : Streams :=
  fun side ↦ .replicate delay [.changeInput (inputs side)]

theorem sound_plugged (side : Side) (first second : C) {delay : Nat} (inputs : Side → Bytes)
    (clock : TimestampMillis) (hdelay : 0 < delay) :
    Sound E (Machine.start first second) (startStreams delay inputs)
      (Machine.plugged side first second delay (inputs side) (inputs side.other) clock) := by
  have hfresh (side' : Side) : (Machine.start first second side').consumed = 0 := by
    cases side' <;> rfl
  refine
    { follows          := .start
      own              := rfl
      delay_pos        := hdelay
      length_scheduled := List.length_replicate
      ahead            := ?_
      queue            := fun n _ hlt ↦ ?_
      queue_none       := fun n hlt ↦ ?_
      raised           := ?_
      prefill          := fun n hlt ↦ ?_
      inbox            := fun hget ↦ nomatch hget
      outbox           := fun hmem ↦ absurd hmem List.not_mem_nil
      firstFrames      := rfl
      due              := (nomatch ·)
      computed         := (nomatch ·, ·)
      received         := (nomatch ·, ·)
      pendingHash      := (nomatch ·, ·)
      failure          := fun _ ↦ nofun }
  · show delay = delay + (Machine.start first second side).consumed
    rw [hfresh]
    rfl
  · have hlt' : n < delay := hlt
    show (OrdMap.ofList (Machine.prefill delay (inputs side))).get? n =
      (List.replicate delay [Packet.changeInput (inputs side)])[n]?
    rw [get?_prefill, if_pos hlt', List.getElem?_replicate, if_pos hlt']
  · have hlt' : delay < n := hlt
    show (OrdMap.ofList (Machine.prefill delay (inputs side))).get? n = none
    rw [get?_prefill, if_neg (by omega)]
  · show (((List.replicate delay [Packet.changeInput (inputs side)]).flatten ++
      ((OrdMap.ofList (Machine.prefill delay (inputs side))).get? delay).getD []).filter
        isRaised).Perm []
    rw [get?_prefill, if_neg (Nat.lt_irrefl delay), Option.getD_none, List.append_nil]
    refine List.Perm.of_eq (List.filter_eq_nil_iff.2 fun packet hmem ↦ ?_)
    obtain ⟨events, hevents, hpacket⟩ := List.mem_flatten.1 hmem
    rw [List.eq_of_mem_replicate hevents, List.mem_singleton] at hpacket
    rw [hpacket]
    exact Bool.false_ne_true
  · have hlt' : n < delay := hlt
    show (List.replicate delay [Packet.changeInput (inputs side.other)])[n]? = _
    rw [List.getElem?_replicate, if_pos hlt']
    rfl

/-- Plugged in, the machines are in lockstep. -/
theorem inLockstep_start {first second : C} {delay : Nat} {inputs : Side → Bytes}
    {clocks : Side → TimestampMillis} {heldWrites : Side → List Packet}
    (h : s.Plugged first second delay inputs clocks heldWrites) :
    InLockstep E (Machine.start first second) s ∧ s.streams = startStreams delay inputs ∧
      ∀ side, (s.machine side).raised = heldWrites side := by
  have hside (side : Side) : Sound E (Machine.start first second) (startStreams delay inputs)
      (s.machine side) ∧ (s.machine side).side = side ∧
      (s.machine side).scheduled = startStreams delay inputs side ∧
      (s.machine side).raised = heldWrites side := by
    have hbegun := h side
    unfold Machine.beginLink at hbegun
    split_ifs at hbegun with hdelay
    obtain ⟨hsound, hside, hscheduled, hraised⟩ := sound_heldWrites (heldWrites side)
      (sound_plugged (E := E) side first second inputs (clocks side) (Nat.pos_of_ne_zero hdelay))
    rw [Except.ok.inj hbegun] at hsound hside hscheduled hraised
    exact ⟨hsound, hside, hscheduled, hraised⟩
  have hstreams : s.streams = startStreams delay inputs := funext fun side ↦ (hside side).2.2.1
  exact ⟨⟨fun side ↦ (hside side).2.1, fun side ↦ hstreams ▸ (hside side).1⟩, hstreams,
    fun side ↦ (hside side).2.2.2⟩

/-! ## One event -/

theorem streams_change (side : Side) (f : Machine C → Machine C) (s : System C) :
    (s.change side f).streams =
      Function.update s.streams side (f (s.machine side)).scheduled := by
  funext side'
  rcases side.eq_or_eq_other side' with rfl | rfl
  · show (Function.update s.machine side' (f (s.machine side')) side').scheduled = _
    rw [Function.update_self, Function.update_self]
  · show (Function.update s.machine side (f (s.machine side)) side.other).scheduled = _
    rw [Function.update_of_ne side.ne_other.symm, Function.update_of_ne side.ne_other.symm]
    rfl

theorem machine_change_self (side : Side) (f : Machine C → Machine C) (s : System C) :
    (s.change side f).machine side = f (s.machine side) :=
  Function.update_self ..

theorem machine_change_other (side : Side) (f : Machine C → Machine C) (s : System C) :
    (s.change side f).machine side.other = s.machine side.other :=
  Function.update_of_ne side.ne_other.symm ..

theorem Side.other_other (side : Side) : side.other.other = side := by
  cases side <;> rfl

/-- One machine goes on, and the other one stays. -/
theorem inLockstep_change (f : Machine C → Machine C) (h : InLockstep E start s)
    (hside : (f (s.machine side)).side = (s.machine side).side)
    (hscheduled : (s.machine side).scheduled <+: (f (s.machine side)).scheduled)
    (hsound : Sound E start (Function.update s.streams side (f (s.machine side)).scheduled)
      (f (s.machine side))) : InLockstep E start (s.change side f) := by
  have hextends : Extends s.streams (s.change side f).streams := by
    rw [streams_change]
    exact extends_update hscheduled
  refine ⟨fun side' ↦ ?_, fun side' ↦ ?_⟩
  · rcases side.eq_or_eq_other side' with rfl | rfl
    · rw [machine_change_self, hside]
      exact h.side _
    · rw [machine_change_other]
      exact h.side _
  · rcases side.eq_or_eq_other side' with rfl | rfl
    · rw [machine_change_self, streams_change]
      exact hsound
    · rw [machine_change_other]
      refine (h.sound _).mono hextends ?_
      rw [h.side, streams_change, Function.update_of_ne side.ne_other.symm]

/-- One machine changes, and schedules nothing. -/
theorem inLockstep_same (f : Machine C → Machine C) (h : InLockstep E start s)
    (hside : (f (s.machine side)).side = (s.machine side).side)
    (hscheduled : (f (s.machine side)).scheduled = (s.machine side).scheduled)
    (hsound : Sound E start s.streams (f (s.machine side))) :
    InLockstep E start (s.change side f) := by
  refine inLockstep_change f h hside (hscheduled ▸ List.prefix_rfl) ?_
  have hsame : Function.update s.streams side (f (s.machine side)).scheduled = s.streams := by
    rw [hscheduled]
    exact Function.update_eq_self ..
  rw [hsame]
  exact hsound

theorem sound_hangUp {m : Machine C} (h : Sound E start streams m) :
    Sound E start streams { m with inbox := { m.inbox with ended := true } } :=
  { h with }

theorem sound_sent {m : Machine C} {sent : Nat × LinkFrame} {outbox : List (Nat × LinkFrame)}
    (h : Sound E start streams m) (houtbox : m.outbox = sent :: outbox) :
    Sound E start streams { m with outbox } :=
  { h with outbox := fun hmem ↦ h.outbox (houtbox ▸ List.mem_cons_of_mem _ hmem) }

theorem get?_push {frame n : Nat} {linkFrame : LinkFrame} {inbox : LinkInbox} :
    (inbox.push frame linkFrame).frames.get? n =
      if n = frame ∧ inbox.refuses frame = false then some linkFrame
      else inbox.frames.get? n := by
  unfold LinkInbox.push
  cases hrefuses : inbox.refuses frame with
  | true => rw [if_pos rfl, if_neg (by simp)]
  | false =>
    rw [if_neg Bool.false_ne_true]
    dsimp only
    rw [OrdMap.get?_insert]
    by_cases hn : n = frame
    · rw [if_pos hn, if_pos ⟨hn, rfl⟩]
    · rw [if_neg hn, if_neg fun h ↦ hn h.1]

theorem sound_push {m : Machine C} {frame : Nat} {linkFrame : LinkFrame}
    (h : Sound E start streams m)
    (hcarries : Carries E start streams m.side.other frame linkFrame) :
    Sound E start streams { m with inbox := m.inbox.push frame linkFrame } := by
  refine { h with inbox := fun hget ↦ ?_ }
  dsimp only at hget
  rw [get?_push] at hget
  split_ifs at hget with hnew
  · rw [← Option.some.inj hget, hnew.1]
    exact hcarries
  · exact h.inbox hget

theorem inLockstep_arrive {sent : Nat × LinkFrame} {outbox : List (Nat × LinkFrame)}
    (h : InLockstep E start s) (houtbox : (s.machine side.other).outbox = sent :: outbox) :
    InLockstep E start (s.arrive side sent outbox) := by
  have hmem : sent ∈ (s.machine side.other).outbox := houtbox ▸ List.mem_cons_self
  have hsender := h.sound side.other
  have hsent : InLockstep E start (s.change side.other fun m ↦ { m with outbox }) :=
    inLockstep_same _ h rfl rfl (sound_sent hsender houtbox)
  have hreceiver : (s.change side.other fun m ↦ { m with outbox }).machine side =
      s.machine side := by
    have := machine_change_other side.other (fun m ↦ { m with outbox }) s
    rwa [side.other_other] at this
  have hstreams : (s.change side.other fun m ↦ { m with outbox }).streams = s.streams := by
    rw [streams_change]
    exact Function.update_eq_self ..
  refine inLockstep_same _ hsent rfl rfl ?_
  rw [hstreams, hreceiver]
  refine sound_push (h.sound side) ?_
  have hcarries := hsender.outbox hmem
  rwa [h.side] at hcarries ⊢

/-- **Every event keeps the machines in lockstep.** -/
theorem inLockstep_step (hstart : Between E start) (event : Event) (s : System C)
    (h : InLockstep E start s) : InLockstep E start (s.step E event) := by
  cases event with
  | run side due input clock =>
    have hgoes := goesOn_runLinked due input clock (h.sound side) hstart
    refine inLockstep_change (fun m ↦ (m.runLinked E due input clock).2) h hgoes.side
      hgoes.scheduled ?_
    have hsound := hgoes.sound
    rwa [h.side] at hsound
  | write side address data =>
    exact inLockstep_same _ h rfl rfl (sound_schedule _ (h.sound side))
  | reset side => exact inLockstep_same _ h rfl rfl (sound_schedule _ (h.sound side))
  | hangUp side =>
    exact inLockstep_same (fun m ↦ { m with inbox := { m.inbox with ended := true } }) h rfl rfl
      (sound_hangUp (h.sound side))
  | deliver side =>
    unfold System.step
    dsimp only
    cases houtbox : (s.machine side.other).outbox with
    | nil => exact h
    | cons sent outbox => exact inLockstep_arrive h houtbox

theorem inLockstep_run (hstart : Between E start) (events : List Event)
    (h : InLockstep E start s) : InLockstep E start (Runs.run (System.step E) events s) :=
  Runs.run_kept (inLockstep_step hstart) h

/-! ## What is scheduled -/

/-- The write or reset that an event is, on the machine of a console. -/
def Event.raised (console : Side) : Event → Option Packet
  | .write side address data => if side = console then some (.writeMemory address data) else none
  | .reset side => if side = console then some .resetConsole else none
  | _ => none

theorem extends_change (f : Machine C → Machine C)
    (hscheduled : (s.machine side).scheduled <+: (f (s.machine side)).scheduled) :
    Extends s.streams (s.change side f).streams := by
  rw [streams_change]
  exact extends_update hscheduled

/-- What a change of one machine does to what has come up on the machines. -/
theorem raised_change {console : Side} {f : Machine C → Machine C} {raised : List Packet}
    (h : (f (s.machine side)).raised = (s.machine side).raised ++ raised) :
    ((s.change side f).machine console).raised =
      (s.machine console).raised ++ if side = console then raised else [] := by
  rcases side.eq_or_eq_other console with rfl | rfl
  · rw [machine_change_self, h, if_pos rfl]
  · rw [machine_change_other, if_neg side.ne_other, List.append_nil]

theorem raised_kept (f : Machine C → Machine C) (console : Side)
    (h : (f (s.machine side)).raised = (s.machine side).raised) :
    ((s.change side f).machine console).raised = (s.machine console).raised := by
  rw [raised_change (h.trans (List.append_nil _).symm), ite_self, List.append_nil]

/-- An event adds to what is scheduled, and to what has come up. -/
theorem grows_step (hstart : Between E start) (event : Event) (h : InLockstep E start s) :
    Extends s.streams (s.step E event).streams ∧ ∀ console,
      ((s.step E event).machine console).raised =
        (s.machine console).raised ++ (event.raised console).toList := by
  cases event with
  | run side due input clock =>
    have hgoes := goesOn_runLinked due input clock (h.sound side) hstart
    let f : Machine C → Machine C := fun m ↦ (m.runLinked E due input clock).2
    exact ⟨extends_change f hgoes.scheduled,
      fun console ↦ (raised_kept f console hgoes.raised).trans (List.append_nil _).symm⟩
  | write side address data =>
    refine ⟨extends_change _ List.prefix_rfl, fun console ↦ (raised_change rfl).trans ?_⟩
    rw [Event.raised]
    split_ifs <;> rfl
  | reset side =>
    refine ⟨extends_change _ List.prefix_rfl, fun console ↦ (raised_change rfl).trans ?_⟩
    rw [Event.raised]
    split_ifs <;> rfl
  | hangUp side =>
    let f : Machine C → Machine C := fun m ↦ { m with inbox := { m.inbox with ended := true } }
    exact ⟨extends_change f List.prefix_rfl,
      fun console ↦ (raised_kept f console rfl).trans (List.append_nil _).symm⟩
  | deliver side =>
    unfold System.step
    dsimp only
    cases (s.machine side.other).outbox with
    | nil => exact ⟨.refl _, fun _ ↦ (List.append_nil _).symm⟩
    | cons sent outbox =>
      let sender : Machine C → Machine C := fun m ↦ { m with outbox }
      let receiver : Machine C → Machine C := fun m ↦
        { m with inbox := m.inbox.push sent.1 sent.2 }
      refine ⟨fun console ↦ ?_, fun console ↦ ?_⟩
      · exact (extends_change sender List.prefix_rfl console).trans
          (extends_change receiver List.prefix_rfl console)
      · exact ((raised_kept receiver console rfl).trans
          (raised_kept sender console rfl)).trans (List.append_nil _).symm

theorem grows_run (hstart : Between E start) (events : List Event) (h : InLockstep E start s) :
    Extends s.streams (Runs.run (System.step E) events s).streams ∧ ∀ console,
      ((Runs.run (System.step E) events s).machine console).raised =
        (s.machine console).raised ++ events.filterMap (Event.raised console) := by
  induction events generalizing s with
  | nil => exact ⟨.refl _, fun _ ↦ (List.append_nil _).symm⟩
  | cons event events ih =>
    obtain ⟨hextends, hraised⟩ := grows_step hstart event h
    obtain ⟨hextends', hraised'⟩ := ih (inLockstep_step hstart event s h)
    refine ⟨fun console ↦ (hextends console).trans (hextends' console), fun console ↦ ?_⟩
    rw [show Runs.run (System.step E) (event :: events) s =
      Runs.run (System.step E) events (s.step E event) from rfl, hraised', hraised,
      List.append_assoc]
    cases hevent : event.raised console with
    | none => rw [List.filterMap_cons_none hevent]; rfl
    | some packet => rw [List.filterMap_cons_some hevent]; rfl

/-! ## Counters

The smallest consoles that can be linked: they count the frames they have run, and remember what
they were given. -/

structure Counter where
  frames : Nat
  given : Bytes
deriving DecidableEq

theorem undisturbed_counter (f : Counter → Counter) (h : ∀ c, (f c).frames = c.frames) :
    Undisturbed Counter.frames (fun _ ↦ false) (fun _ ↦ false) f :=
  ⟨h, fun _ ↦ rfl, fun _ _ ↦ rfl⟩

def counterLink : LinkedCore Counter where
  stepLinked c d             := .ok (1, { c with frames := c.frames + 1 }, d)
  linkTime                   := Counter.frames
  isAsleep _                 := false
  isMidFrame _               := false
  setInputEncoded data c     := { c with given := c.given ++ data }
  writeRam _ data c          := (true, { c with given := c.given ++ data })
  hardReset c                := { c with given := [] }
  syncHash c                 := some c.given
  hashSlices                 := List.flatten
  frames_le h                := by cases h; exact Nat.le_refl 1
  isMidFrame_stepLinked _ _  := rfl
  isMidFrame_other _         := rfl
  setInput_undisturbed _     := undisturbed_counter _ fun _ ↦ rfl
  writeRam_undisturbed _ _   := undisturbed_counter _ fun _ ↦ rfl
  hardReset_undisturbed      := undisturbed_counter _ fun _ ↦ rfl

/-- Two counters that have just been linked, one frame apart. -/
def counters : System Counter where
  machine side := Machine.plugged side ⟨0, []⟩ ⟨0, []⟩ 1 [0] [0] 0

theorem counters_plugged :
    counters.Plugged ⟨0, []⟩ ⟨0, []⟩ 1 (fun _ ↦ [0]) (fun _ ↦ 0) fun _ ↦ [] :=
  fun _ ↦ rfl

/-- The first machine runs, and sends two link frames; one of them arrives at the second machine,
which runs, with a write. -/
def counterEvents : List Event :=
  [.run .first true [1] 10, .run .first true [2] 20, .write .second 256 [7], .deliver .second,
    .run .second true [3] 15, .run .second true [4] 25]

/-! ## Agreement -/

/-- What both machines know of a console: what is applied to it is what its own machine scheduled,
frame by frame, and that is the input it held at first, and every write and reset once. -/
structure Agreed (delay : Nat) (inputs : Side → Bytes) (heldWrites : Side → List Packet)
    (events : List Event) (s : System C) (console : Side) : Prop where
  held : ∀ n < delay, (s.streams console)[n]? = some [.changeInput (inputs console)]
  applied : ∀ side, (s.machine side).moves.filterMap (Move.applied console) =
    ((s.streams console).take ((s.machine side).seats console).consumed).zipIdx
  raised : (((s.streams console).flatten ++ (s.machine console).pending).filter isRaised).Perm
    ((heldWrites console ++ events.filterMap (Event.raised console)).filter isRaised)

theorem fresh_start (first second : C) (side : Side) :
    (Machine.start first second side).consumed = 0 := by
  cases side <;> rfl

/-- **The machines never find that their games differ**: as long as the consoles are deterministic,
no pair hash is ever found to differ. -/
theorem never_mismatch {first second : C} {delay : Nat} {inputs : Side → Bytes}
    {clocks : Side → TimestampMillis} {heldWrites : Side → List Packet}
    (hfirst : E.isMidFrame first = false) (hsecond : E.isMidFrame second = false)
    (hplugged : s.Plugged first second delay inputs clocks heldWrites) (events : List Event)
    (side : Side) (frame : Nat) :
    ((Runs.run (System.step E) events s).machine side).failure ≠
      some (.pairHashMismatch frame) := by
  have hstart := between_start_of hfirst hsecond
  exact ((inLockstep_run hstart events (inLockstep_start hplugged).1).sound side).failure frame

theorem never_mismatch_counters :
    ((Runs.run (System.step counterLink) counterEvents counters).machine .second).failure ≠
      some (.pairHashMismatch 60) :=
  never_mismatch rfl rfl counters_plugged counterEvents .second 60

end Lockstep

end SuperShuckie
