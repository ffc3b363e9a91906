import SuperShuckie.PlayTogether.Lanes

/-!
# The admission of a client

A client is admitted by the reader of its connection, in a few jobs of which the last but two makes it a
participant.  From the job that queues the `Welcome` to that one the reader holds the lock, so at most one
client is being admitted at a time, and nobody else can look at who is in the session.
-/

set_option autoImplicit false

namespace SuperShuckie

open ByteFormat

namespace PlayTogether

variable {config : HostConfig}

/-- A job of an admission, up to the one that makes the client a participant. -/
def Job.AtDoor : Job → Prop
  | admitPeer .. | admitLocked .. | admitPause _ | admitSpeed _ | admitStart .. | admitVisible .. => True
  | _ => False

/-- What is left to do once the `Welcome` is queued. -/
def entry (c : Nat) (start : Option StartStateData) (participant : ParticipantInfo) : List Job :=
  [.admitPause c, .admitSpeed c, .admitStart c start, .admitVisible c participant,
    .broadcast (.message (.peerJoined participant)) participant.peerId, .notify (.joined participant)]

/-- Only an admission puts its own jobs in the place of others. -/
theorem Job.not_atDoor_next {h : Host} {first next : Job} (hnext : first.Next config h next)
    (hfirst : ¬ first.AtDoor) : ¬ next.AtDoor := by
  cases first with
  | admitPeer | admitLocked | admitPause | admitSpeed | admitStart | admitVisible => exact absurd trivial hfirst
  | register | send | notify => exact absurd hnext id
  | pushTo | close | leaving | storePause | storeSpeed | storeStart | sendLink | requestOurs =>
    rw [hnext]
    exact id
  | pushToPeer | publish | askSnapshot =>
    obtain ⟨c, -, rfl⟩ := hnext
    exact id
  | broadcast =>
    obtain ⟨c, -, -, rfl⟩ := hnext
    exact id
  | unlist =>
    obtain ⟨-, rfl | rfl⟩ := hnext <;> exact id
  | departed =>
    obtain ⟨partner, -, rfl | rfl⟩ | rfl := hnext <;> exact id
  | deliverLink =>
    obtain ⟨c, rfl⟩ := hnext
    exact id
  | announceLink | notePause =>
    obtain rfl | rfl := hnext <;> exact id
  | routeLink =>
    obtain ⟨_, _, rfl, -⟩ | ⟨_, _, rfl, -⟩ | ⟨_, _, _, rfl⟩ := hnext <;> exact id
  | recordRequest =>
    obtain rfl | ⟨_, rfl⟩ := hnext <;> exact id
  | kick =>
    obtain ⟨c, rfl | rfl⟩ := hnext <;> exact id

/-- The job takes the lock to keep it, or gives it back. -/
def Job.Locks : Job → Prop
  | admitLocked .. | admitVisible .. => True
  | _ => False

/-- Refusing a client is no part of an admission. -/
theorem not_atDoor_refuse {c : Nat} {reason : RefusalReason} {text : String} :
    ∀ job ∈ refuse c reason text, ¬ job.AtDoor := by
  intro job hjob
  obtain rfl | rfl := List.mem_pair.mp hjob <;> exact id

namespace Host

/-- **How far the admission of a client is**, from what the reader of its connection has to do. -/
inductive Door (h : Host) (c : Nat) : Prop
  | away (hjobs : ∀ job ∈ h.threads (.reader c), ¬ job.AtDoor)
    (hholder : h.holder ≠ some (.reader c))
  | knocking (hello : Hello) (hjobs : h.threads (.reader c) = [.admitPeer c hello])
    (hout : (h.conn c).peerId = 0) (hholder : h.holder ≠ some (.reader c))
  | waiting (hello : Hello) (start : Option StartStateData)
    (hjobs : h.threads (.reader c) = [.admitLocked c hello start])
    (hout : (h.conn c).peerId = 0) (hholder : h.holder ≠ some (.reader c))
  | entering (start : Option StartStateData) (participant : ParticipantInfo) (k : Nat) (hk : k < 4)
    (hjobs : h.threads (.reader c) = (entry c start participant).drop k)
    (hout : (h.conn c).peerId = 0) (hid : participant.peerId ≠ 0)
    (hholder : h.holder = some (.reader c))

/-- Everyone's admission is somewhere between the hello and the end, and only readers admit. -/
structure Doors (h : Host) : Prop where
  door : ∀ c, h.Door c
  others : ∀ t, (∀ c, t ≠ .reader c) → (∀ job ∈ h.threads t, ¬ job.AtDoor) ∧ h.holder ≠ some t
  info : ∀ c, (h.conn c).peerId = 0 ↔ (h.conn c).info = none

/-- The peer ids have not run out when a client is admitted. -/
def IdsLeft : Event → Host → Prop
  | .advance t _, h =>
    match h.threads t with
    | .admitLocked .. :: _ => h.nextPeerId ≠ 0
    | _ => True
  | _, _ => True

instance (event : Event) (h : Host) : Decidable (IdsLeft event h) := by
  unfold IdsLeft
  split
  · split <;> infer_instance
  · infer_instance

variable {h h' : Host} {c : Nat}

/-- What an event starts is no part of an admission, or the beginning of one. -/
theorem atDoor_start {event : Event} :
    (∀ job ∈ event.jobs h, ¬ job.AtDoor) ∨ ∃ c hello, event.thread = .reader c ∧
      event.jobs h = [.admitPeer c hello] ∧ (h.conn c).peerId = 0 := by
  cases event with
  | receive c m bad gap =>
    by_cases hpeer : (h.conn c).peerId = 0
    · show (∀ job ∈ handleMessage c bad gap m h, _) ∨ _
      unfold handleMessage
      rw [if_pos hpeer]
      cases m with
      | hello => exact .inr ⟨c, _, rfl, by rw [Event.jobs, handleMessage, if_pos hpeer], hpeer⟩
      | ping =>
        refine .inl fun job hjob ↦ ?_
        rw [List.mem_singleton.mp hjob]
        exact id
      | _ =>
        refine .inl fun job hjob ↦ ?_
        obtain rfl | rfl := List.mem_pair.mp hjob <;> exact id
    · refine .inl fun job hjob ↦ ?_
      have hreader := ofReader_handleMessage job hjob
      cases job with
      | admitPeer => exact absurd hreader.2 hpeer
      | admitLocked | admitPause | admitSpeed | admitStart | admitVisible => exact absurd hreader id
      | _ => exact id
  | call request =>
    refine .inl fun job hjob ↦ ?_
    rw [List.mem_singleton.mp hjob]
    cases request <;> exact id
  | garble c text =>
    refine .inl fun job hjob ↦ ?_
    obtain rfl | rfl := List.mem_pair.mp hjob <;> exact id
  | connect | lose | writeFails | timeout | publish =>
    refine .inl fun job hjob ↦ ?_
    rw [List.mem_singleton.mp hjob]
    exact id
  | _ => exact .inl fun job hjob ↦ absurd hjob List.not_mem_nil

/-- The lock and the next id, which only admissions change. -/
def entrance (h : Host) : Option HostThread × PeerId := (h.holder, h.nextPeerId)

variable {event : Event} {t : HostThread} {job : Job} {full : Bool} {rest : List Job}

theorem step_entrance (hout : event.Outside) : (step config event h).entrance = h.entrance := by
  have hstart : ∀ {t : HostThread} {jobs : List Job}, (h.start t jobs).entrance = h.entrance := by
    intro t jobs
    rw [start]
    split_ifs <;> rfl
  cases event with
  | connect | drain | takeUrgent =>
    rw [step]
    split_ifs <;> rfl
  | receive | lose | garble | writeFails | timeout =>
    rw [step]
    split_ifs
    · exact hstart
    · rfl
  | call | publish => exact hstart
  | write => rfl
  | advance => exact absurd hout id

theorem step_holder (hout : event.Outside) :
    (step config event h).holder = h.holder := congrArg Prod.fst (step_entrance hout)

theorem exec_entrance (hjob : ¬ job.Locks) :
    (job.exec config full t h).2.entrance = h.entrance := by
  cases job with
  | admitLocked | admitVisible => exact absurd trivial hjob
  | routeLink sender target m =>
    have hrouted := @routed config sender target m h
    show (PlayTogether.routeLink config sender target m h).2.entrance = h.entrance
    generalize PlayTogether.routeLink config sender target m h = out at hrouted ⊢
    cases hrouted <;> rfl
  | broadcast item except =>
    cases item with
    | message m => cases m <;> rfl
    | _ => rfl
  | deliverLink target m =>
    rw [Job.exec]
    split
    · rfl
    · split
      · rfl
      · split <;> rfl
  | admitPeer c hello =>
    rw [Job.exec]
    split
    · rfl
    · dsimp only
      split <;> rfl
  | admitStart c start => cases start <;> rfl
  | recordRequest =>
    rw [Job.exec, PlayTogether.recordRequest]
    split_ifs <;> rfl
  | pushTo | close | notePause =>
    rw [Job.exec]
    split_ifs <;> rfl
  | _ => rfl

theorem exec_holder {full : Bool} {t : HostThread} {job : Job} (hjob : ¬ job.Locks) :
    (job.exec config full t h).2.holder = h.holder := congrArg Prod.fst (exec_entrance hjob)

/-- Who is at the other end of a connection only an admission changes. -/
theorem exec_who (hadmits : ¬ job.Admits c) :
    ((job.exec config full t h).2.conn c).who = (h.conn c).who := by
  have hlaned := @laned config h c full t job
  generalize (job.exec config full t h).2.conn c = conn' at hlaned ⊢
  cases hlaned with
  | other => rfl
  | queued => exact Conn.push_who
  | urged => exact Conn.pushUrgent_who
  | admitted => exact absurd rfl hadmits
  | closed => exact Conn.beginClose_who

/-- An admission is as far as it was, as long as its reader does nothing. -/
theorem Door.same (hdoor : h.Door c) (hthread : h'.threads (.reader c) = h.threads (.reader c))
    (hwho : (h'.conn c).who = (h.conn c).who)
    (hholder : h'.holder = some (.reader c) ↔ h.holder = some (.reader c)) : h'.Door c := by
  have hpeer : (h'.conn c).peerId = (h.conn c).peerId := congrArg Prod.fst hwho
  cases hdoor with
  | away hjobs hfree => exact .away (hthread ▸ hjobs) (mt hholder.mp hfree)
  | knocking hello hjobs hout hfree =>
    exact .knocking hello (hthread.trans hjobs) (hpeer.trans hout) (mt hholder.mp hfree)
  | waiting hello start hjobs hout hfree =>
    exact .waiting hello start (hthread.trans hjobs) (hpeer.trans hout) (mt hholder.mp hfree)
  | entering start participant k hk hjobs hout hid hhold =>
    exact .entering start participant k hk (hthread.trans hjobs) (hpeer.trans hout) hid
      (hholder.mpr hhold)

/-- Only the reader of a connection that is entering holds the lock. -/
theorem Doors.holder (hdoors : h.Doors) (hholder : h.holder = some t) :
    ∃ c start participant k, t = .reader c ∧ k < 4 ∧
      h.threads (.reader c) = (entry c start participant).drop k ∧ (h.conn c).peerId = 0 := by
  by_cases ht : ∀ c, t ≠ .reader c
  · exact absurd hholder (hdoors.others t ht).2
  · push Not at ht
    obtain ⟨c, rfl⟩ := ht
    cases hdoors.door c with
    | entering start participant k hk hjobs hout => exact ⟨c, start, participant, k, rfl, hk, hjobs, hout⟩
    | away _ hfree | knocking _ _ _ hfree | waiting _ _ _ _ hfree => exact absurd hholder hfree

/-- What one thread does is nothing to the admissions of the others. -/
theorem Doors.of_done (hdoors : h.Doors) {jobs : List Job}
    (hthreads : h'.threads = Function.update h.threads t jobs)
    (hwho : ∀ c, t ≠ .reader c → (h'.conn c).who = (h.conn c).who)
    (hholder : ∀ t', t' ≠ t → (h'.holder = some t' ↔ h.holder = some t'))
    (hself : ∀ c, t = .reader c → h'.Door c ∧ ((h'.conn c).peerId = 0 ↔ (h'.conn c).info = none))
    (hother : (∀ c, t ≠ .reader c) → (∀ job ∈ jobs, ¬ job.AtDoor) ∧ h'.holder ≠ some t) :
    h'.Doors := by
  refine ⟨fun c ↦ ?_, fun t' ht' ↦ ?_, fun c ↦ ?_⟩
  · by_cases ht : t = .reader c
    · exact (hself c ht).1
    · exact (hdoors.door c).same (by rw [hthreads, Function.update_of_ne (Ne.symm ht)]) (hwho c ht)
        (hholder _ (Ne.symm ht))
  · by_cases ht : t' = t
    · subst ht
      rw [hthreads, Function.update_self]
      exact hother ht'
    · rw [hthreads, Function.update_of_ne ht]
      obtain ⟨hjobs, hfree⟩ := hdoors.others t' ht'
      exact ⟨hjobs, mt (hholder t' ht).mp hfree⟩
  · by_cases ht : t = .reader c
    · exact (hself c ht).2
    · have hsame := hwho c ht
      rw [Conn.who, Conn.who, Prod.mk.injEq] at hsame
      rw [hsame.1, hsame.2]
      exact hdoors.info c

/-- What an event starts keeps the admissions as they should be. -/
theorem Doors.outside (hdoors : h.Doors) (hout : event.Outside) : (step config event h).Doors := by
  obtain ⟨hsame, hthreads | ⟨hidle, hthreads⟩⟩ := @step_outside config _ h hout
  · have hthreads' : (step config event h).threads =
        Function.update h.threads event.thread (h.threads event.thread) := by
      rw [hthreads, Function.update_eq_self]
    refine ⟨fun c ↦ ?_, fun t ht ↦ ?_, fun c ↦ ?_⟩
    · exact (hdoors.door c).same (by rw [hthreads]) (hsame.who c) (by rw [step_holder hout])
    · rw [hthreads, step_holder hout]
      exact hdoors.others t ht
    · have hwho := hsame.who c
      rw [Conn.who, Conn.who, Prod.mk.injEq] at hwho
      rw [hwho.1, hwho.2]
      exact hdoors.info c
  · have hfree : h.holder ≠ some event.thread := by
      intro hholder
      obtain ⟨c, start, participant, k, ht, hk, hjobs, -⟩ := hdoors.holder hholder
      rw [ht, hjobs] at hidle
      have hlength := congrArg List.length hidle
      rw [List.length_drop, entry, List.length_nil] at hlength
      simp only [List.length_cons, List.length_nil] at hlength
      omega
    refine hdoors.of_done hthreads (fun c _ ↦ hsame.who c) (fun t _ ↦ by rw [step_holder hout]) ?_ ?_
    · intro c ht
      have hwho := hsame.who c
      rw [Conn.who, Conn.who, Prod.mk.injEq] at hwho
      rw [hwho.1, hwho.2]
      refine ⟨?_, hdoors.info c⟩
      have hthread : (step config event h).threads (.reader c) = event.jobs h := by
        rw [hthreads, ht, Function.update_self]
      have hfree' : (step config event h).holder ≠ some (.reader c) := by
        rw [step_holder hout, ← ht]
        exact hfree
      obtain hjobs | ⟨c', hello, ht', hjobs, hpeer⟩ := @atDoor_start h event
      · exact .away (hthread ▸ hjobs) hfree'
      · obtain rfl : c' = c := by
          rw [ht] at ht'
          exact (HostThread.reader.inj ht').symm
        exact .knocking hello (hthread.trans hjobs) (hwho.1.trans hpeer) hfree'
    · intro hreader
      refine ⟨?_, by rw [step_holder hout]; exact hfree⟩
      obtain hjobs | ⟨c', hello, ht', -⟩ := @atDoor_start h event
      · exact hjobs
      · exact absurd ht' (hreader c')

theorem not_locks_of_not_atDoor (hjob : ¬ job.AtDoor) : ¬ job.Locks := by
  cases job with
  | admitLocked | admitVisible => exact absurd trivial hjob
  | _ => exact id

theorem not_admits_of_not_atDoor (hjob : ¬ job.AtDoor) : ¬ job.Admits c := by
  cases job with
  | admitVisible => exact absurd trivial hjob
  | _ => exact id

/-- A job that is no part of an admission keeps the admissions as they should be. -/
theorem Doors.exec_of_not_atDoor (hdoors : h.Doors) (hjob : ¬ job.AtDoor)
    (hrest : ∀ job' ∈ rest, ¬ job'.AtDoor) (hfree : h.holder ≠ some t) :
    ((job.exec config full t h).2.done t h.threads ((job.exec config full t h).1 ++ rest)).Doors := by
  have hholder := @exec_holder config h full t _
    (not_locks_of_not_atDoor hjob)
  have hwho : ∀ c, ((job.exec config full t h).2.conn c).who = (h.conn c).who :=
    fun c ↦ exec_who (not_admits_of_not_atDoor hjob)
  have hjobs : ∀ job' ∈ (job.exec config full t h).1 ++ rest, ¬ job'.AtDoor := by
    intro job' hjob'
    obtain hnew | hold := List.mem_append.mp hjob'
    · exact Job.not_atDoor_next (Job.next_of_mem_exec hnew) hjob
    · exact hrest job' hold
  have hfree' : (job.exec config full t h).2.holder ≠ some t := by rwa [hholder]
  refine hdoors.of_done rfl (fun c _ ↦ hwho c) (fun t' _ ↦ ?_) (fun c ht ↦ ⟨.away ?_ (ht ▸ hfree'), ?_⟩)
    fun _ ↦ ⟨hjobs, hfree'⟩
  · show (job.exec config full t h).2.holder = some t' ↔ _
    rw [hholder]
  · intro job' hjob'
    rw [ht] at hjob' hjobs
    rw [done_self] at hjob'
    exact hjobs job' hjob'
  · have hsame := hwho c
    rw [Conn.who, Conn.who, Prod.mk.injEq] at hsame
    rw [done_conn, hsame.1, hsame.2]
    exact hdoors.info c

/-- A client that says `Hello` is refused, or waits for the lock. -/
theorem exec_admitPeer {full : Bool} {t : HostThread} {hello : Hello} :
    ((Job.admitPeer c hello).exec config full t h).2 = h ∧
      ((∃ reason text, ((Job.admitPeer c hello).exec config full t h).1 = refuse c reason text) ∨
        ((Job.admitPeer c hello).exec config full t h).1 = [.admitLocked c hello h.startState]) := by
  rw [Job.exec]
  split
  · exact ⟨rfl, .inl ⟨_, _, rfl⟩⟩
  · dsimp only
    split
    · exact ⟨rfl, .inl ⟨_, _, rfl⟩⟩
    · exact ⟨rfl, .inr rfl⟩

/-- A client that gets the lock is refused, or its `Welcome` is queued and the lock is kept. -/
theorem exec_admitLocked {full : Bool} {t : HostThread} {hello : Hello}
    {start : Option StartStateData} :
    (∃ reason text, (Job.admitLocked c hello start).exec config full t h =
        (refuse c reason text, h)) ∨
      h.admittedInfos.length + 1 < config.maxParticipants ∧
      (Job.admitLocked c hello start).exec config full t h =
        (entry c start (newParticipant config hello h),
          { h.onConn c (·.push full
              (.message (welcomeMessage config (newParticipant config hello h) h))) with
            nextPeerId := h.nextPeerId + 1
            holder := some t }) := by
  rw [Job.exec, PlayTogether.admitLocked]
  by_cases hroom : config.maxParticipants ≤ h.admittedInfos.length + 1
  · rw [if_pos hroom]
    exact .inl ⟨_, _, rfl⟩
  · rw [if_neg hroom]
    exact .inr ⟨not_le.mp hroom, rfl⟩

theorem length_entry_drop {start : Option StartStateData} {participant : ParticipantInfo} {k : Nat} :
    ((entry c start participant).drop k).length = 6 - k := by
  rw [List.length_drop]
  rfl

/-- The settings are queued one after another. -/
theorem exec_entry {full : Bool} {t : HostThread} {job : Job} {rest : List Job} {k : Nat}
    {start : Option StartStateData} {participant : ParticipantInfo} (hk : k < 3)
    (hjobs : job :: rest = (entry c start participant).drop k) :
    ¬ job.Locks ∧ (∀ c, ¬ job.Admits c) ∧ (job.exec config full t h).1 = [] ∧
      rest = (entry c start participant).drop (k + 1) := by
  obtain rfl | rfl | rfl : k = 0 ∨ k = 1 ∨ k = 2 := by omega
  all_goals
    obtain ⟨rfl, rfl⟩ := List.cons.inj hjobs
    exact ⟨id, fun _ ↦ id, rfl, rfl⟩

/-- **A job keeps the admissions** as they should be, as long as the ids have not run out. -/
theorem Doors.exec {t : HostThread} {full : Bool} {job : Job} {rest : List Job}
    (hdoors : h.Doors) (hthread : h.threads t = job :: rest) (hblocked : ¬ h.Blocked t job)
    (hids : IdsLeft (.advance t full) h) :
    ((job.exec config full t h).2.done t h.threads ((job.exec config full t h).1 ++ rest)).Doors := by
  by_cases ht : ∀ c, t ≠ .reader c
  · obtain ⟨hjobs, hfree⟩ := hdoors.others t ht
    rw [hthread] at hjobs
    exact hdoors.exec_of_not_atDoor (hjobs job List.mem_cons_self)
      (fun job' hjob' ↦ hjobs job' (List.mem_cons_of_mem _ hjob')) hfree
  · push Not at ht
    obtain ⟨c, rfl⟩ := ht
    -- only the reader of `c` moves
    have hmine : ∀ c', HostThread.reader c = .reader c' → c' = c :=
      fun c' heq ↦ (HostThread.reader.inj heq).symm
    cases hdoors.door c with
    | away hjobs hfree =>
      rw [hthread] at hjobs
      exact hdoors.exec_of_not_atDoor (hjobs job List.mem_cons_self)
        (fun job' hjob' ↦ hjobs job' (List.mem_cons_of_mem _ hjob')) hfree
    | knocking hello hjobs hout hfree =>
      rw [hthread] at hjobs
      obtain ⟨rfl, rfl⟩ := List.cons.inj hjobs
      obtain ⟨hconn, hnext⟩ := @exec_admitPeer config h c full (.reader c) hello
      rw [hconn, List.append_nil]
      refine hdoors.of_done rfl (fun _ _ ↦ rfl) (fun _ _ ↦ Iff.rfl) (fun c' hc' ↦ ?_)
        fun hreader ↦ absurd rfl (hreader c)
      obtain rfl := hmine c' hc'
      refine ⟨?_, hdoors.info c'⟩
      obtain ⟨reason, text, hnext⟩ | hnext := hnext
      · refine .away ?_ hfree
        rw [hnext, done_self]
        exact not_atDoor_refuse
      · refine .waiting hello h.startState ?_ hout hfree
        rw [hnext, done_self]
    | waiting hello start hjobs hout hfree =>
      rw [hthread] at hjobs
      obtain ⟨rfl, rfl⟩ := List.cons.inj hjobs
      rw [List.append_nil]
      obtain ⟨reason, text, hexec⟩ | ⟨-, hexec⟩ :=
        @exec_admitLocked config h c full (.reader c) hello start
      · rw [hexec]
        refine hdoors.of_done rfl (fun _ _ ↦ rfl) (fun _ _ ↦ Iff.rfl) (fun c' hc' ↦ ?_)
          fun hreader ↦ absurd rfl (hreader c)
        obtain rfl := hmine c' hc'
        refine ⟨.away ?_ hfree, hdoors.info c'⟩
        rw [done_self]
        exact not_atDoor_refuse
      · rw [hexec]
        rw [IdsLeft, hthread] at hids
        have hlock : h.holder = none := by
          by_contra hholder
          exact hblocked ⟨rfl, hholder, hfree⟩
        refine hdoors.of_done rfl (fun c' hc' ↦ ?_) (fun t' ht' ↦ ?_) (fun c' hc' ↦ ?_)
          fun hreader ↦ absurd rfl (hreader c)
        · exact (sameRoster_onConn (c := c) Conn.push_who).who c'
        · rw [hlock]
          exact ⟨fun heq ↦ absurd (Option.some.inj heq).symm ht', fun heq ↦ nomatch heq⟩
        · obtain rfl := hmine c' hc'
          have hsame := (sameRoster_onConn (c := c') (h := h) (f := (·.push full (.message
            (welcomeMessage config (newParticipant config hello h) h)))) Conn.push_who).who c'
          rw [Conn.who, Conn.who, Prod.mk.injEq] at hsame
          refine ⟨.entering start (newParticipant config hello h) 0 (by decide) ?_
            (hsame.1.trans hout) hids rfl, ?_⟩
          · exact done_self
          · show ((h.onConn c' _).conn c').peerId = 0 ↔ ((h.onConn c' _).conn c').info = none
            rw [hsame.1, hsame.2]
            exact hdoors.info c'
    | entering start participant k hk hjobs hout hid hhold =>
      rw [hthread] at hjobs
      obtain hk | rfl : k < 3 ∨ k = 3 := by omega
      · -- the settings are queued
        obtain ⟨hlocks, hadmits, hnext, hrest⟩ := @exec_entry config h _ full (.reader c) _ _ _ _ _ hk hjobs
        have hholder := @exec_holder config h full (.reader c) _ hlocks
        have hwho : ∀ c', ((job.exec config full (.reader c) h).2.conn c').who = (h.conn c').who :=
          fun c' ↦ exec_who (hadmits c')
        rw [hnext, List.nil_append]
        refine hdoors.of_done rfl (fun c' _ ↦ hwho c') (fun t' _ ↦ ?_) (fun c' hc' ↦ ?_)
          fun hreader ↦ absurd rfl (hreader c)
        · show (job.exec config full (.reader c) h).2.holder = some t' ↔ _
          rw [hholder]
        · obtain rfl := hmine c' hc'
          have hsame := hwho c'
          rw [Conn.who, Conn.who, Prod.mk.injEq] at hsame
          refine ⟨.entering start participant (k + 1) (by omega) ?_ (hsame.1.trans hout) hid
            (hholder.trans hhold), ?_⟩
          · rw [done_self, hrest]
          · rw [done_conn, hsame.1, hsame.2]
            exact hdoors.info c'
      · -- the client becomes a participant
        obtain ⟨rfl, rfl⟩ := List.cons.inj hjobs
        have hconn : ∀ c', ((Job.admitVisible c participant).exec config full (.reader c) h).2.conn c' =
            if c' = c then (h.conn c).admitAs participant else h.conn c' := fun _ ↦ onConn_conn
        refine hdoors.of_done rfl (fun c' hc' ↦ ?_) (fun t' ht' ↦ ?_) (fun c' hc' ↦ ?_)
          fun hreader ↦ absurd rfl (hreader c)
        · rw [done_conn, hconn, if_neg fun heq ↦ hc' (by rw [heq])]
        · rw [hhold]
          exact ⟨fun heq ↦ (nomatch heq), fun heq ↦ absurd (Option.some.inj heq).symm ht'⟩
        · obtain rfl := hmine c' hc'
          refine ⟨.away ?_ nofun, ?_⟩
          · rw [done_self]
            intro job hjob
            obtain rfl | rfl := List.mem_pair.mp hjob <;> exact id
          · rw [done_conn, hconn, if_pos rfl]
            exact ⟨fun hzero ↦ absurd hzero hid, fun hnone ↦ (nomatch hnone)⟩

/-- **Every step keeps the admissions** as they should be, as long as the ids have not run out. -/
theorem Doors.step {event : Event} (hids : IdsLeft event h) (hdoors : h.Doors) :
    (step config event h).Doors := by
  refine step_elim hdoors.outside hdoors ?_
  rintro t full job rest rfl hthread hblocked
  exact hdoors.exec hthread hblocked hids

theorem doors_new : new.Doors where
  door _ := .away (fun _ hjob ↦ absurd hjob List.not_mem_nil) nofun
  others _ _ := ⟨fun _ hjob ↦ absurd hjob List.not_mem_nil, nofun⟩
  info _ := ⟨fun _ ↦ rfl, fun _ ↦ rfl⟩

/-- **Only someone who is not in the session yet becomes a participant**, with an id of its own. -/
theorem Doors.of_admitVisible (hdoors : h.Doors) {participant : ParticipantInfo}
    (hthread : h.threads t = .admitVisible c participant :: rest) :
    t = .reader c ∧ (h.conn c).peerId = 0 ∧ participant.peerId ≠ 0 ∧ h.holder = some t := by
  by_cases ht : ∀ c', t ≠ .reader c'
  · have hjobs := (hdoors.others t ht).1
    rw [hthread] at hjobs
    exact absurd trivial (hjobs _ List.mem_cons_self)
  · push Not at ht
    obtain ⟨c', rfl⟩ := ht
    cases hdoors.door c' with
    | away hjobs =>
      rw [hthread] at hjobs
      exact absurd trivial (hjobs _ List.mem_cons_self)
    | knocking hello hjobs | waiting hello start hjobs =>
      rw [hthread] at hjobs
      cases hjobs
    | entering start participant' k hk hjobs hout hid hhold =>
      rw [hthread] at hjobs
      obtain rfl | rfl | rfl | rfl : k = 0 ∨ k = 1 ∨ k = 2 ∨ k = 3 := by omega
      all_goals cases hjobs
      exact ⟨rfl, hout, hid, hhold⟩

/-- Who is in the session stays the same participant. -/
theorem Doors.exec_peerId (hdoors : h.Doors) (hthread : h.threads t = job :: rest)
    (hadmitted : (h.conn c).peerId ≠ 0) :
    ((job.exec config full t h).2.conn c).peerId = (h.conn c).peerId := by
  have hadmits : ¬ job.Admits c := by
    intro hadmits
    cases job with
    | admitVisible c' participant =>
      obtain rfl : c' = c := hadmits
      exact hadmitted (hdoors.of_admitVisible hthread).2.1
    | _ => exact hadmits
  exact congrArg Prod.fst (exec_who hadmits)

/-- A connection after an event at which no job is done. -/
theorem outside_conn {event : Event} (hout : event.Outside) :
    ((step config event h).conn c).peerId = (h.conn c).peerId ∧
      ((step config event h).conn c).closing = (h.conn c).closing :=
  ⟨congrArg Prod.fst ((@step_outside config _ h hout).1.who c), (@moved config h c _ hout).closing⟩

/-- Who is not in the session after a job was not before. -/
theorem Doors.exec_out (hdoors : h.Doors) (hthread : h.threads t = job :: rest)
    (hout : ((job.exec config full t h).2.conn c).peerId = 0) : (h.conn c).peerId = 0 := by
  by_contra hadmitted
  exact hadmitted ((hdoors.exec_peerId hthread hadmitted).symm.trans hout)

theorem accepted_step : h.accepted ≤ (step config event h).accepted := by
  refine step_elim (Q := fun h' ↦ h.accepted ≤ h'.accepted) (fun hout ↦ ?_) le_rfl ?_
  · have hstart : ∀ {t : HostThread} {jobs : List Job}, (h.start t jobs).accepted = h.accepted := by
      intro t jobs
      rw [start]
      split_ifs <;> rfl
    cases event with
    | connect =>
      rw [Host.step]
      split_ifs
      · exact Nat.le_succ _
      · exact le_rfl
    | receive | lose | garble | writeFails | timeout =>
      rw [Host.step]
      split_ifs
      · exact hstart.ge
      · exact le_rfl
    | call | publish => exact hstart.ge
    | drain | takeUrgent =>
      rw [Host.step]
      split_ifs <;> exact le_rfl
    | write => exact le_rfl
    | advance => exact absurd hout id
  · rintro t full first rest - - -
    exact exec_accepted.ge

/-- Nobody is at the end of a connection that never came in. -/
theorem known_step (htended : h.Tended) (hdoors : h.Doors)
    (hknown : ∀ c, h.accepted ≤ c → (h.conn c).peerId = 0) :
    ∀ c, (step config event h).accepted ≤ c → ((step config event h).conn c).peerId = 0 := by
  intro c hc
  have hzero := hknown c (accepted_step.trans hc)
  refine step_elim (Q := fun h' ↦ (h'.conn c).peerId = 0) (fun hout ↦ ?_) hzero ?_
  · exact (@outside_conn config _ c _ hout).1.trans hzero
  · rintro t full first rest - hthread -
    have hadmits : ¬ first.Admits c := by
      intro hadmits
      cases first with
      | admitVisible c' participant =>
        obtain rfl : c' = c := hadmits
        obtain ⟨rfl, -⟩ := hdoors.of_admitVisible hthread
        rw [(htended c' (accepted_step.trans hc)).1] at hthread
        cases hthread
      | _ => exact hadmits
    exact (congrArg Prod.fst (exec_who hadmits)).trans hzero

end Host

end PlayTogether

end SuperShuckie
