import SuperShuckie.PlayTogether.Admission

/-!
# Peer ids

Peer ids come from a 16-bit counter that starts after the host's own id and only grows.  As long as it
does not overflow nobody gets an id that somebody else has or had (`IdsInv`).  It overflows at the
65,534th admission of a session: `ids_apart_iff_fewAdmissions` says that this is the only way in which
the ids go wrong, and `visits_overflow` is a session of clients that come and go for so long.
-/

set_option autoImplicit false

namespace SuperShuckie

open ByteFormat

namespace PlayTogether

namespace Host

variable (config : HostConfig)

/-- The event admits a client, which takes the next id. -/
def Allocates : Event → Host → Prop
  | .advance t _, h =>
    match h.threads t with
    | .admitLocked c hello start :: _ =>
      ¬ h.Blocked t (.admitLocked c hello start) ∧
        h.admittedInfos.length + 1 < config.maxParticipants
    | _ => False
  | _, _ => False

instance (event : Event) (h : Host) : Decidable (Allocates config event h) := by
  rcases event with ⟨⟩
  case advance t full =>
    unfold Allocates
    dsimp only
    rcases h.threads t with _ | ⟨⟨⟩, rest⟩ <;> dsimp only <;> infer_instance
  all_goals
    unfold Allocates
    infer_instance

/-- The event takes the last id that there is, so that counting on overflows. -/
def IdOverflow (event : Event) (h : Host) : Prop :=
  Allocates config event h ∧ 2 ^ 16 ≤ h.nextPeerId.toNat + 1

/-- How many clients are admitted along a run. -/
def admissions : List Event → Host → Nat
  | [], _ => 0
  | event :: events, h =>
    (if Allocates config event h then 1 else 0) + admissions events (step config event h)

variable {config}

/-- Every participant has an id that is neither 0 nor the host's, and that no other participant in
the session has. -/
def IdsApart (h : Host) : Prop :=
  ∀ c info, (h.conn c).info = some info →
    info.peerId = (h.conn c).peerId ∧ info.peerId ≠ 0 ∧ info.peerId ≠ hostPeerId ∧
      ∀ c' info', c' ∈ h.listed → c' ≠ c → (h.conn c').info = some info' →
        info'.peerId ≠ info.peerId

/-! ## While the counter grows -/

/-- So many ids were given out, all different. -/
structure IdsInv (n : Nat) (h : Host) : Prop where
  doors : h.Doors
  next : h.nextPeerId.toNat = 2 + n
  known : ∀ c info, (h.conn c).info = some info → info.peerId = (h.conn c).peerId ∧
    2 ≤ info.peerId.toNat ∧ info.peerId.toNat < 2 + n
  apart : ∀ c c' info info', c' ≠ c → (h.conn c).info = some info → (h.conn c').info = some info' →
    info'.peerId ≠ info.peerId
  entering : ∀ c participant, Threads.Pending h.threads (.admitVisible c participant) →
    participant.peerId.toNat = 1 + n ∧ 0 < n ∧
      ∀ c info, (h.conn c).info = some info → info.peerId.toNat < 1 + n

variable {h h' : Host} {n : Nat} {event : Event}

theorem IdsInv.apart_ids (hinv : h.IdsInv n) : h.IdsApart := by
  intro c info hinfo
  obtain ⟨hpeer, hlow, -⟩ := hinv.known c info hinfo
  refine ⟨hpeer, ?_, ?_, fun c' info' _ hne hinfo' ↦ hinv.apart c c' info info' hne hinfo hinfo'⟩
  · rintro heq
    rw [heq] at hlow
    exact absurd hlow (by decide)
  · rintro heq
    rw [heq] at hlow
    exact absurd hlow (by decide)

variable {participant : ParticipantInfo} {t : HostThread}

/-- Who is about to become a participant holds the lock. -/
theorem Doors.holder_of_entering (hdoors : h.Doors) {c : Nat}
    (hjob : Threads.Pending h.threads (.admitVisible c participant)) : h.holder ≠ none := by
  obtain ⟨t, hmem⟩ := hjob
  by_cases ht : ∀ c', t ≠ .reader c'
  · exact absurd trivial ((hdoors.others t ht).1 _ hmem)
  · push Not at ht
    obtain ⟨c', rfl⟩ := ht
    cases hdoors.door c' with
    | away hjobs => exact absurd trivial (hjobs _ hmem)
    | knocking hello hjobs =>
      rw [hjobs] at hmem
      cases List.mem_singleton.1 hmem
    | waiting hello start hjobs =>
      rw [hjobs] at hmem
      cases List.mem_singleton.1 hmem
    | entering start participant' k hk hjobs hout hid hhold =>
      rw [hhold]
      exact nofun

/-- Nothing that the ids depend on changed. -/
theorem IdsInv.same (hinv : h.IdsInv n) (hdoors : h'.Doors) (hnext : h'.nextPeerId = h.nextPeerId)
    (hwho : ∀ c, (h'.conn c).who = (h.conn c).who)
    (hpending : ∀ c participant, Threads.Pending h'.threads (.admitVisible c participant) →
      Threads.Pending h.threads (.admitVisible c participant)) : h'.IdsInv n := by
  have hinfo : ∀ c, (h'.conn c).info = (h.conn c).info := fun c ↦ congrArg Prod.snd (hwho c)
  have hpeer : ∀ c, (h'.conn c).peerId = (h.conn c).peerId := fun c ↦ congrArg Prod.fst (hwho c)
  refine ⟨hdoors, by rw [hnext]; exact hinv.next, fun c info h ↦ ?_, fun c c' info info' hne h h' ↦ ?_,
    fun c participant hjob ↦ ?_⟩
  · rw [hpeer]
    exact hinv.known c info (hinfo c ▸ h)
  · exact hinv.apart c c' info info' hne (hinfo c ▸ h) (hinfo c' ▸ h')
  · obtain ⟨hid, hpos, hall⟩ := hinv.entering c participant (hpending c participant hjob)
    exact ⟨hid, hpos, fun c info h ↦ hall c info (hinfo c ▸ h)⟩

theorem not_allocates_of_outside (hout : event.Outside) : ¬ Allocates config event h := by
  cases event with
  | advance => exact absurd hout id
  | _ => exact id

theorem IdsInv.outside (hinv : h.IdsInv n) (hout : event.Outside) :
    (step config event h).IdsInv n := by
  obtain ⟨hsame, -⟩ := @step_outside config _ h hout
  refine hinv.same (hinv.doors.outside hout) (congrArg Prod.snd (step_entrance hout)) hsame.who ?_
  intro c participant hjob
  refine (pending_outside hout hjob).resolve_right fun hnew ↦ ?_
  obtain hjobs | ⟨c', hello, -, hjobs, -⟩ := @atDoor_start h event
  · exact hjobs _ hnew trivial
  · rw [hjobs] at hnew
    cases List.mem_singleton.1 hnew

/-- Only a client that was admitted is about to become a participant. -/
theorem not_entering_next {full : Bool} {job : Job} {c : Nat}
    (hjob : ∀ c hello start, job ≠ .admitLocked c hello start) :
    .admitVisible c participant ∉ (job.exec config full t h).1 := by
  intro hnew
  have hnext := Job.next_of_mem_exec hnew
  by_cases hdoor : job.AtDoor
  · cases job with
    | admitLocked c' hello start => exact hjob c' hello start rfl
    | admitPeer c' hello =>
      obtain ⟨-, ⟨reason, text, heq⟩ | heq⟩ := @exec_admitPeer config h c' full t hello
      · rw [heq] at hnew
        exact not_atDoor_refuse _ hnew trivial
      · rw [heq] at hnew
        cases List.mem_singleton.1 hnew
    | admitPause | admitSpeed | admitStart | admitVisible => exact absurd hnew List.not_mem_nil
    | _ => exact hdoor
  · exact Job.not_atDoor_next hnext hdoor trivial

/-- While there are ids left, so are there for the next admission. -/
theorem IdsInv.idsLeft (hinv : h.IdsInv n) : IdsLeft event h := by
  have hne : h.nextPeerId ≠ 0 := by
    intro heq
    have hnext := hinv.next
    rw [heq] at hnext
    have : (0 : PeerId).toNat = 0 := rfl
    omega
  unfold IdsLeft
  split
  · split
    · exact hne
    · trivial
  · trivial

/-- A client is admitted, with the next id. -/
theorem IdsInv.allocated (hinv : h.IdsInv n) {full : Bool} {c : Nat} {hello : Hello}
    {start : Option StartStateData} {rest : List Job}
    (hthread : h.threads t = .admitLocked c hello start :: rest)
    (hblocked : ¬ h.Blocked t (.admitLocked c hello start))
    (hroom : h.admittedInfos.length + 1 < config.maxParticipants) (hfew : n + 1 ≤ 65533) :
    (((Job.admitLocked c hello start).exec config full t h).2.done t h.threads
      (((Job.admitLocked c hello start).exec config full t h).1 ++ rest)).IdsInv (n + 1) := by
  have hdoors := @Doors.exec config h t full _ rest hinv.doors hthread hblocked hinv.idsLeft
  have hnone : h.holder = none := by
    by_contra hholder
    refine hblocked ⟨rfl, hholder, fun hself ↦ ?_⟩
    obtain ⟨c', start', participant', k, rfl, hk, hjobs, -⟩ := hinv.doors.holder hself
    rw [hthread] at hjobs
    obtain rfl | rfl | rfl | rfl : k = 0 ∨ k = 1 ∨ k = 2 ∨ k = 3 := by omega
    all_goals cases hjobs
  have hexec : (Job.admitLocked c hello start).exec config full t h =
      (entry c start (newParticipant config hello h),
        { h.onConn c (·.push full
            (.message (welcomeMessage config (newParticipant config hello h) h))) with
          nextPeerId := h.nextPeerId + 1
          holder := some t }) := by
    rw [Job.exec, PlayTogether.admitLocked, if_neg (by omega)]
    rfl
  rw [hexec] at hdoors ⊢
  have hwho : ∀ c', ((h.onConn c (·.push full (.message (welcomeMessage config
      (newParticipant config hello h) h)))).conn c').who = (h.conn c').who :=
    (sameRoster_onConn Conn.push_who).who
  have hinfo : ∀ c', ((h.onConn c (·.push full (.message (welcomeMessage config
      (newParticipant config hello h) h)))).conn c').info = (h.conn c').info :=
    fun c' ↦ congrArg Prod.snd (hwho c')
  have hpeer : ∀ c', ((h.onConn c (·.push full (.message (welcomeMessage config
      (newParticipant config hello h) h)))).conn c').peerId = (h.conn c').peerId :=
    fun c' ↦ congrArg Prod.fst (hwho c')
  have hnext := hinv.next
  refine ⟨hdoors, ?_, fun c' info hc' ↦ ?_, fun c₁ c₂ info info' hne h₁ h₂ ↦ ?_,
    fun c' participant hjob ↦ ?_⟩
  · show (h.nextPeerId + 1).toNat = 2 + (n + 1)
    rw [UInt16.toNat_add, hnext]
    have : (1 : UInt16).toNat = 1 := rfl
    omega
  · obtain ⟨heq, hlow, hhigh⟩ := hinv.known c' info (hinfo c' ▸ hc')
    exact ⟨heq.trans (hpeer c').symm, hlow, by omega⟩
  · exact hinv.apart c₁ c₂ info info' hne (hinfo c₁ ▸ h₁) (hinfo c₂ ▸ h₂)
  · obtain hnew | hold := Threads.pending_of_done hthread hjob
    · have heq : participant = newParticipant config hello h := by
        simp only [entry, List.mem_cons, List.not_mem_nil, or_false, reduceCtorEq, false_or,
          Job.admitVisible.injEq] at hnew
        exact hnew.2
      subst heq
      refine ⟨?_, Nat.succ_pos n, fun c₁ info h₁ ↦ ?_⟩
      · show h.nextPeerId.toNat = 1 + (n + 1)
        omega
      · have := (hinv.known c₁ info (hinfo c₁ ▸ h₁)).2.2
        omega
    · exact absurd hnone (hinv.doors.holder_of_entering hold)

/-- The client becomes a participant. -/
theorem IdsInv.admitted (hinv : h.IdsInv n) {full : Bool} {c : Nat} {rest : List Job}
    (hthread : h.threads t = .admitVisible c participant :: rest)
    (hblocked : ¬ h.Blocked t (.admitVisible c participant)) :
    (((Job.admitVisible c participant).exec config full t h).2.done t h.threads
      (((Job.admitVisible c participant).exec config full t h).1 ++ rest)).IdsInv n := by
  have hdoors := @Doors.exec config h t full _ rest hinv.doors hthread hblocked hinv.idsLeft
  obtain ⟨hid, hpos, hall⟩ := hinv.entering c participant ⟨t, hthread ▸ List.mem_cons_self⟩
  have hconn : ∀ c', ((Job.admitVisible c participant).exec config full t h).2.conn c' =
      if c' = c then (h.conn c).admitAs participant else h.conn c' := fun _ ↦ onConn_conn
  -- the new participant, and the others as they were
  have hinfo : ∀ c' info,
      (((Job.admitVisible c participant).exec config full t h).2.conn c').info = some info →
        c' = c ∧ info = participant ∨ c' ≠ c ∧ (h.conn c').info = some info := by
    intro c' info hc'
    rw [hconn] at hc'
    split_ifs at hc' with heq
    · exact .inl ⟨heq, (Option.some.inj hc').symm⟩
    · exact .inr ⟨heq, hc'⟩
  refine ⟨hdoors, hinv.next, fun c' info hc' ↦ ?_, fun c₁ c₂ info info' hne h₁ h₂ ↦ ?_,
    fun c' participant' hjob ↦ ?_⟩
  · rw [done_conn, hconn]
    obtain ⟨rfl, rfl⟩ | ⟨hne, hold⟩ := hinfo c' info hc'
    · rw [if_pos rfl]
      exact ⟨rfl, by omega, by omega⟩
    · rw [if_neg hne]
      exact hinv.known c' info hold
  · obtain ⟨rfl, rfl⟩ | ⟨-, hold₁⟩ := hinfo c₁ info h₁ <;>
      obtain ⟨rfl, rfl⟩ | ⟨-, hold₂⟩ := hinfo c₂ info' h₂
    · exact absurd rfl hne
    · have hlt := hall c₂ info' hold₂
      intro heq
      rw [heq] at hlt
      omega
    · have hlt := hall c₁ info hold₁
      intro heq
      rw [← heq] at hlt
      omega
    · exact hinv.apart c₁ c₂ info info' hne hold₁ hold₂
  · exact absurd rfl (hdoors.holder_of_entering hjob)

theorem not_allocates_of_ne {full : Bool} {job : Job} {rest : List Job}
    (hthread : h.threads t = job :: rest)
    (hjob : ∀ c hello start, job ≠ .admitLocked c hello start) :
    ¬ Allocates config (.advance t full) h := by
  rw [Allocates, hthread]
  cases job with
  | admitLocked c hello start => exact absurd rfl (hjob c hello start)
  | _ => exact id

/-- What a job does to the ids. -/
theorem IdsInv.exec (hinv : h.IdsInv n) {t : HostThread} {full : Bool} {job : Job} {rest : List Job}
    (hthread : h.threads t = job :: rest) (hblocked : ¬ h.Blocked t job)
    (hfew : n + (if Allocates config (.advance t full) h then 1 else 0) ≤ 65533) :
    ((job.exec config full t h).2.done t h.threads ((job.exec config full t h).1 ++ rest)).IdsInv
      (n + if Allocates config (.advance t full) h then 1 else 0) := by
  have hdoors := @Doors.exec config h t full _ rest hinv.doors hthread hblocked hinv.idsLeft
  by_cases hlocks : job.Locks
  · cases job with
    | admitLocked c hello start =>
      have hiff : Allocates config (.advance t full) h ↔
          h.admittedInfos.length + 1 < config.maxParticipants := by
        rw [Allocates, hthread]
        exact and_iff_right hblocked
      by_cases hroom : h.admittedInfos.length + 1 < config.maxParticipants
      · rw [if_pos (hiff.2 hroom)] at hfew ⊢
        exact hinv.allocated hthread hblocked hroom hfew
      · rw [if_neg (mt hiff.1 hroom)]
        have hexec : (Job.admitLocked c hello start).exec config full t h = (refuse c .sessionFull
            s!"the session already has {config.maxParticipants} participants", h) := by
          rw [Job.exec, PlayTogether.admitLocked, if_pos (not_lt.1 hroom)]
        rw [hexec] at hdoors ⊢
        refine hinv.same hdoors rfl (fun _ ↦ rfl) fun c' participant hjob ↦ ?_
        refine (Threads.pending_of_done hthread hjob).resolve_left fun hnew ↦ ?_
        exact not_atDoor_refuse _ hnew trivial
    | admitVisible c participant =>
      rw [if_neg (not_allocates_of_ne hthread fun _ _ _ h ↦ by cases h)]
      exact hinv.admitted hthread hblocked
    | _ => exact absurd hlocks id
  · have hjob : ∀ c hello start, job ≠ .admitLocked c hello start := by
      rintro c hello start rfl
      exact hlocks trivial
    have hadmits : ∀ c, ¬ job.Admits c := by
      intro c hadmits
      cases job with
      | admitVisible => exact hlocks trivial
      | _ => exact hadmits
    rw [if_neg (not_allocates_of_ne hthread hjob)]
    refine hinv.same hdoors (congrArg Prod.snd (exec_entrance hlocks)) (fun c ↦ exec_who (hadmits c)) ?_
    intro c participant hpending
    exact (Threads.pending_of_done hthread hpending).resolve_left (not_entering_next hjob)

/-- **A step gives out an id of its own**, as long as the counter does not overflow. -/
theorem IdsInv.step (hinv : h.IdsInv n)
    (hfew : n + (if Allocates config event h then 1 else 0) ≤ 65533) :
    (Host.step config event h).IdsInv (n + if Allocates config event h then 1 else 0) ∧
      ¬ IdOverflow config event h := by
  refine ⟨?_, fun ⟨hallocates, hover⟩ ↦ ?_⟩
  · by_cases hout : event.Outside
    · rw [if_neg (not_allocates_of_outside hout)]
      exact hinv.outside hout
    · obtain ⟨t, full, rfl⟩ : ∃ t full, event = .advance t full := by
        cases event with
        | advance t full => exact ⟨t, full, rfl⟩
        | _ => exact absurd trivial hout
      show (h.advance config t full).IdsInv _
      cases hthread : h.threads t with
      | nil =>
        have hsame : h.advance config t full = h := by
          rw [advance, hthread]
        have hnot : ¬ Allocates config (.advance t full) h := by
          simp [Allocates, hthread]
        rw [hsame, if_neg hnot]
        exact hinv
      | cons job rest =>
        by_cases hblocked : h.Blocked t job
        · have hsame : h.advance config t full = h := by
            rw [advance, hthread]
            exact if_pos hblocked
          have hnot : ¬ Allocates config (.advance t full) h := by
            rw [Allocates, hthread]
            cases job with
            | admitLocked => exact fun hallocates ↦ hallocates.1 hblocked
            | _ => exact id
          rw [hsame, if_neg hnot]
          exact hinv
        · have hadvance : h.advance config t full = (job.exec config full t h).2.done t h.threads
              ((job.exec config full t h).1 ++ rest) := by
            rw [advance, hthread]
            exact if_neg hblocked
          rw [hadvance]
          exact hinv.exec hthread hblocked hfew
  · rw [if_pos hallocates] at hfew
    have := hinv.next
    omega

/-! ## Over a whole session -/

theorem idsInv_new : new.IdsInv 0 where
  doors := doors_new
  next := rfl
  known _ _ h := nomatch h
  apart _ _ _ _ _ h := nomatch h
  entering _ _ := fun ⟨_, hjob⟩ ↦ absurd hjob List.not_mem_nil

theorem IdsInv.run {events : List Event} (hinv : h.IdsInv n)
    (hfew : n + admissions config events h ≤ 65533) :
    (Runs.run (Host.step config) events h).IdsInv (n + admissions config events h) ∧
      Runs.Along (Host.step config) (fun event h ↦ ¬ IdOverflow config event h) events h := by
  induction events generalizing n h with
  | nil => exact ⟨hinv, trivial⟩
  | cons event events ih =>
    rw [admissions, ← Nat.add_assoc] at hfew
    obtain ⟨hstep, hnot⟩ := @IdsInv.step config _ _ event hinv (by omega)
    obtain ⟨hrun, halong⟩ := ih hstep hfew
    rw [admissions, ← Nat.add_assoc]
    exact ⟨hrun, hnot, halong⟩

/-- One admission too many overflows the counter. -/
theorem IdsInv.overflow {events : List Event} (hinv : h.IdsInv n) (hn : n ≤ 65533)
    (hmany : 65533 < n + admissions config events h) :
    ¬ Runs.Along (Host.step config) (fun event h ↦ ¬ IdOverflow config event h) events h := by
  induction events generalizing n h with
  | nil => exact absurd hmany (by rw [admissions]; omega)
  | cons event events ih =>
    rintro ⟨hnot, halong⟩
    rw [admissions, ← Nat.add_assoc] at hmany
    by_cases hfew : n + (if Allocates config event h then 1 else 0) ≤ 65533
    · exact ih (hinv.step hfew).1 hfew hmany halong
    · by_cases hallocates : Allocates config event h
      · rw [if_pos hallocates] at hfew
        have hnext := hinv.next
        exact hnot ⟨hallocates, by omega⟩
      · rw [if_neg hallocates] at hfew
        exact absurd hn hfew

theorem admissions_le_of_append {events events' : List Event} :
    admissions config events h ≤ admissions config (events ++ events') h := by
  induction events generalizing h with
  | nil => exact Nat.zero_le _
  | cons event events ih =>
    rw [List.cons_append, admissions, admissions]
    exact Nat.add_le_add_left ih _

variable (config) in
/-- The ids are as they should be all along a session: apart after each step, and the counter never
overflows. -/
def IdsSound (events : List Event) : Prop :=
  (∀ events', events' <+: events → (Runs.run (Host.step config) events' new).IdsApart) ∧
    Runs.Along (Host.step config) (fun event h ↦ ¬ IdOverflow config event h) events new

/-- **Peer ids are never reused and never run out** exactly in the sessions with at most 65,533
admissions. -/
theorem ids_apart_iff_fewAdmissions {events : List Event} :
    IdsSound config events ↔ admissions config events new ≤ 65533 := by
  constructor
  · rintro ⟨-, halong⟩
    by_contra hmany
    exact idsInv_new.overflow (Nat.zero_le _) (by omega) halong
  · intro hfew
    refine ⟨?_, (idsInv_new.run (by omega)).2⟩
    rintro events' ⟨later, rfl⟩
    have hle := @admissions_le_of_append config new events' later
    exact (@IdsInv.run config _ _ events' idsInv_new (by omega)).1.apart_ids

/-! ## A session of visits -/

/-- Nobody is there, and nothing is going on; so many connections came in before. -/
structure Quiet (k : Nat) (h : Host) : Prop where
  threads : h.threads = fun _ ↦ []
  accepted : h.accepted = k
  listed : h.listed = []
  holder : h.holder = none
  fresh : ∀ c, k ≤ c → h.conn c = .new
  start : h.startState = none
  links : h.roster.links = []

def visitor : Hello := ⟨protocolVersion, 7, "", "Player", 2, gameBoyGame⟩

/-- A client connects and says `Hello`. -/
def arrives (k : Nat) : List Event :=
  [.connect, .advance .accept false,
    .receive k (.hello protocolVersion 7 "" "Player" 2 gameBoyGame) none false]

/-- Its connection breaks. -/
def leaves (k : Nat) : List Event := .lose k .ioError :: advances (.reader k) 6

/-- A client comes, is admitted and goes. -/
def visit (k : Nat) : List Event := arrives k ++ advances (.reader k) 8 ++ leaves k

/-- So many clients come and go, one after another. -/
def visits (n : Nat) : List Event := (List.range n).flatMap visit

theorem Quiet.arrives {k : Nat} (hquiet : h.Quiet k) :
    Runs.run (Host.step smallSession) (arrives k) h =
        { h with
          accepted := k + 1
          listed := [k]
          threads := Function.update (fun _ ↦ []) (.reader k) [.admitPeer k visitor] } ∧
      admissions smallSession (Host.arrives k) h = 0 := by
  obtain ⟨conn, accepted, listed, nextPeerId, roster, syncPause, linkSpeed, startState, events,
    holder, threads, past⟩ := h
  obtain ⟨rfl, rfl, rfl, rfl, hfresh, rfl, hlinks⟩ := hquiet
  dsimp only at hfresh
  have hnew := hfresh accepted (Nat.le_refl _)
  simp [Runs.run, Host.arrives, Host.step, advance, Host.start, Blocked, Job.needsLock, Job.exec,
    handleMessage, visitor, hnew, Conn.new, Function.update_idem, admissions, Allocates]

/-- The only client there is admitted. -/
theorem run_admitted {k : Nat} (hlisted : h.listed = [k]) (hholder : h.holder = none)
    (hnew : h.conn k = .new) (hstart : h.startState = none)
    (hthreads : h.threads = Function.update (fun _ ↦ []) (.reader k) [.admitPeer k visitor]) :
    ∃ h', Runs.run (Host.step smallSession) (advances (.reader k) 8) h = h' ∧
      h'.threads = (fun _ ↦ []) ∧ h'.accepted = h.accepted ∧ h'.listed = [k] ∧ h'.holder = none ∧
      (∀ c, c ≠ k → h'.conn c = h.conn c) ∧ (h'.conn k).peerId = h.nextPeerId ∧
      (h'.conn k).closing = false ∧ h'.startState = none ∧ h'.roster = h.roster ∧
      h'.nextPeerId = h.nextPeerId + 1 ∧
      admissions smallSession (advances (.reader k) 8) h = 1 := by
  obtain ⟨conn, accepted, listed, nextPeerId, roster, syncPause, linkSpeed, startState, events,
    holder, threads, past⟩ := h
  dsimp only at *
  subst hlisted hholder hstart hthreads
  have hrefusal : helloRefusal smallSession visitor = none := rfl
  have hmax : smallSession.maxParticipants = 8 := rfl
  refine ⟨_, rfl, ?_⟩
  simp [Runs.run, advances, List.replicate, Host.step, advance, Blocked, Job.needsLock, Job.exec,
    hrefusal, hnew, Conn.new, Function.update_idem, PlayTogether.admitLocked, admittedInfos,
    admittedConns, hmax, onConn, Conn.push, Conn.admitAs, Conn.Admitted, newParticipant, admissions,
    Allocates]
  intro c hc
  rw [Function.update_of_ne hc]

/-- The only participant leaves. -/
theorem run_left {k : Nat} (hlisted : h.listed = [k]) (hholder : h.holder = none)
    (hopen : (h.conn k).closing = false) (hpeer : (h.conn k).peerId ≠ 0)
    (hlinks : h.roster.links = []) (hk : k < h.accepted) (hthreads : h.threads = fun _ ↦ []) :
    ∃ h', Runs.run (Host.step smallSession) (leaves k) h = h' ∧ h'.threads = (fun _ ↦ []) ∧
      h'.accepted = h.accepted ∧ h'.listed = [] ∧ h'.holder = none ∧
      (∀ c, c ≠ k → h'.conn c = h.conn c) ∧ h'.startState = h.startState ∧ h'.roster.links = [] ∧
      h'.nextPeerId = h.nextPeerId ∧ admissions smallSession (leaves k) h = 0 := by
  obtain ⟨conn, accepted, listed, nextPeerId, roster, syncPause, linkSpeed, startState, events,
    holder, threads, past⟩ := h
  dsimp only at *
  subst hlisted hholder hthreads
  refine ⟨_, rfl, ?_⟩
  simp [Runs.run, leaves, advances, List.replicate, Host.step, advance, Host.start, Blocked,
    Job.needsLock, Job.exec, hopen, hpeer, hk, Function.update_idem, admittedConns, onConn,
    Conn.beginClose, admissions, Allocates, Roster.partners, Roster.depart, hlinks]
  intro c hc
  rw [Function.update_of_ne hc]

theorem admissions_append {events events' : List Event} : admissions config (events ++ events') h =
      admissions config events h +
        admissions config events' (Runs.run (Host.step config) events h) := by
  induction events generalizing h with
  | nil => exact (Nat.zero_add _).symm
  | cons event events ih =>
    rw [List.cons_append, admissions, admissions, ih, Nat.add_assoc]
    rfl

/-- **A visit** uses up one id and leaves everything quiet. -/
theorem Quiet.visit {k : Nat} (hquiet : h.Quiet k) (hid : h.nextPeerId ≠ 0) :
    (Runs.run (Host.step smallSession) (visit k) h).Quiet (k + 1) ∧
      (Runs.run (Host.step smallSession) (Host.visit k) h).nextPeerId = h.nextPeerId + 1 ∧
      admissions smallSession (Host.visit k) h = 1 := by
  obtain ⟨harrives, hnone⟩ := hquiet.arrives
  obtain ⟨h₁, hrun₁, hthreads₁, haccepted₁, hlisted₁, hholder₁, hconn₁, hpeer₁, hopen₁, hstart₁,
    hroster₁, hnext₁, hone⟩ := @run_admitted (Runs.run (Host.step smallSession) (Host.arrives k) h) k
      (by rw [harrives]) (by rw [harrives]; exact hquiet.holder)
      (by rw [harrives]; exact hquiet.fresh k (Nat.le_refl _)) (by rw [harrives]; exact hquiet.start)
      (by rw [harrives])
  obtain ⟨h₂, hrun₂, hthreads₂, haccepted₂, hlisted₂, hholder₂, hconn₂, hstart₂, hlinks₂, hnext₂,
    hzero⟩ := run_left hlisted₁ hholder₁ hopen₁ (by rw [hpeer₁, harrives]; exact hid)
      (by rw [hroster₁, harrives]; exact hquiet.links)
      (by rw [haccepted₁, harrives]; exact Nat.lt_succ_self _) hthreads₁
  have hrun : Runs.run (Host.step smallSession) (Host.visit k) h = h₂ := by
    rw [Host.visit, Runs.run_append, Runs.run_append, hrun₁, hrun₂]
  rw [hrun]
  refine ⟨⟨hthreads₂, ?_, hlisted₂, hholder₂, fun c hc ↦ ?_, hstart₂.trans hstart₁, hlinks₂⟩, ?_, ?_⟩
  · rw [haccepted₂, haccepted₁, harrives]
  · have hne : c ≠ k := by omega
    rw [hconn₂ c hne, hconn₁ c hne, harrives]
    exact hquiet.fresh c (by omega)
  · rw [hnext₂, hnext₁, harrives]
  · rw [Host.visit, admissions_append, admissions_append, Runs.run_append, hrun₁, hone, hnone, hzero]

theorem quiet_visits {n : Nat} (hn : n ≤ 65534) :
    (Runs.run (Host.step smallSession) (visits n) new).Quiet n ∧
      (Runs.run (Host.step smallSession) (visits n) new).nextPeerId = 2 + UInt16.ofNat n ∧
      admissions smallSession (visits n) new = n := by
  induction n with
  | zero => exact ⟨⟨rfl, rfl, rfl, rfl, fun _ _ ↦ rfl, rfl, rfl⟩, rfl, rfl⟩
  | succ n ih =>
    obtain ⟨hquiet, hnext, hcount⟩ := ih (by omega)
    have hid : (Runs.run (Host.step smallSession) (visits n) new).nextPeerId ≠ 0 := by
      rw [hnext]
      intro hzero
      have hnat := congrArg UInt16.toNat hzero
      rw [UInt16.toNat_add, UInt16.toNat_ofNat'] at hnat
      have htwo : (2 : UInt16).toNat = 2 := rfl
      have hz : (0 : UInt16).toNat = 0 := rfl
      omega
    obtain ⟨hquiet', hnext', hone⟩ := hquiet.visit hid
    have hvisits : visits (n + 1) = visits n ++ Host.visit n := by
      rw [visits, List.range_succ, List.flatMap_append, List.flatMap_singleton]
      rfl
    rw [hvisits, Runs.run_append, admissions_append, hcount, hone]
    refine ⟨hquiet', ?_, rfl⟩
    have hsucc : UInt16.ofNat (n + 1) = UInt16.ofNat n + 1 := UInt16.ofNat_add n 1
    rw [hnext', hnext, UInt16.add_assoc, hsucc]

theorem not_idsSound_visits {n : Nat} (hmany : 65533 < n) (hn : n ≤ 65534) :
    ¬ IdsSound smallSession (visits n) := by
  rintro ⟨-, halong⟩
  refine idsInv_new.overflow (Nat.zero_le _) ?_ halong
  rwa [(quiet_visits hn).2.2, Nat.zero_add]

/-- **The 65,534th visit** takes the last id, and the counter overflows. -/
theorem visits_overflow : ¬ IdsSound smallSession (visits 65534) :=
  not_idsSound_visits (Nat.lt_succ_self _) (Nat.le_refl _)

end Host

end PlayTogether

end SuperShuckie
