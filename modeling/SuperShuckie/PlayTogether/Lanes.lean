import SuperShuckie.PlayTogether.HostSteps

/-!
# What goes through the lanes of a connection

What a client is told on some topic is what was queued on the ordinary lane of its connection and is
about the topic; the writer keeps the order, and what goes through the urgent lane is about none.  One
job changes a connection in one of the ways that `Laned` lists.
-/

set_option autoImplicit false

namespace SuperShuckie

open ByteFormat

namespace PlayTogether

variable {config : HostConfig}

/-! ## One connection -/

namespace Conn

/-- What was written on a connection and waits to be, but for what is on the urgent lane. -/
def pipeline (c : Conn) : List Item := c.written ++ c.writing ++ c.items

/-- Nothing waits to be written. -/
def Delivered (c : Conn) : Prop := c.items = [] ∧ c.urgent = [] ∧ c.writing = []

instance (c : Conn) : Decidable c.Delivered := inferInstanceAs (Decidable (_ ∧ _))

/-- What a connection was told on a topic, the oldest first. -/
def heard {α : Type} (said : Item → Option α) (c : Conn) : List α := c.pipeline.filterMap said

variable {c : Conn}

theorem Delivered.pipeline (h : c.Delivered) : c.pipeline = c.written := by
  rw [Conn.pipeline, h.1, h.2.2, List.append_nil, List.append_nil]

variable {full : Bool} {item : Item}

@[simp] theorem push_closing : (c.push full item).closing = c.closing := by
  rw [push]
  split_ifs <;> rfl

@[simp] theorem push_urgent : (c.push full item).urgent = c.urgent := by
  rw [push]
  split_ifs <;> rfl

@[simp] theorem pushUrgent_closing {m : Message} : (c.pushUrgent full m).closing = c.closing := by
  rw [pushUrgent]
  split_ifs <;> rfl

@[simp] theorem pushUrgent_pipeline {m : Message} :
    (c.pushUrgent full m).pipeline = c.pipeline := by
  rw [pushUrgent]
  split_ifs <;> rfl

@[simp] theorem beginClose_closing {flush : Bool} : (c.beginClose flush).closing = true := by
  rw [beginClose]
  split_ifs <;> rfl

@[simp] theorem write_closing : c.write.closing = c.closing := by
  rw [write]
  split <;> rfl

theorem push_pipeline_of_room (hopen : c.closing = false) :
    (c.push false item).pipeline = c.pipeline ++ [item] := by
  rw [push, if_neg (by simp [hopen])]
  exact (List.append_assoc ..).symm

theorem write_pipeline : c.write.pipeline = c.pipeline := by
  rw [write]
  split
  · next item writing hwriting =>
    rw [pipeline, pipeline, hwriting, List.append_assoc c.written]
    rfl
  · rfl

variable {α : Type} {said : Item → Option α}

theorem heard_push (hopen : c.closing = false) :
    (c.push false item).heard said = c.heard said ++ (said item).toList := by
  rw [heard, push_pipeline_of_room hopen, List.filterMap_append]
  show _ = c.pipeline.filterMap said ++ (said item).toList
  rw [List.filterMap_cons, List.filterMap_nil]
  cases said item <;> rfl

/-- What says nothing on the topic may be queued, or not. -/
theorem heard_push_of_none (hsaid : said item = none) :
    (c.push full item).heard said = c.heard said := by
  by_cases hroom : c.closing ∨ full
  · rw [push, if_pos hroom]
  · rw [not_or, Bool.not_eq_true, Bool.not_eq_true] at hroom
    rw [hroom.2, heard_push hroom.1, hsaid, Option.toList_none, List.append_nil]

/-- A topic on which pings and what goes through the urgent lane say nothing. -/
def Ordinary (said : Item → Option α) : Prop :=
  (∀ m : Message, m.isLinkRelay → said (.message m) = none) ∧
    ∀ nonce millis, said (.message (.ping nonce millis)) = none

theorem Ordinary.filterMap_urgent {urgent : List Message} (hsaid : Ordinary said)
    (hurgent : ∀ m ∈ urgent, m.isLinkRelay) : (urgent.map Item.message).filterMap said = [] := by
  rw [List.filterMap_eq_nil_iff]
  intro item hitem
  obtain ⟨m, hm, rfl⟩ := List.mem_map.mp hitem
  exact hsaid.1 m (hurgent m hm)

theorem heard_drain {ping : Option (UInt32 × UInt64)} (hsaid : Ordinary said)
    (hurgent : ∀ m ∈ c.urgent, m.isLinkRelay) (hwriting : c.writing = []) :
    (c.drain ping).heard said = c.heard said := by
  have hping : ((ping.map fun p ↦ Item.message (.ping p.1 p.2)).toList).filterMap said = [] := by
    cases ping with
    | none => rfl
    | some p => exact List.filterMap_cons_none (hsaid.2 p.1 p.2)
  show ((c.written ++ (c.urgent.map Item.message ++ c.items ++ _)) ++ []).filterMap said = _
  rw [List.append_nil, List.filterMap_append, List.filterMap_append, List.filterMap_append,
    hsaid.filterMap_urgent hurgent, hping, heard, pipeline, hwriting, List.filterMap_append,
    List.append_nil, List.append_nil, List.nil_append]

theorem heard_takeUrgent (hsaid : Ordinary said) (hurgent : ∀ m ∈ c.urgent, m.isLinkRelay) :
    c.takeUrgent.heard said = c.heard said := by
  show ((c.written ++ (c.urgent.map Item.message ++ c.writing)) ++ c.items).filterMap said = _
  rw [List.filterMap_append, List.filterMap_append, List.filterMap_append,
    hsaid.filterMap_urgent hurgent, List.nil_append, heard, pipeline, List.filterMap_append,
    List.filterMap_append]

end Conn

/-- Every thread is idle, and everything that was queued is written. -/
def Host.Settled (h : Host) : Prop :=
  (∀ t, h.threads t = []) ∧ ∀ c ∈ h.listed, (h.conn c).Delivered

theorem Host.Tended.settled {h : Host} (htended : h.Tended) (hjobs : h.jobs = [])
    (hlanes : ∀ c ∈ h.listed, (h.conn c).Delivered) : h.Settled := by
  refine ⟨fun t ↦ List.eq_nil_iff_forall_not_mem.mpr fun job hjob ↦ ?_, hlanes⟩
  have hmem := htended.mem_jobs.mpr ⟨t, hjob⟩
  rw [hjobs] at hmem
  exact List.not_mem_nil hmem

/-! ## What a job does to a connection -/

/-- The job queues an item on the ordinary lane of a connection. -/
def Job.Queues (config : HostConfig) (h : Host) (c : Nat) (item : Item) : Job → Prop
  | send c' m => c' = c ∧ item = .message m
  | pushTo c' item' => c' = c ∧ item = item'
  | admitLocked c' hello _ => c' = c ∧ h.admittedInfos.length + 1 < config.maxParticipants ∧
    item = .message (welcomeMessage config (newParticipant config hello h) h)
  | admitPause c' => c' = c ∧ item = .message h.syncPause.message
  | admitSpeed c' => c' = c ∧ item = .message (.linkSpeed h.linkSpeed)
  | admitStart c' start => c' = c ∧ ∃ data, start = some data ∧ item = .startState data
  | _ => False

/-- The job makes the client of a connection a participant. -/
def Job.Admits (c : Nat) : Job → Prop
  | admitVisible c' _ => c' = c
  | _ => False

namespace Host

/-- The ways in which a job changes a connection. -/
inductive Laned (config : HostConfig) (full : Bool) (h : Host) (c : Nat) : Job → Conn → Prop
  | other {job : Job} (hqueues : ∀ item, ¬ Job.Queues config h c item job)
    (hadmits : ¬ job.Admits c) :
    Laned config full h c job (h.conn c)
  | queued {job : Job} (item : Item) (hqueues : Job.Queues config h c item job) :
    Laned config full h c job ((h.conn c).push full item)
  | urged (target : PeerId) (m : Message) (hconn : h.connFor target = some c) :
    Laned config full h c (.deliverLink target m) ((h.conn c).pushUrgent full m)
  | admitted (participant : ParticipantInfo) :
    Laned config full h c (.admitVisible c participant) ((h.conn c).admitAs participant)
  | closed (reason : LeaveReason) (flush : Bool) (hopen : (h.conn c).closing = false) :
    Laned config full h c (.close c reason flush) ((h.conn c).beginClose flush)

variable {h : Host} {c : Nat} {full : Bool}

/-- A job that queues on one connection. -/
theorem laned_queued {job : Job} {c' : Nat} {item : Item}
    (hqueues : Job.Queues config h c' item job)
    (hsame : ∀ item', Job.Queues config h c item' job → c' = c) (hadmits : ¬ job.Admits c) :
    Laned config full h c job ((h.onConn c' (·.push full item)).conn c) := by
  rw [onConn_conn]
  split_ifs with hc
  · subst hc
    exact .queued item hqueues
  · exact .other (fun item' hitem' ↦ hc (hsame item' hitem').symm) hadmits

/-- **How a job changes a connection.** -/
theorem laned {t : HostThread} {job : Job} :
    Laned config full h c job ((job.exec config full t h).2.conn c) := by
  cases job with
  | send c' m => exact laned_queued ⟨rfl, rfl⟩ (fun _ hitem ↦ hitem.1) id
  | admitPause c' => exact laned_queued ⟨rfl, rfl⟩ (fun _ hitem ↦ hitem.1) id
  | admitSpeed c' => exact laned_queued ⟨rfl, rfl⟩ (fun _ hitem ↦ hitem.1) id
  | pushTo c' item =>
    rw [Job.exec]
    split_ifs with hfull
    · by_cases hc : c' = c
      · subst hc
        have hkeep : (h.conn c').push full item = h.conn c' := by rw [hfull.1, Conn.push, if_pos (.inr rfl)]
        rw [← hkeep]
        exact .queued item ⟨rfl, rfl⟩
      · exact .other (fun _ hitem ↦ hc hitem.1) id
    · exact laned_queued ⟨rfl, rfl⟩ (fun _ hitem ↦ hitem.1) id
  | admitStart c' start =>
    cases start with
    | none => exact .other (fun _ hitem ↦ by obtain ⟨-, data, hdata, -⟩ := hitem; cases hdata) id
    | some data => exact laned_queued ⟨rfl, data, rfl, rfl⟩ (fun _ hitem ↦ hitem.1) id
  | admitLocked c' hello start =>
    rw [Job.exec, PlayTogether.admitLocked]
    split_ifs with hroom
    · exact .other (fun _ hitem ↦ absurd hitem.2.1 (not_lt.mpr hroom)) fun h ↦ by cases h
    · have hqueues : Job.Queues config h c'
          (.message (welcomeMessage config (newParticipant config hello h) h))
          (.admitLocked c' hello start) := ⟨rfl, not_le.mp hroom, rfl⟩
      exact laned_queued hqueues (fun _ hitem ↦ hitem.1) id
  | admitVisible c' participant =>
    show Laned config full h c _ ((h.onConn c' (·.admitAs participant)).conn c)
    rw [onConn_conn]
    split_ifs with hc
    · subst hc
      exact .admitted participant
    · exact .other (fun _ ↦ id) fun heq ↦ hc heq.symm
  | close c' reason flush =>
    rw [Job.exec]
    split_ifs with hclosing
    · exact .other (fun _ ↦ id) id
    · show Laned config full h c _ ((h.onConn c' (·.beginClose flush)).conn c)
      rw [onConn_conn]
      split_ifs with hc
      · subst hc
        exact .closed reason flush (Bool.not_eq_true _ ▸ hclosing)
      · exact .other (fun _ ↦ id) id
  | deliverLink target m =>
    rw [Job.exec]
    split_ifs with htarget
    · exact .other (fun _ ↦ id) id
    · split
      · exact .other (fun _ ↦ id) id
      · next c' hconn =>
        split_ifs with hfull
        · by_cases hc : c' = c
          · subst hc
            have hkeep : (h.conn c').pushUrgent full m = h.conn c' := by
              rw [hfull.1, Conn.pushUrgent, if_pos (.inr rfl)]
            rw [← hkeep]
            exact .urged target m hconn
          · exact .other (fun _ ↦ id) id
        · show Laned config full h c _ ((h.onConn c' (·.pushUrgent full m)).conn c)
          rw [onConn_conn]
          split_ifs with hc
          · subst hc
            exact .urged target m hconn
          · exact .other (fun _ ↦ id) id
  | routeLink sender target m =>
    have hrouted := @routed config sender target m h
    have hconn : (PlayTogether.routeLink config sender target m h).2.conn = h.conn := by
      generalize PlayTogether.routeLink config sender target m h = out at hrouted ⊢
      cases hrouted <;> rfl
    show Laned config full h c _ ((PlayTogether.routeLink config sender target m h).2.conn c)
    rw [hconn]
    exact .other (fun _ ↦ id) id
  | recordRequest =>
    rw [Job.exec, PlayTogether.recordRequest]
    split_ifs <;> exact .other (fun _ ↦ id) id
  | broadcast item except =>
    have hconn : ((Job.broadcast item except).exec config full t h).2.conn = h.conn := by
      cases item with
      | message m => cases m <;> rfl
      | _ => rfl
    rw [hconn]
    exact .other (fun _ ↦ id) id
  | admitPeer c' hello =>
    rw [Job.exec]
    split
    · exact .other (fun _ ↦ id) id
    · dsimp only
      split <;> exact .other (fun _ ↦ id) id
  | notePause =>
    rw [Job.exec]
    split_ifs <;> exact .other (fun _ ↦ id) id
  | _ => exact .other (fun _ ↦ id) id

variable {t : HostThread}

/-- A connection that is closing stays so. -/
theorem exec_closing {job : Job} (hclosing : (h.conn c).closing = true) :
    ((job.exec config full t h).2.conn c).closing = true := by
  have hlaned := @laned config h c full t job
  generalize (job.exec config full t h).2.conn c = conn' at hlaned ⊢
  cases hlaned with
  | other | admitted => exact hclosing
  | queued => rwa [Conn.push_closing]
  | urged => rwa [Conn.pushUrgent_closing]
  | closed => exact Conn.beginClose_closing

theorem open_of_exec {job : Job} (hopen : ((job.exec config full t h).2.conn c).closing = false) :
    (h.conn c).closing = false := by
  by_contra hclosing
  rw [exec_closing (Bool.not_eq_false _ ▸ hclosing)] at hopen
  cases hopen

/-- What is not queued on a topic is not heard. -/
theorem heard_exec {α : Type} {said : Item → Option α} {job : Job}
    (hqueues : ∀ item, Job.Queues config h c item job → said item = none)
    (hopen : ((job.exec config full t h).2.conn c).closing = false) :
    ((job.exec config full t h).2.conn c).heard said = (h.conn c).heard said := by
  have hlaned := @laned config h c full t job
  generalize (job.exec config full t h).2.conn c = conn' at hlaned hopen ⊢
  cases hlaned with
  | other | admitted => rfl
  | queued item hqueued => exact Conn.heard_push_of_none (hqueues item hqueued)
  | urged => rw [Conn.heard, Conn.pushUrgent_pipeline, Conn.heard]
  | closed reason flush =>
    rw [Conn.beginClose_closing] at hopen
    cases hopen

/-! ## What the writer does to a connection -/

/-- The ways in which a connection changes when no job is done. -/
inductive Moved (conn : Conn) : Conn → Prop
  | same : Moved conn conn
  | drained (ping : Option (UInt32 × UInt64)) (hwriting : conn.writing = []) :
    Moved conn (conn.drain ping)
  | urged : Moved conn conn.takeUrgent
  | wrote : Moved conn conn.write

theorem moved_onConn {c' : Nat} {f : Conn → Conn} (hf : Moved (h.conn c') (f (h.conn c'))) :
    Moved (h.conn c) ((h.onConn c' f).conn c) := by
  rw [onConn_conn]
  split_ifs with hc
  · exact hc ▸ hf
  · exact .same

theorem start_conn {jobs : List Job} : (h.start t jobs).conn = h.conn := by
  rw [start]
  split_ifs <;> rfl

theorem moved {event : Event} (hout : event.Outside) :
    Moved (h.conn c) ((step config event h).conn c) := by
  cases event with
  | connect =>
    rw [step]
    split_ifs <;> exact .same
  | receive | lose | garble | writeFails | timeout =>
    rw [step]
    split_ifs
    · rw [start_conn]
      exact .same
    · exact .same
  | call | publish =>
    rw [step, start_conn]
    exact .same
  | drain c' ping =>
    rw [step]
    by_cases hwriting : (h.conn c').writing = []
    · rw [if_pos hwriting]
      exact moved_onConn (.drained _ hwriting)
    · rw [if_neg hwriting]
      exact .same
  | takeUrgent c' =>
    rw [step]
    split_ifs
    · exact moved_onConn .urged
    · exact .same
  | write => exact moved_onConn .wrote
  | advance => exact absurd hout id

theorem Moved.closing {conn conn' : Conn} (hmoved : Moved conn conn') :
    conn'.closing = conn.closing := by
  cases hmoved with
  | wrote => exact Conn.write_closing
  | _ => rfl

theorem Moved.heard {α : Type} {said : Item → Option α} {conn conn' : Conn}
    (hmoved : Moved conn conn') (hsaid : Conn.Ordinary said)
    (hurgent : ∀ m ∈ conn.urgent, m.isLinkRelay) : conn'.heard said = conn.heard said := by
  cases hmoved with
  | same => rfl
  | drained ping hwriting => exact Conn.heard_drain hsaid hurgent hwriting
  | urged => exact Conn.heard_takeUrgent hsaid hurgent
  | wrote => rw [Conn.heard, Conn.write_pipeline, Conn.heard]

end Host

/-! ## What goes through the urgent lane -/

/-- A job that puts nothing but relayed link cable messages on an urgent lane. -/
def Job.Relays : Job → Prop
  | deliverLink _ m | routeLink _ _ m | requestOurs _ _ _ _ m | recordRequest _ _ _ _ _ m =>
    m.isLinkRelay
  | _ => True

theorem Message.isLinkRelay_of_endpoints {m : Message} {ends : PeerId × PeerId}
    (h : m.linkEndpoints = some ends) : m.isLinkRelay := by
  cases m <;> first | rfl | cases h

namespace Host

variable {h : Host}

theorem relays_start {event : Event} : ∀ job ∈ event.jobs h, job.Relays := by
  intro job hjob
  cases event with
  | receive c m bad gap =>
    have hreader := ofReader_handleMessage job hjob
    cases job with
    | deliverLink | requestOurs | recordRequest => exact absurd hreader id
    | routeLink sender target m' => exact Message.isLinkRelay_of_endpoints hreader.2.2
    | _ => trivial
  | call request =>
    rw [List.mem_singleton.mp hjob]
    cases request <;> trivial
  | garble c text =>
    obtain rfl | rfl := List.mem_pair.mp hjob <;> trivial
  | connect | lose | writeFails | timeout | publish =>
    rw [List.mem_singleton.mp hjob]
    trivial
  | _ => exact absurd hjob List.not_mem_nil

theorem relays_next {first next : Job} (hnext : first.Next config h next) (hfirst : first.Relays) :
    next.Relays := by
  cases first with
  | register | send | notify | admitPause | admitSpeed | admitStart | admitVisible =>
    exact absurd hnext id
  | pushTo | close | leaving | storePause | storeSpeed | storeStart =>
    rw [hnext]
    trivial
  | sendLink m =>
    rw [hnext]
    cases m <;> rfl
  | pushToPeer | publish | askSnapshot =>
    obtain ⟨c, -, rfl⟩ := hnext
    trivial
  | broadcast =>
    obtain ⟨c, -, -, rfl⟩ := hnext
    trivial
  | unlist =>
    obtain ⟨-, rfl | rfl⟩ := hnext <;> trivial
  | departed =>
    obtain ⟨partner, -, rfl | rfl⟩ | rfl := hnext
    · rfl
    · trivial
    · trivial
  | deliverLink =>
    obtain ⟨c, rfl⟩ := hnext
    trivial
  | announceLink | notePause =>
    obtain rfl | rfl := hnext <;> trivial
  | routeLink =>
    obtain ⟨_, _, rfl, -⟩ | ⟨_, _, rfl, rfl | hm⟩ | ⟨_, _, _, rfl⟩ := hnext
    · exact hfirst
    · exact hfirst
    · exact hm
    · trivial
  | requestOurs =>
    rw [hnext]
    exact hfirst
  | recordRequest =>
    obtain rfl | ⟨_, rfl⟩ := hnext
    · exact hfirst
    · rfl
  | admitPeer c hello =>
    obtain ⟨reason, text, hnext⟩ | rfl := hnext
    · obtain rfl | rfl := List.mem_pair.mp hnext <;> trivial
    · trivial
  | admitLocked c hello start =>
    obtain ⟨reason, text, hnext⟩ | hnext := hnext
    · obtain rfl | rfl := List.mem_pair.mp hnext <;> trivial
    · simp only [List.mem_cons, List.not_mem_nil, or_false] at hnext
      obtain rfl | rfl | rfl | rfl | rfl | rfl := hnext <;> trivial
  | kick =>
    obtain ⟨c, rfl | rfl⟩ := hnext <;> trivial

/-- Nothing but relayed link cable messages goes through the urgent lanes. -/
structure UrgentRelays (h : Host) : Prop where
  jobs : ∀ job, Threads.Pending h.threads job → job.Relays
  lanes : ∀ c, ∀ m ∈ (h.conn c).urgent, m.isLinkRelay

theorem UrgentRelays.step {event : Event} (hurgent : h.UrgentRelays) :
    (step config event h).UrgentRelays := by
  refine ⟨pending_kept relays_start (fun _ _ ↦ relays_next) hurgent.jobs, fun c ↦ ?_⟩
  refine step_elim (Q := fun h' ↦ ∀ m ∈ (h'.conn c).urgent, m.isLinkRelay) (fun hout ↦ ?_)
    (hurgent.lanes c) ?_
  · have hmoved := @moved config h c _ hout
    generalize (Host.step config event h).conn c = conn' at hmoved ⊢
    cases hmoved with
    | same => exact hurgent.lanes c
    | drained | urged => exact fun m hm ↦ absurd hm List.not_mem_nil
    | wrote =>
      rw [Conn.write]
      split <;> exact hurgent.lanes c
  · rintro t full first rest - hthread -
    have hlaned := @laned config h c full t first
    rw [done_conn]
    generalize (first.exec config full t h).2.conn c = conn' at hlaned ⊢
    cases hlaned with
    | other | admitted => exact hurgent.lanes c
    | queued =>
      rw [Conn.push_urgent]
      exact hurgent.lanes c
    | urged target m hconn =>
      intro m' hm'
      rw [Conn.pushUrgent] at hm'
      split_ifs at hm'
      · exact hurgent.lanes c m' hm'
      · obtain hm' | hm' := List.mem_append.mp hm'
        · exact hurgent.lanes c m' hm'
        · rw [List.mem_singleton.mp hm']
          exact hurgent.jobs _ ⟨t, hthread ▸ List.mem_cons_self⟩
    | closed reason flush =>
      rw [Conn.beginClose]
      split_ifs
      · exact hurgent.lanes c
      · exact fun m hm ↦ absurd hm List.not_mem_nil

theorem urgentRelays_new : new.UrgentRelays where
  jobs _ hjob := absurd hjob.choose_spec List.not_mem_nil
  lanes _ _ hm := absurd hm List.not_mem_nil

end Host

end PlayTogether

end SuperShuckie
