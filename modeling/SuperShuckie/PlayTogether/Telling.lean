import SuperShuckie.PlayTogether.Admission

/-!
# Telling everyone

What the host keeps is told to the clients by messages that are put onto the queues one after another,
after it was changed.  On its way, news is a job that is pending: to tell everybody, or to push onto one
queue.  `Informed` says that the last a client was told is right, or will be followed by something else;
what single jobs do to it is the same whatever the news is about.
-/

set_option autoImplicit false

namespace SuperShuckie

open ByteFormat

namespace PlayTogether

variable {config : HostConfig}

/-- What is about nothing that the host keeps. -/
def Item.isPassing : Item → Bool
  | .stream .. | .snapshot .. => true
  | .message (.stream ..) | .message (.snapshot _) | .message (.syncHash ..)
  | .message (.requestSnapshot ..) | .message (.resetAll ..) | .message (.pong ..)
  | .message (.error _) | .message (.refused ..) | .message (.peerLeft ..) => true
  | _ => false

/-- What is for one only is about nothing that the host keeps. -/
def Job.Passing : Job → Prop
  | send _ m => (Item.message m).isPassing
  | pushToPeer _ item => item.isPassing
  | _ => True

/-- Such a job is no news of anything that the host keeps. -/
def Job.NoNews : Job → Prop
  | pushTo .. | announceLink .. => False
  | broadcast item _ => item.isPassing
  | _ => True

theorem isPassing_item {p : Publication} : p.item.isPassing := by
  cases p <;> rfl

/-- Something that clients are told of: what an item says of it, when the last that was told is right,
and which jobs still have something to tell the client of a connection. -/
structure Topic (α : Type) where
  said : Item → Option α
  right : Host → Option α → Prop
  tells : Nat → Job → Prop
  ordinary : Conn.Ordinary said
  passing : ∀ item : Item, item.isPassing → said item = none
  done : ∀ {h t threads jobs v}, right h v → right (h.done t threads jobs) v

namespace Host

variable {α : Type} {topic : Topic α} {h : Host} {c : Nat} {full : Bool} {t : HostThread} {job : Job}
  {rest : List Job}

/-- The last that the client of a connection was told is right, or it will be told something else, or its
connection is about to be closed. -/
def Informed (topic : Topic α) (c : Nat) (h : Host) : Prop :=
  topic.right h ((h.conn c).heard topic.said).getLast? ∨
    (∃ job, Threads.Pending h.threads job ∧ topic.tells c job) ∨
      ∃ reason flush, Threads.Pending h.threads (.close c reason flush)

/-- When nothing is pending, what was told last is right. -/
theorem Informed.right (hinformed : h.Informed topic c) (hidle : ∀ t, h.threads t = []) :
    topic.right h ((h.conn c).heard topic.said).getLast? := by
  have hnone : ∀ job, ¬ Threads.Pending h.threads job := by
    rintro job ⟨t, hjob⟩
    rw [hidle t] at hjob
    exact List.not_mem_nil hjob
  obtain hright | ⟨job, hjob, -⟩ | ⟨reason, flush, hclose⟩ := hinformed
  · exact hright
  · exact absurd hjob (hnone job)
  · exact absurd hclose (hnone _)

theorem heard_outside {event : Event} (hurgent : h.UrgentRelays) (hout : event.Outside) :
    ((step config event h).conn c).heard topic.said = (h.conn c).heard topic.said :=
  (moved hout).heard topic.ordinary (hurgent.lanes c)

/-- What an event starts leaves the clients informed. -/
theorem Informed.outside {event : Event} (hinformed : h.Informed topic c) (hurgent : h.UrgentRelays)
    (hout : event.Outside)
    (hright : ∀ last, topic.right h last → topic.right (step config event h) last) :
    (step config event h).Informed topic c := by
  obtain hlast | ⟨job, hjob, htells⟩ | ⟨reason, flush, hclose⟩ := hinformed
  · refine .inl ?_
    rw [heard_outside hurgent hout]
    exact hright _ hlast
  · exact .inr (.inl ⟨job, Pending.outside hout hjob, htells⟩)
  · exact .inr (.inr ⟨reason, flush, Pending.outside hout hclose⟩)

/-- **Once news is pushed** onto the queue of a connection, the last it was told is right, or the queue was
full. -/
theorem informed_pushTo {item : Item} {v : α} (hopen : (h.conn c).closing = false)
    (hsaid : topic.said item = some v)
    (hright : topic.right ((Job.pushTo c item).exec config full t h).2 (some v)) :
    (((Job.pushTo c item).exec config full t h).2.done t h.threads
      (((Job.pushTo c item).exec config full t h).1 ++ rest)).Informed topic c := by
  cases full with
  | true =>
    refine .inr (.inr ⟨.tooSlow, false, Threads.pending_of_mem ?_⟩)
    rw [Job.exec, if_pos ⟨rfl, by simp [hopen]⟩]
    exact List.mem_cons_self
  | false =>
    refine .inl ?_
    have hconn : ((Job.pushTo c item).exec config false t h).2 = h.onConn c (·.push false item) := by
      rw [Job.exec, if_neg (by simp)]
    rw [done_conn]
    rw [hconn] at hright ⊢
    rw [onConn_conn, if_pos rfl, Conn.heard_push hopen, hsaid, Option.toList_some,
      List.getLast?_concat]
    exact topic.done hright

/-- **What a job does to a client that is informed.** -/
theorem Informed.exec (hinformed : h.Informed topic c) (hthread : h.threads t = job :: rest)
    (hopen' : ((job.exec config full t h).2.conn c).closing = false)
    (hpush : ∀ item v, job = .pushTo c item → topic.said item = some v →
      topic.right (job.exec config full t h).2 (some v))
    (hqueue : ∀ item, Job.Queues config h c item job → topic.said item = none ∨ job = .pushTo c item)
    (hchange : (∀ last, topic.right h last → topic.right (job.exec config full t h).2 last) ∨
      ∃ next ∈ (job.exec config full t h).1, topic.tells c next)
    (htells : topic.tells c job → (∃ next ∈ (job.exec config full t h).1, topic.tells c next) ∨
      ∃ item v, job = .pushTo c item ∧ topic.said item = some v) :
    ((job.exec config full t h).2.done t h.threads
      ((job.exec config full t h).1 ++ rest)).Informed topic c := by
  have hopen := open_of_exec hopen'
  by_cases hpushed : ∃ item v, job = .pushTo c item ∧ topic.said item = some v
  · obtain ⟨item, v, rfl, hsaid⟩ := hpushed
    exact informed_pushTo hopen hsaid (hpush item v rfl hsaid)
  · obtain hlast | ⟨job', hjob', htells'⟩ | ⟨reason, flush, hclose⟩ := hinformed
    · obtain hright | ⟨next, hnext, htold⟩ := hchange
      · refine .inl ?_
        rw [done_conn, heard_exec (fun item hqueued ↦ ?_) hopen']
        · exact topic.done (hright _ hlast)
        · obtain hnone | rfl := hqueue item hqueued
          · exact hnone
          · exact Option.eq_none_iff_forall_ne_some.mpr fun v hsaid ↦ hpushed ⟨item, v, rfl, hsaid⟩
      · exact .inr (.inl ⟨next, Threads.pending_of_mem hnext, htold⟩)
    · by_cases hdone : job' = job
      · obtain ⟨next, hnext, htold⟩ | hpushed' := htells (hdone ▸ htells')
        · exact .inr (.inl ⟨next, Threads.pending_of_mem hnext, htold⟩)
        · exact absurd hpushed' hpushed
      · exact .inr (.inl ⟨job', hjob'.done hthread hdone, htells'⟩)
    · by_cases hdone : .close c reason flush = job
      · rw [← hdone, Job.exec, if_neg (by simp [hopen]), onConn_conn, if_pos rfl,
          Conn.beginClose_closing] at hopen'
        cases hopen'
      · exact .inr (.inr ⟨reason, flush, hclose.done hthread hdone⟩)

/-! ## Whose queues news is pushed onto -/

/-- What an event starts is no news yet. -/
theorem passing_start {event : Event} : ∀ job ∈ event.jobs h, job.Passing ∧ job.NoNews := by
  intro job hjob
  cases event with
  | receive c m bad gap =>
    have hreader := ofReader_handleMessage job hjob
    cases job with
    | pushTo | announceLink => exact absurd hreader id
    | send c' m' =>
      obtain ⟨-, ⟨nonce, millis, rfl⟩ | ⟨text, rfl⟩⟩ := hreader <;> exact ⟨rfl, trivial⟩
    | pushToPeer peer item =>
      refine ⟨?_, trivial⟩
      cases item with
      | message m' => cases m' <;> first | rfl | exact absurd hreader.2 id
      | _ => exact absurd hreader id
    | broadcast item except =>
      refine ⟨trivial, ?_⟩
      cases item with
      | message m' => cases m' <;> first | rfl | exact absurd hreader.2.2 id
      | _ => exact absurd hreader id
    | _ => exact ⟨trivial, trivial⟩
  | call request =>
    rw [List.mem_singleton.mp hjob]
    cases request with
    | sendResetAll => exact ⟨trivial, rfl⟩
    | _ => exact ⟨trivial, trivial⟩
  | garble c text =>
    obtain rfl | rfl := List.mem_pair.mp hjob
    · exact ⟨rfl, trivial⟩
    · exact ⟨trivial, trivial⟩
  | connect | lose | writeFails | timeout | publish =>
    rw [List.mem_singleton.mp hjob]
    exact ⟨trivial, trivial⟩
  | _ => exact absurd hjob List.not_mem_nil

theorem passing_next {first next : Job} (hnext : first.Next config h next) : next.Passing := by
  cases next with
  | pushToPeer peer item => cases first <;> simp [Job.Next, refuse] at hnext
  | send c m =>
    cases first with
    | askSnapshot =>
      obtain ⟨c', -, heq⟩ := hnext
      cases heq
      rfl
    | admitPeer | admitLocked =>
      obtain ⟨reason, text, hmem⟩ | heq := hnext
      · simp only [refuse, List.mem_cons, List.not_mem_nil, or_false, reduceCtorEq] at hmem
        cases hmem
        rfl
      · simp at heq
    | kick =>
      obtain ⟨c', heq | heq⟩ := hnext <;> cases heq
      rfl
    | _ => simp [Job.Next] at hnext
  | _ => trivial

/-- News is pushed onto the queues of those who are in the session. -/
structure Pushes (topic : Topic α) (h : Host) : Prop where
  passing : ∀ job, Threads.Pending h.threads job → job.Passing
  pushed : ∀ c item, Threads.Pending h.threads (.pushTo c item) → topic.said item ≠ none →
    (h.conn c).peerId ≠ 0

theorem Pushes.step {event : Event} (hpushes : h.Pushes topic) (hdoors : h.Doors) :
    (step config event h).Pushes topic := by
  refine ⟨pending_kept (fun job hjob ↦ (passing_start job hjob).1)
    (fun _ _ hnext _ ↦ passing_next hnext) hpushes.passing, fun c item ↦ ?_⟩
  refine step_elim (Q := fun h' ↦ Threads.Pending h'.threads (.pushTo c item) →
    topic.said item ≠ none → (h'.conn c).peerId ≠ 0) (fun hout hjob hsaid ↦ ?_)
    (hpushes.pushed c item) ?_
  · have hwho := (@step_outside config _ h hout).1.who c
    rw [show ((Host.step config event h).conn c).peerId = (h.conn c).peerId from congrArg Prod.fst hwho]
    obtain hold | hnew := pending_outside hout hjob
    · exact hpushes.pushed c item hold hsaid
    · exact absurd (passing_start _ hnew).2 id
  · rintro t full first rest - hthread - hjob hsaid hzero
    have hpending : Threads.Pending h.threads first := ⟨t, hthread ▸ List.mem_cons_self⟩
    have hadmitted : (h.conn c).peerId ≠ 0 := by
      obtain hnew | hold := Threads.pending_of_done hthread hjob
      · obtain ⟨peer, rfl, -⟩ | ⟨except, -, hadmitted, -⟩ | ⟨p, -, rfl, -⟩ :=
          Job.of_next_pushTo (Job.next_of_mem_exec hnew)
        · exact absurd (topic.passing item (hpushes.passing _ hpending)) hsaid
        · exact of_decide_eq_true (List.mem_filter.mp hadmitted).2
        · exact absurd (topic.passing _ isPassing_item) hsaid
      · exact hpushes.pushed c item hold hsaid
    exact hadmitted ((hdoors.exec_peerId hthread hadmitted).symm.trans hzero)

theorem pushes_new : new.Pushes topic where
  passing _ hjob := absurd hjob.choose_spec List.not_mem_nil
  pushed _ _ hjob := absurd hjob.choose_spec List.not_mem_nil

end Host

end PlayTogether

end SuperShuckie
