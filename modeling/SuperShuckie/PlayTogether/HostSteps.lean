import SuperShuckie.PlayTogether.Host

/-!
# Steps of the host

What an event gives a thread to do, what one job may change, and the rule by which something that
every step keeps holds of every run.
-/

set_option autoImplicit false

namespace SuperShuckie

open ByteFormat

namespace PlayTogether

variable {config : HostConfig}

/-! ## What an event starts -/

namespace Host

/-- The jobs that an event gives to a thread that is idle. -/
def Event.jobs : Event → Host → List Job
  | .connect, h => [.register h.accepted]
  | .receive c m bad gap, h => handleMessage c bad gap m h
  | .lose c reason, _ => [.close c reason false]
  | .garble c text, _ => protocolError c text
  | .writeFails c, _ => [.close c .ioError false]
  | .timeout c, _ => [.close c .timeout false]
  | .call request, _ => [request.job]
  | .publish p, _ => [.publish p]
  | _, _ => []

/-- The thread that an event gives something to do. -/
def Event.thread : Event → HostThread
  | .connect => .accept
  | .receive c .. | .lose c _ | .garble c _ => .reader c
  | .writeFails c | .drain c _ | .takeUrgent c | .write c => .writer c
  | .timeout _ => .tick
  | .call _ => .frontend
  | .publish _ => .publisher
  | .advance t _ => t

/-- An event at which no thread does a job. -/
def Event.Outside : Event → Prop
  | .advance .. => False
  | _ => True

end Host

/-- A message that the host relays for a peer on the ordinary lane, with its id in it. -/
def Message.RelayedFor (peer : PeerId) : Message → Prop
  | .stream sender _ _ | .syncHash sender _ _ | .requestSnapshot sender _ => sender = peer
  | .snapshot s => s.fromPeer = peer
  | _ => False

/-- What the reader of a connection may be given to do, whose peer is 0 before it is admitted. -/
def Job.OfReader (c : Nat) (peer : PeerId) : Job → Prop
  | send c' m => c' = c ∧ ((∃ nonce millis, m = .pong nonce millis) ∨ ∃ text, m = .error text)
  | close c' _ _ => c' = c
  | admitPeer c' _ => c' = c ∧ peer = 0
  | notePause sender _ => sender = peer ∧ peer ≠ 0
  | broadcast (.message m) except => except = peer ∧ peer ≠ 0 ∧ m.RelayedFor peer
  | pushToPeer _ (.message m) => peer ≠ 0 ∧ m.RelayedFor peer
  | askSnapshot publisher => publisher = peer ∧ peer ≠ 0
  | routeLink sender target m => sender = peer ∧ peer ≠ 0 ∧ m.linkEndpoints = some (peer, target)
  | _ => False

theorem ofReader_protocolError {c : Nat} {peer : PeerId} {text : String} :
    ∀ job ∈ protocolError c text, job.OfReader c peer := by
  intro job hjob
  rw [protocolError, List.mem_pair] at hjob
  obtain rfl | rfl := hjob
  · exact ⟨rfl, .inr ⟨text, rfl⟩⟩
  · exact rfl

theorem ofReader_handleAdmitted {c : Nat} {peer : PeerId} {bad : Option String} {gap : Bool}
    {m : Message} (hpeer : peer ≠ 0) :
    ∀ job ∈ handleAdmitted c peer bad gap m, job.OfReader c peer := by
  intro job hjob
  cases m with
  | hello | welcome | refused | peerJoined | peerLeft | resetAll | syncPause | linkSpeed | startState
  | peerLinked | peerUnlinked => exact ofReader_protocolError job hjob
  | pause sender paused =>
    obtain rfl := List.mem_singleton.mp hjob
    exact ⟨rfl, hpeer⟩
  | stream sender firstFrame bytes =>
    cases bad with
    | some text => exact ofReader_protocolError job hjob
    | none =>
      obtain rfl | hjob := List.mem_cons.mp hjob
      · exact ⟨rfl, hpeer, rfl⟩
      · cases gap
        · exact absurd hjob List.not_mem_nil
        · obtain rfl := List.mem_singleton.mp hjob
          exact ⟨rfl, hpeer⟩
  | syncHash sender frame hash =>
    obtain rfl := List.mem_singleton.mp hjob
    exact ⟨rfl, hpeer, rfl⟩
  | snapshot s =>
    obtain hjob | hjob := List.mem_append.mp hjob
    · split_ifs at hjob
      · obtain rfl := List.mem_singleton.mp hjob
        exact ⟨rfl, hpeer, rfl⟩
      · exact absurd hjob List.not_mem_nil
      · obtain rfl := List.mem_singleton.mp hjob
        exact ⟨hpeer, rfl⟩
    · cases bad with
      | none => exact absurd hjob List.not_mem_nil
      | some text =>
        dsimp only at hjob
        split_ifs at hjob
        · exact ofReader_protocolError job hjob
        · exact absurd hjob List.not_mem_nil
  | requestSnapshot requester target =>
    change job ∈ (if target = hostPeerId then []
      else [Job.pushToPeer target (.message (.requestSnapshot peer target))]) at hjob
    split_ifs at hjob
    · exact absurd hjob List.not_mem_nil
    · obtain rfl := List.mem_singleton.mp hjob
      exact ⟨hpeer, rfl⟩
  | ping nonce millis =>
    obtain rfl := List.mem_singleton.mp hjob
    exact ⟨rfl, .inl ⟨nonce, millis, rfl⟩⟩
  | pong => exact absurd hjob List.not_mem_nil
  | goodbye | error =>
    obtain rfl := List.mem_singleton.mp hjob
    exact rfl
  | linkRequest | linkAccept | linkDecline | linkStart | unlink =>
    cases bad <;>
    · obtain rfl := List.mem_singleton.mp hjob
      exact ⟨rfl, hpeer, rfl⟩
  | linkFrame =>
    cases bad with
    | some text => exact ofReader_protocolError job hjob
    | none =>
      obtain rfl := List.mem_singleton.mp hjob
      exact ⟨rfl, hpeer, rfl⟩

variable {h : Host}

theorem ofReader_handleMessage {c : Nat} {bad : Option String} {gap : Bool} {m : Message} :
    ∀ job ∈ handleMessage c bad gap m h, job.OfReader c (h.conn c).peerId := by
  intro job hjob
  unfold handleMessage at hjob
  by_cases hpeer : (h.conn c).peerId = 0
  · rw [if_pos hpeer] at hjob
    rw [hpeer]
    cases m with
    | hello =>
      obtain rfl := List.mem_singleton.mp hjob
      exact ⟨rfl, rfl⟩
    | ping nonce millis =>
      obtain rfl := List.mem_singleton.mp hjob
      exact ⟨rfl, .inl ⟨nonce, millis, rfl⟩⟩
    | _ => exact ofReader_protocolError job hjob
  · rw [if_neg hpeer] at hjob
    exact ofReader_handleAdmitted hpeer job hjob

namespace Host

/-! ## What a step leaves as it is -/

theorem onConn_conn {c c' : Nat} {f : Conn → Conn} {h : Host} :
    (h.onConn c f).conn c' = if c' = c then f (h.conn c) else h.conn c' :=
  Function.update_apply ..

/-- Nothing that tells who is who, or who is linked with whom, is different. -/
structure SameRoster (h h' : Host) : Prop where
  roster : h'.roster = h.roster
  past : h'.past = h.past
  who : ∀ c, (h'.conn c).who = (h.conn c).who

theorem SameRoster.refl (h : Host) : SameRoster h h := ⟨rfl, rfl, fun _ ↦ rfl⟩

theorem sameRoster_onConn {c : Nat} {f : Conn → Conn} {h : Host}
    (hf : (f (h.conn c)).who = (h.conn c).who) : SameRoster h (h.onConn c f) := by
  refine ⟨rfl, rfl, fun c' ↦ ?_⟩
  rw [onConn_conn]
  split_ifs with hc
  · rw [hc, hf]
  · rfl

end Host

namespace Conn

variable {c : Conn}

@[simp] theorem push_who {full : Bool} {item : Item} : (c.push full item).who = c.who := by
  rw [push]
  split_ifs <;> rfl

@[simp] theorem pushUrgent_who {full : Bool} {m : Message} : (c.pushUrgent full m).who = c.who := by
  rw [pushUrgent]
  split_ifs <;> rfl

@[simp] theorem beginClose_who {flush : Bool} : (c.beginClose flush).who = c.who := by
  rw [beginClose]
  split_ifs <;> rfl

@[simp] theorem drain_who {ping : Option (UInt32 × UInt64)} : (c.drain ping).who = c.who := rfl

@[simp] theorem takeUrgent_who : c.takeUrgent.who = c.who := rfl

@[simp] theorem write_who : c.write.who = c.who := by
  rw [write]
  split <;> rfl

end Conn

namespace Host

/-- The roster is the same, and `t` was given the jobs, if anyone was given any. -/
def Starts (t : HostThread) (jobs : List Job) (h h' : Host) : Prop :=
  SameRoster h h' ∧
    (h'.threads = h.threads ∨ h.threads t = [] ∧ h'.threads = Function.update h.threads t jobs)

theorem starts_start {t : HostThread} {jobs : List Job} {h : Host} :
    Starts t jobs h (h.start t jobs) := by
  rw [start]
  split_ifs with ht
  · exact ⟨⟨rfl, rfl, fun _ ↦ rfl⟩, .inr ⟨ht, rfl⟩⟩
  · exact ⟨.refl h, .inl rfl⟩

theorem Starts.ite {t : HostThread} {jobs : List Job} {h h' : Host} {p : Prop} [Decidable p]
    (hstarts : p → Starts t jobs h h') : Starts t jobs h (if p then h' else h) := by
  split_ifs with hp
  · exact hstarts hp
  · exact ⟨.refl h, .inl rfl⟩

/-- **At an event at which no thread does a job**, a thread may be given jobs and the lanes of a
connection may move. -/
theorem step_outside {event : Event} {h : Host} (hout : event.Outside) :
    Starts event.thread (event.jobs h) h (step config event h) := by
  cases event with
  | connect => exact .ite fun ht ↦ ⟨⟨rfl, rfl, fun _ ↦ rfl⟩, .inr ⟨ht, rfl⟩⟩
  | receive | lose | garble | writeFails | timeout => exact .ite fun _ ↦ starts_start
  | drain => exact .ite fun _ ↦ ⟨sameRoster_onConn Conn.drain_who, .inl rfl⟩
  | takeUrgent => exact .ite fun _ ↦ ⟨sameRoster_onConn Conn.takeUrgent_who, .inl rfl⟩
  | write => exact ⟨sameRoster_onConn Conn.write_who, .inl rfl⟩
  | call | publish => exact starts_start
  | advance => exact absurd hout id

/-- **When a thread advances**, it does its first job, unless it is idle or waits for the lock. -/
theorem advance_cases {t : HostThread} {full : Bool} {h : Host} :
    h.advance config t full = h ∨ ∃ job rest, h.threads t = job :: rest ∧ ¬ h.Blocked t job ∧
      h.advance config t full =
        { (job.exec config full t h).2 with
          threads := Function.update h.threads t ((job.exec config full t h).1 ++ rest) } := by
  rw [advance]
  split
  · exact .inl rfl
  · next job rest hthread =>
    split_ifs with hblocked
    · exact .inl rfl
    · exact .inr ⟨job, rest, hthread, hblocked, rfl⟩

end Host

/-- A job that changes neither the roster nor who is who. -/
def Job.quiet : Job → Bool
  | routeLink .. | recordRequest .. | departed .. | admitVisible ..
  | broadcast (.message (.peerLeft ..)) _ => false
  | _ => true

namespace Host

theorem SameRoster.ite {α : Type} {h : Host} {p : Prop} [Decidable p] {x y : α × Host}
    (hx : SameRoster h x.2) (hy : SameRoster h y.2) : SameRoster h (if p then x else y).2 := by
  split_ifs <;> assumption

end Host

open Host in
/-- **A quiet job** leaves the roster and who is who as they are. -/
theorem Job.sameRoster_exec {full : Bool} {t : HostThread} {job : Job} {h : Host}
    (hquiet : job.quiet) : SameRoster h (job.exec config full t h).2 := by
  cases job with
  | routeLink | recordRequest | departed | admitVisible => cases hquiet
  | register | pushToPeer | publish | askSnapshot | leaving | announceLink | notify | requestOurs
  | storePause | storeSpeed | storeStart | kick | sendLink | unlist =>
    exact ⟨rfl, rfl, fun _ ↦ rfl⟩
  | send | admitPause | admitSpeed => exact sameRoster_onConn Conn.push_who
  | pushTo => exact .ite (.refl h) (sameRoster_onConn Conn.push_who)
  | broadcast item except =>
    cases item with
    | message m => cases m <;> first | exact ⟨rfl, rfl, fun _ ↦ rfl⟩ | cases hquiet
    | _ => exact ⟨rfl, rfl, fun _ ↦ rfl⟩
  | close => exact .ite (.refl h) (sameRoster_onConn Conn.beginClose_who)
  | deliverLink target m =>
    refine .ite ⟨rfl, rfl, fun _ ↦ rfl⟩ ?_
    split
    · exact .refl h
    · exact .ite (.refl h) (sameRoster_onConn Conn.pushUrgent_who)
  | admitPeer c hello =>
    rw [exec]
    split
    · exact .refl h
    · exact .ite (.refl h) (.refl h)
  | admitLocked =>
    exact .ite (.refl h) ⟨rfl, rfl, (sameRoster_onConn Conn.push_who).who⟩
  | admitStart c start =>
    cases start with
    | none => exact .refl h
    | some data => exact sameRoster_onConn Conn.push_who
  | notePause => exact .ite ⟨rfl, rfl, fun _ ↦ rfl⟩ ⟨rfl, rfl, fun _ ↦ rfl⟩

/-! ## How a link cable message is routed -/

/-- **What comes of routing a link cable message** from `sender`, one case for each way it can go. -/
inductive Routed (config : HostConfig) (sender target : PeerId) (h : Host) :
    Message → List Job × Host → Prop
  | nothing {m : Message} : Routed config sender target h m ([], h)
  | unavailable {m : Message} (nonce : UInt32) : Routed config sender target h m
    ([.deliverLink sender (.linkDecline target sender nonce .unavailable)], h)
  | asking {asker target' : PeerId} {console : UInt32} (nonce : UInt32)
    (theirs : ReplayConsoleType) (hne : target ≠ sender)
    (hconsole : h.consoleOf config target = some theirs) :
    Routed config sender target h (.linkRequest asker target' nonce console)
      ([.requestOurs sender target nonce theirs (.linkRequest asker target' nonce console)], h)
  | busy {accepter target' : PeerId} (nonce : UInt32) (hne : target ≠ sender)
    (hask : (target, sender, nonce) ∈ h.roster.requests)
    (hbusy : h.roster.IsLinked sender ∨ h.roster.IsLinked target) :
    Routed config sender target h (.linkAccept accepter target' nonce)
      ([.deliverLink sender (.unlink target sender .busy)],
        { h with
          roster := h.roster.answered (target, sender, nonce)
          past := { h.past with agreed := (target, sender, nonce) :: h.past.agreed } })
  | linked {accepter target' : PeerId} (nonce : UInt32) (hne : target ≠ sender)
    (hask : (target, sender, nonce) ∈ h.roster.requests)
    (hsender : ¬ h.roster.IsLinked sender) (htarget : ¬ h.roster.IsLinked target) :
    Routed config sender target h (.linkAccept accepter target' nonce)
      ([.deliverLink target (.linkAccept accepter target' nonce), .announceLink target sender true],
        { h with
          roster := (h.roster.answered (target, sender, nonce)).link target sender
          past := { h.past with agreed := (target, sender, nonce) :: h.past.agreed } })
  | declined {decliner target' : PeerId} (nonce : UInt32) (reason : LinkDeclineReason) :
    Routed config sender target h (.linkDecline decliner target' nonce reason)
      ([.deliverLink target (.linkDecline decliner target' nonce reason)],
        { h with roster := h.roster.answered (target, sender, nonce) })
  | relayed {m : Message} (hlinked : h.roster.AreLinked sender target)
    (hm : ∀ a b reason, m ≠ .unlink a b reason) :
    Routed config sender target h m ([.deliverLink target m], h)
  | unplugged {unplugger target' : PeerId} {reason : UnlinkReason} (hne : target ≠ sender)
    (hlinked : h.roster.AreLinked sender target) :
    Routed config sender target h (.unlink unplugger target' reason)
      ([.deliverLink target (.unlink unplugger target' reason), .announceLink sender target false],
        { h with roster := h.roster.unlink sender target })
  | forgotten {unplugger target' : PeerId} {reason : UnlinkReason}
    (hlinked : ¬ h.roster.AreLinked sender target) :
    Routed config sender target h (.unlink unplugger target' reason)
      ([], { h with roster := h.roster.unlink sender target })

theorem routed {sender target : PeerId} {m : Message} {h : Host} :
    Routed config sender target h m (routeLink config sender target m h) := by
  unfold routeLink
  by_cases hne : target = sender
  · rw [if_pos hne]
    exact .nothing
  · rw [if_neg hne]
    cases m with
    | linkRequest sender' target' nonce console =>
      dsimp only
      split
      · exact .unavailable nonce
      · next theirs hconsole => exact .asking nonce theirs hne hconsole
    | linkAccept accepter target' nonce =>
      dsimp only
      split_ifs with hask hbusy
      · exact .busy nonce hne hask hbusy
      · rw [not_or] at hbusy
        exact .linked nonce hne hask hbusy.1 hbusy.2
      · exact .nothing
    | linkDecline decliner target' nonce reason =>
      dsimp only
      split_ifs
      · exact .declined nonce reason
      · exact .nothing
    | linkStart | linkFrame =>
      dsimp only
      split_ifs with hlinked
      · exact .relayed hlinked (fun _ _ _ hm ↦ nomatch hm)
      · exact .nothing
    | unlink unplugger target' reason =>
      dsimp only
      split_ifs with hlinked
      · exact .unplugged hne hlinked
      · exact .forgotten hlinked
    | _ => exact .nothing

/-! ## What a job is replaced by -/

/-- What may be put in place of a job.  Of the roster's own jobs only the kind is said. -/
def Job.Next (config : HostConfig) (h : Host) : Job → Job → Prop
  | pushTo c _, next => next = close c .tooSlow false
  | pushToPeer peer item, next => ∃ c, h.connFor peer = some c ∧ next = pushTo c item
  | broadcast item except, next =>
    ∃ c ∈ h.admittedConns, (h.conn c).peerId ≠ except ∧ next = pushTo c item
  | publish p, next => ∃ c ∈ h.admittedConns, next = pushTo c p.item
  | askSnapshot publisher, next =>
    ∃ c, h.connFor publisher = some c ∧ next = send c (.requestSnapshot hostPeerId publisher)
  | close c reason _, next => next = leaving c reason
  | leaving c reason, next => next = unlist c (h.conn c).peerId reason
  | unlist _ peer reason, next =>
    peer ≠ 0 ∧ (next = notify (.left peer reason) ∨ next = departed peer reason)
  | departed peer reason, next =>
    (∃ partner ∈ h.roster.partners peer,
      next = deliverLink partner (.unlink peer partner .peerLeft) ∨
        next = announceLink peer partner false) ∨
      next = broadcast (.message (.peerLeft peer reason)) peer
  | deliverLink _ _, next => ∃ c, next = close c .tooSlow false
  | announceLink a b linked, next =>
    next = broadcast (.message (linkNews a b linked)) 0 ∨
      next = notify (.link (linkNews a b linked))
  | routeLink sender target m, next =>
    (∃ nonce theirs, next = requestOurs sender target nonce theirs m ∧ target ≠ sender ∧
        h.consoleOf config target = some theirs) ∨
      (∃ target' m', next = deliverLink target' m' ∧ (m' = m ∨ m'.isLinkRelay)) ∨
        ∃ a b linked, next = announceLink a b linked
  | requestOurs sender target nonce theirs m, next =>
    next = recordRequest sender target nonce theirs ((h.consoleOf config sender).getD .unknown) m
  | recordRequest sender target nonce _ _ m, next =>
    next = deliverLink target m ∨
      ∃ reason, next = deliverLink sender (.linkDecline target sender nonce reason)
  | admitPeer c hello, next =>
    (∃ reason text, next ∈ refuse c reason text) ∨ next = admitLocked c hello h.startState
  | admitLocked c hello start, next =>
    (∃ reason text, next ∈ refuse c reason text) ∨
      next ∈ [admitPause c, admitSpeed c, admitStart c start,
        admitVisible c (newParticipant config hello h),
        broadcast (.message (.peerJoined (newParticipant config hello h))) h.nextPeerId,
        notify (.joined (newParticipant config hello h))]
  | notePause sender paused, next =>
    next = broadcast (.message (.pause sender paused)) (if sender = hostPeerId then 0 else sender) ∨
      next = notify (.pauseChanged sender paused)
  | storePause state, next => next = broadcast (.message state.message) 0
  | storeSpeed speed, next => next = broadcast (.message (.linkSpeed speed)) 0
  | storeStart start, next => next = broadcast (startItem start) 0
  | kick peer, next => ∃ c, next = send c (.peerLeft peer .kicked) ∨ next = close c .kicked true
  | sendLink m, next => next = routeLink hostPeerId m.target (Message.fromLink hostPeerId m)
  | _, _ => False

theorem mem_ite_fst {α : Type} {p : Prop} [Decidable p] {x y : List Job × α} {job : Job}
    (h : job ∈ (if p then x else y).1) : p ∧ job ∈ x.1 ∨ ¬ p ∧ job ∈ y.1 := by
  split_ifs at h with hp
  · exact .inl ⟨hp, h⟩
  · exact .inr ⟨hp, h⟩

theorem mem_routeLink {sender target : PeerId} {m : Message} {next : Job}
    (hnext : next ∈ (routeLink config sender target m h).1) :
    (Job.routeLink sender target m).Next config h next := by
  have hrouted := @routed config sender target m h
  generalize routeLink config sender target m h = out at hrouted hnext
  cases hrouted with
  | nothing | forgotten => exact absurd hnext List.not_mem_nil
  | unavailable | busy =>
    obtain rfl := List.mem_singleton.mp hnext
    exact .inr (.inl ⟨_, _, rfl, .inr rfl⟩)
  | asking nonce theirs hne hconsole =>
    obtain rfl := List.mem_singleton.mp hnext
    exact .inl ⟨nonce, theirs, rfl, hne, hconsole⟩
  | declined | relayed =>
    obtain rfl := List.mem_singleton.mp hnext
    exact .inr (.inl ⟨_, _, rfl, .inl rfl⟩)
  | linked | unplugged =>
    obtain rfl | rfl := List.mem_pair.mp hnext
    · exact .inr (.inl ⟨_, _, rfl, .inl rfl⟩)
    · exact .inr (.inr ⟨_, _, _, rfl⟩)

theorem mem_recordRequest {sender target : PeerId} {nonce : UInt32}
    {theirs ours : ReplayConsoleType} {m : Message} {next : Job}
    (hnext : next ∈ (recordRequest sender target nonce theirs ours m h).1) :
    next = .deliverLink target m ∨
      ∃ reason, next = .deliverLink sender (.linkDecline target sender nonce reason) := by
  obtain ⟨-, hnext⟩ | ⟨-, hnext⟩ := mem_ite_fst hnext
  · exact .inr ⟨_, List.mem_singleton.mp hnext⟩
  · obtain ⟨-, hnext⟩ | ⟨-, hnext⟩ := mem_ite_fst hnext
    · exact .inl (List.mem_singleton.mp hnext)
    · exact .inr ⟨_, List.mem_singleton.mp hnext⟩

/-- **What a job is replaced by.** -/
theorem Job.next_of_mem_exec {full : Bool} {t : HostThread} {job next : Job}
    (hnext : next ∈ (job.exec config full t h).1) : job.Next config h next := by
  cases job with
  | register | send | notify | admitPause | admitSpeed | admitStart | admitVisible =>
    exact absurd hnext List.not_mem_nil
  | pushTo =>
    obtain ⟨-, hnext⟩ | ⟨-, hnext⟩ := mem_ite_fst hnext
    · exact List.mem_singleton.mp hnext
    · exact absurd hnext List.not_mem_nil
  | pushToPeer | askSnapshot =>
    obtain ⟨c, hc, rfl⟩ := List.mem_map.mp hnext
    exact ⟨c, Option.mem_toList.mp hc, rfl⟩
  | broadcast =>
    obtain ⟨c, hc, rfl⟩ := List.mem_map.mp hnext
    obtain ⟨hadmitted, hexcept⟩ := List.mem_filter.mp hc
    exact ⟨c, hadmitted, of_decide_eq_true hexcept, rfl⟩
  | publish =>
    obtain ⟨c, hc, rfl⟩ := List.mem_map.mp hnext
    exact ⟨c, List.mem_of_mem_filter hc, rfl⟩
  | close =>
    obtain ⟨-, hnext⟩ | ⟨-, hnext⟩ := mem_ite_fst hnext
    · exact absurd hnext List.not_mem_nil
    · exact List.mem_singleton.mp hnext
  | leaving | requestOurs | storePause | storeSpeed | storeStart => exact List.mem_singleton.mp hnext
  | unlist c peer reason =>
    change next ∈ (if _ then _ else _ : List Job) at hnext
    split_ifs at hnext with hpeer
    · exact absurd hnext List.not_mem_nil
    · exact ⟨hpeer, List.mem_pair.mp hnext⟩
  | departed peer reason =>
    obtain hnext | hnext := List.mem_append.mp hnext
    · obtain ⟨partner, hpartner, hnext⟩ := List.mem_flatMap.mp hnext
      exact .inl ⟨partner, hpartner, List.mem_pair.mp hnext⟩
    · exact .inr (List.mem_singleton.mp hnext)
  | deliverLink target m =>
    obtain ⟨-, hnext⟩ | ⟨-, hnext⟩ := mem_ite_fst hnext
    · exact absurd hnext List.not_mem_nil
    · split at hnext
      · exact absurd hnext List.not_mem_nil
      · obtain ⟨-, hnext⟩ | ⟨-, hnext⟩ := mem_ite_fst hnext
        · exact ⟨_, List.mem_singleton.mp hnext⟩
        · exact absurd hnext List.not_mem_nil
  | announceLink => exact List.mem_pair.mp hnext
  | routeLink => exact mem_routeLink hnext
  | recordRequest => exact mem_recordRequest hnext
  | admitPeer c hello =>
    rw [exec] at hnext
    split at hnext
    · exact .inl ⟨_, _, hnext⟩
    · obtain ⟨-, hnext⟩ | ⟨-, hnext⟩ := mem_ite_fst hnext
      · exact .inl ⟨_, _, hnext⟩
      · exact .inr (List.mem_singleton.mp hnext)
  | admitLocked c hello start =>
    obtain ⟨-, hnext⟩ | ⟨-, hnext⟩ := mem_ite_fst hnext
    · exact .inl ⟨_, _, hnext⟩
    · exact .inr hnext
  | notePause sender paused =>
    obtain ⟨-, hnext⟩ | ⟨-, hnext⟩ := mem_ite_fst hnext
    · obtain hnext | hnext := List.mem_cons.mp hnext
      · exact .inl hnext
      · by_cases hsender : sender = hostPeerId
        · rw [if_pos hsender] at hnext
          exact absurd hnext List.not_mem_nil
        · rw [if_neg hsender] at hnext
          exact .inr (List.mem_singleton.mp hnext)
    · exact absurd hnext List.not_mem_nil
  | kick peer =>
    rw [exec] at hnext
    dsimp only at hnext
    split at hnext
    · next c hc => exact ⟨c, List.mem_pair.mp hnext⟩
    · exact absurd hnext List.not_mem_nil
  | sendLink m =>
    change next ∈ (if _ then _ else _ : List Job) at hnext
    split_ifs at hnext
    · exact absurd hnext List.not_mem_nil
    · exact List.mem_singleton.mp hnext

/-- Links are announced by what changed them. -/
theorem Job.of_next_announceLink {first : Job} {x y : PeerId} {linked : Bool}
    (hnext : first.Next config h (.announceLink x y linked)) :
    (∃ sender target m, first = .routeLink sender target m) ∨
      ∃ peer reason, first = .departed peer reason := by
  cases first <;> simp [Job.Next, refuse] at hnext ⊢

/-- An item is pushed onto a queue by what is sent to one, or to all. -/
theorem Job.of_next_pushTo {first : Job} {c : Nat} {item : Item}
    (hnext : first.Next config h (.pushTo c item)) :
    (∃ peer, first = .pushToPeer peer item ∧ h.connFor peer = some c) ∨
      (∃ except, first = .broadcast item except ∧ c ∈ h.admittedConns ∧
          (h.conn c).peerId ≠ except) ∨
        ∃ p, first = .publish p ∧ item = p.item ∧ c ∈ h.admittedConns := by
  cases first with
  | pushToPeer peer item' =>
    obtain ⟨c', hc', heq⟩ := hnext
    cases heq
    exact .inl ⟨peer, rfl, hc'⟩
  | broadcast item' except =>
    obtain ⟨c', hc', hexcept, heq⟩ := hnext
    cases heq
    exact .inr (.inl ⟨except, rfl, hc', hexcept⟩)
  | publish p =>
    obtain ⟨c', hc', heq⟩ := hnext
    cases heq
    exact .inr (.inr ⟨p, rfl, rfl, hc'⟩)
  | _ => simp [Job.Next, refuse] at hnext

/-! ## What holds of every run -/

namespace Host

/-- Something that is said of the roster and of who is who, and of each job that is pending. -/
structure Rule (config : HostConfig) (P : Event → Host → Prop) (I : Host → Prop)
    (J : Host → Job → Prop) : Prop where
  same : ∀ {h h' : Host}, SameRoster h h' → I h → I h'
  sameJob : ∀ {h h' : Host} {job : Job}, SameRoster h h' → J h job → J h' job
  start : ∀ {event : Event} {h : Host}, event.Outside → I h → ∀ job ∈ event.jobs h, J h job
  exec : ∀ {t : HostThread} {full : Bool} {job : Job} {rest : List Job} {h : Host},
    h.threads t = job :: rest → ¬ h.Blocked t job → P (.advance t full) h → I h →
      (∀ job', Threads.Pending h.threads job' → J h job') →
        I (job.exec config full t h).2 ∧
          (∀ job' ∈ (job.exec config full t h).1, J (job.exec config full t h).2 job') ∧
            ∀ job', Threads.Pending h.threads job' → J (job.exec config full t h).2 job'

variable {P : Event → Host → Prop} {I : Host → Prop} {J : Host → Job → Prop}

theorem Rule.step (rule : Rule config P I J) {event : Event} {h : Host} (hP : P event h)
    (hI : I h ∧ ∀ job, Threads.Pending h.threads job → J h job) : I (step config event h) ∧
      ∀ job, Threads.Pending (step config event h).threads job → J (step config event h) job := by
  obtain ⟨hI, hJ⟩ := hI
  have houtside : event.Outside → I (Host.step config event h) ∧ ∀ job,
      Threads.Pending (Host.step config event h).threads job → J (Host.step config event h) job := by
    intro hout
    obtain ⟨hsame, hthreads⟩ := @step_outside config _ h hout
    refine ⟨rule.same hsame hI, fun job hjob ↦ rule.sameJob hsame ?_⟩
    obtain hthreads | ⟨hidle, hthreads⟩ := hthreads
    · rw [hthreads] at hjob
      exact hJ job hjob
    · rw [hthreads, Threads.pending_started hidle] at hjob
      exact hjob.elim (rule.start hout hI job) (hJ job)
  cases event with
  | advance t full =>
    show I (h.advance config t full) ∧
      ∀ job, Threads.Pending (h.advance config t full).threads job → J (h.advance config t full) job
    obtain heq | ⟨job, rest, hthread, hblocked, heq⟩ := @advance_cases config t full h
    · rw [heq]
      exact ⟨hI, hJ⟩
    · obtain ⟨hI', hnew, hold⟩ := rule.exec hthread hblocked hP hI hJ
      rw [heq]
      refine ⟨rule.same (h := (job.exec config full t h).2) ⟨rfl, rfl, fun _ ↦ rfl⟩ hI',
        fun job' hjob' ↦ rule.sameJob (h := (job.exec config full t h).2) ⟨rfl, rfl, fun _ ↦ rfl⟩ ?_⟩
      exact (Threads.pending_of_done hthread hjob').elim (hnew job') (hold job')
  | _ => exact houtside trivial

/-- **What every job keeps holds of every run** whose steps meet a condition. -/
theorem Rule.run (rule : Rule config P I J) {events : List Event} {h : Host}
    (halong : Runs.Along (Host.step config) P events h)
    (hI : I h ∧ ∀ job, Threads.Pending h.threads job → J h job) :
    I (Runs.run (Host.step config) events h) ∧
      ∀ job, Threads.Pending (Runs.run (Host.step config) events h).threads job →
        J (Runs.run (Host.step config) events h) job :=
  Runs.run_along (Q := fun h ↦ I h ∧ ∀ job, Threads.Pending h.threads job → J h job)
    (fun _ _ hI hP ↦ rule.step hP hI) halong hI

end Host

/-! ## What is pending after a step -/

namespace Host

variable {event : Event} {h : Host} {job : Job}

/-- The host after a thread did its first job. -/
def done (h' : Host) (t : HostThread) (threads : HostThread → List Job) (jobs : List Job) : Host :=
  { h' with threads := Function.update threads t jobs }

theorem done_conn {t : HostThread} {threads : HostThread → List Job} {jobs : List Job} :
    (h.done t threads jobs).conn = h.conn := rfl

theorem done_self {t : HostThread} {threads : HostThread → List Job} {jobs : List Job} :
    (h.done t threads jobs).threads t = jobs := Function.update_self ..

theorem done_of_ne {t t' : HostThread} {threads : HostThread → List Job} {jobs : List Job}
    (hne : t' ≠ t) : (h.done t threads jobs).threads t' = threads t' := Function.update_of_ne hne ..

/-- **What a step comes to**: no thread does a job, or nothing happens, or one does its first job. -/
theorem step_elim {Q : Host → Prop} (houtside : event.Outside → Q (step config event h)) (hsame : Q h)
    (hexec : ∀ t full first rest, event = .advance t full → h.threads t = first :: rest →
      ¬ h.Blocked t first →
        Q ((first.exec config full t h).2.done t h.threads ((first.exec config full t h).1 ++ rest))) :
    Q (step config event h) := by
  cases event with
  | advance t full =>
    show Q (h.advance config t full)
    obtain heq | ⟨first, rest, hthread, hblocked, heq⟩ := @advance_cases config t full h
    · rw [heq]
      exact hsame
    · rw [heq]
      exact hexec t full first rest rfl hthread hblocked
  | _ => exact houtside trivial

/-- What is pending after an event at which no thread does a job was pending or was just given. -/
theorem pending_outside (hout : event.Outside) : Threads.Pending (step config event h).threads job →
      Threads.Pending h.threads job ∨ job ∈ event.jobs h := by
  intro hjob
  obtain ⟨-, hthreads | ⟨hidle, hthreads⟩⟩ := @step_outside config _ h hout
  · exact .inl (hthreads ▸ hjob)
  · rw [hthreads, Threads.pending_started hidle] at hjob
    exact hjob.symm

theorem Pending.outside (hout : event.Outside) (hjob : Threads.Pending h.threads job) :
    Threads.Pending (step config event h).threads job := by
  obtain ⟨-, hthreads | ⟨hidle, hthreads⟩⟩ := @step_outside config _ h hout
  · exact hthreads ▸ hjob
  · rw [hthreads, Threads.pending_started hidle]
    exact .inr hjob

/-- Something that is said of each pending job, whatever the host does meanwhile. -/
theorem pending_kept {J : Job → Prop} (hstart : ∀ job ∈ event.jobs h, J job)
    (hnext : ∀ first next, first.Next config h next → J first → J next)
    (hjobs : ∀ job, Threads.Pending h.threads job → J job) :
    ∀ job, Threads.Pending (step config event h).threads job → J job := by
  refine step_elim (Q := fun h' ↦ ∀ job, Threads.Pending h'.threads job → J job)
    (fun hout job hjob ↦ ?_) hjobs ?_
  · exact (pending_outside hout hjob).elim (hjobs job) (hstart job)
  · rintro t full first rest - hthread - job hjob
    obtain hnew | hold := Threads.pending_of_done hthread hjob
    · exact hnext first job (Job.next_of_mem_exec hnew)
        (hjobs first ⟨t, hthread ▸ List.mem_cons_self⟩)
    · exact hjobs job hold

end Host

/-! ## Threads that were never started -/

namespace Host

theorem exec_accepted {full : Bool} {t : HostThread} {job : Job} {h : Host} :
    (job.exec config full t h).2.accepted = h.accepted := by
  cases job with
  | routeLink sender target m =>
    have hrouted := @routed config sender target m h
    show (PlayTogether.routeLink config sender target m h).2.accepted = h.accepted
    generalize PlayTogether.routeLink config sender target m h = out at hrouted ⊢
    cases hrouted <;> rfl
  | broadcast item except =>
    cases item with
    | message m => cases m <;> rfl
    | _ => rfl
  | deliverLink target m =>
    rw [Job.exec]
    split
    · rfl
    · split
      · rfl
      · split <;> rfl
  | admitPeer c hello =>
    rw [Job.exec]
    split
    · rfl
    · dsimp only
      split <;> rfl
  | admitStart c start => cases start <;> rfl
  | recordRequest =>
    rw [Job.exec, PlayTogether.recordRequest]
    split_ifs <;> rfl
  | pushTo | close | notePause =>
    rw [Job.exec]
    split_ifs <;> rfl
  | admitLocked =>
    rw [Job.exec, PlayTogether.admitLocked]
    split_ifs <;> rfl
  | _ => rfl

/-- The threads that were started so far. -/
def started (h : Host) : List HostThread :=
  [.accept, .tick, .frontend, .publisher] ++
    (List.range h.accepted).flatMap fun c ↦ [.reader c, .writer c]

/-- The threads of connections that never came in have nothing to do. -/
def Tended (h : Host) : Prop :=
  ∀ c, h.accepted ≤ c → h.threads (.reader c) = [] ∧ h.threads (.writer c) = []

variable {h : Host}

theorem Tended.mem_started (htended : h.Tended) {t : HostThread} (ht : h.threads t ≠ []) :
    t ∈ h.started := by
  have hconn : ∀ c, h.threads (.reader c) ≠ [] ∨ h.threads (.writer c) ≠ [] → c < h.accepted := by
    intro c hc
    by_contra hle
    obtain ⟨hreader, hwriter⟩ := htended c (not_lt.mp hle)
    exact hc.elim (· hreader) (· hwriter)
  rw [started, List.mem_append, List.mem_flatMap]
  cases t with
  | reader c => exact .inr ⟨c, List.mem_range.mpr (hconn c (.inl ht)), List.mem_cons_self⟩
  | writer c =>
    exact .inr ⟨c, List.mem_range.mpr (hconn c (.inr ht)), List.mem_cons_of_mem _ List.mem_cons_self⟩
  | _ => exact .inl (by decide)

/-- What is still to be done. -/
def jobs (h : Host) : List Job := h.started.flatMap h.threads

theorem Tended.mem_jobs (htended : h.Tended) {job : Job} :
    job ∈ h.jobs ↔ Threads.Pending h.threads job := by
  rw [jobs, List.mem_flatMap]
  constructor
  · exact fun ⟨t, _, hjob⟩ ↦ ⟨t, hjob⟩
  · exact fun ⟨t, hjob⟩ ↦ ⟨t, htended.mem_started (List.ne_nil_of_mem hjob), hjob⟩

theorem Tended.start (htended : h.Tended) {t : HostThread} {jobs : List Job}
    (ht : ∀ c, t = .reader c ∨ t = .writer c → c < h.accepted) : (h.start t jobs).Tended := by
  rw [Host.start]
  split_ifs with hidle
  · intro c hc
    have hne : ∀ t', t' = .reader c ∨ t' = .writer c → t' ≠ t := by
      rintro t' ht' rfl
      exact absurd (ht c ht') (not_lt.mpr hc)
    show Function.update h.threads t jobs _ = [] ∧ Function.update h.threads t jobs _ = []
    rw [Function.update_of_ne (hne _ (.inl rfl)), Function.update_of_ne (hne _ (.inr rfl))]
    exact htended c hc
  · exact htended

theorem Tended.step (htended : h.Tended) {event : Event} : (step config event h).Tended := by
  have hreader : ∀ {c : Nat}, c < h.accepted →
      ∀ c', HostThread.reader c = .reader c' ∨ HostThread.reader c = .writer c' → c' < h.accepted := by
    rintro c hc c' (heq | heq) <;> cases heq
    exact hc
  have hother : ∀ {t : HostThread}, (∀ c, t ≠ .reader c) → (∀ c, t ≠ .writer c) →
      ∀ c, t = .reader c ∨ t = .writer c → c < h.accepted :=
    fun hreader hwriter c hc ↦ (hc.elim (hreader c) (hwriter c)).elim
  cases event with
  | connect =>
    rw [Host.step]
    split_ifs
    · intro c hc
      exact htended c ((Nat.le_succ _).trans hc)
    · exact htended
  | receive c m bad gap =>
    rw [Host.step]
    split_ifs with hc
    · exact htended.start (hreader hc.1)
    · exact htended
  | lose | garble =>
    rw [Host.step]
    split_ifs with hc
    · exact htended.start (hreader hc)
    · exact htended
  | writeFails c =>
    rw [Host.step]
    split_ifs with hc
    · refine htended.start fun c' hc' ↦ ?_
      obtain heq | heq := hc' <;> cases heq
      exact hc
    · exact htended
  | timeout =>
    rw [Host.step]
    split_ifs
    · exact htended.start (hother nofun nofun)
    · exact htended
  | call | publish => exact htended.start (hother nofun nofun)
  | drain | takeUrgent =>
    rw [Host.step]
    split_ifs <;> exact htended
  | write => exact htended
  | advance t full =>
    show (h.advance config t full).Tended
    obtain heq | ⟨job, rest, hthread, -, heq⟩ := @advance_cases config t full h
    · rw [heq]
      exact htended
    · rw [heq]
      intro c hc
      rw [show (_ : Host).accepted = h.accepted from exec_accepted] at hc
      have hne : ∀ t', h.threads t' = [] → t' ≠ t := by
        rintro t' hidle rfl
        rw [hthread] at hidle
        cases hidle
      obtain ⟨hreader, hwriter⟩ := htended c hc
      refine ⟨?_, ?_⟩
      · exact (Function.update_of_ne (hne _ hreader) ..).trans hreader
      · exact (Function.update_of_ne (hne _ hwriter) ..).trans hwriter

theorem tended_new : new.Tended := fun _ _ ↦ ⟨rfl, rfl⟩

theorem tended_run {events : List Event} : (Runs.run (Host.step config) events new).Tended :=
  Runs.run_kept (fun _ _ htended ↦ htended.step) tended_new

end Host

/-! ## A small session -/

namespace Host

def gameBoyGame : PublisherInfo where
  metadata :=
    { consoleType := .gameBoy
      romName := ""
      romFilename := ""
      romChecksum := zeroHash
      biosChecksum := zeroHash
      emulatorCoreName := ""
      patchFormat := .unpatched
      patchTargetChecksum := zeroHash
      cropStart := none
      cropEnd := none
      timerOffset := none }
  initialInput := []
  speed := .default
  frame := 0

def smallSession : HostConfig where
  own := ⟨hostPeerId, "Host", 1, "", gameBoyGame⟩
  sessionId := 1
  maxParticipants := 8
  allowNintendoDS := false
  dedupeDisplayName name _ := name
  assignColor color _ _ := color

/-- A thread does its next jobs, up to so many. -/
def advances (t : HostThread) (n : Nat) : List Event := List.replicate n (.advance t false)

/-- A client connects, is registered, says `Hello` and is admitted. -/
def admission (c : Nat) : List Event :=
  .connect :: .advance .accept false ::
    .receive c (.hello protocolVersion 7 "" "Player" 2 gameBoyGame) none false ::
      advances (.reader c) 12

/-- The reader of a connection handles a message from start to end. -/
def handles (c : Nat) (m : Message) : List Event :=
  .receive c m none false :: advances (.reader c) 12

/-- The writer of a connection writes what waits, up to so many items. -/
def delivers (c n : Nat) : List Event := .drain c none :: List.replicate n (.write c)

end Host

end PlayTogether

end SuperShuckie
