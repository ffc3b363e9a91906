import SuperShuckie.PlayTogether.HostSteps

/-!
# The link table is a matching

Requests and links are edited under the lock, so each edit is one job; what could go wrong in between is
that a request is put down after one of its ends has left, for a departure takes its requests from the
roster once.  `LegalMatching` is what the roster is meant to be, and `legalMatching_of_noLateRequest` says
that it is that in every run in which no request comes so late; `late_request` is a run in which one does.
-/

set_option autoImplicit false

namespace SuperShuckie

open ByteFormat

namespace PlayTogether

/-! ## The two tables -/

/-- The two pairs have no end in common. -/
def Apart (l l' : PeerId × PeerId) : Prop :=
  l.1 ≠ l'.1 ∧ l.1 ≠ l'.2 ∧ l.2 ≠ l'.1 ∧ l.2 ≠ l'.2

namespace Roster

variable {r : Roster} {a b peer : PeerId} {ask : LinkAsk}

theorem mem_answered {q : LinkAsk} (h : q ∈ (r.answered ask).requests) : q ∈ r.requests :=
  List.mem_of_mem_erase h

theorem mem_record {q : LinkAsk} (h : q ∈ (r.record ask).requests) : q ∈ r.requests ∨ q = ask := by
  rw [record, List.mem_append, List.mem_singleton] at h
  exact h.imp_left List.mem_of_mem_filter

theorem mem_link {l : PeerId × PeerId} (h : l ∈ (r.link a b).links) : l ∈ r.links ∨ l = (a, b) := by
  rw [link, List.mem_append, List.mem_singleton] at h
  exact h

theorem unlink_sublist : (r.unlink a b).links.Sublist r.links := List.filter_sublist

theorem depart_sublist : (r.depart peer).links.Sublist r.links := List.filter_sublist

/-- A link of two that are not linked yet has no end in common with the others. -/
theorem link_pairwise (h : r.links.Pairwise Apart) (ha : ¬ r.IsLinked a) (hb : ¬ r.IsLinked b) :
    (r.link a b).links.Pairwise Apart := by
  rw [link, List.pairwise_append]
  refine ⟨h, List.pairwise_singleton _ _, fun l hl l' hl' ↦ ?_⟩
  rw [List.mem_singleton.mp hl']
  refine ⟨?_, ?_, ?_, ?_⟩
  · exact fun heq ↦ ha ⟨l, hl, .inl heq⟩
  · exact fun heq ↦ hb ⟨l, hl, .inl heq⟩
  · exact fun heq ↦ ha ⟨l, hl, .inr heq⟩
  · exact fun heq ↦ hb ⟨l, hl, .inr heq⟩

end Roster

/-! ## Who is in the session -/

namespace Host

variable (config : HostConfig)

/-- The participant was admitted, or is the host itself, and has this console. -/
def HasConsole (h : Host) (peer : PeerId) (console : ReplayConsoleType) : Prop :=
  peer = hostPeerId ∧ config.own.publisher.metadata.consoleType = console ∨
    ∃ info ∈ h.past.joined, info.peerId = peer ∧ info.publisher.metadata.consoleType = console

/-- The participant is in the session: it is the host, or was admitted, and its departure was not
announced. -/
def Present (h : Host) (peer : PeerId) : Prop :=
  (peer = hostPeerId ∨ ∃ info ∈ h.past.joined, info.peerId = peer) ∧ peer ∉ h.past.announced

variable {peer sender target : PeerId}

variable {config} in
theorem HasConsole.known {h : Host} {console : ReplayConsoleType}
    (hconsole : h.HasConsole config peer console) :
    peer = hostPeerId ∨ ∃ info ∈ h.past.joined, info.peerId = peer := by
  obtain ⟨hpeer, -⟩ | ⟨info, hinfo, hpeer, -⟩ := hconsole
  · exact .inl hpeer
  · exact .inr ⟨info, hinfo, hpeer⟩

/-- **The link table is a legal matching.** -/
structure LegalMatching (h : Host) : Prop where
  /-- Nobody is in two links, -/
  one : h.roster.links.Pairwise Apart
  ends : ∀ l ∈ h.roster.links, l.1 ≠ l.2
  /-- the ends of a link are in the session, -/
  present : ∀ l ∈ h.roster.links, h.Present l.1 ∧ h.Present l.2
  /-- their consoles are of one family, -/
  family : ∀ l ∈ h.roster.links, ∃ a b,
    h.HasConsole config l.1 a ∧ h.HasConsole config l.2 b ∧ canLink a b
  /-- and one has asked the other, who accepted. -/
  agreed : ∀ l ∈ h.roster.links, ∃ nonce,
    (l.1, l.2, nonce) ∈ h.past.asked ∧ (l.1, l.2, nonce) ∈ h.past.agreed
  /-- No request names someone whose departure was announced, -/
  requests : ∀ q ∈ h.roster.requests, q.1 ∉ h.past.announced ∧ q.2.1 ∉ h.past.announced
  /-- and accepting one of somebody who is linked makes no link. -/
  second : ∀ q ∈ h.roster.requests, h.roster.IsLinked q.1 ∨ h.roster.IsLinked q.2.1 →
    ∀ accepter target nonce, (routeLink config q.2.1 q.1 (.linkAccept accepter target nonce) h).2.roster.links =
      h.roster.links

/-! ## What every step keeps -/

/-- What is kept of the roster and of who is who, whenever a request comes. -/
structure RosterInv (h : Host) : Prop where
  one : h.roster.links.Pairwise Apart
  ends : ∀ l ∈ h.roster.links, l.1 ≠ l.2
  family : ∀ l ∈ h.roster.links, ∃ a b,
    h.HasConsole config l.1 a ∧ h.HasConsole config l.2 b ∧ canLink a b
  agreed : ∀ l ∈ h.roster.links, ∃ nonce,
    (l.1, l.2, nonce) ∈ h.past.asked ∧ (l.1, l.2, nonce) ∈ h.past.agreed
  asked : ∀ q ∈ h.roster.requests, q ∈ h.past.asked ∧ q.1 ≠ q.2.1 ∧ ∃ a b,
    h.HasConsole config q.1 a ∧ h.HasConsole config q.2.1 b ∧ canLink a b
  announced : ∀ peer ∈ h.past.announced, peer ∈ h.past.departed
  infos : ∀ c info, (h.conn c).info = some info →
    info ∈ h.past.joined ∧ info.peerId = (h.conn c).peerId

/-- Nobody who was taken from the roster is in it. -/
structure NoneDeparted (h : Host) : Prop where
  links : ∀ l ∈ h.roster.links, l.1 ∉ h.past.departed ∧ l.2 ∉ h.past.departed
  requests : ∀ q ∈ h.roster.requests, q.1 ∉ h.past.departed ∧ q.2.1 ∉ h.past.departed

/-- What is known of a request on its way into the roster, and of a departure that is about to be
announced. -/
def RosterJob (h : Host) : Job → Prop
  | .requestOurs sender target _ theirs _ => sender ≠ target ∧ h.HasConsole config target theirs
  | .recordRequest sender target _ theirs ours _ => sender ≠ target ∧
    h.HasConsole config target theirs ∧ (ours ≠ .unknown → h.HasConsole config sender ours)
  | .broadcast (.message (.peerLeft peer _)) _ => peer ∈ h.past.departed
  | _ => True

/-- No request is put into the roster once one of its ends has been taken from it. -/
def NoLateRequest : Event → Host → Prop
  | .advance t _, h =>
    match h.threads t with
    | .recordRequest sender target _ theirs ours _ :: _ =>
      ¬ h.roster.IsLinked sender → ¬ h.roster.IsLinked target → canLink ours theirs →
        sender ∉ h.past.departed ∧ target ∉ h.past.departed
    | _ => True
  | _, _ => True

instance (event : Event) (h : Host) : Decidable (NoLateRequest event h) := by
  rcases event with ⟨⟩
  case advance t full =>
    unfold NoLateRequest
    dsimp only
    rcases h.threads t with _ | ⟨⟨⟩, rest⟩ <;> dsimp only <;> infer_instance
  all_goals
    unfold NoLateRequest
    infer_instance

variable {config} {h h' : Host}

theorem HasConsole.mono {console : ReplayConsoleType} (hconsole : h.HasConsole config peer console)
    (hjoined : ∀ info ∈ h.past.joined, info ∈ h'.past.joined) :
    h'.HasConsole config peer console := by
  obtain hown | ⟨info, hinfo, hpeer⟩ := hconsole
  · exact .inl hown
  · exact .inr ⟨info, hjoined info hinfo, hpeer⟩

theorem RosterInv.same (hsame : SameRoster h h') (hinv : h.RosterInv config) :
    h'.RosterInv config := by
  have hmono : ∀ {peer console}, h.HasConsole config peer console →
      h'.HasConsole config peer console := fun hconsole ↦
    hconsole.mono fun info hinfo ↦ hsame.past ▸ hinfo
  constructor
  · exact hsame.roster ▸ hinv.one
  · exact hsame.roster ▸ hinv.ends
  · rw [hsame.roster]
    intro l hl
    obtain ⟨a, b, ha, hb, hlink⟩ := hinv.family l hl
    exact ⟨a, b, hmono ha, hmono hb, hlink⟩
  · rw [hsame.roster, hsame.past]
    exact hinv.agreed
  · rw [hsame.roster, hsame.past]
    intro q hq
    obtain ⟨hasked, hne, a, b, ha, hb, hlink⟩ := hinv.asked q hq
    exact ⟨hasked, hne, a, b, hmono ha, hmono hb, hlink⟩
  · rw [hsame.past]
    exact hinv.announced
  · intro c info hinfo
    have hwho := hsame.who c
    rw [Conn.who, Conn.who, Prod.mk.injEq] at hwho
    rw [hwho.2] at hinfo
    rw [hsame.past, hwho.1]
    exact hinv.infos c info hinfo

/-- What is known of a job stays known as more happens. -/
theorem RosterJob.mono {job : Job} (hjob : h.RosterJob config job)
    (hjoined : ∀ info ∈ h.past.joined, info ∈ h'.past.joined)
    (hdeparted : ∀ peer ∈ h.past.departed, peer ∈ h'.past.departed) : h'.RosterJob config job := by
  cases job with
  | requestOurs sender target nonce theirs m => exact ⟨hjob.1, hjob.2.mono hjoined⟩
  | recordRequest sender target nonce theirs ours m =>
    exact ⟨hjob.1, hjob.2.1.mono hjoined, fun hours ↦ (hjob.2.2 hours).mono hjoined⟩
  | broadcast item except =>
    cases item with
    | message m =>
      cases m with
      | peerLeft peer reason => exact hdeparted peer hjob
      | _ => trivial
    | _ => trivial
  | _ => trivial

/-- A console that was looked up is that of someone in the session. -/
theorem RosterInv.console {console : ReplayConsoleType} (hinv : h.RosterInv config)
    (hconsole : h.consoleOf config peer = some console) : h.HasConsole config peer console := by
  rw [consoleOf] at hconsole
  split_ifs at hconsole with hpeer
  · exact .inl ⟨hpeer, Option.some.inj hconsole⟩
  · obtain ⟨c, hc, hconsole⟩ := Option.bind_eq_some_iff.mp hconsole
    obtain ⟨info, hinfo, hconsole⟩ := Option.map_eq_some_iff.mp hconsole
    rw [connFor] at hc
    split_ifs at hc
    have hid := List.find?_some hc
    obtain ⟨hjoined, hpeer⟩ := hinv.infos c info hinfo
    exact .inr ⟨info, hjoined, hpeer.trans (of_decide_eq_true hid), hconsole⟩

/-- What an event starts puts nothing into the roster yet. -/
theorem rosterJob_start {event : Event} : ∀ job ∈ event.jobs h, h.RosterJob config job := by
  intro job hjob
  cases event with
  | receive c m bad gap =>
    have hreader := ofReader_handleMessage job hjob
    cases job with
    | requestOurs | recordRequest => exact absurd hreader id
    | broadcast item except =>
      cases item with
      | message m' =>
        cases m' with
        | peerLeft => exact absurd hreader.2.2 id
        | _ => trivial
      | _ => trivial
    | _ => trivial
  | call request =>
    rw [List.mem_singleton.mp hjob]
    cases request <;> trivial
  | garble c text =>
    obtain rfl | rfl := List.mem_pair.mp hjob <;> trivial
  | connect | lose | writeFails | timeout | publish =>
    rw [List.mem_singleton.mp hjob]
    trivial
  | _ => exact absurd hjob List.not_mem_nil

/-- What a quiet job is replaced by: only a request whose second console was looked up is on its way
into the roster. -/
theorem rosterJob_exec {t : HostThread} {full : Bool} {job : Job} (hquiet : job.quiet)
    (hinv : h.RosterInv config) (hjob : h.RosterJob config job) :
    ∀ job' ∈ (job.exec config full t h).1, h.RosterJob config job' := by
  intro job' hjob'
  have hnext := Job.next_of_mem_exec hjob'
  cases job with
  | routeLink | recordRequest | departed | admitVisible => cases hquiet
  | register | send | notify | admitPause | admitSpeed | admitStart => exact absurd hnext id
  | pushTo | close | leaving | storePause | storeSpeed | sendLink =>
    rw [hnext]
    trivial
  | storeStart start =>
    rw [hnext]
    cases start <;> trivial
  | pushToPeer | publish | askSnapshot =>
    obtain ⟨c, -, rfl⟩ := hnext
    trivial
  | broadcast =>
    obtain ⟨c, -, -, rfl⟩ := hnext
    trivial
  | unlist =>
    obtain ⟨-, rfl | rfl⟩ := hnext <;> trivial
  | deliverLink =>
    obtain ⟨c, rfl⟩ := hnext
    trivial
  | announceLink a b linked =>
    cases linked <;> obtain rfl | rfl := hnext <;> trivial
  | requestOurs sender target nonce theirs m =>
    rw [hnext]
    refine ⟨hjob.1, hjob.2, fun hours ↦ hinv.console ?_⟩
    cases hconsole : h.consoleOf config sender with
    | some console => rfl
    | none => exact absurd (by rw [hconsole]; rfl) hours
  | admitPeer c hello =>
    obtain ⟨reason, text, hnext⟩ | rfl := hnext
    · obtain rfl | rfl := List.mem_pair.mp hnext <;> trivial
    · trivial
  | admitLocked c hello start =>
    obtain ⟨reason, text, hnext⟩ | hnext := hnext
    · obtain rfl | rfl := List.mem_pair.mp hnext <;> trivial
    · simp only [List.mem_cons, List.not_mem_nil, or_false] at hnext
      obtain rfl | rfl | rfl | rfl | rfl | rfl := hnext <;> trivial
  | notePause =>
    obtain rfl | rfl := hnext <;> trivial
  | kick =>
    obtain ⟨c, rfl | rfl⟩ := hnext <;> trivial

section

variable (hinv : h.RosterInv config)
include hinv

/-- Links and requests may go. -/
theorem RosterInv.shrink (hlinks : h'.roster.links.Sublist h.roster.links)
    (hrequests : ∀ q ∈ h'.roster.requests, q ∈ h.roster.requests)
    (hwho : ∀ c, (h'.conn c).who = (h.conn c).who) (hjoined : h'.past.joined = h.past.joined)
    (hasked : h'.past.asked = h.past.asked) (hagreed : ∀ q ∈ h.past.agreed, q ∈ h'.past.agreed)
    (hannounced : ∀ peer ∈ h'.past.announced, peer ∈ h'.past.departed) : h'.RosterInv config := by
  have hmono : ∀ {peer console}, h.HasConsole config peer console →
      h'.HasConsole config peer console := fun hconsole ↦
    hconsole.mono fun info hinfo ↦ hjoined ▸ hinfo
  constructor
  · exact hinv.one.sublist hlinks
  · exact fun l hl ↦ hinv.ends l (hlinks.subset hl)
  · intro l hl
    obtain ⟨a, b, ha, hb, hlink⟩ := hinv.family l (hlinks.subset hl)
    exact ⟨a, b, hmono ha, hmono hb, hlink⟩
  · intro l hl
    obtain ⟨nonce, hask, hagree⟩ := hinv.agreed l (hlinks.subset hl)
    exact ⟨nonce, hasked ▸ hask, hagreed _ hagree⟩
  · intro q hq
    obtain ⟨hask, hne, a, b, ha, hb, hlink⟩ := hinv.asked q (hrequests q hq)
    exact ⟨hasked ▸ hask, hne, a, b, hmono ha, hmono hb, hlink⟩
  · exact hannounced
  · intro c info hinfo
    have hsame := hwho c
    rw [Conn.who, Conn.who, Prod.mk.injEq] at hsame
    rw [hsame.2] at hinfo
    rw [hjoined, hsame.1]
    exact hinv.infos c info hinfo

/-- Two who asked and accepted, and are not linked, may be linked. -/
theorem RosterInv.link {ask : LinkAsk} (hask : ask ∈ h.roster.requests)
    (hagreed : ask ∈ h.past.agreed) (ha : ¬ h.roster.IsLinked ask.1)
    (hb : ¬ h.roster.IsLinked ask.2.1) :
    RosterInv config { h with roster := h.roster.link ask.1 ask.2.1 } := by
  obtain ⟨hasked, hne, hconsoles⟩ := hinv.asked ask hask
  refine ⟨Roster.link_pairwise hinv.one ha hb, ?_, ?_, ?_, hinv.asked, hinv.announced, hinv.infos⟩
  all_goals
    intro l hl
    obtain hl | rfl := Roster.mem_link hl
  · exact hinv.ends l hl
  · exact hne
  · exact hinv.family l hl
  · exact hconsoles
  · exact hinv.agreed l hl
  · exact ⟨ask.2.2, hasked, hagreed⟩

theorem RosterInv.answered {ask : LinkAsk} : RosterInv config
      { h with
        roster := h.roster.answered ask
        past := { h.past with agreed := ask :: h.past.agreed } } :=
  hinv.shrink (List.Sublist.refl _) (fun _ ↦ Roster.mem_answered) (fun _ ↦ rfl) rfl rfl
    (fun _ ↦ List.mem_cons_of_mem _) hinv.announced

/-- **Routing a link cable message** keeps the roster. -/
theorem RosterInv.routeLink {m : Message} :
    (PlayTogether.routeLink config sender target m h).2.RosterInv config := by
  have hrouted := @routed config sender target m h
  generalize PlayTogether.routeLink config sender target m h = out at hrouted ⊢
  cases hrouted with
  | nothing | unavailable | asking | relayed => exact hinv
  | busy => exact hinv.answered
  | linked nonce hne hask hsender htarget =>
    have hlink := @RosterInv.link _ { h with past := { h.past with agreed := (target, sender, nonce) :: h.past.agreed } }
      ⟨hinv.one, hinv.ends, hinv.family, fun l hl ↦ by
        obtain ⟨nonce, hasked, hagreed⟩ := hinv.agreed l hl
        exact ⟨nonce, hasked, List.mem_cons_of_mem _ hagreed⟩, hinv.asked, hinv.announced,
        hinv.infos⟩ (target, sender, nonce) hask List.mem_cons_self htarget hsender
    exact hlink.shrink (List.Sublist.refl _) (fun _ ↦ Roster.mem_answered) (fun _ ↦ rfl) rfl rfl
      (fun _ hq ↦ hq) hlink.announced
  | declined =>
    exact hinv.shrink (List.Sublist.refl _) (fun _ ↦ Roster.mem_answered) (fun _ ↦ rfl) rfl rfl
      (fun _ hq ↦ hq) hinv.announced
  | unplugged | forgotten =>
    exact hinv.shrink Roster.unlink_sublist (fun _ ↦ List.mem_of_mem_filter) (fun _ ↦ rfl) rfl rfl
      (fun _ hq ↦ hq) hinv.announced

/-- A request may be put into the roster. -/
theorem RosterInv.recordRequest {nonce : UInt32} {theirs ours : ReplayConsoleType} {m : Message}
    (hjob : h.RosterJob config (.recordRequest sender target nonce theirs ours m)) :
    (PlayTogether.recordRequest sender target nonce theirs ours m h).2.RosterInv config := by
  rw [PlayTogether.recordRequest]
  split_ifs with hbusy hcan
  · exact hinv
  · obtain ⟨hne, htheirs, hours⟩ := hjob
    have hknown : ours ≠ .unknown := by
      rintro rfl
      cases hcan
    refine ⟨hinv.one, hinv.ends, hinv.family, ?_, ?_, hinv.announced, hinv.infos⟩
    · intro l hl
      obtain ⟨nonce, hasked, hagreed⟩ := hinv.agreed l hl
      exact ⟨nonce, List.mem_cons_of_mem _ hasked, hagreed⟩
    · intro q hq
      obtain hq | rfl := Roster.mem_record hq
      · obtain ⟨hasked, hrest⟩ := hinv.asked q hq
        exact ⟨List.mem_cons_of_mem _ hasked, hrest⟩
      · exact ⟨List.mem_cons_self, hne, ours, theirs, hours hknown, htheirs, hcan⟩
  · exact hinv

/-- A departure takes links and requests from the roster. -/
theorem RosterInv.departed : RosterInv config
      { h with
        roster := h.roster.depart peer
        past := { h.past with departed := peer :: h.past.departed } } :=
  hinv.shrink Roster.depart_sublist (fun _ ↦ List.mem_of_mem_filter) (fun _ ↦ rfl) rfl rfl
    (fun _ hq ↦ hq) fun _ hother ↦ List.mem_cons_of_mem _ (hinv.announced _ hother)

end

/-- Who was admitted and who departed is not for the roster's own jobs to change. -/
theorem routeLink_past {sender target : PeerId} {m : Message} :
    (PlayTogether.routeLink config sender target m h).2.past.joined = h.past.joined ∧
      (PlayTogether.routeLink config sender target m h).2.past.departed = h.past.departed := by
  have hrouted := @routed config sender target m h
  generalize PlayTogether.routeLink config sender target m h = out at hrouted ⊢
  cases hrouted <;> exact ⟨rfl, rfl⟩

theorem recordRequest_past {sender target : PeerId} {nonce : UInt32}
    {theirs ours : ReplayConsoleType} {m : Message} :
    (PlayTogether.recordRequest sender target nonce theirs ours m h).2.past.joined =
        h.past.joined ∧
      (PlayTogether.recordRequest sender target nonce theirs ours m h).2.past.departed =
        h.past.departed := by
  rw [PlayTogether.recordRequest]
  split_ifs <;> exact ⟨rfl, rfl⟩

/-- **No job breaks the roster.** -/
theorem rosterRule : Rule config (fun _ _ ↦ True) (RosterInv config) (RosterJob config) where
  same := RosterInv.same
  sameJob hsame hjob := hjob.mono (fun _ hinfo ↦ hsame.past ▸ hinfo) (fun _ hpeer ↦ hsame.past ▸ hpeer)
  start _ _ := rosterJob_start
  exec := by
    intro t full job rest h hthread hblocked _ hinv hjobs
    have hjob := hjobs job ⟨t, hthread ▸ List.mem_cons_self⟩
    -- what is known of the jobs that wait, and of the new ones, stays known
    have hgrows : ∀ {h' : Host}, (∀ info ∈ h.past.joined, info ∈ h'.past.joined) →
        (∀ peer ∈ h.past.departed, peer ∈ h'.past.departed) →
          ∀ job', Threads.Pending h.threads job' → h'.RosterJob config job' :=
      fun hjoined hdeparted job' hjob' ↦ (hjobs job' hjob').mono hjoined hdeparted
    by_cases hquiet : job.quiet
    · have hsame := @Job.sameRoster_exec config full t _ h hquiet
      refine ⟨hinv.same hsame, fun job' hjob' ↦ ?_, hgrows (fun _ hinfo ↦ hsame.past ▸ hinfo)
        (fun _ hpeer ↦ hsame.past ▸ hpeer)⟩
      exact (rosterJob_exec hquiet hinv hjob job' hjob').mono (fun _ hinfo ↦ hsame.past ▸ hinfo)
        (fun _ hpeer ↦ hsame.past ▸ hpeer)
    · cases job with
      | routeLink sender target m =>
        obtain ⟨hjoined, hdeparted⟩ := @routeLink_past config h sender target m
        refine ⟨hinv.routeLink, fun job' hjob' ↦ ?_,
          hgrows (fun _ hinfo ↦ hjoined ▸ hinfo) (fun _ hpeer ↦ hdeparted ▸ hpeer)⟩
        obtain ⟨nonce, theirs, rfl, hne, hconsole⟩ | ⟨_, _, rfl, -⟩ | ⟨_, _, _, rfl⟩ :=
          Job.next_of_mem_exec hjob'
        · exact ⟨Ne.symm hne, (hinv.console hconsole).mono fun _ hinfo ↦ hjoined ▸ hinfo⟩
        · trivial
        · trivial
      | recordRequest sender target nonce theirs ours m =>
        obtain ⟨hjoined, hdeparted⟩ := @recordRequest_past h sender target nonce theirs ours m
        refine ⟨hinv.recordRequest hjob, fun job' hjob' ↦ ?_,
          hgrows (fun _ hinfo ↦ hjoined ▸ hinfo) (fun _ hpeer ↦ hdeparted ▸ hpeer)⟩
        obtain rfl | ⟨_, rfl⟩ := Job.next_of_mem_exec hjob' <;> trivial
      | departed peer reason =>
        refine ⟨hinv.departed, fun job' hjob' ↦ ?_,
          hgrows (fun _ ↦ id) (fun _ ↦ List.mem_cons_of_mem _)⟩
        obtain ⟨partner, -, rfl | rfl⟩ | rfl := Job.next_of_mem_exec hjob'
        · trivial
        · trivial
        · exact List.mem_cons_self
      | admitVisible c participant =>
        refine ⟨⟨hinv.one, hinv.ends, ?_, hinv.agreed, ?_, hinv.announced, ?_⟩, fun job' hjob' ↦ absurd hjob' List.not_mem_nil,
          hgrows (fun _ ↦ List.mem_cons_of_mem _) (fun _ ↦ id)⟩
        · intro l hl
          obtain ⟨a, b, ha, hb, hlink⟩ := hinv.family l hl
          exact ⟨a, b, ha.mono fun _ ↦ List.mem_cons_of_mem _,
            hb.mono fun _ ↦ List.mem_cons_of_mem _, hlink⟩
        · intro q hq
          obtain ⟨hasked, hne, a, b, ha, hb, hlink⟩ := hinv.asked q hq
          exact ⟨hasked, hne, a, b, ha.mono fun _ ↦ List.mem_cons_of_mem _,
            hb.mono fun _ ↦ List.mem_cons_of_mem _, hlink⟩
        · intro c' info hinfo
          change ((h.onConn c (·.admitAs participant)).conn c').info = some info at hinfo
          show info ∈ participant :: h.past.joined ∧
            info.peerId = ((h.onConn c (·.admitAs participant)).conn c').peerId
          rw [onConn_conn] at hinfo ⊢
          split_ifs at hinfo ⊢ with hc
          · cases hinfo
            exact ⟨List.mem_cons_self, rfl⟩
          · obtain ⟨hjoined, hpeer⟩ := hinv.infos c' info hinfo
            exact ⟨List.mem_cons_of_mem _ hjoined, hpeer⟩
      | broadcast item except =>
        cases item with
        | message m =>
          cases m with
          | peerLeft peer reason =>
            refine ⟨⟨hinv.one, hinv.ends, hinv.family, hinv.agreed, hinv.asked, fun other hother ↦ ?_, hinv.infos⟩, fun job' hjob' ↦ ?_,
              hgrows (fun _ ↦ id) (fun _ ↦ id)⟩
            · obtain rfl | hother := List.mem_cons.mp hother
              · exact hjob
              · exact hinv.announced other hother
            · obtain ⟨c, -, -, rfl⟩ := Job.next_of_mem_exec hjob'
              trivial
          | _ => exact absurd rfl hquiet
        | _ => exact absurd rfl hquiet
      | _ => exact absurd rfl hquiet

theorem rosterInv_new : new.RosterInv config where
  one := List.Pairwise.nil
  ends _ hl := absurd hl List.not_mem_nil
  family _ hl := absurd hl List.not_mem_nil
  agreed _ hl := absurd hl List.not_mem_nil
  asked _ hq := absurd hq List.not_mem_nil
  announced _ hpeer := absurd hpeer List.not_mem_nil
  infos _ _ hinfo := nomatch hinfo

/-- Accepting a request of somebody who is linked makes no link. -/
theorem routeLink_links {accepter target' : PeerId} {nonce : UInt32}
    (hlinked : h.roster.IsLinked target ∨ h.roster.IsLinked sender) :
    (PlayTogether.routeLink config sender target (.linkAccept accepter target' nonce)
      h).2.roster.links = h.roster.links := by
  have hrouted := @routed config sender target (.linkAccept accepter target' nonce) h
  generalize PlayTogether.routeLink config sender target _ h = out at hrouted ⊢
  cases hrouted with
  | linked _ _ _ hsender htarget => exact absurd hlinked (not_or.mpr ⟨htarget, hsender⟩)
  | _ => rfl

theorem NoneDeparted.same (hnone : h.NoneDeparted) (hsame : SameRoster h h') : h'.NoneDeparted := by
  constructor
  · rw [hsame.roster, hsame.past]
    exact hnone.links
  · rw [hsame.roster, hsame.past]
    exact hnone.requests

/-- Routing puts the two ends of a request that is accepted into the table, and nobody else. -/
theorem NoneDeparted.routeLink {m : Message} (hnone : h.NoneDeparted) :
    (PlayTogether.routeLink config sender target m h).2.NoneDeparted := by
  have hrouted := @routed config sender target m h
  generalize PlayTogether.routeLink config sender target m h = out at hrouted ⊢
  cases hrouted with
  | nothing | unavailable | asking | relayed => exact hnone
  | busy | declined => exact ⟨hnone.links, fun q hq ↦ hnone.requests q (Roster.mem_answered hq)⟩
  | linked nonce hne hask =>
    refine ⟨fun l hl ↦ ?_, fun q hq ↦ hnone.requests q (Roster.mem_answered hq)⟩
    obtain hl | rfl := Roster.mem_link hl
    · exact hnone.links l hl
    · exact hnone.requests _ hask
  | unplugged | forgotten =>
    exact ⟨fun l hl ↦ hnone.links l (Roster.unlink_sublist.subset hl),
      fun q hq ↦ hnone.requests q (List.mem_of_mem_filter hq)⟩

/-- A request that comes in time names nobody who departed. -/
theorem NoneDeparted.recordRequest {nonce : UInt32} {theirs ours : ReplayConsoleType} {m : Message}
    (hnone : h.NoneDeparted)
    (hlate : ¬ h.roster.IsLinked sender → ¬ h.roster.IsLinked target → canLink ours theirs →
      sender ∉ h.past.departed ∧ target ∉ h.past.departed) :
    (PlayTogether.recordRequest sender target nonce theirs ours m h).2.NoneDeparted := by
  rw [PlayTogether.recordRequest]
  split_ifs with hbusy hcan
  · exact hnone
  · rw [not_or] at hbusy
    refine ⟨hnone.links, fun q hq ↦ ?_⟩
    obtain hq | rfl := Roster.mem_record hq
    · exact hnone.requests q hq
    · exact hlate hbusy.1 hbusy.2 hcan
  · exact hnone

/-- Who departs is taken from the roster. -/
theorem NoneDeparted.departed (hnone : h.NoneDeparted) : NoneDeparted
      { h with
        roster := h.roster.depart peer
        past := { h.past with departed := peer :: h.past.departed } } := by
  have hnot : ∀ {other : PeerId}, other ≠ peer → other ∉ h.past.departed →
      other ∉ peer :: h.past.departed := by
    intro other hne hother hmem
    exact (List.mem_cons.mp hmem).elim hne hother
  refine ⟨fun l hl ↦ ?_, fun q hq ↦ ?_⟩
  · obtain ⟨hl, hends⟩ := List.mem_filter.mp hl
    obtain ⟨hfirst, hsecond⟩ := of_decide_eq_true hends
    exact (hnone.links l hl).imp (hnot hfirst) (hnot hsecond)
  · obtain ⟨hq, hends⟩ := List.mem_filter.mp hq
    obtain ⟨hfirst, hsecond⟩ := of_decide_eq_true hends
    exact (hnone.requests q hq).imp (hnot hfirst) (hnot hsecond)

/-- **Nobody who departed is in the roster**, as long as no request comes too late. -/
theorem noneDepartedRule : Rule config NoLateRequest NoneDeparted (fun _ _ ↦ True) where
  same hsame hnone := hnone.same hsame
  sameJob _ _ := trivial
  start _ _ _ _ := trivial
  exec := by
    intro t full job rest h hthread hblocked hlate hnone _
    refine ⟨?_, fun _ _ ↦ trivial, fun _ _ ↦ trivial⟩
    by_cases hquiet : job.quiet
    · exact hnone.same (Job.sameRoster_exec hquiet)
    · cases job with
      | routeLink sender target m => exact hnone.routeLink
      | recordRequest sender target nonce theirs ours m =>
        rw [NoLateRequest, hthread] at hlate
        exact hnone.recordRequest hlate
      | departed peer reason => exact hnone.departed
      | admitVisible => exact ⟨hnone.links, hnone.requests⟩
      | broadcast item except =>
        cases item with
        | message m =>
          cases m with
          | peerLeft peer reason => exact ⟨hnone.links, hnone.requests⟩
          | _ => exact absurd rfl hquiet
        | _ => exact absurd rfl hquiet
      | _ => exact absurd rfl hquiet

/-- The roster is as it should be in every state that is reached. -/
theorem rosterInv_run {events : List Event} :
    (Runs.run (step config) events new).RosterInv config :=
  (rosterRule.run (Runs.along_always fun _ _ ↦ trivial)
    ⟨rosterInv_new, fun _ ⟨_, hjob⟩ ↦ absurd hjob List.not_mem_nil⟩).1

theorem RosterInv.legalMatching (hinv : h.RosterInv config) (hnone : h.NoneDeparted) :
    h.LegalMatching config where
  one := hinv.one
  ends := hinv.ends
  present l hl := by
    obtain ⟨ha, hb⟩ := hnone.links l hl
    obtain ⟨a, b, hla, hlb, -⟩ := hinv.family l hl
    exact ⟨⟨hla.known, fun hgone ↦ ha (hinv.announced _ hgone)⟩,
      ⟨hlb.known, fun hgone ↦ hb (hinv.announced _ hgone)⟩⟩
  family := hinv.family
  agreed := hinv.agreed
  requests q hq := by
    obtain ⟨ha, hb⟩ := hnone.requests q hq
    exact ⟨fun hgone ↦ ha (hinv.announced _ hgone), fun hgone ↦ hb (hinv.announced _ hgone)⟩
  second _ _ hlinked _ _ _ := routeLink_links hlinked

/-- **The link table is a legal matching** in every state that is reached, when no request is put into
the roster after one of its ends has been taken from it. -/
theorem legalMatching_of_noLateRequest {events : List Event}
    (h : Runs.Along (step config) NoLateRequest events new) :
    (Runs.run (step config) events new).LegalMatching config := by
  have hnone := noneDepartedRule.run h
    ⟨⟨fun _ hl ↦ absurd hl List.not_mem_nil, fun _ hq ↦ absurd hq List.not_mem_nil⟩,
      fun _ _ ↦ trivial⟩
  exact rosterInv_run.legalMatching hnone.1

/-- Two clients link. -/
theorem legalMatching_linked :
    (Runs.run (step smallSession)
      (admission 0 ++ admission 1 ++ handles 0 (.linkRequest 0 3 7 1) ++
        handles 1 (.linkAccept 0 2 7)) new).LegalMatching smallSession := by
  exact legalMatching_of_noLateRequest (by decide)

/-- The first client asks the second, who leaves before the request is put into the roster. -/
def askingWhoLeaves : List Event :=
  admission 0 ++ admission 1 ++
    .receive 0 (.linkRequest 0 3 7 1) none false :: advances (.reader 0) 2 ++
      .lose 1 .ioError :: advances (.reader 1) 12 ++ advances (.reader 0) 2

/-- **A request that comes too late** names someone whose departure was announced. -/
theorem late_request :
    ¬ (Runs.run (step smallSession) askingWhoLeaves new).LegalMatching smallSession := by
  intro h
  have hask : (2, 3, 7) ∈ (Runs.run (step smallSession) askingWhoLeaves new).roster.requests := by
    decide
  have hgone : 3 ∈ (Runs.run (step smallSession) askingWhoLeaves new).past.announced := by decide
  exact (h.requests _ hask).2 hgone

end Host

end PlayTogether

end SuperShuckie
