import SuperShuckie.PlayTogether.Telling
import SuperShuckie.PlayTogether.Matching

/-!
# The cables that everyone is told of

Who is linked with whom is told to everyone who is in the session when it changes, and to nobody
afterwards.  So what a client believes is right when the queues are empty if whoever enters still hears of
the links there are, and if of two announcements about the same two the later is queued later
(`cablesAgree_of_steady`); `late_joiner` is a run in which a client enters once a link was announced.
-/

set_option autoImplicit false

namespace SuperShuckie

open ByteFormat PlayTogether

namespace PlayTogether

variable {config : HostConfig}

/-! ## What is said of a cable -/

/-- What everyone is told of a link. -/
def Item.isLinkNews : Item → Bool
  | .message (.peerLinked ..) | .message (.peerUnlinked ..) => true
  | _ => false

/-- What an item says of the cable between two: that they are linked, or that they are not. -/
def cable (a b : PeerId) : Item → Option Bool
  | .message (.peerLinked x y) => if x = a ∧ y = b ∨ x = b ∧ y = a then some true else none
  | .message (.peerUnlinked x y) => if x = a ∧ y = b ∨ x = b ∧ y = a then some false else none
  | _ => none

/-- What a job is about to tell of the cable between two. -/
def Job.cable (a b : PeerId) : Job → Option Bool
  | announceLink x y linked => PlayTogether.cable a b (.message (linkNews x y linked))
  | broadcast item _ | pushTo _ item => PlayTogether.cable a b item
  | _ => none

variable {a b x y : PeerId}

theorem cable_of_not_linkNews {item : Item} (h : item.isLinkNews = false) : cable a b item = none := by
  cases item with
  | message m => cases m <;> first | rfl | cases h
  | _ => rfl

theorem isLinkNews_of_cable {item : Item} {told : Bool} (htold : cable a b item = some told) :
    item.isLinkNews := by
  by_contra hnews
  rw [cable_of_not_linkNews (Bool.not_eq_true _ ▸ hnews)] at htold
  cases htold

/-- What is told of a link is about its two ends, in either order. -/
theorem cable_linkNews {linked : Bool} : cable a b (.message (linkNews x y linked)) =
    if x = a ∧ y = b ∨ x = b ∧ y = a then some linked else none := by
  have hpair : (min x y = a ∧ max x y = b ∨ min x y = b ∧ max x y = a) ↔
      (x = a ∧ y = b ∨ x = b ∧ y = a) := by
    have hmin : min x y = if x ≤ y then x else y := rfl
    have hmax : max x y = if x ≤ y then y else x := rfl
    rw [hmin, hmax]
    split_ifs
    · exact Iff.rfl
    · constructor <;> rintro (⟨rfl, rfl⟩ | ⟨rfl, rfl⟩)
      · exact .inr ⟨rfl, rfl⟩
      · exact .inl ⟨rfl, rfl⟩
      · exact .inr ⟨rfl, rfl⟩
      · exact .inl ⟨rfl, rfl⟩
  cases linked
  · show (if _ then some false else none) = _
    simp only [hpair]
  · show (if _ then some true else none) = _
    simp only [hpair]

theorem ordinary_cable : Conn.Ordinary (cable a b) := by
  refine ⟨fun m hm ↦ ?_, fun _ _ ↦ rfl⟩
  cases m <;> first | rfl | cases hm

/-- News of a link is for everyone. -/
def Job.ForEveryone : Job → Prop
  | broadcast item except => item.isLinkNews = true → except = 0
  | _ => True

theorem isLinkNews_of_isPassing {item : Item} (hitem : item.isPassing) : item.isLinkNews = false := by
  cases item with
  | message m => cases m <;> first | rfl | cases hitem
  | _ => rfl

namespace Host

variable {h h' : Host} {c : Nat}

/-- News of a link is broadcast because the link is announced. -/
theorem of_next_broadcast_news {first : Job} {item : Item} {except : PeerId}
    (hnext : first.Next config h (.broadcast item except)) (hnews : item.isLinkNews) :
    ∃ x y linked, first = .announceLink x y linked ∧ item = .message (linkNews x y linked) := by
  cases first with
  | announceLink x y linked =>
    obtain heq | heq := hnext
    · cases heq
      exact ⟨x, y, linked, rfl, rfl⟩
    · cases heq
  | storeStart start => cases start <;> cases hnext <;> cases hnews
  | departed peer reason =>
    obtain ⟨partner, -, heq | heq⟩ | heq := hnext <;> cases heq
    cases hnews
  | notePause =>
    obtain heq | heq := hnext <;> cases heq
    cases hnews
  | storePause | storeSpeed =>
    cases hnext
    cases hnews
  | admitLocked =>
    obtain ⟨reason, text, hnext⟩ | hnext := hnext
    · simp [refuse] at hnext
    · simp only [List.mem_cons, List.not_mem_nil, or_false, reduceCtorEq, false_or] at hnext
      cases hnext
      cases hnews
  | _ => simp [Job.Next, refuse] at hnext

theorem forEveryone_start {event : Event} : ∀ job ∈ event.jobs h, job.ForEveryone := by
  intro job hjob
  cases job with
  | broadcast item except =>
    intro hnews
    rw [isLinkNews_of_isPassing (passing_start _ hjob).2] at hnews
    cases hnews
  | _ => trivial

theorem forEveryone_next {first next : Job} (hnext : first.Next config h next) :
    next.ForEveryone := by
  cases next with
  | broadcast item except =>
    intro hnews
    obtain ⟨x, y, linked, rfl, rfl⟩ := of_next_broadcast_news hnext hnews
    obtain heq | heq := hnext <;> cases heq
    rfl
  | _ => trivial

end Host

/-! ## When nothing goes wrong -/

/-- The job is about to tell everyone in the session that two are linked. -/
def Job.announces (a b : PeerId) : Job → Bool
  | announceLink x y linked => PlayTogether.cable a b (.message (linkNews x y linked)) = some true
  | broadcast item _ => PlayTogether.cable a b item = some true
  | _ => false

namespace Host

/-- Nothing is about to be told of the cable between two. -/
def Silent (a b : PeerId) (h : Host) : Prop := ∀ job ∈ h.jobs, job.cable a b = none

instance (a b : PeerId) (h : Host) : Decidable (h.Silent a b) :=
  inferInstanceAs (Decidable (∀ job ∈ h.jobs, job.cable a b = none))

/-- A link is made or unmade when nothing is about to be told of the two, and made between two who are
in the session; whoever enters will hear of the links there are; and news of a link finds everybody whose
connection is open in the list of connections. -/
def Steady (h : Host) : Job → Prop
  | .routeLink sender target (.linkAccept _ _ nonce) =>
    (target, sender, nonce) ∈ h.roster.requests → ¬ h.roster.IsLinked sender →
      ¬ h.roster.IsLinked target →
        h.Silent target sender ∧ target ∉ h.past.departed ∧ sender ∉ h.past.departed
  | .routeLink sender target (.unlink ..) => h.roster.AreLinked sender target → h.Silent sender target
  | .departed peer _ => ∀ partner ∈ h.roster.partners peer, h.Silent peer partner
  | .admitLocked .. => h.nextPeerId ≠ 0
  | .admitVisible .. => ∀ l ∈ h.roster.links, ∃ job ∈ h.jobs, job.announces l.1 l.2
  | .broadcast item _ => item.isLinkNews → ∀ c < h.accepted,
    (h.conn c).Admitted → (h.conn c).closing = false → c ∈ h.listed
  | _ => True

instance (h : Host) (job : Job) : Decidable (h.Steady job) := by
  rcases job with ⟨⟩
  case routeLink sender target m => rcases m with ⟨⟩ <;> unfold Steady <;> infer_instance
  all_goals
    unfold Steady
    first | exact List.decidableBAll _ _ | infer_instance

/-- The job that is done next keeps the cables that everyone is told of right. -/
def SteadyCables : Event → Host → Prop
  | .advance t _, h => ∀ job ∈ (h.threads t).head?, h.Steady job
  | _, _ => True

instance (event : Event) (h : Host) : Decidable (SteadyCables event h) := by
  rcases event with ⟨⟩ <;> unfold SteadyCables <;> dsimp only <;> infer_instance

variable {h h' : Host} {c : Nat} {full : Bool} {t : HostThread} {job : Job}

theorem cable_comm {item : Item} : cable a b item = cable b a item := by
  cases item with
  | message m =>
    cases m with
    | peerLinked | peerUnlinked => simp only [cable, or_comm]
    | _ => rfl
  | _ => rfl

theorem Silent.symm (hsilent : h.Silent a b) : h.Silent b a := by
  intro job hjob
  have hnone := hsilent job hjob
  cases job with
  | announceLink | broadcast | pushTo => exact cable_comm.trans hnone
  | _ => rfl

/-- What routing does to a link. -/
theorem areLinked_routeLink {sender target : PeerId} {m : Message}
    (hsteady : h.Steady (.routeLink sender target m)) :
    ((routeLink config sender target m h).2.roster.AreLinked a b ↔
        h.roster.AreLinked a b) ∨
      h.Silent a b ∧ ∃ x y linked,
        .announceLink x y linked ∈ (routeLink config sender target m h).1 ∧
          (x = a ∧ y = b ∨ x = b ∧ y = a) := by
  have hrouted := @routed config sender target m h
  generalize routeLink config sender target m h = out at hrouted ⊢
  cases hrouted with
  | linked nonce hne hask hsender htarget =>
    obtain ⟨hsilent, -⟩ := hsteady hask hsender htarget
    by_cases hpair : target = a ∧ sender = b ∨ target = b ∧ sender = a
    · refine .inr ⟨?_, target, sender, true, List.mem_cons_of_mem _ List.mem_cons_self, hpair⟩
      obtain ⟨rfl, rfl⟩ | ⟨rfl, rfl⟩ := hpair
      · exact hsilent
      · exact hsilent.symm
    · exact .inl (Roster.areLinked_link.trans ⟨fun hlinked ↦ hlinked.resolve_right hpair, .inl⟩)
  | unplugged hne hlinked =>
    by_cases hpair : sender = a ∧ target = b ∨ sender = b ∧ target = a
    · refine .inr ⟨?_, sender, target, false, List.mem_cons_of_mem _ List.mem_cons_self, hpair⟩
      obtain ⟨rfl, rfl⟩ | ⟨rfl, rfl⟩ := hpair
      · exact hsteady hlinked
      · exact (hsteady hlinked).symm
    · exact .inl (Roster.areLinked_unlink.trans ⟨And.left, fun hlinked ↦ ⟨hlinked, hpair⟩⟩)
  | forgotten hlinked =>
    refine .inl (Roster.areLinked_unlink.trans ⟨And.left, fun hother ↦ ⟨hother, ?_⟩⟩)
    rintro (⟨rfl, rfl⟩ | ⟨rfl, rfl⟩)
    · exact hlinked hother
    · exact hlinked hother.symm
  | _ => exact .inl Iff.rfl

/-- What a departure does to a link. -/
theorem areLinked_departed {peer : PeerId} {reason : LeaveReason}
    (hsteady : h.Steady (.departed peer reason)) :
    ((h.roster.depart peer).AreLinked a b ↔ h.roster.AreLinked a b) ∨
      h.Silent a b ∧ ∃ x y linked,
        .announceLink x y linked ∈ ((Job.departed peer reason).exec config full t h).1 ∧
          (x = a ∧ y = b ∨ x = b ∧ y = a) := by
  have hannounce : ∀ {partner : PeerId}, partner ∈ h.roster.partners peer →
      .announceLink peer partner false ∈ ((Job.departed peer reason).exec config full t h).1 :=
    fun hpartner ↦ List.mem_append_left _ (List.mem_flatMap.mpr
      ⟨_, hpartner, List.mem_cons_of_mem _ List.mem_cons_self⟩)
  by_cases hlinked : h.roster.AreLinked a b
  · by_cases ha : a = peer
    · subst ha
      have hpartner := Roster.mem_partners.mpr hlinked
      exact .inr ⟨hsteady b hpartner, a, b, false, hannounce hpartner, .inl ⟨rfl, rfl⟩⟩
    · by_cases hb : b = peer
      · subst hb
        have hpartner := Roster.mem_partners.mpr hlinked.symm
        exact .inr ⟨(hsteady a hpartner).symm, b, a, false, hannounce hpartner, .inr ⟨rfl, rfl⟩⟩
      · exact .inl (Roster.areLinked_depart.trans ⟨And.left, fun hother ↦ ⟨hother, ha, hb⟩⟩)
  · exact .inl (Roster.areLinked_depart.trans ⟨And.left, fun hother ↦ absurd hother hlinked⟩)

/-- **What a job does to a link**: nothing, or nothing was about to be told of the two and now they are
announced. -/
theorem areLinked_exec (hsteady : h.Steady job) :
    ((job.exec config full t h).2.roster.AreLinked a b ↔ h.roster.AreLinked a b) ∨
      h.Silent a b ∧ ∃ x y linked, .announceLink x y linked ∈ (job.exec config full t h).1 ∧
        (x = a ∧ y = b ∨ x = b ∧ y = a) := by
  by_cases hquiet : job.quiet
  · have hsame := @Job.sameRoster_exec config full t _ h hquiet
    exact .inl (by rw [hsame.roster])
  · cases job with
    | routeLink sender target m => exact areLinked_routeLink hsteady
    | recordRequest sender target nonce theirs ours m =>
      refine .inl ?_
      show (recordRequest sender target nonce theirs ours m h).2.roster.AreLinked a b ↔ _
      rw [recordRequest]
      split_ifs <;> exact Iff.rfl
    | departed peer reason => exact areLinked_departed hsteady
    | admitVisible c participant => exact .inl Iff.rfl
    | broadcast item except =>
      refine .inl ?_
      cases item with
      | message m => cases m <;> exact Iff.rfl
      | _ => exact Iff.rfl
    | _ => exact absurd rfl hquiet

/-- What is announced is so. -/
theorem announceLink_exec {linked : Bool}
    (hmem : .announceLink x y linked ∈ (job.exec config full t h).1) :
    linked = true ↔ (job.exec config full t h).2.roster.AreLinked x y := by
  obtain ⟨sender, target, m, rfl⟩ | ⟨peer, reason, rfl⟩ :=
    Job.of_next_announceLink (Job.next_of_mem_exec hmem)
  · have hrouted := @routed config sender target m h
    change _ ∈ (routeLink config sender target m h).1 at hmem
    show _ ↔ (routeLink config sender target m h).2.roster.AreLinked x y
    generalize routeLink config sender target m h = out at hrouted hmem ⊢
    cases hrouted with
    | linked =>
      obtain heq | heq := List.mem_pair.mp hmem <;> cases heq
      exact ⟨fun _ ↦ Roster.areLinked_link.mpr (.inr (.inl ⟨rfl, rfl⟩)), fun _ ↦ rfl⟩
    | unplugged =>
      obtain heq | heq := List.mem_pair.mp hmem <;> cases heq
      exact ⟨nofun, fun hother ↦ absurd (.inl ⟨rfl, rfl⟩) (Roster.areLinked_unlink.mp hother).2⟩
    | nothing | forgotten => exact absurd hmem List.not_mem_nil
    | unavailable | asking | busy | declined | relayed => cases List.mem_singleton.mp hmem
  · obtain ⟨partner, -, heq | heq⟩ | heq := Job.next_of_mem_exec hmem <;> cases heq
    exact ⟨nofun, fun hother ↦ absurd rfl (Roster.areLinked_depart.mp hother).2.1⟩

/-! ## What every step keeps -/

theorem cable_start {event : Event} : ∀ job ∈ event.jobs h, job.cable a b = none := by
  intro job hjob
  have hnone := (passing_start job hjob).2
  cases job with
  | broadcast item except => exact cable_of_not_linkNews (isLinkNews_of_isPassing hnone)
  | pushTo | announceLink => exact absurd hnone id
  | _ => rfl

/-- What is about to be told of a cable is so. -/
def TruthfulNews (h : Host) : Prop :=
  ∀ job, Threads.Pending h.threads job → ∀ a b told, job.cable a b = some told →
    (told = true ↔ h.roster.AreLinked a b)

/-- What a job puts on its way about a cable is so. -/
theorem TruthfulNews.next {next : Job} {told : Bool} (htruthful : h.TruthfulNews)
    (hpassing : ∀ job, Threads.Pending h.threads job → job.Passing)
    (hjob : Threads.Pending h.threads job) (hnext : next ∈ (job.exec config full t h).1)
    (htold : next.cable a b = some told) :
    told = true ↔ (job.exec config full t h).2.roster.AreLinked a b := by
  have hfrom := Job.next_of_mem_exec hnext
  -- what is only passed on was so, and is still
  have hpassed : job.quiet → job.cable a b = some told →
      (told = true ↔ (job.exec config full t h).2.roster.AreLinked a b) := by
    intro hquiet htold'
    rw [(Job.sameRoster_exec hquiet).roster]
    exact htruthful job hjob a b told htold'
  cases next with
  | announceLink x y linked =>
    have hannounced := announceLink_exec hnext
    rw [Job.cable, cable_linkNews] at htold
    split_ifs at htold with hpair
    cases htold
    obtain ⟨rfl, rfl⟩ | ⟨rfl, rfl⟩ := hpair
    · exact hannounced
    · exact hannounced.trans ⟨Roster.AreLinked.symm, Roster.AreLinked.symm⟩
  | broadcast item except =>
    obtain ⟨x, y, linked, rfl, rfl⟩ := of_next_broadcast_news hfrom (isLinkNews_of_cable htold)
    exact hpassed rfl htold
  | pushTo c item =>
    obtain ⟨peer, rfl, -⟩ | ⟨except, rfl, -⟩ | ⟨p, rfl, rfl, -⟩ := Job.of_next_pushTo hfrom
    · rw [Job.cable, cable_of_not_linkNews (isLinkNews_of_isPassing (hpassing _ hjob))] at htold
      cases htold
    · refine hpassed ?_ htold
      cases item with
      | message m => cases m <;> first | rfl | cases htold
      | _ => rfl
    · cases p <;> cases htold
  | _ => cases htold

/-- **What is told of a cable stays so**, for it is told before the link is made or unmade again. -/
theorem TruthfulNews.step {event : Event} (htruthful : h.TruthfulNews) (htended : h.Tended)
    (hpassing : ∀ job, Threads.Pending h.threads job → job.Passing)
    (hsteady : SteadyCables event h) : (step config event h).TruthfulNews := by
  refine step_elim (fun hout job hjob a b told htold ↦ ?_) htruthful ?_
  · obtain hold | hnew := pending_outside hout hjob
    · rw [(@step_outside config _ h hout).1.roster]
      exact htruthful job hold a b told htold
    · rw [cable_start job hnew] at htold
      cases htold
  · rintro t full first rest rfl hthread - job hjob a b told htold
    obtain hnew | hold := Threads.pending_of_done hthread hjob
    · exact htruthful.next hpassing ⟨t, hthread ▸ List.mem_cons_self⟩ hnew htold
    · obtain hsame | ⟨hsilent, -⟩ := @areLinked_exec config a b _ full t _ (hsteady first (by rw [hthread]; rfl))
      · exact (htruthful job hold a b told htold).trans hsame.symm
      · rw [hsilent job (htended.mem_jobs.mpr hold)] at htold
        cases htold

/-- News that a job queues on a connection itself was pushed there. -/
theorem queues_cable {item : Item} (hqueues : Job.Queues config h c item job)
    (hpassing : job.Passing) : cable a b item = none ∨ job = .pushTo c item := by
  cases job with
  | send c' m =>
    obtain ⟨-, rfl⟩ := hqueues
    exact .inl (cable_of_not_linkNews (isLinkNews_of_isPassing hpassing))
  | pushTo c' item' =>
    obtain ⟨rfl, rfl⟩ := hqueues
    exact .inr rfl
  | admitLocked =>
    obtain ⟨-, -, rfl⟩ := hqueues
    exact .inl rfl
  | admitPause | admitSpeed =>
    obtain ⟨-, rfl⟩ := hqueues
    exact .inl rfl
  | admitStart =>
    obtain ⟨-, data, -, rfl⟩ := hqueues
    exact .inl rfl
  | _ => exact absurd hqueues id

/-- What is told of the cable between two. -/
def cables (a b : PeerId) : Topic Bool where
  said := cable a b
  right h last := last = some true ↔ h.roster.AreLinked a b
  tells c job := (job.cable a b).isSome ∧ ∀ c' item, job = .pushTo c' item → c' = c
  ordinary := ordinary_cable
  passing _ hitem := cable_of_not_linkNews (isLinkNews_of_isPassing hitem)
  done := id

/-- **What is kept of the cables that everyone is told of.** -/
structure CablesInv (h : Host) : Prop where
  tended : h.Tended
  doors : h.Doors
  urgent : h.UrgentRelays
  everyone : ∀ job, Threads.Pending h.threads job → job.ForEveryone
  truthful : h.TruthfulNews
  pushes : ∀ a b, h.Pushes (cables a b)
  /-- Before it is in the session, a client is told of no cable. -/
  unheard : ∀ c, (h.conn c).peerId = 0 → (h.conn c).closing = false →
    ∀ a b, (h.conn c).heard (cable a b) = []
  known : ∀ c, h.accepted ≤ c → (h.conn c).peerId = 0
  informed : ∀ c, (h.conn c).peerId ≠ 0 → (h.conn c).closing = false →
    ∀ a b, h.Informed (cables a b) c

theorem SteadyCables.idsLeft {event : Event} (hsteady : SteadyCables event h) :
    IdsLeft event h := by
  unfold IdsLeft
  split
  · next t full =>
    split
    · next hthread => exact hsteady _ (by rw [hthread]; rfl)
    · trivial
  · trivial

theorem CablesInv.unheard_step {event : Event} (hinv : h.CablesInv) :
    ∀ c, ((step config event h).conn c).peerId = 0 → ((step config event h).conn c).closing = false →
      ∀ a b, ((step config event h).conn c).heard (cable a b) = [] := by
  intro c
  refine step_elim (Q := fun h' ↦ (h'.conn c).peerId = 0 → (h'.conn c).closing = false →
    ∀ a b, (h'.conn c).heard (cable a b) = []) (fun hout ↦ ?_) (hinv.unheard c) ?_
  · obtain ⟨hpeer, hclosing⟩ := @outside_conn config h c _ hout
    rw [hpeer, hclosing]
    exact fun hzero hopen a b ↦ (@heard_outside _ _ (cables a b) _ _ _ hinv.urgent hout).trans
      (hinv.unheard c hzero hopen a b)
  · rintro t full first rest - hthread - hzero hopen a b
    rw [done_conn] at hzero hopen ⊢
    have hzero' := hinv.doors.exec_out hthread hzero
    rw [heard_exec (fun item hqueues ↦ ?_) hopen]
    · exact hinv.unheard c hzero' (open_of_exec hopen) a b
    · have hpending : Threads.Pending h.threads first := ⟨t, hthread ▸ List.mem_cons_self⟩
      obtain hnone | rfl := queues_cable (a := a) (b := b) hqueues ((hinv.pushes a b).passing first hpending)
      · exact hnone
      · by_contra hsaid
        exact (hinv.pushes a b).pushed c item hpending hsaid hzero'

/-! ### Who is informed -/

/-- Who enters the session will be told of the links there are. -/
theorem CablesInv.informed_admitted {participant : ParticipantInfo} {rest : List Job}
    (hinv : h.CablesInv) (hthread : h.threads t = .admitVisible c participant :: rest)
    (hsteady : h.Steady (.admitVisible c participant)) (hopen : (h.conn c).closing = false) :
    Informed (cables a b) c (((Job.admitVisible c participant).exec config full t h).2.done t h.threads
      (((Job.admitVisible c participant).exec config full t h).1 ++ rest)) := by
  by_cases hlinked : h.roster.AreLinked a b
  · obtain ⟨l, hl, hends⟩ := hlinked
    obtain ⟨job, hjob, hannounces⟩ := hsteady l hl
    have hcable : job.cable l.1 l.2 = some true ∧ ∀ c' item, job ≠ .pushTo c' item := by
      cases job with
      | announceLink | broadcast => exact ⟨of_decide_eq_true hannounces, fun _ _ heq ↦ nomatch heq⟩
      | _ => cases hannounces
    have hpair : job.cable a b = job.cable l.1 l.2 := by
      obtain ⟨rfl, rfl⟩ | ⟨rfl, rfl⟩ := hends
      · rfl
      · cases job with
        | announceLink | broadcast | pushTo => exact cable_comm
        | _ => rfl
    refine .inr (.inl ⟨job, (hinv.tended.mem_jobs.mp hjob).done hthread ?_, ?_,
      fun c' item heq ↦ absurd heq (hcable.2 c' item)⟩)
    · rintro rfl
      cases hannounces
    · rw [hpair, hcable.1]
      rfl
  · refine .inl ⟨fun hlast ↦ ?_, fun hother ↦ absurd hother hlinked⟩
    have hzero := (hinv.doors.of_admitVisible hthread).2.1
    change (((h.onConn c (·.admitAs participant)).conn c).heard (cable a b)).getLast? = some true at hlast
    rw [onConn_conn, if_pos rfl] at hlast
    change ((h.conn c).heard (cable a b)).getLast? = some true at hlast
    rw [hinv.unheard c hzero hopen a b] at hlast
    cases hlast

/-- A job that still has to tell passes it on. -/
theorem CablesInv.tells_exec {rest : List Job} (hinv : h.CablesInv)
    (hthread : h.threads t = job :: rest) (hsteady : h.Steady job)
    (hadmitted : (h.conn c).peerId ≠ 0) (hopen : (h.conn c).closing = false)
    (htells : (cables a b).tells c job) :
    (∃ next ∈ (job.exec config full t h).1, (cables a b).tells c next) ∨
      ∃ item v, job = .pushTo c item ∧ cable a b item = some v := by
  obtain ⟨hcable, hself⟩ := htells
  obtain ⟨told, htold⟩ := Option.isSome_iff_exists.mp hcable
  cases job with
  | announceLink x y linked =>
    exact .inl ⟨.broadcast (.message (linkNews x y linked)) 0, List.mem_cons_self, hcable,
      fun _ _ heq ↦ nomatch heq⟩
  | broadcast item except =>
    have hnews := isLinkNews_of_cable htold
    have hexcept : except = 0 :=
      hinv.everyone (.broadcast item except) ⟨t, hthread ▸ List.mem_cons_self⟩ hnews
    have haccepted : c < h.accepted := by
      by_contra hle
      exact hadmitted (hinv.known c (not_lt.mp hle))
    have hlisted := hsteady hnews c haccepted hadmitted hopen
    refine .inl ⟨.pushTo c item, List.mem_map.mpr ⟨c, ?_, rfl⟩, hcable, ?_⟩
    · refine List.mem_filter.mpr ⟨List.mem_filter.mpr ⟨hlisted, decide_eq_true hadmitted⟩, ?_⟩
      rw [hexcept]
      exact decide_eq_true hadmitted
    · rintro c' item' heq
      cases heq
      rfl
  | pushTo c' item =>
    obtain rfl := hself c' item rfl
    exact .inr ⟨item, told, rfl, htold⟩
  | _ => cases htold

theorem CablesInv.informed_step {event : Event} (hinv : h.CablesInv)
    (hsteady : SteadyCables event h) :
    ∀ c, ((step config event h).conn c).peerId ≠ 0 → ((step config event h).conn c).closing = false →
      ∀ a b, (step config event h).Informed (cables a b) c := by
  intro c
  refine step_elim (Q := fun h' ↦ (h'.conn c).peerId ≠ 0 → (h'.conn c).closing = false →
    ∀ a b, h'.Informed (cables a b) c) (fun hout ↦ ?_) (hinv.informed c) ?_
  · obtain ⟨hpeer, hclosing⟩ := @outside_conn config h c _ hout
    rw [hpeer, hclosing]
    intro hadmitted hopen a b
    refine (hinv.informed c hadmitted hopen a b).outside hinv.urgent hout fun last hlast ↦ ?_
    show last = some true ↔ (Host.step config event h).roster.AreLinked a b
    rw [(@step_outside config _ h hout).1.roster]
    exact hlast
  · rintro t full first rest rfl hthread - hadmitted' hopen' a b
    rw [done_conn] at hadmitted' hopen'
    have hpending : Threads.Pending h.threads first := ⟨t, hthread ▸ List.mem_cons_self⟩
    have hsteady' : h.Steady first := hsteady first (by rw [hthread]; rfl)
    have hopen := open_of_exec hopen'
    by_cases hzero : (h.conn c).peerId = 0
    · have hadmits : first.Admits c := by
        by_contra hadmits
        exact hadmitted' ((congrArg Prod.fst (exec_who hadmits)).trans hzero)
      cases first with
      | admitVisible c' participant =>
        obtain rfl : c' = c := hadmits
        exact hinv.informed_admitted hthread hsteady' hopen
      | _ => exact absurd hadmits id
    · refine (hinv.informed c hzero hopen a b).exec hthread hopen' ?_ ?_ ?_
        (hinv.tells_exec hthread hsteady' hzero hopen)
      · rintro item told rfl htold
        show some told = some true ↔ _
        rw [Option.some.injEq, (Job.sameRoster_exec rfl).roster]
        exact hinv.truthful _ hpending a b told htold
      · exact fun item hqueues ↦ queues_cable hqueues ((hinv.pushes a b).passing first hpending)
      · obtain hsame | ⟨-, x, y, linked, hnew, hpair⟩ := @areLinked_exec config a b _ full t _ hsteady'
        · exact .inl fun last hlast ↦ hlast.trans hsame.symm
        · refine .inr ⟨_, hnew, ?_, fun _ _ heq ↦ nomatch heq⟩
          rw [Job.cable, cable_linkNews, if_pos hpair]
          rfl

/-- **Every step keeps what is kept of the cables.** -/
theorem CablesInv.step {event : Event} (hinv : h.CablesInv) (hsteady : SteadyCables event h) :
    (step config event h).CablesInv where
  tended := hinv.tended.step
  doors := hinv.doors.step hsteady.idsLeft
  urgent := hinv.urgent.step
  everyone := pending_kept forEveryone_start (fun _ _ hnext _ ↦ forEveryone_next hnext) hinv.everyone
  truthful := hinv.truthful.step hinv.tended (hinv.pushes 0 0).passing hsteady
  pushes a b := (hinv.pushes a b).step hinv.doors
  unheard := hinv.unheard_step
  known := known_step hinv.tended hinv.doors hinv.known
  informed := hinv.informed_step hsteady

theorem cablesInv_new : new.CablesInv where
  tended := tended_new
  doors := doors_new
  urgent := urgentRelays_new
  everyone _ hjob := absurd hjob.choose_spec List.not_mem_nil
  truthful _ hjob := absurd hjob.choose_spec List.not_mem_nil
  pushes _ _ := pushes_new
  unheard _ _ _ _ _ := rfl
  known _ _ := rfl
  informed _ hadmitted := absurd rfl hadmitted

/-! ## Everyone sees the same cables -/

/-- Once every thread is idle and everything is written, **each client in the session was told last** that
two are linked exactly if they are, and in the session. -/
def CablesAgree (h : Host) : Prop :=
  h.Settled → ∀ c ∈ h.listed, (h.conn c).Admitted → (h.conn c).closing = false → ∀ a b,
    (((h.conn c).written.filterMap (cable a b)).getLast? = some true ↔
      h.roster.AreLinked a b ∧ h.Present a ∧ h.Present b)

/-- Nobody who departed is linked. -/
def LinksPresent (h : Host) : Prop :=
  ∀ l ∈ h.roster.links, l.1 ∉ h.past.departed ∧ l.2 ∉ h.past.departed

theorem linksPresentRule : Rule config SteadyCables LinksPresent (fun _ _ ↦ True) where
  same hsame hlinks := by
    rw [LinksPresent, hsame.roster, hsame.past]
    exact hlinks
  sameJob _ _ := trivial
  start _ _ _ _ := trivial
  exec := by
    intro t full job rest h hthread hblocked hsteady hlinks _
    refine ⟨?_, fun _ _ ↦ trivial, fun _ _ ↦ trivial⟩
    have hsteady' : h.Steady job := hsteady job (by rw [hthread]; rfl)
    by_cases hquiet : job.quiet
    · have hsame := @Job.sameRoster_exec config full t _ h hquiet
      rw [LinksPresent, hsame.roster, hsame.past]
      exact hlinks
    · cases job with
      | routeLink sender target m =>
        have hrouted := @routed config sender target m h
        show (routeLink config sender target m h).2.LinksPresent
        generalize routeLink config sender target m h = out at hrouted ⊢
        cases hrouted with
        | linked nonce hne hask hsender htarget =>
          intro l hl
          obtain hl | rfl := Roster.mem_link hl
          · exact hlinks l hl
          · exact (hsteady' hask hsender htarget).2
        | unplugged | forgotten => exact fun l hl ↦ hlinks l (Roster.unlink_sublist.subset hl)
        | _ => exact hlinks
      | recordRequest sender target nonce theirs ours m =>
        show (recordRequest sender target nonce theirs ours m h).2.LinksPresent
        rw [recordRequest]
        split_ifs <;> exact hlinks
      | departed peer reason =>
        intro l hl
        obtain ⟨hl, hends⟩ := List.mem_filter.mp hl
        obtain ⟨hfirst, hsecond⟩ := of_decide_eq_true hends
        refine (hlinks l hl).imp (fun ha hmem ↦ ?_) fun hb hmem ↦ ?_
        · exact (List.mem_cons.mp hmem).elim hfirst ha
        · exact (List.mem_cons.mp hmem).elim hsecond hb
      | admitVisible => exact hlinks
      | broadcast item except =>
        cases item with
        | message m =>
          cases m with
          | peerLeft peer reason => exact hlinks
          | _ => exact absurd rfl hquiet
        | _ => exact absurd rfl hquiet
      | _ => exact absurd rfl hquiet

/-- **Everyone sees the same cables** in every state that is reached, when links are made and unmade one
announcement at a time, between two in the session, and whoever enters hears of those there are. -/
theorem cablesAgree_of_steady {events : List Event}
    (h : Runs.Along (step config) SteadyCables events new) :
    (Runs.run (step config) events new).CablesAgree := by
  have hinv := Runs.run_along (fun _ _ hinv hsteady ↦ CablesInv.step hinv hsteady) h cablesInv_new
  have hlinks := (linksPresentRule.run h
    ⟨fun _ hl ↦ absurd hl List.not_mem_nil, fun _ _ ↦ trivial⟩).1
  have hroster := @rosterInv_run config events
  generalize Runs.run (step config) events new = h' at hinv hlinks hroster ⊢
  intro hsettled c hc hadmitted hopen a b
  have hright : ((h'.conn c).heard (cable a b)).getLast? = some true ↔ h'.roster.AreLinked a b :=
    (hinv.informed c hadmitted hopen a b).right hsettled.1
  rw [Conn.heard, (hsettled.2 c hc).pipeline] at hright
  refine hright.trans ⟨fun hlinked ↦ ⟨hlinked, ?_⟩, And.left⟩
  obtain ⟨l, hl, hends⟩ := hlinked
  obtain ⟨hfirst, hsecond⟩ := hlinks l hl
  obtain ⟨x, y, hx, hy, -⟩ := hroster.family l hl
  have hpresent : h'.Present l.1 ∧ h'.Present l.2 :=
    ⟨⟨hx.known, fun hgone ↦ hfirst (hroster.announced _ hgone)⟩,
      ⟨hy.known, fun hgone ↦ hsecond (hroster.announced _ hgone)⟩⟩
  obtain ⟨rfl, rfl⟩ | ⟨rfl, rfl⟩ := hends
  · exact hpresent
  · exact hpresent.symm

/-- Two clients link while a third is in the session, and unplug. -/
theorem cablesAgree_linked :
    (Runs.run (step smallSession)
      (admission 0 ++ admission 1 ++ admission 2 ++ handles 0 (.linkRequest 0 3 7 1) ++
        handles 1 (.linkAccept 0 2 7) ++ handles 0 (.unlink 0 3 .unplugged) ++ delivers 0 12 ++
          delivers 1 12 ++ delivers 2 12) new).CablesAgree := by
  exact cablesAgree_of_steady (by decide +kernel)

/-- A third client enters once two are linked. -/
def lateJoiner : List Event :=
  admission 0 ++ admission 1 ++ handles 0 (.linkRequest 0 3 7 1) ++ handles 1 (.linkAccept 0 2 7) ++
    admission 2 ++ delivers 0 12 ++ delivers 1 12 ++ delivers 2 12

/-- **A late joiner** is not told of a link that stands. -/
theorem late_joiner : ¬ (Runs.run (step smallSession) lateJoiner new).CablesAgree := by
  intro h
  have hsettled : (Runs.run (step smallSession) lateJoiner new).Settled :=
    tended_run.settled (by decide +kernel) (by decide +kernel)
  have hlinked : (Runs.run (step smallSession) lateJoiner new).roster.AreLinked 2 3 := by decide +kernel
  have hpresent : (Runs.run (step smallSession) lateJoiner new).Present 2 ∧
      (Runs.run (step smallSession) lateJoiner new).Present 3 := by
    rw [Present, Present]
    decide +kernel
  have htold := (h hsettled 2 (by decide +kernel) (by decide +kernel) (by decide +kernel) 2 3).mpr
    ⟨hlinked, hpresent⟩
  revert htold
  decide +kernel

end Host

end PlayTogether

end SuperShuckie
