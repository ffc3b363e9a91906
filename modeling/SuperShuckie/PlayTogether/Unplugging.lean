import SuperShuckie.PlayTogether.Matching

/-!
# What the host says of a link that was unplugged

An `Unlink` tells a participant that the cable to a peer is out, whether it was pulled, its other end
left, or an accept came too late for a peer that is linked with another.  The roster is edited under the
lock and the message sent after it, so what matters is whether the two can be linked again, or are linked
already, when it is sent.
-/

set_option autoImplicit false

namespace SuperShuckie

open ByteFormat

namespace PlayTogether

variable {config : HostConfig}

namespace Host

/-- An `Unlink` that the host delivers to someone is about a peer it is not linked with. -/
def TrueUnlink : Event → Host → Prop
  | .advance t _, h =>
    match h.threads t with
    | .deliverLink whom (.unlink peer _ _) :: _ => ¬ h.roster.AreLinked peer whom
    | _ => True
  | _, _ => True

instance (event : Event) (h : Host) : Decidable (TrueUnlink event h) := by
  rcases event with ⟨⟩
  case advance t full =>
    unfold TrueUnlink
    dsimp only
    rcases h.threads t with _ | ⟨job, rest⟩
    · infer_instance
    · rcases job with ⟨⟩
      case deliverLink target m => rcases m with ⟨⟩ <;> dsimp only <;> infer_instance
      all_goals
        dsimp only
        infer_instance
  all_goals
    unfold TrueUnlink
    infer_instance

/-- No accept comes from one who is linked with the requester already, and none links two while an
`Unlink` about them is on its way. -/
def NoCrossedAccept : Event → Host → Prop
  | .advance t _, h => ∀ sender target accepter target' nonce rest,
    h.threads t = .routeLink sender target (.linkAccept accepter target' nonce) :: rest →
      (target, sender, nonce) ∈ h.roster.requests →
        ¬ h.roster.AreLinked target sender ∧
          (¬ h.roster.IsLinked sender → ¬ h.roster.IsLinked target →
            ∀ whom peer about reason,
              Threads.Pending h.threads (.deliverLink whom (.unlink peer about reason)) →
                ¬ (peer = target ∧ whom = sender ∨ peer = sender ∧ whom = target))
  | _, _ => True

/-- An `Unlink` on its way is about two who are not linked; a message that is routed is of its sender
and for its target. -/
def UnlinkJob (h : Host) : Job → Prop
  | .deliverLink whom (.unlink peer _ _) => ¬ h.roster.AreLinked peer whom
  | .routeLink sender target m => m.linkEndpoints = some (sender, target)
  | .requestOurs _ _ _ _ m | .recordRequest _ _ _ _ _ m => ∀ a b reason, m ≠ .unlink a b reason
  | _ => True

variable {h h' : Host}

/-- Links that go make no `Unlink` wrong. -/
theorem UnlinkJob.mono {job : Job} (hjob : h.UnlinkJob job)
    (hlinks : h'.roster.links ⊆ h.roster.links) : h'.UnlinkJob job := by
  cases job with
  | deliverLink target m =>
    cases m with
    | unlink a b reason => exact fun hlinked ↦ hjob (hlinked.of_subset hlinks)
    | _ => trivial
  | routeLink | requestOurs | recordRequest => exact hjob
  | _ => trivial

theorem unlinkJob_start {event : Event} : ∀ job ∈ event.jobs h, h.UnlinkJob job := by
  intro job hjob
  cases event with
  | receive c m bad gap =>
    have hreader := ofReader_handleMessage job hjob
    cases job with
    | deliverLink | requestOurs | recordRequest => exact absurd hreader id
    | routeLink sender target m' =>
      obtain ⟨rfl, -, hends⟩ := hreader
      exact hends
    | _ => trivial
  | call request =>
    rw [List.mem_singleton.mp hjob]
    cases request <;> trivial
  | garble c text =>
    obtain rfl | rfl := List.mem_pair.mp hjob <;> trivial
  | connect | lose | writeFails | timeout | publish =>
    rw [List.mem_singleton.mp hjob]
    trivial
  | _ => exact absurd hjob List.not_mem_nil

/-- A quiet job sends no `Unlink`. -/
theorem unlinkJob_exec {t : HostThread} {full : Bool} {job : Job} (hquiet : job.quiet)
    (hjob : h.UnlinkJob job) : ∀ job' ∈ (job.exec config full t h).1, h.UnlinkJob job' := by
  intro job' hjob'
  have hnext := Job.next_of_mem_exec hjob'
  cases job with
  | routeLink | recordRequest | departed | admitVisible => cases hquiet
  | register | send | notify | admitPause | admitSpeed | admitStart => exact absurd hnext id
  | pushTo | close | leaving | storePause | storeSpeed | storeStart =>
    rw [hnext]
    trivial
  | sendLink m =>
    rw [hnext]
    cases m <;> rfl
  | pushToPeer | publish | askSnapshot =>
    obtain ⟨c, -, rfl⟩ := hnext
    trivial
  | broadcast =>
    obtain ⟨c, -, -, rfl⟩ := hnext
    trivial
  | unlist =>
    obtain ⟨-, rfl | rfl⟩ := hnext <;> trivial
  | deliverLink =>
    obtain ⟨c, rfl⟩ := hnext
    trivial
  | announceLink | notePause =>
    obtain rfl | rfl := hnext <;> trivial
  | requestOurs =>
    rw [hnext]
    exact hjob
  | admitPeer c hello =>
    obtain ⟨reason, text, hnext⟩ | rfl := hnext
    · obtain rfl | rfl := List.mem_pair.mp hnext <;> trivial
    · trivial
  | admitLocked c hello start =>
    obtain ⟨reason, text, hnext⟩ | hnext := hnext
    · obtain rfl | rfl := List.mem_pair.mp hnext <;> trivial
    · simp only [List.mem_cons, List.not_mem_nil, or_false] at hnext
      obtain rfl | rfl | rfl | rfl | rfl | rfl := hnext <;> trivial
  | kick =>
    obtain ⟨c, rfl | rfl⟩ := hnext <;> trivial

/-- A message that is no `Unlink` may be delivered. -/
theorem unlinkJob_deliver {target : PeerId} {m : Message} (hm : ∀ a b reason, m ≠ .unlink a b reason) :
    h.UnlinkJob (.deliverLink target m) := by
  cases m with
  | unlink a b reason => exact absurd rfl (hm a b reason)
  | _ => trivial

theorem recordRequest_links {sender target : PeerId} {nonce : UInt32}
    {theirs ours : ReplayConsoleType} {m : Message} :
    (PlayTogether.recordRequest sender target nonce theirs ours m h).2.roster.links =
      h.roster.links := by
  rw [PlayTogether.recordRequest]
  split_ifs <;> rfl

/-- **Routing a link cable message** sends no wrong `Unlink`, unless an accept crosses another. -/
theorem unlinkJob_routeLink {sender target : PeerId} {m : Message}
    (hends : m.linkEndpoints = some (sender, target))
    (hcrossed : ∀ accepter target' nonce, m = .linkAccept accepter target' nonce →
      (target, sender, nonce) ∈ h.roster.requests →
        ¬ h.roster.AreLinked target sender ∧
          (¬ h.roster.IsLinked sender → ¬ h.roster.IsLinked target →
            ∀ whom peer about reason,
              Threads.Pending h.threads (.deliverLink whom (.unlink peer about reason)) →
                ¬ (peer = target ∧ whom = sender ∨ peer = sender ∧ whom = target)))
    (hjobs : ∀ job, Threads.Pending h.threads job → h.UnlinkJob job) :
    (∀ job ∈ (PlayTogether.routeLink config sender target m h).1,
        (PlayTogether.routeLink config sender target m h).2.UnlinkJob job) ∧
      ∀ job, Threads.Pending h.threads job →
        (PlayTogether.routeLink config sender target m h).2.UnlinkJob job := by
  have hrouted := @routed config sender target m h
  generalize PlayTogether.routeLink config sender target m h = out at hrouted ⊢
  cases hrouted with
  | nothing => exact ⟨fun _ hjob ↦ absurd hjob List.not_mem_nil, hjobs⟩
  | unavailable nonce =>
    refine ⟨fun job hjob ↦ ?_, hjobs⟩
    rw [List.mem_singleton.mp hjob]
    trivial
  | asking nonce theirs =>
    refine ⟨fun job hjob ↦ ?_, hjobs⟩
    rw [List.mem_singleton.mp hjob]
    exact fun _ _ _ hm ↦ nomatch hm
  | busy nonce hne hask hbusy =>
    refine ⟨fun job hjob ↦ ?_, fun job hjob ↦ (hjobs job hjob).mono (List.Subset.refl _)⟩
    rw [List.mem_singleton.mp hjob]
    exact (hcrossed _ _ nonce rfl hask).1
  | linked nonce hne hask hsender htarget =>
    refine ⟨fun job hjob ↦ ?_, fun job hjob ↦ ?_⟩
    · obtain rfl | rfl := List.mem_pair.mp hjob <;> trivial
    · have hold := hjobs job hjob
      cases job with
      | deliverLink whom m =>
        cases m with
        | unlink peer about reason =>
          intro hlinked
          obtain hlinked | hpair := Roster.areLinked_link.mp hlinked
          · exact hold hlinked
          · exact (hcrossed _ _ nonce rfl hask).2 hsender htarget whom peer about reason hjob
              (hpair.imp (fun h ↦ ⟨h.1.symm, h.2.symm⟩) fun h ↦ ⟨h.2.symm, h.1.symm⟩)
        | _ => trivial
      | routeLink | requestOurs | recordRequest => exact hold
      | _ => trivial
  | declined nonce reason =>
    refine ⟨fun job hjob ↦ ?_, fun job hjob ↦ (hjobs job hjob).mono (List.Subset.refl _)⟩
    rw [List.mem_singleton.mp hjob]
    trivial
  | relayed hlinked hm =>
    refine ⟨fun job hjob ↦ ?_, hjobs⟩
    rw [List.mem_singleton.mp hjob]
    exact unlinkJob_deliver hm
  | unplugged hne hlinked =>
    refine ⟨fun job hjob ↦ ?_, fun job hjob ↦ (hjobs job hjob).mono Roster.unlink_sublist.subset⟩
    obtain rfl | rfl := List.mem_pair.mp hjob
    · cases hends
      exact fun hlinked ↦ (Roster.areLinked_unlink.mp hlinked).2 (.inl ⟨rfl, rfl⟩)
    · trivial
  | forgotten hlinked =>
    exact ⟨fun _ hjob ↦ absurd hjob List.not_mem_nil,
      fun job hjob ↦ (hjobs job hjob).mono Roster.unlink_sublist.subset⟩

/-- **No job puts a wrong `Unlink` on its way**, and none makes one wrong that is on its way. -/
theorem unlinkRule : Rule config NoCrossedAccept (fun _ ↦ True) UnlinkJob where
  same _ _ := trivial
  sameJob hsame hjob := hjob.mono (hsame.roster ▸ List.Subset.refl _)
  start _ _ := unlinkJob_start
  exec := by
    intro t full job rest h hthread hblocked hcrossed _ hjobs
    refine ⟨trivial, ?_⟩
    have hjob := hjobs job ⟨t, hthread ▸ List.mem_cons_self⟩
    -- what waits stays right when links only go
    have hfewer : ∀ {h' : Host}, h'.roster.links ⊆ h.roster.links →
        ∀ job', Threads.Pending h.threads job' → h'.UnlinkJob job' :=
      fun hlinks job' hjob' ↦ (hjobs job' hjob').mono hlinks
    by_cases hquiet : job.quiet
    · have hsame := @Job.sameRoster_exec config full t _ h hquiet
      have hlinks : (job.exec config full t h).2.roster.links ⊆ h.roster.links := by
        rw [hsame.roster]
        exact List.Subset.refl _
      exact ⟨fun job' hjob' ↦ (unlinkJob_exec hquiet hjob job' hjob').mono hlinks, hfewer hlinks⟩
    · cases job with
      | routeLink sender target m =>
        exact unlinkJob_routeLink hjob (fun accepter target' nonce hm ↦
          hcrossed sender target accepter target' nonce rest (hm ▸ hthread)) hjobs
      | recordRequest sender target nonce theirs ours m =>
        refine ⟨fun job' hjob' ↦ ?_, hfewer fun _ hl ↦ recordRequest_links ▸ hl⟩
        obtain rfl | ⟨reason, rfl⟩ := Job.next_of_mem_exec hjob'
        · exact unlinkJob_deliver hjob
        · trivial
      | departed peer reason =>
        refine ⟨fun job' hjob' ↦ ?_, hfewer Roster.depart_sublist.subset⟩
        obtain ⟨partner, -, rfl | rfl⟩ | rfl := Job.next_of_mem_exec hjob'
        · exact fun hlinked ↦ (Roster.areLinked_depart.mp hlinked).2.1 rfl
        · trivial
        · trivial
      | admitVisible c participant =>
        exact ⟨fun job' hjob' ↦ absurd hjob' List.not_mem_nil, hfewer (List.Subset.refl _)⟩
      | broadcast item except =>
        cases item with
        | message m =>
          cases m with
          | peerLeft peer reason =>
            refine ⟨fun job' hjob' ↦ ?_, hfewer (List.Subset.refl _)⟩
            obtain ⟨c, -, -, rfl⟩ := Job.next_of_mem_exec hjob'
            trivial
          | _ => exact absurd rfl hquiet
        | _ => exact absurd rfl hquiet
      | _ => exact absurd rfl hquiet

/-- **An `Unlink` is never sent about a link that stands** in a run in which no accept crosses another. -/
theorem trueUnlink_of_noCrossedAccept {events : List Event}
    (h : Runs.Along (step config) NoCrossedAccept events new) :
    Runs.Along (step config) TrueUnlink events new := by
  refine Runs.along_of_kept (Q := fun h ↦ True ∧ ∀ job, Threads.Pending h.threads job → h.UnlinkJob job)
    (fun event h hkept hcrossed ↦ ⟨unlinkRule.step hcrossed hkept, ?_⟩) h
    ⟨trivial, fun _ ⟨_, hjob⟩ ↦ absurd hjob List.not_mem_nil⟩
  unfold TrueUnlink
  split
  · next t full =>
    split
    · next whom peer about reason rest hthread =>
      exact hkept.2 _ ⟨t, hthread ▸ List.mem_cons_self⟩
    · trivial
  · trivial

/-- The job delivers an `Unlink`. -/
def Job.isUnlink : Job → Bool
  | .deliverLink _ (.unlink ..) => true
  | _ => false

/-- When an accept is routed, the two are not linked and no `Unlink` is on its way. -/
def CalmAccept : Event → Host → Prop
  | .advance t _, h =>
    match h.threads t with
    | .routeLink sender target (.linkAccept ..) :: _ => ¬ h.roster.AreLinked target sender ∧
      ∀ job ∈ h.jobs, ¬ Job.isUnlink job
    | _ => True
  | _, _ => True

instance (event : Event) (h : Host) : Decidable (CalmAccept event h) := by
  rcases event with ⟨⟩
  case advance t full =>
    unfold CalmAccept
    dsimp only
    rcases h.threads t with _ | ⟨job, rest⟩
    · infer_instance
    · rcases job with ⟨⟩
      case routeLink sender target m => rcases m with ⟨⟩ <;> dsimp only <;> infer_instance
      all_goals
        dsimp only
        infer_instance
  all_goals
    unfold CalmAccept
    infer_instance

/-- A calm accept crosses none. -/
theorem noCrossedAccept_of_calm {events : List Event}
    (h : Runs.Along (step config) CalmAccept events new) :
    Runs.Along (step config) NoCrossedAccept events new := by
  refine Runs.along_of_kept (Q := Tended) (fun event h htended hcalm ↦ ⟨htended.step, ?_⟩) h tended_new
  cases event with
  | advance t full =>
    intro sender target accepter target' nonce rest hthread hask
    rw [CalmAccept, hthread] at hcalm
    refine ⟨hcalm.1, fun _ _ whom peer about reason hpending ↦ ?_⟩
    exact absurd rfl (hcalm.2 _ (htended.mem_jobs.mpr hpending))
  | _ => trivial

/-- Two clients link, and one pulls the cable. -/
theorem trueUnlink_unplugged :
    Runs.Along (step smallSession) TrueUnlink
      (admission 0 ++ admission 1 ++ handles 0 (.linkRequest 0 3 7 1) ++
        handles 1 (.linkAccept 0 2 7) ++ handles 0 (.unlink 0 3 .unplugged)) new :=
  trueUnlink_of_noCrossedAccept (noCrossedAccept_of_calm (by decide))

/-- Two clients ask each other, and each accepts. -/
def crossedRequests : List Event :=
  admission 0 ++ admission 1 ++ handles 0 (.linkRequest 0 3 7 1) ++ handles 1 (.linkRequest 0 2 8 1) ++
    handles 1 (.linkAccept 0 2 7) ++ handles 0 (.linkAccept 0 3 8)

/-- **Crossing requests that are both accepted** tell the second to accept that its partner is busy. -/
theorem crossed_requests : ¬ Runs.Along (step smallSession) TrueUnlink crossedRequests new := by
  decide

end Host

end PlayTogether

end SuperShuckie
