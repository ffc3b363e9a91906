import SuperShuckie.PlayTogether.Telling

/-!
# The settings of a session

A client that enters is sent the settings of the session while the lock is held, and everyone who is in it
is told of a change after it was made.  The shared pause and the link speed are read under the lock; the
start state was read before it (`settingsTold_of_steady`, `stale_start_state`).
-/

set_option autoImplicit false

namespace SuperShuckie

open ByteFormat

namespace PlayTogether

variable {config : HostConfig}

/-- What a client is told of the session, apart from who is in it. -/
inductive Setting
  | paused | enabled | hostOnly | speed | start
deriving DecidableEq

inductive SettingValue
  | flag (on : Bool)
  | speed (speed : Speed)
  | start (data : Option StartStateData)
deriving DecidableEq

namespace Setting

/-- What an item says of a setting. -/
def said : Setting → Item → Option SettingValue
  | paused, .message (.syncPause _ on _) | paused, .message (.pause _ on) => some (.flag on)
  | enabled, .message (.syncPause on _ _) => some (.flag on)
  | hostOnly, .message (.syncPause _ _ on) => some (.flag on)
  | speed, .message (.linkSpeed v) => some (.speed v)
  | start, .startState data => some (.start (some data))
  -- such a message says that there is none any more
  | start, .message (.startState _) => some (.start none)
  | _, _ => none

/-- What the host keeps of a setting. -/
def current : Setting → Host → SettingValue
  | paused, h => .flag h.syncPause.paused
  | enabled, h => .flag h.syncPause.enabled
  | hostOnly, h => .flag h.syncPause.hostOnly
  | speed, h => .speed h.linkSpeed
  | start, h => .start h.startState

/-- What a client was told last is what the host keeps; that there is no start state need not be told. -/
def Right (s : Setting) (h : Host) (last : Option SettingValue) : Prop :=
  last = some (s.current h) ∨ last = none ∧ s.current h = .start none

/-- What a job is about to tell of a setting. -/
def news (s : Setting) : Job → Option SettingValue
  | .broadcast item _ | .pushTo _ item => s.said item
  | _ => none

variable {s : Setting}

theorem said_of_isPassing {item : Item} (hitem : item.isPassing) : s.said item = none := by
  cases item with
  | message m => cases m <;> first | (cases s <;> rfl) | cases hitem
  | stream | snapshot => cases s <;> rfl
  | startState => cases hitem

theorem ordinary_said : Conn.Ordinary s.said := by
  refine ⟨fun m hm ↦ ?_, fun _ _ ↦ by cases s <;> rfl⟩
  cases m <;> first | (cases s <;> rfl) | cases hm

/-- What is told of a setting. -/
def topic (s : Setting) : Topic SettingValue where
  said := s.said
  right := s.Right
  tells c job := (s.news job).isSome ∧ ∀ c' item, job = .pushTo c' item → c' = c
  ordinary := ordinary_said
  passing _ hitem := said_of_isPassing hitem
  done := by
    rintro h t threads jobs v hright
    cases s <;> exact hright

/-- The job of an admission that queues a setting. -/
def Admits (s : Setting) (c : Nat) (job : Job) : Prop :=
  match s with
  | paused | enabled | hostOnly => job = .admitPause c
  | speed => job = .admitSpeed c
  | start => ∃ data, job = .admitStart c data

/-- Its place among the jobs of an admission. -/
def stage : Setting → Nat
  | paused | enabled | hostOnly => 0
  | speed => 1
  | start => 2

end Setting

/-- The job changes a setting. -/
def Job.Stores : Job → Prop
  | notePause .. | storePause _ | storeSpeed _ | storeStart _ => True
  | _ => False

namespace Host

variable {h h' : Host} {c : Nat} {s : Setting} {full : Bool} {t : HostThread} {job : Job}
  {rest : List Job}

/-- What is queued of a setting is pushed there, or belongs to an admission. -/
theorem queues_said {item : Item} (hqueues : Job.Queues config h c item job) (hpassing : job.Passing) :
    s.said item = none ∨ job = .pushTo c item ∨ s.Admits c job := by
  cases job with
  | send c' m =>
    obtain ⟨-, rfl⟩ := hqueues
    exact .inl (Setting.said_of_isPassing hpassing)
  | pushTo c' item' =>
    obtain ⟨rfl, rfl⟩ := hqueues
    exact .inr (.inl rfl)
  | admitLocked =>
    obtain ⟨-, -, rfl⟩ := hqueues
    exact .inl (by cases s <;> rfl)
  | admitPause =>
    obtain ⟨rfl, rfl⟩ := hqueues
    cases s with
    | paused | enabled | hostOnly => exact .inr (.inr rfl)
    | speed | start => exact .inl rfl
  | admitSpeed =>
    obtain ⟨rfl, rfl⟩ := hqueues
    cases s with
    | speed => exact .inr (.inr rfl)
    | _ => exact .inl rfl
  | admitStart c' data =>
    obtain ⟨rfl, -, -, rfl⟩ := hqueues
    cases s with
    | start => exact .inr (.inr ⟨data, rfl⟩)
    | _ => exact .inl rfl
  | _ => exact absurd hqueues id

/-! ## When nothing goes wrong -/

/-- Nothing is about to be told of a setting. -/
def SilentOn (s : Setting) (h : Host) : Prop := ∀ job ∈ h.jobs, s.news job = none

instance (s : Setting) (h : Host) : Decidable (h.SilentOn s) :=
  inferInstanceAs (Decidable (∀ job ∈ h.jobs, s.news job = none))

/-- The job is about to tell everyone of a setting. -/
def Announces (s : Setting) : Job → Bool
  | .broadcast item _ => (s.said item).isSome
  | _ => false

/-- A setting is changed when nothing is about to be told of it.  What the client of a connection is sent as
it enters finds room, and a start state that is no more the host's is still to be replaced.  News finds the
connection in the list, and is not the client's own. -/
def Unhurried (c : Nat) (full : Bool) (h : Host) : Job → Prop
  | .admitLocked .. => h.nextPeerId ≠ 0
  | .admitPause c' | .admitSpeed c' => c' = c → full = false
  | .admitStart c' start => c' = c → (start ≠ none → full = false) ∧
    (start ≠ h.startState → ∃ job ∈ h.jobs, Announces .start job)
  | .broadcast item except => (∃ s ∈ [.paused, .enabled, .hostOnly, .speed, .start], (Setting.said s item).isSome) →
    (h.conn c).Admitted → (h.conn c).closing = false → c ∈ h.listed ∧ (h.conn c).peerId ≠ except
  | .notePause sender paused => h.syncPause.enabled ∧ (sender = hostPeerId ∨ ¬ h.syncPause.hostOnly) →
    paused ≠ h.syncPause.paused → h.SilentOn .paused
  | .storePause state => (state.paused ≠ h.syncPause.paused → h.SilentOn .paused) ∧
    (state.enabled ≠ h.syncPause.enabled → h.SilentOn .enabled) ∧
      (state.hostOnly ≠ h.syncPause.hostOnly → h.SilentOn .hostOnly)
  | .storeSpeed speed => speed ≠ h.linkSpeed → h.SilentOn .speed
  | .storeStart start => start ≠ h.startState → h.SilentOn .start
  | _ => True

instance (h : Host) (job : Job) : Decidable (h.Unhurried c full job) := by
  rcases job with ⟨⟩ <;> unfold Unhurried <;> dsimp only <;> infer_instance

/-- The job that is done next keeps the settings right that the client of a connection is told. -/
def SteadySettings (c : Nat) : Event → Host → Prop
  | .advance t full, h => ∀ job ∈ (h.threads t).head?, h.Unhurried c full job
  | _, _ => True

instance (event : Event) (h : Host) : Decidable (SteadySettings c event h) := by
  rcases event with ⟨⟩ <;> unfold SteadySettings <;> dsimp only <;> infer_instance

variable {event : Event}

theorem SteadySettings.idsLeft (hsteady : SteadySettings c event h) : IdsLeft event h := by
  unfold IdsLeft
  split
  · next t full =>
    split
    · next hthread => exact hsteady _ (by rw [hthread]; rfl)
    · trivial
  · trivial

/-! ## What becomes of a setting -/

theorem current_outside (hout : event.Outside) : s.current (step config event h) = s.current h := by
  have hstart : ∀ {t : HostThread} {jobs : List Job}, s.current (h.start t jobs) = s.current h := by
    intro t jobs
    rw [start]
    split_ifs
    · cases s <;> rfl
    · rfl
  cases event with
  | connect | drain | takeUrgent =>
    rw [step]
    split_ifs <;> first | rfl | (cases s <;> rfl)
  | receive | lose | garble | writeFails | timeout =>
    rw [step]
    split_ifs
    · exact hstart
    · rfl
  | call | publish => exact hstart
  | write => cases s <;> rfl
  | advance => exact absurd hout id

/-- A job that changes no setting. -/
theorem current_exec_of_not_stores (hjob : ¬ job.Stores) :
    s.current (job.exec config full t h).2 = s.current h := by
  cases job with
  | notePause | storePause | storeSpeed | storeStart => exact absurd trivial hjob
  | routeLink sender target m =>
    have hrouted := @routed config sender target m h
    show s.current (PlayTogether.routeLink config sender target m h).2 = _
    generalize PlayTogether.routeLink config sender target m h = out at hrouted ⊢
    cases hrouted <;> cases s <;> rfl
  | broadcast item except =>
    cases item with
    | message m => cases m <;> first | rfl | (cases s <;> rfl)
    | _ => rfl
  | deliverLink target m =>
    rw [Job.exec]
    split
    · cases s <;> rfl
    · split
      · rfl
      · split
        · rfl
        · cases s <;> rfl
  | admitPeer c hello => rw [exec_admitPeer.1]
  | admitLocked c hello start =>
    obtain ⟨reason, text, hexec⟩ | ⟨-, hexec⟩ := @exec_admitLocked config h c full t hello start
    · rw [hexec]
    · rw [hexec]
      cases s <;> rfl
  | admitStart c start =>
    cases start with
    | none => rfl
    | some data => cases s <;> rfl
  | recordRequest =>
    rw [Job.exec, PlayTogether.recordRequest]
    split_ifs
    · rfl
    · cases s <;> rfl
    · rfl
  | pushTo | close =>
    rw [Job.exec]
    split_ifs
    · rfl
    · cases s <;> rfl
  | register | send | unlist | departed | notify | admitPause | admitSpeed | admitVisible =>
    cases s <;> rfl
  | _ => rfl

/-- **What a job does to a setting**: nothing, or nothing was about to be told of it and now everyone is
told what it is. -/
theorem current_exec (hkeeps : h.Unhurried c full job) :
    s.current (job.exec config full t h).2 = s.current h ∨
      h.SilentOn s ∧ ∃ item except, .broadcast item except ∈ (job.exec config full t h).1 ∧
        (s.said item).isSome := by
  cases job with
  | notePause sender paused =>
    rw [Job.exec]
    by_cases hcounts : h.syncPause.enabled ∧ (sender = hostPeerId ∨ ¬ h.syncPause.hostOnly)
    · rw [if_pos hcounts]
      cases s with
      | paused =>
        by_cases hsame : paused = h.syncPause.paused
        · exact .inl (congrArg SettingValue.flag hsame)
        · exact .inr ⟨hkeeps hcounts hsame, _, _, List.mem_cons_self, rfl⟩
      | _ => exact .inl rfl
    · rw [if_neg hcounts]
      exact .inl rfl
  | storePause state =>
    cases s with
    | paused =>
      by_cases hsame : state.paused = h.syncPause.paused
      · exact .inl (congrArg SettingValue.flag hsame)
      · exact .inr ⟨hkeeps.1 hsame, _, _, List.mem_cons_self, rfl⟩
    | enabled =>
      by_cases hsame : state.enabled = h.syncPause.enabled
      · exact .inl (congrArg SettingValue.flag hsame)
      · exact .inr ⟨hkeeps.2.1 hsame, _, _, List.mem_cons_self, rfl⟩
    | hostOnly =>
      by_cases hsame : state.hostOnly = h.syncPause.hostOnly
      · exact .inl (congrArg SettingValue.flag hsame)
      · exact .inr ⟨hkeeps.2.2 hsame, _, _, List.mem_cons_self, rfl⟩
    | speed | start => exact .inl rfl
  | storeSpeed speed =>
    cases s with
    | speed =>
      by_cases hsame : speed = h.linkSpeed
      · exact .inl (congrArg SettingValue.speed hsame)
      · exact .inr ⟨hkeeps hsame, _, _, List.mem_cons_self, rfl⟩
    | _ => exact .inl rfl
  | storeStart start =>
    cases s with
    | start =>
      by_cases hsame : start = h.startState
      · exact .inl (congrArg SettingValue.start hsame)
      · refine .inr ⟨hkeeps hsame, startItem start, 0, List.mem_cons_self, ?_⟩
        cases start <;> rfl
    | _ => exact .inl rfl
  | _ => exact .inl (current_exec_of_not_stores id)

/-- What a job starts to tell everyone of a setting is what it is by then. -/
theorem broadcast_exec {item : Item} {except : PeerId} {v : SettingValue}
    (hmem : .broadcast item except ∈ (job.exec config full t h).1) (hsaid : s.said item = some v) :
    v = s.current (job.exec config full t h).2 := by
  have hfrom := Job.next_of_mem_exec hmem
  cases job with
  | notePause sender paused =>
    rw [Job.exec] at hmem ⊢
    by_cases hcounts : h.syncPause.enabled ∧ (sender = hostPeerId ∨ ¬ h.syncPause.hostOnly)
    · rw [if_pos hcounts] at hmem ⊢
      obtain heq | heq := hfrom <;> cases heq
      cases s <;> cases hsaid
      rfl
    · rw [if_neg hcounts] at hmem
      exact absurd hmem List.not_mem_nil
  | storePause state =>
    cases hfrom
    cases s <;> cases hsaid <;> rfl
  | storeSpeed speed =>
    cases hfrom
    cases s <;> cases hsaid
    rfl
  | storeStart start =>
    cases start with
    | none =>
      cases hfrom
      cases s <;> cases hsaid
      rfl
    | some data =>
      cases hfrom
      cases s <;> cases hsaid
      rfl
  | announceLink x y linked =>
    obtain heq | heq := hfrom <;> cases heq
    cases linked <;> cases s <;> cases hsaid
  | departed peer reason =>
    obtain ⟨partner, -, heq | heq⟩ | heq := hfrom <;> cases heq
    cases s <;> cases hsaid
  | admitLocked c hello start =>
    obtain ⟨reason, text, hfrom⟩ | hfrom := hfrom
    · simp [refuse] at hfrom
    · simp only [List.mem_cons, List.not_mem_nil, or_false, reduceCtorEq, false_or] at hfrom
      cases hfrom
      cases s <;> cases hsaid
  | _ => simp [Job.Next, refuse] at hfrom

/-- What is about to be told of a setting is what it is. -/
def TruthfulOn (s : Setting) (h : Host) : Prop :=
  ∀ job, Threads.Pending h.threads job → ∀ v, s.news job = some v → v = s.current h

/-- **What is told of a setting stays so**, for it is told before the setting is changed again. -/
theorem TruthfulOn.step {event : Event} (htruthful : h.TruthfulOn s) (htended : h.Tended)
    (hpassing : ∀ job, Threads.Pending h.threads job → job.Passing)
    (hchange : ∀ t full first rest, event = .advance t full → h.threads t = first :: rest →
      s.current (first.exec config full t h).2 = s.current h ∨ h.SilentOn s) :
    (step config event h).TruthfulOn s := by
  refine step_elim (Q := fun h' ↦ h'.TruthfulOn s) (fun hout job hjob v hnews ↦ ?_) htruthful ?_
  · obtain hold | hnew := pending_outside hout hjob
    · rw [current_outside hout]
      exact htruthful job hold v hnews
    · have hnone := (passing_start job hnew).2
      cases job with
      | broadcast item except =>
        rw [Setting.news, Setting.said_of_isPassing hnone] at hnews
        cases hnews
      | pushTo => exact absurd hnone id
      | _ => cases hnews
  · rintro t full first rest rfl hthread - job hjob v hnews
    have hpending : Threads.Pending h.threads first := ⟨t, hthread ▸ List.mem_cons_self⟩
    have hcurrent : s.current ((first.exec config full t h).2.done t h.threads
        ((first.exec config full t h).1 ++ rest)) = s.current (first.exec config full t h).2 := by
      cases s <;> rfl
    rw [hcurrent]
    obtain hnew | hold := Threads.pending_of_done hthread hjob
    · cases job with
      | broadcast item except => exact broadcast_exec hnew hnews
      | pushTo c' item =>
        have hstores : ¬ first.Stores → s.news first = some v →
            v = s.current (first.exec config full t h).2 := by
          intro hstores hfirst
          rw [current_exec_of_not_stores hstores]
          exact htruthful first hpending v hfirst
        obtain ⟨peer, rfl, -⟩ | ⟨except, rfl, -⟩ | ⟨p, rfl, rfl, -⟩ :=
          Job.of_next_pushTo (Job.next_of_mem_exec hnew)
        · rw [Setting.news, Setting.said_of_isPassing (hpassing _ hpending)] at hnews
          cases hnews
        · exact hstores id hnews
        · rw [Setting.news, Setting.said_of_isPassing isPassing_item] at hnews
          cases hnews
      | _ => cases hnews
    · obtain hsame | hsilent := hchange t full first rest rfl hthread
      · rw [hsame]
        exact htruthful job hold v hnews
      · rw [hsilent job (htended.mem_jobs.mpr hold)] at hnews
        cases hnews

/-! ## Who has been sent a setting -/

/-- The client of a connection is in the session, or its admission is beyond the job that queues the
setting. -/
def Entered (s : Setting) (c : Nat) (h : Host) : Prop :=
  (h.conn c).peerId ≠ 0 ∨ ∃ start participant k, s.stage < k ∧ k < 4 ∧
    h.threads (.reader c) = (entry c start participant).drop k

/-- **A setting is queued by the reader of a connection**, at its place in the admission. -/
theorem of_admits (hdoors : h.Doors) (hthread : h.threads t = job :: rest)
    (hadmits : s.Admits c job) : t = .reader c ∧ (h.conn c).peerId = 0 ∧ ∃ start participant,
      h.threads (.reader c) = (entry c start participant).drop s.stage := by
  have hdoor : job.AtDoor := by
    cases s with
    | start =>
      obtain ⟨data, rfl⟩ := hadmits
      trivial
    | _ =>
      rw [show job = _ from hadmits]
      trivial
  by_cases ht : ∀ c', t ≠ .reader c'
  · exact absurd hdoor ((hdoors.others t ht).1 job (hthread ▸ List.mem_cons_self))
  · push Not at ht
    obtain ⟨c', rfl⟩ := ht
    cases hdoors.door c' with
    | away hjobs => exact absurd hdoor (hjobs job (hthread ▸ List.mem_cons_self))
    | knocking hello hjobs | waiting hello start hjobs =>
      rw [hthread] at hjobs
      obtain ⟨rfl, -⟩ := List.cons.inj hjobs
      cases s with
      | start =>
        obtain ⟨data, heq⟩ := hadmits
        cases heq
      | _ => cases hadmits
    | entering start participant k hk hjobs hout =>
      have hk' : c' = c ∧ k = s.stage := by
        rw [hthread] at hjobs
        obtain rfl | rfl | rfl | rfl : k = 0 ∨ k = 1 ∨ k = 2 ∨ k = 3 := by omega
        all_goals
          obtain ⟨rfl, -⟩ := List.cons.inj hjobs
          cases s <;> simp_all [Setting.Admits, Setting.stage]
      obtain ⟨rfl, rfl⟩ := hk'
      exact ⟨rfl, hout, start, participant, hjobs⟩

/-- The jobs of an admission that queue a setting are those at its place. -/
theorem admits_iff {start : Option StartStateData} {participant : ParticipantInfo} {k : Nat}
    (hk : k < 4) (hjobs : job :: rest = (entry c start participant).drop k) :
    s.Admits c job ↔ k = s.stage := by
  obtain rfl | rfl | rfl | rfl : k = 0 ∨ k = 1 ∨ k = 2 ∨ k = 3 := by omega
  all_goals
    obtain ⟨rfl, -⟩ := List.cons.inj hjobs
    cases s <;> simp [Setting.Admits, Setting.stage]

theorem stage_lt : s.stage < 3 := by
  cases s <;> decide

/-- Nobody is sent a setting by its admission twice. -/
theorem not_admits_of_entered (hdoors : h.Doors) (hthread : h.threads t = job :: rest)
    (hentered : h.Entered s c) : ¬ s.Admits c job := by
  intro hadmits
  obtain ⟨-, hout, start, participant, hjobs⟩ := of_admits hdoors hthread hadmits
  obtain hin | ⟨start', participant', k, hlt, hk, hjobs'⟩ := hentered
  · exact hin hout
  · have hlength := congrArg List.length (hjobs.symm.trans hjobs')
    rw [length_entry_drop, length_entry_drop] at hlength
    omega

/-- Who has been sent a setting stays so. -/
theorem Entered.exec (hentered : h.Entered s c) (hdoors : h.Doors)
    (hthread : h.threads t = job :: rest) : ((job.exec config full t h).2.done t h.threads
      ((job.exec config full t h).1 ++ rest)).Entered s c := by
  obtain hin | ⟨start, participant, k, hlt, hk, hjobs⟩ := hentered
  · exact .inl fun hout ↦ hin (hdoors.exec_out hthread hout)
  · by_cases ht : t = .reader c
    · subst ht
      rw [hthread] at hjobs
      obtain hk3 | rfl : k < 3 ∨ k = 3 := by omega
      · obtain ⟨-, -, hnext, hrest⟩ := @exec_entry config h _ full (.reader c) _ _ _ _ _ hk3 hjobs
        refine .inr ⟨start, participant, k + 1, by omega, by omega, ?_⟩
        rw [done_self, hnext, hrest, List.nil_append]
      · obtain ⟨rfl, -⟩ := List.cons.inj hjobs
        refine .inl ?_
        show ((h.onConn c (·.admitAs participant)).conn c).peerId ≠ 0
        rw [onConn_conn, if_pos rfl]
        exact (hdoors.of_admitVisible hthread).2.2.1
    · refine .inr ⟨start, participant, k, hlt, hk, ?_⟩
      rw [done_of_ne (Ne.symm ht)]
      exact hjobs

/-- Who has been sent a setting by a job of its admission. -/
theorem entered_of_admits (hdoors : h.Doors) (hthread : h.threads t = job :: rest)
    (hadmits : s.Admits c job) : ((job.exec config full t h).2.done t h.threads
      ((job.exec config full t h).1 ++ rest)).Entered s c := by
  obtain ⟨rfl, -, start, participant, hjobs⟩ := of_admits hdoors hthread hadmits
  rw [hthread] at hjobs
  obtain ⟨-, -, hnext, hrest⟩ := @exec_entry config h _ full (.reader c) _ _ _ _ _ stage_lt hjobs
  refine .inr ⟨start, participant, s.stage + 1, Nat.lt_succ_self _, by have := stage_lt (s := s); omega, ?_⟩
  rw [done_self, hnext, hrest, List.nil_append]

/-- **Only a job of its admission makes it that a client has been sent a setting.** -/
theorem Entered.of_exec (hdoors : h.Doors) (hthread : h.threads t = job :: rest)
    (hentered : ((job.exec config full t h).2.done t h.threads
      ((job.exec config full t h).1 ++ rest)).Entered s c) : h.Entered s c ∨ s.Admits c job := by
  by_cases hin : (h.conn c).peerId = 0
  · by_cases hadmits : job.Admits c
    · -- the last job of an admission is beyond all settings
      cases job with
      | admitVisible c' participant =>
        obtain rfl : c' = c := hadmits
        obtain ⟨rfl, -⟩ := hdoors.of_admitVisible hthread
        cases hdoors.door c' with
        | away hjobs =>
          exact absurd trivial (hjobs (.admitVisible c' participant) (hthread ▸ List.mem_cons_self))
        | knocking hello hjobs | waiting hello start hjobs =>
          rw [hthread] at hjobs
          cases hjobs
        | entering start participant' k hk hjobs =>
          obtain rfl | rfl | rfl | rfl : k = 0 ∨ k = 1 ∨ k = 2 ∨ k = 3 := by omega
          · exact nomatch hthread.symm.trans hjobs
          · exact nomatch hthread.symm.trans hjobs
          · exact nomatch hthread.symm.trans hjobs
          · exact .inl (.inr ⟨start, participant', 3, stage_lt, by decide, hjobs⟩)
      | _ => exact absurd hadmits id
    · obtain hin' | ⟨start, participant, k, hlt, hk, hjobs⟩ := hentered
      · exact absurd ((congrArg Prod.fst (exec_who hadmits)).trans hin) hin'
      · by_cases ht : t = .reader c
        · subst ht
          rw [done_self] at hjobs
          have hlength := congrArg List.length hjobs
          rw [List.length_append, length_entry_drop] at hlength
          cases hdoors.door c with
          | away hnone =>
            have hmem : .admitVisible c participant ∈ (job.exec config full (.reader c) h).1 ++ rest := by
              rw [hjobs]
              obtain rfl | rfl | rfl : k = 1 ∨ k = 2 ∨ k = 3 := by omega
              all_goals simp [entry]
            rw [hthread] at hnone
            obtain hnew | hold := List.mem_append.mp hmem
            · exact absurd trivial (Job.not_atDoor_next (Job.next_of_mem_exec hnew)
                (hnone job List.mem_cons_self))
            · exact absurd trivial (hnone _ (List.mem_cons_of_mem _ hold))
          | knocking hello hjobs' =>
            rw [hthread] at hjobs'
            obtain ⟨rfl, rfl⟩ := List.cons.inj hjobs'
            obtain ⟨-, ⟨reason, text, hnext⟩ | hnext⟩ :=
              @exec_admitPeer config h c full (.reader c) hello
            all_goals
              rw [hnext] at hlength
              simp only [refuse, List.length_cons, List.length_nil] at hlength
              omega
          | waiting hello start' hjobs' =>
            rw [hthread] at hjobs'
            obtain ⟨rfl, rfl⟩ := List.cons.inj hjobs'
            obtain ⟨reason, text, hexec⟩ | ⟨-, hexec⟩ :=
              @exec_admitLocked config h c full (.reader c) hello start'
            all_goals
              rw [hexec] at hlength
              simp only [refuse, entry, List.length_cons, List.length_nil] at hlength
              omega
          | entering start' participant' k' hk' hjobs' =>
            rw [hthread] at hjobs'
            obtain hk3 | rfl : k' < 3 ∨ k' = 3 := by omega
            · obtain ⟨-, -, hnext, hrest⟩ := @exec_entry config h _ full (.reader c) _ _ _ _ _ hk3 hjobs'
              rw [hnext, hrest, length_entry_drop, List.length_nil] at hlength
              obtain hbefore | hnow : s.stage < k' ∨ k' = s.stage := by omega
              · exact .inl (.inr ⟨start', participant', k', hbefore, hk', hthread.trans hjobs'⟩)
              · exact .inr ((admits_iff hk' hjobs').mpr hnow)
            · exact .inl (.inr ⟨start', participant', 3, stage_lt, by decide, hthread.trans hjobs'⟩)
        · rw [done_of_ne (Ne.symm ht)] at hjobs
          exact .inl (.inr ⟨start, participant, k, hlt, hk, hjobs⟩)
  · exact .inl (.inl hin)

/-- What an event starts makes nobody enter. -/
theorem entered_outside (hout : event.Outside) :
    (step config event h).Entered s c ↔ h.Entered s c := by
  have hpeer := (@outside_conn config h c _ hout).1
  obtain ⟨-, hthreads | ⟨hidle, hthreads⟩⟩ := @step_outside config _ h hout
  · rw [Entered, Entered, hpeer, hthreads]
  · by_cases ht : event.thread = .reader c
    · have hno : ∀ {start participant k}, k < 4 → h.threads (.reader c) ≠ (entry c start participant).drop k := by
        intro start participant k hk hjobs
        rw [ht] at hidle
        have hlength := congrArg List.length (hidle.symm.trans hjobs)
        rw [length_entry_drop, List.length_nil] at hlength
        omega
      have hno' : ∀ {start participant k}, k < 4 →
          (step config event h).threads (.reader c) ≠ (entry c start participant).drop k := by
        intro start participant k hk hjobs
        rw [hthreads, ht, Function.update_self] at hjobs
        obtain hnone | ⟨c', hello, -, heq, -⟩ := @atDoor_start h event
        · have hmem : .admitVisible c participant ∈ event.jobs h := by
            rw [hjobs]
            obtain rfl | rfl | rfl | rfl : k = 0 ∨ k = 1 ∨ k = 2 ∨ k = 3 := by omega
            all_goals simp [entry]
          exact hnone _ hmem trivial
        · have hlength := congrArg List.length (heq.symm.trans hjobs)
          rw [length_entry_drop, List.length_cons, List.length_nil] at hlength
          omega
      constructor
      · rintro (hin | ⟨start, participant, k, -, hk, hjobs⟩)
        · exact .inl (hpeer ▸ hin)
        · exact absurd hjobs (hno' hk)
      · rintro (hin | ⟨start, participant, k, -, hk, hjobs⟩)
        · exact .inl (hpeer.symm ▸ hin)
        · exact absurd hjobs (hno hk)
    · rw [Entered, Entered, hpeer, hthreads, Function.update_of_ne (Ne.symm ht)]

/-! ## What every step keeps -/

/-- **What is kept of the settings** that the client of a connection is told. -/
structure SettingsInv (c : Nat) (h : Host) : Prop where
  tended : h.Tended
  doors : h.Doors
  urgent : h.UrgentRelays
  pushes : ∀ s : Setting, h.Pushes s.topic
  truthful : ∀ s, h.TruthfulOn s
  unheard : ∀ s, ¬ h.Entered s c → (h.conn c).closing = false →
    (h.conn c).heard (Setting.said s) = []
  informed : ∀ s, h.Entered s c → (h.conn c).closing = false → h.Informed s.topic c

/-- What is told of a setting that stays is right as long as it was. -/
theorem right_of_current {last : Option SettingValue} (hsame : s.current h' = s.current h)
    (hright : s.Right h last) : s.Right h' last := by
  rw [Setting.Right, hsame]
  exact hright

theorem SettingsInv.unheard_step (hinv : h.SettingsInv c) :
    ∀ s, ¬ (step config event h).Entered s c → ((step config event h).conn c).closing = false →
      ((step config event h).conn c).heard (Setting.said s) = [] := by
  intro s
  refine step_elim (Q := fun h' ↦ ¬ h'.Entered s c → (h'.conn c).closing = false →
    (h'.conn c).heard s.said = []) (fun hout ↦ ?_) (hinv.unheard s) ?_
  · rw [entered_outside hout, (outside_conn hout).2]
    exact fun hentered hopen ↦ (@heard_outside _ _ s.topic _ _ _ hinv.urgent hout).trans
      (hinv.unheard s hentered hopen)
  · rintro t full first rest - hthread - hentered hopen
    have hpending : Threads.Pending h.threads first := ⟨t, hthread ▸ List.mem_cons_self⟩
    have hbefore : ¬ h.Entered s c := fun hbefore ↦ hentered (hbefore.exec hinv.doors hthread)
    rw [done_conn] at hopen ⊢
    rw [heard_exec (fun item hqueues ↦ ?_) hopen]
    · exact hinv.unheard s hbefore (open_of_exec hopen)
    · obtain hnone | rfl | hadmits := queues_said (s := s) hqueues
        ((hinv.pushes s).passing first hpending)
      · exact hnone
      · by_contra hsaid
        exact hbefore (.inl ((hinv.pushes s).pushed c item hpending hsaid))
      · exact absurd (entered_of_admits hinv.doors hthread hadmits) hentered

/-- What is queued last is what was told last. -/
theorem getLast_push {item : Item} {v : SettingValue} (hopen : (h.conn c).closing = false)
    (hconn : h'.conn c = (h.conn c).push false item) (hsaid : s.said item = some v) :
    ((h'.conn c).heard s.said).getLast? = some v := by
  rw [hconn, Conn.heard_push hopen, hsaid, Option.toList_some, List.getLast?_concat]

/-- **An admission sends a setting as it is**, or as it was if everyone is about to be told of it. -/
theorem SettingsInv.informed_admits (hinv : h.SettingsInv c) (hthread : h.threads t = job :: rest)
    (hsteady : h.Unhurried c full job) (hadmits : s.Admits c job)
    (hopen : (h.conn c).closing = false) : ((job.exec config full t h).2.done t h.threads
      ((job.exec config full t h).1 ++ rest)).Informed s.topic c := by
  have hself : ∀ {f : Conn → Conn}, (h.onConn c f).conn c = f (h.conn c) := by
    intro f
    rw [onConn_conn, if_pos rfl]
  cases s with
  | paused | enabled | hostOnly =>
    obtain rfl : job = .admitPause c := hadmits
    obtain rfl : full = false := hsteady rfl
    exact .inl (.inl (getLast_push hopen hself rfl))
  | speed =>
    obtain rfl : job = .admitSpeed c := hadmits
    obtain rfl : full = false := hsteady rfl
    exact .inl (.inl (getLast_push hopen hself rfl))
  | start =>
    obtain ⟨start, rfl⟩ : ∃ start, job = .admitStart c start := hadmits
    obtain ⟨hroom, hstale⟩ := hsteady rfl
    by_cases hcurrent : start = h.startState
    · cases start with
      | none =>
        have hunheard := hinv.unheard .start (fun hentered ↦
          not_admits_of_entered (s := .start) hinv.doors hthread hentered ⟨none, rfl⟩) hopen
        refine .inl (.inr ⟨?_, congrArg SettingValue.start hcurrent.symm⟩)
        show ((h.conn c).heard (Setting.said .start)).getLast? = none
        rw [hunheard]
        rfl
      | some data =>
        obtain rfl := hroom nofun
        refine .inl (.inl ?_)
        refine (getLast_push (s := .start) hopen hself rfl).trans ?_
        exact congrArg (fun data ↦ some (SettingValue.start data)) hcurrent
    · obtain ⟨job', hjob', hannounces⟩ := hstale hcurrent
      refine .inr (.inl ⟨job', (hinv.tended.mem_jobs.mp hjob').done hthread ?_, ?_⟩)
      · rintro rfl
        cases hannounces
      · cases job' with
        | broadcast item except => exact ⟨hannounces, fun _ _ heq ↦ nomatch heq⟩
        | _ => cases hannounces

/-- A job that still has to tell passes it on; while a client enters, it has to wait. -/
theorem SettingsInv.tells_exec (hinv : h.SettingsInv c) (hthread : h.threads t = job :: rest)
    (hblocked : ¬ h.Blocked t job) (hsteady : h.Unhurried c full job)
    (hentered : h.Entered s c) (hopen : (h.conn c).closing = false) (htells : s.topic.tells c job) :
    (∃ next ∈ (job.exec config full t h).1, s.topic.tells c next) ∨
      ∃ item v, job = .pushTo c item ∧ s.said item = some v := by
  obtain ⟨hnews, hself⟩ := htells
  cases job with
  | broadcast item except =>
    by_cases hadmitted : (h.conn c).peerId = 0
    · obtain hin | ⟨start, participant, k, hlt, hk, hjobs⟩ := hentered
      · exact absurd hadmitted hin
      · -- the reader of the connection holds the lock
        exfalso
        have hreader : t ≠ .reader c := by
          rintro rfl
          rw [hthread] at hjobs
          obtain rfl | rfl | rfl : k = 1 ∨ k = 2 ∨ k = 3 := by omega
          all_goals cases hjobs
        cases hinv.doors.door c with
        | away hnone =>
          refine hnone (.admitVisible c participant) ?_ trivial
          rw [hjobs]
          obtain rfl | rfl | rfl : k = 1 ∨ k = 2 ∨ k = 3 := by omega
          all_goals simp [entry]
        | knocking hello hjobs' | waiting hello start' hjobs' =>
          have hlength := congrArg List.length (hjobs'.symm.trans hjobs)
          rw [length_entry_drop, List.length_cons, List.length_nil] at hlength
          omega
        | entering start' participant' k' hk' hjobs' hout hid hhold =>
          refine hblocked ⟨rfl, by rw [hhold]; exact Option.some_ne_none _, ?_⟩
          rw [hhold]
          exact fun heq ↦ hreader (Option.some.inj heq).symm
    · have hsetting : ∃ s ∈ [.paused, .enabled, .hostOnly, .speed, .start],
          (Setting.said s item).isSome := ⟨s, by cases s <;> simp, hnews⟩
      obtain ⟨hlisted, hexcept⟩ := hsteady hsetting hadmitted hopen
      refine .inl ⟨.pushTo c item, List.mem_map.mpr ⟨c, ?_, rfl⟩, hnews, ?_⟩
      · exact List.mem_filter.mpr ⟨List.mem_filter.mpr ⟨hlisted, decide_eq_true hadmitted⟩,
          decide_eq_true hexcept⟩
      · rintro c' item' heq
        cases heq
        rfl
  | pushTo c' item =>
    obtain rfl := hself c' item rfl
    obtain ⟨v, hv⟩ := Option.isSome_iff_exists.mp hnews
    exact .inr ⟨item, v, rfl, hv⟩
  | _ => cases hnews

theorem SettingsInv.informed_step (hinv : h.SettingsInv c) (hsteady : SteadySettings c event h) :
    ∀ s, (step config event h).Entered s c → ((step config event h).conn c).closing = false →
      (step config event h).Informed s.topic c := by
  intro s
  refine step_elim (Q := fun h' ↦ h'.Entered s c → (h'.conn c).closing = false →
    h'.Informed s.topic c) (fun hout ↦ ?_) (hinv.informed s) ?_
  · rw [entered_outside hout, (outside_conn hout).2]
    exact fun hentered hopen ↦ (hinv.informed s hentered hopen).outside hinv.urgent hout
      fun last hlast ↦ right_of_current (current_outside hout) hlast
  · rintro t full first rest rfl hthread hblocked hentered hopen'
    rw [done_conn] at hopen'
    have hpending : Threads.Pending h.threads first := ⟨t, hthread ▸ List.mem_cons_self⟩
    have hsteady' : h.Unhurried c full first := hsteady first (by rw [hthread]; rfl)
    have hopen := open_of_exec hopen'
    obtain hbefore | hadmits := Entered.of_exec hinv.doors hthread hentered
    · refine (hinv.informed s hbefore hopen).exec hthread hopen' ?_ (fun item hqueues ↦ ?_) ?_
        (hinv.tells_exec hthread hblocked hsteady' hbefore hopen)
      · rintro item v rfl hsaid
        refine .inl (congrArg some ?_)
        rw [current_exec_of_not_stores id]
        exact hinv.truthful s _ hpending v hsaid
      · obtain hnone | hpushed | hadmits := queues_said (s := s) hqueues
          ((hinv.pushes s).passing first hpending)
        · exact .inl hnone
        · exact .inr hpushed
        · exact absurd hadmits (not_admits_of_entered hinv.doors hthread hbefore)
      · obtain hsame | ⟨-, item, except, hnew, hsaid⟩ := @current_exec config _ _ s _ t _ hsteady'
        · exact .inl fun last hlast ↦ right_of_current hsame hlast
        · exact .inr ⟨_, hnew, hsaid, fun _ _ heq ↦ nomatch heq⟩
    · exact hinv.informed_admits hthread hsteady' hadmits hopen

/-- **Every step keeps what is kept of the settings.** -/
theorem SettingsInv.step {event : Event} (hinv : h.SettingsInv c) (hsteady : SteadySettings c event h) :
    (step config event h).SettingsInv c where
  tended := hinv.tended.step
  doors := hinv.doors.step hsteady.idsLeft
  urgent := hinv.urgent.step
  pushes s := (hinv.pushes s).step hinv.doors
  truthful s := (hinv.truthful s).step hinv.tended (hinv.pushes s).passing fun t full first rest heq hthread ↦ by
    subst heq
    exact (current_exec (hsteady first (by rw [hthread]; rfl))).imp_right And.left
  unheard := hinv.unheard_step
  informed := hinv.informed_step hsteady

theorem settingsInv_new : new.SettingsInv c where
  tended := tended_new
  doors := doors_new
  urgent := urgentRelays_new
  pushes _ := pushes_new
  truthful _ _ hjob := absurd hjob.choose_spec List.not_mem_nil
  unheard _ _ _ := rfl
  informed s hentered := by
    obtain hin | ⟨start, participant, k, -, hk, hjobs⟩ := hentered
    · exact absurd rfl hin
    · have hlength := congrArg List.length hjobs
      rw [length_entry_drop] at hlength
      simp only [new, List.length_nil] at hlength
      omega

/-! ## A client is told the settings -/

/-- Once every thread is idle and everything is written, **the last that a client in the session was told of
each setting** is what the host keeps. -/
def SettingsTold (c : Nat) (h : Host) : Prop :=
  h.Settled → c ∈ h.listed → (h.conn c).Admitted → (h.conn c).closing = false →
    ∀ s : Setting, s.Right h ((h.conn c).written.filterMap s.said).getLast?

/-- **A joining client gets the settings** of the session in every state that is reached, when they are
changed one announcement at a time, what it is sent as it enters finds room, and a start state that is
changed meanwhile is still to be announced. -/
theorem settingsTold_of_steady {events : List Event}
    (h : Runs.Along (step config) (SteadySettings c) events new) :
    (Runs.run (step config) events new).SettingsTold c := by
  have hinv := Runs.run_along (fun _ _ hinv hsteady ↦ SettingsInv.step hinv hsteady) h
    (settingsInv_new (c := c))
  generalize Runs.run (step config) events new = h' at hinv ⊢
  intro hsettled hlisted hadmitted hopen s
  have hright : s.Right h' ((h'.conn c).heard s.said).getLast? :=
    (hinv.informed s (.inl hadmitted) hopen).right hsettled.1
  rwa [Conn.heard, (hsettled.2 c hlisted).pipeline] at hright

/-- The host's frontend asks something of the session, which is done. -/
def calls (call : HostCall) : List Event := .call call :: advances .frontend 6

/-- The host changes every setting while a client is in the session. -/
theorem settingsTold_changed :
    (Runs.run (step smallSession)
      (admission 0 ++ calls (.setSyncPause ⟨true, false, true⟩) ++ calls (.sendPause true) ++
        calls (.setStartState (some ⟨zeroHash, [1]⟩)) ++ delivers 0 12) new).SettingsTold 0 :=
  settingsTold_of_steady (by decide +kernel)

/-- A client says `Hello`, and the host sets a start state before the client gets the lock. -/
def startingMeanwhile : List Event :=
  .connect :: .advance .accept false ::
    .receive 0 (.hello protocolVersion 7 "" "Player" 2 gameBoyGame) none false ::
      .advance (.reader 0) false :: calls (.setStartState (some ⟨zeroHash, [1]⟩)) ++
        advances (.reader 0) 8 ++ delivers 0 12

/-- **A start state that is set meanwhile** is neither sent to the client that enters nor announced to it. -/
theorem stale_start_state :
    ¬ (Runs.run (step smallSession) startingMeanwhile new).SettingsTold 0 := by
  intro h
  have hsettled : (Runs.run (step smallSession) startingMeanwhile new).Settled :=
    tended_run.settled (by decide +kernel) (by decide +kernel)
  have hlast : ((Host.conn (Runs.run (step smallSession) startingMeanwhile new) 0).written.filterMap
      (Setting.said .start)).getLast? = none := by decide +kernel
  have hstart : Setting.current .start (Runs.run (step smallSession) startingMeanwhile new) =
      .start (some ⟨zeroHash, [1]⟩) := by decide +kernel
  have hright := h hsettled (by decide +kernel) (by decide +kernel) (by decide +kernel) .start
  rw [hlast, Setting.Right, hstart] at hright
  obtain hright | ⟨-, hright⟩ := hright <;> cases hright

end Host

end PlayTogether

end SuperShuckie
