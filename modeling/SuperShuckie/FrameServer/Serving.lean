import SuperShuckie.FrameServer.Answers

/-!
# The server answers every request

A walk ends if the core gets anywhere (`ServedCore.Progresses`).  With this, every action of the
server ends, whatever arrives while it works, and `server_answers` follows from one specification
for each of them.
-/

set_option autoImplicit false

namespace SuperShuckie.FrameServer

open Act ByteFormat

variable {C : Type} {E : ServedCore C}

/-- The core gets to every frame, unless the replay stalls first. -/
structure ServedCore.Progresses (E : ServedCore C) : Prop where
  hidden : ∀ c target, ∃ n, target ≤ E.totalFrames (E.runUnlockedHidden^[n] c) ∨
    E.isReplayStalled (E.runUnlockedHidden^[n] c) = true
  drawn : ∀ c target, ∃ n, target ≤ E.totalFrames (E.runUnlocked^[n] c) ∨
    E.isReplayStalled (E.runUnlocked^[n] c) = true
  audible : ∀ c target, ∃ n, target ≤ E.totalFrames (E.runUnlockedAudible^[n] c) ∨
    E.isReplayStalled (E.runUnlockedAudible^[n] c) = true

/-! ## Working on a request -/

/-- The reply, if it answers a request. -/
def Sent.answered : Sent → Option Reply
  | .answer reply => some reply
  | .complaint _ => none

/-- What has been answered. -/
def Server.answers (σ : Server C) : List Reply := σ.out.filterMap Sent.answered

/-- What is still to be handled. -/
def Server.waiting (σ : Server C) : List Inbound :=
  σ.pending.map Inbound.request ++ σ.channel.flatten

/-- The server works on a request: `later` came after it, and `before` has been answered. -/
structure Working (later : List Inbound) (before : List Reply) (σ : Server C) : Prop where
  answers : σ.answers = before
  lookedAt : LookedAt later σ.waiting

/-- It has a core to work with, in a state with `P`. -/
structure WorkingOn (later : List Inbound) (before : List Reply) (P : C → Prop) (σ : Server C) :
    Prop extends Working later before σ where
  core : ∃ s c, σ.session = some s ∧ s.core = some c ∧ P c

/-- A walk may stop short: only for a message that supersedes the request is it abandoned. -/
def Stopped (later : List Inbound) (before : List Reply) (id : UInt32) (stop : Stop)
    (σ : Server C) : Prop :=
  WorkingOn later before (fun _ ↦ True) σ ∧
    (stop = .superseded → later.any (Inbound.supersedes id) = true)

variable {later : List Inbound} {before : List Reply} {P Q : C → Prop} {σ : Server C} {id : UInt32}

theorem Working.congr {σ' : Server C} (h : Working later before σ) (hout : σ'.out = σ.out)
    (hpending : σ'.pending = σ.pending) (hchannel : σ'.channel = σ.channel) :
    Working later before σ' := by
  refine ⟨?_, ?_⟩
  · rw [Server.answers, hout]
    exact h.answers
  · rw [Server.waiting, hpending, hchannel]
    exact h.lookedAt

theorem WorkingOn.mono (h : WorkingOn later before P σ) (hPQ : ∀ c, P c → Q c) :
    WorkingOn later before Q σ := by
  obtain ⟨s, c, hs, hc, hP⟩ := h.core
  exact ⟨h.toWorking, s, c, hs, hc, hPQ c hP⟩

theorem WorkingOn.any (h : WorkingOn later before P σ) :
    WorkingOn later before (fun _ ↦ True) σ := h.mono fun _ _ ↦ trivial

theorem working_reply (h : Working later before σ) (r : Reply) :
    Working later (before ++ [r]) (σ.send (.answer r)) := by
  refine ⟨?_, h.lookedAt⟩
  rw [← h.answers, Server.answers, Server.send, List.filterMap_append]
  rfl

/-! ## Polling -/

theorem takeArrived_spec (items : List Inbound) (σ : Server C) :
    (takeArrived items σ).answers = σ.answers ∧
      (takeArrived items σ).session = σ.session ∧
      (takeArrived items σ).channel = σ.channel ∧
      LookedAt (σ.pending.map Inbound.request ++ (items ++ σ.channel.flatten))
        (takeArrived items σ).waiting := by
  induction items generalizing σ with
  | nil => exact ⟨rfl, rfl, rfl, .refl _⟩
  | cons item items ih =>
    have hkeep : ∀ (requests : List Request) {a b : List Inbound}, LookedAt a b →
        LookedAt (requests.map Inbound.request ++ a) (requests.map Inbound.request ++ b) := by
      intro requests a b h
      induction requests with
      | nil => exact h
      | cons r requests ih => exact .keep _ ih
    cases item with
    | request r =>
      obtain ⟨hanswers, hsession, hchannel, hlooked⟩ := ih { σ with pending := σ.pending ++ [r] }
      refine ⟨hanswers, hsession, hchannel, ?_⟩
      rw [List.map_append, List.append_assoc] at hlooked
      exact hlooked
    | malformed message =>
      obtain ⟨hanswers, hsession, hchannel, hlooked⟩ := ih (σ.send (.complaint message))
      refine ⟨hanswers.trans ?_, hsession, hchannel, ?_⟩
      · rw [Server.answers, Server.send, List.filterMap_append]
        exact List.append_nil _
      · exact (hkeep σ.pending (.drop (.refl _))).trans hlooked
    | ended =>
      refine ⟨rfl, rfl, rfl, ?_⟩
      show LookedAt _ ((σ.pending ++ [Request.close]).map Inbound.request ++ σ.channel.flatten)
      rw [List.map_append, List.append_assoc]
      exact hkeep σ.pending (.ended (by simp) fun item hitem ↦ .inl (List.mem_append_right _ hitem))

/-- A poll leaves the session alone, and finds a request superseded only if it is. -/
theorem poll_spec (h : Working later before σ) (id : UInt32) :
    ∃ b σ', poll id σ = .ok b σ' ∧ Working later before σ' ∧ σ'.session = σ.session ∧
      (b = true → later.any (Inbound.supersedes id) = true) := by
  obtain ⟨hanswers, hsession, -, hlooked⟩ :=
    takeArrived_spec (σ.channel.headD []) { σ with channel := σ.channel.tail }
  have hflatten : σ.channel.headD [] ++ σ.channel.tail.flatten = σ.channel.flatten := by
    cases σ.channel <;> rfl
  have hworking : Working later before
      (takeArrived (σ.channel.headD []) { σ with channel := σ.channel.tail }) := by
    refine ⟨hanswers.trans h.answers, h.lookedAt.trans ?_⟩
    rw [Server.waiting, ← hflatten]
    exact hlooked
  refine ⟨_, _, rfl, hworking, hsession, fun hany ↦ hworking.lookedAt.supersedes ?_⟩
  obtain ⟨r, hr, hsupersedes⟩ := List.any_eq_true.mp hany
  exact List.any_eq_true.mpr ⟨.request r, List.mem_append_left _ (List.mem_map_of_mem hr),
    hsupersedes⟩

/-! ## The parts of a walk -/

section

variable {F : Stop → Server C → Prop}

theorem total_poll (id : UInt32) : Total (WorkingOn later before P) (fun _ ↦ poll id)
    (fun b σ ↦ WorkingOn later before P σ ∧
      (b = true → later.any (Inbound.supersedes id) = true)) F := by
  refine .const fun σ h ↦ ?_
  obtain ⟨b, σ', hrun, hworking, hsession, hb⟩ := poll_spec h.toWorking id
  rw [hrun]
  exact ⟨⟨hworking, hsession ▸ h.core⟩, hb⟩

theorem total_reply (r : Reply) : Total (Working later before) (fun _ ↦ reply r)
    (fun _ ↦ Working later (before ++ [r])) F :=
  .modify fun _ h ↦ working_reply h r

theorem total_session : Total (WorkingOn later before P) (fun _ ↦ session)
    (fun _ ↦ WorkingOn later before P) F := by
  refine .const fun σ h ↦ ?_
  obtain ⟨s, c, hs, -⟩ := h.core
  have hrun : session σ = .ok s σ := by rw [session, get_bind_apply, hs]; rfl
  rw [hrun]
  exact h

theorem total_core : Total (WorkingOn later before P) (fun _ ↦ core)
    (fun c ↦ WorkingOn later before fun c' ↦ c' = c ∧ P c) F := by
  refine .const fun σ h ↦ ?_
  obtain ⟨s, c, hs, hc, hP⟩ := h.core
  have hrun : core σ = .ok c σ := by
    rw [core, bind_apply, session, get_bind_apply, hs]
    cases s
    cases hc
    rfl
  rw [hrun]
  exact ⟨h.toWorking, s, c, hs, hc, rfl, hP⟩

theorem total_setCore (c : C) : Total (WorkingOn later before P) (fun _ ↦ setCore c)
    (fun _ ↦ WorkingOn later before (· = c)) F := by
  refine .modify fun σ h ↦ ⟨h.toWorking.congr rfl rfl rfl, ?_⟩
  obtain ⟨s, _, hs, -⟩ := h.core
  exact ⟨{ s with core := some c }, c, by rw [hs]; rfl, rfl, rfl⟩

theorem total_modifySession {f : Session C → Session C} (hf : ∀ s, (f s).core = s.core) :
    Total (WorkingOn later before P) (fun _ ↦ modifySession f)
      (fun _ ↦ WorkingOn later before P) F := by
  refine .modify fun σ h ↦ ⟨h.toWorking.congr rfl rfl rfl, ?_⟩
  obtain ⟨s, c, hs, hc, hP⟩ := h.core
  exact ⟨f s, c, by rw [hs]; rfl, (hf s).trans hc, hP⟩

theorem total_setDrawn (drawn : Option UInt64) : Total (WorkingOn later before P)
    (fun _ ↦ setDrawn drawn) (fun _ ↦ WorkingOn later before P) F :=
  total_modifySession fun _ ↦ rfl

end

theorem stopped_failed (h : WorkingOn later before P σ) (message : String) :
    Stopped later before id (.failed message) σ :=
  ⟨h.any, fun h ↦ by cases h⟩

theorem total_attemptCore {α : Type} (f : C → Except String α × C) :
    Total (WorkingOn later before P) (fun _ ↦ attemptCore f)
      (fun _ ↦ WorkingOn later before fun _ ↦ True) (Stopped later before id) := by
  refine total_core.bind fun c ↦ (total_setCore (f c).2).bind fun _ ↦ ?_
  cases hresult : (f c).1 with
  | ok a =>
    dsimp only
    exact .pure fun _ h ↦ h.any
  | error message =>
    dsimp only
    exact .fail fun _ h ↦ stopped_failed h message

theorem total_loadKeyframeBefore (target : UInt64) :
    Total (WorkingOn later before P) (fun _ ↦ loadKeyframeBefore E target)
      (fun _ ↦ WorkingOn later before fun _ ↦ True) (Stopped later before id) :=
  (total_setDrawn none).bind fun _ ↦ (total_attemptCore _).bind fun _ ↦ .pure fun _ h ↦ h

/-- After a run of a walk, the channel may be checked. -/
theorem total_pollTurn (id : UInt32) (runs : UInt32) {J : C → Prop} :
    Total (WorkingOn later before J)
      (fun _ ↦ if runs % pollEvery = 0 then do
          if ← poll id then Act.fail .superseded else pure (.inl runs)
        else (pure (.inl runs) : ServerAction C (UInt32 ⊕ Unit)))
      (fun r σ ↦ r = .inl runs ∧ WorkingOn later before J σ) (Stopped later before id) := by
  by_cases hpoll : runs % pollEvery = 0
  · simp only [if_pos hpoll]
    refine (total_poll id).bind fun b ↦ ?_
    cases b with
    | true => exact .fail fun σ h ↦ ⟨h.1.any, fun _ ↦ h.2 rfl⟩
    | false => exact .pure fun σ h ↦ ⟨rfl, h.1⟩
  · simp only [if_neg hpoll]
    exact .pure fun σ h ↦ ⟨rfl, h⟩

/-- The walk has `k` more runs to make at most. -/
def Within (E : ServedCore C) (run : C → C) (target : UInt64) (k : Nat) (c : C) : Prop :=
  target ≤ E.totalFrames (run^[k] c) ∨ E.isReplayStalled (run^[k] c) = true

theorem Within.next {run : C → C} {target : UInt64} {k : Nat} {c : C}
    (h : Within E run target k c) (hframes : ¬ target ≤ E.totalFrames c)
    (hstalled : ¬ E.isReplayStalled c = true) : ∃ k' < k, Within E run target k' (run c) := by
  cases k with
  | zero => exact (h.elim hframes hstalled).elim
  | succ k => exact ⟨k, Nat.lt_succ_self k, h⟩

/-- One more run: the core is set to what it makes of it, and is nearer its target. -/
theorem total_runTurn (run : C → C) {target : UInt64} {k : Nat} {c : C}
    (hframes : ¬ target ≤ E.totalFrames c) (hstalled : ¬ E.isReplayStalled c = true)
    {α : Type} {rest : ServerAction C α} {R : α → Server C → Prop} {F : Stop → Server C → Prop}
    (hrest : ∀ k' < k, Within E run target k' (run c) →
      Total (WorkingOn later before (Within E run target k')) (fun _ ↦ rest) R F) :
    Total (WorkingOn later before fun c' ↦ c' = c ∧ Within E run target k c)
      (fun _ ↦ setCore (run c) >>= fun _ ↦ rest) R F := by
  by_cases hnext : ∃ k' < k, Within E run target k' (run c)
  · obtain ⟨k', hlt, hwithin⟩ := hnext
    refine (total_setCore (run c)).bind fun _ ↦ (hrest k' hlt hwithin).pre (fun σ h ↦ ?_)
    exact h.mono fun c' hc' ↦ hc' ▸ hwithin
  · refine .const fun σ h ↦ ?_
    obtain ⟨_, _, -, -, -, hwithin⟩ := h.core
    exact (hnext (hwithin.next hframes hstalled)).elim

theorem total_stepHiddenTo (hE : E.Progresses) (id : UInt32) (target : UInt64) :
    Total (WorkingOn later before P) (fun n ↦ stepHiddenTo E id target n)
      (fun _ ↦ WorkingOn later before fun _ ↦ True) (Stopped later before id) := by
  refine (Total.loop (fun k (_ : UInt32) ↦
    WorkingOn later before (Within E E.runUnlockedHidden target k)) (fun k runs ↦ ?_) 0).pre (fun σ h ↦ ?_)
  · refine total_core.bind fun c ↦ ?_
    by_cases hframes : target ≤ E.totalFrames c
    · simp only [if_pos hframes]
      exact .pure fun _ h ↦ h.any
    · simp only [if_neg hframes]
      by_cases hstalled : E.isReplayStalled c = true
      · simp only [if_pos hstalled]
        exact .fail fun _ h ↦ stopped_failed h _
      · simp only [if_neg hstalled]
        refine (total_setDrawn none).bind fun _ ↦
          total_runTurn E.runUnlockedHidden hframes hstalled ?_
        intro k' hlt _
        refine (total_pollTurn id (runs + 1)).post (fun r σ h ↦ ?_)
        obtain ⟨rfl, h⟩ := h
        exact ⟨k', hlt, h⟩
  · obtain ⟨s, c, hs, hc, -⟩ := h.core
    obtain ⟨k, hk⟩ := hE.hidden c target
    exact ⟨k, h.toWorking, s, c, hs, hc, hk⟩

/-- A core that may not have drawn the frame it has run. -/
theorem total_whenPresented (drawn : C → Prop) [DecidablePred drawn] (c : C) (target : UInt64)
    (message : String) : Total (WorkingOn later before P)
      (fun _ ↦ if drawn c then setDrawn (some target) else Act.fail (.failed message))
      (fun _ ↦ WorkingOn later before fun _ ↦ True) (Stopped later before id) := by
  by_cases h : drawn c
  · simp only [if_pos h]
    exact (total_setDrawn _).post (fun _ _ h ↦ h.any)
  · simp only [if_neg h]
    exact .fail fun _ h ↦ stopped_failed h _

theorem total_drawNext (hE : E.Progresses) (target : UInt64) :
    Total (WorkingOn later before P) (fun n ↦ drawNext E target n)
      (fun _ ↦ WorkingOn later before fun _ ↦ True) (Stopped later before id) := by
  refine (total_setDrawn none).bind fun _ ↦ Total.bind (Q := fun _ ↦
    WorkingOn later before fun _ ↦ True) ?_ fun _ ↦ total_core.bind fun c ↦
      total_whenPresented (fun c ↦ E.lastFramePresented c = true) c target _
  refine (Total.loop (fun k (_ : Unit) ↦
    WorkingOn later before (Within E E.runUnlocked target k)) (fun k _ ↦ ?_) ()).pre (fun σ h ↦ ?_)
  · refine total_core.bind fun c ↦ ?_
    by_cases hframes : target ≤ E.totalFrames c
    · simp only [if_pos hframes]
      exact .pure fun _ h ↦ h.any
    · simp only [if_neg hframes]
      by_cases hstalled : E.isReplayStalled c = true
      · simp only [if_pos hstalled]
        exact .fail fun _ h ↦ stopped_failed h _
      · simp only [if_neg hstalled]
        refine total_runTurn E.runUnlocked hframes hstalled ?_
        intro k' hlt _
        exact .pure fun _ h ↦ ⟨k', hlt, h⟩
  · obtain ⟨s, c, hs, hc, -⟩ := h.core
    obtain ⟨k, hk⟩ := hE.drawn c target
    exact ⟨k, h.toWorking, s, c, hs, hc, hk⟩

theorem total_drawFromEarlier (target : UInt64) :
    Total (WorkingOn later before P) (fun _ ↦ drawFromEarlier E target)
      (fun _ ↦ WorkingOn later before fun _ ↦ True) (Stopped later before id) :=
  (total_setDrawn none).bind fun _ ↦ (total_attemptCore _).bind fun _ ↦ total_core.bind fun c ↦
    total_whenPresented (fun c ↦ E.totalFrames c = target ∧ E.lastFramePresented c = true) c target
      _

theorem total_positionDrawn (hE : E.Progresses) (id : UInt32) (target : UInt64) :
    Total (WorkingOn later before P) (fun n ↦ positionDrawn E id target n)
      (fun _ ↦ WorkingOn later before fun _ ↦ True) (Stopped later before id) := by
  refine total_session.bind fun s ↦ total_core.bind fun c ↦ ?_
  by_cases hdrawn : E.totalFrames c = target ∧ s.drawn = some target
  · simp only [if_pos hdrawn]
    exact .pure fun _ h ↦ h.any
  · simp only [if_neg hdrawn]
    refine (Total.when (fun _ ↦ total_loadKeyframeBefore target) fun _ _ h ↦ h.any).bind fun _ ↦
      total_core.bind fun c ↦ (total_stepHiddenTo hE id _).bind fun _ ↦
        (total_drawNext hE target).bind fun _ ↦ total_core.bind fun c ↦ ?_
    exact Total.when (fun _ ↦ total_drawFromEarlier target) fun _ _ h ↦ h.any

theorem total_positionHidden (hE : E.Progresses) (id : UInt32) (target : UInt64) :
    Total (WorkingOn later before P) (fun n ↦ positionHidden E id target n)
      (fun _ ↦ WorkingOn later before fun _ ↦ True) (Stopped later before id) := by
  refine total_core.bind fun c ↦ ?_
  by_cases hthere : E.totalFrames c = target
  · simp only [if_pos hthere]
    exact .pure fun _ h ↦ h.any
  · simp only [if_neg hthere]
    exact (Total.when (fun _ ↦ total_loadKeyframeBefore target) fun _ _ h ↦ h.any).bind fun _ ↦
      total_stepHiddenTo hE id target

/-! ## Requests -/

/-- The request has been answered. -/
def Replied (later : List Inbound) (before : List Reply) (request : Request) (σ : Server C) :
    Prop :=
  ∃ block, Answered later request block ∧ Working later (before ++ block) σ

section

variable {request : Request} {F : Stop → Server C → Prop}

theorem total_final {final : Reply} (hfinal : FinalReply later request final)
    (hnotDone : ∀ id, final ≠ .done id) :
    Total (Working later before) (fun _ ↦ reply final) (fun _ ↦ Replied later before request) F :=
  (total_reply final).post (fun _ _ h ↦ ⟨_, .single hfinal hnotDone, h⟩)

section

variable (hwalks : request.walks = true) (hid : request.id = id)
include hwalks hid

/-- A request that cannot be met. -/
theorem total_failed (message : String) :
    Total (Working later before) (fun _ ↦ reply (.error id message))
      (fun _ ↦ Replied later before request) F :=
  hid ▸ total_final (.failed hwalks message) fun _ h ↦ by cases h

/-- A request whose walk stopped short. -/
theorem total_stopped (stop : Stop) :
    Total (Stopped later before id stop) (fun _ ↦ reply (stop.reply id))
      (fun _ ↦ Replied later before request) F := by
  subst hid
  cases stop with
  | superseded =>
    refine .const fun σ h ↦ ⟨_, .single (.cancelled hwalks (h.2 rfl)) fun _ h ↦ (by cases h), ?_⟩
    exact working_reply h.1.toWorking _
  | failed message =>
    exact (total_failed hwalks rfl message).pre (fun _ h ↦ h.1.toWorking)

/-- A request that is polled for. -/
theorem total_polled {work : Nat → ServerAction C Unit}
    (hwork : Total (WorkingOn later before P) work (fun _ ↦ Replied later before request) F) :
    Total (WorkingOn later before P)
      (fun n ↦ poll id >>= fun b ↦ if b = true then reply (.cancelled id) else work n)
      (fun _ ↦ Replied later before request) F := by
  refine (total_poll id).bind fun b ↦ ?_
  cases b with
  | true =>
    simp only [if_true]
    exact (total_stopped hwalks hid .superseded).pre (fun _ h ↦ ⟨h.1.any, fun _ ↦ h.2 trivial⟩)
  | false =>
    simp only [Bool.false_eq_true, if_false]
    exact hwork.pre (fun _ h ↦ h.1)

theorem total_whenUsable {work : Nat → ServerAction C Unit}
    (hwork : Total (WorkingOn later before fun _ ↦ True) work
      (fun _ ↦ Replied later before request) F) :
    Total (Working later before) (fun n ↦ whenUsable id (work n))
      (fun _ ↦ Replied later before request) F := by
  have hpolled := total_polled hwalks hid hwork
  refine .get_bind (fun σ h ↦ ?_) fun σ {m n} hmn ↦ ?_
  · cases husable : usable σ with
    | some message =>
      dsimp only
      exact (total_failed hwalks hid message).pre (fun σ' h' ↦ h' ▸ h)
    | none =>
      dsimp only
      refine hpolled.pre (fun σ' h' ↦ ?_)
      subst h'
      refine ⟨h, ?_⟩
      rw [usable] at husable
      cases hsession : σ'.session with
      | none =>
        rw [hsession] at husable
        cases husable
      | some s =>
        rw [hsession] at husable
        dsimp only at husable
        cases hcore : s.core with
        | none =>
          rw [hcore] at husable
          cases husable
        | some c => exact ⟨s, c, rfl, hcore, trivial⟩
  · cases usable σ with
    | some message => exact .refl _
    | none => exact hpolled.mono hmn

end

theorem total_afterDrawing (hE : E.Progresses) (hwalks : request.walks = true)
    (hid : request.id = id) (index : UInt64) {work : ServerAction C Unit}
    (hwork : Total (WorkingOn later before fun _ ↦ True) (fun _ ↦ work)
      (fun _ ↦ Replied later before request) F) :
    Total (WorkingOn later before P) (fun n ↦ afterDrawing E id index n work)
      (fun _ ↦ Replied later before request) F := by
  refine Total.bind ((total_positionDrawn hE id _).attempt.never_fails) fun r ↦ ?_
  cases r with
  | ok u => exact hwork
  | error stop => exact total_stopped hwalks hid stop

theorem total_sendFrame (id : UInt32) (index : UInt64) :
    Total (WorkingOn later before P) (fun _ ↦ sendFrame E id index)
      (fun _ σ ↦ ∃ pixels, WorkingOn later (before ++ [.frame id index pixels]) P σ) F := by
  refine total_session.bind fun s ↦ total_core.bind fun c ↦ .modify fun σ h ↦ ?_
  obtain ⟨s', c', hs, hc, rfl, hP⟩ := h.core
  exact ⟨_, working_reply h.toWorking _, s', c', hs, hc, hP⟩

/-- Answer once there is a picture, out of the core. -/
theorem total_answer (answer : C → Reply)
    (hfinal : ∀ c, FinalReply later request (answer c)) (hnotDone : ∀ c id, answer c ≠ .done id) :
    Total (WorkingOn later before P) (fun _ ↦ core >>= fun c ↦ reply (answer c))
      (fun _ ↦ Replied later before request) F :=
  total_core.bind fun c ↦ (total_final (hfinal c) (hnotDone c)).pre (fun _ h ↦ h.toWorking)

/-- Work that is done unless the request asks for something that is not there. -/
theorem total_unless {c : Prop} [Decidable c] {work : Nat → ServerAction C Unit}
    (hwalks : request.walks = true) (hid : request.id = id) (message : String)
    (hwork : Total (WorkingOn later before P) work (fun _ ↦ Replied later before request) F) :
    Total (WorkingOn later before P)
      (fun n ↦ if c then reply (.error id message) else work n)
      (fun _ ↦ Replied later before request) F := by
  by_cases h : c
  · simp only [if_pos h]
    exact (total_failed hwalks hid message).pre (fun _ h ↦ h.toWorking)
  · simp only [if_neg h]
    exact hwork

theorem total_frame (hE : E.Progresses) (id : UInt32) (index : UInt64) :
    Total (Working later before) (fun n ↦ frame E id index n)
      (fun _ ↦ Replied later before (.frame id index)) F := by
  have hwalks : (Request.frame id index).walks = true := rfl
  refine total_whenUsable hwalks rfl (total_session.bind fun s ↦ total_unless hwalks rfl _
    (total_afterDrawing hE hwalks rfl index ((total_sendFrame id index).post (fun _ σ h ↦ ?_))))
  obtain ⟨pixels, h⟩ := h
  exact ⟨_, .single (.frame pixels) fun _ h ↦ (by cases h), h.toWorking⟩

theorem total_memory (hE : E.Progresses) (id : UInt32) (index : UInt64)
    (blocks : List (UInt32 × UInt32)) :
    Total (Working later before) (fun n ↦ memory E id index blocks n)
      (fun _ ↦ Replied later before (.memory id index blocks)) F := by
  have hwalks : (Request.memory id index blocks).walks = true := rfl
  exact total_whenUsable hwalks rfl (total_session.bind fun s ↦ total_unless hwalks rfl _
    (total_unless hwalks rfl _ (total_afterDrawing hE hwalks rfl index
      (total_answer _ (fun c ↦ .memory (readBlocks E c blocks)) fun _ _ h ↦ by cases h))))

theorem total_stats (hE : E.Progresses) (id : UInt32) (index : UInt64) :
    Total (Working later before) (fun n ↦ stats E id index n)
      (fun _ ↦ Replied later before (.stats id index)) F := by
  have hwalks : (Request.stats id index).walks = true := rfl
  exact total_whenUsable hwalks rfl (total_session.bind fun s ↦ total_unless hwalks rfl _
    (total_afterDrawing hE hwalks rfl index
      (total_answer _ (fun c ↦ .stats (E.statsJson c)) fun _ _ h ↦ by cases h)))

/-! ### Runs -/

theorem pictureReplies_append (id : UInt32) (index : UInt64) (pictures : List Bytes)
    (pixels : Bytes) :
    pictureReplies id index (pictures ++ [pixels]) = pictureReplies id index pictures ++
      [.frame id (index + UInt64.ofNat pictures.length) pixels] := by
  induction pictures generalizing index with
  | nil =>
    have hzero : index + UInt64.ofNat 0 = index := UInt64.add_zero index
    rw [List.length_nil, hzero]
    rfl
  | cons first pictures ih =>
    have hnext : index + 1 + UInt64.ofNat pictures.length =
        index + UInt64.ofNat (pictures.length + 1) := by
      rw [UInt64.ofNat_add, UInt64.add_assoc, UInt64.add_comm 1]
      rfl
    rw [List.cons_append, pictureReplies, ih, hnext]
    rfl

/-- A run that has sent some pictures ends with a final reply. -/
theorem replied_run {start stop : UInt64} {pictures : List Bytes} {final : Reply}
    (h : Working later (before ++ pictureReplies id start pictures) σ)
    (hfinal : FinalReply later (.run id start stop) final)
    (hlength : pictures.length ≤ stop.toNat - start.toNat)
    (hdone : final = .done id → pictures.length = stop.toNat - start.toNat) :
    Replied later before (.run id start stop) (σ.send (.answer final)) := by
  refine ⟨_, .run hfinal hlength hdone, ?_⟩
  rw [← List.append_assoc]
  exact working_reply h final

theorem total_runFrom (hE : E.Progresses) (id : UInt32) {start stop : UInt64} (count : Nat)
    (pictures : List Bytes) (hcount : pictures.length + count = stop.toNat - start.toNat) :
    Total (WorkingOn later (before ++ pictureReplies id start pictures) fun _ ↦ True)
      (fun n ↦ runFrom E id n count (start + UInt64.ofNat pictures.length))
      (fun _ ↦ Replied later before (.run id start stop)) F := by
  have hwalks : (Request.run id start stop).walks = true := rfl
  have hcancelled : ∀ {pictures : List Bytes} {σ : Server C},
      pictures.length ≤ stop.toNat - start.toNat →
      Stopped later (before ++ pictureReplies id start pictures) id .superseded σ →
      Replied later before (.run id start stop) (σ.send (.answer (.cancelled id))) :=
    fun hlength h ↦ replied_run h.1.toWorking (.cancelled hwalks (h.2 rfl)) hlength
      fun h ↦ by cases h
  induction count generalizing pictures with
  | zero => exact .modify fun σ h ↦ replied_run h.toWorking .done (by omega) fun _ ↦ hcount
  | succ count ih =>
    refine Total.bind ((total_positionDrawn hE id _).attempt.never_fails) fun r ↦ ?_
    cases r with
    | error stopped =>
      refine .modify fun σ h ↦ ?_
      cases stopped with
      | superseded => exact hcancelled (by omega) h
      | failed message =>
        exact replied_run h.1.toWorking (.failed hwalks message) (by omega) fun h ↦ by cases h
    | ok u =>
      refine (total_sendFrame id _).bind fun _ ↦ .exists fun pixels ↦ ?_
      rw [List.append_assoc, ← pictureReplies_append]
      have hlength : (pictures ++ [pixels]).length = pictures.length + 1 := List.length_append
      have hindex : start + UInt64.ofNat pictures.length + 1 =
          start + UInt64.ofNat (pictures ++ [pixels]).length := by
        rw [hlength, UInt64.ofNat_add, ← UInt64.add_assoc]
        rfl
      refine (total_poll id).bind fun b ↦ ?_
      cases b with
      | true =>
        exact .modify fun σ h ↦ hcancelled (by omega) ⟨h.1.any, fun _ ↦ h.2 rfl⟩
      | false =>
        simp only [Bool.false_eq_true, if_false, hindex]
        exact (ih (pictures ++ [pixels]) (by omega)).pre (fun _ h ↦ h.1)

theorem total_run (hE : E.Progresses) (id : UInt32) (start stop : UInt64) :
    Total (Working later before) (fun n ↦ run E id start stop n)
      (fun _ ↦ Replied later before (.run id start stop)) F := by
  have hwalks : (Request.run id start stop).walks = true := rfl
  refine total_whenUsable hwalks rfl (total_session.bind fun s ↦ total_unless hwalks rfl _ ?_)
  have hstart : start + UInt64.ofNat ([] : List Bytes).length = start := UInt64.add_zero start
  have hbefore : before ++ pictureReplies id start [] = before := List.append_nil before
  have hrun : Total (WorkingOn later (before ++ pictureReplies id start []) fun _ ↦ True)
      (fun n ↦ runFrom E id n (stop.toNat - start.toNat)
        (start + UInt64.ofNat ([] : List Bytes).length))
      (fun _ ↦ Replied later before (.run id start stop)) F :=
    total_runFrom hE id (stop.toNat - start.toNat) [] (Nat.zero_add _)
  rw [hstart, hbefore] at hrun
  exact hrun

/-! ### Sound -/

theorem total_prepareAudio (frames : UInt32) :
    Total (WorkingOn later before P) (fun _ ↦ prepareAudio E frames)
      (fun _ ↦ WorkingOn later before fun _ ↦ True) F := by
  refine total_core.bind fun c ↦ Total.bind (Q := fun _ ↦ WorkingOn later before fun _ ↦ True)
    (Total.when (fun _ ↦ (total_setCore _).post (fun _ _ h ↦ h.any)) fun _ _ h ↦ h.any) fun _ ↦ total_session.bind fun s ↦ ?_
  refine Total.bind (Q := fun _ ↦ WorkingOn later before fun _ ↦ True) ?_ fun _ ↦
    total_core.bind fun c ↦ (total_setCore _).post (fun _ _ h ↦ h.any)
  refine Total.when (fun _ ↦ ?_) fun _ _ h ↦ h
  refine Total.bind total_core fun c ↦ (total_setCore _).bind fun _ ↦ ?_
  exact (total_modifySession (f := fun s ↦ { s with audio := true }) fun _ ↦ rfl).post (fun _ _ h ↦ h.any)

theorem total_audible (hE : E.Progresses) (id : UInt32) (target : UInt64) :
    Total (WorkingOn later before P) (fun n ↦ Act.loop (audibleTurn E id target) n 0)
      (fun _ ↦ WorkingOn later before fun _ ↦ True) (Stopped later before id) := by
  refine (Total.loop (fun k (_ : UInt32) ↦
    WorkingOn later before (Within E E.runUnlockedAudible target k)) (fun k runs ↦ ?_) 0).pre (fun σ h ↦ ?_)
  · refine total_core.bind fun c ↦ ?_
    by_cases hframes : target ≤ E.totalFrames c
    · simp only [if_pos hframes]
      exact .pure fun _ h ↦ h.any
    · simp only [if_neg hframes]
      by_cases hstalled : E.isReplayStalled c = true
      · simp only [if_pos hstalled]
        exact .fail fun _ h ↦ stopped_failed h _
      · simp only [if_neg hstalled]
        refine total_runTurn E.runUnlockedAudible hframes hstalled ?_
        intro k' hlt _
        refine (total_setDrawn _).bind fun _ ↦
          (total_pollTurn id (runs + 1)).post (fun r σ h ↦ ?_)
        obtain ⟨rfl, h⟩ := h
        exact ⟨k', hlt, h⟩
  · obtain ⟨s, c, hs, hc, -⟩ := h.core
    obtain ⟨k, hk⟩ := hE.audible c target
    exact ⟨k, h.toWorking, s, c, hs, hc, hk⟩

theorem total_audio (hE : E.Progresses) (id : UInt32) (firstFrame : UInt64) (frames : UInt32) :
    Total (Working later before) (fun n ↦ audio E id firstFrame frames n)
      (fun _ ↦ Replied later before (.audio id firstFrame frames)) F := by
  have hwalks : (Request.audio id firstFrame frames).walks = true := rfl
  refine total_whenUsable hwalks rfl (total_session.bind fun s ↦ total_unless hwalks rfl _ ?_)
  refine Total.bind ((total_positionHidden hE id _).attempt.never_fails) fun r ↦ ?_
  cases r with
  | error stop => exact total_stopped hwalks rfl stop
  | ok u =>
    refine (total_prepareAudio frames).bind fun _ ↦ Total.bind ((total_audible hE id
      _).attempt.never_fails) fun r ↦ ?_
    cases r with
    | error stop => exact total_stopped hwalks rfl stop
    | ok u =>
      exact total_core.bind fun c ↦ (total_setCore _).bind fun _ ↦
        (total_final (.audio _) fun _ h ↦ by cases h).pre (fun _ h ↦ h.toWorking)

end

end SuperShuckie.FrameServer
