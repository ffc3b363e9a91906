import SuperShuckie.FrameServer.Loop
import SuperShuckie.Lib.Commutes

/-!
# What a cancel changes

A `cancel` says which request it is for.  While the server works on another one it cannot tell
whether the `cancel` is there (`Commutes`), so without any request that it is for, the server does
the same with it as without it.
-/

set_option autoImplicit false

namespace SuperShuckie.FrameServer

open Act ByteFormat

variable {C : Type} {E : ServedCore C}

/-- Messages without the cancels for the request `id`. -/
def withoutCancels (id : UInt32) (items : List Inbound) : List Inbound :=
  items.filter (· ≠ .request (.cancel id))

/-- The server, had it never been sent a cancel for the request `id`. -/
def Server.withoutCancels (id : UInt32) (σ : Server C) : Server C :=
  { σ with
    channel := σ.channel.map (FrameServer.withoutCancels id)
    pending := σ.pending.filter (· ≠ .cancel id) }

/-! ## Working on another request -/

section

variable {cancelled : UInt32}

theorem commutes_reply (r : Reply) :
    Commutes (Server.withoutCancels (C := C) cancelled) (reply r) := .modify fun _ ↦ rfl

theorem commutes_session : Commutes (Server.withoutCancels (C := C) cancelled) session := by
  refine .get_bind (fun _ ↦ rfl) fun σ ↦ ?_
  cases σ.session with
  | some s => exact .pure s
  | none => exact .abort

theorem commutes_core : Commutes (Server.withoutCancels (C := C) cancelled) core := by
  refine commutes_session.bind fun s ↦ ?_
  cases s.core with
  | some c => exact .pure c
  | none => exact .abort

theorem commutes_modifySession (f : Session C → Session C) :
    Commutes (Server.withoutCancels cancelled) (modifySession f) := .modify fun _ ↦ rfl

theorem commutes_setCore (c : C) :
    Commutes (Server.withoutCancels cancelled) (setCore c) := commutes_modifySession _

theorem commutes_setDrawn (drawn : Option UInt64) :
    Commutes (Server.withoutCancels (C := C) cancelled) (setDrawn drawn) :=
  commutes_modifySession _

theorem commutes_attemptCore {α : Type} (f : C → Except String α × C) :
    Commutes (Server.withoutCancels cancelled) (attemptCore f) := by
  refine commutes_core.bind fun c ↦ (commutes_setCore _).bind fun _ ↦ ?_
  cases (f c).1 with
  | ok a => exact .pure a
  | error message => exact .fail _

theorem takeArrived_withoutCancels (items : List Inbound) (σ : Server C) :
    takeArrived (withoutCancels cancelled items) (σ.withoutCancels cancelled) =
      (takeArrived items σ).withoutCancels cancelled := by
  induction items generalizing σ with
  | nil => rfl
  | cons item items ih =>
    by_cases hitem : item = .request (.cancel cancelled)
    · subst hitem
      have hfilter : withoutCancels cancelled (.request (.cancel cancelled) :: items) =
          withoutCancels cancelled items := by simp [withoutCancels]
      have hpending : Server.withoutCancels cancelled
          { σ with pending := σ.pending ++ [.cancel cancelled] } = σ.withoutCancels cancelled := by
        simp [Server.withoutCancels]
      rw [hfilter, takeArrived, ← ih, hpending]
    · have hfilter : withoutCancels cancelled (item :: items) =
          item :: withoutCancels cancelled items := by simp [withoutCancels, hitem]
      rw [hfilter]
      cases item with
      | request r =>
        have hr : r ≠ .cancel cancelled := fun h ↦ hitem (h ▸ rfl)
        have hpending : Server.withoutCancels cancelled
            { σ with pending := σ.pending ++ [r] } =
            { σ.withoutCancels cancelled with
              pending := (σ.withoutCancels cancelled).pending ++ [r] } := by
          simp [Server.withoutCancels, hr]
        rw [takeArrived, takeArrived, ← ih, hpending]
      | malformed message => exact ih (σ.send (.complaint message))
      | ended => simp [takeArrived, Server.withoutCancels]

/-- A poll for another request finds the same. -/
theorem commutes_poll {id : UInt32} (hid : id ≠ cancelled) :
    Commutes (Server.withoutCancels (C := C) cancelled) (poll id) := by
  refine Commutes.bind (.modify fun σ ↦ ?_) fun _ ↦ .get_bind (fun σ ↦ ?_) fun σ ↦ .pure _
  · have hfirst : (σ.channel.map (withoutCancels cancelled)).headD [] =
        withoutCancels cancelled (σ.channel.headD []) := by
      cases σ.channel <;> rfl
    have htail : ({ σ.withoutCancels cancelled with
        channel := (σ.withoutCancels cancelled).channel.tail } : Server C) =
        Server.withoutCancels cancelled { σ with channel := σ.channel.tail } := by
      simp [Server.withoutCancels, List.map_tail]
    rw [htail, ← takeArrived_withoutCancels, ← hfirst]
    rfl
  · have hany : (σ.pending.filter (· ≠ .cancel cancelled)).any (Request.supersedes id) =
        σ.pending.any (Request.supersedes id) := by
      rw [List.any_filter]
      congr 1
      funext r
      by_cases hr : r = .cancel cancelled
      · have hsupersedes : Request.supersedes id (.cancel cancelled) = decide (cancelled = id) := rfl
        rw [hr, hsupersedes, decide_eq_false hid.symm, Bool.and_false]
      · rw [decide_eq_true hr, Bool.true_and]
    show Pure.pure ((σ.pending.filter (· ≠ .cancel cancelled)).any _) = _
    rw [hany]

/-! ## Walks -/

section

variable {id : UInt32}

theorem commutes_stepHiddenTo (hid : id ≠ cancelled) (target : UInt64) (fuel : Nat) :
    Commutes (Server.withoutCancels cancelled) (stepHiddenTo E id target fuel) :=
  .loop (fun _ ↦ commutes_core.bind fun _ ↦ .ite (.pure _) (.ite (.fail _)
    ((commutes_setDrawn none).bind fun _ ↦ (commutes_setCore _).bind fun _ ↦
      .ite ((commutes_poll hid).bind fun _ ↦ .ite (.fail _) (.pure _)) (.pure _)))) fuel 0

theorem commutes_whenPresented {c : Prop} [Decidable c] (target : UInt64) (message : String) :
    Commutes (Server.withoutCancels (C := C) cancelled)
      (if c then setDrawn (some target) else Act.fail (.failed message)) :=
  .ite (commutes_setDrawn _) (.fail _)

theorem commutes_drawNext (target : UInt64) (fuel : Nat) :
    Commutes (Server.withoutCancels cancelled) (drawNext E target fuel) :=
  (commutes_setDrawn none).bind fun _ ↦ (Commutes.loop (fun _ ↦ commutes_core.bind fun _ ↦
    .ite (.pure _) (.ite (.fail _) ((commutes_setCore _).bind fun _ ↦ .pure _))) fuel ()).bind
      fun _ ↦ commutes_core.bind fun _ ↦ commutes_whenPresented _ _

theorem commutes_loadKeyframeBefore (target : UInt64) :
    Commutes (Server.withoutCancels cancelled) (loadKeyframeBefore E target) :=
  (commutes_setDrawn none).bind fun _ ↦ (commutes_attemptCore _).bind fun _ ↦ .pure _

theorem commutes_positionDrawn (hid : id ≠ cancelled) (target : UInt64) (fuel : Nat) :
    Commutes (Server.withoutCancels cancelled) (positionDrawn E id target fuel) :=
  commutes_session.bind fun _ ↦ commutes_core.bind fun _ ↦ .ite (.pure _)
    ((commutes_loadKeyframeBefore target).when.bind fun _ ↦ commutes_core.bind fun _ ↦
      (commutes_stepHiddenTo hid _ fuel).bind fun _ ↦ (commutes_drawNext target fuel).bind fun _ ↦
        commutes_core.bind fun _ ↦ Commutes.when ((commutes_setDrawn none).bind fun _ ↦
          (commutes_attemptCore _).bind fun _ ↦ commutes_core.bind fun _ ↦
            commutes_whenPresented _ _))

theorem commutes_positionHidden (hid : id ≠ cancelled) (target : UInt64) (fuel : Nat) :
    Commutes (Server.withoutCancels cancelled) (positionHidden E id target fuel) :=
  commutes_core.bind fun _ ↦ .ite (.pure _)
    ((commutes_loadKeyframeBefore target).when.bind fun _ ↦ commutes_stepHiddenTo hid target fuel)

/-! ## Requests -/

theorem commutes_whenUsable (hid : id ≠ cancelled) {work : ServerAction C Unit}
    (hwork : Commutes (Server.withoutCancels cancelled) work) :
    Commutes (Server.withoutCancels cancelled) (whenUsable id work) := by
  refine .get_bind (fun _ ↦ rfl) fun σ ↦ ?_
  cases usable σ with
  | some message => exact commutes_reply _
  | none => exact (commutes_poll hid).bind fun _ ↦ .ite (commutes_reply _) hwork

theorem commutes_afterDrawing (hid : id ≠ cancelled) (index : UInt64) (fuel : Nat)
    {work : ServerAction C Unit} (hwork : Commutes (Server.withoutCancels cancelled) work) :
    Commutes (Server.withoutCancels cancelled) (afterDrawing E id index fuel work) := by
  refine (commutes_positionDrawn hid _ fuel).attempt.bind fun r ↦ ?_
  cases r with
  | ok u => exact hwork
  | error stop => exact commutes_reply _

theorem commutes_sendFrame (index : UInt64) :
    Commutes (Server.withoutCancels cancelled) (sendFrame E id index) :=
  commutes_session.bind fun _ ↦ commutes_core.bind fun _ ↦ commutes_reply _

theorem commutes_runFrom (hid : id ≠ cancelled) (fuel count : Nat) (index : UInt64) :
    Commutes (Server.withoutCancels cancelled) (runFrom E id fuel count index) := by
  induction count generalizing index with
  | zero => exact commutes_reply _
  | succ count ih =>
    refine (commutes_positionDrawn hid _ fuel).attempt.bind fun r ↦ ?_
    cases r with
    | ok u =>
      exact (commutes_sendFrame index).bind fun _ ↦ (commutes_poll hid).bind fun _ ↦
        .ite (commutes_reply _) (ih _)
    | error stop => exact commutes_reply _

theorem commutes_prepareAudio (frames : UInt32) :
    Commutes (Server.withoutCancels cancelled) (prepareAudio E frames) :=
  commutes_core.bind fun _ ↦ (commutes_setCore _).when.bind fun _ ↦ commutes_session.bind fun _ ↦
    (Commutes.when (commutes_core.bind fun _ ↦ (commutes_setCore _).bind fun _ ↦
      commutes_modifySession _)).bind fun _ ↦ commutes_core.bind fun _ ↦ commutes_setCore _

theorem commutes_audio (hid : id ≠ cancelled) (firstFrame : UInt64) (frames : UInt32) (fuel : Nat) :
    Commutes (Server.withoutCancels cancelled) (audio E id firstFrame frames fuel) := by
  refine commutes_whenUsable hid (commutes_session.bind fun s ↦ .ite (commutes_reply _)
    ((commutes_positionHidden hid _ fuel).attempt.bind fun r ↦ ?_))
  cases r with
  | error stop => exact commutes_reply _
  | ok u =>
    refine (commutes_prepareAudio frames).bind fun _ ↦ (Commutes.loop (fun _ ↦
      commutes_core.bind fun _ ↦ .ite (.pure _) (.ite (.fail _) ((commutes_setCore _).bind fun _ ↦
        (commutes_setDrawn _).bind fun _ ↦ .ite ((commutes_poll hid).bind fun _ ↦
          .ite (.fail _) (.pure _)) (.pure _)))) fuel 0).attempt.bind fun r ↦ ?_
    cases r with
    | error stop => exact commutes_reply _
    | ok u => exact commutes_core.bind fun _ ↦ (commutes_setCore _).bind fun _ ↦ commutes_reply _

end

/-- The server handles a request in the same way, whatever cancels wait for another one. -/
theorem commutes_handle (opener : SourceOpener C) (fuel : Nat) {request : Request}
    (hid : request.walks = true → request.id ≠ cancelled) :
    Commutes (Server.withoutCancels cancelled) (handle E opener fuel request) := by
  cases request with
  | hello protocol =>
    exact .ite ((commutes_reply _).bind fun _ ↦ .pure _) ((commutes_reply _).bind fun _ ↦ .pure _)
  | openSource rom replay layout audio =>
    refine Commutes.bind (.modify fun _ ↦ rfl) fun _ ↦ ?_
    cases opener rom replay layout audio with
    | ok opened =>
      exact Commutes.bind (.modify fun _ ↦ rfl) fun _ ↦ (commutes_reply _).bind fun _ ↦ .pure _
    | error message => exact (commutes_reply _).bind fun _ ↦ .pure _
  | frame id index =>
    exact (commutes_whenUsable (hid rfl) (commutes_session.bind fun _ ↦ .ite (commutes_reply _)
      (commutes_afterDrawing (hid rfl) index fuel (commutes_sendFrame index)))).bind fun _ ↦ .pure _
  | run id start stop =>
    exact (commutes_whenUsable (hid rfl) (commutes_session.bind fun _ ↦ .ite (commutes_reply _)
      (commutes_runFrom (hid rfl) fuel _ start))).bind fun _ ↦ .pure _
  | audio id firstFrame frames =>
    exact (commutes_audio (hid rfl) firstFrame frames fuel).bind fun _ ↦ .pure _
  | memory id index blocks =>
    exact (commutes_whenUsable (hid rfl) (commutes_session.bind fun _ ↦ .ite (commutes_reply _)
      (.ite (commutes_reply _) (commutes_afterDrawing (hid rfl) index fuel
        (commutes_core.bind fun _ ↦ commutes_reply _))))).bind fun _ ↦ .pure _
  | stats id index =>
    exact (commutes_whenUsable (hid rfl) (commutes_session.bind fun _ ↦ .ite (commutes_reply _)
      (commutes_afterDrawing (hid rfl) index fuel
        (commutes_core.bind fun _ ↦ commutes_reply _)))).bind fun _ ↦ .pure _
  | cancel id => exact .pure none
  | close => exact .pure (some 0)

/-! ## The next request -/

theorem receiveBatch_withoutCancels (items : List Inbound) :
    receiveBatch (withoutCancels cancelled items) = match receiveBatch items with
      | (some (.ok request, left), complaints) =>
        if request = .cancel cancelled then
          ((receiveBatch (withoutCancels cancelled left)).1,
            complaints ++ (receiveBatch (withoutCancels cancelled left)).2)
        else (some (.ok request, withoutCancels cancelled left), complaints)
      | (some (.error ending, left), complaints) =>
        (some (.error ending, withoutCancels cancelled left), complaints)
      | (none, complaints) => (none, complaints) := by
  induction items with
  | nil => rfl
  | cons item items ih =>
    cases item with
    | request r =>
      by_cases hr : r = .cancel cancelled
      · subst hr
        simp [withoutCancels, receiveBatch]
      · simp [withoutCancels, receiveBatch, hr]
    | ended => simp [withoutCancels, receiveBatch]
    | malformed message =>
      have hkeep : withoutCancels cancelled (.malformed message :: items) =
          .malformed message :: withoutCancels cancelled items := by simp [withoutCancels]
      rw [hkeep, receiveBatch, receiveBatch, ih]
      cases hfound : receiveBatch items with
      | mk found complaints =>
        cases found with
        | none => rfl
        | some found =>
          obtain ⟨result, left⟩ := found
          cases result with
          | error ending => rfl
          | ok r =>
            dsimp only
            by_cases hr : r = .cancel cancelled
            · rw [if_pos hr, if_pos hr]
              rfl
            · rw [if_neg hr, if_neg hr]

theorem receive_withoutCancels (channel : List (List Inbound)) :
    receive (channel.map (withoutCancels cancelled)) = match receive channel with
      | (.ok request, left, complaints) =>
        if request = .cancel cancelled then
          ((receive (left.map (withoutCancels cancelled))).1,
            (receive (left.map (withoutCancels cancelled))).2.1,
            complaints ++ (receive (left.map (withoutCancels cancelled))).2.2)
        else (.ok request, left.map (withoutCancels cancelled), complaints)
      | (.error ending, left, complaints) =>
        (.error ending, left.map (withoutCancels cancelled), complaints) := by
  induction channel with
  | nil => rfl
  | cons batch batches ih =>
    rw [List.map_cons, receive, receive, receiveBatch_withoutCancels]
    cases hfound : receiveBatch batch with
    | mk found complaints =>
      cases found with
      | none =>
        dsimp only
        rw [ih]
        cases hreceive : receive batches with
        | mk result rest =>
          obtain ⟨left, more⟩ := rest
          cases result with
          | error ending => rfl
          | ok r =>
            dsimp only
            by_cases hr : r = .cancel cancelled
            · simp only [if_pos hr, List.append_assoc]
            · simp only [if_neg hr]
      | some found =>
        obtain ⟨result, left⟩ := found
        cases result with
        | error ending => rfl
        | ok r =>
          dsimp only
          by_cases hr : r = .cancel cancelled
          · simp only [if_pos hr, List.map_cons, receive]
            cases hleft : receiveBatch (withoutCancels cancelled left) with
            | mk found more =>
              cases found with
              | none => simp only [List.append_assoc]
              | some found => rfl
          · simp only [if_neg hr]
            rfl

theorem nextRequest_of_noPending {σ : Server C} (h : σ.pending = []) :
    nextRequest σ = .ok (receive σ.channel).1 ⟨(receive σ.channel).2.1, [], σ.session,
      σ.out ++ (receive σ.channel).2.2⟩ := by
  rw [nextRequest, get_bind_apply, h]
  show Outcome.ok _ (⟨_, σ.pending, _, _⟩ : Server C) = _
  rw [h]

/-- Without the cancels, the next request is the same; if it was one of the cancels, it is the one
that comes next. -/
theorem nextRequest_withoutCancels {σ τ : Server C} {result : Except Ending Request}
    (h : nextRequest σ = .ok result τ) :
    nextRequest (σ.withoutCancels cancelled) = if result = .ok (.cancel cancelled) then
      nextRequest (τ.withoutCancels cancelled) else .ok result (τ.withoutCancels cancelled) := by
  rw [nextRequest, get_bind_apply] at h
  cases hpending : σ.pending with
  | cons r pending =>
    rw [hpending] at h
    cases h
    by_cases hr : r = .cancel cancelled
    · subst hr
      have hsame : σ.withoutCancels cancelled =
          Server.withoutCancels cancelled { σ with pending } := by
        simp [Server.withoutCancels, hpending]
      rw [if_pos rfl, hsame]
    · have hne : (Except.ok r : Except Ending Request) ≠ .ok (.cancel cancelled) :=
        fun h ↦ hr (Except.ok.inj h)
      have hwithout : (σ.withoutCancels cancelled).pending =
          r :: pending.filter (· ≠ .cancel cancelled) := by
        simp [Server.withoutCancels, hpending, hr]
      rw [if_neg hne, nextRequest, get_bind_apply, hwithout]
      rfl
  | nil =>
    have hpending' : (σ.withoutCancels cancelled).pending = [] := by
      simp [Server.withoutCancels, hpending]
    have hchannel : (σ.withoutCancels cancelled).channel =
        σ.channel.map (withoutCancels cancelled) := rfl
    have hreceive : receive (σ.channel.map (withoutCancels cancelled)) = _ :=
      receive_withoutCancels σ.channel
    have h : nextRequest σ = .ok result τ := by
      rwa [nextRequest, get_bind_apply]
    rw [nextRequest_of_noPending hpending] at h
    rw [nextRequest_of_noPending hpending', hchannel, hreceive]
    cases hfound : receive σ.channel with
    | mk found rest =>
      obtain ⟨left, complaints⟩ := rest
      rw [hfound] at h
      cases h
      cases found with
      | error ending => rfl
      | ok r =>
        dsimp only
        by_cases hr : r = .cancel cancelled
        · have hnone : (Server.withoutCancels cancelled ⟨left, [], σ.session,
              σ.out ++ complaints⟩).pending = [] := rfl
          rw [if_pos hr, if_pos (congrArg Except.ok hr), nextRequest_of_noPending hnone]
          simp only [List.append_assoc, Server.withoutCancels]
        · rw [if_neg hr, if_neg fun h ↦ hr (Except.ok.inj h)]
          rfl

/-! ## Serving -/

/-- None of the requests that wait is one that the cancels are for. -/
def NoneNamed (cancelled : UInt32) (items : List Inbound) : Prop :=
  ∀ request, .request request ∈ items → request.walks = true → request.id ≠ cancelled

theorem NoneNamed.of_lookedAt {a b : List Inbound} (h : NoneNamed cancelled a)
    (hab : LookedAt a b) : NoneNamed cancelled b := by
  intro r hr hwalks
  rcases hab.mem _ hr with hr | hclose
  · exact h r hr hwalks
  · cases hclose
    cases hwalks

theorem serveTurn_of_handled {opener : SourceOpener C} {fuel : Nat} {request : Request}
    {code : Option UInt8} {σ σ₁ σ₂ : Server C} (hnext : nextRequest σ = .ok (.ok request) σ₁)
    (hhandle : handle E opener fuel request σ₁ = .ok code σ₂) : serveTurn E opener fuel () σ =
      .ok (code.elim (.inl ()) fun code ↦ .inr (.exited code)) σ₂ := by
  rw [serveTurn, bind_apply, hnext]
  dsimp only
  rw [bind_apply, hhandle]
  cases code <;> rfl

/-- The serve loop makes the same of what waits without the cancels.  It may take fewer turns. -/
theorem runLoop_withoutCancels (hE : E.Progresses) (opener : SourceOpener C) (fuel : Nat)
    {turns : Nat} {σ τ : Server C} {ending : Ending} (hnone : NoneNamed cancelled σ.waiting)
    (h : Act.loop (serveTurn E opener fuel) turns () σ = .ok ending τ) :
    ∃ turns' ≤ turns, Act.loop (serveTurn E opener fuel) turns' () (σ.withoutCancels cancelled) =
      .ok ending (τ.withoutCancels cancelled) := by
  induction turns generalizing σ with
  | zero => cases h
  | succ turns ih =>
    obtain ⟨result, σ₁, hnext, -, hresult⟩ := nextRequest_spec σ
    have hwithout : nextRequest (σ.withoutCancels cancelled) = _ := nextRequest_withoutCancels hnext
    rw [Act.loop, bind_apply, serveTurn, bind_apply, hnext] at h
    cases result with
    | error ending' =>
      cases h
      rw [if_neg (by simp)] at hwithout
      refine ⟨turns + 1, le_rfl, ?_⟩
      rw [Act.loop, bind_apply, serveTurn, bind_apply, hwithout]
      rfl
    | ok request =>
      have hnone₁ : NoneNamed cancelled (.request request :: σ₁.waiting) :=
        hnone.of_lookedAt hresult
      by_cases hrequest : request = .cancel cancelled
      · -- the cancel is not there, so the turn that handles it is not either
        rw [if_pos (congrArg Except.ok hrequest)] at hwithout
        subst hrequest
        obtain ⟨turns', hle, hturns⟩ := ih (fun r hr ↦ hnone₁ r (List.mem_cons_of_mem _ hr)) h
        refine ⟨turns', hle.trans (Nat.le_succ turns), ?_⟩
        rw [← hturns]
        cases turns' with
        | zero => rfl
        | succ turns' =>
          rw [Act.loop, bind_apply, bind_apply, serveTurn, bind_apply, bind_apply, hwithout]
      · rw [if_neg fun h ↦ hrequest (Except.ok.inj h)] at hwithout
        have hcommutes := commutes_handle (E := E) opener fuel
          (hnone₁ request List.mem_cons_self) σ₁
        have hhandled := (total_handle hE opener request).triple fuel σ₁ ⟨rfl, .refl _⟩
        dsimp only at h
        rw [bind_apply] at h
        cases hhandle : handle E opener fuel request σ₁ with
        | error stop σ₂ =>
          rw [hhandle] at h
          cases h
        | abort =>
          rw [hhandle] at h
          cases h
        | ok code σ₂ =>
          rw [hhandle] at h hcommutes hhandled
          have hturn := serveTurn_of_handled hwithout hcommutes
          cases code with
          | some code =>
            cases h
            refine ⟨turns + 1, le_rfl, ?_⟩
            rw [Act.loop, bind_apply, hturn]
            rfl
          | none =>
            have hnone₂ : NoneNamed cancelled σ₂.waiting := by
              have hwaiting : NoneNamed cancelled σ₁.waiting :=
                fun r hr ↦ hnone₁ r (List.mem_cons_of_mem _ hr)
              cases hhandled with
              | replied hreplied =>
                obtain ⟨block, -, hworking⟩ := hreplied
                exact hwaiting.of_lookedAt hworking.lookedAt
              | cancel _ hworking => exact hwaiting.of_lookedAt hworking.lookedAt
            obtain ⟨turns', hle, hturns⟩ := ih hnone₂ h
            refine ⟨turns' + 1, Nat.succ_le_succ hle, ?_⟩
            rw [Act.loop, bind_apply, hturn]
            exact hturns

end

/-- A core that plays three frames. -/
def threeFrames : ServedCore (Fin 4) where
  totalFrames c := UInt64.ofNat c
  isReplayStalled c := c = 3
  lastFramePresented _ := true
  showsStaleOutput _ := false
  drawLeadFrames _ := 0
  runUnlocked c := if c = 3 then 3 else c + 1
  runUnlockedHidden c := if c = 3 then 3 else c + 1
  runUnlockedAudible c := if c = 3 then 3 else c + 1
  goToReplayKeyframe _ _ := (.ok 0, 0)
  goToReplayFrame frame _ := (.ok (), Fin.ofNat 4 frame.toNat)
  compositeScreens _ c := [UInt32.ofNat c]
  readRam _ _ _ := none
  statsJson _ := "{}"
  audioEnabled _ := false
  enableAudio c := c
  installAudio c := c
  clearAudio _ c := c
  readAudio c := ([], c)

theorem threeFrames_progresses : threeFrames.Progresses :=
  ⟨fun c _ ↦ ⟨3, .inr (by revert c; decide)⟩, fun c _ ↦ ⟨3, .inr (by revert c; decide)⟩,
    fun c _ ↦ ⟨3, .inr (by revert c; decide)⟩⟩

/-- Opens it, whatever the files are. -/
def openThreeFrames : SourceOpener (Fin 4) := fun _ _ layout audio ↦
  .ok (⟨"Game Boy", 1, 1, 60, 1, 3, 48000, true, "", "", [0], [], none, []⟩,
    ⟨some 0, layout, 3, (60, 1), none, audio, [0]⟩)

end SuperShuckie.FrameServer
