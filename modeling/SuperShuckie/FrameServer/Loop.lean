import SuperShuckie.FrameServer.Serving

/-!
# The serve loop

The serve loop takes requests until something ends it.  What waits grows smaller with each, and what
has been answered so far continues with the answers to the rest; so all of it is answered at the end.
-/

set_option autoImplicit false

namespace SuperShuckie.FrameServer

open Act ByteFormat

variable {C : Type} {E : ServedCore C} {later : List Inbound} {before : List Reply}

/-! ## Handling a request -/

/-- A request has been handled: it has been answered if it has to be, and what ends the server is
the last thing that it handles. -/
inductive Handled (later : List Inbound) (before : List Reply) (request : Request) :
    Option UInt8 → Server C → Prop
  | replied {σ : Server C} (h : Replied later before request σ) : Handled later before request none σ
  | cancel {σ : Server C} {id : UInt32} (hrequest : request = .cancel id)
      (h : Working later before σ) : Handled later before request none σ
  | exited {σ : Server C} {code : UInt8} {out : List Reply}
      (hserved : Served (.request request :: later) out (.exited code))
      (h : Working later (before ++ out) σ) : Handled later before request (some code) σ

theorem total_openSource (opener : SourceOpener C) (rom replay : String) (layout : UInt8)
    (audio : Bool) : Total (Working later before)
      (fun n ↦ handle E opener n (.openSource rom replay layout audio))
      (Handled later before (.openSource rom replay layout audio)) (fun _ _ ↦ False) := by
  refine Total.bind (Q := fun _ ↦ Working later before)
    (.modify fun σ h ↦ h.congr rfl rfl rfl) fun _ ↦ ?_
  cases opener rom replay layout audio with
  | ok opened =>
    exact Total.bind (Q := fun _ ↦ Working later before)
      (.modify fun σ h ↦ h.congr rfl rfl rfl) fun _ ↦
      (total_final (.info opened.1) fun _ h ↦ by cases h).bind fun _ ↦ .pure fun σ h ↦ .replied h
  | error message =>
    exact (total_final (.notOpened message) fun _ h ↦ by cases h).bind fun _ ↦
      .pure fun σ h ↦ .replied h

theorem total_handle (hE : E.Progresses) (opener : SourceOpener C) (request : Request) :
    Total (Working later before) (fun n ↦ handle E opener n request)
      (Handled later before request) (fun _ _ ↦ False) := by
  have hreplied : ∀ {x : Nat → ServerAction C Unit}, Total (Working later before) x
      (fun _ ↦ Replied later before request) (fun _ _ ↦ False) →
      Total (Working later before) (fun n ↦ x n >>= fun _ ↦ pure none)
        (Handled later before request) (fun _ _ ↦ False) :=
    fun hx ↦ hx.bind fun _ ↦ .pure fun σ h ↦ .replied h
  cases request with
  | hello protocol =>
    by_cases hprotocol : protocol = protocolVersion
    · subst hprotocol
      exact hreplied (total_final .hello fun _ h ↦ by cases h)
    · simp only [handle, if_neg hprotocol]
      exact (total_reply _).bind fun _ ↦ .pure fun σ h ↦ .exited (.refused hprotocol) h
  | openSource rom replay layout audio => exact total_openSource opener rom replay layout audio
  | frame id index => exact hreplied (total_frame hE id index)
  | run id start stop => exact hreplied (total_run hE id start stop)
  | audio id firstFrame frames => exact hreplied (total_audio hE id firstFrame frames)
  | memory id index blocks => exact hreplied (total_memory hE id index blocks)
  | stats id index => exact hreplied (total_stats hE id index)
  | cancel id => exact .pure fun σ h ↦ .cancel rfl h
  | close => exact .pure fun σ h ↦ .exited .closed (by rwa [List.append_nil])

/-! ## The next request -/

theorem receiveBatch_spec (items : List Inbound) :
    (receiveBatch items).2.filterMap Sent.answered = [] ∧ match (receiveBatch items).1 with
      | some (.ok request, left) =>
        ∀ rest, LookedAt (items ++ rest) (.request request :: left ++ rest)
      | some (.error ending, _) => ∀ rest, Served (items ++ rest) [] ending
      | none => ∀ rest, LookedAt (items ++ rest) rest := by
  induction items with
  | nil => exact ⟨rfl, fun rest ↦ .refl rest⟩
  | cons item items ih =>
    cases item with
    | request r => exact ⟨rfl, fun rest ↦ .refl _⟩
    | ended => exact ⟨rfl, fun rest ↦ .ended⟩
    | malformed message =>
      refine ⟨ih.1, ?_⟩
      have ih := ih.2
      show match (receiveBatch items).1 with
        | some (.ok request, left) => _
        | some (.error ending, _) => _
        | none => _
      cases hfound : (receiveBatch items).1 with
      | none =>
        rw [hfound] at ih
        exact fun rest ↦ .drop (ih rest)
      | some found =>
        obtain ⟨result, left⟩ := found
        rw [hfound] at ih
        cases result with
        | ok r => exact fun rest ↦ .drop (ih rest)
        | error ending => exact fun rest ↦ .malformed (ih rest)

theorem receive_spec (channel : List (List Inbound)) :
    (receive channel).2.2.filterMap Sent.answered = [] ∧ match (receive channel).1 with
      | .ok request =>
        LookedAt channel.flatten (.request request :: (receive channel).2.1.flatten)
      | .error ending => Served channel.flatten [] ending := by
  induction channel with
  | nil => exact ⟨rfl, .nothing⟩
  | cons batch batches ih =>
    obtain ⟨hcomplaints, hfound⟩ := receiveBatch_spec batch
    rw [receive]
    cases hbatch : receiveBatch batch with
    | mk found complaints =>
      rw [hbatch] at hcomplaints hfound
      cases found with
      | some found =>
        obtain ⟨result, left⟩ := found
        refine ⟨hcomplaints, ?_⟩
        cases result with
        | ok r => exact hfound batches.flatten
        | error ending => exact hfound batches.flatten
      | none =>
        refine ⟨?_, ?_⟩
        · show (complaints ++ (receive batches).2.2).filterMap Sent.answered = []
          rw [List.filterMap_append, hcomplaints, ih.1]
          rfl
        · have hlooked : LookedAt (batch ++ batches.flatten) batches.flatten := hfound _
          have ih := ih.2
          show match (receive batches).1 with
            | .ok request => _
            | .error ending => _
          cases hresult : (receive batches).1 with
          | ok r =>
            rw [hresult] at ih
            exact hlooked.trans ih
          | error ending =>
            rw [hresult] at ih
            exact ih.of_lookedAt hlooked

/-- The next request is the first of those that wait, and there is none only if they are all
malformed, or end. -/
theorem nextRequest_spec (σ : Server C) :
    ∃ result σ', nextRequest σ = .ok result σ' ∧ σ'.answers = σ.answers ∧ match result with
      | .ok request => LookedAt σ.waiting (.request request :: σ'.waiting)
      | .error ending => Served σ.waiting [] ending := by
  rw [nextRequest, get_bind_apply]
  cases hpending : σ.pending with
  | cons request pending =>
    refine ⟨_, _, rfl, rfl, ?_⟩
    rw [Server.waiting, hpending]
    exact .refl _
  | nil =>
    obtain ⟨hcomplaints, hfound⟩ := receive_spec σ.channel
    have hwaiting : σ.waiting = σ.channel.flatten := by
      rw [Server.waiting, hpending]
      rfl
    refine ⟨_, _, rfl, ?_, ?_⟩
    · show (σ.out ++ (receive σ.channel).2.2).filterMap Sent.answered = σ.answers
      rw [List.filterMap_append, hcomplaints, List.append_nil]
      rfl
    · have hleft : Server.waiting ⟨(receive σ.channel).2.1, σ.pending, σ.session,
          σ.out ++ (receive σ.channel).2.2⟩ = (receive σ.channel).2.1.flatten := by
        rw [Server.waiting, hpending]
        rfl
      rw [hwaiting]
      dsimp only
      rw [hleft]
      exact hfound

/-! ## Serving -/

/-- What has been answered continues with the answers to what waits: together they answer `all`. -/
def Continues (all : List Inbound) (σ : Server C) : Prop :=
  ∀ out ending, Served σ.waiting out ending → Served all (σ.answers ++ out) ending

/-- After a turn, either the server has ended, or it continues with less that waits. -/
theorem total_serveTurn (hE : E.Progresses) (opener : SourceOpener C) (all : List Inbound)
    (k : Nat) (u : Unit) :
    Total (fun σ ↦ Continues all σ ∧ σ.waiting.length = k) (fun n ↦ serveTurn E opener n u)
      (fun r σ ↦ match r with
        | .inr ending => Served all σ.answers ending
        | .inl _ => ∃ k' < k, Continues all σ ∧ σ.waiting.length = k') (fun _ _ ↦ False) := by
  refine Total.bind (Q := fun result σ ↦ match result with
      | .ok request => ∃ waiting : List Inbound × List Reply, waiting.1.length < k ∧
          (∀ out ending, Served (.request request :: waiting.1) out ending →
            Served all (waiting.2 ++ out) ending) ∧ Working waiting.1 waiting.2 σ
      | .error ending => Served all σ.answers ending) ?_ fun result ↦ ?_
  · refine .const fun σ h ↦ ?_
    obtain ⟨hcontinues, hlength⟩ := h
    obtain ⟨result, σ', hrun, hanswers, hresult⟩ := nextRequest_spec σ
    rw [hrun]
    cases result with
    | error ending =>
      have hserved := hcontinues [] ending hresult
      rwa [List.append_nil, ← hanswers] at hserved
    | ok request =>
      refine ⟨(σ'.waiting, σ'.answers), ?_, fun out ending hserved ↦ ?_, rfl, .refl _⟩
      · exact hlength ▸ Nat.lt_of_succ_le hresult.length_le
      · dsimp only
        rw [hanswers]
        exact hcontinues out ending (hserved.of_lookedAt hresult)
  · cases result with
    | error ending => exact .pure fun σ h ↦ h
    | ok request =>
      have htotal : Total (Working [] []) (fun n ↦ handle E opener n request) _ _ :=
        total_handle hE opener request
      refine .each (fun hmn ↦ (htotal.mono hmn).bind fun _ ↦ .refl _) fun σ h ↦ ?_
      obtain ⟨⟨later, before⟩, hlt, hserve, hworking⟩ := h
      refine Total.bind ((total_handle hE opener request).pre (fun σ' h ↦ h ▸ hworking)) fun result ↦ ?_
      cases result with
      | some code =>
        refine .pure fun σ h ↦ ?_
        cases h with
        | exited hserved hworking => exact hworking.answers ▸ hserve _ _ hserved
      | none =>
        refine .pure fun σ h ↦ ?_
        cases h with
        | replied h =>
          obtain ⟨block, hanswered, hworking⟩ := h
          refine ⟨_, hworking.lookedAt.length_le.trans_lt hlt, fun out ending h ↦ ?_, rfl⟩
          rw [hworking.answers, List.append_assoc]
          exact hserve _ _ (.request hanswered (h.of_lookedAt hworking.lookedAt))
        | cancel hrequest hworking =>
          refine ⟨_, hworking.lookedAt.length_le.trans_lt hlt, fun out ending h ↦ ?_, rfl⟩
          rw [hworking.answers]
          exact hserve _ _ (hrequest ▸ .cancel (h.of_lookedAt hworking.lookedAt))

/-- The serve loop ends, and all that it has been sent is served. -/
theorem total_runLoop (hE : E.Progresses) (opener : SourceOpener C) (all : List Inbound) :
    Total (Continues all) (fun n ↦ runLoop E opener n) (fun ending σ ↦ Served all σ.answers ending)
      (fun _ _ ↦ False) :=
  (Total.loop (fun k _ σ ↦ Continues all σ ∧ σ.waiting.length = k) (fun k u ↦
    (total_serveTurn hE opener all k u).post (fun r σ h ↦ by cases r <;> exact h)) ()).pre (fun σ h ↦ ⟨_, h, rfl⟩)

end SuperShuckie.FrameServer
