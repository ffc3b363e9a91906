import SuperShuckie.FrameServer.Server

/-!
# Every request is answered once

`Served` says what the answers to a sequence of messages are like: every request is answered, in
order, with one final reply, before which a run sends its pictures.  It is stated about the messages
alone.  The server takes them off its channel in batches of any size and may look at later ones
while it works on a request; what is still to be handled is its `waiting` list throughout.
-/

set_option autoImplicit false

namespace SuperShuckie.FrameServer

open Act ByteFormat

/-! ## What answers are like -/

/-- The id that the replies to a request carry. -/
def Request.id : Request → UInt32
  | .hello _ | .openSource .. | .close => 0
  | .frame id _ | .run id _ _ | .audio id _ _ | .cancel id | .memory id _ _ | .stats id _ => id

/-- A request that a core is walked for. -/
def Request.walks : Request → Bool
  | .frame .. | .run .. | .audio .. | .memory .. | .stats .. => true
  | _ => false

/-- A message that ends the work on the request `id`. -/
def Inbound.supersedes (id : UInt32) : Inbound → Bool
  | .request newer => newer.supersedes id
  | .ended => true
  | .malformed _ => false

/-- The pictures of a run, as replies. -/
def pictureReplies (id : UInt32) : UInt64 → List Bytes → List Reply
  | _, [] => []
  | index, pixels :: pictures => .frame id index pixels :: pictureReplies id (index + 1) pictures

/-- A request's final reply.  It carries the id of the request, and says that the request was
cancelled only if one of the messages after it supersedes it. -/
inductive FinalReply (later : List Inbound) : Request → Reply → Prop
  | hello : FinalReply later (.hello protocolVersion)
      (.hello protocolVersion serverName consoleNames)
  | info {rom replay : String} {layout : UInt8} {audio : Bool} (info : Info) :
      FinalReply later (.openSource rom replay layout audio) (.info info)
  | notOpened {rom replay : String} {layout : UInt8} {audio : Bool} (message : String) :
      FinalReply later (.openSource rom replay layout audio) (.error 0 message)
  | frame {id : UInt32} {index : UInt64} (pixels : Bytes) :
      FinalReply later (.frame id index) (.frame id index pixels)
  | done {id : UInt32} {start stop : UInt64} : FinalReply later (.run id start stop) (.done id)
  | audio {id frames : UInt32} {firstFrame : UInt64} (samples : List Int16) :
      FinalReply later (.audio id firstFrame frames) (.audio id firstFrame frames samples)
  | memory {id : UInt32} {index : UInt64} {blocks : List (UInt32 × UInt32)} (data : Bytes) :
      FinalReply later (.memory id index blocks) (.memory id index data)
  | stats {id : UInt32} {index : UInt64} (json : String) :
      FinalReply later (.stats id index) (.stats id index json)
  | failed {request : Request} (hwalks : request.walks = true) (message : String) :
      FinalReply later request (.error request.id message)
  | cancelled {request : Request} (hwalks : request.walks = true)
      (hlater : later.any (Inbound.supersedes request.id) = true) :
      FinalReply later request (.cancelled request.id)

/-- All that is sent for a request: its final reply, and before it the first pictures of a run, all
of them if it is done. -/
inductive Answered (later : List Inbound) : Request → List Reply → Prop
  | single {request : Request} {final : Reply} (hfinal : FinalReply later request final)
      (hnotDone : ∀ id, final ≠ .done id) : Answered later request [final]
  | run {id : UInt32} {start stop : UInt64} {pictures : List Bytes} {final : Reply}
      (hfinal : FinalReply later (.run id start stop) final)
      (hlength : pictures.length ≤ stop.toNat - start.toNat)
      (hdone : final = .done id → pictures.length = stop.toNat - start.toNat) :
      Answered later (.run id start stop) (pictureReplies id start pictures ++ [final])

/-- What is sent for some messages, and how the server ends after them.  It exits at a `close`, at
the end of the input, and when it is asked for another protocol. -/
inductive Served : List Inbound → List Reply → Ending → Prop
  | nothing : Served [] [] .blocked
  | ended {rest : List Inbound} : Served (.ended :: rest) [] (.exited 0)
  | closed {rest : List Inbound} : Served (.request .close :: rest) [] (.exited 0)
  | refused {rest : List Inbound} {protocol : UInt32} (h : protocol ≠ protocolVersion) :
      Served (.request (.hello protocol) :: rest) [.error 0
        s!"this server speaks protocol {protocolVersion}, the client asked for {protocol}"]
        (.exited 1)
  | malformed {rest : List Inbound} {out : List Reply} {ending : Ending} {message : String} :
      Served rest out ending → Served (.malformed message :: rest) out ending
  | cancel {rest : List Inbound} {out : List Reply} {ending : Ending} {id : UInt32} :
      Served rest out ending → Served (.request (.cancel id) :: rest) out ending
  | request {rest : List Inbound} {request : Request} {block out : List Reply} {ending : Ending} :
      Answered rest request block → Served rest out ending →
      Served (.request request :: rest) (block ++ out) ending

/-! ## What waits -/

/-- Messages that have been looked at: malformed ones are gone, and the end of the input has become
a `close`. -/
inductive LookedAt : List Inbound → List Inbound → Prop
  | refl (items : List Inbound) : LookedAt items items
  | keep {items items' : List Inbound} (item : Inbound) :
      LookedAt items items' → LookedAt (item :: items) (item :: items')
  | drop {items items' : List Inbound} {message : String} :
      LookedAt items items' → LookedAt (.malformed message :: items) items'
  | ended {items items' : List Inbound} (hle : items'.length ≤ items.length)
      (hmem : ∀ item ∈ items', item ∈ items ∨ item = .request .close) :
      LookedAt (.ended :: items) (.request .close :: items')

variable {a b : List Inbound}

theorem LookedAt.length_le (h : LookedAt a b) : b.length ≤ a.length := by
  induction h with
  | refl items => exact le_rfl
  | keep item h ih => exact Nat.succ_le_succ ih
  | drop h ih => exact Nat.le_succ_of_le ih
  | ended hle hmem => exact Nat.succ_le_succ hle

theorem LookedAt.mem (h : LookedAt a b) :
    ∀ item ∈ b, item ∈ a ∨ item = .request .close := by
  induction h with
  | refl items => exact fun item h ↦ .inl h
  | keep first h ih =>
    intro item hitem
    rcases List.mem_cons.mp hitem with rfl | hitem
    · exact .inl List.mem_cons_self
    · exact (ih item hitem).imp_left (List.mem_cons_of_mem _)
  | drop h ih => exact fun item hitem ↦ (ih item hitem).imp_left (List.mem_cons_of_mem _)
  | ended hle hmem =>
    intro item hitem
    rcases List.mem_cons.mp hitem with rfl | hitem
    · exact .inr rfl
    · exact (hmem item hitem).imp_left (List.mem_cons_of_mem _)

theorem LookedAt.trans {c : List Inbound} (h : LookedAt a b) (h' : LookedAt b c) :
    LookedAt a c := by
  induction h generalizing c with
  | refl items => exact h'
  | keep item h ih =>
    cases h' with
    | refl _ => exact .keep item h
    | keep _ h' => exact .keep item (ih h')
    | drop h' => exact .drop (ih h')
    | ended hle hmem =>
      exact .ended (hle.trans h.length_le) fun item hitem ↦ (hmem item hitem).elim
        (h.mem item) .inr
  | drop h ih => exact .drop (ih h')
  | ended hle hmem =>
    cases h' with
    | refl _ => exact .ended hle hmem
    | keep _ h' =>
      exact .ended (h'.length_le.trans hle) fun item hitem ↦ (h'.mem item hitem).elim
        (hmem item) .inr

theorem LookedAt.supersedes (h : LookedAt a b) {id : UInt32}
    (hb : b.any (Inbound.supersedes id) = true) : a.any (Inbound.supersedes id) = true := by
  induction h with
  | refl items => exact hb
  | keep item h ih =>
    rw [List.any_cons, Bool.or_eq_true] at hb ⊢
    exact hb.imp_right ih
  | drop h ih => exact ih hb
  | ended hle hmem => rfl

theorem FinalReply.mono {request : Request} {final : Reply} (h : FinalReply b request final)
    (hab : LookedAt a b) : FinalReply a request final := by
  cases h with
  | cancelled hwalks hlater => exact .cancelled hwalks (hab.supersedes hlater)
  | hello => exact .hello
  | info info => exact .info info
  | notOpened message => exact .notOpened message
  | frame pixels => exact .frame pixels
  | done => exact .done
  | audio samples => exact .audio samples
  | memory data => exact .memory data
  | stats json => exact .stats json
  | failed hwalks message => exact .failed hwalks message

theorem Answered.mono {request : Request} {block : List Reply} (h : Answered b request block)
    (hab : LookedAt a b) : Answered a request block := by
  cases h with
  | single hfinal hnotDone => exact .single (hfinal.mono hab) hnotDone
  | run hfinal hlength hdone => exact .run (hfinal.mono hab) hlength hdone

/-- **Looking at messages early** does not change what has to be sent for them. -/
theorem Served.of_lookedAt {out : List Reply} {ending : Ending} (h : Served b out ending)
    (hab : LookedAt a b) : Served a out ending := by
  induction hab generalizing out with
  | refl items => exact h
  | keep item hab ih =>
    cases h with
    | ended => exact .ended
    | closed => exact .closed
    | refused h => exact .refused h
    | malformed h => exact .malformed (ih h)
    | cancel h => exact .cancel (ih h)
    | request hanswered h => exact .request (hanswered.mono hab) (ih h)
  | drop hab ih => exact .malformed (ih h)
  | ended hle hmem =>
    cases h with
    | closed => exact .ended
    | request hanswered h =>
      cases hanswered with
      | single hfinal hnotDone =>
        cases hfinal with
        | failed hwalks => cases hwalks
        | cancelled hwalks => cases hwalks

end SuperShuckie.FrameServer
