import SuperShuckie.PlayTogether.Following

/-!
# Unbroken runs of packets

Since its last snapshot a sink has been shown an unbroken run of what was published, from the frame
of the snapshot on; while a receiver is live, that run reaches up to what was published last.
-/

set_option autoImplicit false

namespace SuperShuckie

open ByteFormat

namespace PlayTogether

/-! ## What is shown since a snapshot -/

/-- The frame of the last snapshot that was shown, and the packets since. -/
def sinceSnapshot (history : List Seen) : Option UInt64 × List (UInt64 × Packet) :=
  history.foldl (fun since x ↦ match x with
    | .snapshot data => (some data.frame, [])
    | .packet frame p => (since.1, since.2 ++ [(frame, p)])
    | .syncHash .. | .ended _ => since) (none, [])

/-- The packets run from a frame on: each belongs to the frame that the ones before it lead to. -/
def RunsFrom (frame : UInt64) (packets : List (UInt64 × Packet)) : Prop :=
  label frame (packets.map Prod.snd) = packets

/-- Since the last snapshot a part of what was published is shown, without gaps or duplicates, from
the frame of the snapshot on.  Before the first nothing is. -/
def Unbroken (published : List (UInt64 × Packet)) (history : List Seen) : Prop :=
  match (sinceSnapshot history).1 with
  | none => (sinceSnapshot history).2 = []
  | some frame => RunsFrom frame (sinceSnapshot history).2 ∧ (sinceSnapshot history).2 <:+: published

/-- It has always been so. -/
def AlwaysUnbroken (published : List (UInt64 × Packet)) (history : List Seen) : Prop :=
  ∀ past, past <+: history → Unbroken published past

/-- Since the last snapshot everything that was published is shown, and a frame comes next. -/
def UpToDate (published : List (UInt64 × Packet)) (next : UInt64) (history : List Seen) : Prop :=
  ∃ frame, (sinceSnapshot history).1 = some frame ∧ RunsFrom frame (sinceSnapshot history).2 ∧
    (sinceSnapshot history).2 <:+ published ∧
    next = frame + countFrames ((sinceSnapshot history).2.map Prod.snd)

section

variable {published published' l l' : List (UInt64 × Packet)} {history : List Seen}
  {frame next : UInt64}

theorem map_snd_label (frame : UInt64) (packets : List Packet) :
    (label frame packets).map Prod.snd = packets := by
  induction packets generalizing frame with
  | nil => rfl
  | cons p packets ih => rw [label, List.map_cons, ih]

theorem length_label (frame : UInt64) (packets : List Packet) :
    (label frame packets).length = packets.length := by
  rw [← List.length_map (f := Prod.snd), map_snd_label]

theorem RunsFrom.nil (frame : UInt64) : RunsFrom frame [] := rfl

/-- A run goes on with packets that are labelled from where it ends. -/
theorem RunsFrom.append_label (h : RunsFrom frame l) (packets : List Packet) :
    RunsFrom frame (l ++ label (frame + countFrames (l.map Prod.snd)) packets) := by
  rw [RunsFrom, List.map_append, map_snd_label, label_append, h]

theorem RunsFrom.of_append (h : RunsFrom frame (l ++ l')) : RunsFrom frame l := by
  rw [RunsFrom, List.map_append, label_append] at h
  refine (List.append_inj h ?_).1
  rw [length_label, List.length_map]

theorem sinceSnapshot_append_snapshot (history : List Seen) (data : SnapshotData) :
    sinceSnapshot (history ++ [.snapshot data]) = (some data.frame, []) := by
  rw [sinceSnapshot, List.foldl_append]
  rfl

theorem sinceSnapshot_append_syncHash (history : List Seen) (frame : UInt64) (hash : Blake3Hash) :
    sinceSnapshot (history ++ [.syncHash frame hash]) = sinceSnapshot history := by
  rw [sinceSnapshot, List.foldl_append]
  rfl

theorem sinceSnapshot_append_ended (history : List Seen) (reason : LeaveReason) :
    sinceSnapshot (history ++ [.ended reason]) = sinceSnapshot history := by
  rw [sinceSnapshot, List.foldl_append]
  rfl

theorem sinceSnapshot_append_packets (history : List Seen) (l : List (UInt64 × Packet)) :
    sinceSnapshot (history ++ l.map fun x ↦ .packet x.1 x.2) =
      ((sinceSnapshot history).1, (sinceSnapshot history).2 ++ l) := by
  induction l generalizing history with
  | nil => simp
  | cons x l ih =>
    have hone : sinceSnapshot (history ++ [.packet x.1 x.2]) =
        ((sinceSnapshot history).1, (sinceSnapshot history).2 ++ [x]) := by
      rw [sinceSnapshot, List.foldl_append]
      rfl
    rw [List.map_cons, ← List.singleton_append, ← List.append_assoc, ih, hone, List.append_assoc,
      List.singleton_append]

theorem Unbroken.mono (h : Unbroken published history) (hle : published <:+: published') :
    Unbroken published' history := by
  rw [Unbroken] at h ⊢
  split at h
  · exact h
  · exact ⟨h.1, h.2.trans hle⟩

theorem AlwaysUnbroken.mono (h : AlwaysUnbroken published history)
    (hle : published <:+: published') : AlwaysUnbroken published' history :=
  fun past hpast ↦ (h past hpast).mono hle

theorem AlwaysUnbroken.nil (published : List (UInt64 × Packet)) : AlwaysUnbroken published [] := by
  intro past hpast
  rw [List.prefix_nil.mp hpast]
  rfl

section

variable (h : AlwaysUnbroken published history)
include h

theorem AlwaysUnbroken.concat {x : Seen}
    (hx : Unbroken published (history ++ [x])) : AlwaysUnbroken published (history ++ [x]) := by
  intro past hpast
  rcases List.prefix_concat_iff.mp hpast with rfl | hpast
  · exact hx
  · exact h past hpast

theorem AlwaysUnbroken.snapshot (data : SnapshotData) :
    AlwaysUnbroken published (history ++ [.snapshot data]) := by
  refine h.concat ?_
  rw [Unbroken, sinceSnapshot_append_snapshot]
  exact ⟨.nil data.frame, List.nil_infix⟩

theorem AlwaysUnbroken.syncHash (frame : UInt64)
    (hash : Blake3Hash) : AlwaysUnbroken published (history ++ [.syncHash frame hash]) := by
  refine h.concat ?_
  rw [Unbroken, sinceSnapshot_append_syncHash]
  exact h history (List.prefix_refl history)

theorem AlwaysUnbroken.ended (reason : LeaveReason) :
    AlwaysUnbroken published (history ++ [.ended reason]) := by
  refine h.concat ?_
  rw [Unbroken, sinceSnapshot_append_ended]
  exact h history (List.prefix_refl history)

/-- More of the run is shown. -/
theorem AlwaysUnbroken.packets (hframe : (sinceSnapshot history).1 = some frame)
    (hruns : RunsFrom frame ((sinceSnapshot history).2 ++ l))
    (hpublished : (sinceSnapshot history).2 ++ l <:+: published) :
    AlwaysUnbroken published (history ++ l.map fun x ↦ .packet x.1 x.2) := by
  induction l using List.reverseRecOn with
  | nil => simpa using h
  | append_singleton l x ih =>
    have hbefore : (sinceSnapshot history).2 ++ l <+: (sinceSnapshot history).2 ++ (l ++ [x]) := by
      rw [← List.append_assoc]
      exact List.prefix_append _ _
    have hruns' := hruns
    rw [← List.append_assoc] at hruns'
    have hrest := ih hruns'.of_append (hbefore.isInfix.trans hpublished)
    have hx : Unbroken published (history ++ (l ++ [x]).map fun x ↦ .packet x.1 x.2) := by
      rw [Unbroken, sinceSnapshot_append_packets, hframe]
      exact ⟨hruns, hpublished⟩
    rw [List.map_append, ← List.append_assoc] at hx ⊢
    exact hrest.concat hx

end

theorem UpToDate.snapshot (data : SnapshotData) :
    UpToDate published data.frame (history ++ [.snapshot data]) := by
  refine ⟨data.frame, ?_⟩
  rw [sinceSnapshot_append_snapshot]
  exact ⟨rfl, .nil data.frame, List.nil_suffix, (UInt64.add_zero data.frame).symm⟩

theorem UpToDate.syncHash (h : UpToDate published next history) (frame : UInt64)
    (hash : Blake3Hash) : UpToDate published next (history ++ [.syncHash frame hash]) := by
  rwa [UpToDate, sinceSnapshot_append_syncHash]

/-- What is published next and shown at once leaves nothing out. -/
theorem UpToDate.packets (h : UpToDate published next history) (packets : List Packet) :
    UpToDate (published ++ label next packets) (next + countFrames packets)
      (history ++ (label next packets).map fun x ↦ .packet x.1 x.2) := by
  obtain ⟨frame, hframe, hruns, ⟨before, hbefore⟩, hnext⟩ := h
  refine ⟨frame, ?_⟩
  rw [sinceSnapshot_append_packets]
  refine ⟨hframe, ?_, ⟨before, ?_⟩, ?_⟩
  · rw [hnext]
    exact hruns.append_label packets
  · rw [← List.append_assoc, hbefore]
  · rw [List.map_append, map_snd_label, countFrames_append, ← UInt64.add_assoc, ← hnext]

theorem UpToDate.always_packets (h : UpToDate published next history)
    (halways : AlwaysUnbroken published history) (packets : List Packet) :
    AlwaysUnbroken (published ++ label next packets)
      (history ++ (label next packets).map fun x ↦ .packet x.1 x.2) := by
  obtain ⟨frame, hframe, hruns, hsuffix, hnext⟩ := h.packets packets
  rw [sinceSnapshot_append_packets] at hframe hruns hsuffix
  exact (halways.mono (List.prefix_append _ _).isInfix).packets hframe hruns hsuffix.isInfix

end

/-! ## What a slot keeps -/

/-- The sinks have been shown unbroken runs of what has been published, and while the slot is live
the one it has is up to date. -/
structure FollowState.Tracks (published : List (UInt64 × Packet)) (s : FollowState) : Prop where
  always : ∀ calls ∈ s.sink.toList ++ s.dropped, AlwaysUnbroken published (seen calls)
  live : ∀ next, s.live = some next →
    ∃ calls, s.sink = some calls ∧ UpToDate published next (seen calls)

namespace FollowState.Tracks

variable {published : List (UInt64 × Packet)} {s : FollowState}

theorem new (published : List (UInt64 × Packet)) : FollowState.new.Tracks published :=
  ⟨fun _ h ↦ absurd h List.not_mem_nil, fun _ h ↦ nomatch h⟩

theorem always_dropped (h : s.Tracks published) :
    ∀ calls ∈ s.dropped ++ s.sink.toList, AlwaysUnbroken published (seen calls) := by
  intro calls hcalls
  refine h.always calls ?_
  rw [List.mem_append] at hcalls ⊢
  exact hcalls.symm

theorem apply (o : SlotOp) (h : s.Tracks published) : (o.apply s).Tracks published := by
  cases o with
  | setSink =>
    refine ⟨?_, fun _ hlive ↦ nomatch hlive⟩
    intro calls hcalls
    rcases List.mem_cons.mp hcalls with rfl | hcalls
    · exact .nil published
    · exact h.always_dropped calls hcalls
  | clearSink => exact ⟨h.always_dropped, fun _ hlive ↦ nomatch hlive⟩
  | finish reason =>
    refine ⟨?_, fun _ hlive ↦ nomatch hlive⟩
    intro calls hcalls
    replace hcalls : calls ∈ s.dropped ++ (s.sink.map (· ++ [.ended reason])).toList := hcalls
    rcases List.mem_append.mp hcalls with hcalls | hcalls
    · exact h.always calls (List.mem_append_right _ hcalls)
    · obtain ⟨calls', hsink, rfl⟩ := Option.map_eq_some_iff.mp (Option.mem_toList.mp hcalls)
      rw [seen_append]
      refine AlwaysUnbroken.ended (h.always calls' (List.mem_append_left _ ?_)) reason
      exact Option.mem_toList.mpr hsink

theorem applyAll (ops : List SlotOp) (h : s.Tracks published) :
    (SlotOp.applyAll ops s).Tracks published := by
  induction ops generalizing s with
  | nil => exact h
  | cons o ops ih => exact ih (h.apply o)

/-- While a slot is not live, more may be published. -/
theorem of_not_live (h : s.Tracks published) (hlive : s.live = none)
    (more : List (UInt64 × Packet)) : s.Tracks (published ++ more) := by
  refine ⟨fun calls hcalls ↦ (h.always calls hcalls).mono (List.prefix_append _ _).isInfix, ?_⟩
  intro next hnext
  rw [hlive] at hnext
  cases hnext

/-- The sink that a slot has is told one thing more. -/
theorem told {calls : List SinkCall} {call : SinkCall} {published' : List (UInt64 × Packet)}
    {next : Option UInt64} (h : s.Tracks published) (hle : published <:+: published')
    (halways : AlwaysUnbroken published' (seen (calls ++ [call])))
    (hlive : ∀ e, next = some e → UpToDate published' e (seen (calls ++ [call]))) :
    FollowState.Tracks published' { s with sink := some (calls ++ [call]), live := next } := by
  refine ⟨?_, fun e he ↦ ⟨_, rfl, hlive e he⟩⟩
  intro calls' hcalls'
  rcases List.mem_cons.mp hcalls' with rfl | hcalls'
  · exact halways
  · exact (h.always calls' (List.mem_append_right _ hcalls')).mono hle

theorem always_sink {calls : List SinkCall} (h : s.Tracks published) (hsink : s.sink = some calls) :
    AlwaysUnbroken published (seen calls) :=
  h.always calls (List.mem_append_left _ (Option.mem_toList.mpr hsink))

theorem onSnapshot (data : SnapshotData) (h : s.Tracks published) :
    (s.onSnapshot data).2.Tracks published := by
  rw [FollowState.onSnapshot]
  cases hsink : s.sink with
  | none => exact h
  | some calls =>
    refine h.told (List.infix_refl _) ?_ ?_
    · rw [seen_append]
      exact (h.always_sink hsink).snapshot data
    · intro e he
      cases he
      rw [seen_append]
      exact .snapshot data

theorem onSyncHash (frame : UInt64) (hash : Blake3Hash) (h : s.Tracks published) :
    (s.onSyncHash frame hash).2.Tracks published := by
  rw [FollowState.onSyncHash]
  split
  · exact h
  · cases hsink : s.sink with
    | none => exact h
    | some calls =>
      refine h.told (List.infix_refl _) ?_ ?_
      · rw [seen_append]
        exact (h.always_sink hsink).syncHash frame hash
      · intro e he
        obtain ⟨calls', hsink', hupToDate⟩ := h.live e he
        rw [hsink] at hsink'
        cases hsink'
        rw [seen_append]
        exact hupToDate.syncHash frame hash

/-- **A stream that is published** is shown to a live sink if it is what comes next, and ends the
live state if it is not. -/
theorem onStream (firstFrame : UInt64) (packets : List Packet) (h : s.Tracks published) :
    (s.onStream firstFrame packets).2.Tracks (published ++ label firstFrame packets) := by
  cases hlive : s.live with
  | none =>
    rw [FollowState.onStream_of_not_live hlive]
    exact h.of_not_live hlive _
  | some expected =>
    obtain ⟨calls, hsink, hupToDate⟩ := h.live expected hlive
    by_cases hfirst : firstFrame = expected
    · have hstep : (s.onStream firstFrame packets).2 = { s with
          sink := some (calls ++ [.packets firstFrame packets])
          live := some (expected + countFrames packets) } := by
        rw [FollowState.onStream, hlive]
        dsimp only
        rw [if_neg (not_not.mpr hfirst), hsink]
      have hseen : seen (calls ++ [.packets firstFrame packets]) =
          seen calls ++ (label firstFrame packets).map fun x ↦ .packet x.1 x.2 := by
        rw [seen_append]
        exact congrArg _ (List.append_nil _)
      rw [hstep]
      subst hfirst
      refine h.told (List.prefix_append _ _).isInfix ?_ ?_
      · rw [hseen]
        exact hupToDate.always_packets (h.always_sink hsink) packets
      · intro e he
        cases he
        rw [hseen]
        exact hupToDate.packets packets
    · have hstep : (s.onStream firstFrame packets).2 = { s with live := none } := by
        rw [FollowState.onStream, hlive]
        dsimp only
        rw [if_pos hfirst]
      rw [hstep]
      have hnone : FollowState.Tracks published { s with live := none } :=
        ⟨h.always, fun _ hnext ↦ by cases hnext⟩
      exact hnone.of_not_live rfl _

end FollowState.Tracks

/-! ## Runs -/

/-- The packets that stream items publish, with the frames they belong to. -/
def publishedBy (items : List StreamItem) : List (UInt64 × Packet) := items.flatMap itemLabelled

/-- A message is no stream of the publisher. -/
def Message.IsOther (r : Receiver) (publisher : PeerId) : Message → Prop
  | .stream sender _ _ => r.isFrom publisher sender = false
  | _ => True

/-- What is framed already is no stream of the publisher. -/
def Outbound.IsProper (r : Receiver) (publisher : PeerId) : Outbound → Prop
  | .encoded bytes => ∀ m, readMessage bytes = .ok (some m) → m.IsOther r publisher
  | _ => True

/-- A receiver keeps track of the publisher; on a closed connection it is not live. -/
structure Following.Tracks (published : List (UInt64 × Packet)) (f : Following) : Prop where
  slot : f.slot.Tracks published
  closed : f.isOpen = false → f.slot.live = none

section

variable {r : Receiver} {z : Zstd} {publisher : PeerId} {published : List (UInt64 × Packet)}
  {f : Following}

namespace Following.Tracks

theorem ops (between : List SlotOp) (h : f.Tracks published) : (f.ops between).Tracks published :=
  ⟨h.slot.applyAll between, fun hclosed ↦ SlotOp.live_applyAll between (h.closed hclosed)⟩

/-- Whatever was published last, a connection that is closed over it is not live. -/
theorem protocolError (h : f.Tracks published) (more : List (UInt64 × Packet)) :
    f.protocolError.Tracks (published ++ more) :=
  ⟨(h.slot.apply (.finish .protocolError)).of_not_live rfl more, fun _ ↦ rfl⟩

theorem protocolError_same (h : f.Tracks published) : f.protocolError.Tracks published :=
  ⟨h.slot.apply (.finish .protocolError), fun _ ↦ rfl⟩

/-- A message that is no stream of the publisher. -/
theorem onMessage_other (between : List SlotOp) {m : Message} (h : f.Tracks published)
    (hopen : f.isOpen = true) (hm : m.IsOther r publisher) :
    (f.onMessage r z publisher between m).Tracks published := by
  have hops := h.ops between
  have hslot := h.slot.applyAll between
  have hkept : ∀ s : FollowState, s.Tracks published →
      Following.Tracks published { f with slot := s } := by
    intro s hs
    refine ⟨hs, fun hclosed ↦ ?_⟩
    rw [hopen] at hclosed
    cases hclosed
  cases m with
  | stream sender firstFrame bytes =>
    have hother : r.isFrom publisher sender = false := hm
    rw [Following.onMessage, if_pos hother]
    exact hops
  | snapshot wire =>
    rw [Following.onMessage]
    split_ifs
    · exact hops
    · exact hops
    · exact hops
    · cases wire.intoSnapshot z with
      | error e => exact hops.protocolError_same
      | ok data => exact hkept _ (hslot.onSnapshot data)
  | syncHash sender frame hash =>
    rw [Following.onMessage]
    split_ifs
    · exact hops
    · exact hkept _ (hslot.onSyncHash frame hash)
  | _ => exact hops

/-- A frame that holds no stream of the publisher. -/
theorem onFrame_other (between : List SlotOp) {frame : Bytes} (h : f.Tracks published)
    (hframe : ∀ m, readMessage frame = .ok (some m) → m.IsOther r publisher) :
    (f.onFrame r z publisher between frame).Tracks published := by
  have hops := h.ops between
  rw [Following.onFrame]
  split
  · exact hops
  · rename_i hopen
    cases hread : readMessage frame with
    | error e => exact hops.protocolError_same
    | ok m =>
      cases m with
      | none => exact hops
      | some m => exact h.onMessage_other between (by simpa using hopen) (hframe m hread)

/-- **Merged streams that are published.** -/
theorem onFrame_streams {first : StreamItem} {more : List StreamItem} (hpublisher : publisher ≠ 0)
    (between : List SlotOp) (h : f.Tracks published)
    (hseamless : (Group.streams first more).Seamless) : (f.onFrame r z publisher between
      (Message.stream publisher first.1 (mergedBytes first more)).encode).Tracks
      (published ++ publishedBy (first :: more)) := by
  have hops := h.ops between
  have hfrom : ¬ r.isFrom publisher publisher = false := by cases r <;> simp [Receiver.isFrom]
  have hidle : (f.ops between).slot.live = none →
      (f.ops between).Tracks (published ++ publishedBy (first :: more)) :=
    fun hlive ↦ ⟨hops.slot.of_not_live hlive _, fun _ ↦ hlive⟩
  rw [Following.onFrame]
  split
  · rename_i hclosed
    exact hidle (SlotOp.live_applyAll between (h.closed hclosed))
  · rename_i hopen
    by_cases hfits : (Message.stream publisher first.1 (mergedBytes first more)).encodeBody.length ≤
        maxMessageLength
    · rw [readMessage_stream hpublisher hfits]
      dsimp only
      rw [Following.onMessage, if_neg hfrom]
      split
      · rename_i hearly
        have hlive : f.slot.live = none := by simpa [FollowState.isLive] using hearly.2
        exact hidle (SlotOp.live_applyAll between hlive)
      · cases hdecode : decodePackets (mergedBytes first more) with
        | error e => exact hops.protocolError _
        | ok packets =>
          have hlabel : label first.1 packets = publishedBy (first :: more) := by
            by_cases hmore : more = []
            · subst hmore
              have hbytes : mergedBytes first [] = first.2 := List.append_nil first.2
              have hitem : itemLabelled first = label first.1 packets := by
                rw [itemLabelled, itemPackets, ← hbytes, hdecode]
                rfl
              rw [publishedBy, List.flatMap_cons, hitem]
              exact (List.append_nil _).symm
            · have hg := hseamless hmore
              rw [decodePackets_merged hg.readable] at hdecode
              cases hdecode
              exact label_consecutive hg.consecutive
          dsimp only
          rw [← hlabel]
          refine ⟨(h.slot.applyAll between).onStream first.1 packets, fun hclosed ↦ ?_⟩
          exact absurd hclosed hopen
    · have hlong : maxLengthOf (Message.stream publisher first.1 (mergedBytes first more)).tag.toByte <
          (Message.stream publisher first.1 (mergedBytes first more)).encodeBody.length := by
        rw [maxLengthOf_stream]
        omega
      rw [readMessage_of_tooLong hlong]
      exact hops.protocolError _

end Following.Tracks

/-- A message of another kind is no stream. -/
theorem isOther_of_tag {m m' : Message} (h : readMessage m.encode = .ok (some m'))
    (hm : m.tag ≠ .stream) : m'.IsOther r publisher := by
  have htag := tag_of_readMessage h
  cases m' with
  | stream sender firstFrame bytes => exact absurd htag.symm hm
  | _ => trivial

theorem Following.Tracks.sent (h : f.Tracks published) (between : List SlotOp) (m : Message)
    (hm : m.tag ≠ .stream) :
    (match sentOrDropped m with
      | none => f.ops between
      | some sent => f.onFrame r z publisher between sent.frame).Tracks published := by
  rw [sentOrDropped]
  split_ifs
  · exact h.ops between
  · exact h.onFrame_other between fun m' hm' ↦ isOther_of_tag hm' hm

/-- **One event.** -/
theorem Following.Tracks.apply (hpublisher : publisher ≠ 0) (e : FollowEvent)
    (hseamless : ∀ g ∈ e.groups, g.Seamless)
    (hproper : ∀ item ∈ e.groups.flatMap Group.items, item.IsProper r publisher)
    (h : f.Tracks published) :
    (e.apply r z publisher f).Tracks (published ++ publishedBy e.streamItems) := by
  have hnothing : published ++ publishedBy [] = published := List.append_nil published
  cases e with
  | op o =>
    refine hnothing.symm ▸ (?_ : Following.Tracks published _)
    exact h.ops [o]
  | deliver g between =>
    cases g with
    | streams first more =>
      have hitems : (FollowEvent.deliver (.streams first more) between).streamItems =
          first :: more := by
        simp [FollowEvent.streamItems, FollowEvent.groups, Group.streamItems, Group.items,
          List.filterMap_map, Function.comp_def, Outbound.streamItem]
      rw [hitems]
      exact h.onFrame_streams hpublisher between (hseamless _ List.mem_cons_self)
    | single item =>
      cases item with
      | stream firstFrame bytes =>
        have halone : (Group.streams (firstFrame, bytes) []).Seamless := fun hmore ↦ absurd rfl hmore
        have hone := h.onFrame_streams (r := r) (z := z) hpublisher between halone
        rw [show mergedBytes (firstFrame, bytes) [] = bytes from List.append_nil bytes] at hone
        exact hone
      | snapshot data target =>
        exact hnothing.symm ▸
          h.sent between (snapshotMessage z publisher data target) fun hm ↦ by cases hm
      | startState data =>
        exact hnothing.symm ▸ h.sent between (startStateMessage z data) fun hm ↦ by cases hm
      | encoded bytes =>
        refine hnothing.symm ▸ (?_ : Following.Tracks published _)
        exact h.onFrame_other between (hproper (.encoded bytes) List.mem_cons_self)

/-- **Any run.** -/
theorem Following.Tracks.applyAll (hpublisher : publisher ≠ 0) {events : List FollowEvent}
    (hseamless : ∀ g ∈ events.flatMap FollowEvent.groups, g.Seamless)
    (hproper : ∀ item ∈ (events.flatMap FollowEvent.groups).flatMap Group.items,
      item.IsProper r publisher) (h : f.Tracks published) : (applyAll r z publisher events f).Tracks
      (published ++ publishedBy (events.flatMap FollowEvent.streamItems)) := by
  induction events generalizing f published with
  | nil => exact (List.append_nil published).symm ▸ h
  | cons e events ih =>
    rw [List.flatMap_cons, List.forall_mem_append] at hseamless
    rw [List.flatMap_cons, List.flatMap_append, List.forall_mem_append] at hproper
    have hrest := ih hseamless.2 hproper.2 (h.apply (z := z) hpublisher e hseamless.1 hproper.1)
    have hpublished : publishedBy ((e :: events).flatMap FollowEvent.streamItems) =
        publishedBy e.streamItems ++ publishedBy (events.flatMap FollowEvent.streamItems) := by
      rw [publishedBy, List.flatMap_cons, List.flatMap_append, publishedBy, publishedBy]
    rw [hpublished, ← List.append_assoc]
    exact hrest

end

/-! ## Safety -/

/-- What is shown of the items that are sent: the same as of every stream item alone, only unbroken
runs of what is published, all that was delivered while live, and nothing past a gap. -/
structure FollowsSafely (r : Receiver) (z : Zstd) (publisher : PeerId) (items : List Outbound)
    (events : List FollowEvent) : Prop where
  same : (applyAll r z publisher events .new).shown =
    (applyAll r z publisher (events.flatMap FollowEvent.separate) .new).shown
  unbroken : ∀ history ∈ (applyAll r z publisher events .new).shown.sink.toList ++
      (applyAll r z publisher events .new).shown.dropped,
    AlwaysUnbroken (publishedBy (items.filterMap Outbound.streamItem)) history
  upToDate : ∀ next, (applyAll r z publisher events .new).slot.live = some next →
    ∃ history, (applyAll r z publisher events .new).shown.sink = some history ∧
      UpToDate (publishedBy (events.flatMap FollowEvent.streamItems)) next history
  gap : ∀ (before : List FollowEvent) (first : StreamItem) (more : List StreamItem)
    (between : List SlotOp) (next : UInt64),
    events = before ++ [.deliver (.streams first more) between] →
    (applyAll r z publisher before .new).slot.live = some next → first.1 ≠ next →
    (applyAll r z publisher events .new).slot.live = none

/-- The events deliver what the writer makes of the batches, up to some point. -/
def DeliverBatches (batches : List (List Outbound)) (events : List FollowEvent) : Prop :=
  events.flatMap FollowEvent.groups <+: batches.flatMap groups

theorem streamItems_delivered (events : List FollowEvent) : events.flatMap FollowEvent.streamItems =
      ((events.flatMap FollowEvent.groups).flatMap Group.items).filterMap Outbound.streamItem := by
  induction events with
  | nil => rfl
  | cons e events ih =>
    have hone : e.streamItems = (e.groups.flatMap Group.items).filterMap Outbound.streamItem := by
      rw [FollowEvent.streamItems, List.filterMap_flatMap]
      rfl
    rw [List.flatMap_cons, ih, hone, List.flatMap_cons, List.flatMap_append, List.filterMap_append]

/-- What is delivered of the batches is the first of their items. -/
theorem DeliverBatches.items {batches : List (List Outbound)} {events : List FollowEvent}
    (h : DeliverBatches batches events) :
    (events.flatMap FollowEvent.groups).flatMap Group.items <+: batches.flatten := by
  have hall : (batches.flatMap groups).flatMap Group.items = batches.flatten := by
    rw [List.flatMap_assoc, List.flatMap_congr fun batch _ ↦ items_groups batch, List.flatMap_id']
  obtain ⟨rest, hrest⟩ := h
  refine ⟨rest.flatMap Group.items, ?_⟩
  rw [← List.flatMap_append, hrest, hall]

theorem Following.Alike.shown {f f' : Following} (h : f.Alike f') : f.shown = f'.shown := by
  rw [Following.shown, Following.shown, h.slot.sink, h.slot.live, h.slot.dropped, h.isOpen]

theorem SlotOp.live_applyAll_cases (ops : List SlotOp) (s : FollowState) :
    (SlotOp.applyAll ops s).live = s.live ∨ (SlotOp.applyAll ops s).live = none := by
  cases ops with
  | nil => exact .inl rfl
  | cons o ops =>
    refine .inr (SlotOp.live_applyAll ops ?_)
    cases o <;> rfl

/-- **A gap ends the live state**, whatever else becomes of the message. -/
theorem Following.live_of_gap {r : Receiver} {z : Zstd} {publisher : PeerId} {f : Following}
    {between : List SlotOp} {firstFrame next : UInt64} {bytes : Bytes} (hpublisher : publisher ≠ 0)
    (hopen : f.isOpen = true) (hlive : f.slot.live = some next) (hgap : firstFrame ≠ next) :
    (f.onFrame r z publisher between
      (Message.stream publisher firstFrame bytes).encode).slot.live = none := by
  have hfrom : ¬ r.isFrom publisher publisher = false := by cases r <;> simp [Receiver.isFrom]
  rw [Following.onFrame, if_neg (by simp [hopen])]
  by_cases hfits : (Message.stream publisher firstFrame bytes).encodeBody.length ≤ maxMessageLength
  · rw [readMessage_stream hpublisher hfits]
    dsimp only
    rw [Following.onMessage, if_neg hfrom, if_neg (by simp [FollowState.isLive, hlive])]
    cases decodePackets bytes with
    | error e => rfl
    | ok packets =>
      rcases SlotOp.live_applyAll_cases between f.slot with hsame | hnone
      · dsimp only
        rw [FollowState.onStream, hsame, hlive]
        dsimp only
        rw [if_pos hgap]
      · dsimp only
        rw [FollowState.onStream_of_not_live hnone]
        exact hnone
  · have hlong : maxLengthOf (Message.stream publisher firstFrame bytes).tag.toByte <
        (Message.stream publisher firstFrame bytes).encodeBody.length := by
      rw [maxLengthOf_stream]
      omega
    rw [readMessage_of_tooLong hlong]
    rfl

/-- **A follower plays unbroken runs onto the right states** when what the writer merges follows one
another, can be read and fits into a message. -/
theorem follows_safely {r : Receiver} {z : Zstd} {publisher : PeerId} (hpublisher : publisher ≠ 0)
    {batches : List (List Outbound)} (hproper : ∀ item ∈ batches.flatten, item.IsProper r publisher)
    {events : List FollowEvent} (hdelivered : DeliverBatches batches events)
    (hseamless : ∀ g ∈ events.flatMap FollowEvent.groups, g.Seamless) :
    FollowsSafely r z publisher batches.flatten events := by
  have hitems := hdelivered.items
  have hproper' : ∀ item ∈ (events.flatMap FollowEvent.groups).flatMap Group.items,
      item.IsProper r publisher := fun item hitem ↦ hproper item (hitems.subset hitem)
  have hnew : Following.Tracks [] .new := ⟨.new [], fun _ ↦ rfl⟩
  have htracks := Following.Tracks.applyAll (z := z) hpublisher hseamless hproper' hnew
  rw [List.nil_append] at htracks
  refine ⟨(applyAll_separate hpublisher hseamless .new).shown, ?_, ?_, ?_⟩
  · intro history hhistory
    have hmem : history ∈ ((applyAll r z publisher events .new).slot.sink.toList ++
        (applyAll r z publisher events .new).slot.dropped).map seen := by
      rw [List.map_append, ← Option.toList_map]
      exact hhistory
    obtain ⟨calls, hcalls, rfl⟩ := List.mem_map.mp hmem
    refine (htracks.slot.always calls hcalls).mono ?_
    obtain ⟨rest, hrest⟩ := hitems
    rw [streamItems_delivered, ← hrest, List.filterMap_append, publishedBy, publishedBy,
      List.flatMap_append]
    exact (List.prefix_append _ _).isInfix
  · intro next hnext
    obtain ⟨calls, hsink, hupToDate⟩ := htracks.slot.live next hnext
    refine ⟨seen calls, ?_, hupToDate⟩
    rw [Following.shown, hsink]
    rfl
  · rintro before first more between next rfl hlive hgap
    rw [List.flatMap_append, List.forall_mem_append] at hseamless
    rw [List.flatMap_append, List.flatMap_append, List.forall_mem_append] at hproper'
    have hbefore := Following.Tracks.applyAll (z := z) hpublisher hseamless.1 hproper'.1 hnew
    have hopen : (applyAll r z publisher before .new).isOpen = true := by
      by_contra hclosed
      rw [hbefore.closed (by simpa using hclosed)] at hlive
      cases hlive
    rw [applyAll, List.foldl_append]
    exact Following.live_of_gap hpublisher hopen hlive hgap

/-- A publisher's state at frame 0, and two streams after it: two frames, and one frame from `frame`
on. -/
def twoStreams (frame : UInt64) : List Outbound :=
  [.snapshot ⟨0, 0, [], .default, [], [1, 2, 3]⟩ 0,
    .stream 0 (encodePackets [.nextFrame 16, .nextFrame 16]),
    .stream frame (encodePackets [.nextFrame 17])]

/-- Somebody subscribes, and then the two streams are delivered as the writer merges them. -/
def twoStreamsMerged (frame : UInt64) : List FollowEvent :=
  .op .setSink :: (groups (twoStreams frame)).map fun g ↦ .deliver g []

theorem proper_twoStreams (r : Receiver) (publisher : PeerId) (frame : UInt64) :
    ∀ item ∈ [twoStreams frame].flatten, item.IsProper r publisher := by
  simp [twoStreams, Outbound.IsProper]

theorem delivered_twoStreams (frame : UInt64) :
    DeliverBatches [twoStreams frame] (twoStreamsMerged frame) := ⟨[], rfl⟩

theorem follows_safely_twoStreams :
    DeliverBatches [twoStreams 2] (twoStreamsMerged 2) ∧
      (applyAll .host rawZstd 2 (twoStreamsMerged 2) .new).slot.live = some 3 ∧
      FollowsSafely .host rawZstd 2 (twoStreams 2) (twoStreamsMerged 2) := by
  refine ⟨⟨[], rfl⟩, by decide +kernel, ?_⟩
  have hproper : ∀ item ∈ [twoStreams 2].flatten, item.IsProper .host 2 := proper_twoStreams _ _ _
  refine follows_safely (by decide) hproper (delivered_twoStreams 2) ?_
  have hgroups : (twoStreamsMerged 2).flatMap FollowEvent.groups =
      [.single (.snapshot ⟨0, 0, [], ⟨256, by decide⟩, [], [1, 2, 3]⟩ 0),
        .streams (0, encodePackets [.nextFrame 16, .nextFrame 16])
          [(2, encodePackets [.nextFrame 17])]] := rfl
  rw [hgroups]
  intro g hg
  rcases List.mem_cons.mp hg with rfl | hg
  · trivial
  · rw [List.mem_singleton.mp hg]
    refine fun _ ↦ ⟨?_, by decide +kernel, by decide +kernel⟩
    intro item hitem
    rcases List.mem_cons.mp hitem with rfl | hitem
    · exact ⟨[.nextFrame 16, .nextFrame 16], rfl⟩
    · rw [List.mem_singleton.mp hitem]
      exact ⟨[.nextFrame 17], rfl⟩

/-- **A gap inside a merged message is passed over**: one by one the second stream, of frame 5, would
have ended the live state at frame 2. -/
theorem follows_over_gap :
    ¬ ∀ (r : Receiver) (z : Zstd) (publisher : PeerId), publisher ≠ 0 →
      ∀ batches : List (List Outbound), (∀ item ∈ batches.flatten, item.IsProper r publisher) →
      ∀ events, DeliverBatches batches events →
        FollowsSafely r z publisher batches.flatten events := by
  intro h
  have hsafe := h .host rawZstd 2 (by decide) [twoStreams 5] (proper_twoStreams _ _ _)
    (twoStreamsMerged 5) (delivered_twoStreams 5)
  have hmerged : (applyAll .host rawZstd 2 (twoStreamsMerged 5) .new).shown.live = some 3 := by
    decide +kernel
  have hseparate : (applyAll .host rawZstd 2
      ((twoStreamsMerged 5).flatMap FollowEvent.separate) .new).shown.live = none := by
    decide +kernel
  rw [hsafe.same, hseparate] at hmerged
  cases hmerged

end PlayTogether

end SuperShuckie
