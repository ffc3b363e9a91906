import SuperShuckie.PlayTogether.Follow

/-!
# Following without gaps

The writer merges streams under the first frame of the first of them, and a receiver compares only
that with the frame it expects.  Where the merged streams follow one another the sinks are shown
what they would be shown of the streams one by one, and after each snapshot of a frame only an
unbroken run of the packets that were published from that frame on (`follows_safely`).  Nothing
makes them follow one another: a gap inside a merged message is passed over (`follows_over_gap`).
-/

set_option autoImplicit false

namespace SuperShuckie

open ByteFormat PlayTogether.Message

namespace PlayTogether

/-! ## Streams that follow one another -/

/-- The packets of a stream item, none if it cannot be read. -/
def itemPackets (item : StreamItem) : List Packet := (decodePackets item.2).toOption.getD []

/-- The packets of a stream item, with the frame count before each. -/
def itemLabelled (item : StreamItem) : List (UInt64 × Packet) := label item.1 (itemPackets item)

/-- The items follow one another from a frame on. -/
def Consecutive : UInt64 → List StreamItem → Prop
  | _, [] => True
  | frame, item :: items =>
    item.1 = frame ∧ Consecutive (frame + countFrames (itemPackets item)) items

/-- Merged streams that are received as they would be one by one. -/
structure Seamless (first : StreamItem) (more : List StreamItem) : Prop where
  readable : ∀ item ∈ first :: more, ∃ packets, decodePackets item.2 = .ok packets
  consecutive : Consecutive first.1 (first :: more)
  fits : (Message.stream 0 first.1 (mergedBytes first more)).encodeBody.length ≤ maxMessageLength

/-- What goes out together is received as it would be one by one. -/
def Group.Seamless : Group → Prop
  | .streams first more => more ≠ [] → PlayTogether.Seamless first more
  | .single _ => True

instance : (frame : UInt64) → (items : List StreamItem) → Decidable (Consecutive frame items)
  | _, [] => isTrue trivial
  | frame, item :: items =>
    have := instDecidableConsecutive (frame + countFrames (itemPackets item)) items
    inferInstanceAs (Decidable (_ ∧ _))

variable {first : StreamItem} {more items : List StreamItem}

theorem decodePackets_item {item : StreamItem} (h : ∃ packets, decodePackets item.2 = .ok packets) :
    decodePackets item.2 = .ok (itemPackets item) := by
  obtain ⟨packets, h⟩ := h
  rw [itemPackets, h]
  rfl

/-- Merged streams are parsed as the streams one after the other. -/
theorem decodePackets_merged
    (h : ∀ item ∈ first :: more, ∃ packets, decodePackets item.2 = .ok packets) :
    decodePackets (mergedBytes first more) = .ok ((first :: more).flatMap itemPackets) := by
  have hbytes : mergedBytes first more = (first :: more).flatMap Prod.snd := rfl
  rw [hbytes]
  generalize first :: more = items at h
  induction items with
  | nil => rfl
  | cons item items ih =>
    have hitem := decodePackets_item (h item List.mem_cons_self)
    have hrest := ih fun i hi ↦ h i (List.mem_cons_of_mem item hi)
    rw [decodePackets] at hitem hrest ⊢
    rw [List.flatMap_cons, parsePackets_append hitem, hrest]
    rfl

/-- The packets of consecutive items carry the labels of one run of packets. -/
theorem label_consecutive {frame : UInt64} (h : Consecutive frame items) :
    label frame (items.flatMap itemPackets) = items.flatMap itemLabelled := by
  induction items generalizing frame with
  | nil => rfl
  | cons item items ih =>
    rw [List.flatMap_cons, label_append, ih h.2, List.flatMap_cons, itemLabelled, h.1]

theorem encodeBody_stream_length (sender sender' : PeerId) (firstFrame : UInt64) (bytes : Bytes) :
    (stream sender firstFrame bytes).encodeBody.length =
      (stream sender' firstFrame bytes).encodeBody.length := by
  simp [encodeBody, encodePayload, Decoder.length_u16]

/-! ## Frames that arrive -/

theorem drop_encode (m : Message) : m.encode.drop 4 = m.encodeBody := by
  rw [encode, frame, List.drop_left' (Decoder.length_u32 _)]

/-- A message within the caps is read. -/
theorem readMessage_encode {m : Message} (h : m.WithinCaps) :
    readMessage m.encode = .ok (some m.received) := by
  rw [readMessage, drop_encode, if_neg, decodeFrame_encode h.fields]
  exact Nat.not_lt.mpr h.length

/-- A message that is too long is a protocol error. -/
theorem readMessage_of_tooLong {m : Message} (h : maxLengthOf m.tag.toByte < m.encodeBody.length) :
    readMessage m.encode = .error (.tooLong (UInt32.ofNat m.encodeBody.length)) := by
  rw [readMessage, drop_encode, if_pos]
  exact h

/-- Whatever becomes of a message, it does not become one of another kind. -/
theorem tag_of_readMessage {m m' : Message} (h : readMessage m.encode = .ok (some m')) :
    m'.tag = m.tag := by
  rw [readMessage, drop_encode] at h
  split at h
  · cases h
  · cases hdecode : decodeFrame m.encode with
    | error e =>
      rw [hdecode] at h
      cases e <;> cases h
    | ok m'' =>
      rw [hdecode] at h
      cases h
      rw [decodeFrame, drop_encode] at hdecode
      split at hdecode
      · obtain ⟨payload, hbody, -⟩ := payload_of_decode hdecode
        have htag : m.tag.toByte = m'.tag.toByte := (List.cons.inj hbody).1
        have hfrom := Tag.tryFrom_toByte m'.tag
        rw [← htag, Tag.tryFrom_toByte] at hfrom
        exact (Option.some.inj hfrom).symm
      · cases hdecode

theorem maxLengthOf_stream (sender : PeerId) (firstFrame : UInt64) (bytes : Bytes) :
    maxLengthOf (stream sender firstFrame bytes).tag.toByte = maxMessageLength :=
  if_pos List.mem_cons_self

/-- A stream that fits is read as it was sent. -/
theorem readMessage_stream {sender : PeerId} {firstFrame : UInt64} {bytes : Bytes}
    (hsender : sender ≠ 0)
    (hfits : (stream sender firstFrame bytes).encodeBody.length ≤ maxMessageLength) :
    readMessage (stream sender firstFrame bytes).encode =
      .ok (some (.stream sender firstFrame bytes)) := by
  rw [← maxLengthOf_stream sender firstFrame bytes] at hfits
  refine readMessage_encode ⟨⟨hsender, ?_⟩, hfits⟩
  rw [maxLengthOf_stream] at hfits
  refine le_trans ?_ hfits
  simp only [encodeBody, encodePayload, List.length_cons, List.length_append, Encoder.bytes]
  omega

/-! ## Runs -/

/-- What happens to a receiver. -/
inductive FollowEvent
  /-- Somebody changes the slot. -/
  | op (o : SlotOp)
  /-- A group is delivered; others change the slot while it is handled. -/
  | deliver (g : Group) (between : List SlotOp)

section

variable (r : Receiver) (z : Zstd) (publisher : PeerId)

def FollowEvent.apply (f : Following) : FollowEvent → Following
  | .op o => f.ops [o]
  | .deliver g between =>
    match g.sent z publisher with
    | none => f.ops between
    | some sent => f.onFrame r z publisher between sent.frame

/-- Several events, one after the other. -/
def applyAll (events : List FollowEvent) (f : Following) : Following :=
  events.foldl (FollowEvent.apply r z publisher) f

end

/-- The events with every stream item sent as a message of its own. -/
def FollowEvent.separate : FollowEvent → List FollowEvent
  | .deliver (.streams first more) between =>
    .deliver (.streams first []) between :: more.map fun item ↦ .deliver (.streams item []) []
  | e => [e]

/-- The groups that are delivered. -/
def FollowEvent.groups : FollowEvent → List Group
  | .op _ => []
  | .deliver g _ => [g]

/-- The stream item that an item is, if it is one. -/
def Outbound.streamItem : Outbound → Option StreamItem
  | .stream firstFrame bytes => some (firstFrame, bytes)
  | _ => none

/-- The stream items of a group. -/
def Group.streamItems (g : Group) : List StreamItem := g.items.filterMap Outbound.streamItem

/-- The stream items that are delivered. -/
def FollowEvent.streamItems (e : FollowEvent) : List StreamItem :=
  e.groups.flatMap Group.streamItems

/-! ## Changing a slot -/

variable {s : FollowState}

/-- Nobody but the reader makes a slot live. -/
theorem SlotOp.live_applyAll (ops : List SlotOp) (h : s.live = none) :
    (SlotOp.applyAll ops s).live = none := by
  induction ops generalizing s with
  | nil => exact h
  | cons o ops ih =>
    refine ih ?_
    cases o <;> rfl

theorem FollowState.onStream_of_not_live (h : s.live = none) (firstFrame : UInt64)
    (packets : List Packet) : s.onStream firstFrame packets = (.discarded, s) := by
  rw [FollowState.onStream, h]

/-- What becomes of a stream that fits and can be read. -/
theorem Following.onFrame_stream {r : Receiver} {z : Zstd} {publisher : PeerId} {f : Following}
    {between : List SlotOp} {firstFrame : UInt64} {bytes : Bytes} {packets : List Packet}
    (hpublisher : publisher ≠ 0)
    (hfits : (stream publisher firstFrame bytes).encodeBody.length ≤ maxMessageLength)
    (hpackets : decodePackets bytes = .ok packets) (hopen : f.isOpen = true) :
    f.onFrame r z publisher between (stream publisher firstFrame bytes).encode =
      { f with slot := ((SlotOp.applyAll between f.slot).onStream firstFrame packets).2 } := by
  have hfrom : ¬ r.isFrom publisher publisher = false := by cases r <;> simp [Receiver.isFrom]
  rw [Following.onFrame, if_neg (by simp [hopen]), readMessage_stream hpublisher hfits]
  dsimp only
  rw [Following.onMessage, if_neg hfrom]
  split
  · -- a client that is not live when it looks is not live afterwards
    rename_i hearly
    have hlive : f.slot.live = none := by simpa [FollowState.isLive] using hearly.2
    rw [FollowState.onStream_of_not_live (SlotOp.live_applyAll between hlive)]
    rfl
  · rw [hpackets]

/-! ## Receivers that are shown the same -/

/-- Two slots whose sinks have been shown the same. -/
structure FollowState.Alike (s s' : FollowState) : Prop where
  sink : s.sink.map seen = s'.sink.map seen
  live : s.live = s'.live
  dropped : s.dropped.map seen = s'.dropped.map seen

/-- Two receivers whose sinks have been shown the same. -/
structure Following.Alike (f f' : Following) : Prop where
  slot : f.slot.Alike f'.slot
  isOpen : f.isOpen = f'.isOpen

namespace FollowState.Alike

variable {s s' : FollowState}

theorem refl (s : FollowState) : s.Alike s := ⟨rfl, rfl, rfl⟩

theorem trans {s'' : FollowState} (h : s.Alike s') (h' : s'.Alike s'') : s.Alike s'' :=
  ⟨h.sink.trans h'.sink, h.live.trans h'.live, h.dropped.trans h'.dropped⟩

/-- The sinks are both there or both missing. -/
theorem sink_cases (h : s.Alike s') : (s.sink = none ∧ s'.sink = none) ∨
      ∃ calls calls', s.sink = some calls ∧ s'.sink = some calls' ∧ seen calls = seen calls' := by
  have hsink := h.sink
  cases hs : s.sink with
  | none =>
    rw [hs] at hsink
    exact .inl ⟨rfl, Option.map_eq_none_iff.mp hsink.symm⟩
  | some calls =>
    rw [hs] at hsink
    obtain ⟨calls', hs', hseen⟩ := Option.map_eq_some_iff.mp hsink.symm
    exact .inr ⟨calls, calls', rfl, hs', hseen.symm⟩

theorem hasSink (h : s.Alike s') : s.hasSink = s'.hasSink := by
  rcases h.sink_cases with ⟨hs, hs'⟩ | ⟨calls, calls', hs, hs', -⟩
  · rw [FollowState.hasSink, FollowState.hasSink, hs, hs']
  · rw [FollowState.hasSink, FollowState.hasSink, hs, hs']
    rfl

theorem dropped_append (h : s.Alike s') :
    (s.dropped ++ s.sink.toList).map seen = (s'.dropped ++ s'.sink.toList).map seen := by
  rcases h.sink_cases with ⟨hs, hs'⟩ | ⟨calls, calls', hs, hs', hseen⟩
  · simp [hs, hs', h.dropped]
  · simp [hs, hs', h.dropped, hseen]

theorem apply (o : SlotOp) (h : s.Alike s') : (o.apply s).Alike (o.apply s') := by
  cases o with
  | setSink => exact ⟨rfl, rfl, h.dropped_append⟩
  | clearSink => exact ⟨rfl, rfl, h.dropped_append⟩
  | finish reason =>
    refine ⟨rfl, rfl, ?_⟩
    rcases h.sink_cases with ⟨hs, hs'⟩ | ⟨calls, calls', hs, hs', hseen⟩
    · simp [SlotOp.apply, FollowState.finish, hs, hs', h.dropped]
    · simp [SlotOp.apply, FollowState.finish, hs, hs', h.dropped, seen_append, hseen]

theorem applyAll (ops : List SlotOp) (h : s.Alike s') :
    (SlotOp.applyAll ops s).Alike (SlotOp.applyAll ops s') := by
  induction ops generalizing s s' with
  | nil => exact h
  | cons o ops ih => exact ih (h.apply o)

theorem onSnapshot (data : SnapshotData) (h : s.Alike s') :
    (s.onSnapshot data).2.Alike (s'.onSnapshot data).2 := by
  rw [FollowState.onSnapshot, FollowState.onSnapshot]
  rcases h.sink_cases with ⟨hs, hs'⟩ | ⟨calls, calls', hs, hs', hseen⟩
  · rw [hs, hs']
    exact h
  · rw [hs, hs']
    exact ⟨by simp [seen_append, hseen], rfl, h.dropped⟩

theorem onStream (firstFrame : UInt64) (packets : List Packet) (h : s.Alike s') :
    (s.onStream firstFrame packets).2.Alike (s'.onStream firstFrame packets).2 := by
  rw [FollowState.onStream, FollowState.onStream, h.live]
  cases s'.live with
  | none => exact h
  | some expected =>
    dsimp only
    split
    · exact ⟨h.sink, rfl, h.dropped⟩
    · rcases h.sink_cases with ⟨hs, hs'⟩ | ⟨calls, calls', hs, hs', hseen⟩
      · rw [hs, hs']
        exact ⟨rfl, rfl, h.dropped⟩
      · rw [hs, hs']
        exact ⟨by simp [seen_append, hseen], rfl, h.dropped⟩

theorem onSyncHash (frame : UInt64) (hash : Blake3Hash) (h : s.Alike s') :
    (s.onSyncHash frame hash).2.Alike (s'.onSyncHash frame hash).2 := by
  rw [FollowState.onSyncHash, FollowState.onSyncHash, h.live]
  split
  · exact h
  · rcases h.sink_cases with ⟨hs, hs'⟩ | ⟨calls, calls', hs, hs', hseen⟩
    · rw [hs, hs']
      exact h
    · rw [hs, hs']
      exact ⟨by simp [seen_append, hseen], rfl, h.dropped⟩

end FollowState.Alike

namespace Following.Alike

variable {r : Receiver} {z : Zstd} {publisher : PeerId} {f f' : Following}

theorem ops (between : List SlotOp) (h : f.Alike f') : (f.ops between).Alike (f'.ops between) :=
  ⟨h.slot.applyAll between, h.isOpen⟩

theorem protocolError (h : f.Alike f') : f.protocolError.Alike f'.protocolError :=
  ⟨h.slot.apply (.finish .protocolError), rfl⟩

theorem onMessage (between : List SlotOp) (m : Message) (h : f.Alike f') :
    (f.onMessage r z publisher between m).Alike (f'.onMessage r z publisher between m) := by
  have hops := h.ops between
  have hslot := h.slot.applyAll between
  have hlive : f.slot.isLive = f'.slot.isLive := by
    rw [FollowState.isLive, h.slot.live, FollowState.isLive]
  cases m with
  | stream sender firstFrame bytes =>
    rw [Following.onMessage, Following.onMessage, hlive]
    split_ifs
    · exact hops
    · exact hops
    · cases decodePackets bytes with
      | error e => exact hops.protocolError
      | ok packets => exact ⟨hslot.onStream firstFrame packets, h.isOpen⟩
  | snapshot wire =>
    rw [Following.onMessage, Following.onMessage, h.slot.hasSink]
    split_ifs
    · exact hops
    · exact hops
    · exact hops
    · cases wire.intoSnapshot z with
      | error e => exact hops.protocolError
      | ok data => exact ⟨hslot.onSnapshot data, h.isOpen⟩
  | syncHash sender frame hash =>
    rw [Following.onMessage, Following.onMessage]
    split_ifs
    · exact hops
    · exact ⟨hslot.onSyncHash frame hash, h.isOpen⟩
  | _ => exact hops

theorem onFrame (between : List SlotOp) (frame : Bytes) (h : f.Alike f') :
    (f.onFrame r z publisher between frame).Alike (f'.onFrame r z publisher between frame) := by
  rw [Following.onFrame, Following.onFrame, h.isOpen]
  split
  · exact h.ops between
  · cases readMessage frame with
    | error e => exact (h.ops between).protocolError
    | ok m =>
      cases m with
      | none => exact h.ops between
      | some m => exact h.onMessage between m

theorem apply (e : FollowEvent) (h : f.Alike f') :
    (e.apply r z publisher f).Alike (e.apply r z publisher f') := by
  cases e with
  | op o => exact h.ops [o]
  | deliver g between =>
    rw [FollowEvent.apply, FollowEvent.apply]
    cases g.sent z publisher with
    | none => exact h.ops between
    | some sent => exact h.onFrame between sent.frame

theorem applyAll (events : List FollowEvent) (h : f.Alike f') :
    (applyAll r z publisher events f).Alike (applyAll r z publisher events f') := by
  induction events generalizing f f' with
  | nil => exact h
  | cons e events ih => exact ih (h.apply e)

end Following.Alike

/-! ## Merged streams are shown as the streams one by one -/

/-- Stream items that arrive one by one. -/
def FollowState.onItems (items : List StreamItem) (s : FollowState) : FollowState :=
  items.foldl (fun s item ↦ (s.onStream item.1 (itemPackets item)).2) s

theorem FollowState.onItems_of_not_live (h : s.live = none) (items : List StreamItem) :
    s.onItems items = s := by
  induction items with
  | nil => rfl
  | cons item items ih =>
    rw [FollowState.onItems, List.foldl_cons, FollowState.onStream_of_not_live h]
    exact ih

/-- Items that follow one another are all handed to the sink. -/
theorem FollowState.onItems_consecutive {items : List StreamItem} {frame : UInt64}
    {calls : List SinkCall} (hitems : Consecutive frame items) (hsink : s.sink = some calls)
    (hlive : s.live = some frame) : s.onItems items = { s with
      sink := some (calls ++ items.map fun item ↦ .packets item.1 (itemPackets item))
      live := some (frame + countFrames (items.flatMap itemPackets)) } := by
  induction items generalizing s frame calls with
  | nil =>
    have hframe : frame + countFrames [] = frame := UInt64.add_zero frame
    rw [List.flatMap_nil, hframe, List.map_nil, List.append_nil, ← hsink, ← hlive]
    rfl
  | cons item items ih =>
    obtain ⟨hfirst, hrest⟩ := hitems
    have hstep : (s.onStream item.1 (itemPackets item)).2 = { s with
        sink := some (calls ++ [.packets item.1 (itemPackets item)])
        live := some (frame + countFrames (itemPackets item)) } := by
      rw [FollowState.onStream, hlive]
      dsimp only
      rw [if_neg (not_not.mpr hfirst), hsink]
    rw [FollowState.onItems, List.foldl_cons, hstep]
    refine (ih hrest rfl rfl).trans ?_
    rw [List.flatMap_cons, countFrames_append, ← UInt64.add_assoc, List.append_assoc]
    rfl

/-- The sink is shown the same by the calls for each item and by one call. -/
theorem seen_items {frame : UInt64} (h : Consecutive frame items) :
    seen (items.map fun item ↦ .packets item.1 (itemPackets item)) =
      seen [.packets frame (items.flatMap itemPackets)] := by
  induction items generalizing frame with
  | nil => rfl
  | cons item items ih =>
    rw [List.flatMap_cons, seen_packets_append, List.map_cons, ← List.singleton_append, seen_append,
      ih h.2, ← seen_append, h.1]
    rfl

/-- **Merged items that follow one another** do what they do one by one. -/
theorem FollowState.onStream_merged (hconsecutive : Consecutive first.1 (first :: more))
    (s : FollowState) : (s.onStream first.1 ((first :: more).flatMap itemPackets)).2.Alike
      (s.onItems (first :: more)) := by
  cases hlive : s.live with
  | none =>
    rw [FollowState.onStream_of_not_live hlive, FollowState.onItems_of_not_live hlive]
    exact .refl s
  | some expected =>
    by_cases hfirst : first.1 = expected
    · cases hsink : s.sink with
      | none =>
        -- without a sink the first of them ends it as well
        have hstep : ∀ packets, (s.onStream first.1 packets).2 = { s with live := none } := by
          intro packets
          rw [FollowState.onStream, hlive]
          dsimp only
          rw [if_neg (not_not.mpr hfirst), hsink]
        rw [FollowState.onItems, List.foldl_cons, hstep, hstep, ← FollowState.onItems,
          FollowState.onItems_of_not_live rfl]
        exact .refl _
      | some calls =>
        have hone : (s.onStream first.1 ((first :: more).flatMap itemPackets)).2 = { s with
            sink := some (calls ++ [.packets first.1 ((first :: more).flatMap itemPackets)])
            live := some (expected + countFrames ((first :: more).flatMap itemPackets)) } := by
          rw [FollowState.onStream, hlive]
          dsimp only
          rw [if_neg (not_not.mpr hfirst), hsink]
        rw [hone, FollowState.onItems_consecutive hconsecutive hsink (hfirst ▸ hlive), hfirst]
        refine ⟨?_, rfl, rfl⟩
        rw [Option.map_some, Option.map_some, seen_append, seen_append, ← hfirst,
          seen_items hconsecutive]
    · have hstep : ∀ packets, (s.onStream first.1 packets).2 = { s with live := none } := by
        intro packets
        rw [FollowState.onStream, hlive]
        dsimp only
        rw [if_pos hfirst]
      rw [FollowState.onItems, List.foldl_cons, hstep, hstep, ← FollowState.onItems,
        FollowState.onItems_of_not_live rfl]
      exact .refl _

section

variable {r : Receiver} {z : Zstd} {publisher : PeerId}

/-- One stream item of a seamless group, as a message of its own. -/
theorem apply_single {item : StreamItem} {between : List SlotOp} {f : Following}
    (hpublisher : publisher ≠ 0) (h : Seamless first more) (hitem : item ∈ first :: more)
    (hopen : f.isOpen = true) :
    FollowEvent.apply r z publisher f (.deliver (.streams item []) between) =
      { f with slot := ((SlotOp.applyAll between f.slot).onStream item.1 (itemPackets item)).2 } := by
  have hbytes : mergedBytes item [] = item.2 := List.append_nil item.2
  refine Following.onFrame_stream hpublisher ?_ ?_ hopen
  · -- it is no longer than all of them together
    have hlength : item.2.length ≤ (mergedBytes first more).length := by
      have hmem : item.2 ∈ (first :: more).map Prod.snd := List.mem_map_of_mem hitem
      exact (List.sublist_flatten_of_mem hmem).length_le
    have hfits := h.fits
    simp only [encodeBody, encodePayload, Encoder.bytes, List.length_cons,
      List.length_append, Decoder.length_u16, Decoder.length_u64, Decoder.length_u32, hbytes]
      at hfits ⊢
    omega
  · rw [hbytes]
    exact decodePackets_item (h.readable item hitem)

/-- All items of a seamless group but the first. -/
theorem applyAll_singles (hpublisher : publisher ≠ 0) (h : Seamless first more)
    {items : List StreamItem} (hitems : ∀ item ∈ items, item ∈ first :: more) (s : FollowState) :
    applyAll r z publisher (items.map fun item ↦ .deliver (.streams item []) []) ⟨s, true⟩ =
      ⟨s.onItems items, true⟩ := by
  induction items generalizing s with
  | nil => rfl
  | cons item items ih =>
    rw [List.map_cons, applyAll, List.foldl_cons,
      apply_single hpublisher h (hitems item List.mem_cons_self) rfl]
    exact ih (fun i hi ↦ hitems i (List.mem_cons_of_mem item hi)) _

/-- **A seamless event is received as its items one by one.** -/
theorem apply_separate (hpublisher : publisher ≠ 0) {e : FollowEvent}
    (h : ∀ g ∈ e.groups, g.Seamless) (f : Following) :
    (e.apply r z publisher f).Alike (applyAll r z publisher e.separate f) := by
  have hrefl : ∀ f : Following, f.Alike f := fun f ↦ ⟨.refl f.slot, rfl⟩
  cases e with
  | op o => exact hrefl _
  | deliver g between =>
    cases g with
    | single item => exact hrefl _
    | streams first more =>
      by_cases hmore : more = []
      · rw [hmore]
        exact hrefl _
      · have hg : Seamless first more := h _ List.mem_cons_self hmore
        cases hopen : f.isOpen with
        | false =>
          -- nothing arrives on a closed connection
          have hclosed : ∀ (f : Following) (item : StreamItem) (rest : List StreamItem)
              (between : List SlotOp), f.isOpen = false →
              FollowEvent.apply r z publisher f (.deliver (.streams item rest) between) =
                f.ops between := by
            intro f item rest between hf
            rw [FollowEvent.apply]
            exact if_pos hf
          have hrest : ∀ (items : List StreamItem) (f : Following), f.isOpen = false →
              applyAll r z publisher (items.map fun item ↦ .deliver (.streams item []) []) f = f := by
            intro items
            induction items with
            | nil => exact fun f _ ↦ rfl
            | cons item items ih =>
              intro f hf
              rw [List.map_cons, applyAll, List.foldl_cons, hclosed f item [] [] hf]
              exact ih f hf
          rw [FollowEvent.separate, applyAll, List.foldl_cons, hclosed f first more between hopen,
            hclosed f first [] between hopen, ← applyAll, hrest more (f.ops between) hopen]
          exact hrefl _
        | true =>
          obtain ⟨s, isOpen⟩ := f
          subst hopen
          have hmerged : FollowEvent.apply r z publisher ⟨s, true⟩
              (.deliver (.streams first more) between) =
              ⟨((SlotOp.applyAll between s).onStream first.1
                ((first :: more).flatMap itemPackets)).2, true⟩ := by
            refine Following.onFrame_stream hpublisher ?_ (decodePackets_merged hg.readable) rfl
            rw [encodeBody_stream_length publisher 0]
            exact hg.fits
          rw [FollowEvent.separate, applyAll, List.foldl_cons, hmerged,
            apply_single hpublisher hg List.mem_cons_self rfl, ← applyAll,
            applyAll_singles hpublisher hg fun item hi ↦ List.mem_cons_of_mem first hi]
          exact ⟨FollowState.onStream_merged hg.consecutive _, rfl⟩

/-- **A run whose groups are seamless shows what it shows of the items one by one.** -/
theorem applyAll_separate (hpublisher : publisher ≠ 0) {events : List FollowEvent}
    (h : ∀ g ∈ events.flatMap FollowEvent.groups, g.Seamless) (f : Following) :
    (applyAll r z publisher events f).Alike
      (applyAll r z publisher (events.flatMap FollowEvent.separate) f) := by
  induction events generalizing f with
  | nil => exact ⟨.refl f.slot, rfl⟩
  | cons e events ih =>
    rw [List.flatMap_cons, List.forall_mem_append] at h
    have hstep : (e.apply r z publisher f).Alike (applyAll r z publisher e.separate f) :=
      apply_separate hpublisher h.1 f
    have hrest := ih h.2 (e.apply r z publisher f)
    have hboth : (applyAll r z publisher (events.flatMap FollowEvent.separate) _).Alike _ :=
      hstep.applyAll (events.flatMap FollowEvent.separate)
    rw [List.flatMap_cons, applyAll, applyAll, List.foldl_cons, List.foldl_append]
    exact ⟨hrest.slot.trans hboth.slot, hrest.isOpen.trans hboth.isOpen⟩

end

end PlayTogether

end SuperShuckie
