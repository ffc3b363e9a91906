import SuperShuckie.Lib.Runs
import SuperShuckie.PlayTogether.Publishing

/-!
# The writer of a connection

Anyone may queue what is to be sent on a connection; its writer thread drains the queue, encodes what
it took, and hands it to the socket in runs that end on message boundaries, looking at the urgent lane
in between.  A step of the machine below is what happens between two moments at which another thread
can get in: a push, a drain, one write that the socket takes some of, the move to the next buffer.
-/

set_option autoImplicit false

namespace SuperShuckie

open ByteFormat

namespace PlayTogether

/-! ## The queue, as its writer sees it -/

/-- What a writer got from one `waitDrain`. -/
structure Drained where
  items : List Outbound
  /-- The urgent lane's messages, written before `items`. -/
  urgent : List Bytes
  /-- Whether these are the last items and the writer should stop. -/
  closed : Bool

namespace OutboundQueue

/-- Take everything. -/
def waitDrain (q : OutboundQueue) : Drained × OutboundQueue :=
  (⟨q.items, q.urgent, q.closed⟩,
    { q with
      items := []
      urgent := []
      bytes := 0
      bytes_eq := new.bytes_eq
      bytes_le := Nat.zero_le _
      items_le := Nat.zero_le _ })

/-- Take whatever is on the urgent lane right now. -/
def takeUrgent (q : OutboundQueue) : List Bytes × OutboundQueue :=
  (q.urgent,
    { q with
      urgent := []
      bytes := q.bytes - min (q.urgent.map List.length).sum q.bytes
      bytes_eq := by
        have := q.bytes_eq
        simp only [List.map_nil, List.sum_nil]
        omega
      bytes_le := by
        have := q.bytes_le
        omega })

/-- No more pushes; the writer sends what is left, unless it is discarded, and stops. -/
def close (discard : Bool) (q : OutboundQueue) : OutboundQueue :=
  if discard then
    { q with
      closed := true
      items := []
      urgent := []
      bytes := 0
      bytes_eq := new.bytes_eq
      bytes_le := Nat.zero_le _
      items_le := Nat.zero_le _ }
  else { q with closed := true }

/-- What an accepted item does to the queue. -/
theorem tryPush_eq_ok {q q' : OutboundQueue} {item : Outbound} (h : q.tryPush item = .ok q') :
    q.closed = false ∧ q'.closed = false ∧ q'.items = q.items ++ [item] ∧ q'.urgent = q.urgent := by
  rw [tryPush] at h
  split_ifs at h with hclosed hfull
  cases h
  exact ⟨Bool.eq_false_iff.mpr hclosed, Bool.eq_false_iff.mpr hclosed, rfl, rfl⟩

/-- What an accepted urgent message does to the queue, whose two lanes had room for it. -/
theorem tryPushUrgent_eq_ok {q q' : OutboundQueue} {frame : Bytes}
    (h : q.tryPushUrgent frame = .ok q') :
    q.closed = false ∧ q'.closed = false ∧ q'.items = q.items ∧ q'.urgent = q.urgent ++ [frame] ∧
      q'.items.length + q'.urgent.length ≤ maxQueueItems := by
  rw [tryPushUrgent] at h
  split_ifs at h with hclosed hfull
  cases h
  refine ⟨Bool.eq_false_iff.mpr hclosed, Bool.eq_false_iff.mpr hclosed, rfl, rfl, ?_⟩
  show q.items.length + (q.urgent ++ [frame]).length ≤ maxQueueItems
  rw [List.length_append, List.length_singleton]
  omega

end OutboundQueue

/-! ## Runs -/

/-- How many bytes of a batch the writer hands to the socket before it looks at the urgent lane
again. -/
def writeRun : Nat := 64 * 2 ^ 10

/-- Split what follows `start` into runs that end on the given boundaries. -/
def runsGo : Nat → List Nat → List (Nat × Nat)
  | _, [] => []
  | start, stop :: stops =>
    if writeRun ≤ stop - start ∨ stops = [] then (start, stop) :: runsGo stop stops
    else runsGo start stops

/-- Split a batch into runs of about `writeRun` bytes that end on message boundaries. -/
def EncodedBatch.runs (batch : EncodedBatch) : List (Nat × Nat) := runsGo 0 batch.boundaries

/-- The last run goes to the end of the bytes, which may hold a ping behind the last boundary. -/
def extendLast (stop : Nat) (runs : List (Nat × Nat)) : List (Nat × Nat) :=
  match runs.getLast? with
  | some last => runs.dropLast ++ [(last.1, stop)]
  | none => [(0, stop)]

/-- The bytes of a run. -/
def slice (bytes : Bytes) (run : Nat × Nat) : Bytes := (bytes.take run.2).drop run.1

/-- What the writer hands to the socket of a batch with a ping behind it. -/
def EncodedBatch.writes (batch : EncodedBatch) (ping : Bytes) : List Bytes :=
  let bytes := batch.bytes ++ ping
  if bytes = [] then []
  else (extendLast bytes.length batch.runs).map (slice bytes)

/-! ## The writer -/

/-- Where the writer thread is. -/
inductive Writer
  /-- About to wait for something to send. -/
  | waiting
  /-- Handing `now` to the socket, one buffer after the other; `runs` follow.  `last` says that the
  queue was closed when they were drained. -/
  | writing (now runs : List Bytes) (last : Bool)
  /-- Everything was sent. -/
  | done
  /-- The socket failed, or timed out while the connection was closing. -/
  | failed

/-- A connection: its queue, its writer and what its socket has taken.  What was accepted by the two
lanes and what was reported as dropped is kept beside them. -/
structure Connection where
  queue : OutboundQueue
  writer : Writer
  written : Bytes
  items : List Outbound
  urgent : List Bytes
  dropped : List String

namespace Connection

/-- A connection that was just made. -/
def new : Connection := ⟨.new, .waiting, [], [], [], []⟩

/-- What happens on a connection. -/
inductive Event
  | push (item : Outbound)
  | pushUrgent (frame : Bytes)
  | close
  /-- The writer takes what waits, as `sender`, and decides whether a ping is due. -/
  | drain (sender : PeerId) (ping : Option (UInt32 × UInt64))
  /-- The socket takes so many bytes of the buffer. -/
  | write (n : Nat)
  /-- The buffer is empty: the writer moves on. -/
  | advance
  | fail

/-- The `Ping` that goes out with a batch: none once the queue is closed. -/
def pingMessage (closed : Bool) (ping : Option (UInt32 × UInt64)) : Option Message :=
  if closed then none else ping.map fun p ↦ .ping p.1 p.2

/-- The writer takes what waits: the urgent lane goes first, and then the first run. -/
def drain (z : Zstd) (sender : PeerId) (ping : Option (UInt32 × UInt64)) (c : Connection) :
    Connection :=
  let (drained, queue) := c.queue.waitDrain
  let batch := encodeOutbound z drained.items sender
  let runs := batch.writes ((pingMessage drained.closed ping).elim [] Message.encode)
  { c with
    queue
    writer := .writing (drained.urgent ++ runs.take 1) (runs.drop 1) drained.closed
    dropped := c.dropped ++ batch.dropped }

/-- What happens at an event; the writer's own events happen only where its thread is at them. -/
def step (z : Zstd) : Event → Connection → Connection
  | .push item, c =>
    match c.queue.tryPush item with
    | .ok queue => { c with queue, items := c.items ++ [item] }
    | .error _ => c
  | .pushUrgent frame, c =>
    match c.queue.tryPushUrgent frame with
    | .ok queue => { c with queue, urgent := c.urgent ++ [frame] }
    | .error _ => c
  | .close, c => { c with queue := c.queue.close false }
  | .drain sender ping, c =>
    match c.writer with
    | .waiting => c.drain z sender ping
    | _ => c
  | .write n, c =>
    match c.writer with
    | .writing (buf :: now) runs last =>
      if buf = [] then c
      -- a socket that accepts no bytes has failed
      else if n = 0 then { c with writer := .failed }
      else
        { c with
          writer := .writing (buf.drop n :: now) runs last
          written := c.written ++ buf.take n }
    | _ => c
  | .advance, c =>
    match c.writer with
    | .writing ([] :: now) runs last => { c with writer := .writing now runs last }
    | .writing [] (run :: runs) last =>
      let (urgent, queue) := c.queue.takeUrgent
      { c with queue, writer := .writing (urgent ++ [run]) runs last }
    | .writing [] [] last => { c with writer := if last then .done else .waiting }
    | _ => c
  | .fail, c =>
    match c.writer with
    | .done => c
    | _ => { c with writer := .failed }

end Connection

/-! ## Runs end on message boundaries -/

/-- Where chunks of frames are, when the first starts at `start`. -/
def spans : Nat → List (List Bytes) → List (Nat × Nat)
  | _, [] => []
  | start, chunk :: chunks =>
    (start, start + chunk.flatten.length) :: spans (start + chunk.flatten.length) chunks

theorem spans_append {start : Nat} {chunks more : List (List Bytes)} :
    spans start (chunks ++ more) =
      spans start chunks ++ spans (start + chunks.flatten.flatten.length) more := by
  induction chunks generalizing start with
  | nil => rfl
  | cons chunk chunks ih =>
    simp only [List.cons_append, spans, ih, List.flatten_cons, List.flatten_append,
      List.length_append, Nat.add_assoc]

/-- **No run splits a frame**: `acc` are the frames of the run that is being collected. -/
theorem runsGo_frameEnds {frames acc : List Bytes} {start : Nat} (h : frames ≠ []) :
    ∃ chunks, chunks ≠ [] ∧ chunks.flatten = acc ++ frames ∧
      runsGo start (frameEnds (start + acc.flatten.length) frames) = spans start chunks := by
  induction frames generalizing acc start with
  | nil => exact absurd rfl h
  | cons frame frames ih =>
    have hstop : start + acc.flatten.length + frame.length =
        start + (acc ++ [frame]).flatten.length := by simp [Nat.add_assoc]
    rw [frameEnds, runsGo, hstop]
    by_cases hframes : frames = []
    · rw [if_pos (.inr (by rw [hframes]; rfl))]
      exact ⟨[acc ++ [frame]], by simp, by simp [hframes], by rw [hframes]; rfl⟩
    · split_ifs with hrun
      · obtain ⟨chunks, hne, hflat, hruns⟩ :=
          @ih [] (start + (acc ++ [frame]).flatten.length) hframes
        refine ⟨(acc ++ [frame]) :: chunks, List.cons_ne_nil _ _, by simp [hflat], ?_⟩
        rw [spans, ← hruns]
        rfl
      · obtain ⟨chunks, hne, hflat, hruns⟩ := @ih (acc ++ [frame]) start hframes
        exact ⟨chunks, hne, by simp [hflat], hruns⟩

theorem map_slice_spans {chunks : List (List Bytes)} {before after : Bytes} :
    (spans before.length chunks).map (slice (before ++ (chunks.flatten.flatten ++ after))) =
      chunks.map List.flatten := by
  induction chunks generalizing before with
  | nil => rfl
  | cons chunk chunks ih =>
    have hrest := @ih (before ++ chunk.flatten)
    have hbytes : before ++ ((chunk :: chunks).flatten.flatten ++ after) =
        before ++ chunk.flatten ++ (chunks.flatten.flatten ++ after) := by simp
    rw [List.length_append, ← hbytes] at hrest
    rw [spans, List.map_cons, List.map_cons, hrest, hbytes, slice, ← List.length_append,
      List.take_left, List.drop_left]

/-- What is handed to the socket, one chunk of whole frames after the other. -/
theorem writes_eq {batch : EncodedBatch} {frames pings : List Bytes} (h : batch.Holds frames)
    (hne : (frames ++ pings).flatten ≠ []) :
    ∃ chunks : List (List Bytes), chunks.flatten = frames ++ pings ∧
      batch.writes pings.flatten = chunks.map List.flatten := by
  have hbytes : batch.bytes ++ pings.flatten = (frames ++ pings).flatten := by
    rw [h.1, List.flatten_append]
  have hslice : ∀ chunks : List (List Bytes), chunks.flatten = frames ++ pings →
      (spans 0 chunks).map (slice (frames ++ pings).flatten) = chunks.map List.flatten := by
    intro chunks hchunks
    have hmap := @map_slice_spans chunks [] []
    rwa [List.nil_append, List.append_nil, hchunks] at hmap
  rw [EncodedBatch.writes, hbytes, if_neg hne, EncodedBatch.runs, h.2]
  by_cases hframes : frames = []
  · subst hframes
    refine ⟨[pings], List.append_nil _, ?_⟩
    rw [← hslice [pings] (List.append_nil _)]
    simp [frameEnds, runsGo, extendLast, spans]
  · obtain ⟨chunks, hchunks, hflat, hruns⟩ := @runsGo_frameEnds _ [] 0 hframes
    rw [List.flatten_nil, List.length_nil, Nat.add_zero] at hruns
    obtain ⟨init, last, rfl⟩ := (List.eq_nil_or_concat chunks).resolve_left hchunks
    rw [List.concat_eq_append] at hflat hruns
    have hpings : (init ++ [last ++ pings]).flatten = frames ++ pings := by
      rw [List.flatten_concat, ← List.append_assoc, ← List.flatten_concat, hflat, List.nil_append]
    refine ⟨init ++ [last ++ pings], hpings, ?_⟩
    rw [← hslice _ hpings, hruns, spans_append, spans_append]
    congr 1
    have hlength : (frames ++ pings).flatten.length =
        0 + init.flatten.flatten.length + (last ++ pings).flatten.length := by
      rw [← hpings]
      simp
    simp only [spans, extendLast, List.getLast?_concat, List.dropLast_concat, hlength]

/-! ## What is on the wire -/

/-- What goes out on a connection. -/
inductive Wire
  | urgent (frame : Bytes)
  | group (sender : PeerId) (g : Group)
  | ping (m : Message)

namespace Wire

/-- The frame of it; a group whose only item is dropped has none. -/
def frame (z : Zstd) : Wire → Option Bytes
  | urgent frame => some frame
  | group sender g => (g.sent z sender).map Sent.frame
  | ping m => some m.encode

/-- The message of the urgent lane that it is. -/
def urgent? : Wire → Option Bytes
  | urgent frame => some frame
  | _ => none

/-- The items whose content it is. -/
def items : Wire → List Outbound
  | group _ g => g.items
  | _ => []

/-- What is reported as dropped. -/
def dropped (z : Zstd) : Wire → List String
  | group sender g => g.items.filterMap (Outbound.droppedText z sender)
  | _ => []

end Wire

/-- The bytes of what goes out: whole frames, one after the other. -/
def wireBytes (z : Zstd) (wires : List Wire) : Bytes := (wires.filterMap (Wire.frame z)).flatten

theorem wireBytes_append {z : Zstd} {wires more : List Wire} :
    wireBytes z (wires ++ more) = wireBytes z wires ++ wireBytes z more := by
  rw [wireBytes, List.filterMap_append, List.flatten_append]
  rfl

/-- A partition of what is left of a list comes from one of the list. -/
theorem exists_chunks_of_filterMap {α β : Type} {f : α → Option β} {chunks : List (List β)}
    {as : List α} (h : as.filterMap f = chunks.flatten) (hne : chunks ≠ []) :
    ∃ parts : List (List α), parts.flatten = as ∧ parts.map (List.filterMap f) = chunks := by
  induction chunks generalizing as with
  | nil => exact absurd rfl hne
  | cons chunk chunks ih =>
    by_cases hchunks : chunks = []
    · refine ⟨[as], List.append_nil _, ?_⟩
      rw [List.map_singleton, h, hchunks, List.flatten_singleton]
    · rw [List.flatten_cons, List.filterMap_eq_append_iff] at h
      obtain ⟨as₁, as₂, rfl, h₁, h₂⟩ := h
      obtain ⟨parts, hparts, hmap⟩ := ih h₂ hchunks
      exact ⟨as₁ :: parts, by rw [List.flatten_cons, hparts], by rw [List.map_cons, h₁, hmap]⟩

/-- What goes out of a batch. -/
def batchWires (sender : PeerId) (items : List Outbound) (ping : Option Message) : List Wire :=
  (groups items).map (Wire.group sender) ++ ping.toList.map Wire.ping

variable {items : List Outbound} {ping : Option Message} {sender : PeerId}

theorem filterMap_batchWires {z : Zstd} : (batchWires sender items ping).filterMap (Wire.frame z) =
      sentFrames z sender (groups items) ++ ping.toList.map Message.encode := by
  rw [batchWires, List.filterMap_append, List.filterMap_map, List.filterMap_map, sentFrames,
    List.map_filterMap]
  congr 1
  cases ping <;> rfl

theorem urgent_batchWires {w : Wire} (h : w ∈ batchWires sender items ping) : w.urgent? = none := by
  rcases List.mem_append.mp h with h | h <;> obtain ⟨_, _, rfl⟩ := List.mem_map.mp h <;> rfl

theorem items_batchWires : (batchWires sender items ping).flatMap Wire.items = items := by
  rw [batchWires, List.flatMap_append, List.flatMap_map, List.flatMap_map]
  have hping : ping.toList.flatMap (fun m ↦ (Wire.ping m).items) = [] := by
    cases ping <;> rfl
  rw [hping, List.append_nil]
  exact items_groups items

theorem dropped_batchWires {z : Zstd} : (batchWires sender items ping).flatMap (Wire.dropped z) =
      (encodeOutbound z items sender).dropped := by
  rw [encodeOutbound_dropped, batchWires, List.flatMap_append, List.flatMap_map, List.flatMap_map]
  have hping : ping.toList.flatMap (fun m ↦ (Wire.ping m).dropped z) = [] := by
    cases ping <;> rfl
  have hgroups : ∀ gs : List Group, gs.flatMap (fun g ↦ (Wire.group sender g).dropped z) =
      (gs.flatMap Group.items).filterMap (Outbound.droppedText z sender) := by
    intro gs
    rw [List.filterMap_flatMap]
    rfl
  rw [hping, List.append_nil, hgroups, items_groups]

/-- The buffers of a batch are chunks of what goes out. -/
theorem writes_chunks (z : Zstd) (sender : PeerId) (items : List Outbound) (ping : Option Message) :
    ∃ first : List Wire, ∃ chunks : List (List Wire),
      first ++ chunks.flatten = batchWires sender items ping ∧
      (((encodeOutbound z items sender).writes (ping.elim [] Message.encode)).take 1).flatten =
        wireBytes z first ∧
      ((encodeOutbound z items sender).writes (ping.elim [] Message.encode)).drop 1 =
        chunks.map (wireBytes z) := by
  have hping : ping.elim [] Message.encode = (ping.toList.map Message.encode).flatten := by
    cases ping <;> simp
  have hholds := encodeOutbound_holds z items sender
  rw [hping]
  by_cases hempty : (sentFrames z sender (groups items) ++ ping.toList.map Message.encode).flatten = []
  · refine ⟨batchWires sender items ping, [], List.append_nil _, ?_, ?_⟩ <;>
      rw [EncodedBatch.writes, hholds.1, ← List.flatten_append, if_pos hempty]
    · rw [wireBytes, filterMap_batchWires, hempty]
      rfl
    · rfl
  · obtain ⟨chunks, hflat, hwrites⟩ := writes_eq hholds hempty
    have hne : chunks ≠ [] := by
      rintro rfl
      rw [← hflat] at hempty
      exact hempty rfl
    obtain ⟨parts, hparts, hmap⟩ := exists_chunks_of_filterMap
      ((filterMap_batchWires (z := z)).trans hflat.symm) hne
    have hbytes : chunks.map List.flatten = parts.map (wireBytes z) := by
      rw [← hmap, List.map_map]
      rfl
    rw [hwrites, hbytes]
    cases parts with
    | nil => exact absurd hmap.symm hne
    | cons first rest => exact ⟨first, rest, hparts, by simp, by simp⟩

/-! ## Whole, once and in order -/

namespace Writer

/-- The buffers that the writer is at. -/
def now : Writer → List Bytes
  | writing now _ _ => now
  | _ => []

/-- The runs that follow them. -/
def runs : Writer → List Bytes
  | writing _ runs _ => runs
  | _ => []

/-- Whether the writer found the queue closed when it last took what waited. -/
def last : Writer → Bool
  | writing _ _ last => last
  | done => true
  | _ => false

/-- What the writer has taken and not handed to the socket. -/
def left (w : Writer) : Bytes := w.now.flatten ++ w.runs.flatten

end Writer

namespace Connection

/-- **Every message whole, once and in lane order**: what goes out is whole frames, of which the
socket has taken the first bytes.  The urgent messages among them are those that were accepted, in
order, up to the ones that wait, and so are the items; what is reported as dropped are those of its
items that are too large. -/
structure WritesWhole (z : Zstd) (c : Connection) : Prop where
  frames : ∃ wires : List Wire,
    c.written <+: wireBytes z wires ∧
    (c.writer ≠ .failed → c.written ++ c.writer.left = wireBytes z wires) ∧
    wires.filterMap Wire.urgent? ++ c.queue.urgent = c.urgent ∧
    wires.flatMap Wire.items ++ c.queue.items = c.items ∧
    c.dropped = wires.flatMap (Wire.dropped z)
  /-- A writer that has stopped has sent all of it. -/
  complete : c.writer = .done → c.queue.items = [] ∧ c.queue.urgent = []

/-- What holds between the steps: `begun` are the frames that the socket has taken and those in the
buffers that the writer is at, and each run that follows is a chunk of whole frames, none of which is
urgent. -/
structure Orderly (z : Zstd) (c : Connection) (begun : List Wire) (chunks : List (List Wire)) :
    Prop where
  now : c.writer ≠ .failed → c.written ++ c.writer.now.flatten = wireBytes z begun
  written : c.written <+: wireBytes z begun
  runs : c.writer ≠ .failed → c.writer.runs = chunks.map (wireBytes z)
  ordinary : ∀ w ∈ chunks.flatten, w.urgent? = none
  urgent : begun.filterMap Wire.urgent? ++ c.queue.urgent = c.urgent
  items : (begun ++ chunks.flatten).flatMap Wire.items ++ c.queue.items = c.items
  dropped : c.dropped = (begun ++ chunks.flatten).flatMap (Wire.dropped z)
  last : c.writer.last = true → c.queue.closed = true ∧ c.queue.items = [] ∧ c.queue.urgent = []

variable {z : Zstd} {c : Connection} {begun : List Wire} {chunks : List (List Wire)}

theorem wireBytes_flatten (z : Zstd) (chunks : List (List Wire)) :
    wireBytes z chunks.flatten = (chunks.map (wireBytes z)).flatten := by
  induction chunks with
  | nil => rfl
  | cons chunk chunks ih =>
    rw [List.flatten_cons, wireBytes_append, ih, List.map_cons, List.flatten_cons]

theorem Orderly.writesWhole (h : Orderly z c begun chunks) : WritesWhole z c := by
  have hordinary : chunks.flatten.filterMap Wire.urgent? = [] :=
    List.filterMap_eq_nil_iff.mpr h.ordinary
  refine ⟨⟨begun ++ chunks.flatten, ?_, ?_, ?_, h.items, h.dropped⟩, ?_⟩
  · rw [wireBytes_append]
    exact h.written.trans (List.prefix_append _ _)
  · intro hfailed
    rw [wireBytes_append, wireBytes_flatten, ← h.now hfailed, ← h.runs hfailed, Writer.left,
      List.append_assoc]
  · rw [List.filterMap_append, hordinary, List.append_nil]
    exact h.urgent
  · intro hdone
    have hlast : c.writer.last = true := by rw [hdone]; rfl
    exact (h.last hlast).2

theorem orderly_new (z : Zstd) : Orderly z .new [] [] := by
  refine ⟨fun _ ↦ rfl, List.prefix_rfl, fun _ ↦ rfl, ?_, rfl, rfl, rfl, ?_⟩
  · exact fun w hw ↦ absurd hw List.not_mem_nil
  · exact fun hlast ↦ nomatch hlast

/-- An open queue gets more, and the writer is where it was. -/
theorem Orderly.queued (h : Orderly z c begun chunks) {queue : OutboundQueue}
    (items : List Outbound) (urgent : List Bytes) (hopen : c.queue.closed = false)
    (hitems : queue.items = c.queue.items ++ items)
    (hurgent : queue.urgent = c.queue.urgent ++ urgent) :
    Orderly z { c with queue, items := c.items ++ items, urgent := c.urgent ++ urgent }
      begun chunks := by
  refine ⟨h.now, h.written, h.runs, h.ordinary, ?_, ?_, h.dropped, ?_⟩
  · show _ ++ queue.urgent = c.urgent ++ urgent
    rw [hurgent, ← List.append_assoc, h.urgent]
  · show _ ++ queue.items = c.items ++ items
    rw [hitems, ← List.append_assoc, h.items]
  · intro hlast
    have hclosed := (h.last hlast).1
    rw [hopen] at hclosed
    exact nomatch hclosed

theorem Orderly.push (h : Orderly z c begun chunks) (item : Outbound) :
    Orderly z (step z (.push item) c) begun chunks := by
  rw [step]
  cases hpush : c.queue.tryPush item with
  | error e => exact h
  | ok queue =>
    obtain ⟨hopen, -, hitems, hurgent⟩ := OutboundQueue.tryPush_eq_ok hpush
    have hqueued := h.queued [item] [] hopen hitems (by rw [hurgent, List.append_nil])
    rw [List.append_nil c.urgent] at hqueued
    exact hqueued

theorem Orderly.pushUrgent (h : Orderly z c begun chunks) (frame : Bytes) :
    Orderly z (step z (.pushUrgent frame) c) begun chunks := by
  rw [step]
  cases hpush : c.queue.tryPushUrgent frame with
  | error e => exact h
  | ok queue =>
    obtain ⟨hopen, -, hitems, hurgent, -⟩ := OutboundQueue.tryPushUrgent_eq_ok hpush
    have hqueued := h.queued [] [frame] hopen (by rw [hitems, List.append_nil]) hurgent
    rw [List.append_nil c.items] at hqueued
    exact hqueued

theorem Orderly.close (h : Orderly z c begun chunks) : Orderly z (step z .close c) begun chunks :=
  ⟨h.now, h.written, h.runs, h.ordinary, h.urgent, h.items, h.dropped,
    fun hlast ↦ ⟨rfl, (h.last hlast).2⟩⟩

/-- What the urgent lane held goes out next. -/
theorem wireBytes_urgent (z : Zstd) (urgent : List Bytes) :
    wireBytes z (urgent.map Wire.urgent) = urgent.flatten := by
  rw [wireBytes, List.filterMap_map]
  exact congrArg List.flatten List.filterMap_some

theorem urgent_map_urgent (urgent : List Bytes) :
    (urgent.map Wire.urgent).filterMap Wire.urgent? = urgent := by
  rw [List.filterMap_map]
  exact List.filterMap_some

theorem items_map_urgent (urgent : List Bytes) :
    (urgent.map Wire.urgent).flatMap Wire.items = [] := by
  induction urgent with
  | nil => rfl
  | cons frame urgent ih => exact ih

theorem dropped_map_urgent (z : Zstd) (urgent : List Bytes) :
    (urgent.map Wire.urgent).flatMap (Wire.dropped z) = [] := by
  induction urgent with
  | nil => rfl
  | cons frame urgent ih => exact ih

/-- The writer takes what waits. -/
theorem Orderly.drain (h : Orderly z c begun []) (hwriter : c.writer = .waiting)
    (sender : PeerId) (ping : Option (UInt32 × UInt64)) :
    ∃ begun' chunks', Orderly z (c.drain z sender ping) begun' chunks' := by
  obtain ⟨first, chunks, hwires, hfirst, hchunks⟩ :=
    writes_chunks z sender c.queue.items (pingMessage c.queue.closed ping)
  have hnow := h.now (by rw [hwriter]; exact fun hfailed ↦ nomatch hfailed)
  have hnone : c.writer.now = [] := by rw [hwriter]; rfl
  rw [hnone, List.flatten_nil, List.append_nil] at hnow
  have hordinary : (first ++ chunks.flatten).filterMap Wire.urgent? = [] := by
    rw [hwires]
    exact List.filterMap_eq_nil_iff.mpr fun w ↦ urgent_batchWires
  rw [List.filterMap_append, List.append_eq_nil_iff] at hordinary
  have hurgent := h.urgent
  have hitems := h.items
  have hdropped := h.dropped
  rw [List.flatten_nil, List.append_nil] at hitems hdropped
  refine ⟨begun ++ c.queue.urgent.map Wire.urgent ++ first, chunks, ?_, ?_, fun _ ↦ hchunks, ?_, ?_,
    ?_, ?_, ?_⟩
  · intro _
    show c.written ++ (c.queue.urgent ++ List.take 1 _).flatten = _
    rw [List.flatten_append, hfirst, wireBytes_append, wireBytes_append, wireBytes_urgent, ← hnow,
      List.append_assoc]
  · rw [wireBytes_append, wireBytes_append, List.append_assoc, ← hnow]
    exact List.prefix_append _ _
  · exact List.filterMap_eq_nil_iff.mp hordinary.2
  · show _ ++ [] = c.urgent
    rw [List.filterMap_append, List.filterMap_append, urgent_map_urgent, hordinary.1,
      List.append_nil, List.append_nil, hurgent]
  · show _ ++ [] = c.items
    rw [List.append_assoc _ first, hwires, List.flatMap_append, List.flatMap_append,
      items_map_urgent, items_batchWires, List.append_nil, List.append_nil, hitems]
  · show c.dropped ++ _ = _
    rw [List.append_assoc _ first, hwires, List.flatMap_append, List.flatMap_append,
      dropped_map_urgent, dropped_batchWires, List.append_nil, hdropped]
  · exact fun hlast ↦ ⟨hlast, rfl, rfl⟩

/-- The socket takes some of the buffer. -/
theorem Orderly.write (h : Orderly z c begun chunks) (n : Nat) :
    Orderly z (step z (.write n) c) begun chunks := by
  cases hwriter : c.writer with
  | writing now runs last =>
    cases now with
    | nil =>
      have hstep : step z (.write n) c = c := by simp only [step, hwriter]
      rw [hstep]
      exact h
    | cons buf now =>
      have hnow := h.now (by rw [hwriter]; exact fun hfailed ↦ nomatch hfailed)
      have hruns := h.runs (by rw [hwriter]; exact fun hfailed ↦ nomatch hfailed)
      have hlast := h.last
      rw [hwriter] at hnow hruns hlast
      simp only [step, hwriter]
      split_ifs
      · exact h
      · exact ⟨fun hfailed ↦ absurd rfl hfailed, h.written, fun hfailed ↦ absurd rfl hfailed,
          h.ordinary, h.urgent, h.items, h.dropped, fun hl ↦ nomatch hl⟩
      · have htake : c.written ++ buf.take n ++ (buf.drop n :: now).flatten = wireBytes z begun := by
          rw [← hnow]
          show _ = c.written ++ (buf :: now).flatten
          rw [List.flatten_cons, List.flatten_cons, List.append_assoc c.written,
            ← List.append_assoc (buf.take n), List.take_append_drop]
        exact ⟨fun _ ↦ htake, ⟨_, htake⟩, fun _ ↦ hruns, h.ordinary, h.urgent, h.items, h.dropped,
          hlast⟩
  | _ =>
    have hstep : step z (.write n) c = c := by simp only [step, hwriter]
    rw [hstep]
    exact h

/-- The socket fails. -/
theorem Orderly.fail (h : Orderly z c begun chunks) : Orderly z (step z .fail c) begun chunks := by
  rw [step]
  split
  · exact h
  · exact ⟨fun hfailed ↦ absurd rfl hfailed, h.written, fun hfailed ↦ absurd rfl hfailed,
      h.ordinary, h.urgent, h.items, h.dropped, fun hlast ↦ nomatch hlast⟩

/-- The writer moves on: to the next buffer, to the next run with what the urgent lane holds ahead of
it, or to the queue. -/
theorem Orderly.advance (h : Orderly z c begun chunks) :
    ∃ begun' chunks', Orderly z (step z .advance c) begun' chunks' := by
  cases hwriter : c.writer with
  | writing now runs last =>
    have hnow := h.now (by rw [hwriter]; exact fun hfailed ↦ nomatch hfailed)
    have hruns := h.runs (by rw [hwriter]; exact fun hfailed ↦ nomatch hfailed)
    have hlast := h.last
    rw [hwriter] at hnow hruns hlast
    rcases now with _ | ⟨_ | ⟨byte, buf⟩, now⟩
    · cases chunks with
      | nil =>
        cases hruns
        refine ⟨begun, [], ?_⟩
        simp only [step, hwriter]
        cases last with
        | true =>
          exact ⟨fun _ ↦ hnow, h.written, fun _ ↦ rfl, h.ordinary, h.urgent, h.items, h.dropped,
            fun _ ↦ hlast rfl⟩
        | false =>
          exact ⟨fun _ ↦ hnow, h.written, fun _ ↦ rfl, h.ordinary, h.urgent, h.items, h.dropped,
            fun hl ↦ nomatch hl⟩
      | cons chunk chunks =>
        cases hruns
        have hwritten : c.written = wireBytes z begun := (List.append_nil _).symm.trans hnow
        have hordinary := List.filterMap_eq_nil_iff.mpr h.ordinary
        rw [List.flatten_cons, List.filterMap_append, List.append_eq_nil_iff] at hordinary
        refine ⟨begun ++ c.queue.urgent.map Wire.urgent ++ chunk, chunks, ?_⟩
        simp only [step, hwriter]
        refine ⟨fun _ ↦ ?_, ?_, fun _ ↦ rfl, List.filterMap_eq_nil_iff.mp hordinary.2, ?_, ?_, ?_, ?_⟩
        · show c.written ++ (c.queue.urgent ++ [wireBytes z chunk]).flatten = _
          rw [hwritten, List.flatten_append, List.flatten_singleton, wireBytes_append,
            wireBytes_append, wireBytes_urgent, List.append_assoc]
        · rw [wireBytes_append, wireBytes_append, List.append_assoc, ← hwritten]
          exact List.prefix_append _ _
        · show _ ++ [] = c.urgent
          rw [List.filterMap_append, List.filterMap_append, urgent_map_urgent, hordinary.1,
            List.append_nil, List.append_nil, h.urgent]
        · show _ ++ c.queue.items = c.items
          rw [← h.items, List.flatten_cons]
          simp only [List.flatMap_append, items_map_urgent, List.nil_append, List.append_assoc]
        · show c.dropped = _
          rw [h.dropped, List.flatten_cons]
          simp only [List.flatMap_append, dropped_map_urgent, List.nil_append, List.append_assoc]
        · exact fun hl ↦ ⟨(hlast hl).1, (hlast hl).2.1, rfl⟩
    · refine ⟨begun, chunks, ?_⟩
      simp only [step, hwriter]
      exact ⟨fun _ ↦ hnow, h.written, fun _ ↦ hruns, h.ordinary, h.urgent, h.items, h.dropped, hlast⟩
    · refine ⟨begun, chunks, ?_⟩
      simp only [step, hwriter]
      exact h
  | _ =>
    refine ⟨begun, chunks, ?_⟩
    have hstep : step z .advance c = c := by simp only [step, hwriter]
    rw [hstep]
    exact h

/-- What one step keeps. -/
theorem Orderly.step (h : Orderly z c begun chunks) (event : Event) :
    ∃ begun' chunks', Orderly z (step z event c) begun' chunks' := by
  cases event with
  | push item => exact ⟨_, _, h.push item⟩
  | pushUrgent frame => exact ⟨_, _, h.pushUrgent frame⟩
  | close => exact ⟨_, _, h.close⟩
  | drain sender ping =>
    cases hwriter : c.writer with
    | waiting =>
      have hruns := h.runs (by rw [hwriter]; exact fun hfailed ↦ nomatch hfailed)
      rw [hwriter] at hruns
      have hnil : chunks = [] := List.map_eq_nil_iff.mp hruns.symm
      subst hnil
      have hstep : Connection.step z (.drain sender ping) c = c.drain z sender ping := by
        simp only [Connection.step, hwriter]
      rw [hstep]
      exact h.drain hwriter sender ping
    | _ =>
      have hstep : Connection.step z (.drain sender ping) c = c := by
        simp only [Connection.step, hwriter]
      rw [hstep]
      exact ⟨_, _, h⟩
  | write n => exact ⟨_, _, h.write n⟩
  | advance => exact h.advance
  | fail => exact ⟨_, _, h.fail⟩

/-- **Whatever happens on a connection**, its messages go out whole, once and in lane order. -/
theorem writesWhole_run (z : Zstd) (events : List Event) :
    WritesWhole z (Runs.run (step z) events .new) := by
  suffices key : ∀ c, (∃ begun chunks, Orderly z c begun chunks) →
      ∃ begun chunks, Orderly z (Runs.run (Connection.step z) events c) begun chunks by
    obtain ⟨begun, chunks, h⟩ := key .new ⟨[], [], orderly_new z⟩
    exact h.writesWhole
  induction events with
  | nil => exact fun c h ↦ h
  | cons event events ih =>
    rintro c ⟨begun, chunks, h⟩
    exact ih _ (h.step event)

/-! ## After the close -/

/-- A move of the writer's own: what it can do where it is, with a socket that works. -/
def Event.Turns (c : Connection) : Event → Prop
  | .drain _ _ => c.writer = .waiting
  | .write n => ∃ buf now runs last,
      c.writer = .writing (buf :: now) runs last ∧ 0 < n ∧ n ≤ buf.length
  | .advance => match c.writer with
    | .writing ([] :: _) _ _ => True
    | .writing [] _ _ => True
    | _ => False
  | _ => False

/-- A writer that has not stopped can move. -/
theorem exists_turns (hdone : c.writer ≠ .done) (hfailed : c.writer ≠ .failed) :
    ∃ event : Event, event.Turns c := by
  cases hwriter : c.writer with
  | waiting => exact ⟨.drain 0 none, hwriter⟩
  | writing now runs last =>
    rcases now with _ | ⟨_ | ⟨byte, buf⟩, now⟩
    · exact ⟨.advance, by simp only [Event.Turns, hwriter]⟩
    · exact ⟨.advance, by simp only [Event.Turns, hwriter]⟩
    · exact ⟨.write 1, _, _, _, _, hwriter, Nat.one_pos, Nat.succ_le_succ (Nat.zero_le _)⟩
  | done => exact absurd hwriter hdone
  | failed => exact absurd hwriter hfailed

/-- How many rounds a writer has before it once the queue is closed, and how much is left of the one
it is in. -/
def toGo (c : Connection) : Nat × Nat :=
  match c.writer with
  | .waiting => (1, 0)
  | .writing now runs last =>
    (if last then 0 else 2, (now.map fun buf ↦ buf.length + 1).sum +
      (runs.map fun run ↦ run.length + 2).sum +
      (c.queue.urgent.map fun frame ↦ frame.length + 1).sum + 1)
  | .done | .failed => (0, 0)

/-- Every move of the writer brings a closed connection nearer to its end. -/
theorem toGo_lt (hclosed : c.queue.closed = true) {event : Event} (h : event.Turns c) :
    Prod.Lex (· < ·) (· < ·) (step z event c).toGo c.toGo ∧
      (step z event c).queue.closed = true := by
  cases event with
  | drain sender ping =>
    have hwriter : c.writer = .waiting := h
    have hstep : step z (.drain sender ping) c = c.drain z sender ping := by
      simp only [step, hwriter]
    refine ⟨?_, by rw [hstep]; exact hclosed⟩
    have hgo : c.toGo = (1, 0) := by rw [toGo, hwriter]
    rw [hstep, hgo, toGo]
    show Prod.Lex _ _ (if c.queue.closed = true then 0 else 2, _) _
    rw [if_pos hclosed]
    exact .left _ _ Nat.one_pos
  | write n =>
    obtain ⟨buf, now, runs, last, hwriter, hpos, hle⟩ := h
    have hne : buf ≠ [] := List.ne_nil_of_length_pos (by omega)
    simp only [step, toGo, hwriter, if_neg hne, if_neg (by omega : n ≠ 0)]
    refine ⟨.right _ ?_, hclosed⟩
    simp only [List.map_cons, List.sum_cons, List.length_drop]
    omega
  | advance =>
    cases hwriter : c.writer with
    | writing now runs last =>
      rcases now with _ | ⟨_ | ⟨byte, buf⟩, now⟩
      · cases runs with
        | nil =>
          cases last with
          | true =>
            simp only [step, toGo, hwriter]
            exact ⟨.right _ (Nat.succ_pos _), hclosed⟩
          | false =>
            simp only [step, toGo, hwriter]
            exact ⟨.left _ _ (Nat.lt_succ_self 1), hclosed⟩
        | cons run runs =>
          simp only [step, toGo, hwriter, OutboundQueue.takeUrgent]
          refine ⟨.right _ ?_, hclosed⟩
          simp only [List.map_append, List.sum_append, List.map_cons, List.map_nil, List.sum_cons,
            List.sum_nil]
          omega
      · simp only [step, toGo, hwriter]
        refine ⟨.right _ ?_, hclosed⟩
        simp only [List.map_cons, List.sum_cons, List.length_nil]
        omega
      · simp only [Event.Turns, hwriter] at h
    | waiting => simp only [Event.Turns, hwriter] at h
    | done => simp only [Event.Turns, hwriter] at h
    | failed => simp only [Event.Turns, hwriter] at h
  | push item => exact h.elim
  | pushUrgent frame => exact h.elim
  | close => exact h.elim
  | fail => exact h.elim

/-- **A closed connection comes to its end**: its writer does not move forever. -/
theorem exists_not_turns (z : Zstd) (hclosed : c.queue.closed = true) (events : ℕ → Event) :
    ∃ k, ¬ (events k).Turns (Runs.run (step z) ((List.range k).map events) c) := by
  by_contra hall
  push Not at hall
  let state := fun k ↦ Runs.run (step z) ((List.range k).map events) c
  have hsucc : ∀ k, state (k + 1) = step z (events k) (state k) := by
    intro k
    simp only [state, List.range_succ, List.map_append, Runs.run_append]
    rfl
  have hstays : ∀ k, (state k).queue.closed = true := by
    intro k
    induction k with
    | zero => exact hclosed
    | succ k ih =>
      rw [hsucc]
      exact (toGo_lt ih (hall k)).2
  have hfalls : ∀ k, Prod.Lex (· < ·) (· < ·) (state (k + 1)).toGo (state k).toGo := by
    intro k
    rw [hsucc]
    exact (toGo_lt (hstays k) (hall k)).1
  have hwf : WellFounded (Prod.Lex (· < · : Nat → Nat → Prop) (· < · : Nat → Nat → Prop)) :=
    WellFounded.prod_lex Nat.lt_wfRel.wf Nat.lt_wfRel.wf
  obtain ⟨m, ⟨k, rfl⟩, hmin⟩ := hwf.has_min (Set.range fun k ↦ (state k).toGo) ⟨_, 0, rfl⟩
  exact hmin _ ⟨k + 1, rfl⟩ (hfalls k)

/-! ## The caps -/

/-- What the senders of a connection can rely on: messages go out whole, once and in lane order; the
byte count is the cost of what waits, and what waits is within the caps; a refused push changes
nothing; and once the queue is closed the writer comes to its end, where all of it was sent unless
the socket failed. -/
structure Delivers (z : Zstd) (c : Connection) : Prop where
  whole : WritesWhole z c
  counted : c.queue.bytes =
    (c.queue.items.map Outbound.cost).sum + (c.queue.urgent.map List.length).sum
  bytes_le : c.queue.bytes ≤ maxQueueBytes
  items_le : c.queue.items.length + c.queue.urgent.length ≤ maxQueueItems
  refused : ∀ item e, c.queue.tryPush item = .error e → step z (.push item) c = c
  refusedUrgent : ∀ frame e, c.queue.tryPushUrgent frame = .error e →
    step z (.pushUrgent frame) c = c
  ends : c.queue.closed = true → ∀ events : ℕ → Event,
    ∃ k, ¬ (events k).Turns (Runs.run (step z) ((List.range k).map events) c)
  moves : c.writer ≠ .done → c.writer ≠ .failed → ∃ event : Event, event.Turns c

/-- An item is pushed where the two lanes together have room for it, unless it is refused anyway. -/
def RoomForItem (event : Event) (c : Connection) : Prop :=
  ∀ item, event = .push item → c.queue.closed = true ∨
    maxQueueBytes < c.queue.bytes + item.cost ∨ maxQueueItems ≤ c.queue.items.length ∨
    c.queue.items.length + c.queue.urgent.length < maxQueueItems

theorem delivers_of_items_le (h : WritesWhole z c)
    (hitems : c.queue.items.length + c.queue.urgent.length ≤ maxQueueItems) : Delivers z c where
  whole := h
  counted := c.queue.bytes_eq
  bytes_le := c.queue.bytes_le
  items_le := hitems
  refused item e he := by simp only [step, he]
  refusedUrgent frame e he := by simp only [step, he]
  ends hclosed := exists_not_turns z hclosed
  moves := exists_turns

/-- A step takes what waits past the item cap only where an item is pushed without room for it. -/
theorem items_le_step {event : Event} (hroom : RoomForItem event c)
    (h : c.queue.items.length + c.queue.urgent.length ≤ maxQueueItems) :
    (step z event c).queue.items.length + (step z event c).queue.urgent.length ≤
      maxQueueItems := by
  cases event with
  | push item =>
    rw [step]
    cases hpush : c.queue.tryPush item with
    | error e => exact h
    | ok queue =>
      have hroom := hroom item rfl
      obtain ⟨hopen, -, hitems, hurgent⟩ := OutboundQueue.tryPush_eq_ok hpush
      rw [OutboundQueue.tryPush] at hpush
      split_ifs at hpush with hclosed hfull
      have hroom := hroom.resolve_left hclosed
      show queue.items.length + queue.urgent.length ≤ maxQueueItems
      rw [hitems, hurgent, List.length_append, List.length_singleton]
      omega
  | pushUrgent frame =>
    rw [step]
    cases hpush : c.queue.tryPushUrgent frame with
    | error e => exact h
    | ok queue => exact (OutboundQueue.tryPushUrgent_eq_ok hpush).2.2.2.2
  | close => exact h
  | drain sender ping =>
    rw [step]
    split
    · exact Nat.zero_le _
    · exact h
  | write n =>
    rw [step]
    split
    · split_ifs <;> exact h
    · exact h
  | advance =>
    rw [step]
    split
    · exact h
    · exact le_trans (Nat.le_add_right _ _) h
    · exact h
    · exact h
  | fail =>
    rw [step]
    split <;> exact h

/-- **Exactly when the caps hold too**: in every state that a run reaches, its senders can rely on
what they should, if and only if no item is pushed onto lanes that together are full. -/
theorem delivers_iff_roomForItem (z : Zstd) (events : List Event) :
    (∀ before, before <+: events → Delivers z (Runs.run (step z) before .new)) ↔
      Runs.Along (step z) RoomForItem events .new := by
  constructor
  · intro h
    induction events using List.reverseRecOn with
    | nil => trivial
    | append_singleton events event ih =>
      refine Runs.along_append.mpr
        ⟨ih fun before hbefore ↦ h before (hbefore.trans (List.prefix_append _ _)), ?_, trivial⟩
      rintro item rfl
      have hafter := (h _ List.prefix_rfl).items_le
      rw [Runs.run_append] at hafter
      generalize Runs.run (step z) events .new = c at hafter ⊢
      by_contra hnot
      push Not at hnot
      obtain ⟨hopen, hbytes, hitems, hfull⟩ := hnot
      have hpush : ∃ queue, c.queue.tryPush item = .ok queue := by
        rw [OutboundQueue.tryPush, if_neg hopen, dif_neg (by omega)]
        exact ⟨_, rfl⟩
      obtain ⟨queue, hpush⟩ := hpush
      obtain ⟨-, -, hitems', hurgent'⟩ := OutboundQueue.tryPush_eq_ok hpush
      have hstep : (step z (.push item) c).queue = queue := by
        rw [step, hpush]
      replace hafter : (step z (.push item) c).queue.items.length +
          (step z (.push item) c).queue.urgent.length ≤ maxQueueItems := hafter
      rw [hstep, hitems', hurgent', List.length_append, List.length_singleton] at hafter
      omega
  · rintro halong before ⟨after, rfl⟩
    refine delivers_of_items_le (writesWhole_run z before) ?_
    let WithinCap := fun c : Connection ↦
      c.queue.items.length + c.queue.urgent.length ≤ maxQueueItems
    have hstep : ∀ event c, WithinCap c → RoomForItem event c → WithinCap (step z event c) :=
      fun event c h hroom ↦ items_le_step hroom h
    exact Runs.run_along hstep (Runs.along_append.mp halong).1 (Nat.zero_le _)

/-- Urgent messages of one byte are accepted until the two lanes together are full. -/
theorem run_replicate_pushUrgent (z : Zstd) {n : Nat} (h : n ≤ maxQueueItems) :
    let c := Runs.run (step z) (List.replicate n (.pushUrgent [0])) .new
    c.queue.closed = false ∧ c.queue.items = [] ∧ c.queue.urgent.length = n ∧
      c.queue.bytes = n := by
  have hcap : maxQueueItems = 16384 := rfl
  have hbytes : maxQueueBytes = 67108864 := rfl
  induction n with
  | zero => exact ⟨rfl, rfl, rfl, rfl⟩
  | succ n ih =>
    rw [List.replicate_succ', Runs.run_append]
    obtain ⟨hopen, hitems, hurgent, hcount⟩ := ih (by omega)
    generalize Runs.run (step z) (List.replicate n (.pushUrgent [0])) .new = c at *
    have hpush : ¬ (maxQueueBytes < c.queue.bytes + ([0] : Bytes).length ∨
        maxQueueItems < c.queue.items.length + c.queue.urgent.length + 1) := by
      rw [hitems, hurgent, hcount, List.length_nil, List.length_singleton]
      omega
    have hstep : ∃ queue, c.queue.tryPushUrgent [0] = .ok queue ∧ queue.closed = false ∧
        queue.items = [] ∧ queue.urgent.length = n + 1 ∧ queue.bytes = n + 1 := by
      rw [OutboundQueue.tryPushUrgent, if_neg (by rw [hopen]; exact Bool.false_ne_true),
        dif_neg hpush]
      refine ⟨_, rfl, hopen, hitems, ?_, ?_⟩
      · show (c.queue.urgent ++ [[0]]).length = n + 1
        rw [List.length_append, hurgent, List.length_singleton]
      · show c.queue.bytes + 1 = n + 1
        rw [hcount]
    obtain ⟨queue, hok, hqueue⟩ := hstep
    have hrun : Runs.run (step z) [.pushUrgent [0]] c =
        { c with queue, urgent := c.urgent ++ [[0]] } := by
      show step z (.pushUrgent [0]) c = _
      rw [step, hok]
    rw [hrun]
    exact hqueue

/-- With the urgent lane full, an item is accepted all the same, and more waits than a queue holds. -/
theorem item_over_the_cap :
    ¬ ∀ events before : List Event, before <+: events →
      Delivers rawZstd (Runs.run (step rawZstd) before .new) := by
  intro h
  have halong := (delivers_iff_roomForItem rawZstd
    (List.replicate maxQueueItems (.pushUrgent [0]) ++ [.push (.encoded [0])])).mp (h _)
  have hroom := (Runs.along_append.mp halong).2.1 (.encoded [0]) rfl
  obtain ⟨hopen, hitems, hurgent, hcount⟩ := run_replicate_pushUrgent rawZstd (Nat.le_refl _)
  have hroom := hroom.resolve_left (by rw [hopen]; exact Bool.false_ne_true)
  rw [hitems, hurgent, hcount, List.length_nil] at hroom
  have hcap : maxQueueItems = 16384 := rfl
  have hbytes : maxQueueBytes = 67108864 := rfl
  have hcost : (Outbound.encoded [0]).cost = 1 := rfl
  omega

end Connection

end PlayTogether

end SuperShuckie
