import SuperShuckie.Live.Written

/-!
# What the packets and snapshots of a live replay write

A packet is applied to the core and mirrored into the file, so that the file's counters change as
the publisher's do, and a frame marker is written for each one read.  A snapshot takes the file
along: its clock never goes back, and the counters that the snapshot names are taken to the
snapshot's values.
-/

set_option autoImplicit false

namespace SuperShuckie

open ByteFormat Live

namespace SuperShuckieCore

variable {C : Type} {E : EmulatorCore C}

/-! ## Packets -/

/-- The publisher's counters after a packet. -/
def packetCounters (packet : Packet) (c : OrdMap String SignedInteger) :
    OrdMap String SignedInteger :=
  match packet with
  | .incrementCounter name delta => Call.countersAfter (.changeCounter name delta) c
  | _ => c

/-- The publisher's clock after a packet. -/
def packetMillis (packet : Packet) (now : TimestampMillis) : TimestampMillis :=
  match packet with
  | .nextFrame delta => now + delta
  | _ => now

/-- Whether a packet ends a frame. -/
def endsFrame : Packet → Bool
  | .nextFrame _ => true
  | _ => false

/-- Whether a frame is waiting to run after a packet. -/
def packetPending (packet : Packet) (pending : Bool) : Bool := endsFrame packet || pending

/-- The calls that mirror a packet. -/
def mirrorCalls (packet : Packet) (wrote : Bool) (now : TimestampMillis) : List Call :=
  match packet with
  | .changeInput data => [.setInput data]
  | .nextFrame _ => [.nextFrame now]
  | .writeMemory address data => if wrote then [.writeMemory address data] else []
  | .changeSpeed speed => [.setSpeed speed]
  | .resetConsole => [.resetConsole]
  | .loadSaveState state => [.loadSaveState state]
  | .incrementCounter name delta => [.changeCounter name delta]
  | .serialIn data => [.serialIn data]
  | _ => []

variable {s : SuperShuckieCore C} {previous : OrdMap String SignedInteger}
  {metadata : KeyframeMetadata}

theorem wrote_followerMirror (packet : Packet) (wrote : Bool) (hs : s.Following) :
    Wrote s (s.followerMirror packet wrote) (mirrorCalls packet wrote s.recordingMillis) ∧
      (s.followerMirror packet wrote).totalMilliseconds = s.totalMilliseconds ∧
      (s.followerMirror packet wrote).replayCounters = s.replayCounters ∧
      (s.followerMirror packet wrote).replayFramePending = s.replayFramePending := by
  obtain ⟨follower, hfollower⟩ := Option.isSome_iff_exists.mp hs.1
  rw [followerMirror, hfollower]
  cases packet with
  | writeMemory address data =>
    cases wrote with
    | true => exact ⟨wrote_record _ _, rfl, rfl, rfl⟩
    | false => exact ⟨.refl s, rfl, rfl, rfl⟩
  | changeInput data =>
    exact ⟨⟨rfl, by rw [hfollower]; rfl, rfl, rfl, rfl, rfl, rfl⟩, rfl, rfl, rfl⟩
  | nextFrame delta => exact ⟨wrote_record _ _, rfl, rfl, rfl⟩
  | changeSpeed speed => exact ⟨wrote_record _ _, rfl, rfl, rfl⟩
  | resetConsole => exact ⟨wrote_record _ _, rfl, rfl, rfl⟩
  | loadSaveState state => exact ⟨wrote_record _ _, rfl, rfl, rfl⟩
  | incrementCounter name delta => exact ⟨wrote_record _ _, rfl, rfl, rfl⟩
  | serialIn data => exact ⟨wrote_record _ _, rfl, rfl, rfl⟩
  | _ => exact ⟨.refl s, rfl, rfl, rfl⟩

/-- What following does not depend on has changed. -/
theorem wrote_nil {s' : SuperShuckieCore C} (hfile : s'.replayFileRecorder = s.replayFileRecorder)
    (hfollower : s'.follower.map FollowerState.pendingRecording =
      s.follower.map FollowerState.pendingRecording)
    (hstopped : s'.replayPlaybackStopped = s.replayPlaybackStopped)
    (hwaiting : s'.replayWaiting = s.replayWaiting) (hstalled : s'.replayStalled = s.replayStalled)
    (horigin : s'.streamTimeOrigin = s.streamTimeOrigin)
    (hlink : s'.linkPartner.isSome = s.linkPartner.isSome) : Wrote s s' [] :=
  ⟨by rw [hfile, append_calls_nil], hfollower, hstopped, hwaiting, hstalled, horigin, hlink⟩

theorem applyWrite_eq (E : EmulatorCore C) (address : UnsignedInteger) (data : ByteVec)
    (s : SuperShuckieCore C) :
    ∃ core failures, (s.applyWrite E address data).2 =
      { s with core, replayWriteFailures := failures } := by
  rw [applyWrite]
  split
  · split
    · exact ⟨_, _, rfl⟩
    · exact ⟨_, _, rfl⟩
  · exact ⟨s.core, _, rfl⟩

theorem applySerialIn_eq (E : EmulatorCore C) (data : ByteVec) (s : SuperShuckieCore C) :
    ∃ core failures, s.applySerialIn E data = { s with core, replayWriteFailures := failures } := by
  rw [applySerialIn]
  split
  · exact ⟨s.core, s.replayWriteFailures, rfl⟩
  · split
    · exact ⟨_, _, rfl⟩
    · exact ⟨_, _, rfl⟩

/-- At most the speed is set. -/
def SpeedOnly (calls : List Call) : Prop := calls = [] ∨ ∃ speed, calls = [.setSpeed speed]

theorem SpeedOnly.silent {calls : List Call} (h : SpeedOnly calls) (now : TimestampMillis) :
    Silent now calls := by
  rcases h with rfl | ⟨speed, rfl⟩
  · exact .nil now
  · exact .single (fun _ ↦ rfl) (.inl rfl) rfl rfl

theorem SpeedOnly.isKeyframe {calls : List Call} (h : SpeedOnly calls) {call : Call}
    (hmem : call ∈ calls) : call.isKeyframe = false := by
  rcases h with rfl | ⟨speed, rfl⟩
  · cases hmem
  · cases List.mem_singleton.mp hmem
    rfl

/-- What a packet does to a core that follows another player. -/
theorem applyToCore_spec (packet : Packet) (s : SuperShuckieCore C) :
    ∃ calls, Wrote s (s.applyToCore E packet none).2 calls ∧ SpeedOnly calls ∧
      (s.applyToCore E packet none).2.totalMilliseconds = packetMillis packet s.totalMilliseconds ∧
      (s.applyToCore E packet none).2.replayCounters =
        s.replayCounters.map (packetCounters packet) ∧
      (s.applyToCore E packet none).2.replayFramePending =
        packetPending packet s.replayFramePending := by
  have hmap : s.replayCounters = s.replayCounters.map fun c ↦ c := Option.map_id'.symm
  cases packet with
  | changeSpeed speed =>
    have happly : (s.applyToCore E (.changeSpeed speed) none).2 =
        { s with replayPlaybackSpeed := speed }.matchReplayPlaybackSpeed := rfl
    rw [happly, matchReplayPlaybackSpeed]
    split
    · exact ⟨[], wrote_nil rfl rfl rfl rfl rfl rfl rfl, .inl rfl, rfl, hmap, rfl⟩
    · exact ⟨[.setSpeed speed], ⟨rfl, rfl, rfl, rfl, rfl, rfl, rfl⟩,
        .inr ⟨speed, rfl⟩, rfl, hmap, rfl⟩
  | writeMemory address data =>
    obtain ⟨core, failures, h⟩ := applyWrite_eq E address data s
    have happly : (s.applyToCore E (.writeMemory address data) none).2 =
        (s.applyWrite E address data).2 := rfl
    rw [happly, h]
    exact ⟨[], wrote_nil rfl rfl rfl rfl rfl rfl rfl, .inl rfl, rfl, hmap, rfl⟩
  | serialIn data =>
    obtain ⟨core, failures, h⟩ := applySerialIn_eq E data s
    have happly : (s.applyToCore E (.serialIn data) none).2 = s.applySerialIn E data := rfl
    rw [happly, h]
    exact ⟨[], wrote_nil rfl rfl rfl rfl rfl rfl rfl, .inl rfl, rfl, hmap, rfl⟩
  | incrementCounter name delta =>
    exact ⟨[], wrote_nil rfl rfl rfl rfl rfl rfl rfl, .inl rfl, rfl, rfl, rfl⟩
  | _ => exact ⟨[], wrote_nil rfl rfl rfl rfl rfl rfl rfl, .inl rfl, rfl, hmap, rfl⟩

/-- **A packet of the live replay**: what it writes ends a frame if the packet does, gives the
console what the packet gives it, and changes the file's counters as the packet changes the
publisher's. -/
theorem applyPlaybackPacket_spec (packet : Packet) (hs : s.Following) :
    ∃ calls wrote silent, calls = silent ++ mirrorCalls packet wrote
        (s.applyPlaybackPacket E packet none).recordingMillis ∧
      SpeedOnly silent ∧ Wrote s (s.applyPlaybackPacket E packet none) calls ∧
      (s.applyPlaybackPacket E packet none).totalMilliseconds =
        packetMillis packet s.totalMilliseconds ∧
      (s.applyPlaybackPacket E packet none).replayCounters =
        s.replayCounters.map (packetCounters packet) ∧
      (s.applyPlaybackPacket E packet none).replayFramePending =
        packetPending packet s.replayFramePending := by
  obtain ⟨silent, hwrote, hsilent, hmillis, hcounters, hpending⟩ :=
    applyToCore_spec (E := E) packet s
  obtain ⟨hwrote', hmillis', hcounters', hpending'⟩ := wrote_followerMirror packet
    (s.applyToCore E packet none).1 (hwrote.following hs)
  have hnow : (s.applyPlaybackPacket E packet none).recordingMillis =
      (s.applyToCore E packet none).2.recordingMillis := by
    rw [recordingMillis, recordingMillis, applyPlaybackPacket, hmillis', hwrote'.origin]
  refine ⟨_, (s.applyToCore E packet none).1, silent, rfl, hsilent, ?_,
    hmillis'.trans hmillis, hcounters'.trans hcounters, hpending'.trans hpending⟩
  rw [hnow]
  exact hwrote.trans hwrote'

theorem framesEnded_mirrorCalls (packet : Packet) (wrote : Bool) (now : TimestampMillis) :
    framesEnded (mirrorCalls packet wrote now) = (endsFrame packet).toNat := by
  cases packet with
  | writeMemory address data => cases wrote <;> rfl
  | _ => rfl

theorem callMarks_mirrorCalls (packet : Packet) (wrote : Bool) (now : TimestampMillis) :
    callMarks (mirrorCalls packet wrote now) =
      packetMarks packet ++ if endsFrame packet then [.frame] else [] := by
  cases packet with
  | writeMemory address data => cases wrote <;> rfl
  | _ => rfl

/-- No call that mirrors a packet is a keyframe, and each is made for the time given, if for any. -/
theorem mem_mirrorCalls {packet : Packet} {wrote : Bool} {now : TimestampMillis} {call : Call}
    (hmem : call ∈ mirrorCalls packet wrote now) :
    call.isKeyframe = false ∧ (call.time? = none ∨ call.time? = some now) := by
  cases packet with
  | writeMemory address data =>
    cases wrote with
    | false => exact absurd hmem List.not_mem_nil
    | true =>
      obtain rfl := List.mem_singleton.mp hmem
      exact ⟨rfl, .inl rfl⟩
  | nextFrame delta =>
    obtain rfl := List.mem_singleton.mp hmem
    exact ⟨rfl, .inr rfl⟩
  | changeInput | changeSpeed | resetConsole | loadSaveState | incrementCounter | serialIn =>
    obtain rfl := List.mem_singleton.mp hmem
    exact ⟨rfl, .inl rfl⟩
  | _ => exact absurd hmem List.not_mem_nil

/-- The file's counters change as the publisher's do. -/
theorem added_mirrorCalls (packet : Packet) (wrote : Bool) (now : TimestampMillis) (name : String)
    (c : OrdMap String SignedInteger) : counterValue (packetCounters packet c) name =
      counterValue c name + added name (mirrorCalls packet wrote now) := by
  cases packet with
  | writeMemory address data => cases wrote <;> exact (Int64.add_zero _).symm
  | incrementCounter changed delta =>
    show counterValue (Call.countersAfter (.changeCounter changed delta) c) name =
      counterValue c name + added name [.changeCounter changed delta]
    rw [counterValue_countersAfter, added_cons, added_nil, Int64.add_zero]
  | _ => exact (Int64.add_zero _).symm

/-! ## The clock of a snapshot -/

/-- A time that is not below another as a signed number is not below it, if the other is in the
lower half. -/
theorem le_of_not_toInt64_lt {a b : TimestampMillis} (hb : b.toNat < 2 ^ 63)
    (h : ¬ a.toInt64 < b.toInt64) : b ≤ a ∧ a.toNat < 2 ^ 63 := by
  have htoInt : ∀ u : TimestampMillis, u.toInt64.toInt =
      if 2 * u.toNat < 2 ^ 64 then (u.toNat : Int) else (u.toNat : Int) - (2 ^ 64 : Nat) :=
    fun u ↦ BitVec.toInt_eq_toNat_cond u.toBitVec
  rw [Int64.lt_iff_toInt_lt, htoInt a, htoInt b] at h
  rw [UInt64.le_iff_toNat_le]
  have ha := a.toNat_lt
  split at h <;> split at h <;> omega

/-- **A snapshot does not turn the clock of the file back**, nor take it far ahead. -/
theorem recordingMillis_keepFileClock {before elapsedMillis : TimestampMillis}
    (hfile : s.replayFileRecorder.isSome = true) (hmillis : s.totalMilliseconds = elapsedMillis)
    (hbefore : before.toNat < 2 ^ 63) :
    before ≤ (s.keepFileClock before elapsedMillis).recordingMillis ∧
      (s.keepFileClock before elapsedMillis).recordingMillis.toNat < 2 ^ 63 := by
  rw [keepFileClock]
  split
  · have hkept : recordingMillis { s with streamTimeOrigin := elapsedMillis - before } = before := by
      show s.totalMilliseconds - (elapsedMillis - before) = before
      rw [hmillis]
      grind
    rw [hkept]
    exact ⟨UInt64.le_refl _, hbefore⟩
  · rename_i h
    exact le_of_not_toInt64_lt hbefore fun hlt ↦ h ⟨hfile, hlt⟩

theorem keepFileClock_eq (before elapsedMillis : TimestampMillis) (s : SuperShuckieCore C) :
    ∃ origin, s.keepFileClock before elapsedMillis = { s with streamTimeOrigin := origin } := by
  rw [keepFileClock]
  split
  · exact ⟨_, rfl⟩
  · exact ⟨s.streamTimeOrigin, rfl⟩

/-! ## The counters of a snapshot -/

/-- A snapshot accounts for the counters before it: it names each counter once, and those it does
not name were zero. -/
structure Covers (previous : OrdMap String SignedInteger) (metadata : KeyframeMetadata) : Prop where
  nodup : (metadata.counters.map Counter.name).Nodup
  named : ∀ name, counterValue previous name ≠ 0 → name ∈ metadata.counters.map Counter.name

/-- A snapshot that names every counter there is, once, accounts for them. -/
theorem covers_of_entries (hnodup : (metadata.counters.map Counter.name).Nodup)
    (hnamed : ∀ e ∈ previous.entries, e.1 ∈ metadata.counters.map Counter.name) :
    Covers previous metadata := by
  refine ⟨hnodup, fun name hvalue ↦ ?_⟩
  rw [counterValue, OrdMap.get?] at hvalue
  cases hfind : previous.entries.find? (fun e ↦ e.1 = name) with
  | none =>
    rw [hfind] at hvalue
    exact absurd rfl hvalue
  | some e =>
    have hname := List.find?_some hfind
    obtain rfl : e.1 = name := of_decide_eq_true hname
    exact hnamed e (List.mem_of_find?_eq_some hfind)

/-- The value that a list of counters gives to a name. -/
def listedValue (name : String) (counters : List Counter) : Option SignedInteger :=
  (counters.find? fun c ↦ c.name = name).map Counter.value

theorem listedValue_cons (name : String) (counter : Counter) (counters : List Counter) :
    listedValue name (counter :: counters) =
      if counter.name = name then some counter.value else listedValue name counters := by
  rw [listedValue, List.find?_cons]
  split
  · rename_i h
    rw [if_pos (of_decide_eq_true h)]
    rfl
  · rename_i h
    rw [if_neg (of_decide_eq_false (by simpa using h))]
    rfl

theorem listedValue_eq_none {name : String} {counters : List Counter}
    (h : name ∉ counters.map Counter.name) : listedValue name counters = none := by
  rw [listedValue, Option.map_eq_none_iff, List.find?_eq_none]
  intro c hmem heq
  exact h (List.mem_map.mpr ⟨c, hmem, of_decide_eq_true heq⟩)

/-- The counters of a snapshot are those it lists. -/
theorem counterValue_foldl_alter (name : String) {counters : List Counter}
    (hnodup : (counters.map Counter.name).Nodup) (m : OrdMap String SignedInteger) :
    counterValue (counters.foldl (fun m c ↦ m.alter c.name fun _ ↦ c.value) m) name =
      (listedValue name counters).getD (counterValue m name) := by
  induction counters generalizing m with
  | nil => rfl
  | cons counter counters ih =>
    obtain ⟨hfresh, hrest⟩ := List.nodup_cons.mp hnodup
    rw [List.foldl_cons, ih hrest, listedValue_cons]
    by_cases h : counter.name = name
    · subst h
      rw [if_pos rfl, listedValue_eq_none hfresh, counterValue, OrdMap.get?_alter, if_pos rfl]
      rfl
    · rw [if_neg h, counterValue, OrdMap.get?_alter, if_neg (Ne.symm h), counterValue]

/-- The changes that a snapshot makes to a counter of the file. -/
theorem added_counterChanges (name : String) (previous : OrdMap String SignedInteger)
    (hnodup : (metadata.counters.map Counter.name).Nodup) :
    added name (counterChanges previous metadata) =
      match listedValue name metadata.counters with
      | some value => value - counterValue previous name
      | none => 0 := by
  rw [counterChanges]
  generalize metadata.counters = counters at hnodup ⊢
  induction counters with
  | nil => rfl
  | cons counter counters ih =>
    obtain ⟨hfresh, hrest⟩ := List.nodup_cons.mp hnodup
    have hcons : added name ((List.filter (fun c ↦ c.value - counterValue previous c.name ≠ 0)
          (counter :: counters)).map fun c ↦
            .changeCounter c.name (c.value - counterValue previous c.name)) =
        (if counter.name = name then counter.value - counterValue previous counter.name else 0) +
          added name ((List.filter (fun c ↦ c.value - counterValue previous c.name ≠ 0)
            counters).map fun c ↦
              .changeCounter c.name (c.value - counterValue previous c.name)) := by
      rw [List.filter_cons]
      split
      · rfl
      · rename_i h
        have hzero : counter.value - counterValue previous counter.name = 0 := by simpa using h
        rw [hzero, ite_self, Int64.zero_add]
    rw [hcons, ih hrest, listedValue_cons]
    by_cases h : counter.name = name
    · subst h
      rw [if_pos rfl, if_pos rfl, listedValue_eq_none hfresh]
      exact Int64.add_zero _
    · rw [if_neg h, if_neg h]
      exact Int64.zero_add _

/-- **A snapshot that accounts for the counters before it** takes the file's counters to its own. -/
theorem added_snapshot (name : String) (h : Covers previous metadata) :
    counterValue (snapshotCounters metadata) name =
      counterValue previous name + added name (counterChanges previous metadata) := by
  rw [snapshotCounters, counterValue_foldl_alter name h.nodup, added_counterChanges name _ h.nodup]
  cases hlisted : listedValue name metadata.counters with
  | some value =>
    show value = counterValue previous name + (value - counterValue previous name)
    grind
  | none =>
    have hzero : counterValue previous name = 0 := by
      by_contra hne
      obtain ⟨c, hmem, hname⟩ := List.mem_map.mp (h.named name hne)
      rw [listedValue, Option.map_eq_none_iff, List.find?_eq_none] at hlisted
      exact hlisted c hmem (decide_eq_true hname)
    rw [hzero]
    rfl

/-! ## Starting the file -/

variable (x : Externals)

/-- The core once its file has been started. -/
def fileStarted (follower : FollowerState) (pending : PendingFollowerRecording)
    (recorder : Recorder) (s : SuperShuckieCore C) : SuperShuckieCore C :=
  { s with
    follower := some { follower with pendingRecording := none }
    streamTimeOrigin := s.totalMilliseconds
    framesPerKeyframe := pending.framesPerKeyframe
    framesSinceLastKeyframe := 0
    fullKeyframePending := false
    replayFileRecorder := some ⟨recorder, []⟩ }

/-- The core once the request for a file has been dropped, or was not there. -/
def fileDropped (follower : FollowerState) (s : SuperShuckieCore C) : SuperShuckieCore C :=
  { s with follower := some { follower with pendingRecording := none } }

/-- Either the request for a file is dropped, or the file is started by a new recorder, at time
zero. -/
theorem startPendingFollowerRecording_cases (state : Bytes) {follower : FollowerState}
    (hs : s.follower = some follower) :
    (∃ result, s.startPendingFollowerRecording x state = (s.fileDropped follower, result)) ∨
      ∃ pending recorder, follower.pendingRecording = some pending ∧
        Recorder.newWithMetadata x pending.metadata pending.patchData pending.settings 0
          follower.lastInput s.replayPlaybackSpeed state pending.finalFile pending.tempFile =
            .ok recorder () ∧
        s.startPendingFollowerRecording x state =
          (s.fileStarted follower pending recorder, .ok ()) := by
  rw [startPendingFollowerRecording, hs]
  dsimp only
  cases hpending : follower.pendingRecording with
  | none =>
    refine .inl ⟨.ok (), ?_⟩
    have hsame : ({ follower with pendingRecording := none } : FollowerState) = follower := by
      rw [← hpending]
    rw [fileDropped, hsame, ← hs]
  | some pending =>
    dsimp only
    cases hnew : Recorder.newWithMetadata x pending.metadata pending.patchData pending.settings 0
        follower.lastInput s.replayPlaybackSpeed state pending.finalFile pending.tempFile with
    | error e _ => exact .inl ⟨_, rfl⟩
    | abort => exact .inl ⟨_, rfl⟩
    | ok recorder _ => exact .inr ⟨pending, recorder, rfl, hnew, rfl⟩

/-! ## Snapshots -/

/-- The calls that a snapshot makes of the file's recorder, at the time `now` of the file. -/
def snapshotCalls (previous : OrdMap String SignedInteger) (metadata : KeyframeMetadata)
    (state : Bytes) (now : TimestampMillis) : List Call :=
  [.loadSaveState state, .setInput metadata.input, .setSpeed metadata.speed] ++
    counterChanges previous metadata ++ [.insertKeyframe state now .full]

theorem mem_counterChanges {call : Call} (h : call ∈ counterChanges previous metadata) :
    ∃ name delta, call = .changeCounter name delta := by
  obtain ⟨c, _, rfl⟩ := List.mem_map.mp h
  exact ⟨_, _, rfl⟩

/-- No call of a snapshot ends a frame, and each is made for the time given, if for any. -/
theorem mem_snapshotCalls {state : Bytes} {now : TimestampMillis} {call : Call}
    (hmem : call ∈ snapshotCalls previous metadata state now) :
    call.isNextFrame = false ∧ (call.time? = none ∨ call.time? = some now) := by
  rw [snapshotCalls, List.mem_append, List.mem_append] at hmem
  rcases hmem with (hmem | hmem) | hmem
  · simp only [List.mem_cons, List.not_mem_nil, or_false] at hmem
    rcases hmem with rfl | rfl | rfl <;> exact ⟨rfl, .inl rfl⟩
  · obtain ⟨name, delta, rfl⟩ := mem_counterChanges hmem
    exact ⟨rfl, .inl rfl⟩
  · cases List.mem_singleton.mp hmem
    exact ⟨rfl, .inr rfl⟩

/-- The only keyframe that a snapshot writes is its last call. -/
theorem keyframe_snapshotCalls {state : Bytes} {now : TimestampMillis} {before after : List Call}
    {keyframe : Call}
    (heq : snapshotCalls previous metadata state now = before ++ keyframe :: after)
    (hkeyframe : keyframe.isKeyframe = true) : after = [] := by
  rcases List.eq_nil_or_concat after with hnil | ⟨init, last, rfl⟩
  · exact hnil
  · exfalso
    have hinit : [.loadSaveState state, .setInput metadata.input, .setSpeed metadata.speed] ++
        counterChanges previous metadata = before ++ keyframe :: init :=
      (List.append_inj' (heq.trans
        (show _ = (before ++ keyframe :: init) ++ [last] by simp)) rfl).1
    have hmem : keyframe ∈ [.loadSaveState state, .setInput metadata.input,
        .setSpeed metadata.speed] ++ counterChanges previous metadata := by
      rw [hinit]
      exact List.mem_append_right _ (.head _)
    rcases List.mem_append.mp hmem with hmem | hmem
    · simp only [List.mem_cons, List.not_mem_nil, or_false] at hmem
      rcases hmem with rfl | rfl | rfl <;> cases hkeyframe
    · obtain ⟨name, delta, rfl⟩ := mem_counterChanges hmem
      cases hkeyframe

theorem framesEnded_snapshotCalls (previous : OrdMap String SignedInteger)
    (metadata : KeyframeMetadata) (state : Bytes) (now : TimestampMillis) :
    framesEnded (snapshotCalls previous metadata state now) = 0 :=
  List.countP_eq_zero.mpr fun call hmem ↦ by
    rw [(mem_snapshotCalls hmem).1]
    exact Bool.false_ne_true

theorem callMarks_snapshotCalls (previous : OrdMap String SignedInteger)
    (metadata : KeyframeMetadata) (state : Bytes) (now : TimestampMillis) :
    callMarks (snapshotCalls previous metadata state now) =
      [.loadState state, .input metadata.input] := by
  have hchanges : callMarks (counterChanges previous metadata) = [] := by
    rw [callMarks, List.flatMap_eq_nil_iff]
    intro call hmem
    obtain ⟨name, delta, rfl⟩ := mem_counterChanges hmem
    rfl
  rw [snapshotCalls, callMarks_append, callMarks_append, hchanges]
  rfl

theorem added_snapshotCalls (name : String) (h : Covers previous metadata) (state : Bytes)
    (now : TimestampMillis) : counterValue (snapshotCounters metadata) name =
      counterValue previous name + added name (snapshotCalls previous metadata state now) := by
  rw [added_snapshot name h, snapshotCalls, added_append, added_append]
  show _ = counterValue previous name + (0 + added name _ + 0)
  grind

/-- What a snapshot that loads makes of the core, the file apart. -/
theorem moveToSnapshot_eq (core : C) (metadata : KeyframeMetadata) (s : SuperShuckieCore C) :
    ∃ origin, s.moveToSnapshot E core metadata =
      { s with
        core := E.setInputEncoded metadata.input core
        totalFrames := metadata.elapsedFrames
        totalMilliseconds := metadata.elapsedMillis
        streamTimeOrigin := origin
        replayCounters := some (snapshotCounters metadata)
        replayPlaybackSpeed := metadata.speed
        replayFramePending := false
        replayStalled := false
        framesSinceLastKeyframe := 0
        follower := s.follower.map (FollowerState.noteSnapshot metadata) } := by
  rw [moveToSnapshot]
  obtain ⟨origin, h⟩ := keepFileClock_eq s.recordingMillis metadata.elapsedMillis
    { s with
      core := E.setInputEncoded metadata.input core
      totalFrames := metadata.elapsedFrames
      totalMilliseconds := metadata.elapsedMillis }
  exact ⟨origin, by rw [h]; rfl⟩

theorem recordingMillis_moveToSnapshot (core : C) (metadata : KeyframeMetadata)
    (hfile : s.replayFileRecorder.isSome = true) (hclock : s.recordingMillis.toNat < 2 ^ 63) :
    s.recordingMillis ≤ (s.moveToSnapshot E core metadata).recordingMillis ∧
      (s.moveToSnapshot E core metadata).recordingMillis.toNat < 2 ^ 63 :=
  recordingMillis_keepFileClock (s := { s with
    core := E.setInputEncoded metadata.input core
    totalFrames := metadata.elapsedFrames
    totalMilliseconds := metadata.elapsedMillis }) hfile rfl hclock

/-! ## Link frames -/

/-- A packet that a link frame may carry ends no frame, and changes neither clock nor counters. -/
theorem carries_spec {packet : Packet} (h : LinkFrame.carries packet = true) :
    endsFrame packet = false ∧ (∀ now, packetMillis packet now = now) ∧
      packetCounters packet = id := by
  cases packet <;> first | exact ⟨rfl, fun _ ↦ rfl, rfl⟩ | cases h

theorem steady_mirrorCalls {packet : Packet} (h : LinkFrame.carries packet = true) (wrote : Bool)
    (now now' : TimestampMillis) : Steady now (mirrorCalls packet wrote now') := by
  intro call hmem
  cases packet with
  | noOp => cases hmem
  | changeInput data =>
    cases List.mem_singleton.mp hmem
    exact ⟨fun _ ↦ rfl, .inl rfl⟩
  | writeMemory address data =>
    cases wrote with
    | true =>
      cases List.mem_singleton.mp hmem
      exact ⟨fun _ ↦ rfl, .inl rfl⟩
    | false => cases hmem
  | resetConsole =>
    cases List.mem_singleton.mp hmem
    exact ⟨fun _ ↦ rfl, .inl rfl⟩
  | _ => cases h

/-- What the preparation of a link frame does to a core and its file: it gives the console
`given`. -/
structure Prepares (s s' : SuperShuckieCore C) (given : List Mark) (calls : List Call) : Prop
    extends Wrote s s' calls where
  counters : s'.replayCounters = s.replayCounters
  pending : s'.replayFramePending = s.replayFramePending
  steady : ∀ now, Steady now calls
  framesEnded : framesEnded calls = 0
  marks : callMarks calls = given

theorem Prepares.refl (s : SuperShuckieCore C) : Prepares s s [] [] :=
  ⟨.refl s, rfl, rfl, fun _ call hmem ↦ (by cases hmem), rfl, rfl⟩

/-- The events of a link frame. -/
theorem prepares_events {events : List Packet}
    (h : ∀ packet ∈ events, LinkFrame.carries packet = true) (hs : s.Following) :
    ∃ calls, Prepares s (events.foldl (fun s packet ↦ s.applyPlaybackPacket E packet none) s)
      (events.flatMap packetMarks) calls := by
  induction events generalizing s with
  | nil => exact ⟨[], .refl s⟩
  | cons packet events ih =>
    obtain ⟨hends, -, hcounters⟩ := carries_spec (h packet (.head _))
    obtain ⟨calls, wrote, silent, rfl, hsilent, hwrote, -, hafter, hpending⟩ :=
      applyPlaybackPacket_spec (E := E) packet hs
    obtain ⟨calls', hrest⟩ := ih (fun p hmem ↦ h p (List.mem_cons_of_mem _ hmem))
      (hwrote.following hs)
    refine ⟨_, hwrote.trans hrest.toWrote, ?_, ?_, fun now ↦ ?_, ?_, ?_⟩
    · rw [List.foldl_cons, hrest.counters, hafter, hcounters, Option.map_id, id]
    · rw [List.foldl_cons, hrest.pending, hpending, packetPending, hends]
      rfl
    · exact ((hsilent.silent now).1.append
        (steady_mirrorCalls (h packet (.head _)) wrote now _)).append (hrest.steady now)
    · rw [framesEnded_append, framesEnded_append, (hsilent.silent 0).2.1, framesEnded_mirrorCalls,
        hends, hrest.framesEnded]
      rfl
    · rw [callMarks_append, callMarks_append, (hsilent.silent 0).2.2, callMarks_mirrorCalls, hends,
        hrest.marks, List.flatMap_cons]
      simp

/-- A link frame: its events, and its clock. -/
theorem prepares_applyLinkFrame (frame : LinkFrame) (hs : s.Following) :
    ∃ calls, Prepares s (s.applyLinkFrame E frame)
      ((frame.events.filter LinkFrame.carries).flatMap packetMarks) calls := by
  obtain ⟨calls, h⟩ := prepares_events (E := E) (s := s)
    (fun packet (hmem : packet ∈ frame.events.filter LinkFrame.carries) ↦ (List.mem_filter.mp hmem).2) hs
  exact ⟨calls, ⟨h.file, h.follower, h.stopped, h.waiting, h.stalled, h.origin, h.link⟩, h.counters,
    h.pending, h.steady, h.framesEnded, h.marks⟩

/-- A link frame that is found. -/
theorem prepares_linkFrame (frame : LinkFrame) {partner : LinkPartnerState} (hs : s.Following)
    (hpartner : s.linkPartner = some partner) :
    ∃ calls, Prepares s ((s.notePrepared partner).applyLinkFrame E frame)
      ((frame.events.filter LinkFrame.carries).flatMap packetMarks) calls := by
  have hfound : Wrote s (s.notePrepared partner) [] :=
    wrote_nil rfl rfl rfl rfl rfl rfl (by rw [hpartner]; rfl)
  obtain ⟨calls, h⟩ := prepares_applyLinkFrame (E := E) frame (hfound.following hs)
  exact ⟨calls, hfound.trans h.toWrote, h.counters, h.pending, h.steady, h.framesEnded, h.marks⟩

/-- The clock of a link frame never turns the file's back. -/
theorem recordingMillis_applyLinkFrame {frame : LinkFrame} (hs : s.Following)
    (hfits : s.recordingMillis.toNat +
      (frame.elapsedMillis.toNat - s.totalMilliseconds.toNat) < 2 ^ 63) :
    s.recordingMillis ≤ (s.applyLinkFrame E frame).recordingMillis ∧
      (s.applyLinkFrame E frame).recordingMillis.toNat < 2 ^ 63 := by
  obtain ⟨calls, h⟩ := prepares_applyLinkFrame (E := E) frame hs
  have hnow : (s.applyLinkFrame E frame).recordingMillis =
      (if frame.elapsedMillis ≤ s.totalMilliseconds then s.totalMilliseconds
        else frame.elapsedMillis) - s.streamTimeOrigin := by
    rw [recordingMillis, h.origin]
    rfl
  have hlater : (s.applyLinkFrame E frame).recordingMillis.toNat = s.recordingMillis.toNat +
      (frame.elapsedMillis.toNat - s.totalMilliseconds.toNat) := by
    rw [hnow]
    by_cases hle : frame.elapsedMillis ≤ s.totalMilliseconds
    · rw [if_pos hle, Nat.sub_eq_zero_of_le (UInt64.le_iff_toNat_le.mp hle), Nat.add_zero]
      rfl
    · have hlt := UInt64.lt_iff_toNat_lt.mp (UInt64.not_le.mp hle)
      have hsub : (frame.elapsedMillis - s.totalMilliseconds).toNat =
          frame.elapsedMillis.toNat - s.totalMilliseconds.toNat :=
        UInt64.toNat_sub_of_le _ _ (UInt64.le_iff_toNat_le.mpr (Nat.le_of_lt hlt))
      have hsum : frame.elapsedMillis - s.streamTimeOrigin =
          s.recordingMillis + (frame.elapsedMillis - s.totalMilliseconds) := by
        rw [recordingMillis]
        grind
      rw [if_neg hle, hsum, UInt64.toNat_add, hsub]
      exact Nat.mod_eq_of_lt (by omega)
  rw [UInt64.le_iff_toNat_le, hlater]
  omega

end SuperShuckieCore

end SuperShuckie
