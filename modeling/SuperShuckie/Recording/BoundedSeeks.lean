import SuperShuckie.Recording.StoredFile
import SuperShuckie.Player.References

/-!
# Seeks of a Nintendo 3DS recording are short

The recorder gives the keyframes it inserts the levels of a schedule, and a player finds the same
levels in the file; so the chain of every keyframe is as short as the schedule makes it
(`storedChains_bounded`).
-/

set_option autoImplicit false

namespace SuperShuckie

open ByteFormat OpenedFile Tiers

/-! ## The levels of a stream -/

/-- The levels of the keyframes among the parts of a stream. -/
def keyframeLevels (log : List Part) : List Level :=
  log.filterMap fun
    | .keyframe k => some k.level
    | .packet _ _ => none

theorem keyframeLevels_append (log log' : List Part) :
    keyframeLevels (log ++ log') = keyframeLevels log ++ keyframeLevels log' := List.filterMap_append

theorem PacketIndex.levelIndex_ofNat (level : Level) :
    PacketIndex.levelIndex (UInt8.ofNat level.val) = level := by
  revert level
  decide

/-- A part is read back as packets of its level. -/
theorem Part.ReadAs.storedLevels_eq {part : Part} {packets : List Packet} (h : part.ReadAs packets)
    (hown : part.Own) : storedLevels packets = keyframeLevels [part] := by
  cases part with
  | packet p extra =>
    obtain rfl : packets = [p.readBack] := h
    cases p with
    | storedKeyframe k => exact (hown.2 k rfl).elim
    | _ => rfl
  | keyframe k =>
    obtain ⟨stateLen, uncompressedLen, frameLen, frameOffset, tables, rfl, htables⟩ := h
    have hnone : storedLevels tables = [] := by
      refine List.filterMap_eq_nil_iff.mpr fun p hp ↦ ?_
      obtain ⟨table, rfl⟩ := htables p hp
      rfl
    have hcons : storedLevels (.storedKeyframe
        { metadata := k.metadata, level := UInt8.ofNat k.level.val, stateLen, uncompressedLen
          frameLen, frameOffset } :: tables) =
        PacketIndex.levelIndex (UInt8.ofNat k.level.val) :: storedLevels tables := rfl
    rw [hcons, hnone, PacketIndex.levelIndex_ofNat]
    rfl

theorem storedLevels_flatten {read : List Part} {packets : List (List Packet)}
    (h : List.Forall₂ Part.ReadAs read packets) (hown : ∀ part ∈ read, part.Own) :
    storedLevels packets.flatten = keyframeLevels read := by
  induction h with
  | nil => rfl
  | @cons part ps read packets hpart _ ih =>
    obtain ⟨hone, hrest⟩ := List.forall_mem_cons.mp hown
    rw [List.flatten_cons, storedLevels_append, hpart.storedLevels_eq hone, ih hrest,
      ← keyframeLevels_append]
    rfl

/-- The levels that a player finds are the first of those that were recorded. -/
theorem StoredStream.storedLevels {x : Externals} {patch bytes : Bytes} {log : List Part}
    (h : StoredStream patch log bytes) (hown : ∀ part ∈ log, part.Own)
    (hlen : bytes.length < 2 ^ 64) {source : Option Bytes} {allow : Bool} {file : OpenedFile}
    (hread : OpenedFile.read x bytes source allow = .ok file) :
    OpenedFile.storedLevels file.packets <+: keyframeLevels log := by
  obtain ⟨read, packets, hlog, hreadAs, hbegins, -⟩ := h.packets hown hlen hread
  refine (hbegins.filterMap _).trans ?_
  rw [← OpenedFile.storedLevels, storedLevels_flatten hreadAs fun part hpart ↦
    hown part (hlog.mem hpart)]
  exact hlog.filterMap _

namespace Recorder

/-! ## The schedule of a recorder -/

variable {x : Externals} {a b : Nat} {patch : Bytes}

theorem keyframeLevels_part (r : Recorder) (packet : Packet) : keyframeLevels (r.part packet) = [] := by
  rw [part]
  split <;> rfl

theorem keyframeLevels_added {c : Course} {r : Recorder} (hcourse : r.course = some c) (call : Call) :
    keyframeLevels (added x r call) =
      match call with
      | .insertKeyframe _ _ encoding => [c.nextLevel encoding]
      | _ => [] := by
  have hpart := keyframeLevels_part r
  cases call with
  | insertKeyframe state elapsedMillis encoding =>
    obtain ⟨stored, hstored⟩ : ∃ stored, r.stored = some stored := by
      rw [course] at hcourse
      cases hstored : r.stored with
      | none =>
        rw [hstored] at hcourse
        cases hcourse
      | some stored => exact ⟨stored, rfl⟩
    rw [added, hstored]
    change [nextLevel r.settings stored encoding] = _
    rw [nextLevel_eq hstored hcourse]
  | thumbnail top bottom =>
    rw [added]
    cases thumbnailOf x r top bottom with
    | error e => rfl
    | ok packet => exact hpart packet
  | setInput | setSpeed | serialIn | setBookmarkTable =>
    rw [added]
    split_ifs
    · rfl
    · exact hpart _
  | nextFrame | writeMemory | resetConsole | loadSaveState | changeCounter => exact hpart _
  | _ => rfl

/-- The keyframes so far have the levels of the schedule. -/
def OnSchedule (a b : Nat) (log : List Part) (c : Course) : Prop :=
  c.settings.storedKeyframeLevels = (a, b) ∧ Scheduled a b (keyframeLevels log) c.levels

theorem OnSchedule.next (ha : 1 ≤ a) (hb : 1 ≤ b) {log : List Part} {c : Course} {r : Recorder}
    (h : OnSchedule a b log c) (hcourse : r.course = some c) (call : Call) :
    OnSchedule a b (log ++ added x r call) (c.after call) := by
  obtain ⟨hsettings, hscheduled⟩ := h
  rw [OnSchedule, keyframeLevels_append, keyframeLevels_added hcourse]
  have hsame : ∀ c' : Course, c'.settings = c.settings → c'.levels = c.levels →
      c'.settings.storedKeyframeLevels = (a, b) ∧
        Scheduled a b (keyframeLevels log ++ []) c'.levels := by
    intro c' hs hl
    rw [hs, hl, List.append_nil]
    exact ⟨hsettings, hscheduled⟩
  cases call with
  | insertKeyframe state elapsedMillis encoding =>
    refine ⟨hsettings, ?_⟩
    have hnext := hscheduled.next ha hb (Nat.min_le_left _ _ : saturatingMul32 a b ≤ a * b)
      (decide (encoding = .full))
    have hlevel : c.nextLevel encoding =
        c.levels.next (saturatingMul32 a b) b (decide (encoding = .full)) := by
      rw [Course.nextLevel, hsettings]
    change Scheduled a b (keyframeLevels log ++ [c.nextLevel encoding])
      (c.levels.count (c.nextLevel encoding))
    rw [hlevel]
    exact hnext
  | thumbnail top bottom =>
    refine hsame _ ?_ ?_ <;> rw [Course.after, Course.afterPicture] <;> split <;> rfl
  | _ => exact hsame _ rfl rfl

/-- **Seeks of a Nintendo 3DS recording are short.**  With a level 0 every `a * b` keyframes at most
and a level 1 after every `b`, the chain of references of each stored keyframe down to one of level 0
has at most `a + b` deltas, whatever calls were made; so a seek that finds no keyframe in its buffers
decodes at most `a + b + 1` of them. -/
theorem storedChains_bounded (ha : 1 ≤ a) (hb : 1 ≤ b) (hx : Compresses x)
    {metadata : ReplayFileMetadata} {settings : RecorderSettings} {start : TimestampMillis}
    {input : InputBuffer} {speed : Speed} {state : ByteVec} {finalSink tempSink : Sink}
    (hconsole : metadata.consoleType = .nintendo3DS)
    (hlevels : settings.storedKeyframeLevels = (a, b))
    (hfinal : finalSink.Sound) (htemp : tempSink.Sound)
    (hfinalEmpty : finalSink.bytes = []) (htempEmpty : tempSink.bytes = []) {r₀ r : Recorder}
    (hnew : newWithMetadata x metadata patch settings start input speed state finalSink tempSink =
      .ok r₀ ()) {calls : List Call} {results : List (Except ReplayFileWriteError Unit)}
    (hrun : run x calls r₀ = some (results, r)) {bytes : Bytes} (hleaves : Leaves x r bytes)
    (hlen : bytes.length < 2 ^ 63) {y : Externals} {allow : Bool} {player : ReplayFilePlayer}
    (hopen : ReplayFilePlayer.new y bytes allow = .ok player) {k : Nat} {info : StoredKeyframeInfo}
    (hinfo : player.file.storedKeyframes[k]? = some info) :
    ∃ chain, Chain (player.file.storedKeyframes.map entryOf) k chain ∧
      chain.length - 1 ≤ a + b ∧
      ∀ p : ReplayFilePlayer, p.file = player.file → (∀ l, p.chain.stored.holds l = none) →
        ∃ steps : List ReplayFilePlayer.ChainStep,
          steps.countP ReplayFilePlayer.ChainStep.isMaterialise ≤ a + b + 1 ∧
          ReplayFilePlayer.seekStored y info.packet p =
            steps.forM (ReplayFilePlayer.ChainStep.run y) p := by
  obtain ⟨header, b₀, hheader, hcourse₀, hfirst⟩ :=
    onCourse_newWithMetadata hfinal htemp hfinalEmpty htempEmpty hconsole hnew
  have hstart : OnSchedule a b [] (.start settings header) := by
    refine ⟨?_, Scheduled.nil⟩
    rw [Course.start, normaliseSettings]
    split <;> exact hlevels
  have hrunAll : run x (.insertKeyframe state start .auto :: calls) b₀ =
      some (.ok () :: results, r) := by
    rw [run, hfirst]
    dsimp only
    rw [hrun]
    rfl
  obtain ⟨log, c, -, hcourse, ⟨-, hscheduled⟩, hsame⟩ := hcourse₀.run (I := OnSchedule a b) hx
    (fun hc hI _ ↦ hI.next ha hb hc.steady.course _) (fun hI ↦ hI) hstart hrunAll
  obtain ⟨written, hwritten, hstream⟩ :=
    hcourse.leaves hx (hsame ▸ hheader) hleaves (hlen.trans (by decide))
  obtain ⟨source, file, hread, rfl⟩ := ReplayFilePlayer.read_of_new hopen
  have htowers := Towers.of_read hread
  have hbegins : storedLevels file.packets <+: keyframeLevels log :=
    (hstream.storedLevels (fun part hpart ↦ hcourse.own part (hwritten.mem hpart))
      (hlen.trans (by decide)) hread).trans (hwritten.filterMap _)
  obtain ⟨hk, -⟩ := List.getElem?_eq_some_iff.mp hinfo
  have hk' : k < (storedLevels file.packets).length := htowers.length_eq ▸ hk
  obtain ⟨chain, hchain, hlength⟩ := hscheduled.exists_chain (hk'.trans_le hbegins.length_le)
  -- the chain is the same in the file, which has the first of the keyframes
  have hfile : Chain (Tower.build (storedLevels file.packets)).entries k chain :=
    hchain.restrict ( Tower.entries_prefix hbegins) (by rwa [Tower.length_build])
      fun i l r hi ↦ htowers.reference_lt hi
  refine ⟨chain, htowers.entries ▸ hfile, by omega, fun p hp hcold ↦ ?_⟩
  obtain ⟨steps, hcount, hsteps⟩ := ReplayFilePlayer.coldSeek_steps htowers hp hcold hinfo hfile
  exact ⟨steps, by omega, hsteps⟩

/-- A level 1 after every keyframe of level 2, and a level 0 after two keyframes. -/
def shortLevels : RecorderSettings := { exampleSettings with storedKeyframeLevels := (2, 1) }

/-- Three keyframes, of the levels 0, 2 and 1. -/
theorem storedChains_bounded_three :
    ∃ (r₀ r : Recorder) (results : List (Except ReplayFileWriteError Unit)) (bytes : Bytes)
      (player : ReplayFilePlayer) (info : StoredKeyframeInfo) (chain : List Nat),
      newWithMetadata .storing (.unnamed .nintendo3DS) [7] shortLevels 0 [] Speed.default [1, 2]
        Sink.reliable Sink.reliable = .ok r₀ () ∧
      run .storing [.insertKeyframe [1, 3] 5 .auto, .nextFrame 6, .insertKeyframe [1, 4] 7 .auto] r₀ =
        some (results, r) ∧
      Leaves .storing r bytes ∧ ReplayFilePlayer.new .storing bytes false = .ok player ∧
      player.file.storedKeyframes[2]? = some info ∧
      Chain (player.file.storedKeyframes.map entryOf) 2 chain ∧ chain.length - 1 ≤ 2 + 1 := by
  obtain ⟨r₀, ⟨⟩, hnew, hrest⟩ := Outcome.exists_ok_of_any
    (o := newWithMetadata .storing (.unnamed .nintendo3DS) [7] shortLevels 0 [] Speed.default [1, 2]
      Sink.reliable Sink.reliable)
    (f := fun r₀ _ ↦ (run .storing [.insertKeyframe [1, 3] 5 .auto, .nextFrame 6,
        .insertKeyframe [1, 4] 7 .auto] r₀).any fun done ↦ done.2.sink.any fun sink ↦
      decide (sink.finalSink.bytes.length < 2 ^ 63) &&
        (ReplayFilePlayer.new .storing sink.finalSink.bytes false).toOption.any fun player ↦
          player.file.storedKeyframes[2]?.isSome) (by decide +kernel)
  obtain ⟨⟨results, r⟩, hrun, hrest⟩ := (Option.any_eq_true _ _).mp hrest
  obtain ⟨sink, hsink, hrest⟩ := (Option.any_eq_true _ _).mp hrest
  rw [Bool.and_eq_true, decide_eq_true_iff] at hrest
  obtain ⟨player, hopen, hthree⟩ := exists_ok_of_any hrest.2
  obtain ⟨info, hinfo⟩ := Option.isSome_iff_exists.mp hthree
  have hleaves : Leaves .storing r sink.finalSink.bytes := .inl ⟨sink, hsink, .inl rfl⟩
  have hsound : Sink.reliable.Sound := fun o ho ↦ by cases ho
  obtain ⟨chain, hchain, hlength, -⟩ := storedChains_bounded (a := 2) (b := 1) (by decide)
    (by decide) Externals.storing_total.compress rfl rfl hsound hsound rfl rfl hnew hrun hleaves
    hrest.1 hopen hinfo
  exact ⟨r₀, r, results, _, player, info, chain, hnew, hrun, hleaves, hopen, hinfo, hchain, hlength⟩

end Recorder

end SuperShuckie
