import SuperShuckie.Legacy.Game

/-!
# What the calls of an import play as

`PlaysAs` says what the packets that calls record do to the console of a core that plays them,
whatever is recorded before (`playReplay_append`).  A frame of an import is its input, its marker
and keyframes, which play as that frame (`playsAs_frame`).
-/

set_option autoImplicit false

namespace SuperShuckie

namespace Legacy

open ByteFormat

variable {C : Type} {E : GameBoy C} {fuel : Nat}

/-! ## Packets -/

theorem playPackets_append {packets packets' : List Packet} {c c' c'' : C} {consoles more : List C}
    (h : playPackets E fuel packets c = some (consoles, c'))
    (h' : playPackets E fuel packets' c' = some (more, c'')) :
    playPackets E fuel (packets ++ packets') c = some (consoles ++ more, c'') := by
  induction packets generalizing c consoles with
  | nil =>
    cases h
    exact h'
  | cons packet packets ih =>
    rw [List.cons_append]
    cases packet with
    | nextFrame delta =>
      rw [playPackets] at h ⊢
      simp only [Option.bind_eq_bind, Option.bind_eq_some_iff] at h
      obtain ⟨console, hconsole, ⟨rest, last⟩, hrest, heq⟩ := h
      cases heq
      rw [hconsole]
      simp only [Option.bind_eq_bind, Option.bind_some]
      rw [ih hrest]
      rfl
    | _ => exact ih h

/-- **More packets** are played where the replay ended. -/
theorem playReplay_append {replay replay' : Tape} {packets : List Packet} {c c' : C}
    {consoles more : List C} (h : playReplay E fuel replay = some (consoles, c))
    (hevents : replay'.events = replay.events ++ packets)
    (hplay : playPackets E fuel packets c = some (more, c')) :
    playReplay E fuel replay' = some (consoles ++ more, c') := by
  rw [playReplay] at h ⊢
  rw [hevents]
  split at h
  · rename_i metadata state rest hrest
    rw [hrest, List.cons_append]
    dsimp only
    split_ifs at h ⊢ with hloads
    exact playPackets_append h hplay
  · cases h

/-! ## Calls -/

/-- **A replay has the frames of its calls.** -/
theorem frameCount_recordAll (tape : Tape) (calls : List Call) :
    frameCount (tape.recordAll calls).events = frameCount tape.events + framesEnded calls := by
  have hadd (tape : Tape) (packet : Packet) : frameCount (tape.add packet).events =
      frameCount tape.events + frameCount [packet] := frameCount_append _ _
  induction calls generalizing tape with
  | nil => rfl
  | cons call calls ih =>
    have hcall : frameCount (tape.record call).events =
        frameCount tape.events + framesEnded [call] := by
      cases call with
      | setSpeed speed =>
        rw [Tape.record]
        split_ifs
        · rfl
        · exact hadd _ _
      | serialIn data =>
        rw [Tape.record]
        split_ifs
        · rfl
        · exact hadd _ _
      | _ => first | exact hadd _ _ | rfl
    have hcons : framesEnded ([call] ++ calls) = framesEnded [call] + framesEnded calls :=
      List.countP_append
    show frameCount ((tape.record call).recordAll calls).events =
      frameCount tape.events + framesEnded ([call] ++ calls)
    rw [ih, hcall, hcons, Nat.add_assoc]

variable (E fuel) in
/-- What calls play as, whatever is recorded before. -/
def PlaysAs (calls : List Call) (c : C) (consoles : List C) (c' : C) : Prop := ∀ tape : Tape,
  ∃ packets, (tape.recordAll calls).events = tape.events ++ packets ∧
    playPackets E fuel packets c = some (consoles, c')

variable {calls calls' : List Call}

theorem recordAll_append (tape : Tape) (calls calls' : List Call) :
    tape.recordAll (calls ++ calls') = (tape.recordAll calls).recordAll calls' :=
  List.foldl_append

/-- **More calls** of the recorder play where the replay ended. -/
theorem PlaysAs.playReplay_eq {replay : Tape} {c c' : C} {consoles more : List C}
    (h : PlaysAs E fuel calls c more c') (hreplay : playReplay E fuel replay = some (consoles, c)) :
    playReplay E fuel (replay.recordAll calls) = some (consoles ++ more, c') := by
  obtain ⟨packets, hevents, hplay⟩ := h replay
  exact playReplay_append hreplay hevents hplay

theorem playsAs_nil (c : C) : PlaysAs E fuel [] c [] c := fun tape ↦
  ⟨[], (List.append_nil tape.events).symm, rfl⟩

/-- **A write** plays as a write to the same address. -/
theorem playsAs_writeMemory (address : UInt32) (data : Bytes) (c : C) :
    PlaysAs E fuel [.writeMemory address.toUInt64 data] c [] (E.writeRam address data c).2 := by
  have haddress : address.toUInt64.toNat < 2 ^ 32 := by
    rw [UInt32.toNat_toUInt64]
    exact address.toNat_lt
  have hback : address.toUInt64.toUInt32 = address := by
    rw [← UInt32.toNat_inj, UInt64.toNat_toUInt32, UInt32.toNat_toUInt64]
    exact Nat.mod_eq_of_lt address.toNat_lt
  refine fun tape ↦ ⟨[.writeMemory address.toUInt64 data], rfl, ?_⟩
  show some (([] : List C), playedOn E (.writeMemory address.toUInt64 data) c) = _
  rw [playedOn, if_pos haddress, hback]

theorem playsAs_resetConsole (c : C) : PlaysAs E fuel [.resetConsole] c [] (E.hardReset c) :=
  fun _ ↦ ⟨[.resetConsole], rfl, rfl⟩

theorem playsAs_loadSaveState (state : Bytes) (c : C) :
    PlaysAs E fuel [.loadSaveState state] c [] (E.loadSaveState state c).2 :=
  fun _ ↦ ⟨[.loadSaveState state], rfl, rfl⟩

/-- Keyframes are passed without effect. -/
theorem playsAs_keyframes {keyframes : List Call}
    (h : ∀ call ∈ keyframes, call.isKeyframe = true) (c : C) : PlaysAs E fuel keyframes c [] c := by
  induction keyframes with
  | nil => exact playsAs_nil c
  | cons call keyframes ih =>
    intro tape
    obtain ⟨packets, hevents, hplay⟩ :=
      ih (fun other hother ↦ h other (List.mem_cons_of_mem _ hother)) (tape.record call)
    cases call with
    | insertKeyframe state elapsedMillis encoding =>
      refine ⟨.keyframe (Tape.keyframeMetadata { tape with elapsedMillis } elapsedMillis) state ::
        packets, ?_, hplay⟩
      rw [List.append_cons]
      exact hevents
    | _ => exact absurd (h _ List.mem_cons_self) Bool.false_ne_true

/-- The calls of a frame end it. -/
theorem framesEnded_frame {keyframes : List Call}
    (h : ∀ call ∈ keyframes, call.isKeyframe = true) (input : Bytes) (ms : TimestampMillis) :
    framesEnded (.setInput input :: .nextFrame ms :: keyframes) = 1 := by
  have hnone : framesEnded keyframes = 0 := by
    rw [framesEnded, List.countP_eq_zero]
    intro call hcall
    have hkeyframe := h call hcall
    cases call with
    | nextFrame _ => exact absurd hkeyframe Bool.false_ne_true
    | _ => exact Bool.false_ne_true
  rw [framesEnded, List.countP_cons_of_neg Bool.false_ne_true, List.countP_cons_of_pos rfl]
  rw [framesEnded] at hnone
  rw [hnone]

/-- **A frame of an import plays as that frame.** -/
theorem playsAs_frame {keyframes : List Call} (h : ∀ call ∈ keyframes, call.isKeyframe = true)
    {input : Bytes} {ms : TimestampMillis} {c c' : C}
    (hcomplete : E.completeFrame fuel (E.setInputEncoded input c) = some c') :
    PlaysAs E fuel (.setInput input :: .nextFrame ms :: keyframes) c [E.setInputEncoded input c]
      c' := by
  intro tape
  obtain ⟨packets, hevents, hplay⟩ := playsAs_keyframes h c'
    ((tape.record (.setInput input)).record (.nextFrame ms))
  refine ⟨.changeInput input :: .nextFrame (ms - tape.elapsedMillis) :: packets, ?_, ?_⟩
  · show (((tape.record (.setInput input)).record (.nextFrame ms)).recordAll keyframes).events = _
    rw [hevents]
    show (tape.events ++ [Packet.changeInput input]) ++ [.nextFrame (ms - tape.elapsedMillis)] ++
      packets = _
    rw [List.append_assoc, List.append_assoc]
    rfl
  · show playPackets E fuel (.nextFrame (ms - tape.elapsedMillis) :: packets)
      (E.setInputEncoded input c) = _
    rw [playPackets, hcomplete]
    simp only [Option.bind_eq_bind, Option.bind_some]
    rw [hplay]
    rfl

end Legacy

end SuperShuckie
