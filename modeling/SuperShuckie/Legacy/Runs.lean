import SuperShuckie.Legacy.Follows

/-!
# A whole import

The loops of an import follow the game of the packets that they still have to read (`Upcoming`): the
packets at frame 0 before there is a recording (`read_begun`), the packets of a boundary
(`boundary_follows`), and the frames up to the last one (`frames_follows`).
-/

set_option autoImplicit false

namespace SuperShuckie

namespace Legacy

open ByteFormat SuperShuckie.Convert Fallible

variable {C : Type} {E : GameBoy C} {fuel : Nat}

/-! ## Boundaries -/

/-- The packets that an import has not made yet. -/
def Upcoming (s : Importing C) (packets : List (Nat × LegacyPacket)) : Prop :=
  ∃ rest, Delivers s.reader rest ∧ packets = s.pending.toList ++ rest

variable {s s' : Importing C} {packets : List (Nat × LegacyPacket)}

/-- The next packet is the first of those to come. -/
theorem next_spec (h : Upcoming s packets) : (packets = [] ∧ s.next = .ok none) ∨
      ∃ packet rest s', packets = packet :: rest ∧ s.next = .ok (some (packet, s')) ∧
        Upcoming s' rest ∧ s'.pending = none ∧ s'.core = s.core ∧ s'.states = s.states := by
  obtain ⟨rest, hdelivers, rfl⟩ := h
  rw [Importing.next]
  cases hpending : s.pending with
  | some packet =>
    exact .inr ⟨packet, rest, { s with pending := none }, rfl, rfl, ⟨rest, hdelivers, rfl⟩, rfl,
      rfl, rfl⟩
  | none =>
    cases hdelivers with
    | nil hnone =>
      dsimp only
      rw [hnone]
      exact .inl ⟨rfl, rfl⟩
    | @cons _ reader packet rest hsome hrest =>
      dsimp only
      rw [hsome]
      exact .inr ⟨packet, rest, { s with reader, pending := none }, rfl, rfl, ⟨rest, hrest, rfl⟩,
        rfl, rfl, rfl⟩

variable (E) in
/-- Packets, which run no frame. -/
def LegacyGame.packetsStep (packets : List LegacyPacket) (g : LegacyGame C) :
    Option (List C × LegacyGame C) := (packets.foldlM (apply E) g).map fun g' ↦ ([], g')

theorem LegacyGame.packetsStep_cons (packet : LegacyPacket) (packets : List LegacyPacket)
    (g : LegacyGame C) : packetsStep E (packet :: packets) g =
      goesOn (packetStep E packet g) (packetsStep E packets) := by
  rw [packetsStep, packetStep, List.foldlM_cons]
  cases g.apply E packet with
  | none => rfl
  | some next =>
    show (packets.foldlM (apply E) next).map _ = ((packets.foldlM (apply E) next).map _).map _
    rw [Option.map_map]
    rfl

variable {replay : Tape} {done : List LegacyPacket} {frames frame : Nat}
  {game : Option (List C × LegacyGame C)} {env : Surroundings}

/-- **The packets of a boundary** are those up to its frame, in their order. -/
theorem boundary_follows {left : Nat}
    (h : Follows E fuel replay done frames game s.core s.states) (hupcoming : Upcoming s packets)
    (hgives : Gives (Importing.boundary E fuel frame env left s) s') :
    ∃ before after, packets = before ++ after ∧ (∀ packet ∈ before, packet.1 ≤ frame) ∧
      (∀ packet ∈ after.head?, frame < packet.1) ∧ Upcoming s' after ∧
      Follows E fuel replay (done ++ before.map (·.2)) frames
        (goesOn game (LegacyGame.packetsStep E (before.map (·.2)))) s'.core s'.states := by
  have hempty (g : Option (List C × LegacyGame C)) :
      goesOn g (LegacyGame.packetsStep E []) = g := by
    cases g with
    | none => rfl
    | some played => exact goesOn_start played.1 played.2
  induction left generalizing s packets done game with
  | zero => exact absurd hgives not_gives_panics
  | succ left ih =>
    rw [Importing.boundary] at hgives
    rcases next_spec hupcoming with ⟨rfl, hnext⟩ |
      ⟨packet, rest, t, rfl, hnext, hrest, hnone, hcore, hstates⟩
    · rw [hnext] at hgives
      rw [gives_pure_iff] at hgives
      subst hgives
      refine ⟨[], [], rfl, fun _ h ↦ absurd h List.not_mem_nil, ?_, hupcoming, ?_⟩
      · exact fun _ hhead ↦ nomatch hhead
      rw [List.map_nil, List.append_nil, hempty]
      exact h
    · rw [hnext] at hgives
      dsimp only at hgives
      rw [← hcore, ← hstates] at h
      split_ifs at hgives with hlater
      · rw [gives_pure_iff] at hgives
        subst hgives
        obtain ⟨delivered, hdelivers, hrest⟩ := hrest
        rw [hnone] at hrest
        refine ⟨[], packet :: rest, rfl, fun _ h ↦ absurd h List.not_mem_nil,
          fun _ hhead ↦ by cases hhead; exact hlater, ⟨delivered, hdelivers, ?_⟩, ?_⟩
        · rw [hrest]
          rfl
        rw [List.map_nil, List.append_nil, hempty]
        exact h
      · obtain ⟨t', happly, hgives⟩ := gives_bind.1 hgives
        obtain ⟨hreader, hpending, calls, hcount, hdoes⟩ := apply_does h.ready happly
        have hrest' : Upcoming t' rest := by
          obtain ⟨delivered, hdelivers, hrest⟩ := hrest
          refine ⟨delivered, ?_, ?_⟩
          · rw [hreader]
            exact hdelivers
          · rw [hpending]
            exact hrest
        obtain ⟨before, after, rfl, hbefore, hafter, hupcoming', hfollows⟩ :=
          ih (h.does hdoes hcount) hrest' hgives
        refine ⟨packet :: before, after, rfl, fun other hother ↦ ?_, hafter, hupcoming', ?_⟩
        · rcases List.mem_cons.1 hother with rfl | hother
          · exact Nat.le_of_not_lt hlater
          · exact hbefore other hother
        · have hstep : LegacyGame.packetsStep E ((packet :: before).map (·.2)) = fun g ↦
              goesOn (LegacyGame.packetStep E packet.2 g)
                (LegacyGame.packetsStep E (before.map (·.2))) :=
            funext fun g ↦ LegacyGame.packetsStep_cons packet.2 (before.map (·.2)) g
          rw [hstep, ← goesOn_goesOn, List.map_cons, List.append_cons]
          exact hfollows

/-! ## Frames -/

/-- A frame of the game, the packets of the boundary after it, and the frames that follow. -/
theorem LegacyGame.frames_succ (E : GameBoy C) (fuel : Nat)
    (packets : List (Nat × LegacyPacket)) (left frame : Nat) (g : LegacyGame C) :
    LegacyGame.frames E fuel packets (left + 1) frame g =
      goesOn (g.frameStep E fuel) fun g ↦
        goesOn (packetsStep E (packetsAt packets (frame + 1)) g)
          (LegacyGame.frames E fuel packets left (frame + 1)) := by
  rw [LegacyGame.frames, frameStep]
  cases E.completeFrame fuel (g.frameStart E) with
  | none => rfl
  | some console =>
    simp only [Option.bind_eq_bind, Option.bind_some, Option.map_some]
    rw [boundary]
    show _ = (goesOn ((List.foldlM (apply E) { g with console }
      (packetsAt packets (frame + 1))).map _) _).map _
    cases List.foldlM (apply E) { g with console } (packetsAt packets (frame + 1)) with
    | none => rfl
    | some next =>
      show (LegacyGame.frames E fuel packets left (frame + 1) next).bind _ =
        ((LegacyGame.frames E fuel packets left (frame + 1) next).map _).map _
      cases LegacyGame.frames E fuel packets left (frame + 1) next with
      | none => rfl
      | some rest => rfl

/-- **The frames of an import**, each after the packets of its boundary, are those of the game. -/
theorem frames_follows {options : LegacyImportOptions} {left : Nat}
    (h : Follows E fuel replay done frame game s.core s.states) (hupcoming : Upcoming s packets)
    (hsorted : packets.Pairwise fun packet packet' ↦ packet.1 ≤ packet'.1)
    (hfrom : ∀ packet ∈ packets, frame ≤ packet.1)
    (hgives : Gives (Importing.frames E options fuel left frame s) s') :
    s'.report.frames = frame + left ∧ ∃ before after, packets = before ++ after ∧
      Follows E fuel replay (done ++ before.map (·.2)) (frame + left)
        (goesOn game fun g ↦ goesOn
          (LegacyGame.packetsStep E (LegacyGame.packetsAt packets frame) g)
          (LegacyGame.frames E fuel packets left frame)) s'.core s'.states := by
  induction left generalizing s packets done game frame with
  | zero =>
    rw [Importing.frames] at hgives
    obtain ⟨t, hboundary, hgives⟩ := gives_bind.1 hgives
    rw [gives_pure_iff] at hgives
    subst hgives
    obtain ⟨before, after, rfl, hbefore, hhead, -, hfollows⟩ :=
      boundary_follows h hupcoming hboundary
    have hafter := lt_of_head (List.pairwise_append.1 hsorted).2.1 hhead
    refine ⟨rfl, before, after, rfl, ?_⟩
    rw [LegacyGame.packetsAt_of_split (fun packet hpacket ↦
      (hbefore packet hpacket).antisymm (hfrom packet (List.mem_append_left _ hpacket))) hafter,
      ← goesOn_goesOn]
    have hlast (g : Option (List C × LegacyGame C)) :
        goesOn g (LegacyGame.frames E fuel (before ++ after) 0 frame) = g := by
      cases g with
      | none => rfl
      | some played => exact goesOn_start played.1 played.2
    rw [hlast]
    exact hfollows
  | succ left ih =>
    rw [Importing.frames] at hgives
    obtain ⟨t, hboundary, hgives⟩ := gives_bind.1 hgives
    obtain ⟨core, hframe, hgives⟩ := gives_bind.1 hgives
    split_ifs at hgives with hcancel
    · exact absurd hgives not_gives_throw
    · obtain ⟨before, after, rfl, hbefore, hhead, hupcoming', hfollows⟩ :=
        boundary_follows h hupcoming hboundary
      have hafter := lt_of_head (List.pairwise_append.1 hsorted).2.1 hhead
      obtain ⟨calls, hcount, hdoes⟩ := runFrame_does t.states hfollows.ready hframe
      obtain ⟨hreport, before', after', hsplit, hfollows'⟩ := ih
        (s := { t with core }) (hfollows.does hdoes hcount) hupcoming'
        (List.pairwise_append.1 hsorted).2.1 hafter hgives
      refine ⟨by rw [hreport]; omega, before ++ before', after', ?_, ?_⟩
      · rw [hsplit, List.append_assoc]
      · have hsame (g : LegacyGame C) :
            LegacyGame.frames E fuel (before ++ after) (left + 1) frame g =
              LegacyGame.frames E fuel after (left + 1) frame g :=
          LegacyGame.frames_congr after (fun later hlater ↦
            LegacyGame.packetsAt_later hbefore hlater) (left + 1) g
        rw [LegacyGame.packetsAt_of_split (fun packet hpacket ↦
          (hbefore packet hpacket).antisymm (hfrom packet (List.mem_append_left _ hpacket))) hafter,
          funext hsame, funext (LegacyGame.frames_succ E fuel after left frame)]
        rw [List.append_nil] at hfollows'
        rw [← goesOn_goesOn, ← goesOn_goesOn, List.map_append, ← List.append_assoc]
        have hplace : frame + (left + 1) = frame + 1 + left := by omega
        rw [hplace]
        exact hfollows'

/-! ## The packets at frame 0 -/

variable (E) in
/-- What an import has before its recording: the console with what it has loaded. -/
structure Begun (b : Beginning C) (g : LegacyGame C) : Prop where
  ready : Ready E b.core
  console : E.SameButInput b.core.live.session.core g.console
  mask : b.inputMask = g.held
  states : b.states = g.states

variable {b b' : Beginning C} {g g' : LegacyGame C} {packet : LegacyPacket}

theorem begun_new (reader : PacketReader) (now : TimestampMillis) :
    Begun E ⟨reader, .new E now, fun _ ↦ none, none, 0, false⟩ (LegacyGame.start E) where
  ready := ⟨⟨rfl, rfl, rfl, rfl⟩, E.isMidFrame_fresh, rfl, ⟨rfl, rfl, rfl, rfl, rfl⟩, rfl⟩
  console := .refl _
  mask := rfl
  states := rfl

/-- **A packet at frame 0** only stores and loads states and notes the input. -/
theorem apply_begun (h : Begun E b g) (hgives : Gives (b.apply E fuel packet) b') :
    b'.reader = b.reader ∧ b'.pending = b.pending ∧
      ∃ g', g.loadOnly E packet = some g' ∧ Begun E b' g' := by
  cases packet with
  | addState index data =>
    rw [Beginning.apply, gives_pure_iff] at hgives
    subst hgives
    refine ⟨rfl, rfl, _, rfl, h.ready, h.console, h.mask, ?_⟩
    dsimp only
    rw [h.states]
  | loadState index =>
    rw [Beginning.apply] at hgives
    obtain ⟨state, hstate, hgives⟩ := gives_bind.1 hgives
    rw [gives_okOr] at hstate
    cases hresult : (E.loadSaveState state E.fresh).1 with
    | error e =>
      rw [hresult] at hgives
      exact absurd hgives not_gives_throw
    | ok _ =>
      rw [hresult] at hgives
      obtain ⟨core, hload, hgives⟩ := gives_bind.1 hgives
      rw [gives_pure_iff] at hgives
      subst hgives
      have hloads : E.loads state = true := (GameBoy.loadSaveState_ok E.fresh).1 hresult
      have hstored : g.states index = some state := by
        rw [← h.states]
        exact hstate
      obtain ⟨hdid, before, hcore⟩ := ImportCore.loadSaveState_gives h.ready hload
      refine ⟨rfl, rfl, { g with console := (E.loadSaveState state g.console).2 }, ?_, hdid.ready,
        ?_, h.mask, h.states⟩
      · rw [LegacyGame.loadOnly, hstored, Option.bind_some, LegacyGame.load, if_pos hloads]
      · dsimp only
        rw [hcore]
        exact GameBoy.sameButInput_loadSaveState hloads _ _
  | input mask =>
    rw [Beginning.apply, gives_pure_iff] at hgives
    subst hgives
    exact ⟨rfl, rfl, _, rfl, h.ready, h.console, rfl, h.states⟩
  | writeMemory bank address byte =>
    rw [Beginning.apply, gives_pure_iff] at hgives
    · subst hgives
      exact ⟨rfl, rfl, g, rfl, h⟩
    all_goals exact fun _ ↦ nofun
  | reset =>
    rw [Beginning.apply, gives_pure_iff] at hgives
    · subst hgives
      exact ⟨rfl, rfl, g, rfl, h⟩
    all_goals exact fun _ ↦ nofun
  | ignored =>
    rw [Beginning.apply, gives_pure_iff] at hgives
    · subst hgives
      exact ⟨rfl, rfl, g, rfl, h⟩
    all_goals exact fun _ ↦ nofun

/-- **The loop over the packets at frame 0** ends on the first later one. -/
theorem read_begun {left : Nat} (h : Begun E b g) (hdelivers : Delivers b.reader packets)
    (hpending : b.pending = none) (hgives : Gives (Beginning.read E fuel left b) b') :
    ∃ before after g', packets = before ++ after ∧ (∀ packet ∈ before, packet.1 = 0) ∧
      (∀ packet ∈ after.head?, 0 < packet.1) ∧
      (before.map (·.2)).foldlM (LegacyGame.loadOnly E) g = some g' ∧ Begun E b' g' ∧
      ∃ rest, Delivers b'.reader rest ∧ after = b'.pending.toList ++ rest := by
  induction left generalizing b g packets with
  | zero => exact absurd hgives not_gives_panics
  | succ left ih =>
    rw [Beginning.read] at hgives
    cases hdelivers with
    | nil hnone =>
      rw [hnone] at hgives
      rw [gives_pure_iff] at hgives
      subst hgives
      refine ⟨[], [], g, rfl, fun _ h ↦ absurd h List.not_mem_nil, ?_, rfl, h, [], .nil hnone, ?_⟩
      · exact fun _ hhead ↦ nomatch hhead
      · rw [hpending]
        rfl
    | @cons _ reader packet rest hsome hrest =>
      rw [hsome] at hgives
      dsimp only at hgives
      split_ifs at hgives with hlater
      · rw [gives_pure_iff] at hgives
        subst hgives
        exact ⟨[], packet :: rest, g, rfl, fun _ h ↦ absurd h List.not_mem_nil,
          fun _ hhead ↦ by cases hhead; exact hlater, rfl,
          ⟨h.ready, h.console, h.mask, h.states⟩, rest, hrest, rfl⟩
      · obtain ⟨b₁, happly, hgives⟩ := gives_bind.1 hgives
        have hmoved : Begun E { b with reader } g := ⟨h.ready, h.console, h.mask, h.states⟩
        obtain ⟨hreader, hpending₁, g₁, hload, hbegun⟩ := apply_begun hmoved happly
        obtain ⟨before, after, g', rfl, hbefore, hafter, hfold, hbegun', hrest'⟩ :=
          ih hbegun (by rw [hreader]; exact hrest) (by rw [hpending₁]; exact hpending) hgives
        refine ⟨packet :: before, after, g', rfl, fun other hother ↦ ?_, hafter, ?_, hbegun',
          hrest'⟩
        · rcases List.mem_cons.1 hother with rfl | hother
          · exact Nat.eq_zero_of_not_pos hlater
          · exact hbefore other hother
        · rw [List.map_cons, List.foldlM_cons, hload]
          exact hfold

end Legacy

end SuperShuckie
