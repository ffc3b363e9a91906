import SuperShuckie.Legacy.Game

/-!
# The packets of a file, frame by frame

A reader delivers packets in the order of their frames (`Delivers.sorted`).  So the packets of a
frame boundary are the first ones of those to come (`packetsAt_of_split`), and what is left is the
same file for the frames after it (`frames_congr`).

A game that is played to its end has loaded every state that its packets load
(`loadsAll_of_played`).
-/

set_option autoImplicit false

namespace SuperShuckie

namespace Legacy

open ByteFormat

variable {r : PacketReader} {packets before after : List (Nat × LegacyPacket)} {frame : Nat}

/-! ## The order of packets -/

theorem Delivers.frame_le (h : Delivers r packets) : ∀ packet ∈ packets, r.frame ≤ packet.1 := by
  induction h with
  | nil _ => exact fun _ hpacket ↦ absurd hpacket List.not_mem_nil
  | cons hnext _ ih =>
    obtain ⟨-, hle, hframe, -⟩ := length_next hnext
    intro packet hpacket
    rcases List.mem_cons.1 hpacket with rfl | hpacket
    · rwa [hframe]
    · exact hle.trans (ih packet hpacket)

/-- **Packets are delivered in the order of their frames.** -/
theorem Delivers.sorted (h : Delivers r packets) :
    packets.Pairwise fun packet packet' ↦ packet.1 ≤ packet'.1 := by
  induction h with
  | nil _ => exact .nil
  | cons hnext hrest ih =>
    refine .cons (fun packet hpacket ↦ ?_) ih
    rw [(length_next hnext).2.2.1]
    exact hrest.frame_le packet hpacket

/-- The packets after a frame, of packets whose first one is after it. -/
theorem lt_of_head (hsorted : after.Pairwise fun packet packet' ↦ packet.1 ≤ packet'.1)
    (hhead : ∀ packet ∈ after.head?, frame < packet.1) : ∀ packet ∈ after, frame < packet.1 := by
  cases after with
  | nil => exact fun _ hpacket ↦ absurd hpacket List.not_mem_nil
  | cons first after =>
    have hfirst : frame < first.1 := hhead first rfl
    intro packet hpacket
    rcases List.mem_cons.1 hpacket with rfl | hpacket
    · exact hfirst
    · exact hfirst.trans_le (List.rel_of_pairwise_cons hsorted hpacket)

/-- The packets of the first frame come first. -/
theorem exists_split (hsorted : packets.Pairwise fun packet packet' ↦ packet.1 ≤ packet'.1)
    (hfrom : ∀ packet ∈ packets, frame ≤ packet.1) :
    ∃ before after, packets = before ++ after ∧ (∀ packet ∈ before, packet.1 = frame) ∧
      ∀ packet ∈ after, frame < packet.1 := by
  induction packets with
  | nil =>
    exact ⟨[], [], rfl, fun _ h ↦ absurd h List.not_mem_nil, fun _ h ↦ absurd h List.not_mem_nil⟩
  | cons first packets ih =>
    rcases (hfrom first List.mem_cons_self).eq_or_lt with heq | hlt
    · obtain ⟨before, after, rfl, hbefore, hafter⟩ :=
        ih hsorted.of_cons fun packet hpacket ↦ hfrom packet (List.mem_cons_of_mem _ hpacket)
      refine ⟨first :: before, after, rfl, fun packet hpacket ↦ ?_, hafter⟩
      rcases List.mem_cons.1 hpacket with rfl | hpacket
      · exact heq.symm
      · exact hbefore packet hpacket
    · refine ⟨[], first :: packets, rfl, fun _ h ↦ absurd h List.not_mem_nil, ?_⟩
      exact lt_of_head hsorted fun packet hpacket ↦ by cases hpacket; exact hlt

/-- The last frame is that of a packet, and no packet is after it. -/
theorem le_lastFrame (hsorted : packets.Pairwise fun packet packet' ↦ packet.1 ≤ packet'.1) :
    ∀ packet ∈ packets, packet.1 ≤ lastFrame frame packets := by
  induction packets generalizing frame with
  | nil => exact fun _ hpacket ↦ absurd hpacket List.not_mem_nil
  | cons first packets ih =>
    intro packet hpacket
    rw [lastFrame_cons]
    rcases List.mem_cons.1 hpacket with rfl | hpacket
    · cases packets with
      | nil => exact Nat.le_refl _
      | cons second packets =>
        exact (List.rel_of_pairwise_cons hsorted List.mem_cons_self).trans
          (ih hsorted.of_cons second List.mem_cons_self)
    · exact ih hsorted.of_cons packet hpacket

/-! ## The packets of a frame -/

namespace LegacyGame

theorem packetsAt_append (before after : List (Nat × LegacyPacket)) (frame : Nat) :
    packetsAt (before ++ after) frame = packetsAt before frame ++ packetsAt after frame := by
  rw [packetsAt, List.filter_append, List.map_append]
  rfl

theorem packetsAt_of_ne (h : ∀ packet ∈ packets, packet.1 ≠ frame) :
    packetsAt packets frame = [] := by
  rw [packetsAt, List.filter_eq_nil_iff.2, List.map_nil]
  intro packet hpacket heq
  exact h packet hpacket (of_decide_eq_true heq)

theorem packetsAt_of_eq (h : ∀ packet ∈ packets, packet.1 = frame) :
    packetsAt packets frame = packets.map (·.2) := by
  rw [packetsAt, List.filter_eq_self.2]
  exact fun packet hpacket ↦ decide_eq_true (h packet hpacket)

/-- **The packets of a boundary** come before the later ones. -/
theorem packetsAt_of_split (hbefore : ∀ packet ∈ before, packet.1 = frame)
    (hafter : ∀ packet ∈ after, frame < packet.1) :
    packetsAt (before ++ after) frame = before.map (·.2) := by
  rw [packetsAt_append, packetsAt_of_eq hbefore,
    packetsAt_of_ne fun packet hpacket ↦ (hafter packet hpacket).ne', List.append_nil]

/-- The packets of later frames are among those to come. -/
theorem packetsAt_later (hbefore : ∀ packet ∈ before, packet.1 ≤ frame) {later : Nat}
    (hlater : frame < later) : packetsAt (before ++ after) later = packetsAt after later := by
  rw [packetsAt_append, packetsAt_of_ne fun packet hpacket ↦ ((hbefore packet hpacket).trans_lt
    hlater).ne, List.nil_append]

variable {C : Type} {E : GameBoy C} {fuel : Nat}

/-- The frames of a game depend on the packets after the first one only. -/
theorem frames_congr (packets' : List (Nat × LegacyPacket))
    (h : ∀ later, frame < later → packetsAt packets later = packetsAt packets' later)
    (left : Nat) (g : LegacyGame C) :
    frames E fuel packets left frame g = frames E fuel packets' left frame g := by
  induction left generalizing frame g with
  | zero => rfl
  | succ left ih =>
    have hboundary (g : LegacyGame C) :
        boundary E packets (frame + 1) g = boundary E packets' (frame + 1) g := by
      rw [boundary, boundary, h _ (Nat.lt_succ_self frame)]
    have hrest (g : LegacyGame C) :
        frames E fuel packets left (frame + 1) g = frames E fuel packets' left (frame + 1) g :=
      ih (fun later hlater ↦ h later ((Nat.lt_succ_self frame).trans hlater)) g
    rw [frames, frames]
    simp only [hboundary, hrest]

end LegacyGame

/-! ## The states that are loaded -/

/-- The states after packets that store some. -/
def storedBy (states : StoredStates) (packets : List LegacyPacket) : StoredStates :=
  packets.foldl
    (fun states packet ↦ match packet with
      | .addState index data => states.insert index data
      | _ => states) states

theorem storedBy_append (states : StoredStates) (packets packets' : List LegacyPacket) :
    storedBy states (packets ++ packets') = storedBy (storedBy states packets) packets' :=
  List.foldl_append

theorem statesLoaded_append (states : StoredStates) (packets packets' : List LegacyPacket) :
    statesLoaded states (packets ++ packets') =
      statesLoaded states packets ++ statesLoaded (storedBy states packets) packets' := by
  induction packets generalizing states with
  | nil => rfl
  | cons packet packets ih =>
    cases packet with
    | addState index data => exact ih _
    | loadState index =>
      show (states index).toList ++ statesLoaded states (packets ++ packets') =
        ((states index).toList ++ statesLoaded states packets) ++ _
      rw [ih, List.append_assoc]
      rfl
    | _ => exact ih _

namespace LegacyGame

variable {C : Type} {E : GameBoy C} {fuel : Nat} {g g' : LegacyGame C}

theorem load_eq_some {state : Bytes} (h : g.load E state = some g') :
    E.loads state = true ∧ g' = { g with console := (E.loadSaveState state g.console).2 } := by
  rw [load] at h
  split_ifs at h with hloads
  cases h
  exact ⟨hloads, rfl⟩

/-- A packet loads what it loads, and stores what it stores. -/
theorem apply_eq_some {packet : LegacyPacket} (h : g.apply E packet = some g') :
    g'.states = storedBy g.states [packet] ∧
      ∀ state ∈ statesLoaded g.states [packet], E.loads state = true := by
  have hnone (state : Bytes) (hstate : state ∈ ([] : List Bytes)) : E.loads state = true :=
    absurd hstate List.not_mem_nil
  cases packet with
  | addState index data =>
    refine ⟨?_, hnone⟩
    rw [apply] at h
    split_ifs at h with hdiffers
    · obtain ⟨-, rfl⟩ := load_eq_some h
      rfl
    · cases h
      rfl
  | loadState index =>
    obtain ⟨state, hstate, hload⟩ := Option.bind_eq_some_iff.1 h
    obtain ⟨hloads, rfl⟩ := load_eq_some hload
    refine ⟨rfl, fun other hother ↦ ?_⟩
    rw [statesLoaded, hstate, statesLoaded, List.append_nil] at hother
    rw [List.mem_singleton.1 hother]
    exact hloads
  | writeMemory bank address byte =>
    rw [apply] at h
    split_ifs at h <;> cases h <;> exact ⟨rfl, hnone⟩
  | input mask =>
    cases h
    exact ⟨rfl, hnone⟩
  | reset =>
    cases h
    exact ⟨rfl, hnone⟩
  | ignored =>
    cases h
    exact ⟨rfl, hnone⟩

theorem foldlM_apply_eq_some {packets : List LegacyPacket}
    (h : packets.foldlM (apply E) g = some g') : g'.states = storedBy g.states packets ∧
      ∀ state ∈ statesLoaded g.states packets, E.loads state = true := by
  induction packets generalizing g with
  | nil =>
    cases h
    exact ⟨rfl, fun state hstate ↦ absurd hstate List.not_mem_nil⟩
  | cons packet packets ih =>
    rw [List.foldlM_cons] at h
    obtain ⟨next, happly, hrest⟩ := Option.bind_eq_some_iff.1 h
    obtain ⟨hstates, hloads⟩ := apply_eq_some happly
    obtain ⟨hstates', hloads'⟩ := ih hrest
    rw [hstates] at hstates' hloads'
    refine ⟨hstates', fun state hstate ↦ ?_⟩
    rw [← List.singleton_append, statesLoaded_append] at hstate
    rcases List.mem_append.1 hstate with hstate | hstate
    · exact hloads state hstate
    · exact hloads' state hstate

/-- The frames of a game load every state of the packets after the first one. -/
theorem loads_of_frames {left : Nat} {consoles : List C}
    (hsorted : packets.Pairwise fun packet packet' ↦ packet.1 ≤ packet'.1)
    (hfrom : ∀ packet ∈ packets, frame < packet.1)
    (hto : ∀ packet ∈ packets, packet.1 ≤ frame + left)
    (h : frames E fuel packets left frame g = some (consoles, g')) :
    ∀ state ∈ statesLoaded g.states (packets.map (·.2)), E.loads state = true := by
  induction left generalizing packets frame g consoles with
  | zero =>
    have hnone : packets = [] := by
      rw [List.eq_nil_iff_forall_not_mem]
      intro packet hpacket
      have hlt := hfrom packet hpacket
      have hle := hto packet hpacket
      omega
    subst hnone
    exact fun _ hstate ↦ absurd hstate List.not_mem_nil
  | succ left ih =>
    obtain ⟨before, after, rfl, hbefore, hafter⟩ := exists_split hsorted hfrom
    rw [frames] at h
    simp only [Option.bind_eq_bind, Option.bind_eq_some_iff] at h
    obtain ⟨console, -, next, hboundary, ⟨rest, last⟩, hrest, heq⟩ := h
    cases heq
    rw [boundary, packetsAt_of_split hbefore hafter] at hboundary
    obtain ⟨hstates, hloads⟩ := foldlM_apply_eq_some hboundary
    rw [frames_congr after fun later hlater ↦
      packetsAt_later (fun packet hpacket ↦ (hbefore packet hpacket).le) hlater] at hrest
    have hafter' := ih (List.pairwise_append.1 hsorted).2.1 hafter (fun packet hpacket ↦ by
      have hle := hto packet (List.mem_append_right _ hpacket)
      omega) hrest
    rw [hstates] at hafter'
    intro state hstate
    rw [List.map_append, statesLoaded_append] at hstate
    rcases List.mem_append.1 hstate with hstate | hstate
    · exact hloads state hstate
    · exact hafter' state hstate

/-- **A game that is played** loads every state of its packets. -/
theorem loadsAll_of_played {consoles : List C} (h : Delivers r packets)
    (hplayed : played E fuel packets = some (consoles, g)) : LoadsAll E packets := by
  obtain ⟨before, after, rfl, hbefore, hafter⟩ :=
    exists_split h.sorted fun packet _ ↦ Nat.zero_le packet.1
  rw [played] at hplayed
  simp only [Option.bind_eq_bind, Option.bind_eq_some_iff] at hplayed
  obtain ⟨first, hboundary, hframes⟩ := hplayed
  rw [boundary, packetsAt_of_split hbefore hafter] at hboundary
  obtain ⟨hstates, hloads⟩ := foldlM_apply_eq_some hboundary
  have hto : ∀ packet ∈ after, packet.1 ≤ 0 + lastFrame 0 (before ++ after) := by
    intro packet hpacket
    rw [Nat.zero_add]
    exact le_lastFrame h.sorted packet (List.mem_append_right _ hpacket)
  rw [frames_congr after fun later hlater ↦
    packetsAt_later (fun packet hpacket ↦ (hbefore packet hpacket).le) hlater] at hframes
  have hrest := loads_of_frames (List.pairwise_append.1 h.sorted).2.1 hafter hto hframes
  rw [hstates] at hrest
  intro state hstate
  rw [List.map_append, statesLoaded_append] at hstate
  rcases List.mem_append.1 hstate with hstate | hstate
  · exact hloads state hstate
  · exact hrest state hstate

end LegacyGame

end Legacy

end SuperShuckie
