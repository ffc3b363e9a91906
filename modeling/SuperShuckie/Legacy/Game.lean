import SuperShuckie.Legacy.Import
import SuperShuckie.Recording.Plays

/-!
# What an import is for

`LegacyGame` is the game of an old file as it was played: at each frame boundary the packets of the
frame in order, then the frame.  `playReplay` is the console of a core that plays a replay.  Imports
are faithful when both go through the same frames (`Faithful`).
-/

set_option autoImplicit false

namespace SuperShuckie

namespace Legacy

open ByteFormat

variable {C : Type} (E : GameBoy C)

/-! ## The old game -/

/-- The game of an old file. -/
structure LegacyGame (C : Type) where
  console : C
  /-- The buttons held. -/
  held : UInt8
  states : StoredStates

namespace LegacyGame

def start : LegacyGame C := ⟨E.fresh, 0, fun _ ↦ none⟩

def load (state : Bytes) (g : LegacyGame C) : Option (LegacyGame C) :=
  if E.loads state then some { g with console := (E.loadSaveState state g.console).2 } else none

/-- A packet.  A state that is stored is loaded whenever the memory differs from it. -/
def apply (g : LegacyGame C) : LegacyPacket → Option (LegacyGame C)
  | .addState index data =>
    let stored := { g with states := g.states.insert index data }
    if E.loads data ∧ ¬ E.sameMemory g.console (E.loadSaveState data g.console).2 then
      stored.load E data
    else some stored
  | .loadState index => (g.states index).bind fun state ↦ g.load E state
  | .input mask => some { g with held := mask }
  | .writeMemory bank address byte =>
    if addressedAlike bank address then
      some { g with console := (E.writeRam address.toUInt32 [byte] g.console).2 }
    else some g
  | .reset => some { g with console := E.hardReset g.console }
  | .ignored => some g

/-- The packets of a frame boundary. -/
def packetsAt (packets : List (Nat × LegacyPacket)) (frame : Nat) : List LegacyPacket :=
  (packets.filter (·.1 = frame)).map (·.2)

def boundary (packets : List (Nat × LegacyPacket)) (frame : Nat) (g : LegacyGame C) :
    Option (LegacyGame C) := (packetsAt packets frame).foldlM (apply E) g

/-- The console as a frame starts. -/
def frameStart (g : LegacyGame C) : C := E.setInputEncoded [g.held] g.console

/-- The frames from one on, `left` of them, as they start, and what follows the last one. -/
def frames (fuel : Nat) (packets : List (Nat × LegacyPacket)) :
    Nat → Nat → LegacyGame C → Option (List C × LegacyGame C)
  | 0, _, g => some ([], g)
  | left + 1, frame, g => do
    let console ← E.completeFrame fuel (g.frameStart E)
    let next ← boundary E packets (frame + 1) { g with console }
    let (consoles, last) ← frames fuel packets left (frame + 1) next
    some (g.frameStart E :: consoles, last)

/-- The game of a file. -/
def played (fuel : Nat) (packets : List (Nat × LegacyPacket)) :
    Option (List C × LegacyGame C) := do
  let g ← boundary E packets 0 (start E)
  frames E fuel packets (lastFrame 0 packets) 0 g

end LegacyGame

/-! ## Playing a replay -/

/-- What a packet of a replay does to the console of a core that plays it. -/
def playedOn (packet : Packet) (c : C) : C :=
  match packet with
  | .writeMemory address data =>
    if address.toNat < 2 ^ 32 then (E.writeRam address.toUInt32 data c).2 else c
  | .changeInput data => E.setInputEncoded data c
  | .resetConsole => E.hardReset c
  | .loadSaveState state => (E.loadSaveState state c).2
  | .serialIn data =>
    match E.linkPort with
    | none => c
    | some port => (port.queueSerialIn data c).2
  | _ => c

/-- The packets of a replay after the first keyframe: the frames as they start, and the console
after the last one. -/
def playPackets (fuel : Nat) : List Packet → C → Option (List C × C)
  | [], c => some ([], c)
  | .nextFrame _ :: packets, c => do
    let console ← E.completeFrame fuel c
    let (consoles, last) ← playPackets fuel packets console
    some (c :: consoles, last)
  | packet :: packets, c => playPackets fuel packets (playedOn E packet c)

/-- Play a replay from its first keyframe. -/
def playReplay (fuel : Nat) (replay : Tape) : Option (List C × C) :=
  match replay.events with
  | .keyframe metadata state :: packets =>
    if E.loads state then
      playPackets E fuel packets
        (E.setInputEncoded metadata.input (E.loadSaveState state E.fresh).2)
    else none
  | _ => none

/-- **A core that plays a replay** does to its console what `playedOn` says, where it does not load
every keyframe that it passes. -/
theorem core_applyPlaybackPacket {s : SuperShuckieCore C}
    (hresync : s.autoResyncKeyframesInReplays = false) (packet : Packet) (state : Option Bytes) :
    (s.applyPlaybackPacket E.toEmulatorCore packet state).core = playedOn E packet s.core := by
  have hmirror (wrote : Bool) (s : SuperShuckieCore C) :
      (s.followerMirror packet wrote).core = s.core := by
    rw [SuperShuckieCore.followerMirror]
    cases s.follower with
    | none => rfl
    | some follower =>
      cases packet
      case writeMemory => cases wrote <;> rfl
      all_goals rfl
  have hspeed (s : SuperShuckieCore C) : s.matchReplayPlaybackSpeed.core = s.core := by
    rw [SuperShuckieCore.matchReplayPlaybackSpeed]
    split <;> rfl
  rw [SuperShuckieCore.applyPlaybackPacket]
  dsimp only
  rw [hmirror]
  cases packet with
  | writeMemory address data =>
    show (s.applyWrite E.toEmulatorCore address data).2.core =
      if address.toNat < 2 ^ 32 then (E.writeRam address.toUInt32 data s.core).2 else s.core
    rw [SuperShuckieCore.applyWrite]
    split_ifs
    · cases hwrite : E.writeRam address.toUInt32 data s.core with
      | mk wrote core => cases wrote <;> rfl
    · rfl
  | changeSpeed speed => exact hspeed _
  | keyframe metadata bytes =>
    cases state with
    | none => rfl
    | some state =>
      show (if s.autoResyncKeyframesInReplays then s.resyncFromKeyframe E.toEmulatorCore state
        else s).core = s.core
      rw [hresync]
      rfl
  | serialIn data =>
    show (s.applySerialIn E.toEmulatorCore data).core =
      match E.linkPort with
      | none => s.core
      | some port => (port.queueSerialIn data s.core).2
    rw [SuperShuckieCore.applySerialIn]
    cases E.linkPort with
    | none => rfl
    | some port =>
      dsimp only
      cases hqueue : port.queueSerialIn data s.core with
      | mk accepted core => cases accepted <;> rfl
  | _ => rfl

/-! ## Faithful imports -/

/-- **An import is faithful**: the console of its replay goes through the frames of the game. -/
def Faithful (fuel : Nat) (packets : List (Nat × LegacyPacket)) (replay : Tape) : Prop :=
  ∃ consoles last c, LegacyGame.played E fuel packets = some (consoles, last) ∧
    playReplay E fuel replay = some (consoles, c) ∧ E.SameButInput c last.console

/-- What an import makes of a packet at frame 0. -/
def LegacyGame.loadOnly (g : LegacyGame C) : LegacyPacket → Option (LegacyGame C)
  | .addState index data => some { g with states := g.states.insert index data }
  | .loadState index => (g.states index).bind fun state ↦ g.load E state
  | .input mask => some { g with held := mask }
  | _ => some g

/-- **The packets at frame 0 come to the same** whether the resets, the writes and the comparisons
among them are made or not. -/
def StartsAlike (packets : List (Nat × LegacyPacket)) : Prop :=
  ∃ g g', LegacyGame.boundary E packets 0 (.start E) = some g ∧
    (LegacyGame.packetsAt packets 0).foldlM (LegacyGame.loadOnly E) (.start E) = some g' ∧
    E.SameButInput g.console g'.console

/-- The states that packets load. -/
def statesLoaded : StoredStates → List LegacyPacket → List Bytes
  | _, [] => []
  | states, .addState index data :: packets => statesLoaded (states.insert index data) packets
  | states, .loadState index :: packets => (states index).toList ++ statesLoaded states packets
  | states, _ :: packets => statesLoaded states packets

/-- Every state that is loaded can be loaded. -/
def LoadsAll (packets : List (Nat × LegacyPacket)) : Prop :=
  ∀ state ∈ statesLoaded (fun _ ↦ none) (packets.map (·.2)), E.loads state = true

end Legacy

end SuperShuckie
