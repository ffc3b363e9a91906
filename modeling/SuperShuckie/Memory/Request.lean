import SuperShuckie.Memory.Regions

/-!
# What the RAM tools ask for and are told

A `MonitorRequest` says what the tools want of the core thread, within the limits `clamp` enforces; a
`MonitorSample` holds what was read for it at one frame boundary, and a `MonitorEvent` is one thing
the core thread saw or did.
-/

set_option autoImplicit false

namespace SuperShuckie

open ByteFormat

/-! ## Limits -/

/-- Viewer windows that can be sampled at once. -/
def maxViewWindows : Nat := 4
/-- Bytes sampled across all viewer windows per sample. -/
def maxViewBytes : Nat := 16 * 1024
/-- Scattered values sampled per sample. -/
def maxProbes : Nat := 512
/-- Longest value a probe, trace or freeze entry covers. -/
def maxValueLen : Nat := 64
/-- Watches compared every emulated frame. -/
def maxTraces : Nat := 64
/-- Freeze entries held at once. -/
def maxFreezes : Nat := 256
/-- Bytes all freeze entries may hold in total. -/
def maxFreezeBytes : Nat := 4096
/-- Largest single edit. -/
def maxEditLen : Nat := 4096

/-! ## Values as numbers -/

/-- A number wrapped to 64 bits, two's complement. -/
def wrapI64 (n : Int) : Int := Int.bmod n (2 ^ 64)

/-- How to turn a traced value's bytes into a number. -/
structure ValueDecode where
  bigEndian : Bool
  signed : Bool
  /-- Two decimal digits per byte. -/
  bcd : Bool
deriving DecidableEq

/-- The number of decimal digit pairs, the most significant byte first. -/
def decodeBcd : Bytes → Nat → Option Nat
  | [], value => some value
  | b :: bytes, value =>
    let hi := b.toNat / 16
    let lo := b.toNat % 16
    if 9 < hi ∨ 9 < lo then none else decodeBcd bytes (value * 100 + (hi * 10 + lo))

/-- The number held by `bytes` (at most 8 of them), or `none` for invalid digits. -/
def ValueDecode.decode (d : ValueDecode) (bytes : Bytes) : Option Int :=
  let bytes := bytes.take 8
  if bytes.length = 0 then some 0
  else if d.bcd then
    (decodeBcd (if d.bigEndian then bytes else bytes.reverse) 0).map fun value ↦ (value : Int)
  else
    let raw := ofLeBytes (if d.bigEndian then bytes.reverse else bytes)
    if d.signed ∧ bytes.length < 8 then some (Int.bmod raw (2 ^ (8 * bytes.length)))
    else some (wrapI64 raw)

/-- When a traced watch pauses emulation. -/
inductive TraceCondition where
  | changes
  | equals (v : Int)
  | notEquals (v : Int)
  | greaterThan (v : Int)
  | lessThan (v : Int)
  | increasedBy (d : Int)
  | decreasedBy (d : Int)
deriving DecidableEq

/-! ## Requests -/

/-- A byte range a viewer wants to see. -/
structure ViewWindow where
  address : Nat
  len : Nat
deriving DecidableEq

/-- A value to read with every sample. -/
structure Probe where
  path : AddressPath
  len : Nat
deriving DecidableEq

/-- A watch compared every emulated frame. -/
structure TraceSpec where
  id : Nat
  path : AddressPath
  len : Nat
  decode : ValueDecode
  pauseWhen : Option TraceCondition
deriving DecidableEq

/-- A value held in place. -/
structure FreezeSpec where
  id : Nat
  path : AddressPath
  bytes : Bytes
  nonempty : 0 < bytes.length
  bounded : bytes.length ≤ maxValueLen
deriving DecidableEq

/-- Hold `bytes` at `path`, if they are 1 to `maxValueLen`. -/
def FreezeSpec.new (id : Nat) (path : AddressPath) (bytes : Bytes) : Option FreezeSpec :=
  if h : 0 < bytes.length ∧ bytes.length ≤ maxValueLen then some ⟨id, path, bytes, h.1, h.2⟩
  else none

/-- Everything the tools want from the core thread. -/
structure MonitorRequest where
  sampling : Bool := false
  /-- Microseconds between samples while emulation runs. -/
  interval : Nat := 33000
  /-- Viewer windows, by viewer slot. -/
  windows : List (Option ViewWindow) := List.replicate maxViewWindows none
  probes : List Probe := []
  traces : List TraceSpec := []
  freezes : List FreezeSpec := []
  /-- Keep freezes but do not apply them (replay playback). -/
  freezesSuspended : Bool := false
deriving DecidableEq

/-- Cap the windows to a budget of bytes shared between them. -/
def clampWindows : List (Option ViewWindow) → Nat → List (Option ViewWindow)
  | [], _ => []
  | none :: windows, budget => none :: clampWindows windows budget
  | some w :: windows, budget =>
    some ⟨w.address, min w.len budget⟩ :: clampWindows windows (budget - min w.len budget)

/-- Keep the freezes that fit in what is left of a budget of bytes. -/
def clampFreezes : List FreezeSpec → Nat → List FreezeSpec
  | [], _ => []
  | f :: freezes, budget =>
    if f.bytes.length ≤ budget then f :: clampFreezes freezes (budget - f.bytes.length)
    else clampFreezes freezes budget

/-- `len.clamp(1, MAX_VALUE_LEN)`. -/
def clampLen (len : Nat) : Nat := min (max len 1) maxValueLen

/-- Enforce the limits (lengths, counts, byte budgets). -/
def MonitorRequest.clamp (r : MonitorRequest) : MonitorRequest :=
  { r with
    windows := clampWindows r.windows maxViewBytes
    probes := (r.probes.take maxProbes).map fun p ↦ { p with len := clampLen p.len }
    traces := (r.traces.take maxTraces).map fun t ↦ { t with len := clampLen t.len }
    freezes := clampFreezes (r.freezes.take maxFreezes) maxFreezeBytes
    interval := max r.interval 1000 }

/-- Whether a request needs the core thread to do anything at all. -/
def MonitorRequest.isIdle (r : MonitorRequest) : Bool :=
  !r.sampling && r.traces.isEmpty && r.freezes.isEmpty

/-! ## Samples and events -/

/-- One viewer window's bytes in a sample; only the first `validLen` are mapped. -/
structure WindowSample where
  active : Bool := false
  address : Nat := 0
  bytes : Bytes := []
  validLen : Nat := 0
deriving DecidableEq

/-- What the core thread read for a request, at one frame boundary. -/
structure MonitorSample where
  /-- Increases with every sample published; 0 is no sample. -/
  generation : Nat := 0
  frame : Nat := 0
  stateEpoch : Nat := 0
  /-- The request generation it answered. -/
  requestGeneration : Nat := 0
  windows : List WindowSample := List.replicate maxViewWindows {}
  /-- Each probe's bytes, concatenated in request order. -/
  probeValues : Bytes := []
  /-- Start of each probe's bytes in `probeValues`. -/
  probeOffsets : List Nat := []
  /-- Whether each probe could be read. -/
  probeOk : List Bool := []
  /-- Each probe's final address. -/
  probeAddresses : List Nat := []
  /-- Per freeze in request order: frames on which its value had to be restored. -/
  freezeRestores : List Nat := []
  /-- Per freeze in request order: whether its address resolved at the last boundary. -/
  freezeOk : List Bool := []
deriving DecidableEq

/-- The bytes of probe `index`, if it could be read. -/
def MonitorSample.probe (sample : MonitorSample) (index : Nat) : Option Bytes := do
  let ok ← sample.probeOk[index]?
  if !ok then none
  else
    let start ← sample.probeOffsets[index]?
    let stop := sample.probeOffsets[index + 1]?.getD sample.probeValues.length
    if stop < start then none else slice? sample.probeValues start (stop - start)

/-- Why an edit was not applied. -/
inductive WriteFailure where
  | unmapped
  | readOnly
  | pointerInvalid
  | playback
  | badLength
deriving DecidableEq

/-- Something the core thread saw or did. -/
inductive MonitorEvent where
  /-- A traced watch changed.  Values of up to 8 bytes are packed, longer ones are hashes. -/
  | changed (frame id old new : Nat)
  /-- Memory was replaced wholesale. -/
  | discontinuity (frame : Nat)
  /-- A traced watch's condition paused emulation. -/
  | pausedByCondition (frame id : Nat)
  /-- An edit was applied; `old` holds the exact bytes it replaced. -/
  | written (frame editId address : Nat) (old new : Bytes)
  /-- An edit was rejected. -/
  | writeFailed (editId : Nat) (reason : WriteFailure)
deriving DecidableEq

/-- A one-time write requested by the tools. -/
structure MemoryEdit where
  editId : Nat
  path : AddressPath
  data : Bytes
deriving DecidableEq

/-! ## What clamping leaves -/

theorem clampLen_of_le {len : Nat} (hpos : 0 < len) (hle : len ≤ maxValueLen) :
    clampLen len = len := by
  rw [clampLen]
  omega

/-- Freezes whose bytes fit the budget are all kept. -/
theorem clampFreezes_of_le {freezes : List FreezeSpec} {budget : Nat}
    (h : (freezes.map fun f ↦ f.bytes.length).sum ≤ budget) :
    clampFreezes freezes budget = freezes := by
  induction freezes generalizing budget with
  | nil => rfl
  | cons f freezes ih =>
    rw [List.map_cons, List.sum_cons] at h
    rw [clampFreezes, if_pos (by omega), ih (by omega)]

theorem map_clampLen_of_forall {α : Type} {l : List α} {g : α → α} (h : ∀ a ∈ l, g a = a) :
    l.map g = l := by
  rw [List.map_congr_left h, List.map_id']

end SuperShuckie
