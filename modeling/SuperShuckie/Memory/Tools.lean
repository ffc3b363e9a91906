import SuperShuckie.Memory.Watches
import SuperShuckie.Memory.Monitor

/-!
# The RAM tools

`MemoryTools` is the tools' side: the watch list, edits with their undo and redo stacks, freezes, and
the request rebuilt from all of them by `pushRequest` after every change.  An operation answers with
`Except String`; where an id is computed, `none` is the panic of a 32-bit increment.

The change log, the tables, the saving of watch files and the recording's counters are left out.  The
commands to the core thread are kept in `commands`, in the order they were sent.
-/

set_option autoImplicit false

namespace SuperShuckie

open ByteFormat

/-- A row of the search results. -/
structure SearchRow where
  address : Nat
  region : Nat
  /-- The value when last scanned. -/
  previous : Bytes
  /-- The value at the first scan. -/
  first : Bytes
deriving DecidableEq

/-- Who a probe in the monitor request belongs to. -/
inductive ProbeOwner where
  | searchRow (index : Nat)
  | watch (id : Nat)
deriving DecidableEq

/-- Undo steps kept. -/
def maxEditHistory : Nat := 1000

/-- A change to memory or to a freeze that can be undone. -/
inductive EditRecord where
  /-- `epoch` is the state epoch the write was made in. -/
  | write (address : Nat) (old new : Bytes) (epoch : Nat)
  | freeze (watchId : Nat) (before after : Option FreezeState)
deriving DecidableEq

/-- Why an edit was sent. -/
inductive EditOrigin where
  | user
  | undo
  | redo
deriving DecidableEq

/-- What the tools know about a watch between samples. -/
structure WatchRuntime where
  value : Option Bytes := none
  previous : Option Bytes := none
  lastChangeFrame : Option Nat := none
  resolved : Option Nat := none
deriving DecidableEq

/-- `watch_path(watch)`. -/
def watchPath (w : Watch) : AddressPath :=
  (AddressPath.withDerefs w.address.base w.address.offsets).getD (AddressPath.direct w.address.base)

structure MemoryTools where
  shared : MemoryMonitorShared := {}
  attached : Bool := false
  /-- Commands to the core thread: attach the monitor, or detach it. -/
  commands : List Bool := []
  regions : List MemoryRegionInfo := []
  /-- Whether a game is loaded. -/
  game : Bool := false
  refreshHz : Nat := 30
  viewers : List (Option ViewWindow) := List.replicate maxViewWindows none
  sample : MonitorSample := {}
  sampleGeneration : Nat := 0
  playback : Bool := false
  exporting : Bool := false
  searchBusy : Bool := false
  searchVisibleRows : List SearchRow := []
  probeOwners : List ProbeOwner := []
  /-- Request generation from which the current probes' values are in samples. -/
  probesRequestGeneration : Nat := 0
  watches : List Watch := []
  /-- By watch id. -/
  watchRuntime : List (Nat × WatchRuntime) := []
  visibleWatches : List Nat := []
  nextEditId : Nat := 1
  /-- The edits that wait for an answer, oldest first. -/
  pendingEdits : List (Nat × EditOrigin) := []
  /-- The undo stack, its top first. -/
  undoStack : List EditRecord := []
  /-- The redo stack, its top first. -/
  redoStack : List EditRecord := []
  editMessage : Option String := none
  /-- `(watch id, restores, address resolved)` of each active freeze, from the latest sample. -/
  freezeStatus : List (Nat × Nat × Bool) := []
  freezeRequestIds : List Nat := []
deriving DecidableEq

namespace MemoryTools

/-! ## The request -/

/-- The probes the tools want, with their owners. -/
def wantedProbes (t : MemoryTools) : List (Probe × ProbeOwner) :=
  let watches := t.visibleWatches.filterMap fun id ↦
    (t.watches.find? fun w ↦ w.id = id).map fun w ↦
      (⟨watchPath w, w.format.size⟩, .watch w.id)
  let rows := t.searchVisibleRows.mapIdx fun index row ↦
    -- the length is cast to 8 bits
    (⟨AddressPath.direct row.address, row.previous.length % 256⟩, .searchRow index)
  (watches ++ rows).take maxProbes

/-- The trace of a watch. -/
def traceSpec (w : Watch) : TraceSpec :=
  { id := w.id
    path := watchPath w
    len := w.format.size
    decode := ⟨w.format.bigEndian, w.format.ty.isSigned, w.format.ty = .bcd⟩
    pauseWhen := w.pauseWhen.map traceCondition }

/-- The freezes of a list of watches, `count` of them with `bytes` bytes having been taken before. -/
def freezeSpecs : List Watch → Nat → Nat → List FreezeSpec
  | [], _, _ => []
  | w :: watches, count, bytes =>
    match w.activeFreeze with
    | none => freezeSpecs watches count bytes
    | some freeze =>
      if maxFreezes ≤ count ∨ maxFreezeBytes < bytes + freeze.value.length then []
      else
        match FreezeSpec.new w.id (watchPath w) freeze.value with
        | some spec => spec :: freezeSpecs watches (count + 1) (bytes + freeze.value.length)
        | none => freezeSpecs watches count bytes

/-- The request for everything the tools want, from the one there is. -/
def wantedRequest (t : MemoryTools) (r : MonitorRequest) : MonitorRequest :=
  let probes := t.wantedProbes.map (·.1)
  let freezes := freezeSpecs t.watches 0 0
  { r with
    -- freeze restore counts come with samples, so sample while anything is frozen
    sampling := t.viewers.any Option.isSome || !probes.isEmpty || !freezes.isEmpty
    interval := 1000000 / max t.refreshHz 1
    windows := t.viewers
    probes
    traces := ((t.watches.filter (·.isTraced)).take maxTraces).map traceSpec
    freezes
    freezesSuspended := t.playback }

/-- Whether the monitor needs to be attached to the core at all. -/
def needed (t : MemoryTools) (request : MonitorRequest) : Bool :=
  !request.isIdle || t.searchBusy || !t.pendingEdits.isEmpty

/-- Rebuild the request from everything the tools want and attach or detach the monitor. -/
def pushRequest (t : MemoryTools) : MemoryTools :=
  let shared := t.shared.updateRequest t.wantedRequest
  let t := { t with
    shared
    probeOwners := t.wantedProbes.map (·.2)
    freezeRequestIds := (freezeSpecs t.watches 0 0).map (·.id)
    probesRequestGeneration := shared.requestGeneration }
  let needed := t.game && t.needed shared.request
  if needed != t.attached then
    { t with commands := t.commands ++ [needed], attached := needed }
  else t

/-! ## Samples and events -/

/-- `entry(id).or_default()` and a change of it. -/
def updateRuntime (runtimes : List (Nat × WatchRuntime)) (id : Nat)
    (f : WatchRuntime → WatchRuntime) : List (Nat × WatchRuntime) :=
  if runtimes.any (·.1 = id) then runtimes.map fun r ↦ if r.1 = id then (id, f r.2) else r
  else runtimes ++ [(id, f {})]

/-- A watch's runtime after a sample that read `value` for it at `resolved`. -/
def absorbValue (runtime : WatchRuntime) (traced : Bool) (frame : Nat)
    (value : Option Bytes) (resolved : Option Nat) : WatchRuntime :=
  let runtime := { runtime with resolved }
  if value.isSome ∧ runtime.value ≠ value then
    let runtime := if runtime.value.isSome then
        { runtime with
          previous := runtime.value
          lastChangeFrame := if traced then runtime.lastChangeFrame else some frame }
      else runtime
    { runtime with value }
  else runtime

/-- Update watch values from the latest sample. -/
def absorbSample (t : MemoryTools) : MemoryTools :=
  if t.sample.requestGeneration < t.probesRequestGeneration then t
  else
    let freezeStatus := t.freezeRequestIds.mapIdx fun i id ↦
      (id, t.sample.freezeRestores[i]?.getD 0, t.sample.freezeOk[i]?.getD true)
    let watchRuntime := t.probeOwners.zipIdx.foldl
      (fun runtimes (owner, probe) ↦
        match owner with
        | .searchRow _ => runtimes
        | .watch id =>
          let traced := t.watches.any fun w ↦ w.id = id && w.isTraced
          let resolved := if t.sample.probeOk[probe]?.getD false then
              t.sample.probeAddresses[probe]?
            else none
          updateRuntime runtimes id fun r ↦
            absorbValue r traced t.sample.frame (t.sample.probe probe) resolved)
      t.watchRuntime
    { t with freezeStatus, watchRuntime }

/-- Stop waiting for an edit; where it came from.  Older edits that still wait have lost their answers
and are forgotten too. -/
def takePendingEdit (t : MemoryTools) (editId : Nat) : Option EditOrigin × MemoryTools :=
  ((t.pendingEdits.find? fun p ↦ p.1 = editId).map (·.2),
    { t with pendingEdits := t.pendingEdits.filter fun p ↦ editId < p.1 })

/-- Push onto the undo stack, the oldest step making room. -/
def pushUndo (t : MemoryTools) (record : EditRecord) : MemoryTools :=
  let undoStack := record :: t.undoStack
  { t with
    undoStack := if maxEditHistory < undoStack.length then undoStack.dropLast else undoStack }

/-- Why an edit failed, for the message. -/
def failureText : WriteFailure → String
  | .unmapped => "that address is not mapped"
  | .readOnly => "that region is read-only"
  | .pointerInvalid => "a pointer on the way to that address is not mapped"
  | .playback => "memory can't be edited during replay playback"
  | .badLength => "that edit is empty or too long"

/-- Take in the answer to an edit. -/
def absorbWriteEvent (t : MemoryTools) : MonitorEvent → MemoryTools
  | .written _ editId address old new =>
    match t.takePendingEdit editId with
    | (none, t) => t
    | (some origin, t) =>
      match origin with
      | .user =>
        { t.pushUndo (.write address old new t.sample.stateEpoch) with redoStack := [] }
      | .undo => { t with redoStack := .write address new old t.sample.stateEpoch :: t.redoStack }
      | .redo => { t with undoStack := .write address new old t.sample.stateEpoch :: t.undoStack }
  | .writeFailed editId reason =>
    { (t.takePendingEdit editId).2 with
      editMessage := some ("Edit failed: " ++ failureText reason) }
  | _ => t

/-- Take in one of the core thread's events. -/
def absorbEvent (t : MemoryTools) : MonitorEvent → MemoryTools
  | .changed frame id _ _ =>
    if t.watches.any (·.id = id) then
      { t with
        watchRuntime := updateRuntime t.watchRuntime id fun r ↦ { r with lastChangeFrame := some frame } }
    else t
  | .discontinuity _ => t
  | .pausedByCondition _ _ => t
  | event => t.absorbWriteEvent event

/-- Take in the core thread's events. -/
def absorbEvents (t : MemoryTools) : MemoryTools :=
  let (events, _, shared) := t.shared.drainEvents
  events.foldl absorbEvent { t with shared }

/-- What a tick finds: what the core is doing, whether the search worker is still at it, and the rows
on screen if the results changed. -/
structure Tick where
  playingBack : Bool
  exporting : Bool
  searchWorking : Bool := false
  searchRows : Option (List SearchRow) := none
deriving DecidableEq

/-- Take over a new sample, if there is one. -/
def takeSample (t : MemoryTools) : MemoryTools :=
  match t.shared.takeSample t.sampleGeneration t.sample with
  | (some generation, shared, sample) =>
    { t with shared, sample, sampleGeneration := generation }.absorbSample
  | (none, _, _) => t

/-- Called every frontend tick: picks up new samples and events. -/
def tick (t : MemoryTools) (input : Tick) : MemoryTools :=
  let push := input.playingBack != t.playback
  let t := { t with playback := input.playingBack, exporting := input.exporting }
  let t := if t.attached then t.takeSample else t
  let waiting := !t.pendingEdits.isEmpty
  let t' := if t.attached then t.absorbEvents else t
  let push := push || (t.attached && waiting && t'.pendingEdits.isEmpty)
  let done := t'.searchBusy && !input.searchWorking
  let t := { t' with searchBusy := t'.searchBusy && input.searchWorking }
  let t := match input.searchRows with
    | some rows => { t with searchVisibleRows := rows }
    | none => t
  if push || done || input.searchRows.isSome then t.pushRequest else t

/-! ## Editing and freezing -/

/-- Why memory can't be written right now, if it can't. -/
def writeBlocked (t : MemoryTools) : Option String :=
  if !t.game then some "No game is loaded"
  else if t.playback then
    some ("Memory can't be edited or frozen during replay playback; stop playback or resume " ++
      "recording first")
  else if t.exporting then some "Memory can't be edited while a video is exporting"
  else none

/-- The active freeze on exactly `len` bytes at `address`, if any. -/
def freezeAt (t : MemoryTools) (address : WatchAddress) (len : Nat) : Option Nat :=
  (t.watches.find? fun w ↦
    w.address = address ∧ w.format.size = len ∧ w.activeFreeze.isSome).map (·.id)

/-- Change the watch list in place. -/
def watchesChanged (t : MemoryTools) : MemoryTools := t.pushRequest

def sendEdit (t : MemoryTools) (path : AddressPath) (data : Bytes) (origin : EditOrigin) :
    MemoryTools × Except String Unit :=
  match t.writeBlocked with
  | some reason => (t, .error reason)
  | none =>
    if data.isEmpty || maxEditLen < data.length then
      (t, .error s!"Edits are 1 to {maxEditLen} bytes")
    else
      let t' := { t with
        nextEditId := t.nextEditId + 1
        pendingEdits := t.pendingEdits ++ [(t.nextEditId, origin)]
        shared := t.shared.pushEdit ⟨t.nextEditId, path, data⟩ }
      (t'.pushRequest, .ok ())

/-- Why freezing `len` bytes with watch `id` would go over what the core accepts. -/
def freezeLimitError (watches : List Watch) (id len : Nat) : Option String :=
  let others := (watches.filter fun w ↦ w.id ≠ id).filterMap (·.activeFreeze)
  if maxFreezes ≤ others.length then
    some s!"At most {maxFreezes} values can be frozen at once"
  else if maxFreezeBytes < (others.map fun f ↦ f.value.length).sum + len then
    some s!"Frozen values can add up to at most {maxFreezeBytes} bytes"
  else none

/-- Replace the freeze of the first watch with an id. -/
def withFreeze : List Watch → Nat → Option FreezeState → List Watch
  | [], _, _ => []
  | w :: watches, id, freeze =>
    if w.id = id then { w with freeze } :: watches else w :: withFreeze watches id freeze

/-- What `set_freeze` makes of a watch's freeze. -/
def freezeAfter (watches : List Watch) (w : Watch) :
    Option Bytes → Except String (Option FreezeState)
  | some value =>
    if value.length ≠ w.format.size then
      .error s!"The value is {value.length} bytes but the watch is {w.format.size}"
    else
      match freezeLimitError watches w.id value.length with
      | some error => .error error
      | none => .ok (some ⟨value, true⟩)
  | none => .ok (w.freeze.map fun f ↦ { f with active := false })

/-- Freeze watch `id` at `value` (`none`: unfreeze). -/
def setFreeze (t : MemoryTools) (id : Nat) (value : Option Bytes) :
    MemoryTools × Except String Unit :=
  match (if value.isSome then t.writeBlocked else none) with
  | some reason => (t, .error reason)
  | none =>
    match t.watches.find? fun w ↦ w.id = id with
    | none => (t, .error "No such watch")
    | some w =>
      match freezeAfter t.watches w value with
      | .error e => (t, .error e)
      | .ok after =>
        if w.freeze = after then (t, .ok ())
        else
          let t' := { t with watches := withFreeze t.watches id after }
          ({ t'.pushUndo (.freeze id w.freeze after) with redoStack := [] }.watchesChanged, .ok ())

/-- Write `data` at `address`.  Writing exactly over an active freeze changes the frozen value
instead. -/
def write (t : MemoryTools) (address : WatchAddress) (data : Bytes) :
    MemoryTools × Except String Unit :=
  match t.writeBlocked with
  | some reason => (t, .error reason)
  | none =>
    match t.freezeAt address data.length with
    | some id => t.setFreeze id (some data)
    | none =>
      match AddressPath.withDerefs address.base address.offsets with
      | none => (t, .error "Pointer path too deep")
      | some path => t.sendEdit path data .user

/-- Apply an undone or redone record. -/
def applyRecord (t : MemoryTools) (record : EditRecord) (undo : Bool) :
    MemoryTools × Except String Unit :=
  match record with
  | .write address old new epoch =>
    if epoch ≠ t.sample.stateEpoch then
      (t, .error "That edit was made before a state load or reset, so it can't be undone")
    else
      t.sendEdit (AddressPath.direct address) (if undo then old else new) (if undo then .undo else .redo)
  | .freeze watchId before after =>
    match t.watches.find? fun w ↦ w.id = watchId with
    | none => (t, .error "That watch was deleted")
    | some _ =>
      let t' := { t with watches := withFreeze t.watches watchId (if undo then before else after) }
      let t' := if undo then { t' with redoStack := .freeze watchId before after :: t'.redoStack }
        else { t' with undoStack := .freeze watchId before after :: t'.undoStack }
      (t'.watchesChanged, .ok ())

/-- Undo the last edit or freeze change. -/
def undo (t : MemoryTools) : MemoryTools × Except String Unit :=
  match t.writeBlocked with
  | some reason => (t, .error reason)
  | none =>
    match t.undoStack with
    | [] => (t, .error "Nothing to undo")
    | record :: undoStack => { t with undoStack }.applyRecord record true

/-- Redo the last undone edit or freeze change. -/
def redo (t : MemoryTools) : MemoryTools × Except String Unit :=
  match t.writeBlocked with
  | some reason => (t, .error reason)
  | none =>
    match t.redoStack with
    | [] => (t, .error "Nothing to redo")
    | record :: redoStack => { t with redoStack }.applyRecord record false

/-! ## The watch list -/

/-- Replace the watch at an index. -/
def replaceWatch (t : MemoryTools) (index : Nat) (w : Watch) : MemoryTools :=
  let old := t.watches[index]?
  { t with
    watchRuntime := if old.any fun o ↦ o.address ≠ w.address ∨ o.format ≠ w.format then
        t.watchRuntime.filter (·.1 ≠ w.id)
      else t.watchRuntime
    watches := t.watches.set index w }

/-- The index of the watch that `upsert_watch` replaces. -/
def existingWatch (watches : List Watch) (id : Nat) : Option Nat :=
  if id = 0 then none else watches.findIdx? fun w ↦ w.id = id

/-- How many watches other than the one at an index are traced. -/
def tracedBeside (watches : List Watch) (existing : Option Nat) : Nat :=
  (watches.zipIdx.filter fun (w, i) ↦ some i != existing && w.isTraced).length

/-- Why `upsert_watch` refuses a watch. -/
def upsertError (t : MemoryTools) (w : Watch) : Option String :=
  if !t.game then some "No game is loaded"
  else
    match w.validate with
    | .error e => some e
    | .ok () =>
      let existing := existingWatch t.watches w.id
      if w.isTraced && maxTraces ≤ tracedBeside t.watches existing then
        some s!"At most {maxTraces} watches can log changes or pause emulation at once"
      else
        match w.activeFreeze with
        | none => none
        | some freeze =>
          let wasFrozen := (existing.bind fun i ↦ (t.watches[i]?).bind Watch.activeFreeze).isSome
          match (if wasFrozen then none else t.writeBlocked) with
          | some reason => some reason
          | none => freezeLimitError t.watches w.id freeze.value.length

/-- Add a watch (id 0 or unknown) or replace the watch with its id; its id. -/
def upsertWatch (t : MemoryTools) (w : Watch) : Option (MemoryTools × Except String Nat) :=
  match t.upsertError w with
  | some e => some (t, .error e)
  | none =>
    match existingWatch t.watches w.id with
    | some index => some ((t.replaceWatch index w).watchesChanged, .ok w.id)
    | none => do
      let id ← succ32 (maxId t.watches)
      some ({ t with watches := t.watches ++ [{ w with id }] }.watchesChanged, .ok id)

def removeWatch (t : MemoryTools) (id : Nat) : MemoryTools :=
  let watches := t.watches.filter (·.id ≠ id)
  if watches.length ≠ t.watches.length then
    { t with
      watches
      watchRuntime := t.watchRuntime.filter (·.1 ≠ id)
      visibleWatches := t.visibleWatches.filter (· ≠ id) }.watchesChanged
  else t

/-- Upper-case hexadecimal digits of `n`, at least `width` of them. -/
def hexUpper (n width : Nat) : String :=
  let digits := (Nat.toDigits 16 n).map Char.toUpper
  String.ofList (List.replicate (width - digits.length) '0' ++ digits)

/-- Hex digits to show every address of some regions in: at least 4, and a full 8 once past 6. -/
def addressWidth (regions : List MemoryRegionInfo) : Nat :=
  let top := if regions.isEmpty then 0xFFFF
    else (regions.map fun r ↦ r.endAddress - 1).foldl max 0
  let digits := max (if top = 0 then 0 else Nat.log2 top / 4 + 1) 4
  if 6 < digits then 8 else digits

/-- `format_watch_address(address, regions)`. -/
def formatWatchAddress (address : WatchAddress) (regions : List MemoryRegionInfo) : String :=
  let start := String.ofList (List.replicate address.offsets.length '[') ++ "0x" ++
    hexUpper address.base (addressWidth regions)
  address.offsets.foldl
    (fun out offset ↦ out ++ "]" ++
      (if offset = 0 then ""
        else if offset < 0 then "-0x" ++ hexUpper offset.natAbs 1
        else "+0x" ++ hexUpper offset.natAbs 1))
    start

/-- Freeze `value` at `address` with a new watch, or the existing watch for exactly that address and
size; the watch's id. -/
def freezeNew (t : MemoryTools) (address : WatchAddress) (format : ValueFormat) (value : Bytes)
    (group : String) : Option (MemoryTools × Except String Nat) :=
  match t.writeBlocked with
  | some reason => some (t, .error reason)
  | none => do
    let (t, id) ← match t.watches.find? fun w ↦
        w.address = address ∧ w.format.size = format.size with
      | some w => some (t, .ok w.id)
      | none =>
        t.upsertWatch { id := 0, label := formatWatchAddress address t.regions, address, format, group }
    match id with
    | .error e => some (t, .error e)
    | .ok id =>
      let (t, result) := t.setFreeze id (some value)
      some (t, result.map fun _ ↦ id)

/-- The loop of `import_watches`, `nextId` being the next id: the watches, and what is left of the
ids. -/
def addImported : List Watch → Nat → List Watch → Option (List Watch)
  | [], _, watches => some watches
  | w :: imported, nextId, watches => do
    let next ← succ32 nextId
    let w := { w with id := nextId }
    let w := if w.isTraced && maxTraces ≤ (watches.filter (·.isTraced)).length then
        { w with trace := false, pauseWhen := none }
      else w
    addImported imported next (watches ++ [w])

/-- Add the watches of a file, or put them in place of the list; how many there were.  `file` is the
file as read and decoded. -/
def importWatches (t : MemoryTools) (file : Except String WatchFile) (replace : Bool) :
    Option (MemoryTools × Except String Nat) :=
  match file with
  | .error e => some (t, .error e)
  | .ok file => do
    match ← file.parse with
    | .error e => some (t, .error e)
    | .ok (file, _) =>
      let t := if replace then { t with watches := [], watchRuntime := [] } else t
      let nextId ← succ32 (maxId t.watches)
      let watches ← addImported file.watches nextId t.watches
      some ({ t with watches }.watchesChanged, .ok file.watches.length)

/-- Load a game's watch list (none: clear it); `file` is the file as read and decoded. -/
def loadWatches (t : MemoryTools) (file : Option (Except String WatchFile)) : Option MemoryTools :=
  let t := { t with watches := [], watchRuntime := [] }
  match file with
  | none | some (.error _) => some t
  | some (.ok file) => do
    match ← file.parse with
    | .error _ => some t
    | .ok (file, _) => some { t with watches := file.watches }

/-- A new core took over, with the memory layout `regions`.  If the game changed, what belongs to the
old one is dropped, the rows of a search under way (`searching`) among it. -/
def coreSwitched (t : MemoryTools) (regions : List MemoryRegionInfo) (game gameChanged : Bool)
    (searching : Bool) (file : Option (Except String WatchFile)) : Option MemoryTools := do
  let t := { t with regions, game }
  let t ← if gameChanged then
      (t.loadWatches (if game then file else none)).map fun t ↦
        { t with
          undoStack := [], redoStack := []
          searchVisibleRows := if searching then [] else t.searchVisibleRows }
    else some t
  some { t with
    attached := false, pendingEdits := [], shared := t.shared.discardEdits }.pushRequest

end MemoryTools

end SuperShuckie
