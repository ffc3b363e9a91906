import SuperShuckie.Lib.Runs
import SuperShuckie.BookmarkSection

/-!
# Saving the bookmarks of a replay that is played back

The frontend keeps the table of the current replay.  An edit is written into the replay's file a moment
later by a thread of its own, which takes one job after the other; a flush waits for the write that is
under way and writes what is left itself.  `ReplayBookmarks` is the frontend's side, `Writer` the
thread with its two channels, and a step of the machine is one call of the frontend, or the thread
taking or finishing a job.

A flush that waits takes whatever result comes first.  It may be that of a replay that was switched away
from, and then the flush writes while a job of its own is still queued, which goes over the file later
(`kept_of_noOlderJob` and `older_job_wins`).
-/

set_option autoImplicit false

namespace SuperShuckie

open ByteFormat

namespace Frontend

/-! ## The frontend's side -/

abbrev Path := String

/-- How long after the last change a replay's bookmarks are written, in milliseconds. -/
def writeDelay : Nat := 250

/-- A table, and how many edits of its file it comes after, which the program does not keep. -/
@[ext]
structure Version where
  edits : Nat
  table : BookmarkTable
  deriving DecidableEq

/-- What a finished write says of the file. -/
structure WriteOutcome where
  header : Bytes
  upgradedFrom : Option Nat

structure PlaybackTarget where
  replay : String
  path : Path
  header : Bytes
  version : Nat

inductive Target
  | none
  | recording (replay : String)
  | playback (p : PlaybackTarget)

structure WriteJob where
  serial : Nat
  epoch : Nat
  path : Path
  header : Bytes
  table : Version

structure WriteResult where
  serial : Nat
  epoch : Nat
  path : Path
  result : Except String WriteOutcome

/-- The writer thread: what waits for it, what it is at, and what it has sent back. -/
structure Writer where
  jobs : List WriteJob
  running : Option WriteJob
  results : List WriteResult

/-- A thread that was just started. -/
def Writer.spawn : Writer := ⟨[], none, []⟩

/-- The current replay's bookmarks. -/
structure ReplayBookmarks where
  table : Version
  target : Target
  /-- Counts the replay switches; a write's result is tagged with it. -/
  epoch : Nat
  /-- Serial of the latest change, and of the latest change on disk. -/
  editSerial : Nat
  savedSerial : Nat
  /-- When the oldest unsaved change was made, until a write is sent. -/
  dirtySince : Option Nat
  inFlight : Option Nat
  writeError : Option String
  writer : Option Writer
  report : Option String

namespace ReplayBookmarks

def new : ReplayBookmarks := ⟨⟨0, .new⟩, .none, 0, 0, 0, none, none, none, none, none⟩

/-- The file the bookmarks are written into. -/
def path? (b : ReplayBookmarks) : Option Path :=
  match b.target with
  | .playback p => some p.path
  | _ => none

/-- The jobs that are not done yet, in the order in which the thread does them. -/
def pending (b : ReplayBookmarks) : List WriteJob :=
  match b.writer with
  | some w => w.running.toList ++ w.jobs
  | none => []

def results (b : ReplayBookmarks) : List WriteResult :=
  match b.writer with
  | some w => w.results
  | none => []

/-- Another replay, or none: what is under way for the one before is forgotten. -/
def reset (target : Target) (table : Version) (b : ReplayBookmarks) : ReplayBookmarks :=
  { b with
    table, target
    epoch := b.epoch + 1
    inFlight := none
    editSerial := 0
    savedSerial := 0
    dirtySince := none
    writeError := none }

def handleWriteResult (result : WriteResult) (b : ReplayBookmarks) : ReplayBookmarks :=
  -- a write for a replay that was switched away from
  if result.epoch ≠ b.epoch then b
  else
    let b := { b with inFlight := none }
    match b.target with
    | .playback p =>
      if result.path ≠ p.path then b
      else
        match result.result with
        | .ok outcome =>
          { b with
            target := .playback
              { p with
                header := outcome.header
                version :=
                  if outcome.upgradedFrom.isSome then replayVersionBookmarkSection else p.version }
            savedSerial := max b.savedSerial result.serial
            writeError := none }
        | .error e =>
          let message := s!"Bookmarks could not be saved into {p.replay}: {e}"
          { b with
            report := if b.writeError = some message then b.report else some message
            writeError := some message }
    | _ => b

/-- Everything the writer thread has sent back. -/
def collect (b : ReplayBookmarks) : ReplayBookmarks :=
  b.results.foldl (fun b result ↦ b.handleWriteResult result)
    { b with writer := b.writer.map fun w ↦ { w with results := [] } }

/-- Wait for the write that is under way.  `none` is a wait of three seconds with no result. -/
def awaitWrite (b : ReplayBookmarks) : Option ReplayBookmarks :=
  match b.inFlight with
  | none => some b
  | some _ =>
    match b.writer with
    | none => some { b with inFlight := none }
    | some w =>
      match w.results with
      | [] => none
      | result :: results =>
        some ({ b with writer := some { w with results } }.handleWriteResult result)

/-- What is unsaved is on its way. -/
def clean (b : ReplayBookmarks) : ReplayBookmarks := { b with dirtySince := none }

/-- Hand the current table to the thread. -/
def send (p : PlaybackTarget) (writer : Writer) (b : ReplayBookmarks) : ReplayBookmarks :=
  { b.clean with
    writer := some
      { writer with
        jobs := writer.jobs ++ [⟨b.editSerial, b.epoch, p.path, p.header, b.table⟩] }
    inFlight := some b.editSerial }

end ReplayBookmarks

/-! ## The frontend, the thread and the files -/

/-- The frontend, and the tables in the files.  `history` has the tables that each file's replay has
had, one for each edit, and `loaded` is what a player has read of a file it was opened on. -/
structure World where
  ui : ReplayBookmarks
  files : Path → Version
  history : Path → List BookmarkTable
  loaded : Option (Path × Version)

namespace World

/-- The frontend as it starts, with the tables that are in the files. -/
def new (files : Path → BookmarkTable) : World :=
  ⟨.new, fun path ↦ ⟨0, files path⟩, fun path ↦ [files path], none⟩

/-- A write into a file, which is done as a whole or fails. -/
def write (path : Path) (table : Version) (result : Except String WriteOutcome) (w : World) :
    World :=
  match result with
  | .ok _ => { w with files := Function.update w.files path table }
  | .error _ => w

/-- An edit leaves `table`. -/
def edit (table : BookmarkTable) (now : Nat) (w : World) : World :=
  if table = w.ui.table.table then w
  else
    match w.ui.target with
    | .playback p =>
      { w with
        ui :=
          { w.ui with
            table := ⟨(w.history p.path).length, table⟩
            editSerial := w.ui.editSerial + 1
            dirtySince := some (w.ui.dirtySince.getD now) }
        history := Function.update w.history p.path (w.history p.path ++ [table]) }
    | _ => { w with ui := { w.ui with table := { w.ui.table with table } } }

/-- Write any unsaved edits now; `result` is what comes of the write. -/
def flush (result : Except String WriteOutcome) (w : World) : Except String Unit × World :=
  match w.ui.awaitWrite with
  | none => (.error "Saving bookmarks is taking too long.", w)
  | some ui =>
    match ui.target with
    | .playback p =>
      if ui.editSerial ≤ ui.savedSerial then (.ok (), { w with ui })
      else
        (result.map fun _ ↦ (),
          { w.write p.path ui.table result with
            ui := ui.clean.handleWriteResult ⟨ui.editSerial, ui.epoch, p.path, result⟩ })
    | _ => (.ok (), { w with ui })

/-- Collect finished writes and start the next one when a change has settled.  `spawns` says whether a
thread can be started when there is none; with none, the edits are flushed. -/
def pollWrites (now : Nat) (spawns : Bool) (result : Except String WriteOutcome) (w : World) :
    World :=
  let ui := w.ui.collect
  match ui.target with
  | .playback p =>
    if ui.inFlight.isSome ∨ ui.editSerial ≤ ui.savedSerial ∨
        ¬ ui.dirtySince.any (fun since ↦ writeDelay ≤ now - since) then { w with ui }
    else
      match ui.writer <|> (if spawns then some Writer.spawn else none) with
      | some writer => { w with ui := ui.send p writer }
      | none => ({ w with ui := ui.clean }.flush result).2
  | _ => { w with ui }

/-- A replay that was read is played back from now on. -/
def setPlayback (replay : String) (header : Bytes) (version : Nat) (w : World) : World :=
  match w.loaded with
  | some (path, table) =>
    { w with ui := w.ui.reset (.playback ⟨replay, path, header, version⟩) table }
  | none => w

/-- No replay any more. -/
def clear (w : World) : World :=
  match w.ui.target with
  | .none => w
  | _ => { w with ui := w.ui.reset .none ⟨0, .new⟩ }

/-- The writer thread takes the next job. -/
def take (w : World) : World :=
  match w.ui.writer with
  | some ⟨job :: jobs, none, results⟩ =>
    { w with ui := { w.ui with writer := some ⟨jobs, some job, results⟩ } }
  | _ => w

/-- The writer thread has written, and sends the result back. -/
def finish (result : Except String WriteOutcome) (w : World) : World :=
  match w.ui.writer with
  | some ⟨jobs, some job, results⟩ =>
    { w.write job.path job.table result with
      ui :=
        { w.ui with
          writer := some
            ⟨jobs, none, results ++ [⟨job.serial, job.epoch, job.path, result⟩]⟩ } }
  | _ => w

/-- What the frontend and the thread do. -/
inductive Event
  | edit (table : BookmarkTable) (now : Nat)
  | pollWrites (now : Nat) (spawns : Bool) (result : Except String WriteOutcome)
  | flush (result : Except String WriteOutcome)
  /-- A player is opened on a file. -/
  | read (path : Path)
  | setPlayback (replay : String) (header : Bytes) (version : Nat)
  | setRecording (replay : String) (table : BookmarkTable)
  | clear
  | take
  | finish (result : Except String WriteOutcome)

def step : Event → World → World
  | .edit table now, w => w.edit table now
  | .pollWrites now spawns result, w => w.pollWrites now spawns result
  | .flush result, w => (w.flush result).2
  | .read path, w => { w with loaded := some (path, w.files path) }
  | .setPlayback replay header version, w => w.setPlayback replay header version
  | .setRecording replay table, w => { w with ui := w.ui.reset (.recording replay) ⟨0, table⟩ }
  | .clear, w => w.clear
  | .take, w => w.take
  | .finish result, w => w.finish result

/-! ## What is never written over -/

/-- The table in a file, and then those that the thread is going to write into it. -/
def line (w : World) (path : Path) : List Version :=
  w.files path :: (w.ui.pending.filter (·.path = path)).map (·.table)

/-- The version is one that the file's replay has had. -/
def Known (w : World) (path : Path) (v : Version) : Prop :=
  (w.history path)[v.edits]? = some v.table

/-- A write of the current replay: when it succeeded, and was of the latest edit, then what it has left
in the file is not older. -/
def Done (w : World) (r : WriteResult) : Prop :=
  r.serial ≤ w.ui.editSerial ∧ ∀ outcome, r.result = .ok outcome →
    r.serial = w.ui.editSerial → w.ui.table.edits ≤ (w.files r.path).edits

/-- **What every step keeps**, as long as no flush writes over a job of an earlier edit. -/
structure Inv (w : World) : Prop where
  /-- No job is of an earlier edit than the table it is going to replace. -/
  sorted : ∀ path, (w.line path).Pairwise (·.edits ≤ ·.edits)
  known : ∀ path, ∀ v ∈ w.line path, w.Known path v
  loaded : ∀ path v, w.loaded = some (path, v) → w.Known path v ∧ v.edits ≤ (w.files path).edits
  /-- A job of the current replay, with the latest edit, has the current table. -/
  jobs : ∀ job ∈ w.ui.pending, job.epoch ≤ w.ui.epoch ∧ (job.epoch = w.ui.epoch →
    w.ui.path? = some job.path ∧ job.serial ≤ w.ui.editSerial ∧
      (job.serial = w.ui.editSerial → job.table = w.ui.table))
  results : ∀ r ∈ w.ui.results, r.epoch ≤ w.ui.epoch ∧ (r.epoch = w.ui.epoch → w.Done r)
  current : ∀ path, w.ui.path? = some path →
    w.Known path w.ui.table ∧ w.ui.savedSerial ≤ w.ui.editSerial ∧
      (0 < w.ui.editSerial → w.ui.table.edits + 1 = (w.history path).length) ∧
      (w.ui.savedSerial = w.ui.editSerial → w.ui.table.edits ≤ (w.files path).edits)

variable {w : World} {result : Except String WriteOutcome}

theorem Inv.withWriter {writer : Option Writer} (h : w.Inv)
    (hpending : ({ w.ui with writer } : ReplayBookmarks).pending.Sublist w.ui.pending)
    (hresults : ∀ r ∈ ({ w.ui with writer } : ReplayBookmarks).results,
      r.epoch ≤ w.ui.epoch ∧ (r.epoch = w.ui.epoch → w.Done r)) :
    Inv { w with ui := { w.ui with writer } } := by
  have hline : ∀ path,
      (line { w with ui := { w.ui with writer } } path).Sublist (w.line path) :=
    fun path ↦ ((hpending.filter _).map _).cons_cons _
  exact
    { sorted := fun path ↦ (h.sorted path).sublist (hline path)
      known := fun path v hv ↦ h.known path v ((hline path).subset hv)
      loaded := h.loaded
      jobs := fun job hjob ↦ h.jobs job (hpending.subset hjob)
      results := hresults
      current := h.current }

/-- What handling a result may change. -/
theorem handleWriteResult_eq (b : ReplayBookmarks) (r : WriteResult) :
    (b.handleWriteResult r).table = b.table ∧ (b.handleWriteResult r).epoch = b.epoch ∧
      (b.handleWriteResult r).editSerial = b.editSerial ∧
      (b.handleWriteResult r).writer = b.writer ∧ (b.handleWriteResult r).path? = b.path? ∧
      ((b.handleWriteResult r).savedSerial = b.savedSerial ∨
        r.epoch = b.epoch ∧ b.path? = some r.path ∧ (∃ outcome, r.result = .ok outcome) ∧
          (b.handleWriteResult r).savedSerial = max b.savedSerial r.serial) := by
  rw [ReplayBookmarks.handleWriteResult]
  split_ifs with hepoch
  · exact ⟨rfl, rfl, rfl, rfl, rfl, .inl rfl⟩
  · obtain ⟨table, target, epoch, edit, saved, dirty, flight, error, writer, report⟩ := b
    cases target with
    | none => exact ⟨rfl, rfl, rfl, rfl, rfl, .inl rfl⟩
    | recording replay => exact ⟨rfl, rfl, rfl, rfl, rfl, .inl rfl⟩
    | playback p =>
      dsimp only
      split_ifs with hpath
      · exact ⟨rfl, rfl, rfl, rfl, rfl, .inl rfl⟩
      · obtain ⟨serial, epoch', path, result⟩ := r
        cases result with
        | error e => exact ⟨rfl, rfl, rfl, rfl, rfl, .inl rfl⟩
        | ok outcome =>
          refine ⟨rfl, rfl, rfl, rfl, rfl, .inr ⟨not_not.mp hepoch, ?_, ⟨outcome, rfl⟩, rfl⟩⟩
          exact congrArg some (not_not.mp hpath).symm

theorem Inv.handleWriteResult {r : WriteResult} (h : w.Inv) (hr : r.epoch = w.ui.epoch → w.Done r) :
    Inv { w with ui := w.ui.handleWriteResult r } := by
  obtain ⟨htable, hepoch, hedit, hwriter, hpath, hsaved⟩ := handleWriteResult_eq w.ui r
  have hpending : (w.ui.handleWriteResult r).pending = w.ui.pending := by
    rw [ReplayBookmarks.pending, hwriter]
    rfl
  have hresults : (w.ui.handleWriteResult r).results = w.ui.results := by
    rw [ReplayBookmarks.results, hwriter]
    rfl
  have hline : ∀ path, line { w with ui := w.ui.handleWriteResult r } path = w.line path := by
    intro path
    rw [line, line]
    dsimp only
    rw [hpending]
  constructor
  · intro path
    rw [hline]
    exact h.sorted path
  · intro path v hv
    rw [hline] at hv
    exact h.known path v hv
  · exact h.loaded
  · intro job hjob
    dsimp only at hjob ⊢
    rw [hpending] at hjob
    rw [htable, hepoch, hedit, hpath]
    exact h.jobs job hjob
  · intro r' hr'
    dsimp only at hr'
    rw [hresults] at hr'
    unfold Done
    dsimp only
    rw [htable, hepoch, hedit]
    exact h.results r' hr'
  · intro path hcurrent
    dsimp only at hcurrent ⊢
    rw [hpath] at hcurrent
    obtain ⟨hknown, hle, hlast, hsame⟩ := h.current path hcurrent
    rw [htable, hedit]
    refine ⟨hknown, ?_⟩
    obtain hsaved | ⟨hnow, hthis, ⟨outcome, hok⟩, hsaved⟩ := hsaved
    · rw [hsaved]
      exact ⟨hle, hlast, hsame⟩
    · obtain ⟨hserial, hdone⟩ := hr hnow
      obtain rfl : path = r.path := Option.some.inj (hcurrent.symm.trans hthis)
      rw [hsaved]
      refine ⟨max_le hle hserial, hlast, fun hmax ↦ ?_⟩
      by_cases heq : r.serial = w.ui.editSerial
      · exact hdone outcome hok heq
      · exact hsame (by omega)

theorem Inv.handleWriteResults {results : List WriteResult} (h : w.Inv)
    (hr : ∀ r ∈ results, r.epoch = w.ui.epoch → w.Done r) :
    Inv { w with ui := results.foldl (fun b r ↦ b.handleWriteResult r) w.ui } := by
  induction results generalizing w with
  | nil => exact h
  | cons r results ih =>
    refine ih (h.handleWriteResult (hr r List.mem_cons_self)) fun r' hr' hepoch ↦ ?_
    obtain ⟨htable, hepoch', hedit, -⟩ := handleWriteResult_eq w.ui r
    dsimp only at hepoch
    rw [hepoch'] at hepoch
    unfold Done
    dsimp only
    rw [htable, hedit]
    exact hr r' (List.mem_cons_of_mem _ hr') hepoch

theorem Inv.collect (h : w.Inv) : Inv { w with ui := w.ui.collect } := by
  have hpending : ∀ writer : Option Writer, writer = w.ui.writer →
      ({ w.ui with writer := writer.map fun w ↦ { w with results := [] } } :
        ReplayBookmarks).pending = w.ui.pending ∧
      ({ w.ui with writer := writer.map fun w ↦ { w with results := [] } } :
        ReplayBookmarks).results = [] := by
    intro writer hwriter
    unfold ReplayBookmarks.pending ReplayBookmarks.results
    rw [← hwriter]
    cases writer <;> exact ⟨rfl, rfl⟩
  obtain ⟨hsame, hnone⟩ := hpending w.ui.writer rfl
  have hempty : Inv
      { w with
        ui := { w.ui with writer := w.ui.writer.map fun w ↦ { w with results := [] } } } := by
    refine h.withWriter (hsame ▸ List.Sublist.refl _) fun r hr ↦ ?_
    rw [hnone] at hr
    exact absurd hr List.not_mem_nil
  exact hempty.handleWriteResults fun r hr ↦ (h.results r hr).2

/-- Waiting for the write that is under way leaves the jobs as they are. -/
theorem Inv.awaitWrite {ui : ReplayBookmarks} (h : w.Inv) (hui : w.ui.awaitWrite = some ui) :
    Inv { w with ui } ∧ ui.pending = w.ui.pending ∧ ui.table = w.ui.table ∧
      ui.path? = w.ui.path? ∧ (w.ui.inFlight = none ∨ w.ui.results ≠ [] ∨ ui.pending = []) := by
  rw [ReplayBookmarks.awaitWrite] at hui
  split at hui
  · next hflight =>
    cases hui
    exact ⟨h, rfl, rfl, rfl, .inl hflight⟩
  · split at hui
    · next hwriter =>
      cases hui
      refine ⟨⟨h.sorted, h.known, h.loaded, h.jobs, h.results, h.current⟩, rfl, rfl, rfl,
        .inr (.inr ?_)⟩
      rw [ReplayBookmarks.pending]
      dsimp only
      rw [hwriter]
    · next writer hwriter =>
      split at hui
      · cases hui
      · next r results hresults =>
        cases hui
        have hall : w.ui.results = r :: results := by
          rw [ReplayBookmarks.results, hwriter]
          exact hresults
        have hpending : ({ w.ui with writer := some { writer with results } } :
            ReplayBookmarks).pending = w.ui.pending := by
          unfold ReplayBookmarks.pending
          rw [hwriter]
        have hrest : Inv
            { w with ui := { w.ui with writer := some { writer with results } } } := by
          refine h.withWriter (hpending ▸ List.Sublist.refl _) fun r' hr' ↦ h.results r' ?_
          rw [hall]
          exact List.mem_cons_of_mem _ hr'
        obtain ⟨htable, -, -, hwriter', hpath, -⟩ := handleWriteResult_eq
          { w.ui with writer := some { writer with results } } r
        refine ⟨hrest.handleWriteResult (h.results r (hall ▸ List.mem_cons_self)).2, ?_, htable,
          hpath, .inr (.inl (hall ▸ List.cons_ne_nil _ _))⟩
        rw [← hpending, ReplayBookmarks.pending, hwriter']
        rfl

/-- No file's table is of an earlier edit than it was. -/
def Grows (w w' : World) : Prop := ∀ path, (w.files path).edits ≤ (w'.files path).edits

/-- A write of a table that no job is older than, nor newer than the one in the file. -/
theorem Inv.write {path : Path} {v : Version} (h : w.Inv) (hknown : w.Known path v)
    (hfile : (w.files path).edits ≤ v.edits)
    (hjobs : ∀ job ∈ w.ui.pending, job.path = path → v.edits ≤ job.table.edits) :
    (w.write path v result).Inv ∧ w.Grows (w.write path v result) := by
  cases result with
  | error e => exact ⟨h, fun _ ↦ le_rfl⟩
  | ok outcome =>
    have hgrows : ∀ path', (w.files path').edits ≤
        (Function.update w.files path v path').edits := by
      intro path'
      by_cases hpath : path' = path
      · rw [hpath, Function.update_self]
        exact hfile
      · rw [Function.update_of_ne hpath]
    refine ⟨?_, hgrows⟩
    constructor
    · intro path'
      by_cases hpath : path' = path
      · subst hpath
        show (Function.update w.files path' v path' :: _).Pairwise _
        rw [Function.update_self, List.pairwise_cons]
        refine ⟨?_, ((List.pairwise_cons.mp (h.sorted path')).2)⟩
        simp only [List.mem_map, List.mem_filter, decide_eq_true_eq]
        rintro v' ⟨job, ⟨hjob, hpath⟩, rfl⟩
        exact hjobs job hjob hpath
      · show (Function.update w.files path v path' :: _).Pairwise _
        rw [Function.update_of_ne hpath]
        exact h.sorted path'
    · intro path' v' hv'
      change v' ∈ Function.update w.files path v path' :: _ at hv'
      obtain hv' | hv' := List.mem_cons.mp hv'
      · by_cases hpath : path' = path
        · rw [hpath, Function.update_self] at hv'
          rw [hv', hpath]
          exact hknown
        · rw [Function.update_of_ne hpath] at hv'
          rw [hv']
          exact h.known path' _ List.mem_cons_self
      · exact h.known path' v' (List.mem_cons_of_mem _ hv')
    · intro path' v' hv'
      exact ⟨(h.loaded path' v' hv').1, (h.loaded path' v' hv').2.trans (hgrows path')⟩
    · exact h.jobs
    · intro r hr
      refine ⟨(h.results r hr).1, fun hepoch ↦ ?_⟩
      obtain ⟨hle, hdone⟩ := (h.results r hr).2 hepoch
      exact ⟨hle, fun outcome hok heq ↦ (hdone outcome hok heq).trans (hgrows r.path)⟩
    · intro path' hcurrent
      obtain ⟨hknown', hle, hlast, hsame⟩ := h.current path' hcurrent
      exact ⟨hknown', hle, hlast, fun heq ↦ (hsame heq).trans (hgrows path')⟩

/-- The table in a file is of no later edit than the latest. -/
theorem Inv.files_le {path : Path} (h : w.Inv) (hpath : w.ui.path? = some path)
    (hedit : 0 < w.ui.editSerial) : ∀ v ∈ w.line path, v.edits ≤ w.ui.table.edits := by
  intro v hv
  have hlast := (h.current path hpath).2.2.1 hedit
  have hlt := (List.getElem?_eq_some_iff.mp (h.known path v hv)).1
  omega

/-- The jobs for the replay's file that a flush finds when it does not give up. -/
def NoOlderJob : Event → World → Prop
  | .flush _, w => w.ui.inFlight = none ∨ w.ui.results ≠ [] →
      ∀ job ∈ w.ui.pending, w.ui.path? = some job.path → w.ui.table.edits ≤ job.table.edits
  | _, _ => True

theorem path?_eq_some {b : ReplayBookmarks} {path : Path} :
    b.path? = some path ↔ ∃ p, b.target = .playback p ∧ p.path = path := by
  rw [ReplayBookmarks.path?]
  cases b.target <;> simp

theorem Inv.flush {w : World} {result : Except String WriteOutcome} (h : w.Inv)
    (hjobs : NoOlderJob (.flush result) w) : (w.flush result).2.Inv ∧ w.Grows (w.flush result).2 ∧
      ((w.flush result).1 = .ok () → ∀ path, w.ui.path? = some path →
        w.ui.table.edits ≤ ((w.flush result).2.files path).edits) := by
  rw [World.flush]
  cases hui : w.ui.awaitWrite with
  | none => exact ⟨h, fun _ ↦ le_rfl, fun hok ↦ nomatch hok⟩
  | some ui =>
    obtain ⟨hwait, hpending, htable, hpath, hwhen⟩ := h.awaitWrite hui
    dsimp only
    cases htarget : ui.target with
    | none =>
      refine ⟨hwait, fun _ ↦ le_rfl, fun _ path hcurrent ↦ ?_⟩
      rw [← hpath, ReplayBookmarks.path?, htarget] at hcurrent
      cases hcurrent
    | recording replay =>
      refine ⟨hwait, fun _ ↦ le_rfl, fun _ path hcurrent ↦ ?_⟩
      rw [← hpath, ReplayBookmarks.path?, htarget] at hcurrent
      cases hcurrent
    | playback p =>
      dsimp only
      split_ifs with hsaved
      · refine ⟨hwait, fun _ ↦ le_rfl, fun _ path hcurrent ↦ ?_⟩
        rw [← hpath] at hcurrent
        obtain ⟨-, hle, -, hsame⟩ := hwait.current path hcurrent
        rw [← htable]
        exact hsame (le_antisymm hle hsaved)
      · have hcurrent : ui.path? = some p.path := path?_eq_some.mpr ⟨p, htarget, rfl⟩
        have hedit : 0 < ui.editSerial := by omega
        obtain ⟨hwritten, hgrows⟩ :
            Inv (World.write p.path ui.table result { w with ui }) ∧
              World.Grows { w with ui } (World.write p.path ui.table result { w with ui }) := by
          refine hwait.write (hwait.current p.path hcurrent).1
            (hwait.files_le hcurrent hedit _ List.mem_cons_self) fun job hjob hof ↦ ?_
          dsimp only at hjob
          rw [hpending] at hjob
          rw [htable]
          rw [hpath, ← hof] at hcurrent
          obtain hwhen | hwhen | hwhen := hwhen
          · exact hjobs (.inl hwhen) job hjob hcurrent
          · exact hjobs (.inr hwhen) job hjob hcurrent
          · rw [← hpending, hwhen] at hjob
            exact absurd hjob List.not_mem_nil
        have hclean : Inv { w.write p.path ui.table result with ui := ui.clean } := by
          cases result <;> exact ⟨hwritten.sorted, hwritten.known, hwritten.loaded, hwritten.jobs,
            hwritten.results, hwritten.current⟩
        have hnow : ∀ outcome, result = .ok outcome →
            ui.table.edits ≤ ((w.write p.path ui.table result).files p.path).edits := by
          rintro outcome rfl
          show ui.table.edits ≤ (Function.update w.files p.path ui.table p.path).edits
          rw [Function.update_self]
        refine ⟨hclean.handleWriteResult fun _ ↦
          ⟨le_refl ui.editSerial, fun outcome hok _ ↦ hnow outcome hok⟩, ?_, fun hok path hof ↦ ?_⟩
        · cases result <;> exact hgrows
        · rw [← hpath, hcurrent] at hof
          cases hof
          rw [← htable]
          cases result with
          | ok outcome => exact hnow outcome rfl
          | error e => cases hok

/-- The current table is the last of those that are going to be written. -/
theorem Inv.send {p : PlaybackTarget} {writer : Writer} (h : w.Inv)
    (hcurrent : w.ui.path? = some p.path) (hedit : 0 < w.ui.editSerial)
    (hpending : writer.running.toList ++ writer.jobs = w.ui.pending)
    (hresults : writer.results = w.ui.results) : Inv { w with ui := w.ui.send p writer } := by
  have hqueued : (w.ui.send p writer).pending = w.ui.pending ++
      [⟨w.ui.editSerial, w.ui.epoch, p.path, p.header, w.ui.table⟩] := by
    rw [← hpending, List.append_assoc]
    rfl
  have hline : ∀ path, line { w with ui := w.ui.send p writer } path =
      w.line path ++ (if p.path = path then [w.ui.table] else []) := by
    intro path
    rw [line, line]
    dsimp only
    rw [hqueued, List.filter_append, List.map_append, List.cons_append]
    by_cases hpath : p.path = path <;> simp [hpath]
  constructor
  · intro path
    rw [hline]
    by_cases hpath : p.path = path
    · subst hpath
      rw [if_pos rfl, List.pairwise_append]
      refine ⟨h.sorted _, List.pairwise_singleton _ _, fun v hv v' hv' ↦ ?_⟩
      rw [List.mem_singleton.mp hv']
      exact h.files_le hcurrent hedit v hv
    · rw [if_neg hpath, List.append_nil]
      exact h.sorted path
  · intro path v hv
    rw [hline, List.mem_append] at hv
    obtain hv | hv := hv
    · exact h.known path v hv
    · by_cases hpath : p.path = path
      · subst hpath
        rw [if_pos rfl, List.mem_singleton] at hv
        rw [hv]
        exact (h.current _ hcurrent).1
      · rw [if_neg hpath] at hv
        exact absurd hv List.not_mem_nil
  · exact h.loaded
  · intro job hjob
    dsimp only at hjob
    rw [hqueued, List.mem_append, List.mem_singleton] at hjob
    obtain hjob | rfl := hjob
    · exact h.jobs job hjob
    · exact ⟨le_rfl, fun _ ↦ ⟨hcurrent, le_rfl, fun _ ↦ rfl⟩⟩
  · intro r hr
    exact h.results r (hresults ▸ hr)
  · exact h.current

theorem Inv.pollWrites {now : Nat} {spawns : Bool} (h : w.Inv) :
    (w.pollWrites now spawns result).Inv ∧ w.Grows (w.pollWrites now spawns result) := by
  rw [World.pollWrites]
  have hcollect := h.collect
  generalize w.ui.collect = ui at hcollect ⊢
  cases htarget : ui.target with
  | none => exact ⟨hcollect, fun _ ↦ le_rfl⟩
  | recording replay => exact ⟨hcollect, fun _ ↦ le_rfl⟩
  | playback p =>
    dsimp only
    by_cases hwait : ui.inFlight.isSome ∨ ui.editSerial ≤ ui.savedSerial ∨
        ¬ ui.dirtySince.any (fun since ↦ writeDelay ≤ now - since)
    · rw [if_pos hwait]
      exact ⟨hcollect, fun _ ↦ le_rfl⟩
    · rw [if_neg hwait]
      simp only [not_or, not_le] at hwait
      have hedit : 0 < ui.editSerial := by omega
      have hcurrent : ui.path? = some p.path := path?_eq_some.mpr ⟨p, htarget, rfl⟩
      cases hwriter : ui.writer with
      | some writer =>
        refine ⟨hcollect.send hcurrent hedit ?_ ?_, fun _ ↦ le_rfl⟩
        · rw [ReplayBookmarks.pending, hwriter]
        · rw [ReplayBookmarks.results, hwriter]
      | none =>
        cases spawns with
        | true =>
          refine ⟨hcollect.send hcurrent hedit ?_ ?_, fun _ ↦ le_rfl⟩
          · rw [ReplayBookmarks.pending, hwriter]
            rfl
          · rw [ReplayBookmarks.results, hwriter]
            rfl
        | false =>
          have hflush := @Inv.flush { w with ui := ui.clean } result
            ⟨hcollect.sorted, hcollect.known, hcollect.loaded, hcollect.jobs, hcollect.results,
              hcollect.current⟩ fun _ job hjob ↦ by
                change job ∈ ui.pending at hjob
                rw [ReplayBookmarks.pending, hwriter] at hjob
                exact absurd hjob List.not_mem_nil
          exact ⟨hflush.1, hflush.2.1⟩

theorem Inv.take (h : w.Inv) : w.take.Inv := by
  rw [World.take]
  split
  · next job jobs results hwriter =>
    refine h.withWriter ?_ fun r hr ↦ h.results r ?_
    · rw [ReplayBookmarks.pending, ReplayBookmarks.pending, hwriter]
      exact List.Sublist.refl _
    · rw [ReplayBookmarks.results, hwriter]
      exact hr
  · exact h

theorem Inv.finish (h : w.Inv) : (w.finish result).Inv ∧ w.Grows (w.finish result) := by
  rw [World.finish]
  split
  · next jobs job results hwriter =>
    have hpending : w.ui.pending = job :: jobs := by
      rw [ReplayBookmarks.pending, hwriter]
      rfl
    have hline : w.line job.path = w.files job.path :: job.table ::
        (jobs.filter (·.path = job.path)).map (·.table) := by
      rw [line, hpending, List.filter_cons_of_pos (by simp), List.map_cons]
    have hsorted := h.sorted job.path
    have hknown := h.known job.path job.table
    rw [hline] at hsorted hknown
    obtain ⟨hfile, hsorted⟩ := List.pairwise_cons.mp hsorted
    obtain ⟨hwritten, hgrows⟩ : (w.write job.path job.table result).Inv ∧
        w.Grows (w.write job.path job.table result) := by
      refine h.write (hknown (by simp)) (hfile _ List.mem_cons_self) fun job' hjob' hof ↦ ?_
      rw [hpending, List.mem_cons] at hjob'
      obtain rfl | hjob' := hjob'
      · exact le_rfl
      · exact (List.pairwise_cons.mp hsorted).1 _ (List.mem_map.mpr
          ⟨job', List.mem_filter.mpr ⟨hjob', decide_eq_true hof⟩, rfl⟩)
    have hui : (w.write job.path job.table result).ui = w.ui := by
      cases result <;> rfl
    refine ⟨?_, hgrows⟩
    rw [← hui]
    refine hwritten.withWriter ?_ fun r hr ↦ ?_
    · rw [hui, hpending]
      exact List.sublist_cons_self _ _
    · change r ∈ results ++ [_] at hr
      obtain hr | hr := List.mem_append.mp hr
      · refine hwritten.results r ?_
        rw [hui, ReplayBookmarks.results, hwriter]
        exact hr
      · obtain rfl := List.mem_singleton.mp hr
        obtain ⟨hle, hnow⟩ := h.jobs job (hpending ▸ List.mem_cons_self)
        rw [hui]
        refine ⟨hle, fun hepoch ↦ ?_⟩
        obtain ⟨-, hserial, hsame⟩ := hnow hepoch
        unfold Done
        rw [hui]
        refine ⟨hserial, fun outcome hok heq ↦ ?_⟩
        change result = .ok outcome at hok
        subst hok
        show w.ui.table.edits ≤ (Function.update w.files job.path job.table job.path).edits
        rw [Function.update_self, hsame heq]
  · exact ⟨h, fun _ ↦ le_rfl⟩

theorem Inv.edit {table : BookmarkTable} {now : Nat} (h : w.Inv) : (w.edit table now).Inv := by
  rw [World.edit]
  split_ifs with hsame
  · exact h
  · split
    · next p htarget =>
      have hcurrent : w.ui.path? = some p.path := path?_eq_some.mpr ⟨p, htarget, rfl⟩
      have hknown : ∀ path v, w.Known path v → (Function.update w.history p.path
          (w.history p.path ++ [table]) path)[v.edits]? = some v.table := by
        intro path v hv
        by_cases hpath : path = p.path
        · subst hpath
          rw [Function.update_self, List.getElem?_append_left
            (List.getElem?_eq_some_iff.mp hv).1]
          exact hv
        · rw [Function.update_of_ne hpath]
          exact hv
      constructor
      · exact h.sorted
      · exact fun path v hv ↦ hknown path v (h.known path v hv)
      · exact fun path v hv ↦ ⟨hknown path v (h.loaded path v hv).1, (h.loaded path v hv).2⟩
      · intro job hjob
        refine ⟨(h.jobs job hjob).1, fun hepoch ↦ ?_⟩
        obtain ⟨hpath, hle, -⟩ := (h.jobs job hjob).2 hepoch
        exact ⟨hpath, Nat.le_succ_of_le hle, fun heq ↦ absurd hle (by rw [heq]; simp)⟩
      · intro r hr
        refine ⟨(h.results r hr).1, fun hepoch ↦ ?_⟩
        obtain ⟨hle, -⟩ := (h.results r hr).2 hepoch
        exact ⟨Nat.le_succ_of_le hle, fun _ _ heq ↦ absurd hle (by rw [heq]; simp)⟩
      · intro path hpath
        obtain rfl : p.path = path := Option.some.inj (hcurrent.symm.trans hpath)
        obtain ⟨-, hle, -, -⟩ := h.current p.path hcurrent
        refine ⟨?_, Nat.le_succ_of_le hle, fun _ ↦ ?_, fun heq ↦ ?_⟩
        · show (Function.update w.history p.path (w.history p.path ++ [table]) p.path)[
            (w.history p.path).length]? = some table
          rw [Function.update_self, List.getElem?_concat_length]
        · show (w.history p.path).length + 1 =
            (Function.update w.history p.path (w.history p.path ++ [table]) p.path).length
          rw [Function.update_self, List.length_append, List.length_singleton]
        · change w.ui.savedSerial = w.ui.editSerial + 1 at heq
          omega
    · next hother =>
      have hnone : w.ui.path? = none := by
        rw [ReplayBookmarks.path?]
        split
        · next p htarget => exact absurd htarget (hother p)
        · rfl
      constructor
      · exact h.sorted
      · exact h.known
      · exact h.loaded
      · intro job hjob
        refine ⟨(h.jobs job hjob).1, fun hepoch ↦ ?_⟩
        have hpath := ((h.jobs job hjob).2 hepoch).1
        rw [hnone] at hpath
        cases hpath
      · exact h.results
      · intro path hpath
        change w.ui.path? = some path at hpath
        rw [hnone] at hpath
        cases hpath

/-- After a switch, nothing that is under way is of the current replay. -/
theorem Inv.reset {target : Target} {table : Version} (h : w.Inv)
    (htable : ∀ path, (w.ui.reset target table).path? = some path →
      w.Known path table ∧ table.edits ≤ (w.files path).edits) :
    Inv { w with ui := w.ui.reset target table } := by
  constructor
  · exact h.sorted
  · exact h.known
  · exact h.loaded
  · intro job hjob
    have hle := (h.jobs job hjob).1
    exact ⟨Nat.le_succ_of_le hle, fun hepoch ↦ absurd hle (by rw [hepoch]; simp [ReplayBookmarks.reset])⟩
  · intro r hr
    have hle := (h.results r hr).1
    exact ⟨Nat.le_succ_of_le hle, fun hepoch ↦ absurd hle (by rw [hepoch]; simp [ReplayBookmarks.reset])⟩
  · intro path hpath
    obtain ⟨hknown, hle⟩ := htable path hpath
    exact ⟨hknown, le_rfl, fun hedit ↦ absurd hedit (lt_irrefl 0), fun _ ↦ hle⟩

theorem Inv.step_inv {event : Event} (h : w.Inv) (hjobs : NoOlderJob event w) :
    (step event w).Inv ∧ w.Grows (step event w) := by
  cases event with
  | edit table now =>
    refine ⟨h.edit, fun path ↦ le_of_eq ?_⟩
    show (w.files path).edits = ((w.edit table now).files path).edits
    rw [World.edit]
    split_ifs
    · rfl
    · split <;> rfl
  | pollWrites now spawns result => exact h.pollWrites
  | flush result => exact ⟨(h.flush hjobs).1, (h.flush hjobs).2.1⟩
  | read path =>
    refine ⟨⟨h.sorted, h.known, ?_, h.jobs, h.results, h.current⟩, fun _ ↦ le_rfl⟩
    rintro path' v hv
    cases hv
    exact ⟨h.known path _ List.mem_cons_self, le_rfl⟩
  | setPlayback replay header version =>
    show (w.setPlayback replay header version).Inv ∧ w.Grows (w.setPlayback replay header version)
    rw [World.setPlayback]
    split
    · next path table hloaded =>
      refine ⟨h.reset fun path' hpath ↦ ?_, fun _ ↦ le_rfl⟩
      cases hpath
      exact h.loaded path table hloaded
    · exact ⟨h, fun _ ↦ le_rfl⟩
  | setRecording replay table => exact ⟨h.reset (fun _ hpath ↦ nomatch hpath), fun _ ↦ le_rfl⟩
  | clear =>
    show w.clear.Inv ∧ w.Grows w.clear
    rw [World.clear]
    split
    · exact ⟨h, fun _ ↦ le_rfl⟩
    · exact ⟨h.reset (fun _ hpath ↦ nomatch hpath), fun _ ↦ le_rfl⟩
  | take =>
    refine ⟨h.take, fun path ↦ le_of_eq ?_⟩
    show (w.files path).edits = (w.take.files path).edits
    rw [World.take]
    split <;> rfl
  | finish result => exact h.finish

theorem inv_new (files : Path → BookmarkTable) : (new files).Inv where
  sorted _ := List.pairwise_singleton _ _
  known path v hv := by
    rw [List.mem_singleton.mp hv]
    rfl
  loaded path v hv := nomatch hv
  jobs job hjob := absurd hjob List.not_mem_nil
  results r hr := absurd hr List.not_mem_nil
  current path hpath := nomatch hpath

theorem Inv.run {w : World} {events : List Event} (h : w.Inv)
    (hjobs : Runs.Along step NoOlderJob events w) :
    (Runs.run step events w).Inv ∧ w.Grows (Runs.run step events w) :=
  Runs.run_along (Q := fun w' ↦ w'.Inv ∧ w.Grows w')
    (fun _ _ ⟨hinv, hgrows⟩ hjob ↦
      ⟨(hinv.step_inv hjob).1, fun path ↦ (hgrows path).trans ((hinv.step_inv hjob).2 path)⟩)
    hjobs ⟨h, fun _ ↦ le_rfl⟩

/-! ## No edit is lost -/

/-- What the frontend takes for saved is in the file once nothing is on its way there: the table of the
last edit, or, when it was not edited since it was opened, that table or one of a later edit. -/
def Saved (w : World) : Prop :=
  ∀ path, w.ui.path? = some path → w.ui.savedSerial = w.ui.editSerial →
    (∀ job ∈ w.ui.pending, job.path ≠ path) →
      w.files path = w.ui.table ∨ w.ui.editSerial = 0 ∧ w.ui.table.edits < (w.files path).edits

theorem Inv.saved (h : w.Inv) : w.Saved := by
  intro path hpath hsaved _
  obtain ⟨hknown, -, hlast, hsame⟩ := h.current path hpath
  obtain heq | hlt := (hsame hsaved).eq_or_lt
  · have hfile := h.known path _ List.mem_cons_self
    rw [Known, ← heq, hknown] at hfile
    exact .inl (Version.ext heq.symm (Option.some.inj hfile).symm)
  · refine .inr ⟨?_, hlt⟩
    by_contra hedit
    have := h.files_le hpath (Nat.pos_of_ne_zero hedit) _ List.mem_cons_self
    omega

/-- **No edit is lost** in a run whose flushes find no job of an earlier edit: what is taken for saved
is in the file, and what a flush has saved is not written over with an older table. -/
theorem kept_of_noOlderJob {files : Path → BookmarkTable} {events : List Event}
    (h : Runs.Along step NoOlderJob events (new files)) :
    (Runs.run step events (new files)).Saved ∧
      ∀ before result after, events = before ++ .flush result :: after →
        ((Runs.run step before (new files)).flush result).1 = .ok () →
          ∀ path, (Runs.run step before (new files)).ui.path? = some path →
            (Runs.run step before (new files)).ui.table.edits ≤
              ((Runs.run step events (new files)).files path).edits := by
  refine ⟨((inv_new files).run h).1.saved, ?_⟩
  rintro before result after rfl hok path hpath
  rw [Runs.along_append] at h
  have hbefore := ((inv_new files).run h.1).1
  obtain ⟨hinv, -, hflush⟩ := hbefore.flush h.2.1
  rw [Runs.run_append]
  exact (hflush hok path hpath).trans ((hinv.run h.2.2).2 path)

/-- The replay is edited, its job finishes after a second edit, and the flush writes that one. -/
theorem saved_of_edits :
    (Runs.run step
      [.read "a", .setPlayback "a" [] 7, .edit ⟨2, [], []⟩ 0, .pollWrites 250 true (.ok ⟨[], none⟩),
        .edit ⟨3, [], []⟩ 300, .take, .finish (.ok ⟨[], none⟩), .flush (.ok ⟨[], none⟩)]
      (new fun _ ↦ .new)).Saved := by
  refine (kept_of_noOlderJob ?_).1
  exact ⟨trivial, trivial, trivial, trivial, trivial, trivial, trivial,
    fun _ _ hjob ↦ absurd hjob List.not_mem_nil, trivial⟩

/-! ## A flush that waits for another replay's write -/

/-- Replay `a` is edited and its job is still running when replay `b` takes its place; `b` is edited, its
job queued, and edited once more. -/
def switchedWhileWriting : List Event :=
  [.read "a", .setPlayback "a" [] 7, .edit ⟨2, [], []⟩ 0, .pollWrites 250 true (.ok ⟨[], none⟩),
    .take, .read "b", .setPlayback "b" [] 7, .edit ⟨2, [], []⟩ 300,
    .pollWrites 600 true (.ok ⟨[], none⟩), .edit ⟨3, [], []⟩ 700, .finish (.ok ⟨[], none⟩)]

/-- **The older job wins**: the flush gets the result of the job for `a`, writes `b` itself, and the job
for `b` that is still queued then takes the file back to the edit before. -/
theorem older_job_wins :
    ((Runs.run step switchedWhileWriting (new fun _ ↦ .new)).flush (.ok ⟨[], none⟩)).1 = .ok () ∧
      (Runs.run step switchedWhileWriting (new fun _ ↦ .new)).ui.path? = some "b" ∧
        ((Runs.run step (switchedWhileWriting ++
          [.flush (.ok ⟨[], none⟩), .take, .finish (.ok ⟨[], none⟩)]) (new fun _ ↦ .new)).files
            "b").edits <
          (Runs.run step switchedWhileWriting (new fun _ ↦ .new)).ui.table.edits ∧
        ¬ (Runs.run step (switchedWhileWriting ++
          [.flush (.ok ⟨[], none⟩), .take, .finish (.ok ⟨[], none⟩)]) (new fun _ ↦ .new)).Saved := by
  refine ⟨rfl, by decide, by decide, fun hsaved ↦ ?_⟩
  have h := hsaved "b" (by decide) (by decide) (fun _ hjob ↦ absurd hjob List.not_mem_nil)
  revert h
  decide

end World

end Frontend

end SuperShuckie
