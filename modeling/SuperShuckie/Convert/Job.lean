import SuperShuckie.Convert.Names
import SuperShuckie.Lib.Disk

/-!
# Converting a replay in place

A replay is converted, or imported, into a temporary file beside it; the result is checked; then it
takes the place of the original.  Everything that is done with files may fail.

What the conversion writes and what the check compares are parameters (`Codec`): a list of steps
for every input.  The steps of the conversion edit the file that is being written.
-/

set_option autoImplicit false

namespace SuperShuckie.Convert

open ByteFormat Disk

inductive ConvertError
  | cancelled
  | failed (message : String)
deriving DecidableEq

/-- A step of work that writes nothing. -/
inductive CheckStep
  /-- Report how far it has come; the work stops if it has been cancelled. -/
  | progress
  | fail (message : String)

/-- A step of work on an output file. -/
inductive WriteStep
  | write (edit : Bytes → Bytes)
  | check (step : CheckStep)

/-- The import of a replay of the original application, as its steps. -/
structure LegacyImport where
  /-- Its header is read, and the ROM is compared. -/
  header : List CheckStep
  /-- Its frames are counted. -/
  count : List CheckStep
  /-- What is before the first frame. -/
  beginning : List CheckStep
  /-- A new recording is started. -/
  start : List WriteStep
  /-- All its frames are played. -/
  play : List WriteStep
  /-- The recording is stopped. -/
  stop : List WriteStep
  frames : UInt64

/-- The formats, to which the files are nothing but bytes. -/
structure Codec (Source : Type) where
  /-- Open a replay, with the ROM it is of where that is needed. -/
  openSource : Option Bytes → Bytes → Except String Source
  reencode : Source → List WriteStep
  /-- The comparison of an original with an output. -/
  compare : Option Bytes → Bytes → Bytes → List CheckStep
  /-- The import of an original, with the ROM of its game. -/
  legacyImport : Bytes → Bytes → LegacyImport
  /-- The frames of a replay, if it can be opened. -/
  totalFrames : Bytes → Except String UInt64

/-- What is reported of a replay that has been converted. -/
structure ConvertedReplay where
  path : Path
  bytesBefore : Nat
  bytesAfter : Nat
  /-- The frames of an imported replay. -/
  imported : Option UInt64

abbrev DiskAction := Act ConvertError (World Path Bytes)

variable {Source : Type} (codec : Codec Source) (faults : Faults Path)

/-! ## Steps -/

/-- Go on with a result, or fail with the message made of its error. -/
def orFail {α : Type} (message : String → String) (x : DiskAction (Except String α)) :
    DiskAction α := do
  match ← x with
  | .ok a => pure a
  | .error e => Act.fail (.failed (message e))

/-- `let _ = ...`. -/
def ignore {α : Type} (x : DiskAction (Except String α)) : DiskAction Unit := do
  let _ ← x
  pure ()

def runCheck : CheckStep → DiskAction Unit
  | .progress => do
    match ← proceed faults with
    | .ok _ => pure ()
    | .error _ => Act.fail .cancelled
  | .fail message => Act.fail (.failed message)

def runChecks (steps : List CheckStep) : DiskAction Unit := steps.forM (runCheck faults)

/-- A write that fails ends the work. -/
def runWrite (path : Path) : WriteStep → DiskAction Unit
  | .write edit => orFail id (write faults path edit)
  | .check step => runCheck faults step

def runWrites (path : Path) (steps : List WriteStep) : DiskAction Unit :=
  steps.forM (runWrite faults path)

/-- A recording whose sink has failed goes on without it.  Returns the error that ended it, if one
did, and whether it still has its sink. -/
def runRecording (path : Path) :
    List WriteStep → Bool → DiskAction (Except ConvertError Unit × Bool)
  | [], recording => pure (.ok (), recording)
  | .check step :: steps, recording => do
    match ← Act.attempt (runCheck faults step) with
    | .ok _ => runRecording path steps recording
    | .error e => pure (.error e, recording)
  | .write edit :: steps, recording => do
    if recording then
      match ← write faults path edit with
      | .ok _ => runRecording path steps true
      | .error _ => runRecording path steps false
    else runRecording path steps false

/-! ## Converting -/

def mapRom : Option Path → DiskAction (Option Bytes)
  | none => pure none
  | some path => some <$> orFail (fun e ↦ s!"cannot open {path.display}: {e}") (read faults path)

/-- Re-encode into the staging file.  Returns the size of the output. -/
def writeReencoded (source : Source) (staging : Path) : DiskAction Nat := do
  runWrites faults staging (codec.reencode source)
  orFail (fun e ↦ s!"syncing the output failed: {e}") (sync faults staging)
  let size ← orFail (fun e ↦ s!"cannot stat the output: {e}") (read faults staging)
  pure size.length

/-- Re-encode `input` into `output`, which must not exist yet unless `overwrite` is set.  It is
first written to a staging file next to `output`, which is removed on any error.  Returns the sizes
of both. -/
def convertReplayFile (input output : Path) (romPath : Option Path) (overwrite : Bool) :
    DiskAction (Nat × Nat) := do
  if input = output then Act.fail (.failed "input and output must be different files")
  else
    let w ← Act.get
    if (w.files.lookup output).isSome && !overwrite then
      Act.fail (.failed s!"{output.display} already exists")
    else
      let original ← orFail (fun e ↦ s!"cannot open {input.display}: {e}") (read faults input)
      let rom ← mapRom faults romPath
      match codec.openSource rom original with
      | .error message => Act.fail (.failed message)
      | .ok source =>
        let staging := stagingPath output
        orFail (fun e ↦ s!"cannot create {staging.display}: {e}") (create faults staging [])
        match ← Act.attempt (writeReencoded codec faults source staging) with
        | .error e => do
          ignore (delete faults staging)
          Act.fail e
        | .ok size =>
          match ← rename faults staging output with
          | .ok _ => pure (original.length, size)
          | .error e => do
            ignore (delete faults staging)
            Act.fail (.failed
              s!"cannot move {staging.display} to {output.display}: {e}")

def verifyReplayFiles (input output : Path) (romPath : Option Path) : DiskAction Unit := do
  let original ← orFail (fun e ↦ s!"cannot open {input.display}: {e}") (read faults input)
  let converted ← orFail (fun e ↦ s!"cannot open {output.display}: {e}") (read faults output)
  let rom ← mapRom faults romPath
  runChecks faults (codec.compare rom original converted)

/-! ## Importing -/

/-- Import the old file `input` into a new replay at `output`.  Returns its frames. -/
def importLegacyReplay (input output : Path) (rom : Bytes) : DiskAction UInt64 := do
  let cannotOpen := fun e ↦ s!"cannot open {input.display}: {e}"
  let original ← orFail cannotOpen (read faults input)
  let steps := codec.legacyImport rom original
  runChecks faults steps.header
  -- counting the frames opens the file again, and so does playing it: each reads its header first
  let _ ← orFail cannotOpen (read faults input)
  let _ ← orFail cannotOpen (read faults input)
  runChecks faults steps.count
  let _ ← orFail cannotOpen (read faults input)
  let _ ← orFail cannotOpen (read faults input)
  runChecks faults steps.beginning
  orFail (fun e ↦ s!"cannot create {output.display}: {e}") (create faults output [])
  runWrites faults output steps.start
  let (result, recording) ← runRecording faults output steps.play true
  let (_, closed) ← runRecording faults output steps.stop recording
  match result with
  | .error e => do
    ignore (delete faults output)
    Act.fail e
  | .ok _ =>
    if closed then pure steps.frames
    else do
      ignore (delete faults output)
      Act.fail (.failed "the new replay could not be finished")

/-! ## Replacing the original -/

/-- Rename with as many tries as are left, after one that failed. -/
def renameFrom (source target : Path) : Nat → Option String → DiskAction (Except String Unit)
  | 0, last =>
    let e := last.getD ""
    pure (.error s!"cannot rename {source.display} to {target.display}: {e}")
  | tries + 1, _ => do
    match ← rename faults source target with
    | .ok _ => pure (.ok ())
    | .error e => renameFrom source target tries (some e)

/-- Rename with a few retries: scanners briefly hold freshly written files. -/
def renameWithRetry (source target : Path) : DiskAction (Except String Unit) :=
  renameFrom faults source target 5 none

/-- Put the verified `temp` in place of `original` (moving the original to a `.bak` first, or
deleting it). -/
def replaceOriginal (original temp : Path) (keepBackup : Bool) :
    DiskAction (Except String Unit) := do
  if keepBackup then
    let w ← Act.get
    let backup := backupPath original w.files
    match ← renameWithRetry faults original backup with
    | .error e => pure (.error e)
    | .ok _ =>
      match ← renameWithRetry faults temp original with
      | .error e => do
        ignore (renameWithRetry faults backup original)
        pure (.error e)
      | .ok _ => pure (.ok ())
  else
    match ← delete faults original with
    | .error e => pure (.error s!"cannot delete {original.display}: {e}")
    | .ok _ => renameWithRetry faults temp original

/-- How a replay gets to be the one in the current format. -/
inductive Job
  /-- `convert_one`: re-encode it.  A replay may need the ROM it is of. -/
  | convert (romPath : Option Path)
  /-- `import_one`: play a replay of the original application, on the ROM it is of. -/
  | importLegacy (romPath : Path)

/-- The first part of `convert_one`: convert and verify. -/
def convertToTemp (path : Path) (romPath : Option Path) : DiskAction ConvertedReplay := do
  let temp := tempPath path
  ignore (delete faults temp)
  let (before, after) ← convertReplayFile codec faults path temp romPath true
  match ← Act.attempt (verifyReplayFiles codec faults path temp romPath) with
  | .ok _ => pure ⟨path, before, after, none⟩
  | .error e => do
    ignore (delete faults temp)
    match e with
    | .cancelled => Act.fail .cancelled
    | .failed message => Act.fail (.failed s!"verification failed: {message}")

/-- The first part of `import_one`: import, and check that the result reads back as a replay of the
whole run. -/
def importToTemp (path romPath : Path) : DiskAction ConvertedReplay := do
  let rom ← orFail (fun e ↦ s!"cannot read {romPath.display}: {e}") (read faults romPath)
  let w ← Act.get
  let before := ((w.files.lookup path).map List.length).getD 0
  let temp := tempPath path
  ignore (delete faults temp)
  let frames ← importLegacyReplay codec faults path temp rom
  match (← read faults temp).bind codec.totalFrames with
  | .error e => do
    ignore (delete faults temp)
    Act.fail (.failed s!"the imported replay does not read back: {e}")
  | .ok total =>
    if total = frames then
      let w ← Act.get
      pure ⟨path, before, ((w.files.lookup temp).map List.length).getD 0, some frames⟩
    else do
      ignore (delete faults temp)
      Act.fail (.failed s!"the imported replay has {total} frames instead of {frames}")

def Job.toTemp (path : Path) : Job → DiskAction ConvertedReplay
  | .convert romPath => convertToTemp codec faults path romPath
  | .importLegacy romPath => importToTemp codec faults path romPath

/-- Convert (or import), check and replace one replay. -/
def Job.run (job : Job) (path : Path) (keepBackup : Bool) : DiskAction ConvertedReplay := do
  let converted ← job.toTemp codec faults path
  match ← replaceOriginal faults path (tempPath path) keepBackup with
  | .ok _ => pure converted
  | .error message => do
    ignore (delete faults (tempPath path))
    Act.fail (.failed message)

end SuperShuckie.Convert
