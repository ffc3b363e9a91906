import SuperShuckie.Convert.Job

/-!
# Until the original is replaced

Up to the moment when the original is replaced, a conversion touches nothing but its two temporary
files (`Untouched (Spared path)`), and when it gets there, the temporary file has passed the check
(`total_toTemp`).
-/

set_option autoImplicit false

namespace SuperShuckie.Convert

open Act ByteFormat Disk

/-- All but the temporary files of a conversion. -/
def Spared (path q : Path) : Prop := q ≠ tempPath path ∧ q ≠ stagingPath (tempPath path)

theorem spared_path (path : Path) : Spared path path :=
  ⟨(tempPath_ne path).symm, (stagingPath_ne path).symm⟩

theorem not_spared_temp (path : Path) : ¬ Spared path (tempPath path) := fun h ↦ h.1 rfl

theorem not_spared_staging (path : Path) : ¬ Spared path (stagingPath (tempPath path)) :=
  fun h ↦ h.2 rfl

/-- An output that has passed the check of a conversion, which looked at the ROM that there was. -/
def Job.Passed {Source : Type} (codec : Codec Source) (path : Path) (before : Files Path Bytes)
    (original output : Bytes) : Job → Prop
  | .convert romPath => ∃ rom, (romPath = none → rom = none) ∧
      (∀ p, romPath = some p → Spared path p → rom = before.lookup p) ∧
      ∀ message, .fail message ∉ codec.compare rom original output
  | .importLegacy romPath => ∃ rom, (Spared path romPath → before.lookup romPath = some rom) ∧
      codec.totalFrames output = .ok (codec.legacyImport rom original).frames

/-- Nothing but the temporary files has been touched. -/
abbrev Spares (path : Path) (before : Files Path Bytes) : World Path Bytes → Prop :=
  Untouched (Spared path) before

variable {Source : Type} {codec : Codec Source} {faults : Faults Path} {path : Path}
  {before : Files Path Bytes} {R : Files Path Bytes → Prop} {α : Type}

/-! ## Steps -/

section

variable {P E : World Path Bytes → Prop}

theorem total_orFail {message : String → String} {x : DiskAction (Except String α)}
    {Q : α → World Path Bytes → Prop} {F : ConvertError → World Path Bytes → Prop}
    (hx : Total P (fun _ ↦ x) (fun r w ↦ match r with
      | .ok a => Q a w
      | .error _ => E w) F) (hE : ∀ e w, E w → F e w) : Total P (fun _ ↦ orFail message x) Q F := by
  refine hx.bind fun r ↦ ?_
  cases r with
  | ok a => exact .pure fun _ h ↦ h
  | error e => exact .fail fun _ h ↦ hE _ _ h

/-- What is kept whether an operation succeeds or not. -/
theorem total_orFail_keeps {I : World Path Bytes → Prop} {message : String → String}
    {x : DiskAction (Except String α)} (hx : Total P (fun _ ↦ x) (fun _ ↦ I) fun _ ↦ I) :
    Total P (fun _ ↦ orFail message x) (fun _ ↦ I) fun _ ↦ I :=
  total_orFail (E := I) (hx.post fun r _ h ↦ by cases r <;> exact h) fun _ _ h ↦ h

theorem total_ignore {x : DiskAction (Except String α)} {Q : World Path Bytes → Prop}
    {F : ConvertError → World Path Bytes → Prop} (hx : Total P (fun _ ↦ x) (fun _ ↦ Q) F) :
    Total P (fun _ ↦ ignore x) (fun _ ↦ Q) F :=
  hx.bind fun _ ↦ .pure fun _ h ↦ h

/-- A file is read, or the work fails. -/
theorem total_readOrFail {message : String → String} (p : Path) :
    Total (fun w ↦ Spares path before w ∧ R w.files)
      (fun _ ↦ orFail message (read faults p))
      (fun b w ↦ Spares path before w ∧ R w.files ∧ w.files.lookup p = some b)
      (fun _ ↦ Spares path before) :=
  total_orFail (E := Spares path before)
    ((total_read p).post (fun r w h ↦ by
      cases r with
      | ok b => exact ⟨h.1, h.2.1, h.2.2 b rfl⟩
      | error e => exact h.1)) fun _ _ h ↦ h

theorem total_readFile {message : String → String} (p : Path) :
    Total (Spares path before) (fun _ ↦ orFail message (read faults p))
      (fun b w ↦ Spares path before w ∧ w.files.lookup p = some b)
      (fun _ ↦ Spares path before) :=
  (total_readOrFail (R := fun _ ↦ True) p).conseq (fun _ h ↦ ⟨h, trivial⟩)
    (fun _ _ h ↦ ⟨h.1, h.2.2⟩) fun _ _ h ↦ h

/-- The original is still there. -/
theorem total_readOriginal {original : Bytes} {message : String → String}
    (horiginal : before.lookup path = some original) :
    Total (Spares path before) (fun _ ↦ orFail message (read faults path))
      (fun b w ↦ Spares path before w ∧ b = original) (fun _ ↦ Spares path before) := by
  refine (total_readFile path).post fun b w h ↦ ⟨h.1, ?_⟩
  have hfile := (h.1.files path (spared_path path)).trans horiginal
  rw [h.2] at hfile
  exact Option.some.inj hfile

theorem total_runCheck (step : CheckStep) :
    Total (fun w ↦ Spares path before w ∧ R w.files) (fun _ ↦ runCheck faults step)
      (fun _ w ↦ (Spares path before w ∧ R w.files) ∧ ∀ message, step ≠ .fail message)
      (fun _ ↦ Spares path before) := by
  cases step with
  | progress =>
    refine total_proceed.bind fun r ↦ ?_
    cases r with
    | ok u => exact .pure fun _ h ↦ ⟨h, fun _ h ↦ by cases h⟩
    | error e => exact .fail fun _ h ↦ h.1
  | fail message => exact .fail fun _ h ↦ h.1

theorem total_checkOnly (step : CheckStep) :
    Total (Spares path before) (fun _ ↦ runCheck faults step) (fun _ ↦ Spares path before)
      (fun _ ↦ Spares path before) :=
  (total_runCheck (R := fun _ ↦ True) step).conseq (fun _ h ↦ ⟨h, trivial⟩)
    (fun _ _ h ↦ h.1.1) fun _ _ h ↦ h

/-- If all the checks pass, none of them fails. -/
theorem total_runChecks (steps : List CheckStep) :
    Total (fun w ↦ Spares path before w ∧ R w.files) (fun _ ↦ runChecks faults steps)
      (fun _ w ↦ (Spares path before w ∧ R w.files) ∧ ∀ message, .fail message ∉ steps)
      (fun _ ↦ Spares path before) := by
  induction steps with
  | nil => exact .pure fun _ h ↦ ⟨h, fun _ h ↦ by cases h⟩
  | cons step steps ih =>
    show Total _ (fun _ ↦ runCheck faults step >>= fun _ ↦ runChecks faults steps) _ _
    cases step with
    | fail message =>
      exact Total.bind (Q := fun _ _ ↦ False) (.fail fun _ h ↦ h.1) fun _ ↦ .const fun _ h ↦ h.elim
    | progress =>
      refine Total.bind (total_runCheck .progress) fun _ ↦ ih.conseq (fun _ h ↦ h.1)
        (fun _ w h ↦ ⟨h.1, fun message hmem ↦ ?_⟩) fun _ _ h ↦ h
      rcases List.mem_cons.mp hmem with heq | hmem
      · cases heq
      · exact h.2 message hmem

/-- What is written goes to a temporary file. -/
theorem total_runWrites {p : Path} (hp : ¬ Spared path p) (steps : List WriteStep) :
    Total (Spares path before) (fun _ ↦ runWrites faults p steps)
      (fun _ ↦ Spares path before) (fun _ ↦ Spares path before) := by
  induction steps with
  | nil => exact .pure fun _ h ↦ h
  | cons step steps ih =>
    show Total _ (fun _ ↦ runWrite faults p step >>= fun _ ↦ runWrites faults p steps) _ _
    refine Total.bind (Q := fun _ ↦ Spares path before) ?_ fun _ ↦ ih
    cases step with
    | write edit => exact total_orFail_keeps (total_write hp edit)
    | check step => exact total_checkOnly step

theorem total_runRecording {p : Path} (hp : ¬ Spared path p) (steps : List WriteStep)
    (recording : Bool) {F : ConvertError → World Path Bytes → Prop} :
    Total (Spares path before) (fun _ ↦ runRecording faults p steps recording)
      (fun _ ↦ Spares path before) F := by
  induction steps generalizing recording with
  | nil => exact .pure fun _ h ↦ h
  | cons step steps ih =>
    cases step with
    | check step =>
      refine Total.bind (total_checkOnly step).attempt.never_fails fun r ↦ ?_
      cases r with
      | ok u => exact ih recording
      | error e => exact .pure fun _ h ↦ h
    | write edit =>
      cases recording with
      | true =>
        refine Total.bind (total_write hp edit) fun r ↦ ?_
        cases r with
        | ok u => exact ih true
        | error e => exact ih false
      | false => exact ih false

end

/-! ## Converting -/

/-- The ROM that is read is the one that there was. -/
def RomOf (path : Path) (before : Files Path Bytes) (romPath : Option Path) (rom : Option Bytes) :
    Prop :=
  (romPath = none → rom = none) ∧ ∀ p, romPath = some p → Spared path p → rom = before.lookup p

theorem total_mapRom (romPath : Option Path) :
    Total (fun w ↦ Spares path before w ∧ R w.files) (fun _ ↦ mapRom faults romPath)
      (fun rom w ↦ (Spares path before w ∧ R w.files) ∧ RomOf path before romPath rom)
      (fun _ ↦ Spares path before) := by
  cases romPath with
  | none => exact .pure fun _ h ↦ ⟨h, fun _ ↦ rfl, fun _ h ↦ by cases h⟩
  | some p =>
    refine (total_readOrFail p).bind fun rom ↦ .pure fun w h ↦ ⟨⟨h.1, h.2.1⟩, ?_, ?_⟩
    · exact fun h ↦ by cases h
    · intro p' hp' hspared
      cases hp'
      rw [← h.1.files p hspared, h.2.2]

/-- Clean up, and fail. -/
theorem total_cleanUp {p : Path} (hp : ¬ Spared path p) (e : ConvertError)
    {Q : α → World Path Bytes → Prop} : Total (Spares path before)
      (fun _ ↦ ignore (delete faults p) >>= fun _ ↦ (Act.fail e : DiskAction α)) Q
      (fun _ ↦ Spares path before) :=
  (total_ignore (total_delete hp)).bind fun _ ↦ .fail fun _ h ↦ h

theorem total_writeReencoded (source : Source) : Total (Spares path before)
      (fun _ ↦ writeReencoded codec faults source (stagingPath (tempPath path)))
      (fun _ ↦ Spares path before) (fun _ ↦ Spares path before) := by
  refine (total_runWrites (not_spared_staging path) _).bind fun _ ↦
    Total.bind (Q := fun _ ↦ Spares path before) ?_ fun _ ↦
    Total.bind (Q := fun _ ↦ Spares path before) ?_ fun _ ↦ .pure fun _ h ↦ h
  · exact total_orFail_keeps ((total_sync (R := fun _ ↦ True) _).conseq
      (fun _ h ↦ ⟨h, trivial⟩) (fun _ _ h ↦ h.1) fun _ _ h ↦ h)
  · exact (total_readFile _).post fun _ _ h ↦ h.1

theorem total_convertReplayFile (romPath : Option Path) (overwrite : Bool) :
    Total (Spares path before)
      (fun _ ↦ convertReplayFile codec faults path (tempPath path) romPath overwrite)
      (fun _ ↦ Spares path before) (fun _ ↦ Spares path before) := by
  rw [show (fun _ : Nat ↦ convertReplayFile codec faults path (tempPath path) romPath overwrite) =
    _ from funext fun _ ↦ if_neg (tempPath_ne path).symm]
  refine .get_bind (fun w hw ↦ ?_) fun w {m n} hmn ↦ .refl _
  refine Total.conseq (P := Spares path before) ?_ (fun _ h ↦ h ▸ hw) (fun _ _ h ↦ h)
    fun _ _ h ↦ h
  by_cases hexists : ((w.files.lookup (tempPath path)).isSome && !overwrite) = true
  · simp only [if_pos hexists]
    exact .fail fun _ h ↦ h
  · simp only [if_neg hexists]
    refine (total_readFile path).bind fun original ↦ (total_mapRom (R := fun files ↦
      files.lookup path = some original) romPath).bind fun rom ↦ ?_
    cases codec.openSource rom original with
    | error message => exact .fail fun _ h ↦ h.1.1
    | ok source =>
      refine Total.bind (total_orFail_keeps ((total_create (not_spared_staging path) []).pre
        fun _ h ↦ h.1.1)) fun _ ↦ ?_
      refine Total.bind (Q := fun _ ↦ Spares path before)
        ((total_writeReencoded source).attempt.conseq (fun _ h ↦ h)
          (fun r _ h ↦ by cases r <;> exact h) fun _ _ h ↦ h.elim) fun r ↦ ?_
      cases r with
      | error e => exact total_cleanUp (not_spared_staging path) e
      | ok size =>
        refine (total_rename (not_spared_staging path) (not_spared_temp path)).bind fun r ↦ ?_
        cases r with
        | ok u => exact .pure fun _ h ↦ h
        | error e => exact total_cleanUp (not_spared_staging path) _

variable {original : Bytes}

section

variable (horiginal : before.lookup path = some original)
include horiginal

/-- A verified output has passed the comparison with the original. -/
theorem total_verifyReplayFiles (romPath : Option Path) : Total (Spares path before)
      (fun _ ↦ verifyReplayFiles codec faults path (tempPath path) romPath)
      (fun _ w ↦ Spares path before w ∧ ∃ output,
        w.files.lookup (tempPath path) = some output ∧
        Job.Passed codec path before original output (.convert romPath))
      (fun _ ↦ Spares path before) := by
  refine (total_readOriginal horiginal).bind fun b ↦ .assuming fun hb ↦ ?_
  subst hb
  refine (total_readFile (tempPath path)).bind fun output ↦ ?_
  refine (total_mapRom (R := fun files ↦ files.lookup (tempPath path) = some output)
    romPath).bind fun rom ↦ .assuming fun hrom ↦ ?_
  exact (total_runChecks (R := fun files ↦ files.lookup (tempPath path) = some output) _).post (fun _ w h ↦ ⟨h.1.1, output, h.1.2, rom, hrom.1, hrom.2, h.2⟩)

theorem total_convertToTemp (romPath : Option Path) :
    Total (Spares path before) (fun _ ↦ convertToTemp codec faults path romPath)
      (fun _ w ↦ Spares path before w ∧ ∃ output,
        w.files.lookup (tempPath path) = some output ∧
        Job.Passed codec path before original output (.convert romPath))
      (fun _ ↦ Spares path before) := by
  refine (total_ignore (total_delete (not_spared_temp path))).bind fun _ ↦
    (total_convertReplayFile romPath true).bind fun sizes ↦ Total.bind
      ((total_verifyReplayFiles horiginal romPath).attempt.never_fails) fun r ↦ ?_
  cases r with
  | ok u => exact .pure fun _ h ↦ h
  | error e =>
    cases e with
    | cancelled => exact total_cleanUp (not_spared_temp path) .cancelled
    | failed message => exact total_cleanUp (not_spared_temp path) _

/-! ## Importing -/

theorem total_importLegacyReplay (rom : Bytes) : Total (Spares path before)
      (fun _ ↦ importLegacyReplay codec faults path (tempPath path) rom)
      (fun frames w ↦ Spares path before w ∧ frames = (codec.legacyImport rom original).frames)
      (fun _ ↦ Spares path before) := by
  have hchecks : ∀ steps, Total (Spares path before) (fun _ ↦ runChecks faults steps)
      (fun _ ↦ Spares path before) (fun _ ↦ Spares path before) :=
    fun steps ↦ (total_runChecks (R := fun _ ↦ True) steps).conseq (fun _ h ↦ ⟨h, trivial⟩)
      (fun _ _ h ↦ h.1.1) fun _ _ h ↦ h
  have hagain : ∀ {message : String → String}, Total (Spares path before)
      (fun _ ↦ orFail message (read faults path)) (fun _ ↦ Spares path before)
      (fun _ ↦ Spares path before) :=
    (total_readFile path).post fun _ _ h ↦ h.1
  refine (total_readOriginal horiginal).bind fun b ↦ .assuming fun hb ↦ ?_
  subst hb
  refine (hchecks _).bind fun _ ↦ hagain.bind fun _ ↦ hagain.bind fun _ ↦ (hchecks _).bind fun _ ↦
    hagain.bind fun _ ↦ hagain.bind fun _ ↦ (hchecks _).bind fun _ ↦ ?_
  refine Total.bind (total_orFail_keeps (total_create (not_spared_temp path) [])) fun _ ↦ ?_
  refine (total_runWrites (not_spared_temp path) _).bind fun _ ↦
    (total_runRecording (not_spared_temp path) _ true).bind fun played ↦
      (total_runRecording (not_spared_temp path) _ played.2).bind fun stopped ↦ ?_
  obtain ⟨result, recording⟩ := played
  cases result with
  | error e => exact total_cleanUp (not_spared_temp path) e
  | ok u =>
    by_cases hclosed : stopped.2 = true
    · simp only [hclosed, if_true]
      exact .pure fun _ h ↦ ⟨h, rfl⟩
    · simp only [hclosed]
      exact total_cleanUp (not_spared_temp path) _

theorem total_importToTemp (romPath : Path) :
    Total (Spares path before) (fun _ ↦ importToTemp codec faults path romPath)
      (fun _ w ↦ Spares path before w ∧ ∃ output,
        w.files.lookup (tempPath path) = some output ∧
        Job.Passed codec path before original output (.importLegacy romPath))
      (fun _ ↦ Spares path before) := by
  refine Total.bind (Q := fun rom w ↦ Spares path before w ∧
    (Spared path romPath → before.lookup romPath = some rom))
    ((total_readFile romPath).post fun rom w h ↦ ⟨h.1, fun hspared ↦ ?_⟩) fun rom ↦
    .assuming fun hrom ↦ ?_
  · rw [← h.1.files romPath hspared, h.2]
  refine .get_bind (fun w hw ↦ ?_) fun _ {m n} _ ↦ .refl _
  refine Total.conseq (P := Spares path before) ?_ (fun _ h ↦ h ▸ hw) (fun _ _ h ↦ h)
    fun _ _ h ↦ h
  refine (total_ignore (total_delete (not_spared_temp path))).bind fun _ ↦
    (total_importLegacyReplay horiginal rom).bind fun frames ↦ .assuming fun hframes ↦
      Total.bind ((total_read (R := fun _ ↦ True) (tempPath path)).pre (fun _ h ↦ ⟨h, trivial⟩)) fun r ↦ ?_
  cases htotal : r.bind codec.totalFrames with
  | error e =>
    exact (total_cleanUp (not_spared_temp path) (.failed _)).pre (fun _ h ↦ h.1)
  | ok total =>
    dsimp only
    by_cases hequal : total = frames
    · simp only [if_pos hequal]
      refine .get_bind (fun w hw ↦ .pure fun w' hw' ↦ ?_) fun _ {m n} _ ↦ .refl _
      subst hw'
      cases r with
      | error e => cases htotal
      | ok output =>
        refine ⟨hw.1, output, hw.2.2 output rfl, rom, hrom, ?_⟩
        have houtput : codec.totalFrames output = .ok total := htotal
        rw [houtput, hequal, hframes]
    · simp only [if_neg hequal]
      exact (total_cleanUp (not_spared_temp path) (.failed _)).pre (fun _ h ↦ h.1)

/-- **Before the original is replaced** nothing but the temporary files has been touched, and there
is an output that has passed the check. -/
theorem total_toTemp (job : Job) :
    Total (Untouched (Spared path) before) (fun _ ↦ job.toTemp codec faults path)
      (fun _ w ↦ Untouched (Spared path) before w ∧ ∃ output,
        w.files.lookup (tempPath path) = some output ∧
        job.Passed codec path before original output)
      (fun _ ↦ Untouched (Spared path) before) := by
  cases job with
  | convert romPath => exact total_convertToTemp horiginal romPath
  | importLegacy romPath => exact total_importToTemp horiginal romPath

end

end SuperShuckie.Convert
