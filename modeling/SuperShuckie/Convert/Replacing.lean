import SuperShuckie.Convert.Preparing

/-!
# Nothing is lost

`LosesNothing` says what a conversion must not do to the files it works on.  With backups it never
does; without them it does when the original has been deleted and the output then cannot be renamed,
because the output is deleted too (`run_losesNothing_iff`).
-/

set_option autoImplicit false

namespace SuperShuckie.Convert

open Act ByteFormat Disk

section

variable {Source : Type} (codec : Codec Source) (faults : Faults Path) (path : Path)
  (before : Files Path Bytes) (original : Bytes) (keepBackup : Bool) (job : Job)

/-- The original, or a complete output that has passed the check, is at one of the paths that belong
to it; and the backups that there were are as they were. -/
structure Kept (files : Files Path Bytes) : Prop where
  kept : ∃ q content, (q = path ∨ IsBackup path q ∨ q = tempPath path) ∧
    files.lookup q = some content ∧
    (content = original ∨ job.Passed codec path before original content)
  backups : ∀ q, IsBackup path q → ∀ content, before.lookup q = some content →
    files.lookup q = some content

/-- At every moment so far. -/
def AlwaysKept (w : World Path Bytes) : Prop :=
  ∀ files, files ∈ w.moments ∨ files = w.files → Kept codec path before original job files

/-- What a conversion should have done: when it fails, the original is where it was, or, if it could
not be put back, it is the backup that has been made of it. -/
def LosesNothing : Outcome ConvertError (World Path Bytes) ConvertedReplay → Prop
  | .ok _ w => AlwaysKept codec path before original job w
  | .error _ w => AlwaysKept codec path before original job w ∧
      (w.files.lookup path = some original ∨
        keepBackup = true ∧ ∃ q, IsBackup path q ∧ before.lookup q = none ∧
          w.files.lookup q = some original ∧ ∀ i < 5, faults (.rename q path) i ≠ none)
  | .abort => False

end

variable {Source : Type} {codec : Codec Source} {faults : Faults Path} {path : Path}
  {before : Files Path Bytes} {original : Bytes} {job : Job} {w : World Path Bytes}

theorem spared_backup {q : Path} (h : IsBackup path q) : Spared path q := by
  obtain ⟨n, rfl⟩ := h
  exact ⟨backup_ne_temp path n, backup_ne_staging path n⟩

theorem backup_ne_path {q : Path} (h : IsBackup path q) : q ≠ path := by
  obtain ⟨n, rfl⟩ := h
  exact backup_ne path n

theorem AlwaysKept.of_same {w' : World Path Bytes} (h : AlwaysKept codec path before original job w)
    (hfiles : w'.files = w.files) (hmoments : w'.moments = w.moments) :
    AlwaysKept codec path before original job w' := by
  intro files hmem
  rw [hfiles, hmoments] at hmem
  exact h files hmem

theorem AlwaysKept.append {w' : World Path Bytes} (h : AlwaysKept codec path before original job w)
    (hmoments : w'.moments = w.moments ++ [w'.files])
    (hkept : Kept codec path before original job w'.files) :
    AlwaysKept codec path before original job w' := by
  intro files hmem
  rw [hmoments, List.mem_append, List.mem_singleton] at hmem
  rcases hmem with (hmem | rfl) | rfl
  · exact h files (.inl hmem)
  · exact hkept
  · exact hkept

/-- As long as only temporary files are touched. -/
theorem alwaysKept_of_untouched (h : Untouched (Spared path) before w)
    (horiginal : before.lookup path = some original) :
    AlwaysKept codec path before original job w := by
  have hkept : ∀ {files : Files Path Bytes}, (∀ q, Spared path q →
      files.lookup q = before.lookup q) → Kept codec path before original job files :=
    fun hsame ↦ ⟨⟨path, original, .inl rfl, (hsame _ (spared_path path)).trans horiginal, .inl rfl⟩,
      fun q hq content hcontent ↦ (hsame q (spared_backup hq)).trans hcontent⟩
  rintro files (hmem | rfl)
  · exact hkept (h.moments files hmem)
  · exact hkept h.files

/-! ## Renaming -/

/-- What a rename leaves. -/
def renamed (files : Files Path Bytes) (source target : Path) (content : Bytes) :
    Files Path Bytes := (files.erase source).insert target content

theorem lookup_renamed {files : Files Path Bytes} {source target q : Path} {content : Bytes}
    (hsource : q ≠ source) (htarget : q ≠ target) :
    (renamed files source target content).lookup q = files.lookup q := by
  rw [renamed, AList.lookup_insert_ne htarget, AList.lookup_erase_ne hsource]

theorem lookup_renamed_target (files : Files Path Bytes) (source target : Path) (content : Bytes) :
    (renamed files source target content).lookup target = some content :=
  AList.lookup_insert _

theorem renameFrom_spec {source target : Path} {content : Bytes} (tries : Nat)
    (last : Option String) (hsource : w.files.lookup source = some content) :
    ∃ r w', renameFrom faults source target tries last w = .ok r w' ∧
      (∀ op, op ≠ .rename source target → w'.attempts op = w.attempts op) ∧
      (((∃ i < tries, faults (.rename source target) (w.attempts (.rename source target) + i) =
          none) ∧ r = .ok () ∧ w'.files = renamed w.files source target content ∧
          w'.moments = w.moments ++ [w'.files]) ∨
        ((∀ i < tries, faults (.rename source target) (w.attempts (.rename source target) + i) ≠
          none) ∧ (∃ e, r = .error e) ∧ w'.files = w.files ∧ w'.moments = w.moments)) := by
  induction tries generalizing w last with
  | zero => exact ⟨_, w, rfl, fun _ _ ↦ rfl, .inr ⟨fun i h ↦ by omega, ⟨_, rfl⟩, rfl, rfl⟩⟩
  | succ tries ih =>
    cases hfault : faults (.rename source target) (w.attempts (.rename source target)) with
    | none =>
      have hrun : renameFrom faults source target (tries + 1) last w = .ok (.ok ())
          ⟨renamed w.files source target content, Function.update w.attempts (.rename source target)
            (w.attempts (.rename source target) + 1),
            w.moments ++ [renamed w.files source target content]⟩ := by
        rw [renameFrom, bind_apply, rename_of_ok hfault hsource]
        rfl
      exact ⟨_, _, hrun, fun op hop ↦ Function.update_of_ne hop _ _,
        .inl ⟨⟨0, Nat.succ_pos _, hfault⟩, rfl, rfl, rfl⟩⟩
    | some e =>
      obtain ⟨r, w', hrest, hattempts, hcases⟩ := ih (w := { w with
        attempts := Function.update w.attempts (.rename source target)
          (w.attempts (.rename source target) + 1) }) (some e) hsource
      have hcount : Function.update w.attempts (.rename source target)
          (w.attempts (.rename source target) + 1) (.rename source target) =
          w.attempts (.rename source target) + 1 := Function.update_self _ _ _
      refine ⟨r, w', ?_, ?_, ?_⟩
      · rw [renameFrom, bind_apply, rename_of_fault hfault]
        exact hrest
      · exact fun op hop ↦ (hattempts op hop).trans (Function.update_of_ne hop _ _)
      · dsimp only at hcases
        rw [hcount] at hcases
        rcases hcases with ⟨⟨i, hi, hnone⟩, hrest⟩ | ⟨hall, hrest⟩
        · refine .inl ⟨⟨i + 1, Nat.succ_lt_succ hi, ?_⟩, hrest⟩
          rwa [← Nat.add_assoc, Nat.add_right_comm]
        · refine .inr ⟨fun i hi ↦ ?_, hrest⟩
          cases i with
          | zero =>
            rw [Nat.add_zero, hfault]
            exact fun h ↦ by cases h
          | succ i =>
            have := hall i (Nat.lt_of_succ_lt_succ hi)
            rwa [← Nat.add_assoc, Nat.add_right_comm]

/-- A rename is tried five times. -/
theorem renameWithRetry_spec (faults : Faults Path) {source : Path} (target : Path)
    {content : Bytes} (hsource : w.files.lookup source = some content) :
    ∃ r w', renameWithRetry faults source target w = .ok r w' ∧
      (∀ op, op ≠ .rename source target → w'.attempts op = w.attempts op) ∧
      (((∃ i < 5, faults (.rename source target) (w.attempts (.rename source target) + i) =
          none) ∧ r = .ok () ∧ w'.files = renamed w.files source target content ∧
          w'.moments = w.moments ++ [w'.files]) ∨
        ((∀ i < 5, faults (.rename source target) (w.attempts (.rename source target) + i) ≠
          none) ∧ (∃ e, r = .error e) ∧ w'.files = w.files ∧ w'.moments = w.moments)) :=
  renameFrom_spec 5 none hsource

/-- Clean up after the original could not be replaced. -/
theorem ignore_delete_spec (faults : Faults Path) (p : Path) (w : World Path Bytes) :
    ∃ w', ignore (delete faults p) w = .ok () w' ∧
      ((w'.files = w.files ∧ w'.moments = w.moments) ∨
        (w'.files = w.files.erase p ∧ w'.moments = w.moments ++ [w'.files])) := by
  obtain ⟨r, w', hrun, hcases⟩ := delete_spec ConvertError faults p w
  exact ⟨w', by rw [ignore, bind_apply, hrun]; rfl, hcases⟩

/-! ## Replacing the original -/

section

variable {output : Bytes}

/-- With a backup: either the output is in place, or the original is, or its backup. -/
theorem replaceOriginal_backup (faults : Faults Path) (h : Untouched (Spared path) before w)
    (horiginal : before.lookup path = some original)
    (houtput : w.files.lookup (tempPath path) = some output)
    (hpassed : job.Passed codec path before original output) :
    ∃ r w', replaceOriginal faults path (tempPath path) true w = .ok r w' ∧
      AlwaysKept codec path before original job w' ∧
      ((∃ e, r = .error e) → w'.files.lookup path = some original ∨
        ∃ q, IsBackup path q ∧ before.lookup q = none ∧ w'.files.lookup q = some original ∧
          ∀ i < 5, faults (.rename q path) i ≠ none) := by
  have hfile : w.files.lookup path = some original :=
    (h.files path (spared_path path)).trans horiginal
  have hkept : AlwaysKept codec path before original job w :=
    alwaysKept_of_untouched h horiginal
  have hzero : ∀ op, op.Touches path → w.attempts op = 0 :=
    fun op ↦ h.attempts op path (spared_path path)
  obtain ⟨backup, hbackup⟩ : ∃ backup, backup = backupPath path w.files := ⟨_, rfl⟩
  have hisBackup : IsBackup path backup := hbackup ▸ isBackup_backupPath path w.files
  have hne : backup ≠ path := backup_ne_path hisBackup
  have hfree : w.files.lookup backup = none := hbackup ▸ lookup_backupPath path w.files
  have hfree' : before.lookup backup = none :=
    (h.files backup (spared_backup hisBackup)).symm.trans hfree
  -- the older backups are spared by all of this
  have holder : ∀ q, IsBackup path q → ∀ content, before.lookup q = some content →
      q ≠ backup ∧ q ≠ path ∧ q ≠ tempPath path ∧ w.files.lookup q = some content := by
    intro q hq content hcontent
    refine ⟨?_, backup_ne_path hq, (spared_backup hq).1,
      (h.files q (spared_backup hq)).trans hcontent⟩
    rintro rfl
    rw [hfree'] at hcontent
    cases hcontent
  obtain ⟨r₁, w₁, hrun₁, hattempts₁, hcases₁⟩ :=
    renameWithRetry_spec faults backup hfile
  rw [replaceOriginal]
  simp only [if_true]
  rw [get_bind_apply, ← hbackup, bind_apply, hrun₁]
  rcases hcases₁ with ⟨-, rfl, hfiles₁, hmoments₁⟩ | ⟨-, ⟨e, rfl⟩, hfiles₁, hmoments₁⟩
  · have hkept₁ : AlwaysKept codec path before original job w₁ := by
      refine hkept.append hmoments₁ ⟨⟨backup, original, .inr (.inl hisBackup), ?_, .inl rfl⟩, ?_⟩
      · rw [hfiles₁, lookup_renamed_target]
      · intro q hq content hcontent
        obtain ⟨hnew, hpath, -, hlookup⟩ := holder q hq content hcontent
        rw [hfiles₁, lookup_renamed hpath hnew]
        exact hlookup
    have htemp₁ : w₁.files.lookup (tempPath path) = some output := by
      rw [hfiles₁, lookup_renamed (tempPath_ne path) (spared_backup hisBackup).1.symm]
      exact houtput
    have hzero₁ : w₁.attempts (.rename (tempPath path) path) = 0 := by
      rw [hattempts₁ _ fun heq ↦ tempPath_ne path (Op.rename.inj heq).1]
      exact hzero _ (.inr rfl)
    obtain ⟨r₂, w₂, hrun₂, hattempts₂, hcases₂⟩ :=
      renameWithRetry_spec faults path htemp₁
    dsimp only
    rw [bind_apply, hrun₂]
    rcases hcases₂ with ⟨-, rfl, hfiles₂, hmoments₂⟩ | ⟨-, ⟨e, rfl⟩, hfiles₂, hmoments₂⟩
    · refine ⟨_, w₂, rfl, hkept₁.append hmoments₂ ⟨⟨path, output, .inl rfl, ?_, .inr hpassed⟩, ?_⟩,
        fun ⟨e, h⟩ ↦ by cases h⟩
      · rw [hfiles₂, lookup_renamed_target]
      · intro q hq content hcontent
        obtain ⟨-, hpath, htemp, -⟩ := holder q hq content hcontent
        rw [hfiles₂, lookup_renamed htemp hpath]
        exact (hkept₁ _ (.inr rfl)).backups q hq content hcontent
    · -- the original is put back
      have hback : w₂.files.lookup backup = some original := by
        rw [hfiles₂, hfiles₁, lookup_renamed_target]
      have hkept₂ := hkept₁.of_same hfiles₂ hmoments₂
      have hzero₂ : w₂.attempts (.rename backup path) = 0 := by
        rw [hattempts₂ _ fun heq ↦ (spared_backup hisBackup).1 (Op.rename.inj heq).1,
          hattempts₁ _ fun heq ↦ hne (Op.rename.inj heq).1]
        exact hzero _ (.inr rfl)
      obtain ⟨r₃, w₃, hrun₃, -, hcases₃⟩ :=
        renameWithRetry_spec faults path hback
      have hlast : (ignore (renameWithRetry faults backup path) >>= fun _ ↦
          (pure (.error e) : DiskAction (Except String Unit))) w₂ = .ok (.error e) w₃ := by
        rw [bind_apply, ignore, bind_apply, hrun₃]
        rfl
      refine ⟨_, w₃, hlast, ?_⟩
      rcases hcases₃ with ⟨-, -, hfiles₃, hmoments₃⟩ | ⟨hall, -, hfiles₃, hmoments₃⟩
      · have hlookup : w₃.files.lookup path = some original := by
          rw [hfiles₃, lookup_renamed_target]
        refine ⟨hkept₂.append hmoments₃ ⟨⟨path, original, .inl rfl, hlookup, .inl rfl⟩, ?_⟩,
          fun _ ↦ .inl hlookup⟩
        intro q hq content hcontent
        obtain ⟨hnew, hpath, -, -⟩ := holder q hq content hcontent
        rw [hfiles₃, lookup_renamed hnew hpath]
        exact (hkept₂ _ (.inr rfl)).backups q hq content hcontent
      · refine ⟨hkept₂.of_same hfiles₃ hmoments₃, fun _ ↦ .inr ⟨backup, hisBackup, hfree', ?_, ?_⟩⟩
        · rw [hfiles₃]
          exact hback
        · intro i hi
          have hfault := hall i hi
          rwa [hzero₂, Nat.zero_add] at hfault
  · refine ⟨_, w₁, rfl, hkept.of_same hfiles₁ hmoments₁, fun _ ↦ .inl ?_⟩
    rw [hfiles₁]
    exact hfile

/-- Without a backup: the original is gone if it could be deleted, and the output could not be
renamed. -/
theorem replaceOriginal_delete (faults : Faults Path) (h : Untouched (Spared path) before w)
    (horiginal : before.lookup path = some original)
    (houtput : w.files.lookup (tempPath path) = some output)
    (hpassed : job.Passed codec path before original output) :
    ∃ r w', replaceOriginal faults path (tempPath path) false w = .ok r w' ∧
      AlwaysKept codec path before original job w' ∧
      ((∃ e, r = .error e) ∧ w'.files.lookup path = none ∧ faults (.delete path) 0 = none ∧
          (∀ i < 5, faults (.rename (tempPath path) path) i ≠ none) ∨
        ((∃ e, r = .error e) → w'.files.lookup path = some original) ∧
          (faults (.delete path) 0 ≠ none ∨
            ∃ i < 5, faults (.rename (tempPath path) path) i = none)) := by
  have hfile : w.files.lookup path = some original :=
    (h.files path (spared_path path)).trans horiginal
  have hkept : AlwaysKept codec path before original job w :=
    alwaysKept_of_untouched h horiginal
  have hzero : ∀ op, op.Touches path → w.attempts op = 0 :=
    fun op ↦ h.attempts op path (spared_path path)
  have holder : ∀ q, IsBackup path q → ∀ content, before.lookup q = some content →
      w.files.lookup q = some content := fun q hq content hcontent ↦
    (h.files q (spared_backup hq)).trans hcontent
  have hdelete : w.attempts (.delete path) = 0 := hzero _ rfl
  rw [replaceOriginal]
  simp only [Bool.false_eq_true, if_false]
  cases hfault : faults (.delete path) 0 with
  | some e =>
    rw [bind_apply, delete_of_fault (hdelete ▸ hfault)]
    exact ⟨_, _, rfl, hkept.of_same rfl rfl, .inr ⟨fun _ ↦ hfile, .inl fun h ↦ by cases h⟩⟩
  | none =>
    rw [bind_apply, delete_of_ok (hdelete ▸ hfault) hfile]
    obtain ⟨w₁, hw₁⟩ : ∃ w₁ : World Path Bytes, w₁ = ⟨w.files.erase path, Function.update w.attempts
        (.delete path) (w.attempts (.delete path) + 1), w.moments ++ [w.files.erase path]⟩ := ⟨_, rfl⟩
    have hfiles₁ : w₁.files = w.files.erase path := by rw [hw₁]
    have htemp₁ : w₁.files.lookup (tempPath path) = some output := by
      rw [hfiles₁, AList.lookup_erase_ne (tempPath_ne path)]
      exact houtput
    have hzero₁ : w₁.attempts (.rename (tempPath path) path) = 0 := by
      have hother : Op.rename (tempPath path) path ≠ Op.delete path := fun h ↦ by cases h
      rw [hw₁]
      show Function.update w.attempts (.delete path) (w.attempts (.delete path) + 1)
        (.rename (tempPath path) path) = 0
      rw [Function.update_of_ne hother]
      exact hzero (.rename (tempPath path) path) (.inr rfl)
    have hkept₁ : AlwaysKept codec path before original job w₁ := by
      refine hkept.append (by rw [hw₁]) ⟨⟨tempPath path, output, .inr (.inr rfl), htemp₁,
        .inr hpassed⟩, fun q hq content hcontent ↦ ?_⟩
      rw [hfiles₁, AList.lookup_erase_ne (backup_ne_path hq)]
      exact holder q hq content hcontent
    obtain ⟨r₂, w₂, hrun₂, -, hcases₂⟩ :=
      renameWithRetry_spec faults path htemp₁
    dsimp only
    rw [← hw₁, hrun₂]
    rw [hzero₁] at hcases₂
    simp only [Nat.zero_add] at hcases₂
    refine ⟨r₂, w₂, rfl, ?_⟩
    rcases hcases₂ with ⟨hone, rfl, hfiles₂, hmoments₂⟩ | ⟨hall, he, hfiles₂, hmoments₂⟩
    · refine ⟨hkept₁.append hmoments₂ ⟨⟨path, output, .inl rfl, ?_, .inr hpassed⟩, ?_⟩,
        .inr ⟨?_, .inr hone⟩⟩
      · rw [hfiles₂, lookup_renamed_target]
      · intro q hq content hcontent
        rw [hfiles₂, lookup_renamed (spared_backup hq).1 (backup_ne_path hq)]
        exact (hkept₁ _ (.inr rfl)).backups q hq content hcontent
      · rintro ⟨e, h⟩
        cases h
    · refine ⟨hkept₁.of_same hfiles₂ hmoments₂, .inl ⟨he, ?_, rfl, hall⟩⟩
      rw [hfiles₂, hfiles₁, AList.lookup_erase]

end

/-! ## The whole conversion -/

/-- The temporary file is removed after a failure: the original and its backups stay. -/
theorem kept_of_erase {files : Files Path Bytes} {q : Path}
    (h : Kept codec path before original job files) (hq : q ≠ tempPath path)
    (hplace : q = path ∨ IsBackup path q) (hlookup : files.lookup q = some original) :
    Kept codec path before original job (files.erase (tempPath path)) := by
  refine ⟨⟨q, original, hplace.imp_right .inl, ?_, .inl rfl⟩, fun b hb content hcontent ↦ ?_⟩
  · rw [AList.lookup_erase_ne hq]
    exact hlookup
  · rw [AList.lookup_erase_ne (spared_backup hb).1]
    exact h.backups b hb content hcontent

/-- **A conversion loses nothing exactly when it does not get stuck**: with backups it never does;
without, it does if it gets as far as to delete the original, and cannot rename the output. -/
theorem run_losesNothing_iff {files : Files Path Bytes} {original : Bytes}
    (hfile : files.lookup path = some original) (job : Job) (keepBackup : Bool) :
    LosesNothing codec faults path files original keepBackup job
        (job.run codec faults path keepBackup (World.start files)) ↔
      keepBackup = true ∨
        (∃ e w, job.toTemp codec faults path (World.start files) = .error e w) ∨
        faults (.delete path) 0 ≠ none ∨
        ∃ i < 5, faults (.rename (tempPath path) path) i = none := by
  have hstart : Untouched (Spared path) files (World.start files) := untouched_start _ _
  have htotal : Total (Untouched (Spared path) files) (fun _ ↦ job.toTemp codec faults path) _ _ :=
    total_toTemp hfile job
  rw [Job.run, bind_apply]
  cases hprepare : job.toTemp codec faults path (World.start files) with
  | abort =>
    obtain ⟨n, hn⟩ := htotal.ends _ hstart
    exact (hn hprepare).elim
  | error e w =>
    have huntouched := (htotal.triple 0).error hstart hprepare
    refine ⟨fun _ ↦ .inr (.inl ⟨e, w, rfl⟩), fun _ ↦ ?_⟩
    exact ⟨alwaysKept_of_untouched huntouched hfile,
      .inl ((huntouched.files path (spared_path path)).trans hfile)⟩
  | ok converted w =>
    obtain ⟨huntouched, output, houtput, hpassed⟩ := (htotal.triple 0).ok hstart hprepare
    dsimp only
    rw [bind_apply]
    -- after a failure the temporary file is removed, which leaves the original where it is
    have herased : ∀ {w₁ : World Path Bytes}, AlwaysKept codec path files original job w₁ →
        ∀ q, q ≠ tempPath path → (q = path ∨ IsBackup path q) →
        w₁.files.lookup q = some original → ∀ {w₂ : World Path Bytes},
        ((w₂.files = w₁.files ∧ w₂.moments = w₁.moments) ∨
          (w₂.files = w₁.files.erase (tempPath path) ∧ w₂.moments = w₁.moments ++ [w₂.files])) →
        AlwaysKept codec path files original job w₂ ∧ w₂.files.lookup q = some original := by
      intro w₁ hkept q hq hplace hlookup w₂ hcases
      rcases hcases with ⟨hfiles, hmoments⟩ | ⟨hfiles, hmoments⟩
      · exact ⟨hkept.of_same hfiles hmoments, by rw [hfiles]; exact hlookup⟩
      · refine ⟨hkept.append hmoments ?_, ?_⟩
        · rw [hfiles]
          exact kept_of_erase (hkept _ (.inr rfl)) hq hplace hlookup
        · rw [hfiles, AList.lookup_erase_ne hq]
          exact hlookup
    cases keepBackup with
    | true =>
      refine ⟨fun _ ↦ .inl rfl, fun _ ↦ ?_⟩
      obtain ⟨r, w₁, hrun, hkept, hcases⟩ :=
        replaceOriginal_backup faults huntouched hfile houtput hpassed
      rw [hrun]
      cases r with
      | ok u => exact hkept
      | error message =>
        obtain ⟨w₂, hdelete, hfiles₂⟩ := ignore_delete_spec faults (tempPath path) w₁
        dsimp only
        rw [bind_apply, hdelete]
        rcases hcases ⟨message, rfl⟩ with hlookup | ⟨q, hq, hfree, hlookup, hall⟩
        · obtain ⟨hkept₂, hlookup₂⟩ := herased hkept path (tempPath_ne path).symm (.inl rfl)
            hlookup hfiles₂
          exact ⟨hkept₂, .inl hlookup₂⟩
        · obtain ⟨hkept₂, hlookup₂⟩ := herased hkept q (spared_backup hq).1 (.inr hq) hlookup hfiles₂
          exact ⟨hkept₂, .inr ⟨rfl, q, hq, hfree, hlookup₂, hall⟩⟩
    | false =>
      obtain ⟨r, w₁, hrun, hkept, hcases⟩ :=
        replaceOriginal_delete faults huntouched hfile houtput hpassed
      rw [hrun]
      rcases hcases with ⟨⟨message, rfl⟩, hgone, hdeleted, hall⟩ | ⟨hlookup, hwhy⟩
      · -- the original has been deleted, and the output is deleted too
        obtain ⟨w₂, hdelete, hfiles₂⟩ := ignore_delete_spec faults (tempPath path) w₁
        dsimp only
        rw [bind_apply, hdelete]
        have hgone₂ : w₂.files.lookup path = none := by
          rcases hfiles₂ with ⟨hfiles, -⟩ | ⟨hfiles, -⟩
          · rw [hfiles]
            exact hgone
          · rw [hfiles, AList.lookup_erase_ne (tempPath_ne path).symm]
            exact hgone
        constructor
        · rintro ⟨-, hlookup | ⟨h, -⟩⟩
          · rw [hgone₂] at hlookup
            cases hlookup
          · cases h
        · rintro (h | ⟨e, w', h⟩ | h | ⟨i, hi, h⟩)
          · cases h
          · cases h
          · exact (h hdeleted).elim
          · exact (hall i hi h).elim
      · refine ⟨fun _ ↦ .inr (.inr hwhy), fun _ ↦ ?_⟩
        cases r with
        | ok u => exact hkept
        | error message =>
          obtain ⟨w₂, hdelete, hfiles₂⟩ := ignore_delete_spec faults (tempPath path) w₁
          dsimp only
          rw [bind_apply, hdelete]
          obtain ⟨hkept₂, hlookup₂⟩ := herased hkept path (tempPath_ne path).symm (.inl rfl)
            (hlookup ⟨message, rfl⟩) hfiles₂
          exact ⟨hkept₂, .inl hlookup₂⟩

/-! ## A format of one byte -/

/-- Every replay is converted to one byte, and every output is good. -/
def oneByte : Codec Unit where
  openSource _ _ := .ok ()
  reencode _ := [.write fun _ ↦ [1]]
  compare _ _ _ := []
  legacyImport _ _ := ⟨[], [], [], [], [], [], 0⟩
  totalFrames _ := .ok 0

/-- A replay by itself. -/
def aReplay : Path := ⟨"", ['a', '.', 'r', 'e', 'p', 'l', 'a', 'y']⟩

/-- A disk on which a file is held back from being renamed to the replay. -/
def busy : Faults Path := fun op _ ↦
  match op with
  | .rename _ target => if target = aReplay then some "busy" else none
  | _ => none

theorem run_losesNothing_iff_aReplay :
    LosesNothing oneByte busy aReplay (AList.singleton aReplay [0]) [0] true (.convert none)
        ((Job.convert none).run oneByte busy aReplay true
          (World.start (AList.singleton aReplay [0]))) ↔
      true = true ∨
        (∃ e w, (Job.convert none).toTemp oneByte busy aReplay
          (World.start (AList.singleton aReplay [0])) = .error e w) ∨
        busy (.delete aReplay) 0 ≠ none ∨
        ∃ i < 5, busy (.rename (tempPath aReplay) aReplay) i = none :=
  run_losesNothing_iff (AList.lookup_insert (AList.singleton aReplay [0])) (.convert none) true

/-- Without a backup, the replay and its conversion are both lost. -/
theorem run_loses_both :
    (∃ e w, (Job.convert none).run oneByte busy aReplay false
      (World.start (AList.singleton aReplay [0])) = .error e w ∧ w.files.keys = []) ∧
    ¬ LosesNothing oneByte busy aReplay (AList.singleton aReplay [0]) [0] false (.convert none)
        ((Job.convert none).run oneByte busy aReplay false
          (World.start (AList.singleton aReplay [0]))) := by
  have hrun : ∃ e w, (Job.convert none).run oneByte busy aReplay false
      (World.start (AList.singleton aReplay [0])) = .error e w ∧ w.files.keys = [] :=
    ⟨_, _, rfl, rfl⟩
  refine ⟨hrun, ?_⟩
  obtain ⟨e, w, hrun, hkeys⟩ := hrun
  rw [hrun]
  rintro ⟨-, hlookup | ⟨h, -⟩⟩
  · have hmem : aReplay ∈ w.files := AList.lookup_isSome.mp (by rw [hlookup]; rfl)
    rw [AList.mem_keys, hkeys] at hmem
    cases hmem
  · cases h

end SuperShuckie.Convert
