import SuperShuckie.Lib.Fuel

/-!
# Files, and what can fail

A `World` is the files there are, by their paths.  Every operation on them is an attempt that may
fail: `Faults` says which do, by the operation and by how often it has been attempted before.  A
failed operation changes nothing.  The world remembers all its moments, so that a property can be
stated of every one of them.

`Untouched S before` is what is left to say about a program part that only touches paths outside of
`S`: the files in `S` are what they were before, at every moment.
-/

set_option autoImplicit false

namespace Disk

variable {P B ε α : Type}

/-- Something that is attempted. -/
inductive Op (P : Type)
  | read (path : P)
  | create (path : P)
  | write (path : P)
  | sync (path : P)
  | delete (path : P)
  | rename (source target : P)
  /-- Go on with the work: it fails once the work has been cancelled. -/
  | proceed
deriving DecidableEq

/-- The error with which an operation fails at its attempts, if it does. -/
abbrev Faults (P : Type) := Op P → Nat → Option String

abbrev Files (P B : Type) := AList fun _ : P ↦ B

structure World (P B : Type) where
  files : Files P B
  attempts : Op P → Nat
  /-- All that the files have been, up to now. -/
  moments : List (Files P B)

/-- A world in which nothing has been attempted yet. -/
def World.start (files : Files P B) : World P B := ⟨files, fun _ ↦ 0, [files]⟩

/-- Whether an operation may change what is at a path. -/
def Op.Touches : Op P → P → Prop
  | .create path, q | .write path, q | .delete path, q => path = q
  | .rename source target, q => source = q ∨ target = q
  | .read _, _ | .sync _, _ | .proceed, _ => False

/-! ## Operations -/

section

variable [DecidableEq P] (faults : Faults P)

/-- Attempt an operation, which has an effect on the files unless it fails. -/
def perform (op : Op P) (effect : Files P B → Except String (α × Files P B)) :
    Act ε (World P B) (Except String α) := do
  let w ← Act.get
  Act.modify fun w ↦ { w with attempts := Function.update w.attempts op (w.attempts op + 1) }
  match faults op (w.attempts op), effect w.files with
  | some e, _ => pure (.error e)
  | none, .error e => pure (.error e)
  | none, .ok (a, files) =>
    Act.modify fun w ↦ { w with files, moments := w.moments ++ [files] }
    pure (.ok a)

def notFound : String := "No such file or directory"

def read (path : P) : Act ε (World P B) (Except String B) :=
  perform faults (.read path) fun files ↦
    match files.lookup path with
    | some content => .ok (content, files)
    | none => .error notFound

/-- Create a file, or empty it. -/
def create (path : P) (empty : B) : Act ε (World P B) (Except String Unit) :=
  perform faults (.create path) fun files ↦ .ok ((), files.insert path empty)

def write (path : P) (edit : B → B) : Act ε (World P B) (Except String Unit) :=
  perform faults (.write path) fun files ↦
    match files.lookup path with
    | some content => .ok ((), files.insert path (edit content))
    | none => .error notFound

def sync (path : P) : Act ε (World P B) (Except String Unit) :=
  perform faults (.sync path) fun files ↦ .ok ((), files)

def delete (path : P) : Act ε (World P B) (Except String Unit) :=
  perform faults (.delete path) fun files ↦
    match files.lookup path with
    | some _ => .ok ((), files.erase path)
    | none => .error notFound

/-- Rename a file, over one that may be there. -/
def rename (source target : P) : Act ε (World P B) (Except String Unit) :=
  perform faults (.rename source target) fun files ↦
    match files.lookup source with
    | some content => .ok ((), (files.erase source).insert target content)
    | none => .error notFound

def proceed : Act ε (World P B) (Except String Unit) :=
  perform faults .proceed fun files ↦ .ok ((), files)

end

/-! ## What an attempt does -/

section

variable [DecidableEq P] {faults : Faults P} {op : Op P}
  {effect : Files P B → Except String (α × Files P B)} {w : World P B}

theorem perform_of_fault {e : String} (h : faults op (w.attempts op) = some e) :
    (perform faults op effect : Act ε _ _) w = .ok (.error e)
      { w with attempts := Function.update w.attempts op (w.attempts op + 1) } := by
  rw [perform, Act.get_bind_apply, Act.modify_bind_apply, h]
  rfl

theorem perform_of_error {e : String} (h : faults op (w.attempts op) = none)
    (heffect : effect w.files = .error e) :
    (perform faults op effect : Act ε _ _) w = .ok (.error e)
      { w with attempts := Function.update w.attempts op (w.attempts op + 1) } := by
  rw [perform, Act.get_bind_apply, Act.modify_bind_apply, h, heffect]
  rfl

theorem perform_of_ok {a : α} {files : Files P B} (h : faults op (w.attempts op) = none)
    (heffect : effect w.files = .ok (a, files)) :
    (perform faults op effect : Act ε _ _) w = .ok (.ok a)
      ⟨files, Function.update w.attempts op (w.attempts op + 1), w.moments ++ [files]⟩ := by
  rw [perform, Act.get_bind_apply, Act.modify_bind_apply, h, heffect]
  rfl

/-- An attempt never ends the program, and leaves what it is not about. -/
theorem perform_spec (ε : Type) (faults : Faults P) (op : Op P)
    (effect : Files P B → Except String (α × Files P B)) (w : World P B) :
    ∃ r w', (perform faults op effect : Act ε _ _) w = .ok r w' ∧
      (∀ op', op' ≠ op → w'.attempts op' = w.attempts op') ∧
      ((∃ e, r = .error e ∧ w'.files = w.files ∧ w'.moments = w.moments) ∨
        ∃ a files, r = .ok a ∧ faults op (w.attempts op) = none ∧
          effect w.files = .ok (a, files) ∧ w'.files = files ∧
          w'.moments = w.moments ++ [files]) := by
  have hother : ∀ op', op' ≠ op →
      Function.update w.attempts op (w.attempts op + 1) op' = w.attempts op' :=
    fun op' h ↦ Function.update_of_ne h _ _
  cases hfault : faults op (w.attempts op) with
  | some e => exact ⟨_, _, perform_of_fault hfault, hother, .inl ⟨e, rfl, rfl, rfl⟩⟩
  | none =>
    cases heffect : effect w.files with
    | error e => exact ⟨_, _, perform_of_error hfault heffect, hother, .inl ⟨e, rfl, rfl, rfl⟩⟩
    | ok result =>
      obtain ⟨a, files⟩ := result
      exact ⟨_, _, perform_of_ok hfault heffect, hother, .inr ⟨a, files, rfl, rfl, rfl, rfl, rfl⟩⟩

end

section

variable [DecidableEq P] {faults : Faults P} {w : World P B} {content : B}

theorem rename_of_fault {source target : P} {e : String}
    (h : faults (.rename source target) (w.attempts (.rename source target)) = some e) :
    (rename faults source target : Act ε _ _) w = .ok (.error e)
      ⟨w.files, Function.update w.attempts (.rename source target)
        (w.attempts (.rename source target) + 1), w.moments⟩ := perform_of_fault h

theorem rename_of_ok {source target : P}
    (h : faults (.rename source target) (w.attempts (.rename source target)) = none)
    (hsource : w.files.lookup source = some content) :
    (rename faults source target : Act ε _ _) w = .ok (.ok ())
      ⟨(w.files.erase source).insert target content, Function.update w.attempts
        (.rename source target) (w.attempts (.rename source target) + 1),
        w.moments ++ [(w.files.erase source).insert target content]⟩ :=
  perform_of_ok h (by rw [hsource])

theorem delete_of_fault {path : P} {e : String}
    (h : faults (.delete path) (w.attempts (.delete path)) = some e) :
    (delete faults path : Act ε _ _) w = .ok (.error e)
      ⟨w.files, Function.update w.attempts (.delete path) (w.attempts (.delete path) + 1),
        w.moments⟩ := perform_of_fault h

theorem delete_of_ok {path : P} (h : faults (.delete path) (w.attempts (.delete path)) = none)
    (hpath : w.files.lookup path = some content) : (delete faults path : Act ε _ _) w = .ok (.ok ())
      ⟨w.files.erase path, Function.update w.attempts (.delete path)
        (w.attempts (.delete path) + 1), w.moments ++ [w.files.erase path]⟩ :=
  perform_of_ok h (by rw [hpath])

/-- A deletion may leave the file where it is, but does nothing else. -/
theorem delete_spec (ε : Type) (faults : Faults P) (path : P) (w : World P B) :
    ∃ r w', (delete faults path : Act ε _ _) w = .ok r w' ∧
      ((w'.files = w.files ∧ w'.moments = w.moments) ∨
        (w'.files = w.files.erase path ∧ w'.moments = w.moments ++ [w'.files])) := by
  cases hfault : faults (.delete path) (w.attempts (.delete path)) with
  | some e => exact ⟨_, _, delete_of_fault hfault, .inl ⟨rfl, rfl⟩⟩
  | none =>
    cases hpath : w.files.lookup path with
    | none => exact ⟨_, _, perform_of_error hfault (by rw [hpath]), .inl ⟨rfl, rfl⟩⟩
    | some content => exact ⟨_, _, delete_of_ok hfault hpath, .inr ⟨rfl, rfl⟩⟩

end

/-! ## Files that are left alone -/

/-- The files in `S` are as they were before, at every moment, and nothing that would touch them has
been attempted. -/
structure Untouched [DecidableEq P] (S : P → Prop) (before : Files P B) (w : World P B) : Prop where
  files : ∀ q, S q → w.files.lookup q = before.lookup q
  moments : ∀ files ∈ w.moments, ∀ q, S q → files.lookup q = before.lookup q
  attempts : ∀ op q, S q → op.Touches q → w.attempts op = 0

section

variable [DecidableEq P] {faults : Faults P} {S : P → Prop} {before : Files P B}
  {R : Files P B → Prop} {F : ε → World P B → Prop}

theorem untouched_start (S : P → Prop) (files : Files P B) :
    Untouched S files (World.start files) :=
  ⟨fun _ _ ↦ rfl, fun _ h _ _ ↦ by rw [List.mem_singleton.mp h], fun _ _ _ _ ↦ rfl⟩

/-- An operation that touches nothing in `S`. -/
theorem total_perform {op : Op P} {effect : Files P B → Except String (α × Files P B)}
    {Q : Except String α → Files P B → Prop} (hop : ∀ q, S q → ¬ op.Touches q)
    (heffect : ∀ files a files', effect files = .ok (a, files') → ∀ q, S q →
      files'.lookup q = files.lookup q) (herror : ∀ e files, R files → Q (.error e) files)
    (hok : ∀ files a files', R files → effect files = .ok (a, files') → Q (.ok a) files') :
    Act.Total (fun w ↦ Untouched S before w ∧ R w.files) (fun _ ↦ perform faults op effect)
      (fun r w ↦ Untouched S before w ∧ Q r w.files) F := by
  refine .const fun w h ↦ ?_
  obtain ⟨huntouched, hR⟩ := h
  obtain ⟨r, w', hrun, hattempts, hcases⟩ := perform_spec ε faults op effect w
  rw [hrun]
  have hzero : ∀ op' q, S q → op'.Touches q → w'.attempts op' = 0 := by
    intro op' q hq htouches
    have hne : op' ≠ op := fun h ↦ hop q hq (h ▸ htouches)
    rw [hattempts op' hne]
    exact huntouched.attempts op' q hq htouches
  rcases hcases with ⟨e, rfl, hfiles, hmoments⟩ | ⟨a, files, rfl, -, hrun, hfiles, hmoments⟩
  · refine ⟨⟨?_, ?_, hzero⟩, hfiles ▸ herror e _ hR⟩
    · rw [hfiles]
      exact huntouched.files
    · rw [hmoments]
      exact huntouched.moments
  · have hsame : ∀ q, S q → files.lookup q = before.lookup q := fun q hq ↦
      (heffect _ _ _ hrun q hq).trans (huntouched.files q hq)
    refine ⟨⟨?_, ?_, hzero⟩, hfiles ▸ hok _ _ _ hR hrun⟩
    · rw [hfiles]
      exact hsame
    · rw [hmoments]
      intro files' hmem
      rcases List.mem_append.mp hmem with hmem | hmem
      · exact huntouched.moments files' hmem
      · rw [List.mem_singleton.mp hmem]
        exact hsame

/-- An operation on files outside of `S`. -/
theorem total_outside {op : Op P} {effect : Files P B → Except String (α × Files P B)}
    (hop : ∀ q, S q → ¬ op.Touches q)
    (heffect : ∀ files a files', effect files = .ok (a, files') → ∀ q, S q →
      files'.lookup q = files.lookup q) :
    Act.Total (Untouched S before) (fun _ ↦ perform faults op effect)
      (fun _ ↦ Untouched S before) F :=
  (total_perform (R := fun _ ↦ True) (Q := fun _ _ ↦ True) hop heffect (fun _ _ _ ↦ trivial)
    fun _ _ _ _ _ ↦ trivial).conseq (fun _ hw ↦ ⟨hw, trivial⟩) (fun _ _ hw ↦ hw.1) fun _ _ h ↦ h

/-- What has been read is there. -/
theorem total_read (path : P) :
    Act.Total (fun w ↦ Untouched S before w ∧ R w.files) (fun _ ↦ read faults path)
      (fun r w ↦ Untouched S before w ∧ R w.files ∧ ∀ b, r = .ok b → w.files.lookup path = some b)
      F := by
  have hread : ∀ (files : Files P B) a files', (match files.lookup path with
      | some content => Except.ok (content, files)
      | none => .error notFound) = .ok (a, files') →
      files' = files ∧ files.lookup path = some a := by
    intro files a files' h
    cases hlookup : files.lookup path with
    | none =>
      rw [hlookup] at h
      cases h
    | some content =>
      rw [hlookup] at h
      cases h
      exact ⟨rfl, rfl⟩
  refine total_perform (Q := fun r files ↦ R files ∧ ∀ b, r = .ok b → files.lookup path = some b)
    ?_ ?_ ?_ ?_
  · exact fun q _ h ↦ h
  · intro files a files' h q _
    rw [(hread _ _ _ h).1]
  · exact fun e files hR ↦ ⟨hR, fun b h ↦ by cases h⟩
  · intro files a files' hR h
    obtain ⟨rfl, hlookup⟩ := hread files a files' h
    exact ⟨hR, fun b hb ↦ Except.ok.inj hb ▸ hlookup⟩

theorem total_sync (path : P) :
    Act.Total (fun w ↦ Untouched S before w ∧ R w.files) (fun _ ↦ sync faults path)
      (fun _ w ↦ Untouched S before w ∧ R w.files) F := by
  refine total_perform (Q := fun _ ↦ R) ?_ ?_ (fun _ _ hR ↦ hR) ?_
  · exact fun q _ h ↦ h
  · intro files a files' h q _
    cases h
    rfl
  · intro files a files' hR h
    cases h
    exact hR

theorem total_proceed :
    Act.Total (fun w ↦ Untouched S before w ∧ R w.files) (fun _ ↦ proceed faults)
      (fun _ w ↦ Untouched S before w ∧ R w.files) F := by
  refine total_perform (Q := fun _ ↦ R) ?_ ?_ (fun _ _ hR ↦ hR) ?_
  · exact fun q _ h ↦ h
  · intro files a files' h q _
    cases h
    rfl
  · intro files a files' hR h
    cases h
    exact hR

/-- Outside of `S` anything may be done. -/
theorem total_create {path : P} (h : ¬ S path) (empty : B) :
    Act.Total (Untouched S before) (fun _ ↦ create faults path empty)
      (fun _ ↦ Untouched S before) F := by
  refine total_outside ?_ ?_
  · rintro q hq rfl
    exact h hq
  · intro files a files' heffect q hq
    cases heffect
    refine AList.lookup_insert_ne ?_
    rintro rfl
    exact h hq

theorem total_write {path : P} (h : ¬ S path) (edit : B → B) :
    Act.Total (Untouched S before) (fun _ ↦ write faults path edit)
      (fun _ ↦ Untouched S before) F := by
  refine total_outside ?_ ?_
  · rintro q hq rfl
    exact h hq
  · intro files a files' heffect q hq
    cases hlookup : files.lookup path with
    | none =>
      rw [hlookup] at heffect
      cases heffect
    | some content =>
      rw [hlookup] at heffect
      cases heffect
      refine AList.lookup_insert_ne ?_
      rintro rfl
      exact h hq

theorem total_delete {path : P} (h : ¬ S path) :
    Act.Total (Untouched S before) (fun _ ↦ delete faults path)
      (fun _ ↦ Untouched S before) F := by
  refine total_outside ?_ ?_
  · rintro q hq rfl
    exact h hq
  · intro files a files' heffect q hq
    cases hlookup : files.lookup path with
    | none =>
      rw [hlookup] at heffect
      cases heffect
    | some content =>
      rw [hlookup] at heffect
      cases heffect
      refine AList.lookup_erase_ne ?_
      rintro rfl
      exact h hq

theorem total_rename {source target : P} (hsource : ¬ S source) (htarget : ¬ S target) :
    Act.Total (Untouched S before) (fun _ ↦ rename faults source target)
      (fun _ ↦ Untouched S before) F := by
  refine total_outside ?_ ?_
  · rintro q hq (rfl | rfl)
    · exact hsource hq
    · exact htarget hq
  · intro files a files' heffect q hq
    cases hlookup : files.lookup source with
    | none =>
      rw [hlookup] at heffect
      cases heffect
    | some content =>
      rw [hlookup] at heffect
      cases heffect
      have hne : q ≠ source := fun heq ↦ hsource (heq ▸ hq)
      have hne' : q ≠ target := fun heq ↦ htarget (heq ▸ hq)
      rw [AList.lookup_insert_ne hne', AList.lookup_erase_ne hne]

end

end Disk
