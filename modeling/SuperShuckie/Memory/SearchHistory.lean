import SuperShuckie.Lib.Timeline
import SuperShuckie.Memory.Search

/-!
# Undoing scans

A `Session` is a search with the scans that led to its candidates and those undone.  The states on
the two stacks of the search lie behind and ahead of its candidates on a line of states, each the
scan of the one before (`Session.Sound`), so that the steps count the scans behind the candidates.

Undoing a scan puts back the candidates and the steps, and redoing it everything that can be
observed; which of the older steps can still be undone is up to the limits of the history.
-/

set_option autoImplicit false

namespace SuperShuckie.RamSearch

open ByteFormat Fallible Timelines

variable {F : Type} (floats : Floats F)

/-- A scan asked of a search. -/
structure Scan (F : Type) where
  comparison : Comparison F
  snapshot : MemorySnapshot
  control : ScanControl

/-- What a search can be asked. -/
inductive Call (F : Type) where
  | refine (scan : Scan F)
  | undo
  | redo

/-- Everything that can be observed of a search. -/
structure Observed where
  count : Nat
  results : Nat → Nat → Option (List SearchRow)
  steps : Nat
  lastScan : Nat × Nat
  canUndo : Bool
  canRedo : Bool

def Search.observed (search : Search F) : Observed :=
  ⟨search.count, search.results, search.steps, search.lastScan, search.canUndo, search.canRedo⟩

/-- The candidates a scan makes of some, if it succeeds. -/
def scanned (settings : SearchSettings F) (candidates : Candidates) (scan : Scan F) :
    Option Candidates :=
  match (RamSearch.scan floats settings scan.comparison scan.snapshot scan.control candidates).run with
  | some (.ok next) => maybeMakeSparse settings.format.size settings.step next
  | _ => none

/-- The candidates that scans make of some, one after the other. -/
def rescan (settings : SearchSettings F) (scans : List (Scan F)) (candidates : Candidates) :
    Option Candidates :=
  scans.foldlM (scanned floats settings) candidates

/-! ## Sessions -/

/-- A search with the scans that led to its candidates, and those undone, the nearest first. -/
structure Session (F : Type) where
  search : Search F
  done : List (Scan F) := []
  undone : List (Scan F) := []

/-- One call; `none` is a panic. -/
def Session.exec (s : Session F) : Call F → Option (Session F)
  | .refine scan =>
    match s.search.refine floats scan.comparison scan.snapshot scan.control with
    | none => none
    | some (search, .ok ()) => some ⟨search, s.done ++ [scan], []⟩
    | some (search, .error _) => some { s with search }
  | .undo =>
    match s.search.undo with
    | none => none
    | some (search, true) => some ⟨search, s.done.dropLast, s.done.getLast?.toList ++ s.undone⟩
    | some (search, false) => some { s with search }
  | .redo =>
    match s.search.redoScan with
    | none => none
    | some (search, true) => some ⟨search, s.done ++ s.undone.head?.toList, s.undone.tail⟩
    | some (search, false) => some { s with search }

/-- Calls in order. -/
def Session.run (calls : List (Call F)) (s : Session F) : Option (Session F) :=
  calls.foldlM (Session.exec floats) s

/-- **The candidates and the states on the stacks lie on one line**, whose scans are those done and
undone: the line reaches back to the first candidates, the history as far as it was kept. -/
structure Session.Sound (settings : SearchSettings F) (start : Candidates) (s : Session F) :
    Prop where
  settings_eq : s.search.settings = settings
  behind : ∃ past,
    Linked (fun scan c c' ↦ scanned floats settings c' scan = some c) s.done.reverse
      s.search.candidates past ∧
    (s.search.candidates :: past).getLast? = some start ∧ s.search.history.reverse <+: past
  ahead : Linked (fun scan c c' ↦ scanned floats settings c scan = some c') s.undone
    s.search.candidates s.search.redo.reverse
  steps_eq : s.search.steps = s.done.length + 1

variable {floats} {settings : SearchSettings F} {start candidates : Candidates} {s s' : Session F}
  {search search' back : Search F} {scan : Scan F} {comparison : Comparison F}
  {snapshot : MemorySnapshot} {control : ScanControl} {calls : List (Call F)}

theorem trimHistory_suffix (history : List Candidates) : trimHistory history <:+ history := by
  induction history with
  | nil => exact List.suffix_rfl
  | cons oldest history ih =>
    rw [trimHistory]
    split_ifs
    · exact List.suffix_rfl
    · exact ih.trans (List.suffix_cons oldest history)

/-- The search after a scan that succeeds. -/
theorem refine_ok (h : search.refine floats comparison snapshot control = some (search', .ok ())) :
    ∃ next,
      scanned floats search.settings search.candidates ⟨comparison, snapshot, control⟩ = some next ∧
      search.steps + 1 < 2 ^ 32 ∧
      search' = { search with
        candidates := next
        history := trimHistory (search.history ++ [search.candidates])
        redo := []
        steps := search.steps + 1
        lastFrame := snapshot.frame
        lastEpoch := snapshot.epoch } := by
  rw [Search.refine] at h
  split at h
  · cases h
  · cases h
  · rename_i next hscan
    split_ifs at h with hsteps
    simp only [Option.bind_eq_bind, Option.bind_eq_some_iff, Option.pure_def, Option.some.injEq,
      Prod.mk.injEq, and_true] at h
    obtain ⟨candidates, hsparse, rfl⟩ := h
    refine ⟨candidates, ?_, hsteps, rfl⟩
    rw [scanned, hscan]
    exact hsparse

/-- **A scan that fails leaves the search as it was.** -/
theorem refine_error {e : SearchError}
    (h : search.refine floats comparison snapshot control = some (search', .error e)) :
    search' = search := by
  rw [Search.refine] at h
  split at h
  · cases h
  · cases h
    rfl
  · split_ifs at h
    simp only [Option.bind_eq_bind, Option.bind_eq_some_iff, Option.pure_def, Option.some.injEq,
      Prod.mk.injEq, reduceCtorEq, and_false, exists_false] at h

/-- Going back takes the newest state of the history. -/
theorem undo_true (h : search.undo = some (search', true)) :
    ∃ previous history, search.history = history ++ [previous] ∧ search.steps ≠ 0 ∧
      search' = { search with
        candidates := previous
        history := history
        redo := search.redo ++ [search.candidates]
        steps := search.steps - 1 } := by
  rw [Search.undo] at h
  split at h
  · cases h
  · rename_i previous hlast
    split_ifs at h with hsteps
    cases h
    exact ⟨previous, _, (List.dropLast_append_getLast? _ hlast).symm, hsteps, rfl⟩

theorem undo_false (h : search.undo = some (search', false)) : search' = search := by
  rw [Search.undo] at h
  split at h
  · cases h
    rfl
  · split_ifs at h
    cases h

/-- Going forward takes the state undone last. -/
theorem redoScan_true (h : search.redoScan = some (search', true)) :
    ∃ next redo, search.redo = redo ++ [next] ∧
      search' = { search with
        candidates := next
        history := search.history ++ [search.candidates]
        redo := redo
        steps := search.steps + 1 } := by
  rw [Search.redoScan] at h
  split at h
  · cases h
  · rename_i next hlast
    split_ifs at h
    cases h
    exact ⟨next, _, (List.dropLast_append_getLast? _ hlast).symm, rfl⟩

theorem redoScan_false (h : search.redoScan = some (search', false)) : search' = search := by
  rw [Search.redoScan] at h
  split at h
  · cases h
    rfl
  · split_ifs at h
    cases h

namespace Session.Sound

section

variable (h : s.Sound floats settings start)
include h

/-- A scan puts its candidates ahead of all others. -/
theorem refine (hrefine : s.search.refine floats scan.comparison scan.snapshot scan.control =
      some (search', .ok ())) : Sound floats settings start ⟨search', s.done ++ [scan], []⟩ := by
  obtain ⟨next, hnext, -, rfl⟩ := refine_ok hrefine
  obtain ⟨past, hlinked, hlast, hstart⟩ := h.behind
  rw [h.settings_eq] at hnext
  refine ⟨h.settings_eq, ⟨s.search.candidates :: past, ?_, ?_, ?_⟩, trivial, ?_⟩
  · rw [List.reverse_append]
    exact ⟨hnext, hlinked⟩
  · rwa [List.getLast?_cons_cons]
  · have hkept := List.reverse_prefix.mpr (trimHistory_suffix
      (s.search.history ++ [s.search.candidates]))
    rw [List.reverse_append] at hkept
    exact hkept.trans ((List.prefix_cons_inj _).mpr hstart)
  · simp only [List.length_append, List.length_cons, List.length_nil, h.steps_eq]

/-- Going back moves along the line. -/
theorem undo (hundo : s.search.undo = some (search', true)) : Sound floats settings start
      ⟨search', s.done.dropLast, s.done.getLast?.toList ++ s.undone⟩ := by
  obtain ⟨previous, history, hhistory, -, rfl⟩ := undo_true hundo
  obtain ⟨past, hlinked, hlast, hstart⟩ := h.behind
  rw [hhistory, List.reverse_append] at hstart
  obtain ⟨more, rfl⟩ := hstart
  have hne : s.done.reverse ≠ [] := by
    intro hnil
    rw [hnil] at hlinked
    cases hlinked.eq_nil
  obtain ⟨scan, done, hdone⟩ := List.exists_cons_of_ne_nil hne
  have hdone' : s.done = done.reverse ++ [scan] := by
    rw [← List.reverse_reverse s.done, hdone, List.reverse_cons]
  rw [hdone] at hlinked
  refine ⟨h.settings_eq, ⟨history.reverse ++ more, ?_, ?_, List.prefix_append _ _⟩, ?_, ?_⟩
  · rw [hdone', List.dropLast_concat, List.reverse_reverse]
    exact hlinked.2
  · exact hlast
  · rw [hdone', List.getLast?_concat, List.reverse_append]
    exact ⟨hlinked.1, h.ahead⟩
  · rw [hdone', List.dropLast_concat]
    show s.search.steps - 1 = _
    rw [h.steps_eq, hdone', List.length_append]
    rfl

/-- Going forward moves back along the line. -/
theorem redo (hredo : s.search.redoScan = some (search', true)) : Sound floats settings start
      ⟨search', s.done ++ s.undone.head?.toList, s.undone.tail⟩ := by
  obtain ⟨next, redo, hstack, rfl⟩ := redoScan_true hredo
  obtain ⟨past, hlinked, hlast, hstart⟩ := h.behind
  have hahead := h.ahead
  rw [hstack, List.reverse_append] at hahead
  cases hundone : s.undone with
  | nil =>
    rw [hundone] at hahead
    cases hahead.eq_nil
  | cons scan undone =>
    rw [hundone] at hahead
    refine ⟨h.settings_eq, ⟨s.search.candidates :: past, ?_, ?_, ?_⟩, hahead.2, ?_⟩
    · show Linked _ (s.done ++ [scan]).reverse _ _
      rw [List.reverse_append]
      exact ⟨hahead.1, hlinked⟩
    · rwa [List.getLast?_cons_cons]
    · rw [List.reverse_append]
      exact (List.prefix_cons_inj _).mpr hstart
    · show s.search.steps + 1 = (s.done ++ [scan]).length + 1
      rw [h.steps_eq, List.length_append]
      rfl

/-- **Every call keeps the line.** -/
theorem exec {call : Call F}
    (hexec : s.exec floats call = some s') : s'.Sound floats settings start := by
  cases call with
  | refine scan =>
    rw [Session.exec] at hexec
    split at hexec
    · cases hexec
    · rename_i search hrefine
      cases hexec
      exact h.refine hrefine
    · rename_i search e hrefine
      cases hexec
      rw [refine_error hrefine]
      exact h
  | undo =>
    rw [Session.exec] at hexec
    split at hexec
    · cases hexec
    · rename_i search hundo
      cases hexec
      exact h.undo hundo
    · rename_i search hundo
      cases hexec
      rw [undo_false hundo]
      exact h
  | redo =>
    rw [Session.exec] at hexec
    split at hexec
    · cases hexec
    · rename_i search hredo
      cases hexec
      exact h.redo hredo
    · rename_i search hredo
      cases hexec
      rw [redoScan_false hredo]
      exact h

/-- So does a run. -/
theorem run (hrun : s.run floats calls = some s') : s'.Sound floats settings start := by
  induction calls generalizing s with
  | nil =>
    cases hrun
    exact h
  | cons call calls ih =>
    rw [Session.run, List.foldlM_cons, Option.bind_eq_bind, Option.bind_eq_some_iff] at hrun
    obtain ⟨s₁, hexec, hrest⟩ := hrun
    exact ih (h.exec hexec) hrest

end

end Session.Sound

/-! ## What undoing restores -/

/-- What is behind the candidates is what scanning again gives. -/
theorem rescan_of_linked {scans : List (Scan F)} {past : List Candidates}
    (h : Linked (fun scan c c' ↦ scanned floats settings c' scan = some c) scans candidates past)
    (hlast : (candidates :: past).getLast? = some start) :
    rescan floats settings scans.reverse start = some candidates := by
  induction scans generalizing candidates past with
  | nil =>
    rw [h.eq_nil, List.getLast?_singleton, Option.some.injEq] at hlast
    rw [hlast]
    rfl
  | cons scan scans ih =>
    obtain ⟨before, rest, rfl, hscan, hrest⟩ := h.exists_cons
    rw [List.getLast?_cons_cons] at hlast
    rw [rescan, List.reverse_cons, List.foldlM_append]
    have hbefore := ih hrest hlast
    rw [rescan] at hbefore
    rw [hbefore]
    simp only [Option.bind_eq_bind, Option.bind_some, List.foldlM_cons, List.foldlM_nil,
      Option.bind_eq_some_iff, Option.pure_def, Option.some.injEq]
    exact ⟨candidates, hscan, rfl⟩

/-- The candidates are those of the scans done. -/
theorem Session.Sound.rescan_eq (h : s.Sound floats settings start) :
    rescan floats settings s.done start = some s.search.candidates := by
  obtain ⟨past, hlinked, hlast, -⟩ := h.behind
  rw [← List.reverse_reverse s.done]
  exact rescan_of_linked hlinked hlast

/-- What every scan keeps of the candidates holds of those that scans lead to. -/
theorem rescan_kept {P : Candidates → Prop} {scans : List (Scan F)}
    (hscan : ∀ c c' scan, P c → scanned floats settings c scan = some c' → P c')
    (hstart : P start) (h : rescan floats settings scans start = some candidates) :
    P candidates := by
  induction scans generalizing start with
  | nil =>
    cases h
    exact hstart
  | cons scan scans ih =>
    rw [rescan, List.foldlM_cons, Option.bind_eq_bind, Option.bind_eq_some_iff] at h
    obtain ⟨c, hc, hrest⟩ := h
    exact ih (hscan _ _ _ hstart hc) hrest

/-- A new search has its first candidates only. -/
theorem sound_new (hnew : Gives (Search.new floats settings comparison snapshot control) search) :
    Session.Sound floats settings search.candidates ⟨search, [], []⟩ := by
  rw [Search.new] at hnew
  obtain ⟨-, -, hnew⟩ := gives_bind.mp hnew
  split_ifs at hnew
  · obtain ⟨regions, -, hnew⟩ := gives_bind.mp hnew
    obtain ⟨candidates, -, hnew⟩ := gives_bind.mp hnew
    obtain rfl := gives_pure_iff.mp hnew
    exact ⟨rfl, ⟨[], trivial, rfl, List.prefix_rfl⟩, trivial, rfl⟩
  · exact absurd hnew not_gives_throw

/-- Everything comes back but the last scan's frame and epoch, and the older steps that the history
dropped; the step can be redone. -/
structure Undone (before back : Search F) (older : Prop) : Prop where
  count_eq : back.count = before.count
  results_eq : back.results = before.results
  steps_eq : back.steps = before.steps
  canRedo : back.canRedo = true
  canUndo_eq : older → back.canUndo = before.canUndo

/-- **Going back right after a scan**, unless its step was dropped, and forward again. -/
theorem undo_refine
    (hrefine : search.refine floats comparison snapshot control = some (search', .ok ()))
    (hkept : search'.canUndo = true) :
    ∃ back, search'.undo = some (back, true) ∧
      Undone search back (search'.history.length = search.history.length + 1) ∧
      ∃ again, back.redoScan = some (again, true) ∧ again.observed = search'.observed := by
  obtain ⟨next, -, hsteps, rfl⟩ := refine_ok hrefine
  have hsuffix := trimHistory_suffix (search.history ++ [search.candidates])
  obtain ⟨dropped, hdropped⟩ := hsuffix
  set trimmed := trimHistory (search.history ++ [search.candidates]) with htrimmed
  have hne : trimmed ≠ [] := by
    intro hnil
    simp only [Search.canUndo, hnil, List.isEmpty_nil, Bool.not_true, Bool.false_eq_true] at hkept
  -- The newest state of the history is the one the scan started from.
  obtain ⟨older, hold⟩ : ∃ older, trimmed = older ++ [search.candidates] := by
    obtain ⟨older, newest, htail⟩ := (List.eq_nil_or_concat' trimmed).resolve_left hne
    rw [htail, ← List.append_assoc] at hdropped
    obtain ⟨-, hnewest⟩ := List.append_inj' hdropped rfl
    exact ⟨older, by rw [htail, hnewest]⟩
  have hlast : trimmed.getLast? = some search.candidates := by
    rw [hold, List.getLast?_concat]
  have hinit : trimmed.dropLast = older := by
    rw [hold, List.dropLast_concat]
  refine ⟨{ search with
      candidates := search.candidates
      history := older
      redo := [next]
      lastFrame := snapshot.frame
      lastEpoch := snapshot.epoch }, ?_, ⟨rfl, rfl, rfl, rfl, ?_⟩, ?_⟩
  · simp only [Search.undo, hlast, hinit, Nat.add_one_ne_zero, if_false, List.nil_append,
      Nat.add_sub_cancel]
  · intro hlength
    rw [hold, List.length_append, List.length_singleton, Nat.add_right_cancel_iff] at hlength
    have hempty : older.isEmpty = search.history.isEmpty := by
      rw [Bool.eq_iff_iff, List.isEmpty_iff_length_eq_zero, List.isEmpty_iff_length_eq_zero, hlength]
    exact congrArg (!·) hempty
  · refine ⟨{ search with
        candidates := next
        history := trimmed
        redo := []
        steps := search.steps + 1
        lastFrame := snapshot.frame
        lastEpoch := snapshot.epoch }, ?_, rfl⟩
    simp only [Search.redoScan, List.getLast?_singleton, if_pos hsteps, hold,
      List.dropLast_singleton]

/-- **Scans can be undone and redone.**  After any calls the steps are one more than the scans that
led to the candidates.  A scan that fails changes nothing that can be observed; going back right
after one that succeeds restores the candidates and the steps, unless the history dropped that step,
and going forward again restores everything. -/
theorem Session.undo_redo
    (hnew : Gives (Search.new floats settings comparison snapshot control) search)
    (hrun : Session.run floats calls ⟨search, [], []⟩ = some s) :
    s.search.steps = s.done.length + 1 ∧
    rescan floats settings s.done search.candidates = some s.search.candidates ∧
    (∀ (scan : Scan F) search' e,
      s.search.refine floats scan.comparison scan.snapshot scan.control =
        some (search', .error e) → search'.observed = s.search.observed) ∧
    ∀ (scan : Scan F) search',
      s.search.refine floats scan.comparison scan.snapshot scan.control =
        some (search', .ok ()) → search'.canUndo = true →
      ∃ back, search'.undo = some (back, true) ∧
        Undone s.search back (search'.history.length = s.search.history.length + 1) ∧
        ∃ again, back.redoScan = some (again, true) ∧ again.observed = search'.observed := by
  have hsound := (sound_new hnew).run hrun
  refine ⟨hsound.steps_eq, hsound.rescan_eq, fun scan search' e hrefine ↦ ?_,
    fun scan search' hrefine hkept ↦ undo_refine hrefine hkept⟩
  rw [refine_error hrefine]

/-! ## A search of four bytes -/

/-- A snapshot of one region with the given bytes. -/
def snapshotOf (frame : Nat) (bytes : Bytes) : MemorySnapshot where
  frame := frame
  epoch := 0
  layout := [⟨⟨⟨0x1000, bytes.length, true⟩, [], [], false⟩, 0, bytes.length⟩]
  bytes := bytes

/-- A search for bytes. -/
def byteSettings : SearchSettings Unit where
  format := ⟨.u8, 1, false⟩
  alignment := 1
  regions := []
  range := none
  epsilon := ()

/-- A scan that is not cancelled. -/
def notCancelled : ScanControl := ⟨fun _ _ ↦ false⟩

/-- A search for any byte. -/
def fourBytes : Search Unit where
  settings := byteSettings
  candidates := .dense ⟨[⟨[15], 4, [0]⟩], snapshotOf 0 [1, 2, 3, 4], snapshotOf 0 [1, 2, 3, 4], true⟩
  lastFrame := 0
  lastEpoch := 0

/-- The scan for the bytes that changed. -/
def changedByte : Scan Unit := ⟨.changed, snapshotOf 1 [1, 9, 3, 4], notCancelled⟩

theorem gives_fourBytes :
    Gives (Search.new noFloats byteSettings .unknown (snapshotOf 0 [1, 2, 3, 4]) notCancelled)
      fourBytes := rfl

/-- One byte changed: its scan is undone and redone. -/
theorem Session.undo_redo_fourBytes :
    ∃ s, Session.run noFloats [.refine changedByte, .undo, .redo] ⟨fourBytes, [], []⟩ = some s ∧
      s.search.steps = s.done.length + 1 := by
  have hrun : Session.run noFloats [.refine changedByte, .undo, .redo] ⟨fourBytes, [], []⟩ =
      some _ := rfl
  exact ⟨_, hrun, (Session.undo_redo gives_fourBytes hrun).1⟩

/-- **Undoing leaves traces**: the step can be redone, and the last scan is still the undone one. -/
theorem undo_leaves_traces :
    ∃ search' back,
      Gives (Search.new noFloats byteSettings .unknown (snapshotOf 0 [1, 2, 3, 4]) notCancelled)
        fourBytes ∧
      fourBytes.refine noFloats .changed (snapshotOf 1 [1, 9, 3, 4]) notCancelled =
        some (search', .ok ()) ∧
      search'.undo = some (back, true) ∧ back.canRedo ≠ fourBytes.canRedo ∧
      back.lastScan ≠ fourBytes.lastScan :=
  ⟨_, _, rfl, rfl, rfl, by decide, by decide⟩

end SuperShuckie.RamSearch
