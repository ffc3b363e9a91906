import SuperShuckie.Lib.Lists
import SuperShuckie.Lib.LittleEndian

/-!
# The files of a conversion

A replay is converted into a temporary file beside it, which is itself first written under another
temporary name.  The original may be kept under the first free `.bak` name.  These names are all
different (`temp_ne`, `staging_ne`, `backup_ne`), and a free `.bak` name is always found
(`lookup_backupPath`).
-/

set_option autoImplicit false

namespace SuperShuckie.Convert

open ByteFormat

/-- A path with a file name. -/
structure Path where
  folder : String
  name : List Char
deriving DecidableEq

/-- As a message shows it. -/
def Path.display (path : Path) : String := path.folder ++ String.ofList path.name

def Path.withFileName (path : Path) (name : List Char) : Path := { path with name }

/-- `file_stem`: the file name up to its last dot, unless it starts with it. -/
def fileStem (name : List Char) : List Char :=
  if name = ['.', '.'] then name
  else match name.reverse.dropWhile (· ≠ '.') with
    | [] => name
    | _ :: before => if before = [] then name else before.reverse

/-- `with_extension`. -/
def Path.withExtension (path : Path) (extension : List Char) : Path :=
  path.withFileName (fileStem path.name ++ '.' :: extension)

/-- Suffix of the temporary output written next to a replay while it is being converted. -/
def tempSuffix : List Char :=
  ['.', 'v', '4', '-', 't', 'm', 'p'] ++ ['.', 'r', 'e', 'p', 'l', 'a', 'y']

def tempPath (path : Path) : Path := path.withFileName (fileStem path.name ++ tempSuffix)

/-- The temporary file that an output is written to until it is complete. -/
def stagingPath (output : Path) : Path :=
  output.withExtension ['r', 'e', 'p', 'l', 'a', 'y', '.', 't', 'm', 'p']

/-- `<name>.bak`, `<name>.1.bak`, ... -/
def backupName (path : Path) : Nat → Path
  | 0 => path.withFileName (path.name ++ ['.', 'b', 'a', 'k'])
  | n + 1 => path.withFileName (path.name ++ '.' :: Nat.toDigits 10 (n + 1) ++ ['.', 'b', 'a', 'k'])

/-- Look for a free name, among so many from `n` on. -/
def backupFrom (path : Path) (files : AList fun _ : Path ↦ Bytes) : Nat → Nat → Path
  | 0, n => backupName path n
  | tries + 1, n =>
    if (files.lookup (backupName path n)).isSome then backupFrom path files tries (n + 1)
    else backupName path n

/-- First free `<name>.replay.bak`, `<name>.replay.1.bak`, ...  There are no more files to try than
there are files. -/
def backupPath (path : Path) (files : AList fun _ : Path ↦ Bytes) : Path :=
  backupFrom path files files.keys.length 0

/-! ## The names are different -/

theorem dropWhile_reverse (base : List Char) {extension : List Char} (h : '.' ∉ extension) :
    (base ++ '.' :: extension).reverse.dropWhile (· ≠ '.') = '.' :: base.reverse := by
  have hreverse : (base ++ '.' :: extension).reverse =
      extension.reverse ++ '.' :: base.reverse := by simp
  rw [hreverse, List.dropWhile_append_of_pos]
  · rfl
  · intro c hc
    have hne : c ≠ '.' := fun hdot ↦ h (hdot ▸ List.mem_reverse.mp hc)
    exact decide_eq_true hne

theorem fileStem_append {base extension : List Char} (h : '.' ∉ extension) (hbase : base ≠ [])
    (hdots : base ++ '.' :: extension ≠ ['.', '.']) :
    fileStem (base ++ '.' :: extension) = base := by
  rw [fileStem, if_neg hdots, dropWhile_reverse base h]
  dsimp only
  rw [if_neg fun hempty ↦ hbase (List.reverse_eq_nil_iff.mp hempty), List.reverse_reverse]

/-- A name is its stem, or its stem and an extension without a dot. -/
theorem fileStem_spec (name : List Char) :
    fileStem name = name ∨ ∃ extension, name = fileStem name ++ '.' :: extension ∧
      '.' ∉ extension := by
  by_cases hdots : name = ['.', '.']
  · exact .inl (if_pos hdots)
  by_cases hdot : '.' ∈ name
  · obtain ⟨base, c, extension, hname, hc, hextension⟩ :=
      exists_last_split (P := (· = '.')) ⟨'.', hdot, rfl⟩
    rw [of_decide_eq_true hc] at hname
    have hnot : '.' ∉ extension := fun h ↦ absurd (hextension _ h) (by decide)
    subst hname
    by_cases hbase : base = []
    · left
      rw [fileStem, if_neg hdots, dropWhile_reverse base hnot, hbase]
      rfl
    · exact .inr ⟨extension, by rw [fileStem_append hnot hbase hdots], hnot⟩
  · left
    have hall : name.reverse.dropWhile (· ≠ '.') = [] := by
      rw [List.dropWhile_eq_nil_iff]
      exact fun c hc ↦ decide_eq_true fun h ↦ hdot (h ▸ List.mem_reverse.mp hc)
    rw [fileStem, if_neg hdots, hall]

/-- No name is its own stem with a suffix that starts with a dot and has another one. -/
theorem stem_append_ne {name : List Char} (suffix : List Char) (h : '.' ∈ suffix) :
    fileStem name ++ '.' :: suffix ≠ name := by
  intro heq
  rcases fileStem_spec name with hstem | ⟨extension, hname, hextension⟩
  · rw [hstem] at heq
    have hlength := congrArg List.length heq
    rw [List.length_append, List.length_cons] at hlength
    omega
  · have hsuffix := List.append_cancel_left (heq.trans hname)
    cases hsuffix
    exact hextension h

theorem tempPath_ne (path : Path) : tempPath path ≠ path :=
  fun h ↦ stem_append_ne ['v', '4', '-', 't', 'm', 'p', '.', 'r', 'e', 'p', 'l', 'a', 'y']
    (by decide) (congrArg Path.name h)

/-- The staging file of the temporary file has the same stem in front. -/
theorem stagingPath_tempPath (path : Path) : (stagingPath (tempPath path)).name =
    fileStem path.name ++ '.' :: ['v', '4', '-', 't', 'm', 'p', '.', 'r', 'e', 'p', 'l', 'a', 'y',
      '.', 't', 'm', 'p'] := by
  have hname : (tempPath path).name = (fileStem path.name ++ ['.', 'v', '4', '-', 't', 'm', 'p']) ++
      '.' :: ['r', 'e', 'p', 'l', 'a', 'y'] := (List.append_assoc _ _ _).symm
  have hstem : fileStem (tempPath path).name =
      fileStem path.name ++ ['.', 'v', '4', '-', 't', 'm', 'p'] := by
    rw [hname]
    refine fileStem_append (by decide) (by simp) fun h ↦ ?_
    have hlength := congrArg List.length h
    simp only [List.length_append, List.length_cons, List.length_nil] at hlength
    omega
  show fileStem (tempPath path).name ++ _ = _
  rw [hstem, List.append_assoc]
  rfl

theorem stagingPath_ne (path : Path) : stagingPath (tempPath path) ≠ path := by
  intro h
  have hname := congrArg Path.name h
  rw [stagingPath_tempPath] at hname
  exact stem_append_ne _ (by decide) hname

/-! ## Names of backups -/

/-- A name that a backup of the file may get. -/
def IsBackup (path q : Path) : Prop := ∃ n, q = backupName path n

/-- What comes after the file's own name. -/
theorem backupName_eq (path : Path) (n : Nat) : ∃ middle, backupName path n =
    path.withFileName (path.name ++ middle ++ ['.', 'b', 'a', 'k']) ∧
      middle = if n = 0 then [] else '.' :: Nat.toDigits 10 n := by
  cases n with
  | zero => exact ⟨[], by rw [List.append_nil]; rfl, rfl⟩
  | succ n => exact ⟨_, rfl, (if_neg (Nat.succ_ne_zero n)).symm⟩

theorem backup_ne (path : Path) (n : Nat) : backupName path n ≠ path := by
  obtain ⟨middle, hname, -⟩ := backupName_eq path n
  intro h
  have hlength := congrArg (List.length ∘ Path.name) (hname.symm.trans h)
  simp only [Function.comp_apply, Path.withFileName, List.length_append, List.length_cons] at hlength
  omega

/-- Names with different last letters are different. -/
theorem ne_of_last {path : Path} {n : Nat} {q : Path} (front : List Char) (c : Char)
    (hq : q.name = front ++ [c]) (hc : c ≠ 'k') : backupName path n ≠ q := by
  obtain ⟨middle, hname, -⟩ := backupName_eq path n
  intro h
  have hlast := congrArg (List.getLast? ∘ Path.name) (hname.symm.trans h)
  simp only [Function.comp_apply, Path.withFileName, hq, List.getLast?_append] at hlast
  simp at hlast
  exact hc hlast.symm

theorem backup_ne_temp (path : Path) (n : Nat) : backupName path n ≠ tempPath path := by
  refine ne_of_last (fileStem path.name ++ ['.', 'v', '4', '-', 't', 'm', 'p', '.', 'r', 'e', 'p',
    'l', 'a']) 'y' ?_ (by decide)
  rw [List.append_assoc]
  rfl

theorem backup_ne_staging (path : Path) (n : Nat) :
    backupName path n ≠ stagingPath (tempPath path) := by
  refine ne_of_last (fileStem path.name ++ ['.', 'v', '4', '-', 't', 'm', 'p', '.', 'r', 'e', 'p',
    'l', 'a', 'y', '.', 't', 'm']) 'p' ?_ (by decide)
  rw [stagingPath_tempPath, List.append_assoc]
  rfl

theorem backupName_injective (path : Path) : Function.Injective (backupName path) := by
  intro m n h
  obtain ⟨middle, hm, hmiddle⟩ := backupName_eq path m
  obtain ⟨middle', hn, hmiddle'⟩ := backupName_eq path n
  have hname := congrArg Path.name (hm.symm.trans (h.trans hn))
  have hsame : middle = middle' := List.append_cancel_left (List.append_cancel_right hname)
  rw [hmiddle, hmiddle'] at hsame
  by_cases hm0 : m = 0 <;> by_cases hn0 : n = 0
  · rw [hm0, hn0]
  · rw [if_pos hm0, if_neg hn0] at hsame
    cases hsame
  · rw [if_neg hm0, if_pos hn0] at hsame
    cases hsame
  · rw [if_neg hm0, if_neg hn0] at hsame
    rw [← Nat.ofDigitChars_ten_toDigits (n := m), (List.cons.inj hsame).2,
      Nat.ofDigitChars_ten_toDigits]

/-! ## A free name -/

variable {path : Path} {files : AList fun _ : Path ↦ Bytes}

/-- If no free name has been found, all those that were tried are taken. -/
theorem backupFrom_spec (tries n : Nat) : (∃ k, backupFrom path files tries n = backupName path k) ∧
      ((files.lookup (backupFrom path files tries n)).isSome →
        ∀ i ≤ tries, (files.lookup (backupName path (n + i))).isSome) := by
  induction tries generalizing n with
  | zero =>
    refine ⟨⟨n, rfl⟩, fun h i hi ↦ ?_⟩
    rw [Nat.le_zero.mp hi]
    exact h
  | succ tries ih =>
    rw [backupFrom]
    by_cases htaken : (files.lookup (backupName path n)).isSome
    · rw [if_pos htaken]
      refine ⟨(ih (n + 1)).1, fun h i hi ↦ ?_⟩
      cases i with
      | zero => exact htaken
      | succ i =>
        have hlater := (ih (n + 1)).2 h i (Nat.le_of_succ_le_succ hi)
        rwa [Nat.add_right_comm] at hlater
    · rw [if_neg htaken]
      exact ⟨⟨n, rfl⟩, fun h ↦ (htaken h).elim⟩

theorem isBackup_backupPath (path : Path) (files : AList fun _ : Path ↦ Bytes) :
    IsBackup path (backupPath path files) := (backupFrom_spec _ _).1

/-- **The backup gets a free name**: there are more names than files. -/
theorem lookup_backupPath (path : Path) (files : AList fun _ : Path ↦ Bytes) :
    files.lookup (backupPath path files) = none := by
  rw [← Option.not_isSome_iff_eq_none]
  intro htaken
  have hall := (backupFrom_spec files.keys.length 0).2 htaken
  have hsubset : (List.range (files.keys.length + 1)).map (backupName path) ⊆ files.keys := by
    intro q hq
    obtain ⟨i, hi, rfl⟩ := List.mem_map.mp hq
    have hi := hall i (Nat.le_of_lt_succ (List.mem_range.mp hi))
    rw [Nat.zero_add] at hi
    exact AList.mem_keys.mp (AList.lookup_isSome.mp hi)
  have hnodup : ((List.range (files.keys.length + 1)).map (backupName path)).Nodup :=
    List.nodup_range.map (backupName_injective path)
  have hlength := (List.subperm_of_subset hnodup hsubset).length_le
  rw [List.length_map, List.length_range] at hlength
  omega

end SuperShuckie.Convert
