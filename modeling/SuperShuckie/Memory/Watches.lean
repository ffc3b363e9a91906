import SuperShuckie.Memory.Request

/-!
# The watch list

Named, typed addresses, optionally through pointers, with pause conditions and freezes.
`Watch.validate` is the check every watch goes through, and `WatchFile.parse` takes a saved list over:
invalid watches are dropped and reported, ids are made unique, freezes are loaded inactive.

The file is taken as decoded from its JSON text.  Ids are 32-bit numbers: `none` is the panic of an
increment that overflows.
-/

set_option autoImplicit false

namespace SuperShuckie

open ByteFormat

/-- The longest value (bytes or text) the tools handle. -/
def maxValueSize : Nat := 64

/-- Pointer dereferences a watch address may go through. -/
def maxPointerDepth : Nat := 4

/-- Version written to watch files. -/
def watchFileVersion : Nat := 1

/-- What kind of value a run of bytes holds. -/
inductive ValueType where
  | u8
  | i8
  | u16
  | i16
  | u32
  | i32
  | f32
  | bcd
  | bytes
  | text
deriving DecidableEq

namespace ValueType

/-- The size of fixed-size types. -/
def fixedSize : ValueType → Option Nat
  | u8 | i8 => some 1
  | u16 | i16 => some 2
  | u32 | i32 | f32 => some 4
  | bcd | bytes | text => none

/-- Two's complement integers. -/
def isSigned : ValueType → Bool
  | i8 | i16 | i32 => true
  | _ => false

/-- Integers, floats and BCD. -/
def isNumeric : ValueType → Bool
  | bytes | text => false
  | _ => true

/-- Integers and BCD. -/
def isInteger (ty : ValueType) : Bool := ty.isNumeric && ty != f32

/-- Whether byte order matters. -/
def hasEndianness : ValueType → Bool
  | u16 | i16 | u32 | i32 | f32 | bcd => true
  | _ => false

end ValueType

/-- A value type with its size and byte order. -/
structure ValueFormat where
  ty : ValueType
  /-- Size in bytes: fixed for integer and float types, 1-4 for BCD, 1-64 for bytes and text. -/
  size : Nat
  /-- Most significant byte first. -/
  bigEndian : Bool
deriving DecidableEq

/-- A format with its size brought into range for the type. -/
def ValueFormat.new (ty : ValueType) (size : Nat) (bigEndian : Bool) : ValueFormat :=
  let size := match ty.fixedSize with
    | some fixed => fixed
    | none => if ty = .bcd then min (max size 1) 4 else min (max size 1) maxValueSize
  ⟨ty, size, bigEndian && ty.hasEndianness⟩

/-- Where a watch's value is. -/
structure WatchAddress where
  base : Nat
  offsets : List Int := []
deriving DecidableEq

/-- When a traced watch pauses emulation. -/
inductive WatchCondition where
  | changes
  | equals (v : Int)
  | notEquals (v : Int)
  | greaterThan (v : Int)
  | lessThan (v : Int)
  | increasedBy (v : Int)
  | decreasedBy (v : Int)
deriving DecidableEq

/-- The condition as the core thread knows it. -/
def traceCondition : WatchCondition → TraceCondition
  | .changes => .changes
  | .equals v => .equals v
  | .notEquals v => .notEquals v
  | .greaterThan v => .greaterThan v
  | .lessThan v => .lessThan v
  | .increasedBy v => .increasedBy v
  | .decreasedBy v => .decreasedBy v

/-- A value held in place. -/
structure FreezeState where
  value : Bytes
  /-- Whether it is being applied. -/
  active : Bool := false
deriving DecidableEq

/-- A watched value. -/
structure Watch where
  id : Nat
  label : String := ""
  address : WatchAddress
  format : ValueFormat
  group : String := ""
  /-- Log every change, frame-accurately. -/
  trace : Bool := false
  pauseWhen : Option WatchCondition := none
  freeze : Option FreezeState := none
deriving DecidableEq

namespace Watch

/-- Whether the core thread must compare this watch every frame. -/
def isTraced (w : Watch) : Bool := w.trace || w.pauseWhen.isSome

/-- The watch's freeze, if it is being applied. -/
def activeFreeze (w : Watch) : Option FreezeState := w.freeze.filter (·.active)

/-- The last check of `validate`: whether the watch can pause on its condition. -/
def validatePause (w : Watch) : Except String Unit :=
  match w.pauseWhen with
  | some c =>
    if c ≠ .changes ∧ !w.format.ty.isInteger then
      .error "only integer and BCD watches can pause on a value"
    else .ok ()
  | none => .ok ()

/-- Check the watch's fields. -/
def validate (w : Watch) : Except String Unit :=
  if maxPointerDepth < w.address.offsets.length then .error s!"at most {maxPointerDepth} pointers deep"
  else if w.format.size = 0 ∨ maxValueSize < w.format.size then
    .error s!"values are 1 to {maxValueSize} bytes"
  else
    match w.freeze with
    | some freeze =>
      if freeze.value.length ≠ w.format.size then
        .error s!"the frozen value is {freeze.value.length} bytes but the watch is {w.format.size}"
      else w.validatePause
    | none => w.validatePause

/-- What `validate` accepts. -/
structure Valid (w : Watch) : Prop where
  depth : w.address.offsets.length ≤ maxPointerDepth
  size : 0 < w.format.size ∧ w.format.size ≤ maxValueSize
  freeze : ∀ f, w.freeze = some f → f.value.length = w.format.size
  pause : ∀ c, w.pauseWhen = some c → c = .changes ∨ w.format.ty.isInteger = true

theorem validatePause_eq_ok (w : Watch) : w.validatePause = .ok () ↔
      ∀ c, w.pauseWhen = some c → c = .changes ∨ w.format.ty.isInteger = true := by
  rw [validatePause]
  cases w.pauseWhen with
  | none => simp
  | some c =>
    by_cases hc : c = .changes
    · simp [hc]
    · by_cases hint : w.format.ty.isInteger = true
      · simp [hint]
      · simp [hc, hint]

/-- **`validate` accepts exactly the valid watches.** -/
theorem validate_eq_ok (w : Watch) : w.validate = .ok () ↔ w.Valid := by
  rw [validate]
  split_ifs with hdepth hsize
  · exact ⟨fun h ↦ (nomatch h), fun h ↦ absurd h.depth (Nat.not_le.2 hdepth)⟩
  · refine ⟨fun h ↦ (nomatch h), fun h ↦ ?_⟩
    obtain ⟨hpos, hle⟩ := h.size
    omega
  · cases hfreeze : w.freeze with
    | none =>
      simp only [validatePause_eq_ok]
      exact ⟨fun h ↦ ⟨Nat.not_lt.1 hdepth, by omega, by simp [hfreeze], h⟩, fun h ↦ h.pause⟩
    | some freeze =>
      simp only
      split_ifs with hlen
      · exact ⟨fun h ↦ (nomatch h), fun h ↦ absurd (h.freeze freeze hfreeze) hlen⟩
      · rw [validatePause_eq_ok]
        refine ⟨fun h ↦ ⟨Nat.not_lt.1 hdepth, by omega, ?_, h⟩, fun h ↦ h.pause⟩
        intro f hf
        obtain rfl := Option.some.inj (hfreeze.symm.trans hf)
        exact Decidable.of_not_not hlen

end Watch

/-! ## Watch files -/

/-- `a + 1` on 32 bits; `none` is the overflow. -/
def succ32 (a : Nat) : Option Nat := if a + 1 < 2 ^ 32 then some (a + 1) else none

/-- The largest id of a list of watches, 0 for none: `.map(|w| w.id).max().unwrap_or(0)`. -/
def maxId (watches : List Watch) : Nat := (watches.map (·.id)).foldl max 0

/-- A saved watch list. -/
structure WatchFile where
  version : Nat
  romChecksum : String := ""
  watches : List Watch := []
deriving DecidableEq

namespace WatchFile

/-- A watch's freeze as it is loaded. -/
def loadInactive (w : Watch) : Watch :=
  { w with freeze := w.freeze.map fun f ↦ { f with active := false } }

/-- The loop of `parse` over the watches, `seen` being the ids taken so far and `nextId` the next one
to give out: what is kept, and the problems found. -/
def retain : List Watch → List Nat → Nat → Option (List Watch × List String)
  | [], _, _ => some ([], [])
  | w :: watches, seen, nextId =>
    match w.validate with
    | .error e =>
      (retain watches seen nextId).map fun (kept, problems) ↦
        (kept, ("\"" ++ w.label ++ "\": " ++ e) :: problems)
    | .ok () =>
      if w.id = 0 ∨ w.id ∈ seen then do
        let next ← succ32 nextId
        let (kept, problems) ← retain watches (nextId :: seen) next
        some (loadInactive { w with id := nextId } :: kept, problems)
      else do
        let (kept, problems) ← retain watches (w.id :: seen) nextId
        some (loadInactive w :: kept, problems)

/-- The first id `parse` gives out: `max.wrapping_add(1).max(1)`. -/
def firstId (watches : List Watch) : Nat := max ((maxId watches + 1) % 2 ^ 32) 1

/-- Take a decoded watch file over. -/
def parse (file : WatchFile) : Option (Except String (WatchFile × List String)) :=
  if watchFileVersion < file.version then
    some (.error (s!"this watch list is version {file.version}, newer than this version of Super " ++
      s!"Shuckie understands ({watchFileVersion})"))
  else do
    let (watches, problems) ← retain file.watches [] (firstId file.watches)
    some (.ok ({ file with watches }, problems))

/-! ## What `parse` keeps -/

/-- How many watches `parse` renumbers: the valid ones without an id of their own, `seen` being the
ids before them. -/
def clashes : List Watch → List Nat → Nat
  | [], _ => 0
  | w :: watches, seen =>
    if !w.validate.isOk then clashes watches seen
    else if w.id = 0 ∨ w.id ∈ seen then clashes watches seen + 1
    else clashes watches (w.id :: seen)

/-- The valid watches that are traced. -/
def tracedCount (watches : List Watch) : Nat :=
  (watches.filter fun w ↦ w.validate.isOk && w.isTraced).length

theorem foldl_max_le {l : List Nat} {a b : Nat} : l.foldl max a ≤ b ↔ a ≤ b ∧ ∀ n ∈ l, n ≤ b := by
  induction l generalizing a with
  | nil => simp
  | cons n l ih =>
    rw [List.foldl_cons, ih, Nat.max_le]
    simp only [List.mem_cons, forall_eq_or_imp, and_assoc]

variable {watches : List Watch} {taken : List Nat}

theorem maxId_le {b : Nat} : maxId watches ≤ b ↔ ∀ w ∈ watches, w.id ≤ b := by
  rw [maxId, foldl_max_le]
  simp

theorem id_le_maxId {w : Watch} (hw : w ∈ watches) : w.id ≤ maxId watches :=
  maxId_le.1 (Nat.le_refl _) w hw

variable {w : Watch}

@[simp] theorem id_loadInactive : (loadInactive w).id = w.id := rfl

theorem activeFreeze_loadInactive : (loadInactive w).activeFreeze = none := by
  rw [loadInactive, Watch.activeFreeze]
  cases w.freeze with
  | none => rfl
  | some f => rfl

theorem valid_loadInactive (h : w.Valid) (id : Nat) : (loadInactive { w with id }).Valid := by
  refine ⟨h.depth, h.size, ?_, h.pause⟩
  intro f hf
  obtain ⟨f', hf', rfl⟩ := Option.map_eq_some_iff.1 hf
  exact h.freeze f' hf'

/-- What is known of a watch that was kept. -/
structure Kept (taken : List Nat) (w : Watch) : Prop where
  valid : w.Valid
  nonzero : w.id ≠ 0
  fits : w.id < 2 ^ 32
  fresh : w.id ∉ taken
  inactive : w.activeFreeze = none

theorem Kept.mono {taken' : List Nat} (h : Kept taken' w) (hsub : ∀ id ∈ taken, id ∈ taken') :
    Kept taken w :=
  ⟨h.valid, h.nonzero, h.fits, fun hin ↦ h.fresh (hsub _ hin), h.inactive⟩

/-- The ids to give out are new: none of them is taken or named by a watch to come, and none
overflows. -/
structure Fresh (watches : List Watch) (taken : List Nat) (nextId count : Nat) : Prop where
  pos : 0 < nextId
  left : nextId + count < 2 ^ 32
  taken : ∀ id ∈ taken, id < nextId ∨ nextId + count ≤ id
  watches : ∀ w ∈ watches, w.id < nextId ∨ nextId + count ≤ w.id

/-- A watch put before those kept. -/
theorem kept_cons {kept : List Watch} {problems : List String} {id : Nat} (hvalid : w.Valid)
    (hok : w.validate.isOk = true) (hnonzero : id ≠ 0) (hlt : id < 2 ^ 32) (hfresh : id ∉ taken)
    (hnodup : (kept.map (·.id)).Nodup) (hkept : ∀ w ∈ kept, Kept (id :: taken) w)
    (htraced : (kept.filter (·.isTraced)).length ≤ tracedCount watches) :
    ∃ kept' problems', some (loadInactive { w with id } :: kept, problems) = some (kept', problems') ∧
      (kept'.map (·.id)).Nodup ∧ (∀ w ∈ kept', Kept taken w) ∧
      (kept'.filter (·.isTraced)).length ≤ tracedCount (w :: watches) := by
  refine ⟨_, _, rfl, ?_, ?_, ?_⟩
  · rw [List.map_cons, List.nodup_cons]
    refine ⟨?_, hnodup⟩
    intro hin
    obtain ⟨w', hw', hid⟩ := List.mem_map.1 hin
    exact (hkept w' hw').fresh (hid ▸ List.mem_cons_self)
  · intro w' hw'
    obtain rfl | hw' := List.mem_cons.1 hw'
    · exact ⟨valid_loadInactive hvalid id, hnonzero, hlt, hfresh, activeFreeze_loadInactive⟩
    · exact (hkept w' hw').mono fun id' hid ↦ List.mem_cons_of_mem _ hid
  · have hhead : (loadInactive { w with id }).isTraced = w.isTraced := rfl
    rw [tracedCount, List.filter_cons, List.filter_cons, hhead, hok, Bool.true_and]
    split_ifs
    · exact Nat.succ_le_succ htraced
    · exact htraced

/-- The loop of `parse`: `taken` are the ids taken so far, `seen` those of them that the file itself
names, and the ids to give out, if any, are new. -/
theorem retain_eq_some {seen : List Nat} {nextId : Nat} (hids : ∀ w ∈ watches, w.id < 2 ^ 32)
    (hseen : ∀ w ∈ watches, (w.id ∈ taken ↔ w.id ∈ seen))
    (hfits : clashes watches seen = 0 ∨ Fresh watches taken nextId (clashes watches seen)) :
    ∃ kept problems, retain watches taken nextId = some (kept, problems) ∧
      (kept.map (·.id)).Nodup ∧ (∀ w ∈ kept, Kept taken w) ∧
      (kept.filter (·.isTraced)).length ≤ tracedCount watches := by
  induction watches generalizing taken seen nextId with
  | nil => exact ⟨[], [], rfl, List.nodup_nil, by simp, Nat.le_refl _⟩
  | cons w watches ih =>
    have hids' : ∀ w' ∈ watches, w'.id < 2 ^ 32 := fun w' h ↦ hids w' (List.mem_cons_of_mem _ h)
    have hseen' : ∀ w' ∈ watches, (w'.id ∈ taken ↔ w'.id ∈ seen) :=
      fun w' h ↦ hseen w' (List.mem_cons_of_mem _ h)
    cases hw : w.validate with
    | error e =>
      have hclash : clashes (w :: watches) seen = clashes watches seen := by
        rw [clashes, hw]
        rfl
      have htraced : tracedCount (w :: watches) = tracedCount watches := by
        rw [tracedCount, tracedCount, List.filter_cons, hw]
        rfl
      rw [hclash] at hfits
      have hfits' : clashes watches seen = 0 ∨
          Fresh watches taken nextId (clashes watches seen) :=
        hfits.imp_right fun h ↦
          ⟨h.pos, h.left, h.taken, fun w' hw' ↦ h.watches w' (List.mem_cons_of_mem _ hw')⟩
      obtain ⟨kept, problems, hkept, hrest⟩ := ih hids' hseen' hfits'
      rw [htraced, retain, hw]
      exact ⟨kept, ("\"" ++ w.label ++ "\": " ++ e) :: problems, by simp only [hkept, Option.map_some],
        hrest⟩
    | ok _ =>
      have hvalid := (Watch.validate_eq_ok w).1 hw
      have hok : w.validate.isOk = true := by rw [hw]; rfl
      rw [clashes, hok] at hfits
      simp only [Bool.not_true, Bool.false_eq_true, if_false] at hfits
      have hiff := hseen w List.mem_cons_self
      rw [retain, hw]
      simp only
      by_cases hclash : w.id = 0 ∨ w.id ∈ seen
      · -- the watch gets the next id to give out
        rw [if_pos hclash] at hfits
        rw [if_pos (hclash.imp_right hiff.2)]
        obtain h | h := hfits
        · exact absurd h (Nat.succ_ne_zero _)
        have hleft := h.left
        have hnew : ∀ w' ∈ watches, (w'.id ∈ nextId :: taken ↔ w'.id ∈ seen) := by
          intro w' hw'
          have hlt := h.watches w' (List.mem_cons_of_mem _ hw')
          rw [List.mem_cons, ← hseen' w' hw']
          exact ⟨fun h' ↦ h'.resolve_left (by omega), Or.inr⟩
        have hrest : Fresh watches (nextId :: taken) (nextId + 1) (clashes watches seen) := by
          refine ⟨Nat.succ_pos _, by omega, ?_, ?_⟩
          · intro id hid
            obtain rfl | hid := List.mem_cons.1 hid
            · exact Or.inl (Nat.lt_succ_self _)
            · have hid := h.taken id hid
              omega
          · intro w' hw'
            have hid := h.watches w' (List.mem_cons_of_mem _ hw')
            omega
        obtain ⟨kept, problems, hkept, hnodup, hall, htraced⟩ :=
          @ih (nextId :: taken) seen (nextId + 1) hids' hnew (Or.inr hrest)
        rw [succ32, if_pos (by omega), Option.bind_eq_bind, Option.bind_some, hkept]
        exact kept_cons hvalid hok (Nat.ne_of_gt h.pos) (by omega)
          (fun hin ↦ by have := h.taken _ hin; omega) hnodup hall htraced
      · -- the watch keeps its own
        rw [if_neg hclash] at hfits
        rw [if_neg (fun h ↦ hclash (h.imp_right hiff.1))]
        have hnew : ∀ w' ∈ watches, (w'.id ∈ w.id :: taken ↔ w'.id ∈ w.id :: seen) := by
          intro w' hw'
          rw [List.mem_cons, List.mem_cons, hseen' w' hw']
        obtain ⟨kept, problems, hkept, hnodup, hall, htraced⟩ :=
          @ih (w.id :: taken) (w.id :: seen) nextId hids' hnew (hfits.imp_right fun h ↦
            ⟨h.pos, h.left, by
              intro id hid
              obtain rfl | hid := List.mem_cons.1 hid
              · exact h.watches w List.mem_cons_self
              · exact h.taken id hid,
            fun w' hw' ↦ h.watches w' (List.mem_cons_of_mem _ hw')⟩)
        rw [hkept]
        exact kept_cons hvalid hok (fun h ↦ hclash (Or.inl h)) (hids w List.mem_cons_self)
          (fun h ↦ hclash (Or.inr (hiff.1 h))) hnodup hall htraced

/-- `parse` keeps the valid watches. -/
theorem length_of_retain {kept : List Watch} {nextId : Nat} {problems : List String}
    (h : retain watches taken nextId = some (kept, problems)) :
    kept.length = (watches.filter fun w ↦ w.validate.isOk).length := by
  induction watches generalizing taken nextId kept problems with
  | nil =>
    obtain ⟨rfl, -⟩ := Prod.mk.inj (Option.some.inj h)
    rfl
  | cons w watches ih =>
    rw [retain] at h
    cases hw : w.validate with
    | error e =>
      rw [hw, Option.map_eq_some_iff] at h
      obtain ⟨⟨kept', problems'⟩, hrest, heq⟩ := h
      obtain ⟨rfl, -⟩ := Prod.mk.inj heq
      rw [List.filter_cons_of_neg (by rw [hw]; exact Bool.false_ne_true), ih hrest]
    | ok _ =>
      rw [List.filter_cons_of_pos (by rw [hw]; rfl), List.length_cons]
      rw [hw] at h
      simp only [Option.bind_eq_bind] at h
      split_ifs at h
      · obtain ⟨next, -, h⟩ := Option.bind_eq_some_iff.1 h
        obtain ⟨⟨kept', problems'⟩, hrest, heq⟩ := Option.bind_eq_some_iff.1 h
        obtain ⟨rfl, -⟩ := Prod.mk.inj (Option.some.inj heq)
        rw [List.length_cons, ih hrest]
      · obtain ⟨⟨kept', problems'⟩, hrest, heq⟩ := Option.bind_eq_some_iff.1 h
        obtain ⟨rfl, -⟩ := Prod.mk.inj (Option.some.inj heq)
        rw [List.length_cons, ih hrest]

/-- The ids `parse` gives out are new: it gives none out, or they stay below `2 ^ 32` and no watch
of the file names one of them. -/
def IdsLeft (file : WatchFile) : Prop :=
  clashes file.watches [] = 0 ∨
    firstId file.watches + clashes file.watches [] < 2 ^ 32 ∧
      ∀ w ∈ file.watches, w.id < firstId file.watches ∨
        firstId file.watches + clashes file.watches [] ≤ w.id

instance (file : WatchFile) : Decidable file.IdsLeft :=
  inferInstanceAs (Decidable (_ ∨ _))

/-- A file of a newer version is refused. -/
theorem parse_newer {file : WatchFile} (h : ¬ file.version ≤ watchFileVersion) :
    ∃ e, file.parse = some (.error e) := by
  rw [parse, if_pos (Nat.not_le.1 h)]
  exact ⟨_, rfl⟩

/-- **What `parse` accepts is well formed** when the ids it gives out are new. -/
theorem parse_eq_some {file : WatchFile} (hids : ∀ w ∈ file.watches, w.id < 2 ^ 32)
    (hleft : IdsLeft file) : (∃ e, file.parse = some (.error e)) ∨
      ∃ loaded problems, file.parse = some (.ok (loaded, problems)) ∧
        (loaded.watches.map (·.id)).Nodup ∧ (∀ w ∈ loaded.watches, Kept [] w) ∧
        (loaded.watches.filter (·.isTraced)).length ≤ tracedCount file.watches ∧
        loaded.watches.length = (file.watches.filter fun w ↦ w.validate.isOk).length := by
  rw [parse]
  split_ifs with hversion
  · exact Or.inl ⟨_, rfl⟩
  · right
    have hfresh : clashes file.watches [] = 0 ∨
        Fresh file.watches [] (firstId file.watches) (clashes file.watches []) := by
      refine hleft.imp_right fun ⟨hlt, hnew⟩ ↦ ⟨?_, hlt, by simp, hnew⟩
      exact Nat.lt_of_lt_of_le Nat.zero_lt_one (Nat.le_max_right _ _)
    obtain ⟨kept, problems, hkept, hnodup, hall, htraced⟩ :=
      retain_eq_some hids (fun _ _ ↦ Iff.rfl) hfresh
    have hlength := length_of_retain hkept
    rw [hkept]
    exact ⟨{ file with watches := kept }, problems, rfl, hnodup, hall, htraced, hlength⟩

end WatchFile

end SuperShuckie
