import SuperShuckie.Bookmarks.Table
import SuperShuckie.Lib.Numerals

/-!
# The user's bookmark types

The settings keep the user's bookmark types, and the replay at hand keeps a record of each type that
its bookmarks use.  A type enters the settings in four ways: new by name, new by an upsert, adopted
from a record by id and adopted from a record by name.

`TypesSet` says that the types are a set: their ids are distinct and not zero, their names differ
without regard to case, there are not too many, and the active type is one of them.

* `typesSet_resolveType`: naming a type keeps it where what is adopted is `Adoptable`;
* `typesSet_upsert`, `typesSet_delete`, `typesSet_setActive`: so do the requests about types.
-/

set_option autoImplicit false

namespace SuperShuckie

open Text

namespace Frontend

/-- What Unicode tables and floating point decide: `str::to_lowercase`, `{:?}` of a string, and the
colours of the palette. -/
structure Platform where
  toLowercase : String → String
  quoted : String → String
  paletteColor : Nat → UInt32

/-- Longest bookmark or type name kept. -/
def maxNameChars : Nat := 200

/-- Most bookmark types the settings keep at once. -/
def maxBookmarkTypes : Nat := 256

/-- A user-defined bookmark type. -/
structure BookmarkTypeSetting where
  id : UInt64
  name : String
  /-- `0xRRGGBB`. -/
  color : UInt32
deriving DecidableEq

structure BookmarkSettings where
  /-- The user's bookmark types, in the order they were created. -/
  types : List BookmarkTypeSetting
  /-- Type given to new bookmarks unless one is asked for; 0 is untyped. -/
  activeType : UInt64
  /-- Ask before the first bookmark edit upgrades an old replay. -/
  confirmReplayUpgrade : Bool
deriving DecidableEq

/-- The type with an id. -/
def BookmarkSettings.getType (settings : BookmarkSettings) (id : UInt64) :
    Option BookmarkTypeSetting :=
  if id ≠ 0 then settings.types.find? (·.id = id) else none

/-- The recorded type with an id. -/
def typeRecord (table : BookmarkTable) (id : UInt64) : Option BookmarkTypeRecord :=
  table.types.find? (·.id = id)

/-- Why a bookmark operation did not happen. -/
inductive BookmarkError
  | noReplay
  | notFound (what : String)
  | invalid (message : String)
  | needsUpgradeConfirmation (version : Nat)
  | needsConversion (version : Nat)
  | damaged
  | busy
deriving DecidableEq

/-! ## Texts -/

/-- `c.is_control()`. -/
def isControl (c : Char) : Bool := c.toNat < 0x20 || (0x7F ≤ c.toNat && c.toNat ≤ 0x9F)

/-- A cleaned-up name: one line, trimmed, not too long; `none` if nothing is left. -/
def cleanName (name : String) : Option String :=
  let name := trim (name.toList.map fun c ↦ if isControl c then ' ' else c)
  if name = [] then none
  else some (String.ofList ((name.take maxNameChars).rdropWhile isWhitespace))

/-- `hex_type_id::format`: 16 hex digits, nothing for 0. -/
def formatTypeId (id : UInt64) : String :=
  if id = 0 then "" else String.ofList ((Numeral.padded 16 16 id.toNat).map Char.toLower)

/-- `hex_type_id::parse`. -/
def parseTypeId (text : String) : Option UInt64 :=
  let text := trim text.toList
  if text = [] then some 0 else (Numeral.unsigned 64 16 text).map UInt64.ofNat

/-- `hex_color::parse`. -/
def parseColor (text : String) : Option UInt32 :=
  (strip ['#'] (trim text.toList)).bind fun hex ↦
    if hex.length = 6 ∧ hex.all fun c ↦ (Numeral.digitValue 16 c).isSome then
      (Numeral.unsigned 32 16 hex).map UInt32.ofNat
    else none

/-- A bookmark type as shown to the user; `saved` when it is one of the user's. -/
structure BookmarkTypeView where
  id : UInt64
  name : String
  color : UInt32
  saved : Bool
deriving DecidableEq

def typeView (settings : BookmarkSettings) (table : BookmarkTable) (id : UInt64) :
    Option BookmarkTypeView :=
  match settings.getType id with
  | some t => some ⟨id, t.name, t.color, true⟩
  | none => (typeRecord table id).map fun t ↦ ⟨id, t.name, t.color, false⟩

/-! ## Naming a type -/

/-- The id that the generator of ids ends on: not zero, and known neither to the settings nor to the
table. -/
def NewTypeId (settings : BookmarkSettings) (table : BookmarkTable) :=
  { id : UInt64 // id ≠ 0 ∧ settings.getType id = none ∧ typeRecord table id = none }

/-- Which type a request asks for. -/
inductive TypeChoice
  | untyped
  | id (id : UInt64)
  | name (name : String)
deriving DecidableEq

/-- The type that `type_id` and `type` of a request name, if they name one. -/
def requestedType (E : Platform) (typeId typeName : Option String) :
    Except BookmarkError (Option TypeChoice) :=
  match typeId with
  | some text =>
    match parseTypeId text with
    | some id => .ok (some (if id = 0 then .untyped else .id id))
    | none => .error (.invalid s!"{E.quoted text} is not a bookmark type id.")
  | none =>
    match typeName.map fun name ↦ String.ofList (trim name.toList) with
    | none => .ok none
    | some name => .ok (some (if name = "" ∨ name = "none" then .untyped else .name name))

/-- The type in the settings has that name, without regard to case. -/
def Named (E : Platform) (name : String) (t : BookmarkTypeSetting) : Prop :=
  E.toLowercase t.name = E.toLowercase name

instance (E : Platform) (name : String) (t : BookmarkTypeSetting) : Decidable (Named E name t) :=
  inferInstanceAs (Decidable (_ = _))

def tooManyTypes : BookmarkError :=
  .invalid s!"Too many bookmark types (limit {maxBookmarkTypes})."

/-- One type more. -/
def BookmarkSettings.push (settings : BookmarkSettings) (t : BookmarkTypeSetting) :
    BookmarkSettings :=
  { settings with types := settings.types ++ [t] }

/-- Resolve a type choice to an id, adding the type to the user's types if it is new (by name) or
only known from the replay. -/
def resolveType (E : Platform) (settings : BookmarkSettings) (table : BookmarkTable)
    (newId : NewTypeId settings table) :
    TypeChoice → Except BookmarkError (UInt64 × BookmarkSettings)
  | .untyped => .ok (0, settings)
  | .id id =>
    if (settings.getType id).isSome then .ok (id, settings)
    else
      match typeRecord table id with
      | none => .error (.notFound s!"bookmark type with id {formatTypeId id}")
      | some record => .ok (id, settings.push ⟨id, record.name, record.color⟩)
  | .name name =>
    match cleanName name with
    | none => .error (.invalid "A bookmark type needs a name.")
    | some name =>
      match settings.types.find? fun t ↦ Named E name t with
      | some t => .ok (t.id, settings)
      | none =>
        if maxBookmarkTypes ≤ settings.types.length then .error tooManyTypes
        else
          match (table.types.find? fun t ↦ E.toLowercase t.name = E.toLowercase name).filter
              fun record ↦ (settings.getType record.id).isNone with
          | some record => .ok (record.id, settings.push ⟨record.id, record.name, record.color⟩)
          | none =>
            .ok (newId.val, settings.push ⟨newId.val, name, E.paletteColor settings.types.length⟩)

/-! ## Requests about types -/

/-- A new or changed bookmark type. -/
structure BookmarkTypeUpsert where
  id : Option String
  name : Option String
  color : Option String

/-- A name that was given has to leave something. -/
def givenName : Option String → Except BookmarkError (Option String)
  | none => .ok none
  | some text =>
    match cleanName text with
    | some name => .ok (some name)
    | none => .error (.invalid "A bookmark type needs a name.")

/-- A colour that was given has to be one. -/
def givenColor (E : Platform) : Option String → Except BookmarkError (Option UInt32)
  | none => .ok none
  | some text =>
    match parseColor text with
    | some color => .ok (some color)
    | none => .error (.invalid s!"{E.quoted text} is not a color (use #RRGGBB).")

/-- Change the first type with an id. -/
def changeType (id : UInt64) (change : BookmarkTypeSetting → BookmarkTypeSetting) :
    List BookmarkTypeSetting → List BookmarkTypeSetting
  | [] => []
  | t :: types => if t.id = id then change t :: types else t :: changeType id change types

/-- Give a type the name and the colour that were given. -/
def BookmarkTypeSetting.updated (name : Option String) (color : Option UInt32)
    (t : BookmarkTypeSetting) : BookmarkTypeSetting :=
  { t with name := name.getD t.name, color := color.getD t.color }

/-- Change the type with an id, or adopt it from the replay. -/
def upsertById (E : Platform) (settings : BookmarkSettings) (table : BookmarkTable) (text : String)
    (name : Option String) (color : Option UInt32) :
    Except BookmarkError (UInt64 × BookmarkSettings) :=
  match (parseTypeId text).filter (· ≠ 0) with
  | none => .error (.invalid s!"{E.quoted text} is not a bookmark type id.")
  | some id =>
    if settings.types.any (·.id = id) then
      .ok (id, { settings with
        types := changeType id (BookmarkTypeSetting.updated name color) settings.types })
    else if maxBookmarkTypes ≤ settings.types.length then .error tooManyTypes
    else
      match typeRecord table id with
      | none => .error (.notFound s!"bookmark type with id {text}")
      | some record =>
        .ok (id, settings.push ⟨id, name.getD record.name, color.getD record.color⟩)

/-- Create a type. -/
def upsertNew (E : Platform) (settings : BookmarkSettings) (table : BookmarkTable)
    (newId : NewTypeId settings table) (name : Option String) (color : Option UInt32) :
    Except BookmarkError (UInt64 × BookmarkSettings) :=
  match name with
  | none => .error (.invalid "A bookmark type needs a name.")
  | some name =>
    if maxBookmarkTypes ≤ settings.types.length then .error tooManyTypes
    else
      .ok (newId.val, settings.push
        ⟨newId.val, name, color.getD (E.paletteColor settings.types.length)⟩)

/-- The name is that of another type than the one that is edited. -/
def nameTaken (E : Platform) (settings : BookmarkSettings) (editing : Option UInt64)
    (name : String) : Bool :=
  settings.types.any fun t ↦ Named E name t ∧ some t.id ≠ editing

/-- Add or change a bookmark type. -/
def upsertBookmarkType (E : Platform) (settings : BookmarkSettings) (table : BookmarkTable)
    (newId : NewTypeId settings table) (upsert : BookmarkTypeUpsert) :
    Except BookmarkError (UInt64 × BookmarkSettings) := do
  let name ← givenName upsert.name
  let color ← givenColor E upsert.color
  match name.filter (nameTaken E settings (upsert.id.bind parseTypeId)) with
  | some name => .error (.invalid s!"There is already a bookmark type named {name}.")
  | none =>
    match upsert.id with
    | some text => upsertById E settings table text name color
    | none => upsertNew E settings table newId name color

/-- Remove a bookmark type from the user's types. -/
def deleteBookmarkType (E : Platform) (settings : BookmarkSettings) (text : String) :
    Except BookmarkError BookmarkSettings :=
  match (parseTypeId text).filter (· ≠ 0) with
  | none => .error (.invalid s!"{E.quoted text} is not a bookmark type id.")
  | some id =>
    let types := settings.types.filter (·.id ≠ id)
    if types.length = settings.types.length then
      .error (.notFound s!"bookmark type with id {formatTypeId id}")
    else
      .ok { settings with
        types, activeType := if settings.activeType = id then 0 else settings.activeType }

/-- Set the type new bookmarks get. -/
def setActiveBookmarkType (E : Platform) (settings : BookmarkSettings) (id : Option String) :
    Except BookmarkError BookmarkSettings :=
  match id.map fun text ↦ (text, parseTypeId text) with
  | none => .ok { settings with activeType := 0 }
  | some (text, none) =>
    .error (.invalid s!"{E.quoted (String.ofList (trim text.toList))} is not a bookmark type id.")
  | some (_, some id) =>
    if id ≠ 0 ∧ (settings.getType id).isNone then
      .error (.notFound s!"bookmark type with id {formatTypeId id}")
    else .ok { settings with activeType := id }

/-! ## The types are a set -/

/-- The user's types as they should be. -/
structure TypesSet (E : Platform) (settings : BookmarkSettings) : Prop where
  nonzero : ∀ t ∈ settings.types, t.id ≠ 0
  ids : (settings.types.map (·.id)).Nodup
  names : (settings.types.map fun t ↦ E.toLowercase t.name).Nodup
  count : settings.types.length ≤ maxBookmarkTypes
  active : settings.activeType = 0 ∨ settings.activeType ∈ settings.types.map (·.id)

variable {E : Platform} {settings settings' : BookmarkSettings} {table : BookmarkTable}
  {t : BookmarkTypeSetting} {id : UInt64}

theorem getType_eq_none (hid : id ≠ 0) :
    settings.getType id = none ↔ id ∉ settings.types.map (·.id) := by
  rw [BookmarkSettings.getType, if_pos hid, List.find?_eq_none]
  simp only [List.mem_map, decide_eq_true_eq, not_exists, not_and]

theorem getType_isSome (h : (settings.getType id).isSome = true) :
    id ∈ settings.types.map (·.id) := by
  rw [BookmarkSettings.getType] at h
  split_ifs at h
  · obtain ⟨t, ht⟩ := Option.isSome_iff_exists.1 h
    have hid := List.find?_some ht
    exact List.mem_map.2 ⟨t, List.mem_of_find?_eq_some ht, by simpa using hid⟩
  · cases h

/-- A type that is not there yet may be added while there is room. -/
theorem TypesSet.push (h : TypesSet E settings) (hid : t.id ≠ 0)
    (hnew : t.id ∉ settings.types.map (·.id)) (hname : ∀ u ∈ settings.types, ¬ Named E t.name u)
    (hroom : settings.types.length < maxBookmarkTypes) : TypesSet E (settings.push t) := by
  refine ⟨?_, ?_, ?_, ?_, ?_⟩
  · intro u hu
    obtain hu | hu := List.mem_append.1 hu
    · exact h.nonzero u hu
    · rw [List.mem_singleton.1 hu]
      exact hid
  · rw [BookmarkSettings.push, List.map_append, List.map_singleton]
    exact h.ids.append (List.nodup_singleton _) (List.disjoint_singleton.2 hnew)
  · rw [BookmarkSettings.push, List.map_append, List.map_singleton]
    refine h.names.append (List.nodup_singleton _) (List.disjoint_singleton.2 ?_)
    intro hmem
    obtain ⟨u, hu, heq⟩ := List.mem_map.1 hmem
    exact hname u hu heq
  · rw [BookmarkSettings.push, List.length_append, List.length_singleton]
    exact hroom
  · rw [BookmarkSettings.push, List.map_append, List.mem_append]
    exact h.active.imp_right Or.inl

theorem map_id_changeType (name : Option String) (color : Option UInt32)
    (types : List BookmarkTypeSetting) :
    (changeType id (BookmarkTypeSetting.updated name color) types).map (·.id) =
      types.map (·.id) := by
  induction types with
  | nil => rfl
  | cons u types ih =>
    rw [changeType]
    split_ifs
    · rfl
    · rw [List.map_cons, List.map_cons, ih]

variable {color : Option UInt32} {name : Option String} {newId : NewTypeId settings table}

/-- The names that a change leaves are those of the other types and the one that was given. -/
theorem mem_lowered_changeType {types : List BookmarkTypeSetting} {lowered : String}
    (h : lowered ∈ (changeType id (BookmarkTypeSetting.updated name color) types).map
      fun u ↦ E.toLowercase u.name) : lowered ∈ types.map (fun u ↦ E.toLowercase u.name) ∨
      ∃ new ∈ name, lowered = E.toLowercase new := by
  induction types with
  | nil => exact Or.inl h
  | cons u types ih =>
    rw [changeType] at h
    split_ifs at h
    · rw [List.map_cons, List.mem_cons] at h
      obtain h | h := h
      · cases name with
        | none => exact Or.inl (List.mem_cons.2 (Or.inl h))
        | some new => exact Or.inr ⟨new, rfl, h⟩
      · exact Or.inl (List.mem_cons_of_mem _ h)
    · rw [List.map_cons, List.mem_cons] at h
      obtain h | h := h
      · exact Or.inl (List.mem_cons.2 (Or.inl h))
      · exact (ih h).imp_left (List.mem_cons_of_mem _)

/-- Renaming a type to what no other type is called leaves the names distinct. -/
theorem nodup_lowered_changeType {types : List BookmarkTypeSetting}
    (h : (types.map fun u ↦ E.toLowercase u.name).Nodup)
    (hname : ∀ new ∈ name, ∀ u ∈ types, Named E new u → u.id = id)
    (hids : (types.map (·.id)).Nodup) :
    ((changeType id (BookmarkTypeSetting.updated name color) types).map
      fun u ↦ E.toLowercase u.name).Nodup := by
  induction types with
  | nil => exact List.nodup_nil
  | cons u types ih =>
    rw [List.map_cons, List.nodup_cons] at h hids
    rw [changeType]
    split_ifs with hu
    · rw [List.map_cons, List.nodup_cons]
      refine ⟨?_, h.2⟩
      cases name with
      | none => exact h.1
      | some new =>
        intro hmem
        obtain ⟨v, hv, heq⟩ := List.mem_map.1 hmem
        have hvid := hname new rfl v (List.mem_cons_of_mem _ hv) heq
        exact hids.1 (List.mem_map.2 ⟨v, hv, hvid.trans hu.symm⟩)
    · rw [List.map_cons, List.nodup_cons]
      refine ⟨fun hmem ↦ ?_, ih h.2 (fun new hnew v hv ↦
        hname new hnew v (List.mem_cons_of_mem _ hv)) hids.2⟩
      obtain hmem | ⟨new, hnew, heq⟩ := mem_lowered_changeType hmem
      · exact h.1 hmem
      · exact hu (hname new hnew u List.mem_cons_self heq)

/-! ## What is adopted -/

/-- The record of the replay that naming a type adopts. -/
def adoptedBy (E : Platform) (settings : BookmarkSettings) (table : BookmarkTable) :
    TypeChoice → Option BookmarkTypeRecord
  | .untyped => none
  | .id id => if (settings.getType id).isSome then none else typeRecord table id
  | .name name =>
    match cleanName name with
    | none => none
    | some name =>
      if (settings.types.any fun t ↦ Named E name t) ∨
          maxBookmarkTypes ≤ settings.types.length then none
      else
        (table.types.find? fun t ↦ E.toLowercase t.name = E.toLowercase name).filter
          fun record ↦ (settings.getType record.id).isNone

/-- The record that an upsert adopts under the name it has. -/
def adoptedByUpsert (E : Platform) (settings : BookmarkSettings) (table : BookmarkTable)
    (upsert : BookmarkTypeUpsert) : Option BookmarkTypeRecord :=
  match upsert.name, givenColor E upsert.color, (upsert.id.bind parseTypeId).filter (· ≠ 0) with
  | none, .ok _, some id =>
    if settings.types.any (·.id = id) ∨ maxBookmarkTypes ≤ settings.types.length then none
    else typeRecord table id
  | _, _, _ => none

/-- A record that may become one of the user's types. -/
structure Adoptable (E : Platform) (settings : BookmarkSettings) (record : BookmarkTypeRecord) :
    Prop where
  nonzero : record.id ≠ 0
  room : settings.types.length < maxBookmarkTypes
  name : ∀ t ∈ settings.types, ¬ Named E record.name t

theorem typeRecord_id {record : BookmarkTypeRecord} (h : typeRecord table id = some record) :
    record.id = id := by
  have hid := List.find?_some h
  simpa using hid

section

variable (h : TypesSet E settings)
include h

/-- An adoptable record that the settings do not know becomes one of the types. -/
theorem TypesSet.adopt {record : BookmarkTypeRecord}
    (hrecord : Adoptable E settings record) (hnew : (settings.getType record.id).isNone = true)
    (color : UInt32) : TypesSet E (settings.push ⟨record.id, record.name, color⟩) :=
  h.push hrecord.nonzero ((getType_eq_none hrecord.nonzero).1 (Option.isNone_iff_eq_none.1 hnew))
    hrecord.name hrecord.room

/-- A type with a new id and a name that no type has becomes one of the types. -/
theorem TypesSet.pushNew {name : String} (hname : ∀ u ∈ settings.types, ¬ Named E name u)
    (hroom : settings.types.length < maxBookmarkTypes) (color : UInt32) :
    TypesSet E (settings.push ⟨newId.val, name, color⟩) :=
  h.push newId.property.1 ((getType_eq_none newId.property.1).1 newId.property.2.1) hname hroom

/-- **Naming a type keeps the types a set**, where what it adopts is adoptable. -/
theorem typesSet_resolveType {choice : TypeChoice}
    (hadopt : ∀ record ∈ adoptedBy E settings table choice, Adoptable E settings record)
    (hres : resolveType E settings table newId choice = .ok (id, settings')) :
    TypesSet E settings' := by
  cases choice with
  | untyped =>
    cases hres
    exact h
  | id wanted =>
    rw [resolveType] at hres
    rw [adoptedBy] at hadopt
    split_ifs at hres hadopt with hknown
    · cases hres
      exact h
    · split at hres
      · cases hres
      · rename_i record hrecord
        cases hres
        have hadopted := hadopt record hrecord
        have hid := typeRecord_id hrecord
        have hnew : (settings.getType record.id).isNone = true := by
          rw [hid]
          simpa using hknown
        rw [← hid]
        exact h.adopt hadopted hnew _
  | name text =>
    rw [resolveType] at hres
    rw [adoptedBy] at hadopt
    split at hres
    · cases hres
    · rename_i name hclean
      rw [hclean] at hadopt
      dsimp only at hadopt
      split at hres
      · cases hres
        exact h
      · rename_i hnone
        have hname : ∀ u ∈ settings.types, ¬ Named E name u := by
          intro u hu
          have := List.find?_eq_none.1 hnone u hu
          simpa using this
        split_ifs at hres with hroom
        have hfree : ¬ ((settings.types.any fun t ↦ decide (Named E name t)) = true ∨
            maxBookmarkTypes ≤ settings.types.length) := by
          rw [not_or]
          refine ⟨fun hany ↦ ?_, hroom⟩
          obtain ⟨u, hu, hnamed⟩ := List.any_eq_true.1 hany
          exact hname u hu (by simpa using hnamed)
        rw [if_neg hfree] at hadopt
        split at hres
        · rename_i record hrecord
          cases hres
          refine h.adopt (hadopt record hrecord) ?_ _
          exact (Option.filter_eq_some_iff.1 hrecord).2
        · cases hres
          exact h.pushNew hname (Nat.lt_of_not_le hroom) _

/-! ## Requests about types -/

theorem typesSet_changeType
    (hname : ∀ new ∈ name, ∀ u ∈ settings.types, Named E new u → u.id = id) :
    TypesSet E { settings with
      types := changeType id (BookmarkTypeSetting.updated name color) settings.types } := by
  have hids := @map_id_changeType id name color settings.types
  have hmem (wanted : UInt64) : wanted ∈ (changeType id (BookmarkTypeSetting.updated name color)
      settings.types).map (·.id) ↔ wanted ∈ settings.types.map (·.id) := by rw [hids]
  refine ⟨fun u hu ↦ ?_, ?_, nodup_lowered_changeType h.names hname h.ids, ?_, ?_⟩
  · obtain ⟨v, hv, heq⟩ := List.mem_map.1 ((hmem u.id).1 (List.mem_map_of_mem hu))
    exact heq ▸ h.nonzero v hv
  · rw [hids]
    exact h.ids
  · have hlen := congrArg List.length hids
    rw [List.length_map, List.length_map] at hlen
    rw [hlen]
    exact h.count
  · exact h.active.imp_right (hmem _).2

theorem typesSet_upsertById {text : String}
    (hname : ∀ new ∈ name, ∀ u ∈ settings.types, Named E new u → some u.id = parseTypeId text)
    (hadopt : ∀ wanted ∈ (parseTypeId text).filter (· ≠ 0),
      settings.types.any (·.id = wanted) = false → settings.types.length < maxBookmarkTypes →
      ∀ record ∈ typeRecord table wanted, name = none → Adoptable E settings record)
    (hres : upsertById E settings table text name color = .ok (id, settings')) :
    TypesSet E settings' := by
  rw [upsertById] at hres
  split at hres
  · cases hres
  · rename_i wanted hwanted
    obtain ⟨hparse, hzero⟩ := Option.filter_eq_some_iff.1 hwanted
    rw [hparse] at hname
    split_ifs at hres with hknown hroom
    · cases hres
      exact typesSet_changeType h fun new hnew u hu hnamed ↦
        Option.some.inj (hname new hnew u hu hnamed)
    · split at hres
      · cases hres
      · rename_i record hrecord
        cases hres
        have hunknown : id ∉ settings.types.map (·.id) := by
          intro hmem
          obtain ⟨u, hu, heq⟩ := List.mem_map.1 hmem
          exact hknown (List.any_eq_true.2 ⟨u, hu, by simpa using heq⟩)
        refine h.push (by simpa using hzero) hunknown (fun u hu hnamed ↦ ?_)
          (Nat.lt_of_not_le hroom)
        cases name with
        | none =>
          exact (hadopt id hwanted (by simpa using hknown) (Nat.lt_of_not_le hroom) record hrecord
            rfl).name u hu hnamed
        | some new =>
          have heq := Option.some.inj (hname new rfl u hu hnamed)
          exact hunknown (List.mem_map.2 ⟨u, hu, heq⟩)

theorem typesSet_upsertNew (hname : ∀ new ∈ name, ∀ u ∈ settings.types, ¬ Named E new u)
    (hres : upsertNew E settings table newId name color = .ok (id, settings')) :
    TypesSet E settings' := by
  cases name with
  | none => cases hres
  | some name =>
    rw [upsertNew] at hres
    split_ifs at hres with hroom
    cases hres
    exact h.pushNew (hname name rfl) (Nat.lt_of_not_le hroom) _

/-- **An upsert keeps the types a set**, where what it adopts under its own name is adoptable. -/
theorem typesSet_upsert {upsert : BookmarkTypeUpsert}
    (hadopt : ∀ record ∈ adoptedByUpsert E settings table upsert, Adoptable E settings record)
    (hres : upsertBookmarkType E settings table newId upsert = .ok (id, settings')) :
    TypesSet E settings' := by
  rw [upsertBookmarkType] at hres
  cases hgiven : givenName upsert.name with
  | error e =>
    rw [hgiven] at hres
    cases hres
  | ok name =>
    cases hcolor : givenColor E upsert.color with
    | error e =>
      rw [hgiven, hcolor] at hres
      cases hres
    | ok color =>
      rw [hgiven, hcolor] at hres
      dsimp only [bind, Except.bind] at hres
      split at hres
      · cases hres
      · rename_i hfree
        have hname : ∀ new ∈ name, ∀ u ∈ settings.types, Named E new u →
            some u.id = upsert.id.bind parseTypeId := by
          intro new hnew u hu hnamed
          rw [Option.filter_eq_none_iff] at hfree
          by_contra hother
          refine hfree new hnew ?_
          exact List.any_eq_true.2 ⟨u, hu, by simpa using ⟨hnamed, hother⟩⟩
        cases hid : upsert.id with
        | some text =>
          rw [hid] at hname hres
          refine typesSet_upsertById h hname ?_ hres
          intro wanted hwanted hunknown hroom record hrecord hnone
          refine hadopt record ?_
          have hgave : upsert.name = none := by
            rw [hnone] at hgiven
            cases hupsert : upsert.name with
            | none => rfl
            | some given =>
              rw [hupsert, givenName] at hgiven
              split at hgiven <;> cases hgiven
          have hchoice : (upsert.id.bind parseTypeId).filter (· ≠ 0) = some wanted := by
            rw [hid]
            exact hwanted
          have hroom' : ¬ (settings.types.any (fun t ↦ decide (t.id = wanted)) = true ∨
              maxBookmarkTypes ≤ settings.types.length) := by
            rw [hunknown, not_or]
            exact ⟨Bool.false_ne_true, Nat.not_le_of_lt hroom⟩
          rw [adoptedByUpsert, hgave, hcolor, hchoice]
          dsimp only
          rw [if_neg hroom']
          exact hrecord
        | none =>
          rw [hid] at hname hres
          refine typesSet_upsertNew h (fun new hnew u hu hnamed ↦ ?_) hres
          cases hname new hnew u hu hnamed

/-- **Deleting a type keeps the types a set.** -/
theorem typesSet_delete {text : String}
    (hres : deleteBookmarkType E settings text = .ok settings') : TypesSet E settings' := by
  rw [deleteBookmarkType] at hres
  split at hres
  · cases hres
  · rename_i id hid
    dsimp only at hres
    by_cases hlen : (settings.types.filter (·.id ≠ id)).length = settings.types.length
    · rw [if_pos hlen] at hres
      cases hres
    · rw [if_neg hlen] at hres
      cases hres
      have hsub := List.filter_sublist (l := settings.types) (p := fun t ↦ decide (t.id ≠ id))
      refine ⟨fun u hu ↦ h.nonzero u (hsub.subset hu), h.ids.sublist (hsub.map _),
        h.names.sublist (hsub.map _), Nat.le_trans hsub.length_le h.count, ?_⟩
      split_ifs with hactive
      · exact Or.inl rfl
      · refine h.active.imp_right fun hmem ↦ ?_
        obtain ⟨u, hu, heq⟩ := List.mem_map.1 hmem
        refine List.mem_map.2 ⟨u, List.mem_filter.2 ⟨hu, ?_⟩, heq⟩
        rw [heq]
        simpa using hactive

/-- **Setting the active type keeps the types a set.** -/
theorem typesSet_setActive {text : Option String}
    (hres : setActiveBookmarkType E settings text = .ok settings') : TypesSet E settings' := by
  have hset (id : UInt64) (hid : id = 0 ∨ id ∈ settings.types.map (·.id)) :
      TypesSet E { settings with activeType := id } := ⟨h.nonzero, h.ids, h.names, h.count, hid⟩
  rw [setActiveBookmarkType] at hres
  split at hres
  · cases hres
    exact hset 0 (Or.inl rfl)
  · cases hres
  · rename_i id _
    split_ifs at hres with hunknown
    cases hres
    refine hset id ?_
    by_cases hzero : id = 0
    · exact Or.inl hzero
    · refine Or.inr (getType_isSome ?_)
      rw [Option.isSome_iff_ne_none]
      intro hnone
      exact hunknown ⟨hzero, by rw [hnone]; rfl⟩

end

end Frontend

end SuperShuckie
