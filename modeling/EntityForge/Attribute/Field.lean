import EntityForge.Attribute.Scalar
import EntityForge.Entity.Field

/-!
# Reading the attributes of a field

Every attribute of a field is read on its own: its part in identity, generation and relations, the
outputs it appears in, its filter and its column hints.
-/

namespace EntityForge.Attribute

/-- The attributes of a field. -/
def fieldKeys : List String := ["id", "auto", "field", "filter", "belongs_to", "column"]

/-- The outputs a field can be selected for. -/
def exposureNames : List String := ["create", "update", "response", "skip"]

/-- The attributes of the column hints. -/
def columnKeys : List String :=
  ["unique", "index", "default", "check", "varchar", "sql_type", "nullable", "name"]

/-- What the attributes of a field say. -/
structure FieldAttributes where
  exposure : Exposure := {}
  storage : Storage := {}
  filter : FilterKind := .none
  column : ColumnHints := {}
  deriving Repr, Inhabited

/-- The exposure with one output set. -/
def setExposure (name : String) (selected : Bool) (x : Exposure) : Exposure :=
  match name with
  | "create" => { x with create := selected }
  | "update" => { x with update := selected }
  | "response" => { x with response := selected }
  | "skip" => { x with skip := selected }
  | _ => x

/-- The name of an output, refused if there is no such output. -/
def exposureName (value : Value) (site : Site) : Noted (Option String) :=
  let found := match value with
    | .text s => if exposureNames.contains s then some s else none
    | _ => none
  match found with
  | some s => pure (some s)
  | none => do
    let choices := ", ".intercalate exposureNames
    site.fault "INVALID_EXPOSURE" "field"
      s!"unknown exposure {value.quoted}, expected one of: {choices}."
    pure none

/-- Selects the outputs that a list names. -/
def exposureOfNames (site : Site) (x : Exposure) : List Value → Noted Exposure
  | [] => pure x
  | v :: vs => do
    match ← exposureName v site with
    | some s => exposureOfNames site (setExposure s true x) vs
    | none => exposureOfNames site x vs

/-- Selects or deselects the outputs that a mapping names. -/
def exposureOfFlags (site : Site) (x : Exposure) : Entries → Noted Exposure
  | [] => pure x
  | (k, v) :: rest => do
    match ← exposureName k site with
    | none => exposureOfFlags site x rest
    | some s => do
      match ← flag v s!"field.{s}" site with
      | some b => exposureOfFlags site (setExposure s b x) rest
      | none => exposureOfFlags site x rest

/-- The outputs a field is selected for: a name, a list of names, or a mapping to truth values. -/
def exposure (value : Value) (site : Site) : Noted Exposure :=
  match value with
  | .text s => exposureOfNames site {} [.text s]
  | .list items => exposureOfNames site {} items
  | .map entries => exposureOfFlags site {} entries
  | v => do
    site.fault "INVALID_EXPOSURE" "field"
      s!"'field' must be a name, a list or a mapping, got {v.quoted}."
    pure {}

/-- The filter of a field; a bare key asks for equality. -/
def filter (value : Value) (site : Site) : Noted FilterKind :=
  match value with
  | .null => pure .eq
  | .bool true => pure .eq
  | .bool false => pure .none
  | v => do pure ((← choice FilterKind v "filter" "INVALID_FILTER" site).getD .none)

/-- What happens when the row referred to is deleted. -/
def onDelete (value : Value) (site : Site) : Noted (Option ReferentialAction) :=
  let found := match value with
    | .text s => ReferentialAction.ofText? s
    | _ => none
  match found with
  | some a => pure (some a)
  | none => do
    let choices := ", ".intercalate ((Vocabulary.words ReferentialAction).map String.toLower)
    site.fault "INVALID_ON_DELETE" "on_delete"
      s!"invalid on_delete {value.quoted}, expected one of: {choices}."
    pure none

/-- The entity that a field refers to, and what happens when the row referred to is deleted. -/
def relation (value : Value) (site : Site) : Noted (Option String × Option ReferentialAction) :=
  match value with
  | .text s => do pure (← name (.text s) "belongs_to" site, none)
  | .map entries =>
    match Value.lookup "entity" entries with
    | some target => do
      let target ← name target "belongs_to" site
      let action ← present entries "on_delete" none fun v => onDelete v site
      pure (target, action)
    | none => refuse
  | _ => refuse
where
  /-- Refuses a value that names no entity. -/
  refuse : Noted (Option String × Option ReferentialAction) := do
    site.fault "INVALID_RELATION" "belongs_to"
      ("'belongs_to' must be an entity name or a mapping " ++
        "with 'entity' and optional 'on_delete'.")
    pure (none, none)

/-- The text of a default value. -/
def defaultText : Value → String
  | .bool b => if b then "TRUE" else "FALSE"
  | v => v.plain

/-- The access method of a column's index; a bare key asks for a B-tree. -/
def columnIndex (value : Value) (site : Site) : Noted (Option IndexKind) :=
  match value with
  | .null => pure (some .btree)
  | .bool true => pure (some .btree)
  | .bool false => pure none
  | v => choice IndexKind v "index" "INVALID_INDEX_TYPE" site

/-- The greatest length of a text. -/
def width (value : Value) (site : Site) : Noted (Option Nat) :=
  match value with
  | .int (.ofNat (n + 1)) => pure (some (n + 1))
  | v => do
    site.fault "INVALID_COLUMN_HINT" "varchar"
      s!"'varchar' must be a positive integer, got {v.quoted}."
    pure none

/-- The hints on how a field is stored. -/
def columnHints (value : Value) (site : Site) : Noted ColumnHints :=
  match value with
  | .map entries => do
    let inner : Site := ⟨s!"{site.label} column", site.context⟩
    noteUnknown entries columnKeys inner
    let unique ← given entries "unique" none fun v => flag v "unique" inner
    let nullable ← given entries "nullable" none fun v => flag v "nullable" inner
    let index ← given entries "index" none fun v => columnIndex v inner
    let defaultValue ← present entries "default" none fun v => pure (some (defaultText v))
    let constraint ← present entries "check" none fun v => text v "check" inner
    let sqlType ← present entries "sql_type" none fun v => text v "sql_type" inner
    let name ← present entries "name" none fun v => name v "name" inner
    let width ← given entries "varchar" none fun v => width v inner
    pure ⟨unique.getD false, index, defaultValue, constraint, width, sqlType, nullable.getD false, name⟩
  | _ => do
    site.fault "INVALID_COLUMN_HINT" "column" "'column' must be a mapping of migration hints."
    pure {}

/-- The site of a field. -/
def fieldSite (entity field : String) : Site :=
  ⟨s!"Field '{entity}.{field}'", [("entity", .text entity), ("field", .text field)]⟩

/-- What the attributes of a field say. -/
def fieldAttributes (entity field : String) (entries : Entries) : Noted FieldAttributes := do
  let site := fieldSite entity field
  noteUnknown entries fieldKeys site
  let isId ← given entries "id" none fun v => flag v "id" site
  let isAuto ← given entries "auto" none fun v => flag v "auto" site
  let (target, action) ← given entries "belongs_to" (none, none) fun v => relation v site
  let exposure ← given entries "field" {} fun v => exposure v site
  let filter ← given entries "filter" .none fun v => filter v site
  let column ← present entries "column" {} fun v => columnHints v site
  pure ⟨exposure, ⟨isId.getD false, isAuto.getD false, target, action⟩, filter, column⟩

end EntityForge.Attribute
