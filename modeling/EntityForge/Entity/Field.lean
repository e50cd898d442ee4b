import EntityForge.FieldType.Column

/-!
# Fields

A field of an entity: its name and type, the outputs it appears in, its part in identity,
generation and relations, its filter and its column hints. A skipped field appears in no output,
whatever else is selected; an identifier is always read back unless it is skipped.
-/

namespace EntityForge

/-- The outputs a field is selected for. -/
structure Exposure where
  create : Bool := false
  update : Bool := false
  response : Bool := false
  skip : Bool := false
  deriving DecidableEq, Repr, Inhabited

/-- The part of a field in identity, generation and relations. -/
structure Storage where
  isId : Bool := false
  /-- The value is made by the database. -/
  isAuto : Bool := false
  /-- The entity that the field refers to. -/
  belongsTo : Option String := none
  onDelete : Option ReferentialAction := none
  deriving DecidableEq, Repr, Inhabited

/-- A field of an entity. -/
structure Field where
  name : String
  type : FieldType
  doc : Option String := none
  exposure : Exposure := {}
  storage : Storage := {}
  filter : FilterKind := .none
  column : ColumnHints := {}
  deriving DecidableEq, Repr, Inhabited

/-- A text, unless it is missing or empty. -/
def nonEmpty? (s : Option String) : Option String := s.filter fun t => !t.isEmpty

namespace Field

/-- The field identifies its entity. -/
def isId (f : Field) : Bool := f.storage.isId

/-- The database makes the field's value. -/
def isAuto (f : Field) : Bool := f.storage.isAuto

/-- The field refers to another entity. -/
def isRelation (f : Field) : Bool := f.storage.belongsTo.isSome

/-- The name of the entity that the field refers to. -/
def parent (f : Field) : String := f.storage.belongsTo.getD ""

/-- The column admits null. -/
def isNullable (f : Field) : Bool := f.type.nullable || f.column.nullable

/-- The name of the field's column. -/
def columnName (f : Field) : String := (nonEmpty? f.column.name).getD f.name

/-- The type of the field's column. -/
def columnType (f : Field) : ColumnType := .ofField f.type f.column

/-- The field is taken on creation, unless it is identifier or made by the database. -/
def inCreate (f : Field) : Bool := !f.exposure.skip && f.exposure.create

/-- The field is taken on a change, unless it is identifier or made by the database. -/
def inUpdate (f : Field) : Bool := !f.exposure.skip && f.exposure.update

/-- The field is read back. -/
def inResponse (f : Field) : Bool := !f.exposure.skip && (f.exposure.response || f.isId)

/-- The form of a field in log lines. -/
def label (f : Field) : String :=
  s!"<Field {f.name}: {f.type.raw}" ++ (if f.isId then " ID>" else ">")

end Field

end EntityForge
