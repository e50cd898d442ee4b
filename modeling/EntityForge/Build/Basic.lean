import EntityForge.Attribute.Entity
import EntityForge.Attribute.Field
import EntityForge.Build.Reference
import EntityForge.Build.Shape
import EntityForge.FieldType.Parse
import EntityForge.Validation.Entity

/-!
# Building entities

A declaration becomes an entity in four stages: its shape is checked, its attributes are read, its
references are resolved, and the finished entity is validated. All stages but the first run to
their end, so that one build reports every fault of a declaration. An entity is built exactly when
no finding is an error.
-/

namespace EntityForge.Build

/-- A declaration that could not be built, with everything that was found. -/
structure Failure where
  entity : String
  findings : Diagnostics
  deriving Repr, Inhabited

/-- The wording of a failure. -/
def Failure.message (f : Failure) : String := Diagnostics.fatalMessage f.entity f.findings

/-- A field of the entity, unless its type cannot be read. -/
def field (entity : String) (d : FieldDeclaration) : Noted (Option Field) := do
  let name := d.name.getD ""
  let attributes ← Attribute.fieldAttributes entity name d.attributes
  match FieldType.parse d.type with
  | .ok type =>
    pure (some ⟨name, type, d.doc, attributes.exposure, attributes.storage, attributes.filter,
      attributes.column⟩)
  | .error fault => do
    .error "INVALID_TYPE" s!"Field '{entity}.{name}': {fault.message}"
      [("entity", .text entity), ("field", .text name), ("type", .text d.type)]
    pure none

/-- Reports a missing or a repeated identifier. -/
def identifier (entity : String) (fields : List Field) : Noted Unit :=
  match fields.filter Field.isId with
  | [_] => pure ()
  | [] => .error "MISSING_ID"
    (s!"Entity '{entity}' has no identifier field; mark exactly " ++ "one field with 'id: true'.")
    [("entity", .text entity)]
  | several =>
    let names := ", ".intercalate (several.map Field.name)
    .error "MULTIPLE_IDS"
      (s!"Entity '{entity}' has {several.length} identifier fields ({names}); " ++
        "exactly one is allowed.")
      [("entity", .text entity), ("fields", .text names)]

/-- What the attributes and references of a declaration say. -/
structure Parts where
  attributes : Attribute.EntityAttributes
  fields : List Field
  projections : List Projection
  indexes : List CompositeIndex
  commands : List Command
  deriving Repr, Inhabited

/-- The parts of a declaration, with all findings about them. -/
def parts (d : EntityDeclaration) (strict : Bool) : Noted Parts := do
  let attributes ← Attribute.entityAttributes d.name d.attributes
  let fields ← Noted.collect (field d.name) (d.fields.getD [])
  if (Value.lookup "table" d.attributes).isNone then
    .error "MISSING_TABLE" s!"Entity '{d.name}' requires a 'table' attribute."
      [("entity", .text d.name)]
  identifier d.name fields
  let known := fields.map Field.name
  let projections ← Noted.collect (projection d.name known strict) attributes.projections
  let indexes ← Noted.collect (index d.name fields strict) attributes.indexes
  let commands ← Noted.collect (command d.name known strict) attributes.commands
  pure ⟨attributes, fields, projections, indexes, commands⟩

/-- The entity that parts make up, if they have a table and exactly one identifier. -/
def assemble? (d : EntityDeclaration) (p : Parts) : Option Entity :=
  match p.attributes.table, h : identifierIndexes p.fields with
  | some table, [i] =>
    let a := p.attributes
    some ⟨d.name, d.visibility, d.doc, table, a.schema, a.dialect, a.uuidVersion, a.errorType,
      p.fields, i, a.softDelete, a.returning, a.sqlLevel, a.hasMany, p.projections, p.indexes,
      p.commands, a.features, a.api, h⟩
  | _, _ => none

/-- The entity that a declaration describes, with what was found; or everything that was found if
it cannot be built. -/
def build (d : EntityDeclaration) (strict : Bool) : Except Failure (Entity × Diagnostics) :=
  let shape := (shape d).notes
  if Diagnostics.hasErrors shape then .error ⟨d.name, shape⟩
  else
    let found := parts d strict
    match Diagnostics.hasErrors found.notes, assemble? d found.value with
    | false, some e =>
      let findings := found.notes ++ (Validation.entity e).notes
      if Diagnostics.hasErrors findings then .error ⟨d.name, findings⟩ else .ok (e, findings)
    | _, _ => .error ⟨d.name, found.notes⟩

end EntityForge.Build
