import EntityForge.Diagnostic
import EntityForge.Entity.Basic

/-!
# Resolving references

Projections, composite indexes and commands refer to fields by name. A name that no field has is
dropped, with a finding that is an error when references are strict. A projection or an index that
is left without a name is dropped itself; a command never is.
-/

namespace EntityForge.Build

/-- The known names of a projection; every other name is reported and dropped. -/
def projection (entity : String) (known : List String) (strict : Bool) (p : Projection) :
    Noted (Option Projection) := do
  Noted.each (fun n =>
    if known.contains n then pure ()
    else .dangling strict "PROJECTION_FIELD_UNKNOWN"
      (s!"Projection '{p.name}' of '{entity}' names unknown field '{n}'; it is dropped.")
      [("entity", .text entity), ("projection", .text p.name), ("field", .text n)]) p.fields
  let kept := p.fields.filter known.contains
  if kept.isEmpty then do
    .warning "PROJECTION_EMPTY"
      (s!"Projection '{p.name}' of '{entity}' has no known fields and will not be generated.")
      [("entity", .text entity), ("projection", .text p.name)]
    pure none
  else pure (some ⟨p.name, kept⟩)

/-- The column that a name stands for: a column stays itself, otherwise a field gives its column.
Of fields with one name the last counts. -/
def columnFor? (fields : List Field) (name : String) : Option String :=
  if fields.any fun f => f.columnName == name then some name
  else (fields.reverse.find? fun f => f.name == name).map Field.columnName

/-- The known columns of an index; every other name is reported and dropped. -/
def index (entity : String) (fields : List Field) (strict : Bool) (i : CompositeIndex) :
    Noted (Option CompositeIndex) := do
  let listed := ", ".intercalate i.columns
  Noted.each (fun n =>
    if (columnFor? fields n).isSome then pure ()
    else .dangling strict "INDEX_COLUMN_UNKNOWN"
      (s!"Index on '{entity}' ({listed}) names unknown column '{n}'; it is dropped.")
      [("entity", .text entity), ("column", .text n)]) i.columns
  let kept := i.columns.filterMap (columnFor? fields)
  pure (if kept.isEmpty then none else some { i with columns := kept })

/-- The known fields of a command; every other name is reported and dropped. -/
def command (entity : String) (known : List String) (strict : Bool) (c : Command) :
    Noted (Option Command) := do
  Noted.each (fun n =>
    if known.contains n then pure ()
    else .dangling strict "COMMAND_FIELD_UNKNOWN"
      (s!"Command '{c.name}' of '{entity}' names unknown field '{n}'; it is dropped.")
      [("entity", .text entity), ("command", .text c.name), ("field", .text n)]) c.fields
  pure (some { c with fields := c.fields.filter known.contains })

end EntityForge.Build
