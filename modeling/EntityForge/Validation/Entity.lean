import EntityForge.Diagnostic
import EntityForge.Entity.Basic
import EntityForge.Source.Keyword
import EntityForge.Validation.Reserved

/-!
# Validation of one entity

The checks that a finished entity must pass on its own: names that are identifiers and not used
twice, filters that suit the type of their field, a column for soft deletion, and distinct names of
commands, indexes and projections.
-/

namespace EntityForge.Validation

/-- Runs a check on every item; the check is told whether the item's key came up before. -/
def eachWithRepeat {α : Type} (key : α → String) (check : Bool → α → Noted Unit) :
    List String → List α → Noted Unit
  | _, [] => pure ()
  | seen, a :: rest => do
    check (seen.contains (key a)) a
    eachWithRepeat key check (key a :: seen) rest

/-- Records a finding if a condition holds. -/
def when (condition : Bool) (x : Noted Unit) : Noted Unit := if condition then x else pure ()

/-- The checks on the name of a field and of its column, which may have come up before. -/
def fieldName (e : Entity) (repeatedField repeatedColumn : Bool) (f : Field) : Noted Unit := do
  let ctx : Context := [("entity", .text e.name), ("field", .text f.name)]
  when repeatedField <| .error "DUPLICATE_FIELD_NAME"
    s!"Field '{f.name}' is declared more than once on '{e.name}'." ctx
  when repeatedColumn <| .error "DUPLICATE_COLUMN_NAME"
    s!"Column '{f.columnName}' is used by more than one field of '{e.name}'." ctx
  if !Source.isIdentifier f.name then
    .error "INVALID_FIELD_NAME"
      s!"Field '{f.name}' of '{e.name}' is not a valid identifier." ctx
  else do
    when (isModelName f.name) <| .error "FIELD_NAME_RESERVED"
      s!"Field '{f.name}' of '{e.name}' clashes with a pydantic model attribute." ctx
    when (sqlWords.contains (.ofList (Text.smallLetters f.columnName.toList))) <|
      .warning "COLUMN_NAME_SQL_RESERVED"
        (s!"Column '{f.columnName}' of '{e.name}' is a SQL reserved word; " ++
          "statements will need quoting.") ctx

/-- The checks on the names of all fields and columns. -/
def fieldNamesFrom (e : Entity) (names columns : List String) : List Field → Noted Unit
  | [] => pure ()
  | f :: rest => do
    fieldName e (names.contains f.name) (columns.contains f.columnName) f
    fieldNamesFrom e (f.name :: names) (f.columnName :: columns) rest

/-- Field names are identifiers, and field and column names are distinct. -/
def fieldNames (e : Entity) : Noted Unit := fieldNamesFrom e [] [] e.fields

/-- Pattern filters need text and range filters need values that can be compared. -/
def filters (e : Entity) : Noted Unit :=
  Noted.each (fun f => do
    let ctx : Context := [("entity", .text e.name), ("field", .text f.name),
      ("filter", .text (Vocabulary.word f.filter))]
    when (f.filter == .like && !f.type.isTextual) <| .warning "LIKE_FILTER_ON_NON_TEXT"
      (s!"Field '{f.name}' of '{e.name}' uses a 'like' filter " ++
        s!"but its type '{f.type.raw}' is not text.") ctx
    when (f.filter == .range && !f.type.isOrderable) <| .warning "RANGE_FILTER_ON_UNORDERED"
      (s!"Field '{f.name}' of '{e.name}' uses a 'range' filter " ++
        s!"but its type '{f.type.raw}' has no natural ordering.") ctx) e.filterFields

/-- Soft deletion needs a column for the time of deletion. -/
def softDeletion (e : Entity) : Noted Unit :=
  when (e.softDelete && !e.columnNames.contains "deleted_at") <|
    .warning "SOFT_DELETE_COLUMN_MISSING"
      (s!"Entity '{e.name}' enables soft_delete but has no 'deleted_at' field; " ++
        "generated statements expect that column to exist.") [("entity", .text e.name)]

/-- Command names are distinct identifiers. -/
def commands (e : Entity) : Noted Unit := do
  eachWithRepeat Command.name (fun repeated c => do
    let ctx : Context := [("entity", .text e.name), ("command", .text c.name)]
    when repeated <| .error "DUPLICATE_COMMAND"
      s!"Command '{c.name}' is declared more than once on '{e.name}'." ctx
    when (!Source.isIdentifier c.name) <| .error "INVALID_COMMAND_NAME"
      s!"Command name '{c.name}' of '{e.name}' is not a valid identifier." ctx) [] e.commands
  when (e.features.commands && e.commands.isEmpty) <| .info "COMMANDS_EMPTY"
    s!"Entity '{e.name}' enables commands but declares none." [("entity", .text e.name)]

/-- Index names are distinct within the table. -/
def indexes (e : Entity) : Noted Unit :=
  eachWithRepeat id (fun repeated n =>
    when repeated <| .error "DUPLICATE_INDEX_NAME"
      s!"Index name '{n}' is produced more than once for table '{e.table}'."
      [("entity", .text e.name), ("index", .text n)]) [] e.indexNames

/-- Projection names are distinct. -/
def projections (e : Entity) : Noted Unit :=
  eachWithRepeat Projection.name (fun repeated p =>
    when repeated <| .error "DUPLICATE_PROJECTION"
      s!"Projection '{p.name}' is declared more than once on '{e.name}'."
      [("entity", .text e.name), ("projection", .text p.name)]) [] e.projections

/-- All checks on one entity. -/
def entity (e : Entity) : Noted Unit := do
  fieldNames e
  filters e
  softDeletion e
  commands e
  indexes e
  projections e

end EntityForge.Validation
