import EntityForge.Package.Shape

/-!
# The query module

The filter parameters of an entity and the function that makes a statement from them. A field
compared for equality or likeness has one parameter, a field with a range two. Every parameter
carries the template of its condition; a likeness compares the column, as a text, with a pattern.
-/

namespace EntityForge.Package

open Source

/-- An optional filter parameter. -/
structure FilterParameter where
  name : String
  field : Field
  /-- The condition, with a placeholder for the number of the parameter. -/
  template : String
  /-- The value is turned into a pattern that matches the texts containing it. -/
  pattern : Bool := false
  deriving DecidableEq, Repr

/-- The parameters of one field. -/
def fieldParameters (f : Field) : List FilterParameter :=
  let column := f.columnName
  match f.filter with
  | .none => []
  | .eq => [⟨f.name, f, column ++ " = $\x7b\x7d", false⟩]
  | .like =>
    let subject := if f.type.isTextual then column else column ++ "::text"
    [⟨f.name, f, subject ++ " ILIKE $\x7b\x7d", true⟩]
  | .range => [⟨f.name ++ "_from", f, column ++ " >= $\x7b\x7d", false⟩,
    ⟨f.name ++ "_to", f, column ++ " <= $\x7b\x7d", false⟩]

/-- The filter parameters of an entity, in the order of its fields. -/
def filterParameters (e : Entity) : List FilterParameter := e.filterFields.flatMap fieldParameters

namespace FilterParameter

/-- The declaration of a parameter in the class of the filter parameters. -/
def declaration (p : FilterParameter) : ShapeField where
  name := p.name
  hint := if p.pattern then "Optional[str]" else (p.field.type.hint true).text
  defaultValue := some "None"

/-- The expression for the value that is bound. -/
def value (p : FilterParameter) : String :=
  if p.pattern then s!"None if query.{p.name} is None else like_pattern(query.{p.name})"
  else "query." ++ p.name

end FilterParameter

/-- The names of all attributes of the class of the filter parameters. -/
def queryAttributes (e : Entity) : List String :=
  (filterParameters e).map FilterParameter.name ++ ["limit", "offset"]

/-- The class of the filter parameters. -/
def queryClass (e : Entity) : ClassBlock where
  name := e.queryName
  bases := ["BaseModel"]
  doc := some (s!"Filter parameters for listing {e.name} rows." ++
    "\n\nUnset parameters add no condition.")
  paragraphs := [.attributes ((filterParameters e).map (fun p => p.declaration.text) ++ [
    "limit: Optional[int] = Field(default=None, ge=0)",
    "offset: Optional[int] = Field(default=None, ge=0)"])]

/-- The condition that leaves out rows marked as deleted. -/
def liveCondition : String := "deleted_at IS NULL"

/-- The conditions that hold whatever the parameters are. -/
def fixedConditions (e : Entity) (includeDeleted : Bool) : List String :=
  if e.softDelete && !includeDeleted then [liveCondition] else []

/-- The function that makes a statement from filter parameters. -/
def queryFunction (e : Entity) : Function where
  name := e.queryFunction
  parameters := [s!"query: {e.queryName}", "*", "include_deleted: bool = False"]
  returns := "Tuple[str, List[Any]]"
  layout := .separate
  doc := some ("SELECT for *query*: one condition per set parameter, newest first.\n\n" ++
    "Returns the statement and its positional parameters." ++
    (if e.softDelete then
      "  Soft-deleted rows are excluded unless *include_deleted* is set." else ""))
  body := [⟨0, "candidates: List[Tuple[str, Any]] = ["⟩] ++
    (filterParameters e).map (fun p => ⟨1, "(\"" ++ p.template ++ "\", " ++ p.value ++ "),"⟩) ++
    [⟨0, "]"⟩,
      ⟨0, "static: List[str] = " ++ (if e.softDelete then
        "[] if include_deleted else [\"" ++ liveCondition ++ "\"]" else "[]")⟩,
      ⟨0, "return build_select("⟩,
      ⟨1, "COLUMNS,"⟩, ⟨1, "TABLE,"⟩, ⟨1, "candidates,"⟩,
      ⟨1, "order_by=\"" ++ e.idField.columnName ++ "\","⟩,
      ⟨1, "limit=query.limit,"⟩, ⟨1, "offset=query.offset,"⟩, ⟨1, "static_conditions=static,"⟩,
      ⟨0, ")"⟩]

/-- The columns that a query reads. -/
def queryColumns (e : Entity) : String := ", ".intercalate e.columnNames

/-- What the query module imports. -/
def queryImports (runtime : String) (e : Entity) : List Registration :=
  let parameters := filterParameters e
  lastPerModule [("pydantic", ["BaseModel", "Field"]),
    ("typing", ["Any", "List", "Optional", "Tuple"]), (runtime, ["build_select"])] ++
    (if parameters.any FilterParameter.pattern then [(runtime, ["like_pattern"])] else []) ++
    parameters.flatMap fun p => p.field.type.hintImports true

/-- The module with the filter parameters of an entity, if it has any. -/
def queryModule? (runtime : String) (e : Entity) : Option Module :=
  if (filterParameters e).isEmpty then none
  else some {
    doc := s!"Filter parameters and dynamic query for {e.name}." ++ generatedNote
    imports := queryImports runtime e
    sections := [
      .assignments [[⟨"TABLE", "\"" ++ e.fullTable ++ "\"", none, []⟩,
        ⟨"COLUMNS", "\"" ++ queryColumns e ++ "\"", none, []⟩]],
      .classDef (queryClass e), .function (queryFunction e)] }

end EntityForge.Package
