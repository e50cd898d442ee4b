import EntityForge.Document.Declaration
import EntityForge.Package.Shape

/-!
# The transfer module

The shapes in which entities travel: the request that creates one, the request that changes one,
the response, and the projections. A shape without fields is left out, and so is the whole module
when no shape is left. The request that creates an entity builds it in full: the identifier is
fresh, the fields of the request are taken over, and any other field gets the zero value of its
type.
-/

namespace EntityForge.Package

open Source

/-- Where the value of a field of a new entity comes from. -/
inductive Initial where
  /-- A fresh identifier, made by a function. -/
  | fresh (function : String)
  /-- A field of the request. -/
  | request (field : String)
  /-- An expression. -/
  | zero (expression : String)
  deriving DecidableEq, Repr

/-- The expression for an initial value. -/
def Initial.text : Initial → String
  | .fresh function => function ++ "()"
  | .request field => "self." ++ field
  | .zero expression => expression

/-- The function that makes fresh identifiers. -/
def freshFunction (v : UuidVersion) : String := if v = .v7 then "uuid7" else "uuid4"

/-- Where the value of one field comes from. -/
def initial (e : Entity) (f : Field) : Initial :=
  if f.isId then
    if f.type.isUuid then .fresh (freshFunction e.uuidVersion) else .zero f.type.zeroValue.1
  else if e.createFields.any fun g => g.name == f.name then .request f.name
  else .zero f.type.zeroValue.1

/-- What the initial value of one field needs imported. -/
def initialImports (runtime : String) (e : Entity) (f : Field) : List Registration :=
  match initial e f with
  | .fresh function => [(runtime, [function])]
  | .request _ => []
  | .zero _ => f.type.zeroValue.2

/-- The arguments from which the request builds a new entity. -/
def newEntityArguments (e : Entity) : List (String × Initial) :=
  e.fields.map fun f => (f.name, initial e f)

/-- The request that creates an entity. -/
def createRequest (e : Entity) : ClassBlock where
  name := e.createRequest
  bases := ["BaseModel"]
  doc := some s!"Payload for creating a {e.name}."
  paragraphs := [shapeAttributes false e.createFields, .method {
    name := "to_entity"
    parameters := ["self"]
    returns := e.name
    doc := some ("Complete entity with a fresh identifier; fields the request " ++
      "does not carry get their type's default.")
    body := returnCall e.name ((newEntityArguments e).map fun a => (a.1, a.2.text)) }]

/-- The fields of a change that cannot be set to nothing. -/
def requiredChanges (e : Entity) : List String :=
  (e.updateFields.filter fun f => !f.isNullable).map Field.name

/-- The lines that collect the fields set explicitly, where a required one that is set to nothing
counts as unset. -/
def changesBody (e : Entity) : List CodeLine :=
  let required := requiredChanges e
  let members := ", ".intercalate (required.map fun n => "\"" ++ n ++ "\"")
  flat ("data: Dict[str, Any] = self.model_dump(exclude_unset=True)" ::
    if required.isEmpty then ["return data"]
    else ["required = \x7b" ++ members ++ "\x7d",
      "return \x7bk: v for k, v in data.items() if v is not None or k not in required\x7d"])

/-- The request that changes an entity. -/
def updateRequest (e : Entity) : ClassBlock where
  name := e.updateRequest
  bases := ["BaseModel"]
  doc := some (s!"Partial update of a {e.name}." ++ "\n\nOnly fields set explicitly are written.")
  paragraphs := [shapeAttributes true e.updateFields, .method {
    name := "changes"
    parameters := ["self"]
    returns := "Dict[str, Any]"
    doc := some "Explicitly set fields, keyed by field name."
    body := changesBody e }]

/-- The shape in which an entity is returned. -/
def response (e : Entity) : ClassBlock where
  name := e.responseName
  bases := ["BaseModel"]
  doc := some s!"{e.name} as returned to callers."
  paragraphs := [attributeReading, shapeAttributes false e.responseFields,
    .method (fromEntity e.responseName e.name e.responseFields)]

/-- The shape of a projection. -/
def projectionShape (e : Entity) (p : Projection) : ClassBlock :=
  let name := p.structName e.name
  let fields := e.projectionFields p
  let listed := ", ".intercalate p.fields
  { name
    bases := ["BaseModel"]
    doc := some s!"{p.name} projection of {e.name}: {listed}."
    paragraphs := [shapeAttributes false fields, .method (fromEntity name e.name fields),
      .method (fromRow name fields)] }

/-- A class together with what it needs imported. -/
abbrev Importing := ClassBlock × List Registration

/-- The shapes of an entity in order. -/
def shapes (runtime : String) (e : Entity) : List Importing :=
  (if e.createFields.isEmpty then [] else [(createRequest e,
    shapeImports false e.createFields ++ e.fields.flatMap (initialImports runtime e))]) ++
  (if e.updateFields.isEmpty then [] else [(updateRequest e,
    ("typing", ["Any", "Dict"]) :: shapeImports true e.updateFields)]) ++
  (if e.responseFields.isEmpty then [] else [(response e,
    ("pydantic", ["ConfigDict"]) :: shapeImports false e.responseFields)]) ++
  e.livingProjections.map fun p => (projectionShape e p,
    ("typing", ["Any", "Mapping"]) :: shapeImports false (e.projectionFields p))

/-- The module with the shapes of an entity, if there are any. -/
def transferModule? (runtime : String) (e : Entity) : Option Module :=
  let found := shapes runtime e
  if found.isEmpty then none
  else some {
    doc := s!"Data-transfer shapes for {e.name}." ++ generatedNote
    imports := [("pydantic", ["BaseModel"]), (".entity", [e.name])] ++ found.flatMap Prod.snd
    sections := found.map fun s => .classDef s.1 }

end EntityForge.Package
