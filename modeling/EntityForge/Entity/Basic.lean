import EntityForge.Entity.Command

/-!
# Entities

An entity is what every generated artifact is made from: a named list of fields stored in a table,
with exactly one field that identifies it, and the projections, indexes, commands and features
declared with it. The lists of fields that single artifacts need are views of the entity and keep
the order of declaration.
-/

namespace EntityForge

/-- A named part of an entity's fields, in the order declared. -/
structure Projection where
  name : String
  fields : List String := []
  deriving DecidableEq, Repr, Inhabited

/-- The class of a projection. -/
def Projection.structName (p : Projection) (entity : String) : String := entity ++ p.name

/-- An index over several columns. -/
structure CompositeIndex where
  name : Option String := none
  columns : List String
  kind : IndexKind := .btree
  unique : Bool := false
  /-- The condition on the rows it covers. -/
  condition : Option String := none
  deriving DecidableEq, Repr, Inhabited

/-- The name of an index on a table, made from its columns unless it has one of its own. -/
def CompositeIndex.nameFor (i : CompositeIndex) (table : String) : String :=
  (nonEmpty? i.name).getD (s!"idx_{table}_" ++ "_".intercalate i.columns)

/-- The handlers an interface offers: all or none of them, or those named. -/
inductive Handlers where
  | every (enabled : Bool)
  | named (names : List String)
  deriving DecidableEq, Repr, Inhabited

/-- Settings for an interface to the entity, carried along for other tools. -/
structure ApiSettings where
  tag : Option String := none
  pathPrefix : Option String := none
  security : Option String := none
  handlers : Handlers := .every false
  title : Option String := none
  version : Option String := none
  deriving DecidableEq, Repr, Inhabited

/-- The optional families of artifacts. -/
structure Features where
  events : Bool := false
  hooks : Bool := false
  commands : Bool := false
  policy : Bool := false
  streams : Bool := false
  transactions : Bool := false
  migrations : Bool := false
  deriving DecidableEq, Repr, Inhabited

/-- The positions of the fields that identify their entity. -/
def identifierIndexes (fields : List Field) : List Nat :=
  (fields.zipIdx.filter fun p => p.1.isId).map Prod.snd

theorem mem_identifierIndexes {fields : List Field} {i : Nat} :
    i ∈ identifierIndexes fields ↔ ∃ f, fields[i]? = some f ∧ f.isId = true := by
  simp [identifierIndexes, List.mem_zipIdx_iff_getElem?]

/-- An entity with exactly one identifier. -/
structure Entity where
  name : String
  visibility : String := "pub"
  doc : Option String := none
  table : String
  schema : String := "public"
  dialect : Dialect := .postgres
  uuidVersion : UuidVersion := .v7
  /-- The dotted path of the exception class that database errors become. -/
  errorType : Option String := none
  fields : List Field
  /-- The position of the identifier. -/
  idIndex : Nat
  softDelete : Bool := false
  returning : ReturningMode := .full
  sqlLevel : SqlLevel := .full
  /-- The entities that refer back to this one. -/
  hasMany : List String := []
  projections : List Projection := []
  indexes : List CompositeIndex := []
  commands : List Command := []
  features : Features := {}
  api : ApiSettings := {}
  identifier_unique : identifierIndexes fields = [idIndex]
  deriving DecidableEq, Repr

namespace Entity

/-- The table with its schema. -/
def fullTable (e : Entity) : String := s!"{e.schema}.{e.table}"

/-- The name in snake case. -/
def snakeName (e : Entity) : String := Text.snakeCase e.name

theorem idIndex_lt (e : Entity) : e.idIndex < e.fields.length := by
  have h : e.idIndex ∈ identifierIndexes e.fields := by simp [e.identifier_unique]
  obtain ⟨f, hf, _⟩ := mem_identifierIndexes.mp h
  exact (List.getElem?_eq_some_iff.mp hf).1

/-- The field that identifies the entity. -/
def idField (e : Entity) : Field := e.fields.get ⟨e.idIndex, e.idIndex_lt⟩

/-- The first field with a name. -/
def field? (e : Entity) (name : String) : Option Field := e.fields.find? fun f => f.name == name

/-- The fields taken on creation. -/
def createFields (e : Entity) : List Field :=
  e.fields.filter fun f => f.inCreate && !f.isId && !f.isAuto

/-- The fields that may be changed. -/
def updateFields (e : Entity) : List Field :=
  e.fields.filter fun f => f.inUpdate && !f.isId && !f.isAuto

/-- The fields read back. -/
def responseFields (e : Entity) : List Field := e.fields.filter Field.inResponse

/-- The fields that queries filter on. -/
def filterFields (e : Entity) : List Field := e.fields.filter fun f => f.filter != .none

/-- The fields whose values the database makes. -/
def autoFields (e : Entity) : List Field := e.fields.filter Field.isAuto

/-- The fields that refer to other entities. -/
def relationFields (e : Entity) : List Field := e.fields.filter Field.isRelation

/-- The fields with an index of their own. -/
def indexedFields (e : Entity) : List Field := e.fields.filter fun f => f.column.index.isSome

/-- The names of all columns. -/
def columnNames (e : Entity) : List String := e.fields.map Field.columnName

/-- The name of the index over a single field. -/
def singleIndexName (e : Entity) (f : Field) : String := s!"idx_{e.table}_{f.columnName}"

/-- The names of all indexes of the table. -/
def indexNames (e : Entity) : List String :=
  e.indexedFields.map e.singleIndexName ++ e.indexes.map fun i => i.nameFor e.table

/-- The fields of a projection, in the order it lists them. -/
def projectionFields (e : Entity) (p : Projection) : List Field := p.fields.filterMap e.field?

/-- Some field is filtered on. -/
def hasFilters (e : Entity) : Bool := !e.filterFields.isEmpty

/-- A repository contract is generated. -/
def hasRepository (e : Entity) : Bool := e.sqlLevel != .none

/-- A database backend is generated. -/
def hasBackend (e : Entity) : Bool := e.sqlLevel == .full

/-- Commands are enabled and declared. -/
def hasCommands (e : Entity) : Bool := e.features.commands && !e.commands.isEmpty

/-- The form of an entity in log lines. -/
def label (e : Entity) : String := s!"<EntityModel {e.name} → {e.fullTable} ({e.fields.length} fields)>"

end Entity

end EntityForge
