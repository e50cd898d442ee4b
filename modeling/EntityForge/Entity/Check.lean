import EntityForge.Entity.Basic
import EntityForge.Schema.Check

/-!
# Entities written out in full

An entity can be given with all its parts written out instead of being built from a declaration.
Every part then declares its entries completely, and the entity as a whole must have exactly one
identifier, to which its index points.
-/

namespace EntityForge

open Schema

/-- An optional text. -/
def optionalText : Check (Option String) := optional text

/-- A field type written out. -/
def FieldType.check : Check FieldType :=
  closedRecord "TypeRef" ["raw", "base", "nullable", "array_dim", "known"] fun es =>
    FieldType.mk
      <$> required es "raw" nonEmptyText
      <*> required es "base" nonEmptyText
      <*> withDefault es "nullable" false bool
      <*> withDefault es "array_dim" 0 (natFrom 0)
      <*> withDefault es "known" true bool

/-- An exposure written out. -/
def Exposure.check : Check Exposure :=
  closedRecord "ExposeConfig" ["create", "update", "response", "skip"] fun es =>
    Exposure.mk
      <$> withDefault es "create" false bool
      <*> withDefault es "update" false bool
      <*> withDefault es "response" false bool
      <*> withDefault es "skip" false bool

/-- A storage part written out. -/
def Storage.check : Check Storage :=
  closedRecord "StorageConfig" ["is_id", "is_auto", "belongs_to", "on_delete"] fun es =>
    Storage.mk
      <$> withDefault es "is_id" false bool
      <*> withDefault es "is_auto" false bool
      <*> withDefault es "belongs_to" none optionalText
      <*> withDefault es "on_delete" none (optional (choice ReferentialAction))

/-- Column hints written out. -/
def ColumnHints.check : Check ColumnHints :=
  closedRecord "ColumnConfig"
      ["unique", "index", "default", "check", "varchar", "sql_type", "nullable", "name"] fun es =>
    ColumnHints.mk
      <$> withDefault es "unique" false bool
      <*> withDefault es "index" none (optional (choice IndexKind))
      <*> withDefault es "default" none optionalText
      <*> withDefault es "check" none optionalText
      <*> withDefault es "varchar" none (optional (natFrom 1))
      <*> withDefault es "sql_type" none optionalText
      <*> withDefault es "nullable" false bool
      <*> withDefault es "name" none optionalText

/-- A field written out. -/
def Field.check : Check Field :=
  closedRecord "FieldModel" ["name", "type", "doc", "expose", "storage", "filter", "column"]
      fun es =>
    Field.mk
      <$> required es "name" nonEmptyText
      <*> required es "type" FieldType.check
      <*> withDefault es "doc" none optionalText
      <*> withDefault es "expose" {} Exposure.check
      <*> withDefault es "storage" {} Storage.check
      <*> withDefault es "filter" .none (choice FilterKind)
      <*> withDefault es "column" {} ColumnHints.check

/-- A composite index written out. -/
def CompositeIndex.check : Check CompositeIndex :=
  closedRecord "CompositeIndexDef" ["name", "columns", "index_type", "unique", "where_clause"]
      fun es =>
    CompositeIndex.mk
      <$> withDefault es "name" none optionalText
      <*> required es "columns" (atLeastOne "Tuple" (tuple text))
      <*> withDefault es "index_type" .btree (choice IndexKind)
      <*> withDefault es "unique" false bool
      <*> withDefault es "where_clause" none optionalText

/-- A projection written out. -/
def Projection.check : Check Projection :=
  closedRecord "ProjectionDef" ["name", "fields"] fun es =>
    Projection.mk
      <$> required es "name" nonEmptyText
      <*> withDefault es "fields" [] (tuple text)

/-- A command written out; a custom source needs the type of its payload. -/
def Command.check : Check Command := fun v =>
  (closedRecord "CommandDef"
      ["name", "source", "fields", "payload_type", "requires_id", "kind", "result_type", "security"]
      (fun es =>
    Command.mk
      <$> required es "name" nonEmptyText
      <*> withDefault es "source" .create (choice CommandSource)
      <*> withDefault es "fields" [] (tuple text)
      <*> withDefault es "payload_type" none optionalText
      <*> withDefault es "requires_id" false bool
      <*> withDefault es "kind" .create (choice CommandKind)
      <*> withDefault es "result_type" none optionalText
      <*> withDefault es "security" none optionalText) v).ensure fun c =>
    if c.isCustom ∧ c.externalPayload? = none then
      .problem (.refused s!"Command '{c.name}' uses a custom source without a payload type.")
    else .accepted c

/-- The handlers of an interface: a truth value or a sequence of names. -/
def Handlers.check : Check Handlers := fun v =>
  match bool v, tuple text v with
  | .accepted b, _ => .accepted (.every b)
  | _, .accepted names => .accepted (.named names)
  | .rejected vs, .rejected ws =>
    .rejected (vs.map (Violation.within (.key "bool")) ++
      ws.map (Violation.within (.key "tuple[str, ...]")))

/-- Interface settings written out. -/
def ApiSettings.check : Check ApiSettings :=
  closedRecord "ApiConfig" ["tag", "path_prefix", "security", "handlers", "title", "version"]
      fun es =>
    ApiSettings.mk
      <$> withDefault es "tag" none optionalText
      <*> withDefault es "path_prefix" none optionalText
      <*> withDefault es "security" none optionalText
      <*> withDefault es "handlers" (.every false) Handlers.check
      <*> withDefault es "title" none optionalText
      <*> withDefault es "version" none optionalText

/-- Features written out. -/
def Features.check : Check Features :=
  closedRecord "FeatureFlags"
      ["events", "hooks", "commands", "policy", "streams", "transactions", "migrations"] fun es =>
    Features.mk
      <$> withDefault es "events" false bool
      <*> withDefault es "hooks" false bool
      <*> withDefault es "commands" false bool
      <*> withDefault es "policy" false bool
      <*> withDefault es "streams" false bool
      <*> withDefault es "transactions" false bool
      <*> withDefault es "migrations" false bool

/-- The parts of an entity before its identifier is checked. -/
structure EntityParts where
  name : String
  visibility : String
  doc : Option String
  table : String
  schema : String
  dialect : Dialect
  uuidVersion : UuidVersion
  errorType : Option String
  fields : List Field
  idIndex : Nat
  softDelete : Bool
  returning : ReturningMode
  sqlLevel : SqlLevel
  hasMany : List String
  projections : List Projection
  indexes : List CompositeIndex
  commands : List Command
  features : Features
  api : ApiSettings
  deriving Repr

/-- Why parts do not make up an entity. -/
inductive IdentifierFault where
  | count (entity : String) (found : Nat)
  | index (entity : String) (given actual : Nat)
  deriving DecidableEq, Repr

/-- The wording of a fault of the identifier. -/
def IdentifierFault.message : IdentifierFault → String
  | .count entity found =>
    s!"Entity '{entity}' must have exactly one identifier field, found {found}."
  | .index entity given actual =>
    s!"Entity '{entity}': id_index {given} does not point at the identifier field " ++
      s!"(index {actual})."

/-- The entity that parts make up. -/
def EntityParts.entity (p : EntityParts) : Except IdentifierFault Entity :=
  if h : identifierIndexes p.fields = [p.idIndex] then
    .ok ⟨p.name, p.visibility, p.doc, p.table, p.schema, p.dialect, p.uuidVersion, p.errorType,
      p.fields, p.idIndex, p.softDelete, p.returning, p.sqlLevel, p.hasMany, p.projections,
      p.indexes, p.commands, p.features, p.api, h⟩
  else match identifierIndexes p.fields with
    | [i] => .error (.index p.name p.idIndex i)
    | is => .error (.count p.name is.length)

/-- The names of the parts of an entity. -/
def entityPartNames : List String := [
  "name", "visibility", "doc", "table", "schema_name", "dialect", "uuid_version", "error_type",
  "fields", "id_index", "soft_delete", "returning", "sql_level", "has_many", "projections",
  "indexes", "commands", "features", "api"]

/-- The parts of an entity written out. -/
def EntityParts.check : Check EntityParts :=
  closedRecord "EntityModel" entityPartNames fun es =>
    EntityParts.mk
      <$> required es "name" nonEmptyText
      <*> withDefault es "visibility" "pub" text
      <*> withDefault es "doc" none optionalText
      <*> required es "table" nonEmptyText
      <*> withDefault es "schema_name" "public" nonEmptyText
      <*> withDefault es "dialect" .postgres (choice Dialect)
      <*> withDefault es "uuid_version" .v7 (choice UuidVersion)
      <*> withDefault es "error_type" none optionalText
      <*> required es "fields" (atLeastOne "Tuple" (tuple Field.check))
      <*> required es "id_index" (natFrom 0)
      <*> withDefault es "soft_delete" false bool
      <*> withDefault es "returning" .full (choice ReturningMode)
      <*> withDefault es "sql_level" .full (choice SqlLevel)
      <*> withDefault es "has_many" [] (tuple text)
      <*> withDefault es "projections" [] (tuple Projection.check)
      <*> withDefault es "indexes" [] (tuple CompositeIndex.check)
      <*> withDefault es "commands" [] (tuple Command.check)
      <*> withDefault es "features" {} Features.check
      <*> withDefault es "api" {} ApiSettings.check

/-- An entity written out. -/
def Entity.check : Check Entity := fun v =>
  (EntityParts.check v).ensure fun p =>
    match p.entity with
    | .ok e => .accepted e
    | .error f => .problem (.refused f.message)

end EntityForge
