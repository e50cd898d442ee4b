import EntityForge.Attribute.Command
import EntityForge.Entity.Basic

/-!
# Reading the attributes of an entity

Every attribute of an entity is read on its own: a fault in one leaves its default in place and
does not touch the others. Unknown attributes are noted and ignored.
-/

namespace EntityForge.Attribute

/-- The attributes that switch a family of artifacts on. -/
def featureKeys : List String :=
  ["events", "hooks", "commands", "policy", "streams", "transactions", "migrations"]

/-- The attributes of an entity. -/
def entityKeys : List String :=
  ["table", "schema", "dialect", "uuid", "error", "soft_delete", "returning", "sql", "has_many",
    "projections", "indexes", "api"] ++ featureKeys

/-- The attributes of a composite index. -/
def indexKeys : List String := ["columns", "name", "type", "unique", "where"]

/-- The attributes of the interface settings. -/
def apiKeys : List String := ["tag", "path_prefix", "security", "handlers", "title", "version"]

/-- What the attributes of an entity say. -/
structure EntityAttributes where
  table : Option String := none
  schema : String := "public"
  dialect : Dialect := .postgres
  uuidVersion : UuidVersion := .v7
  errorType : Option String := none
  softDelete : Bool := false
  returning : ReturningMode := .full
  sqlLevel : SqlLevel := .full
  hasMany : List String := []
  projections : List Projection := []
  indexes : List CompositeIndex := []
  commands : List Command := []
  features : Features := {}
  api : ApiSettings := {}
  deriving Repr, Inhabited

/-- One projection: a name and the fields it lists. -/
def projection (site : Site) (entry : Value × Value) : Noted (Option Projection) :=
  let named := match entry.1 with
    | .text s => if Text.isNameLine s.toList then some s else none
    | _ => none
  match named with
  | none => do
    site.fault "INVALID_PROJECTION" "projections"
      s!"projection name {entry.1.quoted} is not a valid identifier."
    pure none
  | some n => do
    let inner : Site := ⟨s!"{site.label} projection '{n}'", site.context.set "projection" (.text n)⟩
    let fields ← nameList entry.2 "fields" inner
    pure (fields.map fun fs => ⟨n, fs⟩)

/-- The projections, in the order written. -/
def projections (value : Value) (site : Site) : Noted (List Projection) :=
  match value with
  | .map entries => Noted.collect (projection site) entries
  | _ => do
    site.fault "INVALID_PROJECTION" "projections"
      "'projections' must map projection names to field lists."
    pure []

/-- The columns of a composite index, of which there must be one. -/
def indexColumns (entries : Entries) (site : Site) : Noted (Option (List String)) :=
  match Value.lookup "columns" entries with
  | none => do
    .error "INVALID_INDEX" s!"{site.label}: 'columns' is required." site.context
    pure none
  | some v => do
    match ← nameList v "columns" site with
    | some [] => do
      .error "INVALID_INDEX" s!"{site.label}: 'columns' must not be empty." site.context
      pure none
    | columns => pure columns

/-- A composite index; its position counts from zero. -/
def compositeIndex (site : Site) (item : Value × Nat) : Noted (Option CompositeIndex) :=
  let inner : Site := ⟨s!"{site.label} index #{item.2 + 1}", site.context.set "index" (.int item.2)⟩
  match item.1 with
  | .map entries => do
    noteUnknown entries indexKeys inner
    let columns ← indexColumns entries inner
    let kind ← given entries "type" (some .btree) fun v =>
      choice IndexKind v "type" "INVALID_INDEX_TYPE" inner
    let unique ← given entries "unique" (some false) fun v => flag v "unique" inner
    let name ← present entries "name" none fun v => name v "name" inner
    let condition ← present entries "where" none fun v => text v "where" inner
    match columns, kind, unique with
    | some columns, some kind, some unique => pure (some ⟨name, columns, kind, unique, condition⟩)
    | _, _, _ => pure none
  | _ => do
    .error "INVALID_INDEX" s!"{inner.label}: must be a mapping with at least 'columns'."
      inner.context
    pure none

/-- The composite indexes, in the order written. -/
def compositeIndexes (value : Value) (site : Site) : Noted (List CompositeIndex) :=
  match value with
  | .list items => Noted.collect (compositeIndex site) items.zipIdx
  | _ => do
    site.fault "INVALID_INDEX" "indexes" "'indexes' must be a list of index mappings."
    pure []

/-- The handlers an interface offers; a bare key asks for all of them. -/
def handlers (value : Value) (site : Site) : Noted Handlers :=
  match value with
  | .bool b => pure (.every b)
  | .null => pure (.every true)
  | v => do
    let names ← nameList v "handlers" site
    pure ((names.map Handlers.named).getD (.every false))

/-- The settings of an interface. Single settings may be written as values of any kind. -/
def apiSettings (value : Value) (site : Site) : Noted ApiSettings :=
  match value with
  | .map entries => do
    let inner : Site := ⟨s!"{site.label} api", site.context⟩
    let setting (key : String) : Noted (Option String) :=
      present entries key none fun v => text (.text v.plain) key inner
    noteUnknown entries apiKeys inner
    let tag ← setting "tag"
    let path ← setting "path_prefix"
    let security ← setting "security"
    let title ← setting "title"
    let version ← setting "version"
    let handlers ← given entries "handlers" (.every false) fun v => handlers v inner
    pure ⟨tag, path, security, handlers, title, version⟩
  | _ => do
    site.fault "INVALID_API" "api" "'api' must be a mapping."
    pure {}

/-- The dotted path of an exception class. -/
def errorType (value : Value) (site : Site) : Noted (Option String) := do
  match ← text value "error" site with
  | none => pure none
  | some path =>
    if Text.isDottedPathLine path.toList then pure (some path)
    else do
      site.fault "INVALID_ERROR_TYPE" "error"
        s!"'error' must be a dotted path such as 'app.errors.AppError', got '{path}'."
      pure none

/-- The declared commands, if the attribute is a list. -/
def commands (value : Value) (site : Site) : Noted (List Command) :=
  match value with
  | .list items =>
    Noted.collect (fun v => command v ⟨site.label, site.contextFor "commands"⟩) items
  | _ => pure []

/-- A feature that is switched on; a list of commands switches commands on. -/
def feature (entries : Entries) (site : Site) (key : String) : Noted Bool :=
  given entries key false fun v =>
    match key, v with
    | "commands", .list _ => pure true
    | _, v => do pure ((← flag v key site).getD false)

/-- The features that are switched on. -/
def features (entries : Entries) (site : Site) : Noted Features := do
  let events ← feature entries site "events"
  let hooks ← feature entries site "hooks"
  let commands ← feature entries site "commands"
  let policy ← feature entries site "policy"
  let streams ← feature entries site "streams"
  let transactions ← feature entries site "transactions"
  let migrations ← feature entries site "migrations"
  pure ⟨events, hooks, commands, policy, streams, transactions, migrations⟩

/-- The site of an entity. -/
def entitySite (entity : String) : Site := ⟨s!"Entity '{entity}'", [("entity", .text entity)]⟩

/-- What the attributes of an entity say. A missing table is left to the caller to report. -/
def entityAttributes (entity : String) (entries : Entries) : Noted EntityAttributes := do
  let site := entitySite entity
  noteUnknown entries entityKeys site
  let table ← given entries "table" none fun v => name v "table" site
  let schema ← given entries "schema" none fun v => name v "schema" site
  let dialect ← given entries "dialect" none fun v =>
    choice Dialect v "dialect" "INVALID_DIALECT" site
  let uuid ← given entries "uuid" none fun v =>
    choice UuidVersion v "uuid" "INVALID_UUID_VERSION" site
  let returning ← given entries "returning" none fun v =>
    choice ReturningMode v "returning" "INVALID_RETURNING" site
  let sql ← given entries "sql" none fun v => choice SqlLevel v "sql" "INVALID_SQL_LEVEL" site
  let errorType ← present entries "error" none fun v => errorType v site
  let softDelete ← given entries "soft_delete" none fun v => flag v "soft_delete" site
  let commands ← given entries "commands" [] fun v => commands v site
  let features ← features entries site
  let hasMany ← present entries "has_many" none fun v => nameList v "has_many" site
  let projections ← present entries "projections" [] fun v => projections v site
  let indexes ← present entries "indexes" [] fun v => compositeIndexes v site
  let api ← present entries "api" {} fun v => apiSettings v site
  pure {
    table, schema := schema.getD "public", dialect := dialect.getD .postgres,
    uuidVersion := uuid.getD .v7, errorType, softDelete := softDelete.getD false,
    returning := returning.getD .full, sqlLevel := sql.getD .full, hasMany := hasMany.getD [],
    projections, indexes, commands, features, api }

end EntityForge.Attribute
