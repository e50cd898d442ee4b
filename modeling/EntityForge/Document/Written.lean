import EntityForge.Attribute.Entity
import EntityForge.Attribute.Field
import EntityForge.Document.Declaration
import EntityForge.Value.Record

/-!
# Written-out forms

Every part of an entity, of its attributes and of its document as a value that lists all entries
under the names that the checks of this library expect.
-/

namespace EntityForge

open Value (record texts ofNat)

/-- The word of a choice. -/
def Vocabulary.written {α : Type} [Vocabulary α] (a : α) : Value := .text (Vocabulary.word a)

/-- The word of a choice, or null where none was made. -/
def Vocabulary.writtenOption {α : Type} [Vocabulary α] (a : Option α) : Value :=
  (a.map Vocabulary.written).getD .null

open Vocabulary (writtenOption)

/-- A field type written out. -/
def FieldType.written (t : FieldType) : Value := record [
  ("raw", .text t.raw), ("base", .text t.base), ("nullable", .bool t.nullable),
  ("array_dim", ofNat t.arrayDim), ("known", .bool t.known)]

/-- An exposure written out. -/
def Exposure.written (x : Exposure) : Value := record [
  ("create", .bool x.create), ("update", .bool x.update), ("response", .bool x.response),
  ("skip", .bool x.skip)]

/-- A storage part written out. -/
def Storage.written (s : Storage) : Value := record [
  ("is_id", .bool s.isId), ("is_auto", .bool s.isAuto),
  ("belongs_to", Value.optionalText s.belongsTo), ("on_delete", writtenOption s.onDelete)]

/-- Column hints written out. -/
def ColumnHints.written (c : ColumnHints) : Value := record [
  ("unique", .bool c.unique), ("index", writtenOption c.index),
  ("default", Value.optionalText c.defaultValue), ("check", Value.optionalText c.constraint),
  ("varchar", (c.width.map ofNat).getD .null), ("sql_type", Value.optionalText c.sqlType),
  ("nullable", .bool c.nullable), ("name", Value.optionalText c.name)]

/-- A field written out. -/
def Field.written (f : Field) : Value := record [
  ("name", .text f.name), ("type", f.type.written), ("doc", Value.optionalText f.doc),
  ("expose", f.exposure.written), ("storage", f.storage.written), ("filter", Vocabulary.written f.filter),
  ("column", f.column.written)]

/-- A composite index written out. -/
def CompositeIndex.written (i : CompositeIndex) : Value := record [
  ("name", Value.optionalText i.name), ("columns", texts i.columns),
  ("index_type", Vocabulary.written i.kind), ("unique", .bool i.unique),
  ("where_clause", Value.optionalText i.condition)]

/-- A projection written out. -/
def Projection.written (p : Projection) : Value :=
  record [("name", .text p.name), ("fields", texts p.fields)]

/-- A command written out. -/
def Command.written (c : Command) : Value := record [
  ("name", .text c.name), ("source", Vocabulary.written c.source), ("fields", texts c.fields),
  ("payload_type", Value.optionalText c.payloadType), ("requires_id", .bool c.requiresId),
  ("kind", Vocabulary.written c.kind), ("result_type", Value.optionalText c.resultType),
  ("security", Value.optionalText c.security)]

/-- The handlers of an interface written out. -/
def Handlers.written : Handlers → Value
  | .every enabled => .bool enabled
  | .named names => texts names

/-- Interface settings written out. -/
def ApiSettings.written (a : ApiSettings) : Value := record [
  ("tag", Value.optionalText a.tag), ("path_prefix", Value.optionalText a.pathPrefix),
  ("security", Value.optionalText a.security), ("handlers", a.handlers.written),
  ("title", Value.optionalText a.title), ("version", Value.optionalText a.version)]

/-- Features written out. -/
def Features.written (f : Features) : Value := record [
  ("events", .bool f.events), ("hooks", .bool f.hooks), ("commands", .bool f.commands),
  ("policy", .bool f.policy), ("streams", .bool f.streams),
  ("transactions", .bool f.transactions), ("migrations", .bool f.migrations)]

/-- The parts of an entity written out. -/
def Entity.parts (e : Entity) : List (String × Value) := [
  ("name", .text e.name), ("visibility", .text e.visibility), ("doc", Value.optionalText e.doc),
  ("table", .text e.table), ("schema_name", .text e.schema),
  ("dialect", Vocabulary.written e.dialect), ("uuid_version", Vocabulary.written e.uuidVersion),
  ("error_type", Value.optionalText e.errorType), ("fields", .list (e.fields.map Field.written)),
  ("id_index", ofNat e.idIndex), ("soft_delete", .bool e.softDelete),
  ("returning", Vocabulary.written e.returning), ("sql_level", Vocabulary.written e.sqlLevel),
  ("has_many", texts e.hasMany), ("projections", .list (e.projections.map Projection.written)),
  ("indexes", .list (e.indexes.map CompositeIndex.written)),
  ("commands", .list (e.commands.map Command.written)), ("features", e.features.written),
  ("api", e.api.written)]

/-- An entity written out. -/
def Entity.written (e : Entity) : Value := record e.parts

/-- What the attributes of an entity say, written out. -/
def Attribute.EntityAttributes.written (a : Attribute.EntityAttributes) : Value := record [
  ("table", Value.optionalText a.table), ("schema_name", .text a.schema),
  ("dialect", Vocabulary.written a.dialect), ("uuid_version", Vocabulary.written a.uuidVersion),
  ("error_type", Value.optionalText a.errorType), ("soft_delete", .bool a.softDelete),
  ("returning", Vocabulary.written a.returning), ("sql_level", Vocabulary.written a.sqlLevel),
  ("has_many", texts a.hasMany), ("projections", .list (a.projections.map Projection.written)),
  ("indexes", .list (a.indexes.map CompositeIndex.written)),
  ("commands", .list (a.commands.map Command.written)), ("features", a.features.written),
  ("api", a.api.written)]

/-- What the attributes of a field say, written out. -/
def Attribute.FieldAttributes.written (a : Attribute.FieldAttributes) : Value := record [
  ("expose", a.exposure.written), ("storage", a.storage.written),
  ("filter", Vocabulary.written a.filter), ("column", a.column.written)]

/-- A configuration written out. -/
def GenerationConfig.written (c : GenerationConfig) : Value := record [
  ("project_name", .text c.projectName), ("project_version", .text c.projectVersion),
  ("package_name", .text c.packageName), ("runtime_module", .text c.runtimeModule),
  ("migrations_dir", .text c.migrationsDir), ("strict_references", .bool c.strictReferences),
  ("generate_manifest", .bool c.generateManifest)]

/-- The declaration of a field written out. -/
def FieldDeclaration.written (d : FieldDeclaration) : Value := record [
  ("name", Value.optionalText d.name), ("type", .text d.type), ("doc", Value.optionalText d.doc),
  ("attributes", .map d.attributes)]

/-- The declaration of an entity written out. -/
def EntityDeclaration.written (d : EntityDeclaration) : Value := record [
  ("name", .text d.name), ("kind", .text d.kind), ("shape", .text d.shape),
  ("visibility", .text d.visibility), ("doc", Value.optionalText d.doc),
  ("attributes", .map d.attributes),
  ("fields", (d.fields.map fun fs => .list (fs.map FieldDeclaration.written)).getD .null)]

/-- A document written out. -/
def Document.written (d : Document) : Value := record [
  ("config", d.config.written), ("entities", .list (d.entities.map EntityDeclaration.written)),
  ("source_file", Value.optionalText d.sourceFile)]

end EntityForge
