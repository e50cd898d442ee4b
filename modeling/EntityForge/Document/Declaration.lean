import EntityForge.Schema.Check
import EntityForge.Source.Keyword

/-!
# Entity documents

A document is a configuration and the declarations of its entities. A declaration names the entity
and its fields; what they mean is written in mappings of attributes that are read later. Entries
that a declaration does not know are ignored, while the configuration knows all of its own.
-/

namespace EntityForge

/-- The declaration of a field. -/
structure FieldDeclaration where
  name : Option String := none
  type : String
  doc : Option String := none
  attributes : Entries := []
  deriving Repr, Inhabited

/-- The declaration of an entity. -/
structure EntityDeclaration where
  name : String
  /-- A struct, an enumeration or a union. -/
  kind : String := "struct"
  /-- Named, positional or no fields. -/
  shape : String := "named"
  visibility : String := "pub"
  doc : Option String := none
  attributes : Entries := []
  fields : Option (List FieldDeclaration) := none
  deriving Repr, Inhabited

/-- The settings shared by all entities of one generation run. -/
structure GenerationConfig where
  projectName : String := "entities"
  projectVersion : String := "0.1.0"
  /-- The root package of the generated code. -/
  packageName : String := "generated"
  /-- The module that generated code takes its support types from. -/
  runtimeModule : String := "entitygen.runtime"
  migrationsDir : String := "migrations"
  /-- Dangling references are errors. -/
  strictReferences : Bool := false
  generateManifest : Bool := true
  deriving DecidableEq, Repr, Inhabited

/-- A configuration with the entities it applies to. -/
structure Document where
  config : GenerationConfig := {}
  entities : List EntityDeclaration
  sourceFile : Option String := none
  deriving Repr, Inhabited

/-- A mapping of attributes; null stands for an empty one. -/
def attributeMapping : Schema.Check Entries
  | .null => .accepted []
  | v => Schema.mapping v

/-- A declared field. -/
def FieldDeclaration.check : Schema.Check FieldDeclaration :=
  Schema.record "RawField" fun es =>
    FieldDeclaration.mk
      <$> Schema.withDefault es "name" none (Schema.optional Schema.text)
      <*> Schema.required es "type" Schema.nonEmptyText
      <*> Schema.withDefault es "doc" none (Schema.optional Schema.text)
      <*> Schema.withDefault es "attributes" [] attributeMapping

/-- A declared entity. -/
def EntityDeclaration.check : Schema.Check EntityDeclaration :=
  Schema.record "RawEntity" fun es =>
    EntityDeclaration.mk
      <$> Schema.required es "name" Schema.nonEmptyText
      <*> Schema.withDefault es "kind" "struct" Schema.text
      <*> Schema.withDefault es "shape" "named" Schema.text
      <*> Schema.withDefault es "visibility" "pub" Schema.text
      <*> Schema.withDefault es "doc" none (Schema.optional Schema.text)
      <*> Schema.withDefault es "attributes" [] attributeMapping
      <*> Schema.withDefault es "fields" none
        (Schema.optional (Schema.list FieldDeclaration.check))

namespace GenerationConfig

/-- The name of a package, which must be an identifier of the generated code. -/
def packageNameCheck : Schema.Check String := fun v =>
  (Schema.text v).ensure fun s =>
    if Source.isIdentifier s then .accepted s
    else .problem (.refused s!"package_name '{s}' is not a valid Python identifier.")

/-- The names of the settings. -/
def settingNames : List String := [
  "project_name", "project_version", "package_name", "runtime_module", "migrations_dir",
  "strict_references", "generate_manifest"]

/-- A configuration that declares nothing unknown. -/
def check : Schema.Check GenerationConfig :=
  Schema.closedRecord "GenerationConfig" settingNames fun es =>
    GenerationConfig.mk
      <$> Schema.withDefault es "project_name" "entities" (Schema.boundedText (some 128))
      <*> Schema.withDefault es "project_version" "0.1.0" Schema.text
      <*> Schema.withDefault es "package_name" "generated" packageNameCheck
      <*> Schema.withDefault es "runtime_module" "entitygen.runtime" Schema.text
      <*> Schema.withDefault es "migrations_dir" "migrations" Schema.text
      <*> Schema.withDefault es "strict_references" false Schema.bool
      <*> Schema.withDefault es "generate_manifest" true Schema.bool

/-- The configuration with one setting replaced, if its new value passes the check. -/
def assign (c : GenerationConfig) (name : String) (value : Value) :
    Schema.Checked GenerationConfig :=
  (match name with
    | "project_name" =>
      (fun s => { c with projectName := s }) <$> Schema.boundedText (some 128) value
    | "project_version" => (fun s => { c with projectVersion := s }) <$> Schema.text value
    | "package_name" => (fun s => { c with packageName := s }) <$> packageNameCheck value
    | "runtime_module" => (fun s => { c with runtimeModule := s }) <$> Schema.text value
    | "migrations_dir" => (fun s => { c with migrationsDir := s }) <$> Schema.text value
    | "strict_references" => (fun b => { c with strictReferences := b }) <$> Schema.bool value
    | "generate_manifest" => (fun b => { c with generateManifest := b }) <$> Schema.bool value
    | _ => .problem (.unknownAttribute name)).within (.key name)

end GenerationConfig

/-- A whole document. -/
def Document.check : Schema.Check Document :=
  Schema.record "EntityDocument" fun es =>
    Document.mk
      <$> Schema.withDefault es "config" {} GenerationConfig.check
      <*> Schema.required es "entities"
        (Schema.atLeastOne "List" (Schema.list EntityDeclaration.check))
      <*> Schema.withDefault es "source_file" none (Schema.optional Schema.text)

end EntityForge
