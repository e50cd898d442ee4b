import EntityForge.Artifact.Basic
import EntityForge.Package.Backend
import EntityForge.Package.Events
import EntityForge.Package.Filter
import EntityForge.Package.Guard
import EntityForge.Package.Hooks
import EntityForge.Package.Model
import EntityForge.Package.Streams
import EntityForge.Package.Transactions
import EntityForge.Package.Transfer
import EntityForge.Postgres.Migration

/-!
# The files of a package

The package of an entity holds the modules that its settings ask for. The entity module is always
there; the transfer module is left out when it would define nothing. With the modules go the
initial file of the package, which exports the main classes, and the migration. An entity of a
database family without a backend is refused before anything is generated for it, if it asks for
something that needs one.
-/

namespace EntityForge.Package

open Source

/-- The kind of a module. -/
inductive ModuleKind where
  | entity
  | transfer
  | query
  | repository
  | backend
  | events
  | commands
  | policy
  | streams
  | hooks
  | transactions
  deriving DecidableEq, Repr

/-- The name of a module. -/
def ModuleKind.name : ModuleKind → String
  | .entity => "entity"
  | .transfer => "dto"
  | .query => "query"
  | .repository => "repository"
  | .backend => "postgres"
  | .events => "events"
  | .commands => "commands"
  | .policy => "policy"
  | .streams => "streams"
  | .hooks => "hooks"
  | .transactions => "transactions"

/-- The file of a module. -/
def ModuleKind.file (k : ModuleKind) : String := k.name ++ ".py"

/-- Why something cannot be generated. -/
inductive Fault where
  | noBackend (n : Postgres.NoBackend)
  | noFilters (entity : String)
  | noCommands (entity : String)
  /-- A type claims a known base that no base type has. -/
  | unknownBase (base : String)
  deriving DecidableEq, Repr

/-- The wording of a fault. -/
def Fault.message : Fault → String
  | .noBackend n => n.message
  | .noFilters entity => s!"Entity '{entity}' has no filter fields."
  | .noCommands entity => s!"Entity '{entity}' declares no commands."
  | .unknownBase base => Text.quoted base

/-- Refuses an entity without a backend. -/
def requireBackend (e : Entity) : Except Fault Unit := (Postgres.requireBackend e).mapError .noBackend

/-- The types that a module declares hints for. -/
def hintedTypes (e : Entity) : ModuleKind → List FieldType
  | .entity => e.fields.map Field.type
  | .transfer =>
    (e.createFields ++ e.updateFields ++ e.responseFields ++
      e.livingProjections.flatMap e.projectionFields).map Field.type
  | .query => e.filterFields.map Field.type
  | .commands => (ownPayloads e).flatMap fun c =>
    (if c.requiresId then [e.idType] else []) ++ (payloadFields e c).map Field.type
  | .repository | .backend | .events | .policy | .hooks => [e.idType]
  | .streams | .transactions => []

/-- Refuses a type whose base is unknown though it claims a known one. -/
def requireHints (e : Entity) (k : ModuleKind) : Except Fault Unit :=
  match (hintedTypes e k).find? FieldType.isDangling with
  | some t => .error (.unknownBase t.base)
  | none => .ok ()

/-- A module of an entity's package, if there is anything in it. -/
def moduleOf? (runtime : String) (e : Entity) (k : ModuleKind) : Except Fault (Option Module) :=
  match k with
  | .entity => .ok (some (entityModule e))
  | .transfer => .ok (transferModule? runtime e)
  | .query => match queryModule? runtime e with
    | some m => .ok (some m)
    | none => .error (.noFilters e.name)
  | .repository => .ok (some (repositoryModule e))
  | .backend => do
    requireBackend e
    return some (backendModule runtime e)
  | .events => .ok (some (eventsModule e))
  | .commands => match commandsModule? e with
    | some m => .ok (some m)
    | none => .error (.noCommands e.name)
  | .policy => .ok (some (policyModule runtime e))
  | .streams => .ok (some (streamsModule runtime e))
  | .hooks => .ok (some (hooksModule e))
  | .transactions => do
    requireBackend e
    return some (transactionsModule runtime e)

/-- A module of an entity's package whose types can all be declared. -/
def module? (runtime : String) (e : Entity) (k : ModuleKind) : Except Fault (Option Module) := do
  let found ← moduleOf? runtime e k
  requireHints e k
  return found

/-- The kinds of modules that the settings of an entity ask for, in the order of the files. -/
def moduleKinds (e : Entity) : List ModuleKind :=
  let given (asked : Bool) (k : ModuleKind) : List ModuleKind := if asked then [k] else []
  [.entity, .transfer] ++ given (e.hasRepository && e.hasFilters) .query ++
    given e.hasRepository .repository ++ given e.hasBackend .backend ++
    given (e.features.events || e.features.streams) .events ++ given e.hasCommands .commands ++
    given e.features.policy .policy ++ given e.features.streams .streams ++
    given e.features.hooks .hooks ++ given (e.features.transactions && e.hasBackend) .transactions

/-- The modules of some kinds, without those that have nothing in them. -/
def collectModules (runtime : String) (e : Entity) :
    List ModuleKind → Except Fault (List (ModuleKind × Module))
  | [] => .ok []
  | k :: ks => do
    let found ← module? runtime e k
    let rest ← collectModules runtime e ks
    return (found.map fun m => (k, m)).toList ++ rest

/-- The modules of an entity's package. -/
def modules (runtime : String) (e : Entity) : Except Fault (List (ModuleKind × Module)) := do
  if e.hasBackend || e.features.migrations then requireBackend e
  collectModules runtime e (moduleKinds e)

/-- The text of the initial file of a package with the lines of its exports. -/
def initText (name : String) (exports : List String) : String :=
  "\n".intercalate (["\"\"\"", name ++ " package.", "", "Generated by entitygen; do not edit.",
    "\"\"\""] ++ if exports.isEmpty then [] else "" :: exports) ++ "\n"

/-- What the package of an entity exports. -/
def packageExports (e : Entity) : List Registration :=
  [(".entity", [e.name])] ++
    (if e.hasRepository then [(".repository", [e.repositoryName])] else []) ++
    if e.hasBackend then [(".postgres", [e.backendName])] else []

/-- The initial file of an entity's package. -/
def packageInit (e : Entity) : String := initText e.name ((packageExports e).map ImportTable.line)

/-- The directory of an entity's package. -/
def directory (c : GenerationConfig) (e : Entity) : String := s!"{c.packageName}/{e.snakeName}"

/-- The directory of the migrations. -/
def migrationsDirectory (c : GenerationConfig) : String :=
  .ofList (c.migrationsDir.toList.reverse.dropWhile (· = '/')).reverse

/-- The files of an entity's migration. -/
def migrationFiles (c : GenerationConfig) (e : Entity) : List Artifact :=
  let m := Postgres.migration e
  let file (name content : String) : Artifact :=
    ⟨migrationsDirectory c ++ "/" ++ name, content, e.name, "migration"⟩
  if e.features.migrations then [file m.upFile m.up, file m.downFile m.down] else []

/-- The files generated for an entity. -/
def entityArtifacts (c : GenerationConfig) (e : Entity) : Except Fault (List Artifact) := do
  let found ← modules c.runtimeModule e
  let place := directory c e
  return [⟨place ++ "/__init__.py", packageInit e, e.name, "package"⟩] ++
    found.map (fun m => ⟨place ++ "/" ++ m.1.file, m.2.text, e.name, m.1.name⟩) ++
    migrationFiles c e

/-- What the root package imports. -/
def rootExports (es : List Entity) : List Registration := es.map fun e => (".", [e.snakeName])

/-- The initial file of the root package, which imports the packages of all entities. -/
def rootInit (c : GenerationConfig) (es : List Entity) : Artifact where
  path := c.packageName ++ "/__init__.py"
  content := initText c.packageName ((rootExports es).map ImportTable.line)
  entity := "*"
  kind := "package"

/-- The files of several entities, up to the first that cannot be generated. -/
def artifactsOf (c : GenerationConfig) : List Entity → Except Fault (List Artifact)
  | [] => .ok []
  | e :: es => do
    let own ← entityArtifacts c e
    let rest ← artifactsOf c es
    return own ++ rest

/-- All files generated for some entities. -/
def allArtifacts (c : GenerationConfig) (es : List Entity) : Except Fault (List Artifact) := do
  return (← artifactsOf c es) ++ [rootInit c es]

end EntityForge.Package
