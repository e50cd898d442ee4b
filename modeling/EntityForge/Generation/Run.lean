import EntityForge.Artifact.Export
import EntityForge.Build.Basic
import EntityForge.Document.Load
import EntityForge.Generation.Report
import EntityForge.Package.Files
import EntityForge.Validation.Document

/-!
# Generation runs

A run builds the entities of a document, validates them together, generates their files and exports
them. An entity that fails is reported and leaves the others alone, but a strict run exports nothing
unless all of them succeed. The disk is touched by the export alone.
-/

namespace EntityForge

/-- How a run is to be done. -/
structure Generator where
  /-- Export nothing if any entity fails. -/
  strict : Bool := true
  /-- Warnings count as errors. -/
  failOnWarnings : Bool := false
  /-- Empty the output directory first. -/
  cleanOutput : Bool := false
  /-- Write nothing. -/
  dryRun : Bool := false
  /-- Stop after the validation. -/
  validateOnly : Bool := false
  timestamp : String := ""
  deriving DecidableEq, Repr

/-- Why a file is no document. -/
inductive InputFault where
  | load (fault : Document.LoadFault)
  | read (fault : Document.ReadFault)
  deriving Repr

namespace InputFault

/-- The wording of a fault. -/
def message : InputFault → String
  | .load f => f.message
  | .read f => f.message

/-- The input may be at fault; otherwise what is to be read out of it cannot be. -/
def isReported : InputFault → Bool
  | .load (.disk _) | .load (.yaml _ .unknownWord) | .load (.yaml _ .emptyNumber)
  | .load (.yaml _ .notTimestamp) | .load (.yaml _ .tooLarge) | .read .strangeName => false
  | _ => true

end InputFault

/-- What stops a run without a report. -/
inductive Interruption where
  | input (fault : InputFault)
  | generation (fault : Package.Fault)
  deriving Repr

/-- The document in a file, with some settings replaced. -/
def Document.ofFile (d : Disk) (p : Path) (overrides : Entries) : Except InputFault Document := do
  let raw ← (load d p).mapError .load
  (ofEntries raw overrides (some p.text)).mapError .read

namespace Generator

/-- The texts of findings under the name of their entity. -/
def underName (name : String) (ds : List Diagnostic) : List String :=
  ds.map fun d => name ++ ": " ++ d.text

/-- The report with an entity built, and the entity if it could be. -/
def buildOne (strict : Bool) (r : Report) (d : EntityDeclaration) : Report × Option Entity :=
  match Build.build d strict with
  | .ok (e, notes) =>
    ({ r with
      validationWarnings := r.validationWarnings ++ underName e.name (Diagnostics.warnings notes) },
      some e)
  | .error f =>
    ({ r with
      failedEntities := r.failedEntities ++ [f.entity]
      validationErrors := r.validationErrors ++ underName f.entity (Diagnostics.errors f.findings)
      validationWarnings :=
        r.validationWarnings ++ underName f.entity (Diagnostics.warnings f.findings) },
      none)

/-- The report with all entities built, and those that could be. -/
def buildAll (strict : Bool) (r : Report) : List EntityDeclaration → Report × List Entity
  | [] => (r, [])
  | d :: ds =>
    let (r, built) := buildOne strict r d
    let (r, rest) := buildAll strict r ds
    (r, built.toList ++ rest)

/-- The first step: the entities of a document. -/
def buildStep (doc : Document) (r : Report) : Report × List Entity :=
  let (r, es) := buildAll doc.config.strictReferences r doc.entities
  let total := doc.entities.length
  (r.addStep ⟨"Build Models", es.length == total, s!"{es.length}/{total} entities built", 0⟩, es)

/-- The second step: the entities fit together. Says whether nothing failed so far. -/
def validateStep (g : Generator) (doc : Document) (es : List Entity) (r : Report) :
    Report × Bool :=
  let notes := (Validation.document es doc.config.strictReferences).notes
  let errors := r.validationErrors ++ (Diagnostics.errors notes).map Diagnostic.text
  let warnings := r.validationWarnings ++ (Diagnostics.warnings notes).map Diagnostic.text
  let raisedWarnings :=
    if g.failOnWarnings then warnings.map fun w => "warning treated as error: " ++ w else []
  let ok := errors.isEmpty && raisedWarnings.isEmpty
  let errors := errors ++ raisedWarnings
  let detail := s!"{errors.length} error(s), {warnings.length} warning(s)"
  (({ r with validationErrors := errors, validationWarnings := warnings }).addStep
    ⟨"Validate Document", ok, detail, 0⟩, ok)

/-- The wording of what keeps an entity from being generated. -/
def faultText (name : String) (f : Package.Fault) : String :=
  match f with
  | .noBackend _ => f.message
  | _ => name ++ ": " ++ f.message

/-- The report with the files of all entities, and the entities that were generated. -/
def generateAll (c : GenerationConfig) (r : Report) :
    List Entity → Except Interruption (Report × List Entity)
  | [] => .ok (r, [])
  | e :: es => match Package.entityArtifacts c e with
    | .ok own => do
      let r := { r with
        artifacts := r.artifacts ++ own
        generatedEntities := r.generatedEntities ++ [e.name] }
      let (r, rest) ← generateAll c r es
      return (r, e :: rest)
    | .error (.unknownBase base) => .error (.generation (.unknownBase base))
    | .error f =>
      let r := { r with
        generationErrors := r.generationErrors ++ [faultText e.name f]
        failedEntities := r.failedEntities ++ [e.name] }
      generateAll c r es

/-- The third step: the files of the entities and of the root package. -/
def generateStep (doc : Document) (es : List Entity) (r : Report) : Except Interruption Report := do
  let (r, generated) ← generateAll doc.config r es
  let root := if generated.isEmpty then [] else [Package.rootInit doc.config generated]
  let artifacts := r.artifacts ++ root
  let lines := Text.grouped (Text.total (artifacts.map Artifact.lineCount))
  let detail := s!"{artifacts.length} files, ~{lines} lines, {generated.length} entities"
  return { r with artifacts := artifacts }.addStep
    ⟨"Code Generation", r.generationErrors.isEmpty, detail, 0⟩

/-- How the files of a run are exported. -/
def exporter (g : Generator) (doc : Document) (output : Path) : Exporter where
  config := doc.config
  output := output
  clean := g.cleanOutput
  withManifest := doc.config.generateManifest
  dryRun := g.dryRun
  timestamp := g.timestamp

/-- The last step: the files on the disk. -/
def exportStep (g : Generator) (doc : Document) (output : Path) (r : Report) (d : Disk) :
    Report × Disk :=
  let (result, d) := (g.exporter doc output).run d r.artifacts
  let m := result.manifest
  let detail := s!"{m.totalFiles} files, {Text.grouped m.totalSize} bytes"
  let r := { r with
    totalFiles := m.totalFiles
    totalBytes := m.totalSize
    totalLines := m.totalLines
    exportErrors := r.exportErrors ++ result.errors
    manifest := some m }
  let name := if g.dryRun then "Dry Run" else "Export to Filesystem"
  (r.addStep ⟨name, result.success, detail, 0⟩, d)

/-- A run on a document, whose report may already have a step. -/
def runDocument (g : Generator) (doc : Document) (output : Path) (r : Report) (d : Disk) :
    Except Interruption (Report × Disk) := do
  let r := { r with projectName := doc.config.projectName, totalEntities := doc.entities.length }
  let (r, es) := buildStep doc r
  let (r, ok) := g.validateStep doc es r
  if (!ok && g.strict) || g.validateOnly then return (r.finished, d)
  let r ← generateStep doc es r
  if !r.generationErrors.isEmpty && g.strict then return (r.finished, d)
  if r.generatedEntities.isEmpty then
    let nothing := "No entity was generated — aborting export."
    return ({ r with generationErrors := r.generationErrors ++ [nothing] }.finished, d)
  let (r, d) := g.exportStep doc output r d
  return (r.finished, d)

/-- The report that a run starts with. -/
def blankReport (g : Generator) (output : Path) : Report :=
  { outputDirectory := output.text, dryRun := g.dryRun }

/-- A run on a document. -/
def run (g : Generator) (doc : Document) (output : Path) (d : Disk) :
    Except Interruption (Report × Disk) :=
  let output := output.resolve d.current
  g.runDocument doc output (g.blankReport output) d

/-- A run on a document in a file, with some settings replaced. -/
def runFile (g : Generator) (source : Path) (overrides : Entries) (output : Path) (d : Disk) :
    Except Interruption (Report × Disk) :=
  let output := output.resolve d.current
  let r := g.blankReport output
  let load (success : Bool) (detail : String) : Step := ⟨"Load Entity Document", success, detail, 0⟩
  match Document.ofFile d source overrides with
  | .ok doc =>
    let detail := s!"{doc.entities.length} entities from {source.name}"
    g.runDocument doc output (r.addStep (load true detail)) d
  | .error f =>
    if f.isReported then
      let r := { r with inputErrors := [f.message] }
      .ok ((r.addStep (load false f.message)).finished, d)
    else .error (.input f)

end Generator

end EntityForge
