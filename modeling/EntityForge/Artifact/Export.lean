import EntityForge.Artifact.Manifest
import EntityForge.Disk.Replace

/-!
# Exporting artifacts

Artifacts are written below an output directory, which may be emptied first, and their manifest next
to them. Two artifacts of one path stop the export before anything is touched; one that cannot be
written is reported, and the others are written all the same. A dry run only takes the records.
-/

namespace EntityForge

/-- Where and how artifacts are written. -/
structure Exporter where
  config : GenerationConfig
  /-- The output directory, from the root on. -/
  output : Path
  /-- Empty the output directory first. -/
  clean : Bool := false
  /-- Replace each file as a whole. -/
  atomic : Bool := true
  /-- Write the manifest next to the files. -/
  withManifest : Bool := true
  /-- Touch nothing. -/
  dryRun : Bool := false
  timestamp : String := ""

/-- What goes wrong in an export. -/
inductive ExportFault where
  | duplicatePath (path : String)
  | notWritten (path : String) (fault : DiskFault)
  /-- The output directory cannot be emptied. -/
  | notCleaned (fault : DiskFault)
  deriving DecidableEq, Repr

/-- The wording of a fault. -/
def ExportFault.message : ExportFault → String
  | .duplicatePath path => "Duplicate artifact path: " ++ path
  | .notWritten path f => "Failed to write " ++ path ++ ": " ++ f.describe
  | .notCleaned f => "Fatal export error: " ++ f.describe

/-- The outcome of an export. -/
structure ExportResult where
  manifest : Manifest
  faults : List ExportFault
  /-- Why the manifest could not be written. -/
  manifestFault : Option DiskFault := none
  dryRun : Bool := false
  deriving DecidableEq, Repr

namespace ExportResult

/-- Nothing went wrong. -/
def success (r : ExportResult) : Bool := r.faults.isEmpty

/-- The wording of what went wrong. -/
def errors (r : ExportResult) : List String := r.faults.map ExportFault.message

/-- The wording of what the export can do without. -/
def warnings (r : ExportResult) : List String :=
  (r.manifestFault.map fun f => "Could not write manifest: " ++ f.message).toList

end ExportResult

/-- The paths of several artifacts, in their order. -/
def duplicatePaths (as : List Artifact) : List String :=
  let paths := as.map Artifact.path
  (paths.eraseDups.filter fun p => 1 < paths.count p).mergeSort

/-- What stays in an output directory that is emptied. -/
def preservedNames : List String := [".git", ".gitignore", ".gitkeep"]

namespace Exporter

/-- The file name of the manifest. -/
def manifestName : String := "manifest.json"

/-- The path at which an artifact is written. -/
def target (x : Exporter) (a : Artifact) : Path := x.output.join (.ofText a.path)

/-- The disk with the output directory emptied, if that is asked for. -/
def cleaned (x : Exporter) (d : Disk) : Except DiskFault Disk :=
  if !x.clean then .ok d
  else match d.walk (d.start x.output) x.output.names with
    | .error .nameTooLong => .error ⟨.nameTooLong, x.output, none⟩
    | .error _ => .ok d
    | .ok place =>
      if d.isDirectoryAt place then
        .ok (((d.namesIn place).filter fun n => !preservedNames.contains n).foldl
          (fun d n => d.remove (place ++ [n])) d)
      else .error ⟨.notDirectory, x.output, none⟩

/-- The disk with a file in a directory that is made if need be, and why that cannot be done. -/
def store (x : Exporter) (directory path : Path) (content : String) (d : Disk) :
    Disk × Option DiskFault :=
  match d.makeDirectories directory.names.length directory with
  | (d, some f) => (d, some f)
  | (d, none) =>
    if x.atomic then d.replaceFile path content.toUTF8 else d.overwriteFile path content.toUTF8

/-- The disk with artifacts written, the records of those that could be, and the faults of those
that could not. -/
def writeAll (x : Exporter) : Disk → List Artifact → Disk × List FileRecord × List ExportFault
  | d, [] => (d, [], [])
  | d, a :: as =>
    match x.store (x.target a).parent (x.target a) a.content d with
    | (d, none) =>
      let (d, records, faults) := x.writeAll d as
      (d, a.toRecord :: records, faults)
    | (d, some f) =>
      let (d, records, faults) := x.writeAll d as
      (d, records, .notWritten a.path f :: faults)

/-- The manifest of some records. -/
def manifestOf (x : Exporter) (records : List FileRecord) : Manifest where
  projectName := x.config.projectName
  projectVersion := x.config.projectVersion
  timestamp := x.timestamp
  directory := x.output.text
  files := records

/-- The disk with the manifest written, if that is asked for. -/
def writeManifest (x : Exporter) (m : Manifest) (d : Disk) : Disk × Option DiskFault :=
  if x.withManifest then
    { x with atomic := true }.store x.output (x.output.join (.ofText manifestName)) m.text d
  else (d, none)

/-- The outcome of exporting artifacts, and the disk afterwards. -/
def run (x : Exporter) (d : Disk) (as : List Artifact) : ExportResult × Disk :=
  match duplicatePaths as with
  | p :: ps =>
    (⟨x.manifestOf [], (p :: ps).map .duplicatePath, none, x.dryRun⟩, d)
  | [] =>
    if x.dryRun then (⟨x.manifestOf (as.map Artifact.toRecord), [], none, true⟩, d)
    else match x.cleaned d with
      | .error f => (⟨x.manifestOf [], [.notCleaned f], none, false⟩, d)
      | .ok d =>
        let (d, records, faults) := x.writeAll d as
        let m := x.manifestOf records
        let (d, manifestFault) := x.writeManifest m d
        (⟨m, faults, manifestFault, false⟩, d)

end Exporter

end EntityForge
