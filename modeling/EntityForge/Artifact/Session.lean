import EntityForge.Artifact.Export

/-!
# Exporters that are used again

An exporter keeps what it has noted of an export: the records of the files, the faults, and why the
manifest could not be written. All of that is cleared when the next export begins, and the result of
an export is read off from it at the end.
-/

namespace EntityForge

/-- What an exporter has noted of an export. -/
structure ExportNotes where
  records : List FileRecord := []
  faults : List ExportFault := []
  manifestFault : Option DiskFault := none
  deriving DecidableEq, Repr, Inhabited

namespace Exporter

/-- The result of an export as it was noted. -/
def resultOf (x : Exporter) (notes : ExportNotes) : ExportResult where
  manifest := x.manifestOf notes.records
  faults := notes.faults
  manifestFault := notes.manifestFault
  dryRun := x.dryRun

/-- The disk with artifacts written, and what was noted with their records and faults. -/
def writeEach (x : Exporter) : ExportNotes → Disk → List Artifact → ExportNotes × Disk
  | notes, d, [] => (notes, d)
  | notes, d, a :: as =>
    match x.store (x.target a).parent (x.target a) a.content d with
    | (d, none) => x.writeEach { notes with records := notes.records ++ [a.toRecord] } d as
    | (d, some f) =>
      x.writeEach { notes with faults := notes.faults ++ [.notWritten a.path f] } d as

/-- The disk with the manifest of what was noted, and what was noted with its fault. -/
def writeNoted (x : Exporter) (notes : ExportNotes) (d : Disk) : ExportNotes × Disk :=
  let (d, fault) := x.writeManifest (x.manifestOf notes.records) d
  ({ notes with manifestFault := fault }, d)

/-- What an export notes, whatever was noted before, and the disk afterwards. -/
def note (x : Exporter) (notes : ExportNotes) (d : Disk) (as : List Artifact) :
    ExportNotes × Disk :=
  let notes := { notes with records := [], faults := [], manifestFault := none }
  match duplicatePaths as with
  | p :: ps => ({ notes with faults := (p :: ps).map .duplicatePath }, d)
  | [] =>
    if x.dryRun then ({ notes with records := as.map Artifact.toRecord }, d)
    else match x.cleaned d with
      | .error f => ({ notes with faults := notes.faults ++ [.notCleaned f] }, d)
      | .ok d =>
        let (notes, d) := x.writeEach notes d as
        x.writeNoted notes d

/-- The outcome of an export by an exporter that may have been used before, what it keeps of it, and
the disk afterwards. -/
def perform (x : Exporter) (notes : ExportNotes) (d : Disk) (as : List Artifact) :
    ExportResult × ExportNotes × Disk :=
  let (notes, d) := x.note notes d as
  (x.resultOf notes, notes, d)

end Exporter

end EntityForge
