import EntityForge.Artifact.Basic
import EntityForge.Digest.Sha256
import EntityForge.Document.Declaration
import EntityForge.Json.Write
import EntityForge.Text.Count

/-!
# Manifests

The manifest of an export names the project and lists one record for each file, with the measures
and the digest of its content.
-/

namespace EntityForge

/-- What a manifest says about one file. -/
structure FileRecord where
  path : String
  entity : String
  kind : String
  size : Nat
  lineCount : Nat
  sha256 : String
  deriving DecidableEq, Repr

/-- The record of an artifact. -/
def Artifact.toRecord (a : Artifact) : FileRecord where
  path := a.path
  entity := a.entity
  kind := a.kind
  size := a.content.toUTF8.size
  lineCount := Text.lineCount a.content
  sha256 := Digest.sha256Text a.content

/-- The version of the generator. -/
def generatorVersion : String := "0.3.0"

/-- What was exported, when and where to. -/
structure Manifest where
  projectName : String
  projectVersion : String
  timestamp : String
  directory : String
  files : List FileRecord
  deriving DecidableEq, Repr

namespace Manifest

/-- The number of files. -/
def totalFiles (m : Manifest) : Nat := m.files.length

/-- The number of bytes of all files. -/
def totalSize (m : Manifest) : Nat := Text.total (m.files.map FileRecord.size)

/-- The number of lines of all files. -/
def totalLines (m : Manifest) : Nat := Text.total (m.files.map FileRecord.lineCount)

/-- A record as a JSON object. -/
def recordJson (r : FileRecord) : Json := .object [
  ("relative_path", .text r.path), ("entity", .text r.entity), ("kind", .text r.kind),
  ("size_bytes", .int r.size), ("line_count", .int r.lineCount), ("sha256", .text r.sha256)]

/-- A manifest as a JSON object. -/
def json (m : Manifest) : Json := .object [
  ("project_name", .text m.projectName), ("project_version", .text m.projectVersion),
  ("generator_version", .text generatorVersion), ("export_timestamp", .text m.timestamp),
  ("output_directory", .text m.directory), ("total_files", .int m.totalFiles),
  ("total_bytes", .int m.totalSize), ("total_lines", .int m.totalLines),
  ("files", .list (m.files.map recordJson))]

/-- The text of a manifest. -/
def text (m : Manifest) : String := m.json.pretty

end Manifest

end EntityForge
