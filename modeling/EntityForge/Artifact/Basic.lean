import EntityForge.Schema.Check

/-!
# Artifacts

An artifact is one generated file: its path below the output directory, its content, the entity it
belongs to and what kind of file it is.
-/

namespace EntityForge

/-- A generated file. -/
structure Artifact where
  path : String
  content : String
  entity : String
  kind : String
  deriving DecidableEq, Repr, Inhabited

namespace Artifact

/-- The number of lines: as many as line feeds, and one more for a last line without one. -/
def lineCount (a : Artifact) : Nat :=
  let cs := a.content.toList
  cs.count '\n' + (if cs ≠ [] ∧ cs.getLast? ≠ some '\n' then 1 else 0)

/-- The number of bytes. -/
def size (a : Artifact) : Nat := a.content.utf8ByteSize

/-- The form of an artifact in log lines. -/
def label (a : Artifact) : String := s!"<Artifact {a.path} ({a.kind})>"

/-- An artifact written out. -/
def check : Schema.Check Artifact :=
  Schema.closedRecord "GeneratedArtifact" ["path", "content", "entity", "kind"] fun es =>
    Artifact.mk
      <$> Schema.required es "path" Schema.nonEmptyText
      <*> Schema.required es "content" Schema.text
      <*> Schema.required es "entity" Schema.text
      <*> Schema.required es "kind" Schema.text

end Artifact

end EntityForge
