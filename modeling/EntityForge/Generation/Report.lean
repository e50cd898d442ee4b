import EntityForge.Artifact.Manifest

/-!
# Reports

A report says how far a generation run came: its steps, the errors of each phase, and what was
generated. The earliest phase with an error decides the exit code.
-/

namespace EntityForge

/-- A part of a run. -/
structure Step where
  name : String
  success : Bool
  detail : String
  milliseconds : Nat := 0
  deriving DecidableEq, Repr

/-- What a generation run did. -/
structure Report where
  success : Bool := false
  projectName : String := ""
  outputDirectory : String := ""
  dryRun : Bool := false
  totalFiles : Int := 0
  totalBytes : Int := 0
  totalLines : Int := 0
  totalEntities : Int := 0
  milliseconds : Nat := 0
  steps : List Step := []
  inputErrors : List String := []
  validationErrors : List String := []
  validationWarnings : List String := []
  generationErrors : List String := []
  exportErrors : List String := []
  generatedEntities : List String := []
  failedEntities : List String := []
  artifacts : List Artifact := []
  manifest : Option Manifest := none
  deriving Repr

/-- How a run ends for whoever started it. -/
inductive Outcome where
  | success
  | invalid
  | notGenerated
  | notExported
  | noInput
  deriving DecidableEq, Repr

/-- The exit code of an outcome. -/
def Outcome.code : Outcome → Nat
  | .success => 0
  | .invalid => 1
  | .notGenerated => 2
  | .notExported => 3
  | .noInput => 4

/-- A number of milliseconds in seconds. -/
def secondsText (milliseconds : Nat) : String :=
  toString (milliseconds / 1000) ++ "." ++ zeroPadded 3 (milliseconds % 1000) ++ "s"

/-- A text filled up with blanks behind it. -/
def padRight (width : Nat) (s : String) : String :=
  s ++ .ofList (List.replicate (width - s.length) ' ')

/-- A text filled up with blanks in front of it. -/
def padLeft (width : Nat) (s : String) : String :=
  .ofList (List.replicate (width - s.length) ' ') ++ s

/-- The line of a step in a report. -/
def Step.line (s : Step) : String :=
  "    " ++ (if s.success then "✓" else "✗") ++ " " ++ padRight 28 s.name ++ " " ++
    padLeft 8 (secondsText s.milliseconds) ++ "  " ++ s.detail

namespace Report

/-- No phase has an error. -/
def isClean (r : Report) : Bool :=
  r.inputErrors.isEmpty && r.validationErrors.isEmpty && r.generationErrors.isEmpty &&
    r.exportErrors.isEmpty

/-- The outcome of a run, which the earliest phase with an error decides. -/
def outcome (r : Report) : Outcome :=
  if !r.inputErrors.isEmpty then .noInput
  else if !r.validationErrors.isEmpty then .invalid
  else if !r.generationErrors.isEmpty then .notGenerated
  else if !r.exportErrors.isEmpty then .notExported
  else if r.success then .success else .invalid

/-- The exit code of a run. -/
def exitCode (r : Report) : Nat := r.outcome.code

/-- A line across a report. -/
def rule (width : Nat) (c : Char) : String := .ofList (List.replicate width c)

/-- A list with its title and a mark in front of each item; nothing for an empty list. -/
def listing (title mark : String) (items : List String) : List String :=
  if items.isEmpty then []
  else s!"  {title} ({items.length}):" :: items.map fun item => s!"    {mark} {item}"

/-- A list of a summary, set off by a line. -/
def part (title mark : String) (items : List String) : List String :=
  if items.isEmpty then [] else rule 60 '─' :: listing title mark items

/-- A report to be read by people. -/
def summary (r : Report) : String :=
  let frame := rule 60 '='
  let status := (if r.success then "✅ SUCCESS" else "❌ FAILED") ++
    if r.dryRun then " (dry run)" else ""
  "\n".intercalate (
    [frame, "  entitygen — Generation Report", frame,
      s!"  Status:           {status}",
      s!"  Project:          {r.projectName}",
      s!"  Output:           {r.outputDirectory}",
      s!"  Entities:         {r.generatedEntities.length}/{r.totalEntities} generated",
      s!"  Files generated:  {r.totalFiles}",
      s!"  Total lines:      {Text.grouped r.totalLines}",
      s!"  Total bytes:      {Text.grouped r.totalBytes}",
      s!"  Total time:       {secondsText r.milliseconds}",
      rule 60 '─'] ++
    (if r.steps.isEmpty then [] else "  Pipeline Steps:" :: r.steps.map Step.line) ++
    part "Input Errors" "✗" r.inputErrors ++
    part "Validation Errors" "✗" r.validationErrors ++
    part "Validation Warnings" "⚠" r.validationWarnings ++
    part "Generation Errors" "✗" r.generationErrors ++
    part "Export Errors" "✗" r.exportErrors ++
    part "Failed Entities" "⊘" r.failedEntities ++ [frame])

/-- The report with its final status. -/
def finished (r : Report) : Report := { r with success := r.isClean }

/-- The report with one more step. -/
def addStep (r : Report) (s : Step) : Report := { r with steps := r.steps ++ [s] }

end Report

end EntityForge
