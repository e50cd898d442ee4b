import EntityForge.CommandLine.Arguments
import EntityForge.CommandLine.Help
import EntityForge.Generation.Run

/-!
# Running a command line

A command line is answered by what it prints, an exit code and the disk as it is left. Arguments that
are refused end the program with code two. A run that only validates prints a report of its own.
-/

namespace EntityForge.CommandLine

/-- What a command line leads to. -/
structure Answer where
  code : Nat
  /-- The arguments have ended the program. -/
  ended : Bool := false
  output : List String := []
  errors : List String := []
  disk : Disk

/-- The settings that the arguments replace. -/
def Arguments.overrides (a : Arguments) : Entries :=
  let text (name : String) (value : Option String) : Entries :=
    (value.map fun s => (Value.text name, Value.text s)).toList
  text "project_name" a.projectName ++ text "package_name" a.packageName ++
    if a.strictReferences then [(.text "strict_references", .bool true)] else []

/-- How a run is to be done by the arguments. -/
def Arguments.generator (a : Arguments) (timestamp : String) : Generator where
  strict := !a.noStrict
  failOnWarnings := a.failOnWarnings
  cleanOutput := a.clean
  dryRun := a.dryRun
  validateOnly := a.validateOnly
  timestamp := timestamp

/-- The lines of a report on a validation. -/
def validationReport (source : Path) (r : Report) : List String :=
  let frame := Report.rule 50 '='
  let part (title mark : String) (items : List String) : List String :=
    if items.isEmpty then [] else "" :: Report.listing title mark items
  ["", frame, "  Entity Validation Report", frame,
    s!"  File:     {source.name}",
    s!"  Entities: {r.totalEntities}",
    s!"  Time:     {secondsText r.milliseconds}",
    "  Valid:    " ++ if r.success then "Yes" else "No"] ++
    part "Input errors" "✗" r.inputErrors ++
    part "Errors" "✗" r.validationErrors ++
    part "Warnings" "⚠" r.validationWarnings ++
    (if r.success && r.validationWarnings.isEmpty then ["", "  ✅ All validations passed!"] else []) ++
    [frame, ""]

/-- The answer to arguments that can be followed. -/
def follow (a : Arguments) (timestamp : String) (d : Disk) : Except Interruption Answer := do
  let noInput (message : String) : Answer :=
    { code := Outcome.noInput.code, errors := [message], disk := d }
  let source := (Path.ofText (a.entities.getD "")).resolve d.current
  match d.hasFile source with
  | .error f => throw (.input (.load (.disk f)))
  | .ok false => return noInput ("Entity file not found: " ++ source.text)
  | .ok true => pure ()
  if !a.validateOnly && a.output.isNone then
    return noInput
      "Output directory is required for generation. Use -o/--output or --validate-only."
  let output := Path.ofText (a.output.getD "")
  let (r, d) ← (a.generator timestamp).runFile source a.overrides output d
  return {
    code := r.exitCode
    output := if a.validateOnly then validationReport source r else r.summary.splitOn "\n"
    disk := d }

/-- The answer to a command line. -/
def run (arguments : List String) (timestamp : String) (d : Disk) : Except Interruption Answer :=
  match Arguments.ofList arguments with
  | .ok a => follow a timestamp d
  | .error .help => .ok { code := 0, ended := true, output := help.splitOn "\n", disk := d }
  | .error .version => .ok { code := 0, ended := true, output := [versionLine], disk := d }
  | .error (.refused r) =>
    .ok { code := 2, ended := true, errors := [usage, "entitygen: error: " ++ r.message], disk := d }

end EntityForge.CommandLine
