import EntityForge.Attribute.Scalar
import EntityForge.Entity.Command

/-!
# Reading a command declaration

A command is declared by its name alone or by a mapping of options. The options are taken in a
fixed order, so that an explicit kind always overrides the kind that another option implies. A
command with any fault is not returned.
-/

namespace EntityForge.Attribute

/-- The options of a command besides its name. -/
def commandOptions : List String :=
  ["fields", "requires_id", "source", "payload", "result", "kind", "security"]

/-- What the options have determined so far. -/
structure CommandDraft where
  source : CommandSource := .create
  kind : CommandKind := .create
  requiresId : Bool := false
  fields : List String := []
  payload : Option String := none
  deriving Repr, Inhabited

namespace CommandDraft

/-- Takes the option `fields`: a command with fields of its own changes an identified row. -/
def takeFields (entries : Entries) (site : Site) (d : CommandDraft) : Noted CommandDraft :=
  given entries "fields" d fun v => do
    match ← nameList v "fields" site with
    | none => pure d
    | some [] => do
      site.fault "INVALID_COMMAND" "fields" "'fields' must name at least one field."
      pure d
    | some names => pure { d with fields := names, source := .fields, requiresId := true, kind := .update }

/-- Takes the option `source`, which a command with fields of its own cannot have. -/
def takeSource (entries : Entries) (site : Site) (d : CommandDraft) : Noted CommandDraft :=
  given entries "source" d fun v =>
    if d.source = .fields then do
      site.fault "INVALID_COMMAND" "source" "'source' cannot be combined with 'fields'."
      pure d
    else match v with
      | .text "create" => pure { d with source := .create }
      | .text "update" => pure { d with source := .update, requiresId := true, kind := .update }
      | .text "none" => pure { d with source := .none }
      | v => do
        site.fault "INVALID_COMMAND_OPTION" "source"
          s!"source must be \"create\", \"update\", or \"none\", got {v.quoted}."
        pure d

/-- Takes the option `payload`, which a command with fields of its own cannot have. -/
def takePayload (entries : Entries) (site : Site) (d : CommandDraft) : Noted CommandDraft :=
  given entries "payload" d fun v => do
    match ← text v "payload" site with
    | none => pure d
    | some p =>
      if d.fields.isEmpty then pure { d with payload := some p, source := .custom, kind := .custom }
      else do
        site.fault "INVALID_COMMAND" "payload" "'payload' cannot be combined with 'fields'."
        pure { d with payload := some p }

/-- Takes the option `requires_id`: a creation that needs an identifier is a change without
fields. -/
def takeRequiresId (entries : Entries) (site : Site) (d : CommandDraft) : Noted CommandDraft :=
  given entries "requires_id" d fun v => do
    match ← flag v "requires_id" site with
    | some true =>
      if d.source = .create then pure { d with requiresId := true, source := .none, kind := .update }
      else pure { d with requiresId := true }
    | _ => pure d

/-- Takes the option `kind`. -/
def takeKind (entries : Entries) (site : Site) (d : CommandDraft) : Noted CommandDraft :=
  given entries "kind" d fun v => do
    match ← choice CommandKind v "kind" "INVALID_COMMAND_OPTION" site with
    | some k => pure { d with kind := k }
    | none => pure d

end CommandDraft

/-- Refuses every option that is not known. -/
def refuseUnknownOptions (entries : Entries) (site : Site) : Noted Unit :=
  let expected := ", ".intercalate commandOptions
  Noted.each (fun e =>
    if e.1.isOneOf ("name" :: commandOptions) then pure ()
    else site.fault "INVALID_COMMAND_OPTION" e.1.plain
      s!"unknown command option '{e.1.plain}', expected: {expected}.") entries

/-- The site of a command inside the site it is declared at. -/
def commandSite (entries : Entries) (site : Site) : Site :=
  let rawName := (Value.lookup "name" entries).getD .null
  ⟨s!"{site.label} command '{rawName.plain}'", site.context.set "command" rawName⟩

/-- The command that a mapping declares, whatever its faults, if it has a name. -/
def draftCommand (entries : Entries) (site : Site) : Noted (Option Command) := do
  let name ← name ((Value.lookup "name" entries).getD .null) "name" site
  refuseUnknownOptions entries site
  let d ← CommandDraft.takeFields entries site {}
  let d ← d.takeSource entries site
  let d ← d.takePayload entries site
  let d ← d.takeRequiresId entries site
  let d ← d.takeKind entries site
  let result ← present entries "result" none fun v => text v "result" site
  let security ← present entries "security" none fun v => text v "security" site
  pure (name.map fun n => ⟨n, d.source, d.fields, d.payload, d.requiresId, d.kind, result, security⟩)

/-- Drops the result of a computation that recorded an error. -/
def unlessFaulty {α : Type} (x : Noted (Option α)) : Noted (Option α) :=
  ⟨if Diagnostics.hasErrors x.notes then none else x.value, x.notes⟩

/-- The command that a mapping declares, if it has no fault. -/
def commandOfEntries (entries : Entries) (site : Site) : Noted (Option Command) :=
  unlessFaulty (draftCommand entries (commandSite entries site))

/-- The command that a name or a mapping declares, if it has no fault. -/
def command (value : Value) (site : Site) : Noted (Option Command) :=
  match value with
  | .text s => commandOfEntries [(.text "name", .text s)] site
  | .map entries => commandOfEntries entries site
  | v => do
    .error "INVALID_COMMAND"
      s!"{site.label}: a command must be a name or a mapping, got {v.quoted}." site.context
    pure none

end EntityForge.Attribute
