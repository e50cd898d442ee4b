import EntityForge.Value.Show

/-!
# Diagnostics

A diagnostic is a finding about a document: its severity, a code, a message and the context it
belongs to. Findings are recorded in the order in which they are made and never withdrawn. A
computation that records findings is a `Noted` value; running one after another joins their
findings in order.
-/

namespace EntityForge

/-- How grave a finding is. -/
inductive Severity where
  | error
  | warning
  | info
  deriving DecidableEq, Repr, Inhabited

namespace Severity

/-- The word for a severity. -/
def word : Severity → String
  | .error => "error"
  | .warning => "warning"
  | .info => "info"

/-- The word for a severity in capital letters. -/
def capitals : Severity → String
  | .error => "ERROR"
  | .warning => "WARNING"
  | .info => "INFO"

/-- The sign in front of a reported finding. -/
def sign : Severity → String
  | .error => "❌"
  | .warning => "⚠️"
  | .info => "ℹ️"

end Severity

/-- What a finding belongs to: named values in order, with distinct names. -/
abbrev Context := List (String × Value)

/-- The context with the value of one name set. -/
def Context.set (name : String) (value : Value) : Context → Context
  | [] => [(name, value)]
  | (n, v) :: rest => if n = name then (n, value) :: rest else (n, v) :: Context.set name value rest

/-- A finding about a document. -/
structure Diagnostic where
  severity : Severity
  code : String
  message : String
  context : Context
  deriving Repr, Inhabited

namespace Diagnostic

/-- The finding is an error. -/
def isError (d : Diagnostic) : Bool := d.severity == .error

/-- The finding is a warning. -/
def isWarning (d : Diagnostic) : Bool := d.severity == .warning

/-- The finding on one line. -/
def text (d : Diagnostic) : String := s!"[{d.severity.capitals}] {d.code}: {d.message}"

/-- The lines of a finding in a report. -/
def reportLines (d : Diagnostic) : List String :=
  s!"  {d.severity.sign} [{d.code}] {d.message}" ::
    d.context.map fun (k, v) => s!"       {k}: {v.plain}"

end Diagnostic

/-- Findings in the order in which they were made. -/
abbrev Diagnostics := List Diagnostic

namespace Diagnostics

/-- The errors. -/
def errors (ds : Diagnostics) : List Diagnostic := ds.filter Diagnostic.isError

/-- The warnings. -/
def warnings (ds : Diagnostics) : List Diagnostic := ds.filter Diagnostic.isWarning

/-- Some finding is an error. -/
def hasErrors (ds : Diagnostics) : Bool := ds.any Diagnostic.isError

/-- Some finding is a warning. -/
def hasWarnings (ds : Diagnostics) : Bool := ds.any Diagnostic.isWarning

/-- The numbers of errors, warnings and findings. -/
def summary (ds : Diagnostics) : String :=
  s!"Validation: {ds.errors.length} error(s), {ds.warnings.length} warning(s), " ++
    s!"{ds.length} total item(s)."

/-- The short form of a list of findings. -/
def label (ds : Diagnostics) : String := s!"<ValidationResult {ds.summary}>"

/-- The report over several lines, with or without what is only informative. -/
def report (ds : Diagnostics) (includeInfo : Bool) : String :=
  let shown := ds.filter fun d => includeInfo || d.severity != .info
  "\n".intercalate (ds.summary :: "" :: shown.flatMap Diagnostic.reportLines)

/-- The messages of the errors in one sentence about an entity. -/
def fatalMessage (entity : String) (ds : Diagnostics) : String :=
  let joined := "; ".intercalate (ds.errors.map (·.message))
  let details := if joined.isEmpty then "unknown error" else joined
  s!"Entity '{entity}' is invalid: {details}"

end Diagnostics

/-- A result together with the findings made on the way to it. -/
structure Noted (α : Type) where
  value : α
  notes : Diagnostics
  deriving Repr, Inhabited

namespace Noted

instance : Monad Noted where
  pure a := ⟨a, []⟩
  bind x f :=
    let y := f x.value
    ⟨y.value, x.notes ++ y.notes⟩

@[simp] theorem value_pure {α : Type} (a : α) : (pure a : Noted α).value = a := rfl

@[simp] theorem notes_pure {α : Type} (a : α) : (pure a : Noted α).notes = [] := rfl

@[simp] theorem value_bind {α β : Type} (x : Noted α) (f : α → Noted β) :
    (x >>= f).value = (f x.value).value := rfl

@[simp] theorem notes_bind {α β : Type} (x : Noted α) (f : α → Noted β) :
    (x >>= f).notes = x.notes ++ (f x.value).notes := rfl

/-- Records one finding. -/
def note (d : Diagnostic) : Noted Unit := ⟨(), [d]⟩

/-- Records an error. -/
def error (code message : String) (context : Context) : Noted Unit :=
  note ⟨.error, code, message, context⟩

/-- Records a warning. -/
def warning (code message : String) (context : Context) : Noted Unit :=
  note ⟨.warning, code, message, context⟩

/-- Records what is only informative. -/
def info (code message : String) (context : Context) : Noted Unit :=
  note ⟨.info, code, message, context⟩

/-- Records a dangling reference: an error when references are strict, a warning otherwise. -/
def dangling (strict : Bool) (code message : String) (context : Context) : Noted Unit :=
  note ⟨if strict then .error else .warning, code, message, context⟩

/-- Runs a computation on every item in order, keeping the results that there are. -/
def collect {α β : Type} (f : α → Noted (Option β)) : List α → Noted (List β)
  | [] => pure []
  | a :: rest => do
    let b ← f a
    let bs ← collect f rest
    pure (b.toList ++ bs)

/-- Runs a computation on every item in order for its findings. -/
def each {α : Type} (f : α → Noted Unit) : List α → Noted Unit
  | [] => pure ()
  | a :: rest => do
    f a
    each f rest

/-- The result and the findings appended to those already recorded. -/
def after {α : Type} (log : Diagnostics) (x : Noted α) : α × Diagnostics := (x.value, log ++ x.notes)

end Noted

end EntityForge
