import EntityForge.Text.Digit

/-!
# Arguments

An argument that starts with a dash is an option if its name is known. A long name may be shortened
as long as it stays the name of one option alone, and takes its value behind `=` or from the next
argument; short names may stand together behind one dash, the last of them with its value. What is no
option and no value is refused, and so are arguments that name no document.
-/

namespace EntityForge.CommandLine

/-- What an option asks for. -/
inductive Switch where
  | help
  | version
  | entities
  | output
  | validateOnly
  | dryRun
  | projectName
  | packageName
  | strictReferences
  | clean
  | noStrict
  | failOnWarnings
  | verbose
  | quiet
  deriving DecidableEq, Repr

namespace Switch

/-- The option has a value. -/
def takesValue : Switch → Bool
  | entities | output | projectName | packageName => true
  | _ => false

/-- The names of all options. -/
def names : List (String × Switch) := [
  ("-h", help), ("--help", help), ("--version", version), ("-s", entities),
  ("--entities", entities), ("-o", output), ("--output", output),
  ("--validate-only", validateOnly), ("--dry-run", dryRun), ("--project-name", projectName),
  ("--package-name", packageName), ("--strict-references", strictReferences), ("--clean", clean),
  ("--no-strict", noStrict), ("--fail-on-warnings", failOnWarnings), ("-v", verbose),
  ("--verbose", verbose), ("-q", quiet), ("--quiet", quiet)]

/-- The option with a name. -/
def named? (name : List Char) : Option Switch := names.lookup (.ofList name)

end Switch

/-- Why arguments are refused. -/
inductive Refusal where
  | ambiguous (argument : String)
  | valueExpected (option : Switch)
  | valueRefused (option : Switch)
  | noEntities
  | unknown (arguments : List String)
  deriving DecidableEq, Repr

/-- The most common name of an option. -/
def Switch.name (s : Switch) : String :=
  "/".intercalate ((names.filter fun (_, t) => t = s).map Prod.fst)

/-- The wording of a refusal. -/
def Refusal.message : Refusal → String
  | .ambiguous a => "ambiguous option: " ++ a
  | .valueExpected s => s!"argument {s.name}: expected one argument"
  | .valueRefused s => s!"argument {s.name}: ignored explicit argument"
  | .noEntities => "the following arguments are required: -s/--entities"
  | .unknown as => "unrecognized arguments: " ++ " ".intercalate as

/-- Why there is nothing to run. -/
inductive Halt where
  | help
  | version
  | refused (r : Refusal)
  deriving DecidableEq, Repr

/-- What the arguments ask for. -/
structure Arguments where
  entities : Option String := none
  output : Option String := none
  validateOnly : Bool := false
  dryRun : Bool := false
  projectName : Option String := none
  packageName : Option String := none
  strictReferences : Bool := false
  clean : Bool := false
  noStrict : Bool := false
  failOnWarnings : Bool := false
  verbosity : Nat := 0
  quiet : Bool := false
  deriving DecidableEq, Repr

/-- The arguments with one option more. -/
def Arguments.take (a : Arguments) (s : Switch) (value : String) : Except Halt Arguments :=
  match s with
  | .help => .error .help
  | .version => .error .version
  | .entities => .ok { a with entities := some value }
  | .output => .ok { a with output := some value }
  | .validateOnly => .ok { a with validateOnly := true }
  | .dryRun => .ok { a with dryRun := true }
  | .projectName => .ok { a with projectName := some value }
  | .packageName => .ok { a with packageName := some value }
  | .strictReferences => .ok { a with strictReferences := true }
  | .clean => .ok { a with clean := true }
  | .noStrict => .ok { a with noStrict := true }
  | .failOnWarnings => .ok { a with failOnWarnings := true }
  | .verbose => .ok { a with verbosity := a.verbosity + 1 }
  | .quiet => .ok { a with quiet := true }

/-- The arguments with several options more. -/
def Arguments.takeAll (a : Arguments) : List (Switch × String) → Except Halt Arguments
  | [] => .ok a
  | (s, value) :: rest => do (← a.take s value).takeAll rest

/-! ## Words -/

/-- A single argument by its look. -/
inductive Word where
  /-- No option. -/
  | plain
  /-- Behind it, nothing is an option. -/
  | separator
  /-- Looks like an option, but is none. -/
  | unknown
  | option (s : Switch)
  /-- An option with text behind its name, which `=` may set off. -/
  | attached (s : Switch) (long signed : Bool) (text : List Char)
  deriving Repr

/-- Looks like a number below zero. -/
def isNegativeNumber (cs : List Char) : Bool :=
  let isDigit (c : Char) : Bool := (Text.digitValue? c).isSome
  match cs with
  | '-' :: rest =>
    let whole := rest.takeWhile isDigit
    match rest.drop whole.length with
    | [] => whole ≠ []
    | '.' :: places => places ≠ [] && places.all isDigit
    | _ => false
  | _ => false

/-- The name in front of the first `=`, and the text behind it. -/
def splitAtSign (cs : List Char) : List Char × Option (List Char) :=
  match cs.dropWhile (· ≠ '=') with
  | [] => (cs, none)
  | _ :: text => (cs.takeWhile (· ≠ '='), some text)

/-- An option by a part of its long name, or by its short name with text behind it. -/
def shortened (cs : List Char) : List Word :=
  match cs with
  | '-' :: '-' :: _ =>
    let (name, text) := splitAtSign cs
    Switch.names.filterMap fun (full, s) =>
      if name.isPrefixOf full.toList then
        some (match text with
          | none => .option s
          | some t => .attached s true true t)
      else none
  | '-' :: c :: text => ((Switch.named? ['-', c]).map fun s => .attached s false false text).toList
  | _ => []

/-- A single argument by its look; two options that fit it equally well are an error. -/
def wordOf (argument : String) : Except Refusal Word :=
  let cs := argument.toList
  let looked : Except Refusal Word :=
    match shortened cs with
    | [w] => .ok w
    | _ :: _ :: _ => .error (.ambiguous argument)
    | [] => .ok (if isNegativeNumber cs || cs.contains ' ' then .plain else .unknown)
  if cs.head? ≠ some '-' then .ok .plain
  else match Switch.named? cs, cs with
    | some s, _ => .ok (.option s)
    | none, [_] => .ok .plain
    | none, _ => match splitAtSign cs with
      | (name, some text) => match Switch.named? name with
        | some s => .ok (.attached s (name.take 2 == ['-', '-']) true text)
        | none => looked
      | (_, none) => looked

/-- All arguments by their look; behind a separator all are plain. -/
def wordsOf : List String → Except Refusal (List (String × Word))
  | [] => .ok []
  | "--" :: rest => .ok (("--", .separator) :: rest.map fun a => (a, .plain))
  | a :: rest => do return (a, ← wordOf a) :: (← wordsOf rest)

/-- What short names behind one dash stand for. -/
structure Cluster where
  options : List (Switch × String)
  /-- What is left that is no option. -/
  rest : Option String := none
  /-- The last option, if it stands without text behind it. -/
  last : Option Switch := none

/-- The options in an argument with text behind the name of the first. -/
def cluster (s : Switch) (long signed : Bool) : List Char → Except Refusal Cluster
  | [] => if s.takesValue then .ok ⟨[(s, "")], none, none⟩ else .error (.valueRefused s)
  | c :: text =>
    if s.takesValue then .ok ⟨[(s, .ofList (c :: text))], none, none⟩
    else if long || signed || c == '-' then .error (.valueRefused s)
    else match Switch.named? ['-', c] with
      | none => .ok ⟨[(s, "")], some (.ofList ('-' :: c :: text)), none⟩
      | some t => do
        let found ← match text with
          | [] => pure ⟨[], none, some t⟩
          | '=' :: value => cluster t false true value
          | text => cluster t false false text
        return { found with options := (s, "") :: found.options }

/-- The arguments with an option that has no text behind its name, and whether the next of the words
behind it is its value. -/
def takeNext (a : Arguments) (s : Switch) (rest : List (String × Word)) :
    Except Halt (Arguments × Bool) :=
  if !s.takesValue then do return (← a.take s "", false)
  else match rest with
    | (value, .plain) :: _ => do return (← a.take s value, true)
    | _ => .error (.refused (.valueExpected s))

/-- What words ask for, and those that ask for nothing. The flag says that the first word has been
taken as a value. -/
def takeWords (a : Arguments) (taken : Bool) :
    List (String × Word) → Except Halt (Arguments × List String)
  | [] => .ok (a, [])
  | (argument, word) :: rest =>
    if taken then takeWords a false rest
    else match word with
      | .option s => do
        let (a, taken) ← takeNext a s rest
        takeWords a taken rest
      | .attached s long signed text => do
        let found ← (cluster s long signed text).mapError .refused
        if let some t := found.last then
          if t.takesValue && !(rest.head?.any fun w => w.2 matches .plain) then
            throw (.refused (.valueExpected t))
        let a ← a.takeAll found.options
        let (a, taken) ← match found.last with
          | some t => takeNext a t rest
          | none => pure (a, false)
        let (a, extra) ← takeWords a taken rest
        return (a, found.rest.toList ++ extra)
      | _ => do
        let (a, extra) ← takeWords a false rest
        return (a, argument :: extra)

/-- What a command line asks for. -/
def Arguments.ofList (arguments : List String) : Except Halt Arguments := do
  let words ← (wordsOf arguments).mapError .refused
  let (a, extra) ← takeWords {} false words
  if a.entities.isNone then throw (.refused .noEntities)
  if extra ≠ [] then throw (.refused (.unknown extra))
  return a

end EntityForge.CommandLine
