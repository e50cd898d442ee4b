import EntityForge.Sql.Layout

/-!
# Condition templates

A template is a text with placeholders in curly braces for the number of a parameter. A
placeholder may name the parameter by its position, ask for one of its parts, turn it into a text
and give a layout, in which placeholders may stand again. Doubled braces stand for themselves.
-/

namespace EntityForge.Sql

namespace Template

/-- A placeholder. -/
structure Slot where
  name : List Char
  conversion : Option Char := none
  layout : List Char := []
  deriving DecidableEq, Repr

/-- Opens or closes a placeholder. -/
def isBrace (c : Char) : Bool := c == '\x7b' || c == '\x7d'

/-- The name of a placeholder, in which anything may stand between square brackets; the rest starts
with the character that ends the name. -/
def spanName (bracketed : Bool) : List Char → Except TemplateFault (List Char × List Char)
  | [] => .error .expectedClosing
  | c :: rest =>
    if bracketed then behind c (c ≠ ']') rest
    else if c = '\x7b' then .error .unexpectedOpening
    else if c = '\x7d' ∨ c = ':' ∨ c = '!' then .ok ([], c :: rest)
    else behind c (c = '[') rest
where
  /-- The name from a character of its own on. -/
  behind (c : Char) (bracketed : Bool) (rest : List Char) := do
    let (name, after) ← spanName bracketed rest
    return (c :: name, after)

/-- The layout up to the brace that closes its placeholder, where `depth` braces are open. -/
def spanLayout : Nat → List Char → Except TemplateFault (List Char × List Char)
  | _, [] => .error .unmatchedOpening
  | depth, c :: rest =>
    if c = '\x7d' ∧ depth = 0 then .ok ([], rest)
    else do
      let inner := if c = '\x7b' then depth + 1 else if c = '\x7d' then depth - 1 else depth
      let (layout, after) ← spanLayout inner rest
      return (c :: layout, after)

/-- The conversion and the layout of a placeholder, from the character that ends its name. -/
def readOptions (name : List Char) : List Char → Except TemplateFault (Slot × List Char)
  | ':' :: rest => do
    let (layout, after) ← spanLayout 0 rest
    return (⟨name, none, layout⟩, after)
  | ['!'] => .error .conversionMissing
  | ['!', _] => .error .unmatchedOpening
  | '!' :: c :: '\x7d' :: rest => .ok (⟨name, some c, []⟩, rest)
  | '!' :: c :: ':' :: rest => do
    let (layout, after) ← spanLayout 0 rest
    return (⟨name, some c, layout⟩, after)
  | '!' :: _ => .error .colonMissing
  | _ :: rest => .ok (⟨name, none, []⟩, rest)
  | [] => .error .expectedClosing

/-- The placeholder behind an opening brace. -/
def readSlot (cs : List Char) : Except TemplateFault (Slot × List Char) := do
  let (name, rest) ← spanName false cs
  readOptions name rest

/-- How the placeholders so far name the parameter. -/
inductive Numbering where
  | unknown
  | automatic (next : Nat)
  | manual
  deriving DecidableEq, Repr

/-- The position that a name stands for, if it is one. -/
def position? (name : List Char) : Except TemplateFault (Option Nat) :=
  match spanDigits name with
  | (d :: ds, []) => some <$> templateNumber (d :: ds)
  | _ => .ok none

/-- Refuses every position but the first, and every name. -/
def resolve (name : List Char) (numbering : Numbering) : Except TemplateFault Numbering := do
  match ← position? name, name, numbering with
  | some _, _, .automatic _ => .error .manualAfterAutomatic
  | some n, _, _ => if n = 0 then .ok .manual else .error .noArgument
  | none, [], .manual => .error .automaticAfterManual
  | none, [], .unknown => .ok (.automatic 1)
  | none, [], .automatic _ => .error .noArgument
  | none, _ :: _, _ => .error .noName

/-- The part of a number with a name. -/
def part? (name : List Char) (n : Int) : Option Int :=
  if name = "real".toList ∨ name = "numerator".toList then some n
  else if name = "imag".toList then some 0
  else if name = "denominator".toList then some 1
  else none

/-- The part of a number that is asked for behind the name of a placeholder. -/
def select (n : Int) (path : List Char) : Except TemplateFault Int :=
  match path with
  | [] => .ok n
  | '.' :: rest =>
    let name := rest.takeWhile fun c => c ≠ '.' ∧ c ≠ '['
    if name = [] then .error .emptyAttribute
    else match part? name n with
      | some part => select part (rest.drop name.length)
      | none => .error .noAttribute
  | '[' :: rest => do
    let inside := rest.takeWhile (· ≠ ']')
    if inside.length = rest.length then throw .missingBracket
    let _ ← position? inside
    if inside = [] then .error .emptyAttribute else .error .notIndexable
  | _ => .ok n
termination_by path.length
decreasing_by
  simp only [List.length_drop, List.length_cons]
  omega

/-- The parameter in a placeholder, as a number or as a text. -/
def setSlot (n : Int) (s : Slot) (layout : List Char) : Except TemplateFault (List Char) := do
  match s.conversion with
  | none => Layout.setInt layout n
  | some _ => Layout.setText layout (toString n).toList

/-- Refuses an unknown conversion. -/
def checkConversion (s : Slot) : Except TemplateFault Unit :=
  match s.conversion with
  | none => .ok ()
  | some c => if c = 'r' ∨ c = 's' ∨ c = 'a' then .ok () else .error (.unknownConversion c)

/-- The name of a placeholder up to the part that is asked for, and the rest. -/
def splitName (name : List Char) : List Char × List Char :=
  let first := name.takeWhile fun c => c ≠ '.' ∧ c ≠ '['
  (first, name.drop first.length)

/-- How the placeholders inside a layout are filled in. -/
abbrev Expand := Numbering → List Char → Except TemplateFault (List Char × Numbering)

/-- A placeholder filled in with the parameter. -/
def fillSlot (expand : Expand) (n : Int) (numbering : Numbering) (s : Slot) :
    Except TemplateFault (List Char × Numbering) := do
  let (first, path) := splitName s.name
  let numbering ← resolve first numbering
  let part ← select n path
  checkConversion s
  if s.layout.contains '\x7b' then
    let (layout, numbering) ← expand numbering s.layout
    return (← setSlot part s layout, numbering)
  else return (← setSlot part s s.layout, numbering)

/-- Fills in the placeholders of a text from the left. -/
def fillFrom (expand : Expand) (n : Int) :
    Nat → Numbering → List Char → Except TemplateFault (List Char × Numbering)
  | 0, numbering, _ => .ok ([], numbering)
  | fuel + 1, numbering, cs =>
    let literal := cs.takeWhile fun c => !isBrace c
    match cs.dropWhile fun c => !isBrace c with
    | [] => .ok (literal, numbering)
    | b :: rest =>
      if rest.head? = some b then do
        let (behind, numbering) ← fillFrom expand n fuel numbering (rest.drop 1)
        return (literal ++ b :: behind, numbering)
      else if b = '\x7d' then .error .singleClosing
      else if rest = [] then .error .singleOpening
      else do
        let (slot, rest) ← readSlot rest
        let (filled, numbering) ← fillSlot expand n numbering slot
        let (behind, numbering) ← fillFrom expand n fuel numbering rest
        return (literal ++ filled ++ behind, numbering)

/-- Fills in the placeholders inside a layout, where none may nest again. -/
def expandLayout (n : Int) : Expand := fun numbering cs =>
  fillFrom (fun _ _ => .error .nestedTooDeep) n (cs.length + 1) numbering cs

/-- A template with the number of a parameter filled in. -/
def fill (template : String) (n : Int) : Except TemplateFault String := do
  let cs := template.toList
  let (filled, _) ← fillFrom (expandLayout n) n (cs.length + 1) .unknown cs
  return .ofList filled

end Template

end EntityForge.Sql
