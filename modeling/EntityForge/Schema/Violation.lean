import EntityForge.Value.Show

/-!
# Violations of a schema

Where and how a value departs from the shape that is expected of it. A violation names the place
as the path of keys and positions that leads to it, and the problem found there. A checked value
is either accepted or comes with all its violations in order.
-/

namespace EntityForge.Schema

/-- A step into a value: an entry of a mapping or an item of a list. -/
inductive Step where
  | key (name : String)
  | item (position : Int)
  deriving DecidableEq, Repr

/-- The step to an entry with any kind of key. -/
def Step.ofKey : Value → Step
  | .text s => .key s
  | .int i => .item i
  | .bool b => .item (if b then 1 else 0)
  | v => .key v.quoted

/-- What is wrong with a value. -/
inductive Problem where
  | missing
  | extra
  | badKey
  | notText
  | notUtf8
  | textTooShort (least : Nat)
  | textTooLong (most : Nat)
  | notBool
  | unclearBool
  | notInt
  | unclearInt
  | fractional
  | infinite
  | intTooLarge
  | tooSmall (least : Int)
  | notList
  | notTuple
  | notMapping
  | notRecord (name : String)
  | listTooShort (noun : String) (least actual : Nat)
  | notChoice (words : List String)
  | unknownAttribute (name : String)
  | refused (reason : String)
  deriving DecidableEq, Repr

/-- The kind of a problem. -/
def Problem.code : Problem → String
  | .missing => "missing"
  | .extra => "extra_forbidden"
  | .badKey => "invalid_key"
  | .notText => "string_type"
  | .notUtf8 => "string_unicode"
  | .textTooShort _ => "string_too_short"
  | .textTooLong _ => "string_too_long"
  | .notBool => "bool_type"
  | .unclearBool => "bool_parsing"
  | .notInt => "int_type"
  | .unclearInt => "int_parsing"
  | .fractional => "int_from_float"
  | .infinite => "finite_number"
  | .intTooLarge => "int_parsing_size"
  | .tooSmall _ => "greater_than_equal"
  | .notList => "list_type"
  | .notTuple => "tuple_type"
  | .notMapping => "dict_type"
  | .notRecord _ => "model_type"
  | .listTooShort _ _ _ => "too_short"
  | .notChoice _ => "enum"
  | .unknownAttribute _ => "no_such_attribute"
  | .refused _ => "value_error"

/-- A noun with its number, in the plural unless it is one. -/
def counted (n : Nat) (noun : String) : String :=
  if n = 1 then s!"{n} {noun}" else s!"{n} {noun}s"

/-- Quoted words, the last after an `or`. -/
def alternatives (words : List String) : String :=
  let quoted := words.map fun w => s!"'{w}'"
  match quoted.reverse with
  | [] => ""
  | [w] => w
  | w :: ws => ", ".intercalate ws.reverse ++ " or " ++ w

/-- The wording of a problem. -/
def Problem.message : Problem → String
  | .missing => "Field required"
  | .extra => "Extra inputs are not permitted"
  | .badKey => "Keys should be strings"
  | .notText => "Input should be a valid string"
  | .notUtf8 => "Input should be a valid string, unable to parse raw data as a unicode string"
  | .textTooShort n => "String should have at least " ++ counted n "character"
  | .textTooLong n => "String should have at most " ++ counted n "character"
  | .notBool => "Input should be a valid boolean"
  | .unclearBool => "Input should be a valid boolean, unable to interpret input"
  | .notInt => "Input should be a valid integer"
  | .unclearInt => "Input should be a valid integer, unable to parse string as an integer"
  | .fractional => "Input should be a valid integer, got a number with a fractional part"
  | .infinite => "Input should be a finite number"
  | .intTooLarge => "Unable to parse input string as an integer, exceeded maximum size"
  | .tooSmall n => s!"Input should be greater than or equal to {n}"
  | .notList => "Input should be a valid list"
  | .notTuple => "Input should be a valid tuple"
  | .notMapping => "Input should be a valid dictionary"
  | .notRecord name => s!"Input should be a valid dictionary or instance of {name}"
  | .listTooShort noun n actual =>
    noun ++ " should have at least " ++ counted n "item" ++ s!" after validation, not {actual}"
  | .notChoice words => "Input should be " ++ alternatives words
  | .unknownAttribute name => s!"Object has no attribute '{name}'"
  | .refused reason => s!"Value error, {reason}"

/-- A problem and the path to it. -/
structure Violation where
  path : List Step
  problem : Problem
  deriving DecidableEq, Repr

/-- The violation seen from one step further out. -/
def Violation.within (step : Step) (v : Violation) : Violation := ⟨step :: v.path, v.problem⟩

/-- The headline for some violations of a named record. -/
def headline (count : Nat) (record : String) : String :=
  counted count "validation error" ++ s!" for {record}"

/-- The text of a step. -/
def Step.text : Step → String
  | .key name => name
  | .item position => toString position

/-- A text kept on one line by escaping what would end it. -/
def onOneLine (s : String) : String := .ofList (s.toList.flatMap (Text.quotedChar '"'))

/-- The two lines of a violation in a report: where it is, and what is wrong there. -/
def Violation.lines (v : Violation) : List String :=
  [onOneLine (".".intercalate (v.path.map Step.text)), "  " ++ onOneLine v.problem.message]

/-- The report on the violations of a named record: a headline and two lines for each. -/
def report (record : String) (vs : List Violation) : String :=
  "\n".intercalate (headline vs.length record :: vs.flatMap Violation.lines)

/-- A value that was accepted, or all violations of one that was not. -/
inductive Checked (α : Type) where
  | accepted (a : α)
  | rejected (violations : List Violation)
  deriving Repr

namespace Checked

/-- The violations, of which an accepted value has none. -/
def violations {α : Type} : Checked α → List Violation
  | accepted _ => []
  | rejected vs => vs

/-- Applies a checked function to a checked value, keeping the violations of both. -/
def apply {α β : Type} : Checked (α → β) → Checked α → Checked β
  | accepted f, accepted a => accepted (f a)
  | accepted _, rejected vs => rejected vs
  | rejected vs, x => rejected (vs ++ x.violations)

instance : Applicative Checked where
  pure := accepted
  seq f x := apply f (x ())

/-- The checked value seen from one step further out. -/
def within {α : Type} (step : Step) : Checked α → Checked α
  | accepted a => accepted a
  | rejected vs => rejected (vs.map (Violation.within step))

/-- A further check of an accepted value. -/
def ensure {α β : Type} (x : Checked α) (check : α → Checked β) : Checked β :=
  match x with
  | accepted a => check a
  | rejected vs => rejected vs

/-- A single problem with a value. -/
def problem {α : Type} (p : Problem) : Checked α := rejected [⟨[], p⟩]

end Checked

end EntityForge.Schema
