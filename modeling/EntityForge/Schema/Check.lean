import EntityForge.Entity.Vocabulary
import EntityForge.Schema.Violation
import EntityForge.Text.Digit

/-!
# Checks of values

The checks that schemas are made of. They are lenient where the meaning is plain: a truth value may
be written as a word or as the numbers zero and one, a whole number as a text of digits. The
entries of a record are checked in the order in which the record declares them; entries it does
not declare follow, where they are refused at all.
-/

namespace EntityForge.Schema

/-- A check of a value, with what the value means. -/
abbrev Check (α : Type) := Value → Checked α

/-- A text, or bytes that are one. -/
def text : Check String
  | .text s => .accepted s
  | .bytes bs =>
    match String.fromUTF8? ⟨bs.toArray⟩ with
    | some s => .accepted s
    | none => .problem .notUtf8
  | _ => .problem .notText

/-- A text of at least one and, if there is a limit, at most so many characters. -/
def boundedText (most : Option Nat) : Check String := fun v =>
  (text v).ensure fun s =>
    let tooLong := most.filter fun n => n < s.length
    match s.isEmpty, tooLong with
    | true, _ => .problem (.textTooShort 1)
    | false, some n => .problem (.textTooLong n)
    | false, none => .accepted s

/-- A text of at least one character. -/
def nonEmptyText : Check String := boundedText none

/-- Words for a truth value. -/
def boolWords : List (String × Bool) := [
  ("0", false), ("off", false), ("f", false), ("false", false), ("n", false), ("no", false),
  ("1", true), ("on", true), ("t", true), ("true", true), ("y", true), ("yes", true)]

/-- A truth value written as a word in any case. -/
def boolOfWord (s : String) : Checked Bool :=
  match boolWords.lookup (s.map Char.toLower) with
  | some b => .accepted b
  | none => .problem .unclearBool

/-- A truth value, a word for one, or the numbers zero and one. -/
def bool : Check Bool
  | .bool b => .accepted b
  | .int 0 => .accepted false
  | .int 1 => .accepted true
  | .int _ => .problem .unclearBool
  | .float x =>
    if x.toInt? = some 0 then .accepted false
    else if x.toInt? = some 1 then .accepted true
    else .problem .notBool
  | .text s => boolOfWord s
  | .bytes bs =>
    match String.fromUTF8? ⟨bs.toArray⟩ with
    | some s => boolOfWord s
    | none => .problem .unclearBool
  | _ => .problem .notBool

/-- The white space allowed around a number in a text. -/
def isNumberSpace (c : Char) : Bool :=
  Text.isBlank c && !(28 ≤ c.toNat && c.toNat ≤ 31)

/-- The number that ASCII digits, with single underscores between them, denote. -/
def unsignedOfChars? (cs : List Char) : Option Nat :=
  if cs.all fun c => c.isDigit || c == '_' then Text.readNat? cs else none

/-- The whole number that a text without blanks denotes; a fraction may only consist of zeros. -/
def intOfChars? (cs : List Char) : Option Int :=
  let whole := cs.takeWhile (· ≠ '.')
  let fraction := cs.dropWhile (· ≠ '.')
  if !(fraction.drop 1).all (· == '0') || fraction.length = 1 then none
  else match whole with
    | '-' :: ds => (unsignedOfChars? ds).map fun n => -(n : Int)
    | '+' :: ds => (unsignedOfChars? ds).map Int.ofNat
    | ds => (unsignedOfChars? ds).map Int.ofNat

/-- A whole number written as a text. -/
def intOfText (s : String) : Checked Int :=
  let cs := ((s.toList.dropWhile isNumberSpace).reverse.dropWhile isNumberSpace).reverse
  if Text.maxDigits < cs.length then .problem .intTooLarge
  else match intOfChars? cs with
    | some i => .accepted i
    | none => .problem .unclearInt

/-- A whole number, a text of digits, or a truth value as zero or one. -/
def int : Check Int
  | .bool b => .accepted (if b then 1 else 0)
  | .int i => .accepted i
  | .float .nan => .problem .infinite
  | .float (.infinity _) => .problem .infinite
  | .float x =>
    match x.toInt? with
    | none => .problem .fractional
    | some i => if i.natAbs < Nat.pow 2 63 then .accepted i else .problem .intTooLarge
  | .text s => intOfText s
  | .bytes bs =>
    match String.fromUTF8? ⟨bs.toArray⟩ with
    | some s => intOfText s
    | none => .problem .unclearInt
  | _ => .problem .notInt

/-- A whole number from a least one on. -/
def natFrom (least : Nat) : Check Nat := fun v =>
  (int v).ensure fun i => if i < least then .problem (.tooSmall least) else .accepted i.toNat

/-- A word of a vocabulary, written exactly. -/
def choice (α : Type) [Vocabulary α] : Check α := fun v =>
  let found := match v with
    | .text s => Vocabulary.ofWord? (α := α) s
    | _ => none
  match found with
  | some a => .accepted a
  | none => .problem (.notChoice (Vocabulary.words α))

/-- Null, or a value that passes a check. -/
def optional {α : Type} (check : Check α) : Check (Option α) := fun v =>
  match v with
  | .null => .accepted none
  | v => some <$> check v

/-- The items of a list, each with its own check. -/
def items {α : Type} (check : Check α) (position : Nat) : List Value → Checked (List α)
  | [] => .accepted []
  | v :: vs => List.cons <$> (check v).within (.item position) <*> items check (position + 1) vs

/-- The members of a value that is a sequence. -/
def sequence? : Value → Option (List Value)
  | .list xs => some xs
  | .tuple xs => some xs
  | .set xs => some xs
  | _ => none

/-- A list whose items pass a check. -/
def list {α : Type} (check : Check α) : Check (List α) := fun v =>
  match sequence? v with
  | some xs => items check 0 xs
  | none => .problem .notList

/-- A fixed sequence whose items pass a check. -/
def tuple {α : Type} (check : Check α) : Check (List α) := fun v =>
  match sequence? v with
  | some xs => items check 0 xs
  | none => .problem .notTuple

/-- A checked sequence with at least one item; the noun names the kind of sequence. -/
def atLeastOne {α : Type} (noun : String) (check : Check (List α)) : Check (List α) := fun v =>
  (check v).ensure fun xs =>
    if xs.isEmpty then .problem (.listTooShort noun 1 0) else .accepted xs

/-- The violations of keys that are not texts. -/
def keyViolations : Entries → List Violation
  | [] => []
  | (k, _) :: rest =>
    match text k with
    | .accepted _ => keyViolations rest
    | .rejected vs =>
      vs.map (fun v => (v.within (.key "[key]")).within (.ofKey k)) ++ keyViolations rest

/-- A mapping with text keys and values of any kind. -/
def mapping : Check Entries
  | .map entries =>
    match keyViolations entries with
    | [] => .accepted entries
    | vs => .rejected vs
  | _ => .problem .notMapping

/-- An entry of a record that must be there. -/
def required {α : Type} (entries : Entries) (key : String) (check : Check α) : Checked α :=
  (match Value.lookup key entries with
    | some v => check v
    | none => .problem .missing).within (.key key)

/-- An entry of a record with a value to take when it is not there. -/
def withDefault {α : Type} (entries : Entries) (key : String) (value : α) (check : Check α) :
    Checked α :=
  match Value.lookup key entries with
  | some v => (check v).within (.key key)
  | none => .accepted value

/-- The violations of entries that a record does not declare. -/
def extraViolations (declared : List String) : Entries → List Violation
  | [] => []
  | (k, _) :: rest =>
    match k with
    | .text s =>
      if declared.contains s then extraViolations declared rest
      else ⟨[.key s], .extra⟩ :: extraViolations declared rest
    | k => ⟨[.ofKey k], .badKey⟩ :: extraViolations declared rest

/-- Refuses entries that a record does not declare. -/
def closed (entries : Entries) (declared : List String) : Checked Unit :=
  match extraViolations declared entries with
  | [] => .accepted ()
  | vs => .rejected vs

/-- A named record: a mapping whose entries pass a check. -/
def record {α : Type} (name : String) (check : Entries → Checked α) : Check α := fun v =>
  match v with
  | .map entries => check entries
  | _ => .problem (.notRecord name)

/-- A record that declares all its entries. -/
def closedRecord {α : Type} (name : String) (declared : List String)
    (check : Entries → Checked α) : Check α :=
  record name fun entries => (fun a _ => a) <$> check entries <*> closed entries declared

end EntityForge.Schema
