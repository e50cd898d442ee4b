import EntityForge.Text.Digit
import EntityForge.Value.Calendar

/-!
# Tags

The tag of a node says what kind of value it stands for. A node without a tag gets one: a collection
that of its shape, a quoted scalar that of a text, and a plain scalar the one that its text looks
like. A plain text is a number only if it is one as a whole; a fraction needs its point, and an
exponent its sign.
-/

namespace EntityForge.Yaml

/-- What kind of value a node stands for. -/
inductive Tag where
  | null
  | bool
  | int
  | float
  | binary
  | timestamp
  | orderedMap
  | pairs
  | set
  | text
  | sequence
  | mapping
  /-- The key that takes over the entries of another mapping. -/
  | merge
  /-- The key for the value of a mapping as a whole. -/
  | wholeValue
  | other (name : String)
  deriving DecidableEq, Repr

namespace Tag

/-- The names behind the common first part of all known tags. -/
def names : List (String × Tag) := [
  ("null", null), ("bool", bool), ("int", int), ("float", float), ("binary", binary),
  ("timestamp", timestamp), ("omap", orderedMap), ("pairs", pairs), ("set", set), ("str", text),
  ("seq", sequence), ("map", mapping), ("merge", merge), ("value", wholeValue)]

/-- The common first part of all known tags. -/
def standard : String := "tag:yaml.org,2002:"

/-- The tag with a full name. -/
def ofName (name : String) : Tag :=
  ((names.find? fun (n, _) => standard ++ n == name).map Prod.snd).getD (other name)

end Tag

/-! ## The look of plain scalars -/

/-- A digit, or the mark between digits. -/
def isNumeral (c : Char) : Bool := c.isDigit || c == '_'

/-- A number without its sign. -/
def unsigned : List Char → List Char
  | '-' :: cs | '+' :: cs => cs
  | cs => cs

/-- A text that begins with a digit and goes on with digits and marks. -/
def isWhole : List Char → Bool
  | c :: cs => c.isDigit && cs.all isNumeral
  | [] => false

/-- A group of digits to the base sixty. -/
def isSixtieth : List Char → Bool
  | [c] => c.isDigit
  | [c, d] => '0' ≤ c && c ≤ '5' && d.isDigit
  | _ => false

/-- An exponent with its sign, or nothing. -/
def isExponentOrEnd : List Char → Bool
  | [] => true
  | e :: sign :: digits =>
    (e == 'e' || e == 'E') && (sign == '-' || sign == '+') && digits ≠ [] && digits.all (·.isDigit)
  | _ => false

/-- The parts between the occurrences of a character. -/
def partsAt (mark : Char) : List Char → List (List Char)
  | [] => [[]]
  | c :: cs =>
    if c = mark then [] :: partsAt mark cs
    else match partsAt mark cs with
      | part :: parts => (c :: part) :: parts
      | [] => [[c]]

/-- Looks like a fraction. -/
def looksFloat (cs : List Char) : Bool :=
  let size := unsigned cs
  let fraction (cs : List Char) : Bool := isExponentOrEnd (cs.dropWhile isNumeral)
  let whole := size.takeWhile isNumeral
  let afterWhole := size.drop whole.length
  let pointed := match cs with
    | '.' :: d :: rest => d.isDigit && fraction rest
    | _ => false
  let plain := isWhole whole && afterWhole.head? == some '.' && fraction (afterWhole.drop 1)
  let sixties := match partsAt ':' size with
    | first :: (second :: rest) =>
      let last := rest.getLastD second
      let lastWhole := last.takeWhile (·.isDigit)
      isWhole first && (second :: rest).dropLast.all isSixtieth && isSixtieth lastWhole &&
        (last.drop lastWhole.length).head? == some '.' &&
        (last.drop (lastWhole.length + 1)).all isNumeral
    | _ => false
  plain || pointed || sixties || [".inf", ".Inf", ".INF"].contains (String.ofList size) ||
    [".nan", ".NaN", ".NAN"].contains (String.ofList cs)

/-- A digit of a number to the base sixteen, or the mark between digits. -/
def isHexNumeral (c : Char) : Bool :=
  isNumeral c || ('a' ≤ c && c ≤ 'f') || ('A' ≤ c && c ≤ 'F')

/-- Looks like a whole number. -/
def looksInt (cs : List Char) : Bool :=
  match unsigned cs with
  | ['0'] => true
  | '0' :: rest =>
    let based := match rest with
      | 'b' :: ds => ds ≠ [] && ds.all fun c => c == '0' || c == '1' || c == '_'
      | 'x' :: ds => ds ≠ [] && ds.all isHexNumeral
      | _ => false
    based || (rest ≠ [] && rest.all fun c => ('0' ≤ c && c ≤ '7') || c == '_')
  | size => match partsAt ':' size with
    | first :: sixties => isWhole first && sixties.all isSixtieth
    | [] => false

/-- The words for truth values. -/
def boolWords : List (String × Bool) := [
  ("yes", true), ("no", false), ("true", true), ("false", false), ("on", true), ("off", false)]

/-- A word in small letters, with a capital at the start, or in capitals. -/
def spellings (word : String) : List String :=
  [word, word.capitalize, word.map (·.toUpper)]

/-! ## Points in time -/

/-- A date as it is written, with the time of day and the offset if they are given. -/
structure Stamp where
  date : Date
  time : Option (Nat × Nat × Nat × List Char)
  /-- The distance from universal time in minutes. -/
  offset : Option Int
  deriving Repr

/-- One or two digits, or exactly two. -/
def shortNumber? (two : Bool) (cs : List Char) : Option (Nat × List Char) :=
  match (cs.take 2).takeWhile (·.isDigit) with
  | [] => none
  | [c] => if two then none else some (c.toNat - 48, cs.drop 1)
  | ds => some (ds.foldl (fun n c => 10 * n + (c.toNat - 48)) 0, cs.drop 2)

/-- What is left behind a mark. -/
def afterMark? (mark : Char) : List Char → Option (List Char)
  | c :: cs => if c = mark then some cs else none
  | [] => none

/-- The offset at the end of a point in time, if there is one. -/
def stampOffset? (cs : List Char) : Option (Option Int) :=
  if cs = [] then some none
  else match cs.dropWhile fun c => c == ' ' || c == '\t' with
    | ['Z'] => some (some 0)
    | sign :: rest =>
      if sign ≠ '-' ∧ sign ≠ '+' then none
      else do
        let (hours, rest) ← shortNumber? false rest
        let (minutes, rest) ←
          if rest = [] then pure (0, rest) else shortNumber? true (← afterMark? ':' rest)
        guard (rest = [])
        let size : Int := 60 * hours + minutes
        return some (if sign = '-' then -size else size)
    | [] => none

/-- What a text says that is written like a point in time. -/
def stamp? (cs : List Char) : Option Stamp := do
  let year := cs.take 4
  guard (year.length = 4 ∧ year.all (·.isDigit))
  let (month, rest) ← shortNumber? false (← afterMark? '-' (cs.drop 4))
  let (day, rest) ← shortNumber? false (← afterMark? '-' rest)
  let date : Date := ⟨year.foldl (fun n c => 10 * n + (c.toNat - 48)) 0, month, day⟩
  if rest = [] then return ⟨date, none, none⟩
  let rest ← match rest with
    | 'T' :: rest | 't' :: rest => some rest
    | c :: _ =>
      let isSpace (c : Char) : Bool := c == ' ' || c == '\t'
      if isSpace c then some (rest.dropWhile isSpace) else none
    | [] => none
  let (hour, rest) ← shortNumber? false rest
  let (minute, rest) ← shortNumber? true (← afterMark? ':' rest)
  let (second, rest) ← shortNumber? true (← afterMark? ':' rest)
  let (fraction, rest) := match rest with
    | '.' :: rest => (rest.takeWhile (·.isDigit), rest.dropWhile (·.isDigit))
    | _ => ([], rest)
  return ⟨date, some (hour, minute, second, fraction), ← stampOffset? rest⟩

/-- Looks like a point in time; a date alone has two digits for month and day. -/
def looksStamp (cs : List Char) : Bool :=
  match stamp? cs with
  | some s => s.time.isSome || cs.length == 10
  | none => false

/-- The tag of a plain scalar. -/
def Tag.ofPlain (s : String) : Tag :=
  let cs := s.toList
  if boolWords.any fun (word, _) => (spellings word).contains s then .bool
  else if looksFloat cs then .float
  else if looksInt cs then .int
  else if s = "<<" then .merge
  else if s = "" ∨ s = "~" ∨ (spellings "null").contains s then .null
  else if looksStamp cs then .timestamp
  else if s = "=" then .wholeValue
  else .text

end EntityForge.Yaml
