import EntityForge.Text.Quoted

/-!
# Writing JSON

A JSON document is written on one line, or with an indentation of two spaces per level. Texts
keep every character but the quote, the backslash and the control characters as it is.
-/

namespace EntityForge

/-- A JSON document to be written. -/
inductive Json where
  | null
  | bool (b : Bool)
  | int (i : Int)
  | text (s : String)
  | list (items : List Json)
  | object (entries : List (String × Json))
  deriving Repr, Inhabited

namespace Json

/-- One character inside a text. -/
def textChar (c : Char) : List Char :=
  if c = '"' ∨ c = '\\' then ['\\', c]
  else if c = '\n' then ['\\', 'n']
  else if c = '\r' then ['\\', 'r']
  else if c = '\t' then ['\\', 't']
  else if c.toNat = 8 then ['\\', 'b']
  else if c.toNat = 12 then ['\\', 'f']
  else if c.toNat < 32 then '\\' :: 'u' :: Text.hexDigits 4 c.toNat
  else [c]

/-- A text between double quotes. -/
def textLiteral (s : String) : String := .ofList ('"' :: s.toList.flatMap textChar ++ ['"'])

mutual

/-- The document on one line. -/
def compact : Json → String
  | .null => "null"
  | .bool b => if b then "true" else "false"
  | .int i => toString i
  | .text s => textLiteral s
  | .list items => "[" ++ ", ".intercalate (compactItems items) ++ "]"
  | .object entries => "\x7b" ++ ", ".intercalate (compactEntries entries) ++ "\x7d"

/-- The items of a list. -/
def compactItems : List Json → List String
  | [] => []
  | x :: xs => x.compact :: compactItems xs

/-- The entries of an object. -/
def compactEntries : List (String × Json) → List String
  | [] => []
  | (k, v) :: rest => (textLiteral k ++ ": " ++ v.compact) :: compactEntries rest

end

/-- The parts of a list or object, each on a line of its own one level further in. -/
def block (opening closing : String) (depth : Nat) (parts : List String) : String :=
  let margin (d : Nat) : String := "\n" ++ .ofList (List.replicate (2 * d) ' ')
  if parts.isEmpty then opening ++ closing
  else opening ++ margin (depth + 1) ++ ("," ++ margin (depth + 1)).intercalate parts ++
    margin depth ++ closing

mutual

/-- The document with each part of a list or object on a line of its own. -/
def indented (depth : Nat) : Json → String
  | .list items => block "[" "]" depth (indentedItems (depth + 1) items)
  | .object entries => block "\x7b" "\x7d" depth (indentedEntries (depth + 1) entries)
  | .null => "null"
  | .bool b => if b then "true" else "false"
  | .int i => toString i
  | .text s => textLiteral s

/-- The items of a list. -/
def indentedItems (depth : Nat) : List Json → List String
  | [] => []
  | x :: xs => x.indented depth :: indentedItems depth xs

/-- The entries of an object. -/
def indentedEntries (depth : Nat) : List (String × Json) → List String
  | [] => []
  | (k, v) :: rest => (textLiteral k ++ ": " ++ v.indented depth) :: indentedEntries depth rest

end

/-- The document as a text of several lines. -/
def pretty (j : Json) : String := j.indented 0

end Json

end EntityForge
