import EntityForge.Text.Blank

/-!
# Names

A name is a non-empty run of ASCII letters, digits and underscores that does not start with a
digit. The checks on names overlook one line feed at the end of the text. A dotted path is a
sequence of names with dots between them.
-/

namespace EntityForge.Text

/-- May start a name. -/
def isNameStart (c : Char) : Bool := c.isAlpha || c == '_'

/-- May follow in a name. -/
def isNameChar (c : Char) : Bool := c.isAlphanum || c == '_'

/-- A name and nothing else. -/
def isName : List Char → Bool
  | [] => false
  | c :: cs => isNameStart c && cs.all isNameChar

/-- The text without one line feed at its end. -/
def dropFinalNewline (cs : List Char) : List Char :=
  if cs.getLast? = some '\n' then cs.dropLast else cs

/-- A name, which one line feed may follow. -/
def isNameLine (cs : List Char) : Bool := isName (dropFinalNewline cs)

/-- Names with dots between them, which one line feed may follow. -/
def isDottedPathLine (cs : List Char) : Bool :=
  (splitOn '.' (dropFinalNewline cs)).all isName

end EntityForge.Text
