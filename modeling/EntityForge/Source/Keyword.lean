import EntityForge.Text.Name

/-!
# Identifiers of the generated code

An identifier is a name that is not a keyword of the generated language. As in every check on
names, one line feed at the end is overlooked; a keyword with a line feed behind it is no keyword.
-/

namespace EntityForge.Source

/-- The words that cannot be identifiers. -/
def keywords : List String := [
  "False", "None", "True", "and", "as", "assert", "async", "await", "break", "class", "continue",
  "def", "del", "elif", "else", "except", "finally", "for", "from", "global", "if", "import", "in",
  "is", "lambda", "nonlocal", "not", "or", "pass", "raise", "return", "try", "while", "with",
  "yield"]

/-- Usable as an identifier. -/
def isIdentifier (s : String) : Bool := Text.isNameLine s.toList && !keywords.contains s

end EntityForge.Source
