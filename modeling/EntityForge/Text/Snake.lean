import EntityForge.Text.Blank

/-!
# Snake case

A name is cut into words: at every character that is not an ASCII letter or digit, before a
capital that follows a small letter or a digit, and before the last capital of a run of capitals
that a small letter follows. The snake-case form joins the words, in small letters, with single
underscores.
-/

namespace EntityForge.Text

/-- An ASCII letter or digit: the only characters that a word keeps. -/
def isWordChar (c : Char) : Bool := c.isAlphanum

/-- A new word starts at `d` when it stands right after `c` and in front of `next`. -/
def startsWord (c d : Char) (next : Option Char) : Bool :=
  d.isUpper && (c.isLower || c.isDigit || (c.isUpper && next.any Char.isLower))

/-- The words of a name, as they are spelled. -/
def nameWords : List Char → List (List Char)
  | [] => []
  | c :: cs =>
    if isWordChar c then
      match cs with
      | [] => [[c]]
      | d :: rest =>
        if isWordChar d && !startsWord c d rest.head? then prependToFirst c (nameWords cs)
        else [c] :: nameWords cs
    else nameWords cs

/-- The snake-case form of a name. -/
def snakeChars (cs : List Char) : List Char :=
  List.intercalate ['_'] ((nameWords cs).map (·.map Char.toLower))

/-- The snake-case form of a name. -/
def snakeCase (s : String) : String := .ofList (snakeChars s.toList)

end EntityForge.Text
