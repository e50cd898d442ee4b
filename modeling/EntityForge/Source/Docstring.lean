import EntityForge.Text.Blank

/-!
# Documentation texts

The lines of a documentation text in the generated code. A text of one line that fits into 99
columns together with its margin and quotes stays on the line of its quotes; any other stands
between two lines of quotes, with every line that is not blank moved in by the margin. Three double
quotes in a row inside the text become three single ones.
-/

namespace EntityForge.Source

/-- The text with three single quotes in place of three double ones. -/
def replaceTripleQuotes : List Char → List Char
  | '"' :: '"' :: '"' :: cs => '\'' :: '\'' :: '\'' :: replaceTripleQuotes cs
  | c :: cs => c :: replaceTripleQuotes cs
  | [] => []

/-- The text as it stands between the quotes. -/
def docText (cs : List Char) : List Char := replaceTripleQuotes (Text.trim cs)

/-- Moves a line in, unless it is blank. -/
def marginLine (margin : List Char) (line : List Char) : List Char :=
  if Text.isAllBlank line then [] else margin ++ line

/-- The lines of a documentation text moved in by a number of columns. -/
def docLines (cs : List Char) (margin : Nat) : List (List Char) :=
  let text := docText cs
  let space := List.replicate margin ' '
  let quotes := ['"', '"', '"']
  if !text.contains '\n' && text.length + margin + 6 ≤ 99 then [space ++ quotes ++ text ++ quotes]
  else (space ++ quotes) :: (Text.splitOn '\n' text).map (marginLine space) ++ [space ++ quotes]

/-- The lines of a documentation text at a margin. -/
def docstring (text : String) (margin : Nat) : List String :=
  (docLines text.toList margin).map .ofList

/-- The lines of a documentation text at a level of indentation; a negative level has no
margin. -/
def docstringAt (text : String) (level size : Int) : List String :=
  docstring text (level * size).toNat

end EntityForge.Source
