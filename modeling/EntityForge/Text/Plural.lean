/-!
# English plurals

The plural of a name, as table names use it: `es` after a sibilant, `ies` in place of a final
`y` unless `a`, `e` or `o` stands before it, and `s` otherwise.
-/

namespace EntityForge.Text

/-- The plural of a word given from its last letter to its first. -/
def pluralReversed : List Char → List Char
  | cs@('s' :: _) => 's' :: 'e' :: cs
  | cs@('h' :: 's' :: _) => 's' :: 'e' :: cs
  | cs@('h' :: 'c' :: _) => 's' :: 'e' :: cs
  | cs@('x' :: _) => 's' :: 'e' :: cs
  | cs@('y' :: 'a' :: _) => 's' :: cs
  | cs@('y' :: 'e' :: _) => 's' :: cs
  | cs@('y' :: 'o' :: _) => 's' :: cs
  | 'y' :: cs => 's' :: 'e' :: 'i' :: cs
  | cs => 's' :: cs

/-- The plural of a word. -/
def plural (s : String) : String := .ofList (pluralReversed s.toList.reverse).reverse

end EntityForge.Text
