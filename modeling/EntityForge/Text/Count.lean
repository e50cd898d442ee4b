/-!
# Measures of a text

The number of lines counts an unfinished last line; the size is the number of bytes of the UTF-8
form.
-/

namespace EntityForge.Text

/-- The number of lines, the last of which need not end in a line feed. -/
def lineCount (s : String) : Nat :=
  if s = "" then 0
  else s.toList.count '\n' + (if s.toList.getLast? = some '\n' then 0 else 1)

/-- The sum of the measures of several texts. -/
def total (ns : List Nat) : Nat := ns.foldr (· + ·) 0

/-- A number with commas between groups of three digits. -/
def grouped (n : Int) : String :=
  (if n < 0 then "-" else "") ++ .ofList (go (Nat.toDigits 10 n.natAbs).reverse).reverse
where
  /-- Groups digits given from the last to the first. -/
  go : List Char → List Char
    | a :: b :: c :: d :: ds => a :: b :: c :: ',' :: go (d :: ds)
    | ds => ds

end EntityForge.Text
