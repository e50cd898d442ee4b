import EntityForge.Value.Basic

/-!
# Records as values

A record is written out as a mapping from the names of its parts to their values, in the order of
the parts.
-/

namespace EntityForge.Value

/-- A mapping with text keys. -/
def record (parts : List (String × Value)) : Value := .map (parts.map fun p => (.text p.1, p.2))

/-- A list of texts. -/
def texts (items : List String) : Value := .list (items.map .text)

/-- A text, or null where there is none. -/
def optionalText (s : Option String) : Value := (s.map .text).getD .null

/-- A natural number. -/
def ofNat (n : Nat) : Value := .int n

end EntityForge.Value
