import EntityForge.Text.Replace

/-!
# String literals

A text as a literal of the generated code, between double quotes: backslashes, double quotes and
line feeds are escaped with a backslash. Backslashes are escaped first, so that those of the other
escapes are not escaped again.
-/

namespace EntityForge.Source

open Text

/-- A text as it stands between the quotes of a literal. -/
def escaped (cs : List Char) : List Char :=
  replaceChar '\n' ['\\', 'n'] (replaceChar '"' ['\\', '"'] (replaceChar '\\' ['\\', '\\'] cs))

/-- The characters of a literal, quotes included. -/
def literalChars (cs : List Char) : List Char := '"' :: escaped cs ++ ['"']

/-- The literal for a text. -/
def literal (s : String) : String := .ofList (literalChars s.toList)

/-- One character inside a literal. -/
def literalChar (c : Char) : List Char :=
  if c = '\\' ∨ c = '"' then ['\\', c] else if c = '\n' then ['\\', 'n'] else [c]

/-- The replacements do not meet: they escape each character once, on its own. -/
theorem escaped_eq_flatMap (cs : List Char) : escaped cs = cs.flatMap literalChar := by
  have hchar : ∀ c : Char, replaceChar '\n' ['\\', 'n'] (replaceChar '"' ['\\', '"']
      (if c = '\\' then ['\\', '\\'] else [c])) = literalChar c := by
    intro c
    by_cases hslash : c = '\\'
    · rw [hslash]
      rfl
    by_cases hquote : c = '"'
    · rw [hquote]
      rfl
    by_cases hfeed : c = '\n'
    · rw [hfeed]
      rfl
    simp [literalChar, replaceChar, hslash, hquote, hfeed]
  rw [escaped, replaceChar.eq_def '\\', replaceChar_flatMap, replaceChar_flatMap]
  exact congrArg cs.flatMap (funext hchar)

end EntityForge.Source
