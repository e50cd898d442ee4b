import EntityForge.Text.Replace

/-!
# Substring patterns

A LIKE pattern that matches exactly the texts containing a given text. In a pattern `%` stands for
any text and `_` for any character; a backslash in front makes the character behind it stand for
itself. Backslashes are escaped first, so that those in front of `%` and `_` are not escaped again.
-/

namespace EntityForge.Sql

open Text

/-- A text as a pattern that matches only itself. -/
def escapeLike (cs : List Char) : List Char :=
  replaceChar '_' ['\\', '_'] (replaceChar '%' ['\\', '%'] (replaceChar '\\' ['\\', '\\'] cs))

/-- The pattern of the texts that contain a given one. -/
def likePattern (cs : List Char) : List Char := '%' :: escapeLike cs ++ ['%']

/-- One character as a pattern that matches only itself. -/
def escapeLikeChar (c : Char) : List Char :=
  if c = '\\' ∨ c = '%' ∨ c = '_' then ['\\', c] else [c]

/-- The replacements do not meet: they escape each character once, on its own. -/
theorem escapeLike_eq_flatMap (cs : List Char) : escapeLike cs = cs.flatMap escapeLikeChar := by
  have hchar : ∀ c : Char, replaceChar '_' ['\\', '_'] (replaceChar '%' ['\\', '%']
      (if c = '\\' then ['\\', '\\'] else [c])) = escapeLikeChar c := by
    intro c
    by_cases hslash : c = '\\'
    · rw [hslash]
      rfl
    by_cases hpercent : c = '%'
    · rw [hpercent]
      rfl
    by_cases hlow : c = '_'
    · rw [hlow]
      rfl
    simp [escapeLikeChar, replaceChar, hslash, hpercent, hlow]
  rw [escapeLike, replaceChar.eq_def '\\', replaceChar_flatMap, replaceChar_flatMap]
  exact congrArg cs.flatMap (funext hchar)

end EntityForge.Sql
