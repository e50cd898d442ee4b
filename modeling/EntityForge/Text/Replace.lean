/-!
# Replacing characters

Every occurrence of one character in a text gives way to another text; all else stays.
-/

namespace EntityForge.Text

/-- The text with another one in place of every occurrence of a character. -/
def replaceChar (c : Char) (word : List Char) (cs : List Char) : List Char :=
  cs.flatMap fun d => if d = c then word else [d]

/-- What is put together from texts for single characters is replaced in each of them. -/
theorem replaceChar_flatMap (c : Char) (word : List Char) (f : Char → List Char)
    (cs : List Char) :
    replaceChar c word (cs.flatMap f) = cs.flatMap fun d => replaceChar c word (f d) :=
  List.flatMap_assoc

end EntityForge.Text
