/-!
# Small and capital forms against ASCII words

Words of a fixed vocabulary are recognised in any case. A vocabulary word is ASCII, so only the
characters whose small or capital form is ASCII matter: besides the ASCII letters these are the
Kelvin sign, whose small form is `k`, and the dotless i, the long s, the sharp s and the Latin
ligatures, whose capital forms are one to three ASCII letters. Every other character is left as
it is and therefore matches no letter of a vocabulary word.
-/

namespace EntityForge.Text

/-- The small form of a character, where it is ASCII. -/
def smallForm (c : Char) : Char :=
  if c.toNat = 0x212A then 'k' else c.toLower

/-- The capital form of a character, where it is ASCII. -/
def capitalForm (c : Char) : List Char :=
  match c.toNat with
  | 0xDF => ['S', 'S']
  | 0x131 => ['I']
  | 0x17F => ['S']
  | 0xFB00 => ['F', 'F']
  | 0xFB01 => ['F', 'I']
  | 0xFB02 => ['F', 'L']
  | 0xFB03 => ['F', 'F', 'I']
  | 0xFB04 => ['F', 'F', 'L']
  | 0xFB05 => ['S', 'T']
  | 0xFB06 => ['S', 'T']
  | _ => [c.toUpper]

/-- A text in small letters, to be compared with an ASCII word. -/
def smallLetters (cs : List Char) : List Char := cs.map smallForm

/-- A text in capital letters, to be compared with an ASCII word. -/
def capitalLetters (cs : List Char) : List Char := cs.flatMap capitalForm

end EntityForge.Text
