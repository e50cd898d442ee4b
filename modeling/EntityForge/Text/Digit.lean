import EntityForge.Text.Blank

/-!
# Decimal digits

Every script's decimal digits stand in ten consecutive code points, zero first; the table lists
the zeros. A whole number is read from digits of any script, with single underscores allowed
between digits, an optional sign in front and blanks around. A text of ASCII characters alone
may be surrounded only by the six ASCII blanks.
-/

namespace EntityForge.Text

/-- The code points of the decimal zeros. -/
def digitZeros : List Nat := [
  48, 1632, 1776, 1984, 2406, 2534, 2662, 2790, 2918, 3046, 3174, 3302, 3430, 3558, 3664, 3792,
  3872, 4160, 4240, 6112, 6160, 6470, 6608, 6784, 6800, 6992, 7088, 7232, 7248, 42528, 43216,
  43264, 43472, 43504, 43600, 44016, 65296, 66720, 68912, 69734, 69872, 69942, 70096, 70384,
  70736, 70864, 71248, 71360, 71472, 71904, 72016, 72784, 73040, 73120, 92768, 92864, 93008,
  120782, 120792, 120802, 120812, 120822, 123200, 123632, 125264, 130032]

/-- The value of a decimal digit of any script. -/
def digitValue? (c : Char) : Option Nat :=
  digitZeros.findSome? fun z => if z ≤ c.toNat ∧ c.toNat < z + 10 then some (c.toNat - z) else none

/-- The number that digits with single underscores between them denote; `acc` holds the digits
read so far, of which there is at least one. -/
def readDigits (acc : Nat) : List Char → Option Nat
  | [] => some acc
  | '_' :: c :: cs => (digitValue? c).bind fun d => readDigits (10 * acc + d) cs
  | c :: cs => (digitValue? c).bind fun d => readDigits (10 * acc + d) cs

/-- The natural number a text of digits denotes. -/
def readNat? : List Char → Option Nat
  | [] => none
  | c :: cs => (digitValue? c).bind fun d => readDigits d cs

/-- The most digits a number may be written with. -/
def maxDigits : Nat := 4300

/-- The whole number a trimmed text denotes. -/
def readSigned? (cs : List Char) : Option Int :=
  if maxDigits < cs.countP fun c => (digitValue? c).isSome then none
  else match cs with
    | '-' :: ds => (readNat? ds).map fun n => -(n : Int)
    | '+' :: ds => (readNat? ds).map Int.ofNat
    | ds => (readNat? ds).map Int.ofNat

/-- The blanks allowed around a number: a text of ASCII characters admits only the ASCII ones. -/
def isNumberMargin (ascii : Bool) (c : Char) : Bool :=
  if ascii then (9 ≤ c.toNat && c.toNat ≤ 13) || c == ' ' else isBlank c

/-- A text without the blanks around it that are allowed around a number. -/
def withoutMargin (cs : List Char) : List Char :=
  let margin := isNumberMargin (cs.all fun c => c.toNat < 128)
  ((cs.dropWhile margin).reverse.dropWhile margin).reverse

/-- The whole number a text denotes. -/
def readInt? (cs : List Char) : Option Int := readSigned? (withoutMargin cs)

end EntityForge.Text
