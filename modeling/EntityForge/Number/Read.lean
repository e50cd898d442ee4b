import EntityForge.Number.Binary64
import EntityForge.Text.Digit

/-!
# Reading numbers

A number may stand between blanks and have a sign. To a base other than ten, letters are digits from
ten on and the mark of the base may stand in front. A fraction may leave out the digits on one side
of its point, and may be an infinity or no number at all.
-/

namespace EntityForge.Number

open Text

/-- Whether there is a minus sign, and what is behind the sign. -/
def signed : List Char → Bool × List Char
  | '-' :: cs => (true, cs)
  | '+' :: cs => (false, cs)
  | cs => (false, cs)

/-- The value of a digit to any base up to thirty-six. -/
def letterDigit? (c : Char) : Option Nat :=
  if 'a' ≤ c ∧ c ≤ 'z' then some (c.toNat - 87)
  else if 'A' ≤ c ∧ c ≤ 'Z' then some (c.toNat - 55)
  else digitValue? c

/-- The letter that announces a base. -/
def baseMark? : Nat → Option Char
  | 2 => some 'b'
  | 8 => some 'o'
  | 16 => some 'x'
  | _ => none

/-- The number that a row of digits denotes. -/
def readRow? (base : Nat) : List Char → Option Nat
  | [] => none
  | cs => cs.foldl (fun acc c => do
      let n ← letterDigit? c
      if n < base then return base * (← acc) + n else none) (some 0)

/-- The whole number that a text without marks between its digits denotes to a base. -/
def readWhole? (base : Nat) (cs : List Char) : Option Int :=
  let (negative, row) := signed (withoutMargin cs)
  let row := match row with
    | '0' :: mark :: rest => if baseMark? base = some mark.toLower then rest else row
    | _ => row
  (readRow? base row).map fun n => if negative then -(n : Int) else n

/-- The exponent at the end of a number. -/
def exponent? : List Char → Option Int
  | [] => some 0
  | e :: cs =>
    if e ≠ 'e' ∧ e ≠ 'E' then none
    else
      let (negative, row) := signed cs
      (readRow? 10 row).map fun n => if negative then -(n : Int) else n

/-- The binary fraction that a text without marks between its digits denotes. -/
def readFraction? (cs : List Char) : Option Binary64 :=
  let (negative, size) := signed (withoutMargin cs)
  let word := String.ofList (size.map (·.toLower))
  if word = "inf" ∨ word = "infinity" then some (.infinity negative)
  else if word = "nan" then some .nan
  else
    let isDigit (c : Char) : Bool := (digitValue? c).isSome
    let whole := size.takeWhile isDigit
    let (places, rest) := match size.drop whole.length with
      | '.' :: rest => (rest.takeWhile isDigit, rest.dropWhile isDigit)
      | rest => ([], rest)
    do
      let digits ← readRow? 10 (whole ++ places)
      return .ofDecimal negative digits ((← exponent? rest) - places.length)

end EntityForge.Number
