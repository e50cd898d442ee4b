import EntityForge.Number.Binary64

/-!
# Decimal places

A natural number written like a fraction: with a fixed number of digits behind the point, with an
exponent, in the shorter of these two forms, or in hundredths. The number is first taken to the
nearest binary fraction of 64 bits; digits that do not fit are rounded, ties going to the even
digit.
-/

namespace EntityForge.Sql

/-- The text of a number: the digits before the point, and what stands behind them. -/
structure Places where
  whole : List Char
  rest : List Char
  deriving DecidableEq, Repr

namespace Places

/-- A point with the digits behind it; without digits the point is left out unless it is kept. -/
def pointed (keepPoint : Bool) (digits : List Char) : List Char :=
  if digits.isEmpty && !keepPoint then [] else '.' :: digits

/-- Digits without the zeros at their end. -/
def withoutZeros (digits : List Char) : List Char :=
  (digits.reverse.dropWhile (· == '0')).reverse

/-- The first digits of a number, rounded to a positive count, and the power of ten that the first
of them counts. -/
def significant (n count : Nat) : List Char × Nat :=
  let digits := Nat.toDigits 10 n
  if digits.length ≤ count then
    (digits ++ List.replicate (count - digits.length) '0', digits.length - 1)
  else
    let rounded := Nat.toDigits 10 (Binary64.roundDiv n (Nat.pow 10 (digits.length - count)))
    (rounded.take count, digits.length - 1 + (rounded.length - count))

/-- An exponent of at least two digits. -/
def exponentText (exponent : Nat) : List Char :=
  let digits := Nat.toDigits 10 exponent
  ['e', '+'] ++ (if digits.length < 2 then ['0'] else []) ++ digits

/-- A fixed number of digits behind the point. -/
def fixed (count : Nat) (keepPoint : Bool) (n : Nat) : Places :=
  ⟨Nat.toDigits 10 n, pointed keepPoint (List.replicate count '0')⟩

/-- One digit before the point, a number of digits behind it, and an exponent. -/
def scientific (count : Nat) (keepPoint : Bool) (n : Nat) : Places :=
  let (digits, exponent) := significant n (count + 1)
  ⟨digits.take 1, pointed keepPoint (digits.drop 1) ++ exponentText exponent⟩

/-- A number of digits in all, with an exponent only if they do not reach the point. Zeros at the
end are left out unless the point is kept. -/
def general (count : Nat) (keepPoint : Bool) (n : Nat) : Places :=
  let count := max count 1
  let (digits, exponent) := significant n count
  let behind (cs : List Char) : List Char :=
    pointed keepPoint (if keepPoint then cs else withoutZeros cs)
  if exponent < count then ⟨digits.take (exponent + 1), behind (digits.drop (exponent + 1))⟩
  else ⟨digits.take 1, behind (digits.drop 1) ++ exponentText exponent⟩

/-- A whole binary fraction in the presentation that a small letter stands for. -/
def inForm (code : Char) (count : Nat) (keepPoint : Bool) (x : Binary64) : Places :=
  match x.toInt?, code with
  | none, _ => ⟨"inf".toList, []⟩
  | some n, 'e' => scientific count keepPoint n.natAbs
  | some n, 'g' => general count keepPoint n.natAbs
  | some n, _ => fixed count keepPoint n.natAbs

/-- A whole binary fraction in the presentation with a code. -/
def present (code : Char) (count : Nat) (keepPoint : Bool) (x : Binary64) : Places :=
  if code = '%' then
    let p := inForm 'f' count keepPoint (x.mul (.ofInt 100))
    { p with rest := p.rest ++ ['%'] }
  else
    let p := inForm code.toLower count keepPoint x
    if code.isUpper then { p with rest := p.rest.map Char.toUpper } else p

end Places

end EntityForge.Sql
