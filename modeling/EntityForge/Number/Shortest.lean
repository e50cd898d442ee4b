import EntityForge.Number.Binary64

/-!
# The shortest text of a floating-point number

A finite number is written with the fewest digits that read back as the same number, the nearest
of those if there are two. Numbers from 10^-4 up to 10^16 are written positionally, with at least
one digit after the point; the others with an exponent of at least two digits.
-/

namespace EntityForge.Binary64

/-- Decimal digits, as a number, and the power of ten they are scaled by. -/
structure Scaled where
  digits : Nat
  exponent : Int
  deriving DecidableEq, Repr

/-- The largest power of ten not above the positive quotient `n / d`, as an exponent. -/
def decimalExponent (n d : Nat) : Int :=
  let guess : Int := (Nat.toDigits 10 n).length - (Nat.toDigits 10 d).length
  let below (k : Int) : Bool :=
    if 0 ≤ k then d * Nat.pow 10 k.toNat ≤ n else d ≤ n * Nat.pow 10 (-k).toNat
  if below guess then guess else guess - 1

/-- The quotient of `n / d` in units of `10 ^ k`: whole part, remainder and divisor. -/
def inUnits (n d : Nat) (k : Int) : Nat × Nat × Nat :=
  let (p, q) := if 0 ≤ k then (n, d * Nat.pow 10 k.toNat) else (n * Nat.pow 10 (-k).toNat, d)
  (p / q, p % q, q)

/-- The decimal with `count` digits that reads back as the positive number `x = n / d`. -/
def withDigits? (x : Binary64) (n d count : Nat) : Option Scaled :=
  let k := decimalExponent n d - (count - 1 : Nat)
  let (low, r, q) := inUnits n d k
  let back (m : Nat) : Bool := ofDecimal false m k == x
  let nearerLow : Bool := 2 * r < q || (2 * r == q && low % 2 == 0)
  match back low, back (low + 1) with
  | true, true => some ⟨if nearerLow then low else low + 1, k⟩
  | true, false => some ⟨low, k⟩
  | false, true => some ⟨low + 1, k⟩
  | false, false => none

/-- The digits without zeros at their end; a fuel above the number of digits removes them all. -/
def Scaled.normal (s : Scaled) : Nat → Scaled
  | 0 => s
  | fuel + 1 =>
    if s.digits ≠ 0 ∧ s.digits % 10 = 0 then
      Scaled.normal ⟨s.digits / 10, s.exponent + 1⟩ fuel
    else s

/-- The shortest decimal of a positive number. -/
def shortest (m : Nat) (e : Int) : Scaled :=
  let (n, d) := sizeRatio m e
  let found := (List.range 17).findSome? fun i => withDigits? (.finite false m e) n d (i + 1)
  (found.getD ⟨0, 0⟩).normal 20

/-- Digits with a point behind the first `point` of them. -/
def positional (digits : List Char) (point : Int) : List Char :=
  if point ≤ 0 then '0' :: '.' :: (List.replicate (-point).toNat '0' ++ digits)
  else
    let k := point.toNat
    let whole := digits.take k ++ List.replicate (k - digits.length) '0'
    let rest := digits.drop k
    whole ++ '.' :: (if rest.isEmpty then ['0'] else rest)

/-- Digits with a point behind the first of them, if there are more, and an exponent. -/
def scientific (digits : List Char) (exponent : Int) : List Char :=
  let mantissa := match digits with
    | [] => []
    | [c] => [c]
    | c :: cs => c :: '.' :: cs
  let size := Nat.toDigits 10 exponent.natAbs
  mantissa ++ 'e' :: (if exponent < 0 then '-' else '+') ::
    ((if size.length < 2 then ['0'] else []) ++ size)

/-- The text of a positive number given by its shortest decimal. -/
def scaledText (s : Scaled) : List Char :=
  let digits := Nat.toDigits 10 s.digits
  let point : Int := digits.length + s.exponent
  if -4 < point ∧ point ≤ 16 then positional digits point else scientific digits (point - 1)

/-- The shortest text that reads back as the number. -/
def text : Binary64 → String
  | .nan => "nan"
  | .infinity negative => if negative then "-inf" else "inf"
  | .finite negative m e =>
    let size := if m = 0 then ['0', '.', '0'] else scaledText (shortest m e)
    .ofList (if negative then '-' :: size else size)

end EntityForge.Binary64
