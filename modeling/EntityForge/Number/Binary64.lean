/-!
# Binary floating-point numbers

A finite number is a sign, a mantissa below 2^53 and a power of two; its mantissa has 53 bits
unless its exponent is the smallest one, -1074. A quotient of natural numbers is rounded to the
nearest such number, ties going to the even mantissa, and to infinity beyond the largest one. All
arithmetic is exact arithmetic on integers followed by one rounding.
-/

namespace EntityForge

/-- A binary floating-point number of 64 bits; the two zeros are finite numbers. -/
inductive Binary64 where
  /-- The number `mantissa * 2 ^ exponent`, negated if `negative`. -/
  | finite (negative : Bool) (mantissa : Nat) (exponent : Int)
  | infinity (negative : Bool)
  | nan
  deriving DecidableEq, Repr, Inhabited

namespace Binary64

/-- The smallest exponent of a finite number. -/
def minExponent : Int := -1074

/-- The largest exponent of a finite number. -/
def maxExponent : Int := 971

/-- Zero with a sign. -/
def zero (negative : Bool) : Binary64 := .finite negative 0 minExponent

/-- The quotient rounded to the nearest whole number, ties to even. -/
def roundDiv (n d : Nat) : Nat :=
  let q := n / d
  let r := n % d
  if 2 * r < d then q else if d < 2 * r then q + 1 else q + q % 2

/-- The quotient `n / d` in units of `2 ^ e`, rounded. -/
def mantissaAt (n d : Nat) (e : Int) : Nat :=
  if 0 ≤ e then roundDiv n (d <<< e.toNat) else roundDiv (n <<< (-e).toNat) d

/-- The exponent at which the quotient `n / d` has a mantissa of 53 bits before rounding. -/
def exponentFor (n d : Nat) : Int :=
  let e : Int := (n.log2 : Int) - d.log2 - 52
  let low : Bool := if 0 ≤ e then n < (d <<< e.toNat) <<< 52 else n <<< (-e).toNat < d <<< 52
  max minExponent (if low then e - 1 else e)

/-- The number nearest to `n / d`, for a positive `d`. -/
def ofRatio (negative : Bool) (n d : Nat) : Binary64 :=
  if n = 0 then zero negative
  else
    let e := exponentFor n d
    let m := mantissaAt n d e
    let (m, e) := if m = Nat.pow 2 53 then (Nat.pow 2 52, e + 1) else (m, e)
    if maxExponent < e then .infinity negative else .finite negative m e

/-- The number nearest to a whole number. -/
def ofInt (i : Int) : Binary64 := ofRatio (i < 0) i.natAbs 1

/-- The number nearest to `digits * 10 ^ exponent`. Exponents far outside the range of finite
numbers are cut short. -/
def ofDecimal (negative : Bool) (digits : Nat) (exponent : Int) : Binary64 :=
  let top : Int := (Nat.toDigits 10 digits).length + exponent
  if digits = 0 ∨ top < -400 then zero negative
  else if 400 < top then .infinity negative
  else if 0 ≤ exponent then ofRatio negative (digits * Nat.pow 10 exponent.toNat) 1
  else ofRatio negative digits (Nat.pow 10 (-exponent).toNat)

/-- The numerator and denominator of the size of a finite number. -/
def sizeRatio (m : Nat) (e : Int) : Nat × Nat :=
  if 0 ≤ e then (m * Nat.pow 2 e.toNat, 1) else (m, Nat.pow 2 (-e).toNat)

/-- The number with the other sign. -/
def neg : Binary64 → Binary64
  | .finite s m e => .finite (!s) m e
  | .infinity s => .infinity (!s)
  | .nan => .nan

/-- The whole number that a finite number is, if it is one. -/
def toInt? : Binary64 → Option Int
  | .finite s m e =>
    let (n, d) := sizeRatio m e
    if n % d = 0 then some (if s then -((n / d : Nat) : Int) else ((n / d : Nat) : Int)) else none
  | _ => none

/-- The sum, rounded. -/
def add : Binary64 → Binary64 → Binary64
  | .nan, _ => .nan
  | _, .nan => .nan
  | .infinity s, .infinity t => if s = t then .infinity s else .nan
  | .infinity s, _ => .infinity s
  | _, .infinity t => .infinity t
  | .finite s m e, .finite t k f =>
    let (n, d) := sizeRatio m e
    let (p, q) := sizeRatio k f
    let signed (neg : Bool) (x : Nat) : Int := if neg then -(x : Int) else x
    let total := signed s (n * q) + signed t (p * d)
    if total = 0 then zero (s && t) else ofRatio (total < 0) total.natAbs (d * q)

/-- The product, rounded. -/
def mul : Binary64 → Binary64 → Binary64
  | .nan, _ => .nan
  | _, .nan => .nan
  | .infinity s, .finite t k _ => if k = 0 then .nan else .infinity (s != t)
  | .finite s m _, .infinity t => if m = 0 then .nan else .infinity (s != t)
  | .infinity s, .infinity t => .infinity (s != t)
  | .finite s m e, .finite t k f =>
    let (n, d) := sizeRatio m e
    let (p, q) := sizeRatio k f
    ofRatio (s != t) (n * p) (d * q)

/-- Equality of numbers: the two zeros are equal, and nothing equals NaN. -/
def numEq : Binary64 → Binary64 → Bool
  | .nan, _ => false
  | _, .nan => false
  | .finite _ 0 _, .finite _ 0 _ => true
  | x, y => x == y

end Binary64

end EntityForge
