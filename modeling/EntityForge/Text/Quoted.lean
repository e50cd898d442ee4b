import EntityForge.Text.Printable

/-!
# Quoted text

A quoted text stands between single quotes, or between double quotes when it holds a single
quote and no double quote. The backslash, the chosen quote, line feed, carriage return and tab
are escaped with a backslash; every other character that is not printable is written as its code
point in two, four or eight hexadecimal digits.
-/

namespace EntityForge.Text

/-- The lower-case hexadecimal digit of a number below sixteen. -/
def hexDigit (n : Nat) : Char := if n < 10 then Char.ofNat (48 + n) else Char.ofNat (87 + n)

/-- The last `width` hexadecimal digits of a number. -/
def hexDigits : Nat → Nat → List Char
  | 0, _ => []
  | width + 1, n => hexDigits width (n / 16) ++ [hexDigit (n % 16)]

/-- The code point of a character that cannot be shown. -/
def escapedCodePoint (c : Char) : List Char :=
  let n := c.toNat
  if n < 0x100 then '\\' :: 'x' :: hexDigits 2 n
  else if n < 0x10000 then '\\' :: 'u' :: hexDigits 4 n
  else '\\' :: 'U' :: hexDigits 8 n

/-- One character inside a text quoted with `quote`. -/
def quotedChar (quote c : Char) : List Char :=
  if c = quote ∨ c = '\\' then ['\\', c]
  else if c = '\n' then ['\\', 'n']
  else if c = '\r' then ['\\', 'r']
  else if c = '\t' then ['\\', 't']
  else if isPrintable c then [c]
  else escapedCodePoint c

/-- The quote that is used for a text. -/
def quoteFor (cs : List Char) : Char :=
  if cs.contains '\'' && !cs.contains '"' then '"' else '\''

/-- The quoted form of a text. -/
def quoted (s : String) : String :=
  let cs := s.toList
  let quote := quoteFor cs
  .ofList (quote :: cs.flatMap (quotedChar quote) ++ [quote])

/-- One byte inside a quoted byte sequence: only printable ASCII is shown as it stands. -/
def quotedByte (quote : Char) (b : UInt8) : List Char :=
  let c := Char.ofNat b.toNat
  if b.toNat < 128 then quotedChar quote c else '\\' :: 'x' :: hexDigits 2 b.toNat

/-- The quoted form of a byte sequence, marked with a `b` in front. -/
def quotedBytes (bs : List UInt8) : String :=
  let quote := quoteFor (bs.map fun b => Char.ofNat b.toNat)
  .ofList ('b' :: quote :: bs.flatMap (quotedByte quote) ++ [quote])

end EntityForge.Text
