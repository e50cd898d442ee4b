/-!
# Bytes in base 64

Three bytes are written as four letters of six bits each, and a shorter group at the end is filled up
with `=`. A reader passes over every other character, and stops at the `=` that completes a group.
-/

namespace EntityForge.Text

/-- The six bits that a letter stands for. -/
def sextet? (c : Char) : Option Nat :=
  if 'A' ≤ c ∧ c ≤ 'Z' then some (c.toNat - 65)
  else if 'a' ≤ c ∧ c ≤ 'z' then some (c.toNat - 71)
  else if c.isDigit then some (c.toNat + 4)
  else if c = '+' then some 62
  else if c = '/' then some 63
  else none

/-- The bytes behind `letters` letters of a group, of whose bits `left` are not used up yet, and
behind `pads` marks in a row. -/
def readBase64 (letters left pads : Nat) : List Char → Option (List UInt8)
  | [] => if letters = 0 then some [] else none
  | '=' :: cs =>
    if 2 ≤ letters then
      if 4 ≤ letters + (pads + 1) then some [] else readBase64 letters left (pads + 1) cs
    else readBase64 letters left pads cs
  | c :: cs => match sextet? c with
    | none => readBase64 letters left pads cs
    | some n => match letters with
      | 0 => readBase64 1 n 0 cs
      | 1 => (readBase64 2 (n % 16) 0 cs).map ((4 * left + n / 16).toUInt8 :: ·)
      | 2 => (readBase64 3 (n % 4) 0 cs).map ((16 * left + n / 4).toUInt8 :: ·)
      | _ => (readBase64 0 0 0 cs).map ((64 * left + n).toUInt8 :: ·)

/-- The bytes written in base 64. -/
def base64? (cs : List Char) : Option (List UInt8) := readBase64 0 0 0 cs

end EntityForge.Text
