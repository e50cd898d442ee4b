import EntityForge.Text.Quoted

/-!
# Universally unique identifiers

Identifiers of 128 bits with their version in the four bits below bit 80 and their variant in the
two bits below bit 64. One ordered by time has the milliseconds since the epoch in its top 48
bits; the bits of the random number that version and variant do not take fill the rest.
-/

namespace EntityForge

/-- An identifier of 128 bits. -/
structure Uuid where
  bits : Nat
  deriving DecidableEq, Repr

namespace Uuid

/-- The number that begins behind `n` bits. -/
def above (n : Nat) (number : Nat) : Nat := number >>> n

/-- The number that the last `n` bits hold. -/
def below (n : Nat) (number : Nat) : Nat := number &&& (1 <<< n - 1)

/-- The identifier with 48 bits in front of the version, and with the bits of a random number. -/
def assemble (front version random : Nat) : Uuid :=
  ⟨front <<< 80 ||| version <<< 76 ||| below 12 (above 64 random) <<< 64 ||| 2 <<< 62 |||
    below 62 random⟩

/-- The identifier for a time in milliseconds and a random number. -/
def ofTime (milliseconds : Int) (random : Nat) : Uuid :=
  assemble (milliseconds % (Nat.pow 2 48 : Nat)).toNat 7 random

/-- The identifier for a random number. -/
def ofRandom (random : Nat) : Uuid := assemble (below 48 (above 80 random)) 4 random

/-- The version. -/
def version (u : Uuid) : Nat := below 4 (above 76 u.bits)

/-- The variant. -/
def variant (u : Uuid) : Nat := below 2 (above 62 u.bits)

/-- The written form: 32 hexadecimal digits in five groups. -/
def text (u : Uuid) : String :=
  let digits := Text.hexDigits 32 u.bits
  let group (start length : Nat) : String := .ofList ((digits.drop start).take length)
  "-".intercalate [group 0 8, group 8 4, group 12 4, group 16 4, group 20 12]

/-- The number of a sequence of bytes, the most significant first. -/
def numberOfBytes (bytes : List UInt8) : Nat := bytes.foldl (fun n b => 256 * n + b.toNat) 0

/-- The milliseconds in a number of nanoseconds, rounded down. -/
def millisecondsOf (nanoseconds : Int) : Int := nanoseconds.fdiv 1000000

end Uuid

end EntityForge
