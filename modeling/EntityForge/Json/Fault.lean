/-!
# Faults of a JSON text

What is wrong with a JSON text and where. The place is kept as the number of characters from the
fault to the end of the text; the message gives it as line, column and offset.
-/

namespace EntityForge.Json

/-- What is wrong with a JSON text. -/
inductive Cause where
  | byteOrderMark
  | expectedValue
  | expectedName
  | expectedColon
  | expectedComma
  | extraData
  | unterminatedText
  | badEscape
  | badCodePoint
  | controlCharacter
  deriving DecidableEq, Repr

/-- The wording of a cause. -/
def Cause.text : Cause → String
  | .byteOrderMark => "Unexpected UTF-8 BOM (decode using utf-8-sig)"
  | .expectedValue => "Expecting value"
  | .expectedName => "Expecting property name enclosed in double quotes"
  | .expectedColon => "Expecting ':' delimiter"
  | .expectedComma => "Expecting ',' delimiter"
  | .extraData => "Extra data"
  | .unterminatedText => "Unterminated string starting at"
  | .badEscape => "Invalid \\escape"
  | .badCodePoint => "Invalid \\uXXXX escape"
  | .controlCharacter => "Invalid control character at"

/-- A cause and the number of characters from the fault to the end of the text. -/
structure Fault where
  cause : Cause
  remaining : Nat
  deriving DecidableEq, Repr

/-- The fault of a text, with line and column counted from one and the offset from zero. -/
def Fault.message (source : List Char) (f : Fault) : String :=
  let before := source.take (source.length - f.remaining)
  let line := before.count '\n' + 1
  let column := (before.reverse.takeWhile (· ≠ '\n')).length + 1
  f.cause.text ++ s!": line {line} column {column} (char {before.length})"

end EntityForge.Json
