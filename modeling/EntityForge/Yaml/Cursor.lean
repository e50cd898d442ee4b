/-!
# Positions in a YAML text

A cursor is what is left of a text together with the offset, line and column at which it starts.
Columns count characters from the start of a line; a byte order mark takes no column. The end of
the text is looked at as a null character, which no YAML text contains.
-/

namespace EntityForge.Yaml

/-- Why a YAML text cannot be read. -/
inductive Fault where
  /-- The text breaks the rules of the format, or asks for what cannot be made. -/
  | malformed
  /-- A value of a known kind does not exist. -/
  | badValue (reason : String)
  /-- A number is larger than any code point could be written. -/
  | tooLarge
  /-- A truth value is written in an unknown word. -/
  | unknownWord
  /-- A number is written without a digit or sign. -/
  | emptyNumber
  /-- A point in time is not written as one. -/
  | notTimestamp
  deriving DecidableEq, Repr

/-- The result of reading something. -/
abbrev Reading (α : Type) := Except Fault α

/-- What is looked at behind the end of the text. -/
def endMark : Char := Char.ofNat 0

/-- Ends a line. -/
def isBreak (c : Char) : Bool :=
  c == '\n' || c == '\r' || c.toNat == 0x85 || c.toNat == 0x2028 || c.toNat == 0x2029

/-- Ends a line or the text. -/
def isLineEnd (c : Char) : Bool := isBreak c || c == endMark

/-- A space, or the end of a line or the text. -/
def isSpaceOrEnd (c : Char) : Bool := c == ' ' || isLineEnd c

/-- A space or tab, or the end of a line or the text. -/
def isGap (c : Char) : Bool := c == '\t' || isSpaceOrEnd c

/-- May stand in a YAML text. -/
def isAllowed (c : Char) : Bool :=
  let n := c.toNat
  n = 9 || n = 10 || n = 13 || (0x20 ≤ n && n ≤ 0x7E) || n = 0x85 ||
    (0xA0 ≤ n && n ≤ 0xD7FF) || (0xE000 ≤ n && n ≤ 0xFFFD) || 0x10000 ≤ n

/-- May stand in the name of an anchor, a directive or a tag handle. -/
def isWord (c : Char) : Bool := c.isAlphanum || c == '-' || c == '_'

/-- The rest of a text and where it starts. -/
structure Cursor where
  rest : List Char
  index : Nat := 0
  line : Nat := 0
  column : Nat := 0
  deriving Repr, Inhabited

namespace Cursor

/-- The next character. -/
def peek (c : Cursor) : Char := c.rest.headD endMark

/-- The character a number of places further on. -/
def peekAt (n : Nat) (c : Cursor) : Char := (c.rest.drop n).headD endMark

/-- The position behind the next character. -/
def next (c : Cursor) : Cursor :=
  match c.rest with
  | [] => c
  | ch :: rest =>
    if isBreak ch then ⟨rest, c.index + 1, c.line + 1, 0⟩
    else if ch.toNat = 0xFEFF then ⟨rest, c.index + 1, c.line, c.column⟩
    else ⟨rest, c.index + 1, c.line, c.column + 1⟩

/-- The position a number of characters further on. -/
def advance (c : Cursor) : Nat → Cursor
  | 0 => c
  | n + 1 => c.next.advance n

/-- The characters up to the first that fails a test. -/
def run (p : Char → Bool) (c : Cursor) : List Char := c.rest.takeWhile p

/-- The position of the first character that fails a test. -/
def skip (p : Char → Bool) (c : Cursor) : Cursor := c.advance (c.run p).length

/-- The position behind the spaces. -/
def skipSpaces (c : Cursor) : Cursor := c.skip (· == ' ')

/-- The position at the end of a comment, if there is one. -/
def skipComment (c : Cursor) : Cursor :=
  if c.peek = '#' then c.skip fun ch => !isBreak ch else c

/-- The break at the end of a line, as it is kept, and the position behind it. -/
def lineBreak? (c : Cursor) : Option (Char × Cursor) :=
  match c.rest with
  | '\r' :: '\n' :: _ => some ('\n', ⟨c.rest.drop 2, c.index + 2, c.line + 1, 0⟩)
  | ch :: _ =>
    if !isBreak ch then none
    else if ch.toNat = 0x2028 ∨ ch.toNat = 0x2029 then some (ch, c.next)
    else some ('\n', c.next)
  | [] => none

/-- The position behind the rest of a line that holds nothing but a comment. -/
def skipLine (c : Cursor) : Reading Cursor :=
  let c := c.skipSpaces.skipComment
  if isLineEnd c.peek then .ok ((c.lineBreak?.map Prod.snd).getD c) else .error .malformed

/-- A document separator: three marks and a gap. -/
def atSeparator (c : Cursor) : Bool :=
  (c.rest.take 3 == ['-', '-', '-'] || c.rest.take 3 == ['.', '.', '.']) && isGap (c.peekAt 3)

end Cursor

end EntityForge.Yaml
