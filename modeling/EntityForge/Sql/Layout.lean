import EntityForge.Sql.Places
import EntityForge.Text.Digit
import EntityForge.Text.Quoted

/-!
# Layouts

A layout says how a number or a text is set into a placeholder: the fill character and alignment,
the sign, a mark of the base, the width, a separator between groups of digits, a precision and the
code of the presentation. The same written layout serves numbers and texts, which refuse what does
not apply to them.
-/

namespace EntityForge.Sql

/-- Why a template cannot be filled in. -/
inductive TemplateFault where
  | singleOpening
  | singleClosing
  | unexpectedOpening
  | expectedClosing
  | unmatchedOpening
  | conversionMissing
  | colonMissing
  | unknownConversion (c : Char)
  | tooManyDigits
  | emptyAttribute
  | missingBracket
  | automaticAfterManual
  | manualAfterAutomatic
  | nestedTooDeep
  | badLayout (written : String) (noun : String)
  | unknownCode (code : Char) (noun : String)
  | twoSeparators
  | separatorRefused (separator code : Char)
  | precisionMissing
  | notAllowed (what : String)
  | outOfRange
  | noArgument
  | noName
  | noAttribute
  | notIndexable
  deriving DecidableEq, Repr

/-- A code as it is shown in a message. -/
def shownCode (c : Char) : String :=
  if 32 < c.toNat ∧ c.toNat < 128 then .ofList [c]
  else "\\x" ++ .ofList (Nat.toDigits 16 c.toNat)

/-- The wording of a fault; a missing argument, name or attribute has none. -/
def TemplateFault.message? : TemplateFault → Option String
  | .singleOpening => some "Single '\x7b' encountered in format string"
  | .singleClosing => some "Single '\x7d' encountered in format string"
  | .unexpectedOpening => some "unexpected '\x7b' in field name"
  | .expectedClosing => some "expected '\x7d' before end of string"
  | .unmatchedOpening => some "unmatched '\x7b' in format spec"
  | .conversionMissing => some "end of string while looking for conversion specifier"
  | .colonMissing => some "expected ':' after conversion specifier"
  | .unknownConversion c => some ("Unknown conversion specifier " ++ shownCode c)
  | .tooManyDigits => some "Too many decimal digits in format string"
  | .emptyAttribute => some "Empty attribute in format string"
  | .missingBracket => some "Missing ']' in format string"
  | .automaticAfterManual =>
    some "cannot switch from manual field specification to automatic field numbering"
  | .manualAfterAutomatic =>
    some "cannot switch from automatic field numbering to manual field specification"
  | .nestedTooDeep => some "Max string recursion exceeded"
  | .badLayout written noun =>
    some s!"Invalid format specifier '{written}' for object of type '{noun}'"
  | .unknownCode code noun =>
    let shown := shownCode code
    some s!"Unknown format code '{shown}' for object of type '{noun}'"
  | .twoSeparators => some "Cannot specify both ',' and '_'."
  | .separatorRefused separator code =>
    let shown := shownCode code
    some s!"Cannot specify '{separator}' with '{shown}'."
  | .precisionMissing => some "Format specifier missing precision"
  | .notAllowed what => some what
  | .outOfRange | .noArgument | .noName | .noAttribute | .notIndexable => none

/-- The greatest number that a template may give. -/
def maxTemplateNumber : Nat := 9223372036854775807

/-- The digits at the start of a text, in any script, and the rest. -/
def spanDigits (cs : List Char) : List Char × List Char :=
  (cs.takeWhile fun c => (Text.digitValue? c).isSome,
    cs.dropWhile fun c => (Text.digitValue? c).isSome)

/-- The number that some digits denote. -/
def templateNumber (digits : List Char) : Except TemplateFault Nat :=
  let n := digits.foldl (fun n c => 10 * n + (Text.digitValue? c).getD 0) 0
  if n > maxTemplateNumber then .error .tooManyDigits else .ok n

/-- Where the filling goes. -/
inductive Align where
  | left
  | right
  | center
  | afterSign
  deriving DecidableEq, Repr

/-- The alignment with a written sign. -/
def Align.ofChar? : Char → Option Align
  | '<' => some .left
  | '>' => some .right
  | '^' => some .center
  | '=' => some .afterSign
  | _ => none

/-- A layout as written. -/
structure Layout where
  fill : Char := ' '
  align : Align
  sign : Option Char := none
  coerceZero : Bool := false
  marked : Bool := false
  width : Option Nat := none
  separator : Option Char := none
  precision : Option Nat := none
  code : Char
  deriving DecidableEq, Repr

namespace Layout

/-- The fill character and the alignment that a layout starts with, each if it is given. -/
def readAlign : List Char → Option Char × Option Align × List Char
  | fill :: c :: rest =>
    match Align.ofChar? c with
    | some a => (some fill, some a, rest)
    | none => match Align.ofChar? fill with
      | some a => (none, some a, c :: rest)
      | none => (none, none, fill :: c :: rest)
  | [c] => match Align.ofChar? c with
    | some a => (none, some a, [])
    | none => (none, none, [c])
  | [] => (none, none, [])

/-- Takes a character off the front if it satisfies a condition. -/
def takeIf (p : Char → Bool) : List Char → Option Char × List Char
  | c :: rest => if p c then (some c, rest) else (none, c :: rest)
  | [] => (none, [])

/-- A number at the front, if there is one. -/
def readNumber (cs : List Char) : Except TemplateFault (Option Nat × List Char) := do
  let (digits, rest) := spanDigits cs
  if digits = [] then return (none, cs)
  return (some (← templateNumber digits), rest)

/-- The separator between groups at the front, if there is one. -/
def readSeparator (cs : List Char) : Except TemplateFault (Option Char × List Char) :=
  let (comma, rest) := takeIf (· == ',') cs
  let (low, rest) := takeIf (· == '_') rest
  match comma, low with
  | some _, some _ => .error .twoSeparators
  | none, some _ => if rest.head? = some ',' then .error .twoSeparators else .ok (low, rest)
  | comma, none => .ok (comma, rest)

/-- A precision behind a point at the front, if there is one. -/
def readPrecision (cs : List Char) : Except TemplateFault (Option Nat × List Char) :=
  match cs with
  | '.' :: rest => do
    match ← readNumber rest with
    | (some n, rest) => .ok (some n, rest)
    | (none, _) => .error .precisionMissing
  | _ => .ok (none, cs)

/-- A separator goes only with the presentations of a number in digits. -/
def refuseSeparator (separator : Option Char) (code : Char) : Except TemplateFault Unit :=
  match separator with
  | none => .ok ()
  | some s =>
    if "defgEG%F".toList.contains code ∨ (s = '_' ∧ "boxX".toList.contains code) then .ok ()
    else .error (.separatorRefused s code)

/-- The layout that a text denotes, for a kind of value with its own alignment and code. -/
def read (noun : String) (align : Align) (code : Char) (cs : List Char) :
    Except TemplateFault Layout := do
  let (fill, givenAlign, rest) := readAlign cs
  let (sign, rest) := takeIf (fun c => c == ' ' || c == '+' || c == '-') rest
  let (zero, rest) := takeIf (· == 'z') rest
  let (mark, rest) := takeIf (· == '#') rest
  let (pad, rest) := if fill.isSome then (none, rest) else takeIf (· == '0') rest
  let padded := pad.isSome && givenAlign.isNone && align == .right
  let (width, rest) ← readNumber rest
  let (separator, rest) ← readSeparator rest
  let (precision, rest) ← readPrecision rest
  let code ← match rest with
    | [] => .ok code
    | [c] => .ok c
    | _ => .error (.badLayout (.ofList cs) noun)
  refuseSeparator separator code
  return {
    fill := fill.getD (if pad.isSome then '0' else ' ')
    align := if padded then .afterSign else givenAlign.getD align
    sign, coerceZero := zero.isSome, marked := mark.isSome, width, separator, precision, code }

/-- A text of given parts filled up to the width, where the filling may go between the parts. -/
def fillUp (l : Layout) (front body : List Char) : List Char :=
  let missing := l.width.getD 0 - (front.length + body.length)
  let filling (n : Nat) : List Char := List.replicate n l.fill
  match l.align with
  | .left => front ++ body ++ filling missing
  | .right => filling missing ++ front ++ body
  | .center => filling (missing / 2) ++ front ++ body ++ filling (missing - missing / 2)
  | .afterSign => front ++ filling missing ++ body

/-- Digits from the last to the first with zeros up to a width and a separator between groups. -/
def groupDigits (separator : Char) (size : Nat) : Nat → Nat → List Char → List Char
  | 0, _, digits => digits
  | fuel + 1, width, digits =>
    let length := min size (max (max digits.length width) 1)
    let group := digits.take length ++ List.replicate (length - digits.length) '0'
    let rest := digits.drop length
    if rest = [] ∧ width ≤ length then group
    else group ++ separator :: groupDigits separator size fuel (width - length - 1) rest

/-- The digits of a number with zeros up to a width, grouped if a separator is given. -/
def digitsFor (l : Layout) (width : Nat) (digits : List Char) : List Char :=
  match l.separator with
  | some s =>
    let size := if "boxX".toList.contains l.code then 4 else 3
    (groupDigits s size (digits.length + width + 1) width digits.reverse).reverse
  | none => List.replicate (width - digits.length) '0' ++ digits

/-- The base of a presentation of whole numbers and its mark. -/
def baseFor (code : Char) : Nat × List Char :=
  match code with
  | 'b' => (2, ['0', 'b'])
  | 'o' => (8, ['0', 'o'])
  | 'x' => (16, ['0', 'x'])
  | 'X' => (16, ['0', 'X'])
  | _ => (10, [])

/-- The sign in front of a number. -/
def signFor (l : Layout) (n : Int) : List Char :=
  if n < 0 then ['-'] else (l.sign.filter (· ≠ '-')).toList

/-- The width that digits and leading zeros fill together, where zeros fill up the width and the
other characters take some of it. -/
def leadingZeros (l : Layout) (taken : Nat) : Nat :=
  if l.fill = '0' ∧ l.align = .afterSign then l.width.getD 0 - taken else 0

/-- A whole number in digits. -/
def setDigits (l : Layout) (n : Int) : List Char :=
  let (base, mark) := baseFor l.code
  let small := Nat.toDigits base n.natAbs
  let digits := if l.code = 'X' then small.map Char.toUpper else small
  let front := l.signFor n ++ (if l.marked then mark else [])
  l.fillUp front (l.digitsFor (l.leadingZeros front.length) digits)

/-- The character with a code point. -/
def setCharacter (l : Layout) (n : Int) : Except TemplateFault (List Char) :=
  if l.sign.isSome then
    .error (.notAllowed "Sign not allowed with integer format specifier 'c'")
  else if l.marked then
    .error (.notAllowed "Alternate form (#) not allowed with integer format specifier 'c'")
  else if n < 0 ∨ 0x10FFFF < n then .error .outOfRange
  else .ok (l.fillUp [] [Char.ofNat n.toNat])

/-- The greatest precision. -/
def maxPrecision : Nat := 2147483647

/-- A whole number set like a fraction, with six places unless the layout says otherwise. -/
def setFraction (l : Layout) (n : Int) : Except TemplateFault (List Char) :=
  let count := l.precision.getD 6
  match Binary64.ofInt n.natAbs with
  | .finite negative m e =>
    if maxPrecision < count then .error (.notAllowed "precision too big")
    else
      let p := Places.present l.code count l.marked (.finite negative m e)
      let front := l.signFor n
      let zeros := l.leadingZeros (front.length + p.rest.length)
      .ok (l.fillUp front (l.digitsFor zeros p.whole ++ p.rest))
  | _ => .error .outOfRange

/-- A whole number set in a layout. -/
def setInt (cs : List Char) (n : Int) : Except TemplateFault (List Char) := do
  if cs = [] then return (toString n).toList
  let l ← read "int" .right 'd' cs
  if "eEfFgG%".toList.contains l.code then l.setFraction n
  else if !"bcdoxXn".toList.contains l.code then .error (.unknownCode l.code "int")
  else if l.precision.isSome then
    .error (.notAllowed "Precision not allowed in integer format specifier")
  else if l.coerceZero then
    .error (.notAllowed "Negative zero coercion (z) not allowed in integer format specifier")
  else if l.code = 'c' then l.setCharacter n
  else .ok (l.setDigits n)

/-- A text set in a layout. -/
def setText (cs text : List Char) : Except TemplateFault (List Char) := do
  if cs = [] then return text
  let l ← read "str" .left 's' cs
  if l.code ≠ 's' then .error (.unknownCode l.code "str")
  else if l.sign = some ' ' then .error (.notAllowed "Space not allowed in string format specifier")
  else if l.sign.isSome then .error (.notAllowed "Sign not allowed in string format specifier")
  else if l.coerceZero then
    .error (.notAllowed "Negative zero coercion (z) not allowed in string format specifier")
  else if l.marked then
    .error (.notAllowed "Alternate form (#) not allowed in string format specifier")
  else if l.align = .afterSign then
    .error (.notAllowed "'=' alignment not allowed in string format specifier")
  else .ok (l.fillUp [] ((l.precision.map fun p => text.take p).getD text))

end Layout

end EntityForge.Sql
