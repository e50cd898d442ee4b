import EntityForge.Json.Fault
import EntityForge.Value.Basic

/-!
# Reading JSON

A reader for JSON texts that also takes `NaN`, `Infinity` and `-Infinity` as numbers. A number with
a fraction or an exponent is a floating-point number, any other a whole number of any size. An
object keeps its entries in the order written; for a repeated name the last value counts, in the
place of the first.
-/

namespace EntityForge.Json

/-- A fault in front of the given rest of the text. -/
def faultAt {α : Type} (cause : Cause) (rest : List Char) : Except Fault α :=
  .error ⟨cause, rest.length⟩

/-- The characters that may stand between the parts of a JSON text. -/
def isSpace (c : Char) : Bool := c == ' ' || c == '\t' || c == '\n' || c == '\r'

/-- The text from its next character that is not a space. -/
def skipSpace (cs : List Char) : List Char := cs.dropWhile isSpace

/-- The value of a hexadecimal digit. -/
def hexValue? (c : Char) : Option Nat :=
  if '0' ≤ c ∧ c ≤ '9' then some (c.toNat - 48)
  else if 'a' ≤ c ∧ c ≤ 'f' then some (c.toNat - 87)
  else if 'A' ≤ c ∧ c ≤ 'F' then some (c.toNat - 55)
  else none

/-- The four hexadecimal digits in front of a text that has more than four characters. -/
def readHex4? : List Char → Option (Nat × List Char)
  | a :: b :: c :: d :: e :: rest => do
    let w ← hexValue? a
    let x ← hexValue? b
    let y ← hexValue? c
    let z ← hexValue? d
    some (4096 * w + 256 * x + 16 * y + z, e :: rest)
  | _ => none

/-- The first half of a pair of code units for one character. -/
def isHighSurrogate (n : Nat) : Bool := 0xD800 ≤ n && n < 0xDC00

/-- The second half of a pair of code units for one character. -/
def isLowSurrogate (n : Nat) : Bool := 0xDC00 ≤ n && n < 0xE000

/-- The character of an escape `\u`, after its `u`; `escape` is the text from the backslash on. -/
def readCodePoint (escape cs : List Char) : Except Fault (Char × List Char) :=
  match readHex4? cs with
  | none => faultAt .badCodePoint (escape.drop 1)
  | some (n, rest) =>
    if isHighSurrogate n then
      match rest with
      | '\\' :: 'u' :: digits =>
        if digits.length < 5 then .ok (Char.ofNat 0xFFFD, rest)
        else match readHex4? digits with
          | none => faultAt .badCodePoint (rest.drop 1)
          | some (m, rest') =>
            if isLowSurrogate m then
              .ok (Char.ofNat (0x10000 + (n - 0xD800) * 0x400 + (m - 0xDC00)), rest')
            else .ok (Char.ofNat 0xFFFD, rest)
      | _ => .ok (Char.ofNat 0xFFFD, rest)
    else if isLowSurrogate n then .ok (Char.ofNat 0xFFFD, rest)
    else .ok (Char.ofNat n, rest)

/-- The character that a one-letter escape stands for. -/
def escapedChar? : Char → Option Char
  | '"' => some '"'
  | '\\' => some '\\'
  | '/' => some '/'
  | 'b' => some (Char.ofNat 8)
  | 'f' => some (Char.ofNat 12)
  | 'n' => some '\n'
  | 'r' => some '\r'
  | 't' => some '\t'
  | _ => none

/-- The rest of a text in quotes, up to its closing quote; `start` is the text from the opening
quote on and `acc` holds the characters read so far, the last one first. -/
def readQuoted (start : List Char) : Nat → List Char → List Char → Except Fault (String × List Char)
  | 0, _, _ => faultAt .unterminatedText start
  | _, _, [] => faultAt .unterminatedText start
  | _ + 1, acc, '"' :: rest => .ok (.ofList acc.reverse, rest)
  | _ + 1, _, '\\' :: [] => faultAt .unterminatedText start
  | fuel + 1, acc, '\\' :: 'u' :: rest => do
    let (c, rest) ← readCodePoint ('\\' :: 'u' :: rest) rest
    readQuoted start fuel (c :: acc) rest
  | fuel + 1, acc, '\\' :: c :: rest =>
    match escapedChar? c with
    | some d => readQuoted start fuel (d :: acc) rest
    | none => faultAt .badEscape ('\\' :: c :: rest)
  | fuel + 1, acc, c :: rest =>
    if c.toNat < 32 then faultAt .controlCharacter (c :: rest)
    else readQuoted start fuel (c :: acc) rest

/-- A text in quotes, after its opening quote. -/
def readText (cs : List Char) : Except Fault (String × List Char) := readQuoted ('"' :: cs) (cs.length + 1) [] cs

/-- The number that decimal digits denote. -/
def digitsToNat (cs : List Char) : Nat := cs.foldl (fun n c => 10 * n + (c.toNat - 48)) 0

/-- The fraction digits behind a point, if there are any. -/
def readFraction : List Char → List Char × List Char
  | '.' :: cs =>
    let digits := cs.takeWhile Char.isDigit
    if digits.isEmpty then ([], '.' :: cs) else (digits, cs.dropWhile Char.isDigit)
  | cs => ([], cs)

/-- The exponent behind its letter, if it has a digit. -/
def readExponent : List Char → Option Int × List Char
  | e :: cs =>
    if e = 'e' ∨ e = 'E' then
      let (negative, body) := match cs with
        | '-' :: ds => (true, ds)
        | '+' :: ds => (false, ds)
        | ds => (false, ds)
      let digits := body.takeWhile Char.isDigit
      if digits.isEmpty then (none, e :: cs)
      else
        let n : Int := digitsToNat digits
        (some (if negative then -n else n), body.dropWhile Char.isDigit)
    else (none, e :: cs)
  | [] => (none, [])

/-- A number without its sign. -/
def readUnsigned (negative : Bool) (start cs : List Char) : Except Fault (Value × List Char) :=
  let digits := match cs with
    | '0' :: _ => ['0']
    | _ => cs.takeWhile Char.isDigit
  if digits.isEmpty then faultAt .expectedValue start
  else
    let (fraction, rest) := readFraction (cs.drop digits.length)
    let (exponent, rest) := readExponent rest
    if fraction.isEmpty ∧ exponent.isNone then
      let n : Int := digitsToNat digits
      .ok (.int (if negative then -n else n), rest)
    else
      let scale := exponent.getD 0 - fraction.length
      .ok (.float (.ofDecimal negative (digitsToNat (digits ++ fraction)) scale), rest)

/-- The characters behind a word, if the text starts with it. -/
def afterWord? : List Char → List Char → Option (List Char)
  | [], cs => some cs
  | w :: ws, c :: cs => if w = c then afterWord? ws cs else none
  | _ :: _, [] => none

/-- The words that stand for a value. -/
def wordValues : List (String × Value) := [
  ("null", .null), ("true", .bool true), ("false", .bool false), ("NaN", .float .nan),
  ("Infinity", .float (.infinity false)), ("-Infinity", .float (.infinity true))]

/-- A value that is neither a text nor a list nor an object. -/
def readScalar (cs : List Char) : Except Fault (Value × List Char) :=
  match wordValues.findSome? fun (w, v) => (afterWord? w.toList cs).map fun rest => (v, rest) with
  | some found => .ok found
  | none => match cs with
    | '-' :: ds => readUnsigned true cs ds
    | _ => readUnsigned false cs cs

mutual

/-- The value in front of a text. -/
def readValue : Nat → List Char → Except Fault (Value × List Char)
  | 0, cs => faultAt .expectedValue cs
  | fuel + 1, cs =>
    match cs with
    | '"' :: rest => do
      let (s, rest) ← readText rest
      .ok (.text s, rest)
    | '[' :: rest =>
      match skipSpace rest with
      | ']' :: rest => .ok (.list [], rest)
      | rest => do
        let (items, rest) ← readItems fuel rest
        .ok (.list items, rest)
    | '\x7b' :: rest =>
      match skipSpace rest with
      | '\x7d' :: rest => .ok (.map [], rest)
      | rest => do
        let (entries, rest) ← readEntries fuel rest
        .ok (.map (Value.ofEntries entries), rest)
    | _ => readScalar cs

/-- The items of a list up to its closing bracket. -/
def readItems : Nat → List Char → Except Fault (List Value × List Char)
  | 0, cs => faultAt .expectedValue cs
  | fuel + 1, cs => do
    let (v, rest) ← readValue fuel cs
    match skipSpace rest with
    | ']' :: rest => .ok ([v], rest)
    | ',' :: rest => do
      let (vs, rest) ← readItems fuel (skipSpace rest)
      .ok (v :: vs, rest)
    | rest => faultAt .expectedComma rest

/-- The entries of an object up to its closing brace. -/
def readEntries : Nat → List Char → Except Fault (List (Value × Value) × List Char)
  | 0, cs => faultAt .expectedName cs
  | fuel + 1, cs =>
    match cs with
    | '"' :: rest => do
      let (name, rest) ← readText rest
      match skipSpace rest with
      | ':' :: rest => do
        let (v, rest) ← readValue fuel (skipSpace rest)
        match skipSpace rest with
        | '\x7d' :: rest => .ok ([(.text name, v)], rest)
        | ',' :: rest => do
          let (more, rest) ← readEntries fuel (skipSpace rest)
          .ok ((.text name, v) :: more, rest)
        | rest => faultAt .expectedComma rest
      | rest => faultAt .expectedColon rest
    | rest => faultAt .expectedName rest

end

/-- The value of a whole text. -/
def read (cs : List Char) : Except Fault Value :=
  match cs with
  | '\uFEFF' :: _ => faultAt .byteOrderMark cs
  | _ => do
    let (v, rest) ← readValue (2 * cs.length + 2) (skipSpace cs)
    match skipSpace rest with
    | [] => .ok v
    | rest => faultAt .extraData rest

end EntityForge.Json
