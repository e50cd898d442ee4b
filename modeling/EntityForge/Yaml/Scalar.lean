import EntityForge.Json.Read
import EntityForge.Yaml.Cursor

/-!
# Written scalars

A scalar is written plain, between single or double quotes, or as a block of lines. Where a plain
or quoted scalar goes on over a line break, the break becomes a space; of several breaks in a row,
the first is dropped and the others are kept. A block keeps its line breaks, or folds them in the
same way.
-/

namespace EntityForge.Yaml

/-- What is left of one line break and the breaks behind it. -/
def foldBreaks (first : Char) (others : List Char) : List Char :=
  if first ≠ '\n' then first :: others else if others = [] then [' '] else others

/-! ## Quoted scalars -/

/-- The breaks of the empty lines inside a quoted scalar. -/
def quotedBreaks : Nat → Cursor → Reading (List Char × Cursor)
  | 0, c => .ok ([], c)
  | fuel + 1, c =>
    if c.atSeparator then .error .malformed
    else
      let c := c.skip fun ch => ch == ' ' || ch == '\t'
      match c.lineBreak? with
      | none => .ok ([], c)
      | some (b, c) => do
        let (bs, c) ← quotedBreaks fuel c
        return (b :: bs, c)

/-- The character that a letter behind a backslash stands for. -/
def escapeLetter? : Char → Option Char
  | '0' => some (Char.ofNat 0)
  | 'a' => some (Char.ofNat 7)
  | 'b' => some (Char.ofNat 8)
  | 't' | '\t' => some '\t'
  | 'n' => some '\n'
  | 'v' => some (Char.ofNat 11)
  | 'f' => some (Char.ofNat 12)
  | 'r' => some '\r'
  | 'e' => some (Char.ofNat 27)
  | ' ' => some ' '
  | '"' => some '"'
  | '\\' => some '\\'
  | '/' => some '/'
  | 'N' => some (Char.ofNat 0x85)
  | '_' => some (Char.ofNat 0xA0)
  | 'L' => some (Char.ofNat 0x2028)
  | 'P' => some (Char.ofNat 0x2029)
  | _ => none

/-- The number of hexadecimal digits behind a letter that announces a code point. -/
def escapeWidth? : Char → Option Nat
  | 'x' => some 2
  | 'u' => some 4
  | 'U' => some 8
  | _ => none

/-- The number that hexadecimal digits denote. -/
def hexNumber? (cs : List Char) : Option Nat :=
  cs.foldl (fun acc c => do return 16 * (← acc) + (← Json.hexValue? c)) (some 0)

/-- The character with a code point. -/
def codePoint (n : Nat) : Reading (List Char) :=
  if n > 0x7FFFFFFF then .error .tooLarge
  else if n > 0x10FFFF then .error (.badValue "chr() arg not in range(0x110000)") else .ok [Char.ofNat n]

/-- What an escape stands for, from the character behind the backslash. -/
def escape (c : Cursor) : Reading (List Char × Cursor) :=
  match escapeLetter? c.peek, escapeWidth? c.peek with
  | some ch, _ => .ok ([ch], c.next)
  | none, some width =>
    let digits := (c.next.rest).take width
    match if digits.length = width then hexNumber? digits else none with
    | none => .error .malformed
    | some n => do return (← codePoint n, c.next.advance width)
  | none, none => match c.lineBreak? with
    | some (_, c) => quotedBreaks (c.rest.length + 1) c
    | none => .error .malformed

/-- The gap between two parts of a quoted scalar. -/
def quotedGap (c : Cursor) : Reading (List Char × Cursor) :=
  let isSpace (ch : Char) : Bool := ch == ' ' || ch == '\t'
  let spaces := c.run isSpace
  let c := c.skip isSpace
  match c.lineBreak? with
  | some (b, c) => do
    let (bs, c) ← quotedBreaks (c.rest.length + 1) c
    return (foldBreaks b bs, c)
  | none => if c.rest = [] then .error .malformed else .ok (spaces, c)

/-- The rest of a quoted scalar up to its closing quote. -/
def quotedRest (double : Bool) : Nat → Cursor → Reading (List Char × Cursor)
  | 0, _ => .error .malformed
  | fuel + 1, c =>
    let go (text : List Char) (c : Cursor) : Reading (List Char × Cursor) := do
      let (rest, c) ← quotedRest double fuel c
      return (text ++ rest, c)
    let ch := c.peek
    if double then
      if ch = '"' then .ok ([], c.next)
      else if ch = '\\' then do
        let (text, c) ← escape c.next
        go text c
      else if isGap ch then do
        let (text, c) ← quotedGap c
        go text c
      else go [ch] c.next
    else if ch = '\'' then
      if c.peekAt 1 = '\'' then go [ch] (c.advance 2) else .ok ([], c.next)
    else if isGap ch then do
      let (text, c) ← quotedGap c
      go text c
    else go [ch] c.next

/-- A quoted scalar, from its opening quote. -/
def quotedScalar (double : Bool) (c : Cursor) : Reading (String × Cursor) := do
  let (text, c) ← quotedRest double (c.rest.length + 1) c.next
  return (.ofList text, c)

/-! ## Plain scalars -/

/-- The length of the part of a plain scalar before the next gap or sign. -/
def plainLength (flow : Bool) : List Char → Nat
  | [] => 0
  | ch :: rest =>
    let after := rest.headD endMark
    let flowSign (c : Char) : Bool := flow && ",[]\x7b\x7d".toList.contains c
    if isGap ch || (ch == ':' && (isGap after || flowSign after)) || flowSign ch ||
        (flow && ch == '?') then 0
    else plainLength flow rest + 1

/-- The breaks of empty lines behind a plain scalar; none if a document separator follows. -/
def plainBreaks : Nat → Cursor → Option (List Char) × Cursor
  | 0, c => (some [], c)
  | fuel + 1, c =>
    let c := c.skipSpaces
    match c.lineBreak? with
    | none => (some [], c)
    | some (b, c) =>
      if c.atSeparator then (none, c)
      else
        let (bs, c) := plainBreaks fuel c
        (bs.map (b :: ·), c)

/-- The gap behind a part of a plain scalar, and whether it holds a line break. -/
def plainGap (c : Cursor) : List Char × Bool × Cursor :=
  let spaces := c.run (· == ' ')
  let c := c.skipSpaces
  match c.lineBreak? with
  | none => (spaces, false, c)
  | some (b, c) =>
    if c.atSeparator then ([], true, c)
    else match plainBreaks (c.rest.length + 1) c with
      | (none, c) => ([], true, c)
      | (some bs, c) => (foldBreaks b bs, true, c)

/-- A plain scalar that may be continued on lines that are indented at least as far as `indent`.
The flag says whether it ended behind a line break. -/
def plainRest (flow : Bool) (indent : Int) :
    Nat → List Char → Bool → Cursor → List Char × Bool × Cursor
  | 0, _, broken, c => ([], broken, c)
  | fuel + 1, gap, broken, c =>
    let length := if c.peek = '#' then 0 else plainLength flow c.rest
    if length = 0 then ([], broken, c)
    else
      let text := gap ++ c.rest.take length
      let (gap, broken, c) := plainGap (c.advance length)
      if gap = [] || c.peek == '#' || (!flow && (c.column : Int) < indent) then (text, broken, c)
      else
        let (rest, broken, c) := plainRest flow indent fuel gap broken c
        (text ++ rest, broken, c)

/-- A plain scalar. -/
def plainScalar (flow : Bool) (indent : Int) (c : Cursor) : String × Bool × Cursor :=
  let (text, broken, c) := plainRest flow indent (c.rest.length + 1) [] false c
  (.ofList text, broken, c)

/-! ## Block scalars -/

/-- What becomes of the line breaks at the end of a block. -/
inductive Chomping where
  | strip
  | clip
  | keep
  deriving DecidableEq, Repr

/-- A sign for the line breaks at the end of a block. -/
def Chomping.ofChar? : Char → Option Chomping
  | '+' => some .keep
  | '-' => some .strip
  | _ => none

/-- The digit of an explicit indentation. -/
def indentDigit? (ch : Char) : Reading (Option Nat) :=
  if ch = '0' then .error .malformed
  else .ok (if '1' ≤ ch ∧ ch ≤ '9' then some (ch.toNat - 48) else none)

/-- The signs behind the mark of a block, in either order. -/
def blockSigns (c : Cursor) : Reading (Chomping × Option Nat × Cursor) := do
  let done (chomping : Option Chomping) (digit : Option Nat) (c : Cursor) :
      Reading (Chomping × Option Nat × Cursor) :=
    if isSpaceOrEnd c.peek then .ok (chomping.getD .clip, digit, c) else .error .malformed
  match Chomping.ofChar? c.peek with
  | some chomping =>
    let c := c.next
    match ← indentDigit? c.peek with
    | some n => done (some chomping) (some n) c.next
    | none => done (some chomping) none c
  | none => match ← indentDigit? c.peek with
    | some n =>
      let c := c.next
      match Chomping.ofChar? c.peek with
      | some chomping => done (some chomping) (some n) c.next
      | none => done none (some n) c
    | none => done none none c

/-- The breaks in front of the first line of a block, and the largest column reached in them. -/
def blockMargin : Nat → Nat → Cursor → List Char × Nat × Cursor
  | 0, most, c => ([], most, c)
  | fuel + 1, most, c =>
    if c.peek = ' ' then blockMargin fuel (max most c.next.column) c.next
    else match c.lineBreak? with
      | none => ([], most, c)
      | some (b, c) =>
        let (bs, most, c) := blockMargin fuel most c
        (b :: bs, most, c)

/-- Moves over spaces up to a column. -/
def skipIndent (indent : Nat) (c : Cursor) : Cursor :=
  c.advance (min (indent - c.column) (c.run (· == ' ')).length)

/-- The breaks of the empty lines between two lines of a block. -/
def blockBreaks (indent : Nat) : Nat → Cursor → List Char × Cursor
  | 0, c => ([], c)
  | fuel + 1, c =>
    let c := skipIndent indent c
    match c.lineBreak? with
    | none => ([], c)
    | some (b, c) =>
      let (bs, c) := blockBreaks indent fuel c
      (b :: bs, c)

/-- What is left of the break between two lines of a block. -/
def blockBreak (folded fromText toText : Bool) (b : Option Char) (breaks : List Char) : List Char :=
  if folded && b == some '\n' && fromText && toText then (if breaks = [] then [' '] else [])
  else b.toList

/-- The lines of a block: its text, the last line break and the breaks behind it. -/
def blockLines (folded : Bool) (indent : Nat) :
    Nat → List Char → Cursor → List Char × Option Char × List Char × Cursor
  | 0, breaks, c => ([], none, breaks, c)
  | fuel + 1, breaks, c =>
    if c.column ≠ indent ∨ c.rest = [] then ([], none, breaks, c)
    else
      let isText (ch : Char) : Bool := ch != ' ' && ch != '\t'
      let line := c.run fun ch => !isBreak ch
      let lineEnd := c.advance line.length
      let (b, behind) := match lineEnd.lineBreak? with
        | some (b, behind) => (some b, behind)
        | none => (none, lineEnd)
      let (inner, following) := blockBreaks indent (behind.rest.length + 1) behind
      if following.column = indent ∧ following.rest ≠ [] then
        let joint := blockBreak folded (isText c.peek) (isText following.peek) b inner
        let (text, last, tail, rest) := blockLines folded indent fuel inner following
        (breaks ++ line ++ joint ++ text, last, tail, rest)
      else (breaks ++ line, b, inner, following)

/-- A block scalar, from its mark, inside a collection that is indented to `indent`. -/
def blockScalar (folded : Bool) (indent : Int) (c : Cursor) : Reading (String × Cursor) := do
  let (chomping, digit, c) ← blockSigns c.next
  let c ← c.skipLine
  let fuel := c.rest.length + 1
  let least := (max (indent + 1) 1).toNat
  let (column, breaks, c) := match digit with
    | none =>
      let (breaks, most, c) := blockMargin fuel 0 c
      (max least most, breaks, c)
    | some n =>
      let (breaks, c) := blockBreaks (least + n - 1) fuel c
      (least + n - 1, breaks, c)
  let (text, last, tail, c) := blockLines folded column fuel breaks c
  let ending := match chomping with
    | .strip => []
    | .clip => last.toList
    | .keep => last.toList ++ tail
  return (.ofList (text ++ ending), c)

end EntityForge.Yaml
