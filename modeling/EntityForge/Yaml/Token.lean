import EntityForge.Yaml.Scalar

/-!
# Tokens of a YAML text

A YAML text is a row of tokens: marks, names and scalars, and the starts and ends of block
collections, which indentation alone makes. A token may turn out to have been the key of a mapping
only when a `:` follows it, so the place of each token that could be a key is remembered, and the
mark of the key is put in front of it afterwards.
-/

namespace EntityForge.Yaml

/-- A tag as it is written: a name for the first part, if it has one, and the rest. -/
structure TagName where
  handle : Option String
  suffix : String
  deriving DecidableEq, Repr

/-- What a line that starts with `%` says. -/
inductive Directive where
  /-- The version of the format, of which only the first number matters. -/
  | version (major : Nat)
  /-- The first part that a handle stands for. -/
  | tagHandle (handle start : String)
  | other
  deriving DecidableEq, Repr

/-- A token of a YAML text. -/
inductive Token where
  | directive (d : Directive)
  | documentStart
  | documentEnd
  | streamEnd
  | blockSequenceStart
  | blockMappingStart
  | blockEnd
  | flowSequenceStart
  | flowSequenceEnd
  | flowMappingStart
  | flowMappingEnd
  | flowEntry
  | blockEntry
  | key
  | value
  | alias (name : String)
  | anchor (name : String)
  | tag (name : TagName)
  | scalar (text : String) (plain : Bool)
  deriving DecidableEq, Repr

/-- A token that may turn out to be the key of a mapping. -/
structure PossibleKey where
  /-- How many tokens stand in front of it. -/
  position : Nat
  /-- Nothing but a key can stand here. -/
  required : Bool
  index : Nat
  line : Nat
  column : Nat
  deriving Repr

/-- The furthest a `:` may be from the start of its key. -/
def longestKey : Nat := 1024

/-- The key began on another line or too far back. -/
def PossibleKey.isStale (k : PossibleKey) (c : Cursor) : Bool :=
  k.line != c.line || longestKey < c.index - k.index

/-- How far the tokens of a text have been found. -/
structure Lexer where
  cursor : Cursor
  /-- The tokens found, the last one first. -/
  tokens : List Token := []
  count : Nat := 0
  /-- How many flow collections are open. -/
  depth : Nat := 0
  /-- The column of the innermost block collection. -/
  indent : Int := -1
  /-- The columns of the block collections around it. -/
  outer : List Int := []
  /-- A key may start here. -/
  keyAllowed : Bool := true
  /-- What may be a key, for each number of open flow collections. -/
  keys : List (Nat × PossibleKey) := []

namespace Lexer

/-- Adds a token at the end. -/
def push (t : Token) (l : Lexer) : Lexer := { l with tokens := t :: l.tokens, count := l.count + 1 }

/-- Puts a token in front of the one at a position. -/
def insert (position : Nat) (t : Token) (l : Lexer) : Lexer :=
  let later := l.count - position
  { l with tokens := l.tokens.take later ++ t :: l.tokens.drop later, count := l.count + 1 }

/-- Moves behind the next characters. -/
def advance (n : Nat) (l : Lexer) : Lexer := { l with cursor := l.cursor.advance n }

/-- Whether a key may start at the next token. -/
def allowKey (allowed : Bool) (l : Lexer) : Lexer := { l with keyAllowed := allowed }

/-- Ends the block collections that are indented further than a column. -/
def unwind (column : Int) (l : Lexer) : Lexer :=
  if 0 < l.depth then l else go l.outer l
where
  /-- Ends them from the innermost on. -/
  go : List Int → Lexer → Lexer
    | [], l => l
    | i :: outer, l =>
      if column < l.indent then go outer { l.push .blockEnd with indent := i, outer := outer } else l

/-- Opens a block collection at a column unless one is open there. -/
def indentTo (column : Nat) (l : Lexer) : Option Lexer :=
  if l.indent < column then some { l with indent := column, outer := l.indent :: l.outer } else none

/-- Forgets the possible key among the members of the innermost open collection. -/
def dropKey (l : Lexer) : Reading Lexer :=
  match l.keys.lookup l.depth with
  | none => .ok l
  | some k =>
    if k.required then .error .malformed
    else .ok { l with keys := l.keys.filter (·.1 != l.depth) }

/-- Forgets the possible keys that are too far back. -/
def dropStaleKeys (l : Lexer) : Reading Lexer :=
  if l.keys.any fun (_, k) => k.isStale l.cursor && k.required then .error .malformed
  else .ok { l with keys := l.keys.filter fun (_, k) => !k.isStale l.cursor }

/-- Remembers that the next token may be a key. -/
def markKey (l : Lexer) : Reading Lexer :=
  if !l.keyAllowed then .ok l
  else do
    let l ← l.dropKey
    let c := l.cursor
    let required := l.depth == 0 && l.indent == (c.column : Int)
    let key : PossibleKey := ⟨l.count, required, c.index, c.line, c.column⟩
    return { l with keys := (l.depth, key) :: l.keys }

/-- Moves to the next token over spaces, comments and the ends of lines. -/
def skipGap : Nat → Lexer → Lexer
  | 0, l => l
  | fuel + 1, l =>
    let c := l.cursor.skipSpaces.skipComment
    match c.lineBreak? with
    | none => { l with cursor := c }
    | some (_, c) => skipGap fuel { l with cursor := c, keyAllowed := l.keyAllowed || l.depth == 0 }

/-! ## Directives, anchors and tags -/

/-- The number of a version. -/
def versionNumber (c : Cursor) : Reading (Nat × Cursor) :=
  match c.run (·.isDigit) with
  | [] => .error .malformed
  | digits => .ok (Json.digitsToNat digits, c.advance digits.length)

/-- The handle of a tag. -/
def tagHandle (c : Cursor) : Reading (String × Cursor) :=
  if c.peek ≠ '!' then .error .malformed
  else if c.peekAt 1 = ' ' then .ok ("!", c.next)
  else
    let name := c.next.run isWord
    let c := c.next.advance name.length
    if c.peek = '!' then .ok (.ofList ('!' :: name ++ ['!']), c.next) else .error .malformed

/-- The bytes that two hexadecimal digits behind each `%` denote. -/
def uriBytes : Nat → Cursor → Reading (List UInt8 × Cursor)
  | 0, c => .ok ([], c)
  | fuel + 1, c =>
    if c.peek ≠ '%' then .ok ([], c)
    else
      let digits := c.next.rest.take 2
      match if digits.length = 2 then hexNumber? digits else none with
      | none => .error .malformed
      | some n => do
        let (bs, c) ← uriBytes fuel (c.advance 3)
        return (n.toUInt8 :: bs, c)

/-- May stand in the rest of a tag. -/
def isUri (c : Char) : Bool := c.isAlphanum || "-;/?:@&=+$,_.!~*'()[]%".toList.contains c

/-- The rest of a tag, in which bytes may be written in hexadecimal digits. -/
def uriParts : Nat → Cursor → Reading (String × Cursor)
  | 0, c => .ok ("", c)
  | fuel + 1, c =>
    if c.peek = '%' then do
      let (bs, c) ← uriBytes fuel c
      match String.fromUTF8? ⟨bs.toArray⟩ with
      | none => throw .malformed
      | some text =>
        let (rest, c) ← uriParts fuel c
        return (text ++ rest, c)
    else
      match c.run fun ch => ch != '%' && isUri ch with
      | [] => .ok ("", c)
      | text => do
        let (rest, c) ← uriParts fuel (c.advance text.length)
        return (.ofList text ++ rest, c)

/-- The rest of a tag; there is some. -/
def uri (c : Cursor) : Reading (String × Cursor) :=
  if isUri c.peek then uriParts (c.rest.length + 1) c else .error .malformed

/-- The position, if the line or a space follows. -/
def endWord (c : Cursor) : Reading Cursor :=
  if isSpaceOrEnd c.peek then .ok c else .error .malformed

/-- A directive, from its `%`. -/
def directive (c : Cursor) : Reading (Directive × Cursor) := do
  let name := c.next.run isWord
  if name = [] then throw .malformed
  let c ← endWord (c.next.advance name.length)
  if name = "YAML".toList then
    let (major, c) ← versionNumber c.skipSpaces
    if c.peek ≠ '.' then throw .malformed
    let (_, c) ← versionNumber c.next
    return (.version major, ← (← endWord c).skipLine)
  else if name = "TAG".toList then
    let (handle, c) ← tagHandle c.skipSpaces
    if c.peek ≠ ' ' then throw .malformed
    let (start, c) ← uri c.skipSpaces
    return (.tagHandle handle start, ← (← endWord c).skipLine)
  else return (.other, ← (c.skip fun ch => !isBreak ch).skipLine)

/-- The name of an anchor, from the mark in front of it. -/
def anchorName (c : Cursor) : Reading (String × Cursor) :=
  let name := c.next.run isWord
  let c := c.next.advance name.length
  if name ≠ [] ∧ (isGap c.peek ∨ "?:,]\x7d%@\x60".toList.contains c.peek) then .ok (.ofList name, c)
  else .error .malformed

/-- A tag, from its `!`. -/
def tagName (c : Cursor) : Reading (TagName × Cursor) := do
  let (name, c) ←
    if c.peekAt 1 = '<' then do
      let (suffix, c) ← uri (c.advance 2)
      if c.peek = '>' then pure (TagName.mk none suffix, c.next) else throw .malformed
    else if isGap (c.peekAt 1) then pure (TagName.mk none "!", c.next)
    else do
      let ahead := c.next.run fun ch => !isSpaceOrEnd ch
      let (handle, c) ← if ahead.contains '!' then tagHandle c else pure ("!", c.next)
      let (suffix, c) ← uri c
      pure (TagName.mk (some handle) suffix, c)
  return (name, ← endWord c)

/-! ## Single tokens -/

/-- Ends all block collections before a token that belongs to none. -/
def leaveBlocks (l : Lexer) : Reading Lexer := do
  return (← (l.unwind (-1)).dropKey).allowKey false

/-- A token that starts a flow collection. -/
def openFlow (t : Token) (l : Lexer) : Reading Lexer := do
  let l := ((← l.markKey).allowKey true).advance 1
  return { l.push t with depth := l.depth + 1 }

/-- A token that ends a flow collection; one has to be open. -/
def closeFlow (t : Token) (l : Lexer) : Reading Lexer := do
  let l := ((← l.dropKey).allowKey false).advance 1
  if l.depth = 0 then throw .malformed
  return { l.push t with depth := l.depth - 1 }

/-- A mark for a member of a collection, which opens a block collection where none is open. -/
def enter (start mark : Token) (keyAfter : Bool) (l : Lexer) : Reading Lexer := do
  let l ←
    if 0 < l.depth then pure l
    else if !l.keyAllowed then throw .malformed
    else pure ((l.indentTo l.cursor.column).elim l (·.push start))
  return ((← (l.allowKey keyAfter).dropKey).advance 1).push mark

/-- The mark of a value. -/
def enterValue (l : Lexer) : Reading Lexer :=
  match l.keys.lookup l.depth with
  | some k =>
    let l := { l with keys := l.keys.filter (·.1 != l.depth) }.insert k.position .key
    let l :=
      if 0 < l.depth then l
      else (l.indentTo k.column).elim l (·.insert k.position .blockMappingStart)
    .ok (((l.allowKey false).advance 1).push .value)
  | none => l.enter .blockMappingStart .value (l.depth == 0)

/-- A token that may be a key, read by `read`. -/
def markedToken (read : Cursor → Reading (Token × Cursor)) (l : Lexer) : Reading Lexer := do
  let l := (← l.markKey).allowKey false
  let (t, c) ← read l.cursor
  return { l.push t with cursor := c }

/-- A plain scalar. -/
def pushPlain (l : Lexer) : Reading Lexer := do
  let l ← l.markKey
  let (text, broken, c) := plainScalar (0 < l.depth) (l.indent + 1) l.cursor
  return { l.push (.scalar text true) with cursor := c, keyAllowed := broken }

/-- A block scalar. -/
def pushBlock (folded : Bool) (l : Lexer) : Reading Lexer := do
  let l ← (l.allowKey true).dropKey
  let (text, c) ← blockScalar folded l.indent l.cursor
  return { l.push (.scalar text false) with cursor := c }

/-- A plain scalar may start here. -/
def startsPlain (l : Lexer) : Bool :=
  let ch := l.cursor.peek
  !(isGap ch || "-?:,[]\x7b\x7d#&*!|>'\"%@\x60".toList.contains ch) ||
    (!isGap (l.cursor.peekAt 1) && (ch == '-' || (l.depth == 0 && (ch == '?' || ch == ':'))))

/-- The next token and what comes with it. -/
def pushNext (l : Lexer) : Reading Lexer := do
  let c := l.cursor
  let flow := 0 < l.depth
  if c.peek = '%' ∧ c.column = 0 then
    let l ← l.leaveBlocks
    let (d, c) ← directive l.cursor
    return { l.push (.directive d) with cursor := c }
  if c.column = 0 ∧ c.atSeparator then
    let mark := if c.peek = '-' then Token.documentStart else .documentEnd
    return ((← l.leaveBlocks).advance 3).push mark
  match c.peek with
  | '[' => l.openFlow .flowSequenceStart
  | '\x7b' => l.openFlow .flowMappingStart
  | ']' => l.closeFlow .flowSequenceEnd
  | '\x7d' => l.closeFlow .flowMappingEnd
  | ',' => return ((← (l.allowKey true).dropKey).advance 1).push .flowEntry
  | '*' => l.markedToken fun c => (anchorName c).map fun (name, c) => (.alias name, c)
  | '&' => l.markedToken fun c => (anchorName c).map fun (name, c) => (.anchor name, c)
  | '!' => l.markedToken fun c => (tagName c).map fun (name, c) => (.tag name, c)
  | '\'' => l.markedToken fun c => (quotedScalar false c).map fun (s, c) => (.scalar s false, c)
  | '"' => l.markedToken fun c => (quotedScalar true c).map fun (s, c) => (.scalar s false, c)
  | ch =>
    if ch = '-' ∧ isGap (c.peekAt 1) then l.enter .blockSequenceStart .blockEntry true
    else if ch = '?' ∧ (flow ∨ isGap (c.peekAt 1)) then l.enter .blockMappingStart .key (!flow)
    else if ch = ':' ∧ (flow ∨ isGap (c.peekAt 1)) then l.enterValue
    else if (ch = '|' ∨ ch = '>') ∧ !flow then l.pushBlock (ch == '>')
    else if l.startsPlain then l.pushPlain
    else throw .malformed

/-- All tokens up to the end of the text. -/
def run : Nat → Lexer → Reading (List Token)
  | 0, _ => .error .malformed
  | fuel + 1, l => do
    let l ← (skipGap (l.cursor.rest.length + 1) l).dropStaleKeys
    let l := l.unwind l.cursor.column
    if l.cursor.rest = [] then
      let l ← (l.unwind (-1)).dropKey
      return (l.push .streamEnd).tokens.reverse
    else run fuel (← l.pushNext)

end Lexer

/-- The tokens of a text. -/
def tokens (cs : List Char) : Reading (List Token) :=
  if !cs.all isAllowed then .error .malformed
  else
    let cs := if cs.head? = some (Char.ofNat 0xFEFF) then cs.drop 1 else cs
    Lexer.run (2 * cs.length + 2) ⟨⟨cs, 0, 0, 0⟩, [], 0, 0, -1, [], true, []⟩

end EntityForge.Yaml
