import EntityForge.Text.Quoted

/-!
# Bytes as text

Text is stored in bytes of which the first says how many belong to a character. A row of bytes that
is no text has a first place where this shows: a byte that starts nothing, a byte that does not
continue what was started, or an end that comes too soon.
-/

namespace EntityForge.Text

/-- Why a row of bytes is no text. -/
inductive ByteCause where
  | invalidStart
  | invalidContinuation
  | unexpectedEnd
  deriving DecidableEq, Repr

/-- The place at which a row of bytes is no text. -/
structure ByteFault where
  position : Nat
  first : UInt8
  /-- How many bytes belong together at this place. -/
  count : Nat
  cause : ByteCause
  deriving DecidableEq, Repr

/-- The wording of a cause. -/
def ByteCause.text : ByteCause → String
  | .invalidStart => "invalid start byte"
  | .invalidContinuation => "invalid continuation byte"
  | .unexpectedEnd => "unexpected end of data"

/-- The wording of a fault. -/
def ByteFault.message (f : ByteFault) : String :=
  let place :=
    if f.count = 1 then
      "byte 0x" ++ .ofList (hexDigits 2 f.first.toNat) ++ s!" in position {f.position}"
    else s!"bytes in position {f.position}-{f.position + f.count - 1}"
  "'utf-8' codec can't decode " ++ place ++ ": " ++ f.cause.text

/-- A character of which the first bytes have been read. -/
structure OpenChar where
  position : Nat
  first : UInt8
  /-- How many bytes have been read. -/
  count : Nat
  code : Nat
  /-- How many bytes are missing. -/
  missing : Nat
  /-- The least value of the next byte. -/
  low : Nat
  /-- The largest value of the next byte. -/
  high : Nat

/-- What a byte starts that does not stand for itself. -/
def openChar? (position : Nat) (b : UInt8) : Option OpenChar :=
  let n := b.toNat
  let opened (missing code low high : Nat) : Option OpenChar :=
    some ⟨position, b, 1, code, missing, low, high⟩
  if n < 0xC2 then none
  else if n < 0xE0 then opened 1 (n - 0xC0) 0x80 0xBF
  else if n < 0xF0 then
    opened 2 (n - 0xE0) (if n = 0xE0 then 0xA0 else 0x80) (if n = 0xED then 0x9F else 0xBF)
  else if n < 0xF5 then
    opened 3 (n - 0xF0) (if n = 0xF0 then 0x90 else 0x80) (if n = 0xF4 then 0x8F else 0xBF)
  else none

/-- An open character with one more byte. -/
def OpenChar.add (o : OpenChar) (b : UInt8) : OpenChar :=
  { o with
    count := o.count + 1
    code := 64 * o.code + b.toNat % 64
    missing := o.missing - 1
    low := 0x80
    high := 0xBF }

/-- The fault of an open character that does not go on. -/
def OpenChar.fault (o : OpenChar) (cause : ByteCause) : ByteFault := ⟨o.position, o.first, o.count, cause⟩

/-- The characters in front of a row of bytes, the last one first, and those in it. -/
def decodeFrom (done : List Char) (position : Nat) (open? : Option OpenChar) :
    List UInt8 → Except ByteFault (List Char)
  | [] => match open? with
    | none => .ok done.reverse
    | some o => .error (o.fault .unexpectedEnd)
  | b :: bs => match open? with
    | none =>
      if b.toNat < 0x80 then decodeFrom (Char.ofNat b.toNat :: done) (position + 1) none bs
      else match openChar? position b with
        | none => .error ⟨position, b, 1, .invalidStart⟩
        | some o => decodeFrom done (position + 1) (some o) bs
    | some o =>
      if b.toNat < o.low ∨ o.high < b.toNat then .error (o.fault .invalidContinuation)
      else
        let o := o.add b
        if o.missing = 0 then decodeFrom (Char.ofNat o.code :: done) (position + 1) none bs
        else decodeFrom done (position + 1) (some o) bs

/-- The text that bytes stand for. -/
def decode (bs : List UInt8) : Except ByteFault (List Char) := decodeFrom [] 0 none bs

/-- A text in which every line ends with a line feed. -/
def withLineFeeds : List Char → List Char
  | '\r' :: '\n' :: cs => '\n' :: withLineFeeds cs
  | '\r' :: cs => '\n' :: withLineFeeds cs
  | c :: cs => c :: withLineFeeds cs
  | [] => []

end EntityForge.Text
