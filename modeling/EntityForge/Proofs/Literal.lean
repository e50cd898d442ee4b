import EntityForge.Source.Literal

/-!
# Reading string literals

A reader of literals between double quotes: it goes to the first quote that no backslash escapes and
returns the value of the literal, as code points, and what stands behind it. A line feed, a carriage
return or a NUL in it is no part of a literal. The literals of the generated code escape what the
reader takes as the end of a literal, apart from carriage returns: they are read back as the text
that they were made for, and nothing behind them is read with them, unless that text has a carriage
return or a NUL.
-/

namespace EntityForge.Source

/-! ## The reader -/

/-- The value of a digit. -/
def digit? (base : Nat) (c : Char) : Option Nat :=
  let value :=
    if '0' ≤ c ∧ c ≤ '9' then c.toNat - '0'.toNat
    else if 'a' ≤ c ∧ c ≤ 'f' then c.toNat - 'a'.toNat + 10
    else if 'A' ≤ c ∧ c ≤ 'F' then c.toNat - 'A'.toNat + 10
    else base
  if value < base then some value else none

/-- The value of digits. -/
def number? (base : Nat) (digits : List Char) : Option Nat :=
  digits.foldlM (fun n c => (digit? base c).map (n * base + ·)) 0

/-- The value of an escape of one character; a line break stands for nothing. -/
def shortEscape? : Char → Option (List Nat)
  | '\n' | '\r' => some []
  | '\\' => some ['\\'.toNat]
  | '\'' => some ['\''.toNat]
  | '"' => some ['"'.toNat]
  | 'a' => some [7]
  | 'b' => some [8]
  | 'f' => some [12]
  | 'n' => some ['\n'.toNat]
  | 'r' => some ['\r'.toNat]
  | 't' => some ['\t'.toNat]
  | 'v' => some [11]
  | _ => none

/-- A code point in a number of hexadecimal digits, behind one character. -/
def hexEscape? (digits : Nat) (cs : List Char) : Option (List Nat × Nat) :=
  if digits ≤ cs.length then
    (number? 16 (cs.take digits)).bind fun n =>
      if n ≤ 0x10FFFF then some ([n], 1 + digits) else none
  else none

/-- The names of characters are words of letters and digits. -/
def isNamingChar (c : Char) : Bool := c.isAlphanum || c = ' ' || c = '-'

/-- The value of an escape and the number of characters that it takes behind the backslash. A
backslash that is the beginning of no escape stands for itself. -/
def escape? (named : List Char → Option Nat) : List Char → Option (List Nat × Nat)
  | 'x' :: cs => hexEscape? 2 cs
  | 'u' :: cs => hexEscape? 4 cs
  | 'U' :: cs => hexEscape? 8 cs
  | 'N' :: '{' :: cs =>
    let name := cs.takeWhile isNamingChar
    if (cs.drop name.length).head? = some '}' then
      (named name).map fun n => ([n], name.length + 3)
    else none
  | 'N' :: _ => none
  | '\r' :: '\n' :: _ => some ([], 2)
  | c :: cs =>
    let octal := ((c :: cs).take 3).takeWhile fun d => (digit? 8 d).isSome
    if octal ≠ [] then (number? 8 octal).map fun n => ([n], octal.length)
    else if c = '\x00' then none
    else some ((shortEscape? c).getD ['\\'.toNat, c.toNat], 1)
  | [] => none

/-- No literal on one line goes on behind such a character. -/
def endsLine (c : Char) : Bool := c = '\n' || c = '\r' || c = '\x00'

/-- A value with more in front of it. -/
def precede (value : List Nat) : List Nat × List Char → List Nat × List Char
  | (values, rest) => (value ++ values, rest)

/-- Reads to the closing quote. At first, a number of characters is left out, which belong to an
escape that has been read. -/
def readBody (named : List Char → Option Nat) :
    Nat → List Char → Option (List Nat × List Char)
  | _, [] => none
  | taken + 1, _ :: cs => readBody named taken cs
  | 0, '"' :: cs => some ([], cs)
  | 0, '\\' :: cs =>
    (escape? named cs).bind fun (value, taken) => (readBody named taken cs).map (precede value)
  | 0, c :: cs =>
    if endsLine c then none else (readBody named 0 cs).map (precede [c.toNat])

/-- The value of the literal at the beginning of a text, and what stands behind the literal. Names
of characters have the values that are given for them. Three quotes are the beginning of another
kind of literal. -/
def readLiteral (named : List Char → Option Nat) : List Char → Option (List Nat × List Char)
  | '"' :: '"' :: '"' :: _ => none
  | '"' :: cs => readBody named 0 cs
  | _ => none

variable {named : List Char → Option Nat} {c : Char} {cs rest : List Char}

/-! ## Reading what is escaped -/

theorem readBody_plain (hquote : c ≠ '"') (hslash : c ≠ '\\') :
    readBody named 0 (c :: cs) =
      if endsLine c then none else (readBody named 0 cs).map (precede [c.toNat]) :=
  readBody.eq_5 named c cs hquote hslash

/-- What is written for a character stands for the character, but a carriage return and a NUL are
written as they are. -/
theorem readBody_literalChar (named : List Char → Option Nat) (c : Char) (rest : List Char) :
    readBody named 0 (literalChar c ++ rest) =
      if c = '\r' ∨ c = '\x00' then none
      else (readBody named 0 rest).map (precede [c.toNat]) := by
  by_cases hslash : c = '\\'
  · rw [hslash]
    rfl
  by_cases hquote : c = '"'
  · rw [hquote]
    rfl
  by_cases hfeed : c = '\n'
  · rw [hfeed]
    rfl
  have hchar : literalChar c = [c] := by
    rw [literalChar, if_neg (not_or_intro hslash hquote), if_neg hfeed]
  have hends : endsLine c = true ↔ c = '\r' ∨ c = '\x00' := by
    simp [endsLine, hfeed]
  rw [hchar, List.singleton_append, readBody_plain hquote hslash]
  simp only [hends]

/-- The characters of a literal are read one after the other, up to the quote behind them. -/
theorem readBody_escaped (named : List Char → Option Nat) (cs rest : List Char) :
    readBody named 0 (escaped cs ++ '"' :: rest) =
      if '\r' ∈ cs ∨ '\x00' ∈ cs then none else some (cs.map Char.toNat, rest) := by
  rw [escaped_eq_flatMap]
  induction cs with
  | nil => rfl
  | cons c cs ih =>
    have hmem : '\r' ∈ c :: cs ∨ '\x00' ∈ c :: cs ↔
        (c = '\r' ∨ c = '\x00') ∨ '\r' ∈ cs ∨ '\x00' ∈ cs := by
      rw [List.mem_cons, List.mem_cons, eq_comm, eq_comm (b := c), or_or_or_comm]
    rw [List.flatMap_cons, List.append_assoc, readBody_literalChar, ih]
    by_cases hc : c = '\r' ∨ c = '\x00'
    · rw [if_pos hc, if_pos (hmem.mpr (Or.inl hc))]
    by_cases hcs : '\r' ∈ cs ∨ '\x00' ∈ cs
    · rw [if_neg hc, if_pos hcs, if_pos (hmem.mpr (Or.inr hcs)), Option.map_none]
    · rw [if_neg hc, if_neg hcs, if_neg fun h => (hmem.mp h).elim hc hcs]
      rfl

/-- What is written for a character does not begin with a quote. -/
theorem head?_escaped_ne_quote (cs : List Char) : (escaped cs).head? ≠ some '"' := by
  rw [escaped_eq_flatMap]
  cases cs with
  | nil => decide
  | cons c cs =>
    rw [List.flatMap_cons, literalChar]
    intro hhead
    split at hhead
    · exact absurd (Option.some.inj hhead) (by decide)
    · next hplain =>
      split at hhead
      · exact absurd (Option.some.inj hhead) (by decide)
      · exact hplain (Or.inr (Option.some.inj hhead))

/-- The literal for a text is one literal, and its value is the text: it is read to its end with the
code points of the text for its value, unless the text has a carriage return or a NUL in it. -/
theorem readLiteral_literal (named : List Char → Option Nat) (s : String) :
    readLiteral named (literal s).toList =
      if '\r' ∈ s.toList ∨ '\x00' ∈ s.toList then none
      else some (s.toList.map Char.toNat, []) := by
  have hthree : ∀ cs, escaped s.toList ++ ['"'] = '"' :: '"' :: cs → False := by
    intro cs heq
    cases hbody : escaped s.toList with
    | nil =>
      rw [hbody] at heq
      cases heq
    | cons c body =>
      rw [hbody] at heq
      refine head?_escaped_ne_quote s.toList ?_
      rw [hbody, (List.cons.inj heq).1, List.head?_cons]
  rw [literal, String.toList_ofList, literalChars, List.cons_append,
    readLiteral.eq_2 named _ hthree, readBody_escaped]

/-- A carriage return ends the line in the middle of the literal. -/
theorem readLiteral_literal_return :
    readLiteral (fun _ => none) (literal "a\rb").toList = none := by
  decide

end EntityForge.Source
