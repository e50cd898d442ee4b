import EntityForge.Number.Read
import EntityForge.Text.Base64
import EntityForge.Text.Letters
import EntityForge.Value.Show
import EntityForge.Yaml.Node

/-!
# Values of nodes

The tag of a node decides how its text or its members become a value. A mapping takes over the
entries of those merged into it, its own coming last, and the last entry for a key wins.
-/

namespace EntityForge.Yaml

/-! ## Scalars -/

/-- A number without the marks between its digits. -/
def withoutMarks (s : String) : List Char := s.toList.filter (· != '_')

/-- The error for a text that is no whole number to a base. -/
def notWhole (base : Nat) (cs : List Char) : Fault :=
  .badValue ("invalid literal for int() with base " ++ toString base ++ ": " ++
    Text.quoted (.ofList cs))

/-- The error for a text that is no fraction. -/
def notFraction (cs : List Char) : Fault :=
  .badValue ("could not convert string to float: " ++ Text.quoted (.ofList cs))

/-- The error for a number of too many digits. -/
def tooLong (digits : Nat) : Fault :=
  .badValue ("Exceeds the limit (" ++ toString Text.maxDigits ++
    " digits) for integer string conversion: value has " ++ toString digits ++
    " digits; use sys.set_int_max_str_digits() to increase the limit")

/-- A whole number to a base; only to the base ten is the number of its digits limited. -/
def wholeNumber (base : Nat) (cs : List Char) : Reading Int :=
  match Number.readWhole? base cs with
  | none => .error (notWhole base cs)
  | some i =>
    let digits := cs.countP fun c => (Text.digitValue? c).isSome
    if base = 10 ∧ Text.maxDigits < digits then .error (tooLong digits) else .ok i

/-- A fraction in decimal digits. -/
def fraction (cs : List Char) : Reading Binary64 :=
  match Number.readFraction? cs with
  | none => .error (notFraction cs)
  | some x => .ok x

/-- A whole number: binary behind `0b`, to the base sixteen behind `0x`, octal behind `0`, else
decimal, or to the base sixty in groups between colons. -/
def int (s : String) : Reading Int := do
  let cs := withoutMarks s
  if cs = [] then throw .emptyNumber
  let sign : Int := if cs.head? = some '-' then -1 else 1
  match unsigned cs with
  | [] => throw .emptyNumber
  | ['0'] => return 0
  | '0' :: 'b' :: rest => return sign * (← wholeNumber 2 rest)
  | '0' :: 'x' :: rest => return sign * (← wholeNumber 16 rest)
  | size =>
    if size.head? = some '0' then return sign * (← wholeNumber 8 size)
    else if size.contains ':' then
      let groups ← (partsAt ':' size).mapM (wholeNumber 10)
      return sign * groups.foldl (fun acc n => 60 * acc + n) 0
    else return sign * (← wholeNumber 10 size)

/-- The sum of groups to the base sixty, the last group first. -/
def sumSixties (groups : List Binary64) : Binary64 :=
  (groups.reverse.foldl
    (fun (acc : Binary64 × Int) x => (acc.1.add (x.mul (.ofInt acc.2)), acc.2 * 60))
    (.zero false, 1)).1

/-- A fraction: decimal, an infinity, no number, or to the base sixty in groups between colons. -/
def float (s : String) : Reading Binary64 := do
  let cs := Text.smallLetters (withoutMarks s)
  if cs = [] then throw .emptyNumber
  let withSign (x : Binary64) : Binary64 := if cs.head? = some '-' then x.neg else x
  let size := unsigned cs
  if size = ".inf".toList then return withSign (.infinity false)
  else if size = ".nan".toList then return .nan
  else if size.contains ':' then
    return withSign (sumSixties (← (partsAt ':' size).mapM fraction))
  else return withSign (← fraction size)

/-- A date that exists. -/
def checkDate (d : Date) : Reading Unit :=
  if d.year = 0 then .error (.badValue "year 0 is out of range")
  else if d.month < 1 ∨ 12 < d.month then .error (.badValue "month must be in 1..12")
  else if d.day < 1 ∨ Date.daysIn d.year d.month < d.day then
    .error (.badValue "day is out of range for month")
  else .ok ()

/-- An offset of less than a day. -/
def checkOffset (seconds : Int) : Reading Unit :=
  if seconds.natAbs < 86400 then .ok ()
  else .error (.badValue ("offset must be a timedelta strictly between " ++
    "-timedelta(hours=24) and timedelta(hours=24), not " ++ quotedSpan seconds ++ "."))

/-- The millionths that the digits behind a point denote. -/
def microseconds (digits : List Char) : Nat :=
  Json.digitsToNat ((digits ++ List.replicate 6 '0').take 6)

/-- A date or a point in time. -/
def moment (s : String) : Reading Value :=
  match stamp? s.toList with
  | none => .error .notTimestamp
  | some stamp => match stamp.time with
    | none => do
      checkDate stamp.date
      return .date stamp.date
    | some (hour, minute, second, places) => do
      let offset := stamp.offset.map (60 * ·)
      offset.forM checkOffset
      checkDate stamp.date
      if 23 < hour then throw (.badValue "hour must be in 0..23")
      if 59 < minute then throw (.badValue "minute must be in 0..59")
      if 59 < second then throw (.badValue "second must be in 0..59")
      return .dateTime ⟨stamp.date, hour, minute, second, microseconds places, offset⟩

/-- The value of a text under a tag. -/
def scalarValue (tag : Tag) (s : String) : Reading Value :=
  match tag with
  | .null => .ok .null
  | .bool => match boolWords.lookup (.ofList (Text.smallLetters s.toList)) with
    | some b => .ok (.bool b)
    | none => .error .unknownWord
  | .int => .int <$> int s
  | .float => .float <$> float s
  | .binary =>
    if s.toList.all fun c => c.toNat < 128 then
      match Text.base64? s.toList with
      | some bs => .ok (.bytes bs)
      | none => .error .malformed
    else .error .malformed
  | .timestamp => moment s
  | .text => .ok (.text s)
  | _ => .error .malformed

/-! ## Collections -/

namespace Node

mutual

/-- The text of a scalar, or of the whole value of a mapping. -/
def text? : Node → Option String
  | scalar _ s => some s
  | mapping _ entries => wholeText? entries
  | sequence _ _ => none

/-- The text of the first whole value among the entries of a mapping. -/
def wholeText? : List (Node × Node) → Option String
  | [] => none
  | (k, v) :: rest => if k.tag = .wholeValue then v.text? else wholeText? rest

end

mutual

/-- The value of a node. -/
def value : Node → Reading Value
  | scalar tag s => scalarValue tag s
  | sequence tag items => match tag with
    | .sequence => do return .list (← values items)
    | .orderedMap | .pairs => do return .list (← pairs items)
    | _ => .error .malformed
  | mapping tag entries => match tag with
    | .mapping => do
      let (merged, own) ← entryValues entries
      return .map (Value.ofEntries (merged ++ own))
    | .set => do
      let (merged, own) ← entryValues entries
      return .set ((Value.ofEntries (merged ++ own)).map Prod.fst)
    | _ => match wholeText? entries with
      | some s => scalarValue tag s
      | none => .error .malformed

/-- The values of the members of a sequence. -/
def values : List Node → Reading (List Value)
  | [] => .ok []
  | n :: ns => do return (← n.value) :: (← values ns)

/-- The pairs of a sequence of mappings of one entry each. -/
def pairs : List Node → Reading (List Value)
  | [] => .ok []
  | mapping _ [(k, v)] :: ns => do
    let pair := Value.tuple [← k.value, ← v.value]
    return pair :: (← pairs ns)
  | _ :: _ => .error .malformed

/-- The entries merged into a mapping, and its own. -/
def entryValues : List (Node × Node) → Reading (Entries × Entries)
  | [] => .ok ([], [])
  | (k, v) :: rest =>
    if k.tag = .merge then do
      let taken ← v.mergedEntries
      let (merged, own) ← entryValues rest
      return (taken ++ merged, own)
    else do
      let key ← match k with
        | scalar .wholeValue s => pure (Value.text s)
        | _ => k.value
      if !key.isKey then throw .malformed
      let value ← v.value
      let (merged, own) ← entryValues rest
      return (merged, (key, value) :: own)

/-- The entries that a node gives to a mapping into which it is merged. -/
def mergedEntries : Node → Reading Entries
  | mapping _ entries => do
    let (merged, own) ← entryValues entries
    return merged ++ own
  | sequence _ items => do return (← mergedLists items).reverse.flatten
  | scalar _ _ => .error .malformed

/-- The entries of each of the mappings that are merged together. -/
def mergedLists : List Node → Reading (List Entries)
  | [] => .ok []
  | mapping _ entries :: ns => do
    let (merged, own) ← entryValues entries
    return (merged ++ own) :: (← mergedLists ns)
  | _ :: _ => .error .malformed

end

end Node

/-- The value that a YAML text stands for; an empty text stands for nothing. -/
def read (cs : List Char) : Reading Value := do
  match ← document? (← tokens cs) with
  | none => return .null
  | some n => n.value

end EntityForge.Yaml
