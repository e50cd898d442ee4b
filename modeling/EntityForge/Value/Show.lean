import EntityForge.Number.Shortest
import EntityForge.Text.Quoted
import EntityForge.Value.Basic

/-!
# The written forms of a value

The quoted form shows a value inside a message: texts stand in quotes, lists in square brackets,
mappings in curly braces. The plain form is the same except for a text, a date and a point in
time, which are written without quotes or constructor.
-/

namespace EntityForge

/-- The quoted form of a length of time in seconds, other than none. -/
def quotedSpan (n : Int) : String :=
  let days := n.fdiv 86400
  let seconds := n.fmod 86400
  let parts := (if days = 0 then [] else ["days=" ++ toString days]) ++
    (if seconds = 0 then [] else ["seconds=" ++ toString seconds])
  "datetime.timedelta(" ++ ", ".intercalate parts ++ ")"

/-- The quoted form of an offset from universal time. -/
def quotedOffset (o : Int) : String :=
  if o = 0 then "datetime.timezone.utc" else "datetime.timezone(" ++ quotedSpan o ++ ")"

/-- The quoted form of a point in time; seconds and microseconds that are zero are left out. -/
def DateTime.quoted (t : DateTime) : String :=
  let time := [t.date.year, t.date.month, t.date.day, t.hour, t.minute] ++
    (if t.second = 0 ∧ t.microsecond = 0 then [] else [t.second]) ++
    (if t.microsecond = 0 then [] else [t.microsecond])
  let zone := (t.offset.map fun o => "tzinfo=" ++ quotedOffset o).toList
  "datetime.datetime(" ++ ", ".intercalate (time.map toString ++ zone) ++ ")"

/-- The quoted form of a date. -/
def Date.quoted (d : Date) : String :=
  "datetime.date(" ++ ", ".intercalate ([d.year, d.month, d.day].map toString) ++ ")"

namespace Value

mutual

/-- The form of a value inside a message. -/
def quoted : Value → String
  | .null => "None"
  | .bool b => if b then "True" else "False"
  | .int i => toString i
  | .float x => x.text
  | .text s => Text.quoted s
  | .bytes bs => Text.quotedBytes bs
  | .date d => d.quoted
  | .dateTime t => t.quoted
  | .list items => "[" ++ ", ".intercalate (quotedItems items) ++ "]"
  | .tuple [item] => "(" ++ item.quoted ++ ",)"
  | .tuple items => "(" ++ ", ".intercalate (quotedItems items) ++ ")"
  | .set [] => "set()"
  | .set items => "\x7b" ++ ", ".intercalate (quotedItems items) ++ "\x7d"
  | .map entries => "\x7b" ++ ", ".intercalate (quotedEntries entries) ++ "\x7d"

/-- The forms of the items of a list. -/
def quotedItems : List Value → List String
  | [] => []
  | x :: xs => x.quoted :: quotedItems xs

/-- The forms of the entries of a mapping. -/
def quotedEntries : List (Value × Value) → List String
  | [] => []
  | (k, v) :: rest => (k.quoted ++ ": " ++ v.quoted) :: quotedEntries rest

end

/-- The form of a value that stands for itself in a text. -/
def plain : Value → String
  | .text s => s
  | .date d => d.text
  | .dateTime t => t.textWith " "
  | v => v.quoted

end Value

end EntityForge
