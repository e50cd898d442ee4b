/-!
# Dates and times

Calendar dates, and points in time given by a date, a time of day to the microsecond and an
optional offset from universal time. A date is written year-month-day; a point in time adds the
time of day and the offset, leaving out a fraction that is zero.
-/

namespace EntityForge

/-- A day of the Gregorian calendar. -/
structure Date where
  year : Nat
  month : Nat
  day : Nat
  deriving DecidableEq, Repr, Inhabited

/-- A point in time; without an offset it is a local time. -/
structure DateTime where
  date : Date
  hour : Nat
  minute : Nat
  second : Nat
  microsecond : Nat
  /-- The distance from universal time in seconds. -/
  offset : Option Int
  deriving DecidableEq, Repr, Inhabited

/-- A number padded with zeros in front to a width. -/
def zeroPadded (width n : Nat) : String :=
  let digits := Nat.toDigits 10 n
  .ofList (List.replicate (width - digits.length) '0' ++ digits)

namespace Date

/-- A year has 366 days. -/
def isLeap (year : Nat) : Bool := year % 4 == 0 && (year % 100 != 0 || year % 400 == 0)

/-- The number of days of a month. -/
def daysIn (year month : Nat) : Nat :=
  if month = 2 then (if isLeap year then 29 else 28)
  else if month = 4 ∨ month = 6 ∨ month = 9 ∨ month = 11 then 30 else 31

/-- The date names a day of the calendar. -/
def isValid (d : Date) : Bool :=
  1 ≤ d.year && d.year ≤ 9999 && 1 ≤ d.month && d.month ≤ 12 &&
    1 ≤ d.day && d.day ≤ daysIn d.year d.month

/-- The number of days before this one, counted from the first day of year one. -/
def ordinal (d : Date) : Nat :=
  let y := d.year - 1
  let months := (List.range (d.month - 1)).foldl (fun n m => n + daysIn d.year (m + 1)) 0
  365 * y + y / 4 - y / 100 + y / 400 + months + (d.day - 1)

/-- The month and day of a day of a year, counted from zero. -/
def monthAndDay (year : Nat) : List Nat → Nat → Nat × Nat
  | [], day => (12, day + 1)
  | m :: ms, day =>
    if day < daysIn year m then (m, day + 1) else monthAndDay year ms (day - daysIn year m)

/-- The date with a number of days before it, counted from the first day of year one. Every four
hundred years have the same number of days. -/
def ofOrdinal (n : Nat) : Date :=
  let cycle := n % 146097
  let centuries := min (cycle / 36524) 3
  let century := cycle - 36524 * centuries
  let years := min (century % 1461 / 365) 3
  let year := 400 * (n / 146097) + 100 * centuries + 4 * (century / 1461) + years + 1
  let (month, day) := monthAndDay year ((List.range 12).map (· + 1)) (century % 1461 - 365 * years)
  ⟨year, month, day⟩

/-- The written form of a date. -/
def text (d : Date) : String :=
  zeroPadded 4 d.year ++ "-" ++ zeroPadded 2 d.month ++ "-" ++ zeroPadded 2 d.day

end Date

namespace DateTime

/-- The date and the time of day exist. -/
def isValid (t : DateTime) : Bool :=
  t.date.isValid && t.hour < 24 && t.minute < 60 && t.second < 60 && t.microsecond < 1000000 &&
    t.offset.all fun o => o.natAbs < 86400

/-- The point in universal time with a number of seconds before it, counted from the first moment of
year one. -/
def ofSeconds (n : Nat) : DateTime :=
  ⟨Date.ofOrdinal (n / 86400), n / 3600 % 24, n / 60 % 60, n % 60, 0, some 0⟩

/-- The seconds from the first moment of year one, in universal time if there is an offset. -/
def instant (t : DateTime) : Int :=
  86400 * t.date.ordinal + 3600 * t.hour + 60 * t.minute + t.second - t.offset.getD 0

/-- The same point in time; a local time is never the same as one with an offset. -/
def sameMoment (t u : DateTime) : Bool :=
  t.offset.isSome == u.offset.isSome && t.instant == u.instant && t.microsecond == u.microsecond

/-- An offset written with a sign, hours, minutes and, if there are any, seconds. -/
def offsetText (o : Int) : String :=
  let n := o.natAbs
  let seconds := if n % 60 = 0 then "" else ":" ++ zeroPadded 2 (n % 60)
  (if o < 0 then "-" else "+") ++ zeroPadded 2 (n / 3600) ++ ":" ++ zeroPadded 2 (n / 60 % 60) ++
    seconds

/-- The written form with `separator` between date and time of day. -/
def textWith (separator : String) (t : DateTime) : String :=
  t.date.text ++ separator ++ zeroPadded 2 t.hour ++ ":" ++ zeroPadded 2 t.minute ++ ":" ++
    zeroPadded 2 t.second ++
    (if t.microsecond = 0 then "" else "." ++ zeroPadded 6 t.microsecond) ++
    (t.offset.map offsetText).getD ""

end DateTime

end EntityForge
