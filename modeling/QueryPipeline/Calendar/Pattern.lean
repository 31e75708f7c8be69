import QueryPipeline.Calendar.Date

/-!
# Date patterns

A pattern is a list of fields and separators, and says how a date and time are written. Years of
four digits stand as they are; all others carry a sign. A leap second shows as second 60.
-/

set_option autoImplicit false

namespace QueryPipeline.Calendar

/-- One part of a pattern. -/
inductive Field where
  | year
  | month
  | day
  | hour
  | minute
  | second
  /-- The fraction of the second in as many of 0, 3, 6 or 9 digits as it needs. -/
  | fraction
  /-- The fraction of the second in three digits, the rest being cut off. -/
  | milliseconds
  | separator (c : Char)
deriving DecidableEq, Repr

/-- How a date and time are written, from left to right. -/
abbrev Pattern := List Field

/-- A number in at least `width` digits, filled with zeros on the left. -/
def padded (width n : Nat) : String :=
  let digits := Nat.toDigits 10 n
  String.ofList (List.replicate (width - digits.length) '0' ++ digits)

/-- A year in four digits, with a sign when it needs more or lies before year zero. -/
def yearText (year : Int) : String :=
  if 0 ≤ year ∧ year ≤ 9999 then padded 4 year.toNat
  else (if year < 0 then "-" else "+") ++ padded 4 year.natAbs

/-- The nanoseconds within the second that the clock shows. -/
def Time.subsecond (t : Time) : Nat := t.nanosecond % 1000000000

/-- The second that the clock shows. -/
def Time.shownSecond (t : Time) : Nat := t.second + t.nanosecond / 1000000000

/-- The fraction of the second, after a point, in the fewest groups of three digits. -/
def Time.fractionText (t : Time) : String :=
  if t.subsecond = 0 then ""
  else if t.subsecond % 1000000 = 0 then "." ++ padded 3 (t.subsecond / 1000000)
  else if t.subsecond % 1000 = 0 then "." ++ padded 6 (t.subsecond / 1000)
  else "." ++ padded 9 t.subsecond

/-- The text of one field. -/
def Field.write (date : Date) (time : Time) : Field → String
  | .year => yearText date.year
  | .month => padded 2 date.month
  | .day => padded 2 date.day
  | .hour => padded 2 time.hour
  | .minute => padded 2 time.minute
  | .second => padded 2 time.shownSecond
  | .fraction => time.fractionText
  | .milliseconds => "." ++ padded 3 (time.subsecond / 1000000)
  | .separator c => String.singleton c

/-- The text of a date and time in a pattern. -/
def Pattern.write (pattern : Pattern) (date : Date) (time : Time) : String :=
  String.join (pattern.map (·.write date time))

/-- The conversion specification of a field. -/
def Field.code : Field → String
  | .year => "%Y"
  | .month => "%m"
  | .day => "%d"
  | .hour => "%H"
  | .minute => "%M"
  | .second => "%S"
  | .fraction => "%.f"
  | .milliseconds => "%.3f"
  | .separator c => String.singleton c

/-- The conversion specifications of a whole pattern, as its name in an interchange text. -/
def Pattern.code (pattern : Pattern) : String :=
  String.join (pattern.map Field.code)

/-- Year, month and day with dashes between them. -/
def dashedDate : Pattern := [.year, .separator '-', .month, .separator '-', .day]

/-- Hour, minute and second with colons between them. -/
def colonTime : Pattern := [.hour, .separator ':', .minute, .separator ':', .second]

/-- A date and time with a `T` between them and as much of a fraction as is needed. -/
def interchange : Pattern := dashedDate ++ [.separator 'T'] ++ colonTime ++ [.fraction]

/-- A date and time with a blank between them and as much of a fraction as is needed. -/
def blankSeparated : Pattern := dashedDate ++ [.separator ' '] ++ colonTime ++ [.fraction]

/-- A date and time with a `T` between them and three digits of a fraction. -/
def millisecondPrecision : Pattern := dashedDate ++ [.separator 'T'] ++ colonTime ++ [.milliseconds]

/-- The text of a date: year, month and day. -/
def Date.text (d : Date) : String := Pattern.write dashedDate d .midnight

/-- The text of a date and time, with a `T` between them. -/
def DateTime.text (t : DateTime) : String := Pattern.write interchange t.date t.time

end QueryPipeline.Calendar
