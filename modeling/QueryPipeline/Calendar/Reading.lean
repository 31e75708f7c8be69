import QueryPipeline.Calendar.Date
import QueryPipeline.Number.Power
import QueryPipeline.Text.Blank

/-!
# Reading dates

A date is read as year, month and day with dashes between them, a time as hour, minute and second
with colons between them and an optional fraction. Blanks may stand before every number and every
separator and at the end. A year without a sign has at most four digits, all other numbers at most
two; digits of a fraction after the ninth are dropped. Second 60 is the leap second of its minute.
-/

set_option autoImplicit false

namespace QueryPipeline.Calendar

/-- The value of a run of decimal digits. -/
def digitsValue (cs : List Char) : Nat :=
  cs.foldl (fun n c => 10 * n + (c.toNat - '0'.toNat)) 0

/-- The digits at the front, at most `limit` of them and at least one, and what follows them. -/
def readDigits? (limit : Nat) (cs : List Char) : Option (List Char × List Char) :=
  let digits := (cs.take limit).takeWhile Char.isDigit
  if digits.isEmpty then none else some (digits, cs.drop digits.length)

/-- A number of at most `limit` digits after any blanks. -/
def readNumber? (limit : Nat) (cs : List Char) : Option (Nat × List Char) :=
  (readDigits? limit (Text.trimFront cs)).map fun (digits, rest) => (digitsValue digits, rest)

/-- A year after any blanks; with a sign it may have any number of digits. -/
def readYear? (cs : List Char) : Option (Int × List Char) :=
  match Text.trimFront cs with
  | '-' :: rest => (readDigits? rest.length rest).map fun (ds, rest) => (-(digitsValue ds : Int), rest)
  | '+' :: rest => (readDigits? rest.length rest).map fun (ds, rest) => ((digitsValue ds : Int), rest)
  | rest => (readDigits? 4 rest).map fun (ds, rest) => ((digitsValue ds : Int), rest)

/-- What follows a separator, which may have blanks before it. -/
def skipSeparator? (separator : Char) (cs : List Char) : Option (List Char) :=
  match Text.trimFront cs with
  | c :: rest => if c = separator then some rest else none
  | [] => none

/-- A date at the front of a text, and what follows it. -/
def readDate? (cs : List Char) : Option (Date × List Char) := do
  let (year, cs) ← readYear? cs
  let cs ← skipSeparator? '-' cs
  let (month, cs) ← readNumber? 2 cs
  let cs ← skipSeparator? '-' cs
  let (day, cs) ← readNumber? 2 cs
  let date ← Date.ofParts? year month day
  return (date, cs)

/-- The nanoseconds of a fraction, if one follows, and what comes after it. -/
def readFraction? (cs : List Char) : Option (Nat × List Char) :=
  match cs with
  | '.' :: rest => do
    let (digits, rest) ← readDigits? 9 rest
    return (digitsValue digits * tenTo (9 - digits.length), rest.dropWhile Char.isDigit)
  | _ => some (0, cs)

/-- A time of day at the front of a text, and what follows it. -/
def readTime? (cs : List Char) : Option (Time × List Char) := do
  let (hour, cs) ← readNumber? 2 cs
  let cs ← skipSeparator? ':' cs
  let (minute, cs) ← readNumber? 2 cs
  let cs ← skipSeparator? ':' cs
  let (second, cs) ← readNumber? 2 cs
  let (nanosecond, cs) ← readFraction? cs
  let time ←
    if second = 60 then Time.ofParts? hour minute 59 (1000000000 + nanosecond)
    else Time.ofParts? hour minute second nanosecond
  return (time, cs)

/-- The date that a whole text stands for. -/
def Date.parse? (s : String) : Option Date := do
  let (date, rest) ← readDate? s.toList
  if (Text.trimFront rest).isEmpty then some date else none

/-- The date and time that a whole text stands for. -/
def DateTime.parse? (s : String) : Option DateTime := do
  let (date, rest) ← readDate? s.toList
  let rest ← skipSeparator? 'T' rest
  let (time, rest) ← readTime? rest
  if (Text.trimFront rest).isEmpty then some ⟨date, time⟩ else none

end QueryPipeline.Calendar
