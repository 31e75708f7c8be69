import QueryPipeline.Json.Value
import QueryPipeline.Number.Power

/-!
# Numbers of the interchange format

A number is read as an integer or as a double. It is an integer when it has neither fraction nor
exponent and is not a negative zero. To read a double, digits are gathered into a 64-bit whole
number for as long as they fit, the rest only move the exponent, and the whole number is then
multiplied with or divided by one power of ten. A double is written as its shortest numeral.
-/

set_option autoImplicit false

namespace QueryPipeline.Json

/-- The digits of a whole number, continued by those further digits that keep it below 2⁶⁴, and how
many of them were taken. -/
def gather : Nat → List Char → Nat × Nat
  | n, [] => (n, 0)
  | n, c :: rest =>
    let next := 10 * n + (c.toNat - '0'.toNat)
    if next < twoTo 64 then
      let (value, taken) := gather next rest
      (value, taken + 1)
    else (n, 0)

/-- The power of ten with this exponent. -/
def powerOfTen (exponent : Nat) : Float := Float.ofScientific 1 false exponent

/-- The double `significand * 10 ^ exponent`, unless it is too great. Exponents below -308 divide by
a power of ten in several steps, which end at zero. -/
def scale? : Nat → Float → Int → Option Float
  | steps, significand, exponent =>
    if exponent.natAbs ≤ 308 then
      if 0 ≤ exponent then
        let value := significand * powerOfTen exponent.toNat
        if value.isInf then none else some value
      else some (significand / powerOfTen exponent.natAbs)
    else if significand == 0.0 then some significand
    else if 0 ≤ exponent then none
    else match steps with
      | 0 => some 0.0
      | steps + 1 => scale? steps (significand / powerOfTen 308) (exponent + 308)

/-- The exponents that are added as they are; greater ones are answered at once. -/
def exponentLimit : Int := twoTo 31 - 1

/-- The absolute value of a number as a double, unless it is too great. -/
def Number.magnitude? (n : Number) : Option Float :=
  let (whole, taken) := gather 0 n.whole
  let skipped := n.whole.length - taken
  let (significand, places) := gather whole n.fraction
  let start : Int := skipped - places
  match n.exponent with
  | none =>
    if n.fraction.isEmpty && skipped == 0 then some significand.toUInt64.toFloat
    else scale? 4 significand.toUInt64.toFloat start
  | some exponent =>
    if exponentLimit < exponent then (if significand = 0 then some 0.0 else none)
    else if exponent < -exponentLimit then some 0.0
    else scale? 4 significand.toUInt64.toFloat (start + exponent)

/-- The double a number stands for, unless it is too great. -/
def Number.toDouble? (n : Number) : Option Double :=
  n.magnitude?.map fun value => Double.ofFloat (if n.negative then -value else value)

/-- The integer a number stands for, if it is written as one. -/
def Number.toInt? (n : Number) : Option Int :=
  if n.fraction.isEmpty && n.exponent.isNone then
    let value := n.whole.foldl (fun v c => 10 * v + (c.toNat - '0'.toNat)) 0
    if n.negative then (if value = 0 then none else some (-(value : Int))) else some value
  else none

/-- Splits the characters of a numeral into the parts of a number. -/
def Number.ofNumeral (cs : List Char) : Number :=
  let negative := cs.head? == some '-'
  let body := if negative then cs.drop 1 else cs
  let whole := body.takeWhile Char.isDigit
  let rest := body.dropWhile Char.isDigit
  let fraction := if rest.head? == some '.' then (rest.drop 1).takeWhile Char.isDigit else []
  let exponent := (rest.dropWhile (· != 'e')).drop 1
  ⟨negative, whole, fraction, if exponent.isEmpty then none else (String.ofList exponent).toInt?⟩

/-- The value of a double; a double that is not finite has none and becomes null. -/
def ofDouble (x : Double) : Json :=
  if x.isFinite then number (Number.ofNumeral (Number.interchangeStyle.write x).toList) else null

end QueryPipeline.Json
