import QueryPipeline.Number.Shortest

/-!
# Numerals

The text of a double from its shortest decimal. A style says for which exponents of the leading
digit the numeral is positional; outside of them one digit stands before the point and the exponent
follows an `e`, without a plus sign and without padding. A positional numeral always has a point.
-/

set_option autoImplicit false

namespace QueryPipeline.Number

/-- The exponents of the leading digit that a style writes positionally, both ends included. -/
structure NumeralStyle where
  leastPositional : Int
  greatestPositional : Int
deriving DecidableEq, Repr

/-- Numbers inside messages and statements are positional from 0.0001 up to sixteen digits. -/
def messageStyle : NumeralStyle := ⟨-4, 15⟩

/-- Numbers of an interchange text are positional from 0.00001 up to sixteen digits. -/
def interchangeStyle : NumeralStyle := ⟨-5, 15⟩

/-- A run of zeros. -/
def zeros (n : Nat) : String := String.ofList (List.replicate n '0')

/-- A decimal in positional form, with at least one digit on each side of the point. -/
def Decimal.positional (d : Decimal) : String :=
  let digits := Nat.toDigits 10 d.digits
  let point : Int := digits.length + d.exponent
  if 0 ≤ d.exponent then String.ofList digits ++ zeros d.exponent.toNat ++ ".0"
  else if 0 < point then
    String.ofList (digits.take point.toNat) ++ "." ++ String.ofList (digits.drop point.toNat)
  else "0." ++ zeros (-point).toNat ++ String.ofList digits

/-- A decimal with one digit before the point and an exponent. -/
def Decimal.scientific (d : Decimal) : String :=
  let digits := Nat.toDigits 10 d.digits
  let lead : Int := digits.length + d.exponent - 1
  let fraction := if digits.length ≤ 1 then "" else "." ++ String.ofList (digits.drop 1)
  String.ofList (digits.take 1) ++ fraction ++ "e" ++ toString lead

/-- The numeral of a double in a style; infinities and not-a-number have a word instead. -/
def NumeralStyle.write (style : NumeralStyle) (x : Double) : String :=
  let sign := if x.isNegative then "-" else ""
  if x.isFinite then
    let d := shortest x
    let lead : Int := digitCount d.digits + d.exponent - 1
    if d.digits = 0 ∨ (style.leastPositional ≤ lead ∧ lead ≤ style.greatestPositional) then
      sign ++ d.positional
    else sign ++ d.scientific
  else if x.fractionBits = 0 then sign ++ "inf"
  else "NaN"

end QueryPipeline.Number
