import QueryPipeline.Number.Power

/-!
# Double-precision numbers

A double is its 64 bits: a sign, an eleven-bit exponent and a 52-bit fraction. Two doubles are equal
when their bits are, so the two zeros differ. A finite double is a whole number of units, and
`magnitude` gives the number and the binary exponent of the unit.
-/

set_option autoImplicit false

namespace QueryPipeline

/-- A double-precision number, told apart from others by its bits. -/
structure Double where
  bits : UInt64
deriving DecidableEq, Repr, Inhabited

namespace Double

/-- The double with the value of a machine float. -/
def ofFloat (x : Float) : Double := ⟨x.toBits⟩

/-- The machine float with the bits of a double. -/
def toFloat (x : Double) : Float := Float.ofBits x.bits

/-- The positive zero. -/
def zero : Double := ⟨0⟩

/-- The sign bit. -/
def isNegative (x : Double) : Bool := x.bits.toNat / twoTo 63 == 1

/-- The eleven bits of the exponent. -/
def exponentBits (x : Double) : Nat := x.bits.toNat / twoTo 52 % twoTo 11

/-- The 52 bits of the fraction. -/
def fractionBits (x : Double) : Nat := x.bits.toNat % twoTo 52

/-- A double is finite unless all bits of its exponent are set. -/
def isFinite (x : Double) : Bool := x.exponentBits != 2047

/-- The absolute value of a finite double as `m * 2 ^ q`, for the pair `(m, q)`. -/
def magnitude (x : Double) : Nat × Int :=
  if x.exponentBits = 0 then (x.fractionBits, -1074)
  else (x.fractionBits + twoTo 52, (x.exponentBits : Int) - 1075)

/-- The double nearest to a 64-bit integer. -/
def ofInt64 (i : Int64) : Double := ofFloat i.toFloat

end Double

end QueryPipeline
