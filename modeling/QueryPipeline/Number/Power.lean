/-!
# Powers

The powers of two and ten, by which numbers are scaled and sizes of words are told.
-/

set_option autoImplicit false

namespace QueryPipeline

/-- The power of two with an exponent. -/
def twoTo (n : Nat) : Nat := Nat.pow 2 n

/-- The power of ten with an exponent. -/
def tenTo (n : Nat) : Nat := Nat.pow 10 n

end QueryPipeline
