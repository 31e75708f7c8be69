import QueryPipeline.Number.Double

/-!
# Shortest decimals

The fewest decimal digits that still single out one double. The reals that round to a double form
an interval, with its ends when the double's number of units is even. A decimal of `k` digits that
lies in the interval is, if there is one, also found among the two neighbours of the double on the
grid of `k` digits, so the search tries the neighbours for one digit, two digits and so on. Of two
neighbours that both fit, the nearer is taken, and the upper one when they are equally near.
-/

set_option autoImplicit false

namespace QueryPipeline.Number

/-- The decimal number `digits * 10 ^ exponent`. -/
structure Decimal where
  digits : Nat
  exponent : Int
deriving DecidableEq, Repr, Inhabited

/-- How many decimal digits a number has. -/
def digitCount (n : Nat) : Nat := (Nat.toDigits 10 n).length

/-- The decimal exponent of the leading digit of `m * 2 ^ q`, for a double's positive `m` and its `q`. -/
def leadingExponent (m : Nat) (q : Int) : Int :=
  (digitCount (m * twoTo q.toNat * tenTo 340 / twoTo (-q).toNat) : Int) - 341

/-- The neighbour of `m * 2 ^ q` on the grid of multiples of `10 ^ p` that rounds to the same double. -/
def neighbour? (m : Nat) (q p : Int) : Option Decimal :=
  let scale := twoTo q.toNat * tenTo (-p).toNat
  let unit := 4 * twoTo (-q).toNat * tenTo p.toNat
  let value := 4 * m * scale
  let below := if m = twoTo 52 ∧ -1074 < q then (4 * m - 1) * scale else (4 * m - 2) * scale
  let above := (4 * m + 2) * scale
  let fits (n : Nat) : Bool :=
    if m % 2 = 0 then below ≤ n * unit && n * unit ≤ above
    else below < n * unit && n * unit < above
  let low := value / unit
  let lowIsNearer := 2 * (value % unit) < unit
  if fits low && (lowIsNearer || !fits (low + 1)) then some ⟨low, p⟩
  else if fits (low + 1) then some ⟨low + 1, p⟩
  else none

/-- The decimal without the zeros at the end of its digits; at most `fuel` zeros are taken off. -/
def Decimal.withoutTrailingZeros : Nat → Decimal → Decimal
  | 0, d => d
  | fuel + 1, d =>
    if d.digits ≠ 0 ∧ d.digits % 10 = 0 then
      withoutTrailingZeros fuel ⟨d.digits / 10, d.exponent + 1⟩
    else d

/-- The shortest decimal that singles out the absolute value of a finite double. -/
def shortest (x : Double) : Decimal :=
  let (m, q) := x.magnitude
  if m = 0 then ⟨0, 0⟩
  else
    let lead := leadingExponent m q
    let found := (List.range 17).findSome? fun (k : Nat) => neighbour? m q (lead - k)
    (found.getD ⟨0, 0⟩).withoutTrailingZeros 17

end QueryPipeline.Number
