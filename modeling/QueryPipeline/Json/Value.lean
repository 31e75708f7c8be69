import QueryPipeline.Number.Numeral

/-!
# Interchange values

The values of the JSON interchange format. A number keeps its digits, since how it is read depends on
what it is read for, and an object keeps its members in order and with repetitions.
-/

set_option autoImplicit false

namespace QueryPipeline

/-- A number as it is written: its digits before and after the point and its exponent. -/
structure Json.Number where
  negative : Bool
  whole : List Char
  fraction : List Char
  exponent : Option Int
deriving DecidableEq, Repr

/-- A value of the interchange format. -/
inductive Json where
  | null
  | bool (b : Bool)
  | number (n : Json.Number)
  | string (s : String)
  | array (items : List Json)
  | object (members : List (String × Json))
deriving Repr, Inhabited

namespace Json

mutual

/-- How many arrays and objects stand around the innermost value. -/
def depth : Json → Nat
  | array items => itemsDepth items + 1
  | object members => membersDepth members + 1
  | _ => 0

/-- The greatest depth of some values. -/
def itemsDepth : List Json → Nat
  | [] => 0
  | item :: rest => max item.depth (itemsDepth rest)

/-- The greatest depth of the values of some members. -/
def membersDepth : List (String × Json) → Nat
  | [] => 0
  | (_, value) :: rest => max value.depth (membersDepth rest)

end

/-- How deep a text may nest arrays and objects. -/
def depthLimit : Nat := 127

/-- The number without a fraction that stands for an integer. -/
def Number.ofInt (i : Int) : Number :=
  ⟨i < 0, Nat.toDigits 10 i.natAbs, [], none⟩

/-- The value of an integer. -/
def ofInt (i : Int) : Json := number (Number.ofInt i)

/-- The value of a natural number. -/
def ofNat (n : Nat) : Json := ofInt n

end Json

end QueryPipeline
