import QueryPipeline.Calendar.Pattern
import QueryPipeline.Number.Numeral
import QueryPipeline.Text.Quoted

/-!
# Literals

The values that a pipeline may write down and that a database may return. Literals are equal when
they have the same form and the same content; doubles are compared by their bits, so the two zeros
differ and an integer never equals a double.
-/

set_option autoImplicit false

namespace QueryPipeline

/-- A value written in a pipeline or returned by a database. -/
inductive Literal where
  | null
  | boolean (b : Bool)
  | integer (i : Int64)
  | float (x : Double)
  /-- A decimal number in its own digits, so that nothing is rounded. -/
  | decimal (digits : String)
  | text (s : String)
  | char (c : Char)
  | date (d : Calendar.Date)
  | dateTime (t : Calendar.DateTime)
  | bytes (bs : List UInt8)
  | array (items : List Literal)
deriving Repr, Inhabited

namespace Literal

/-- The literal stands for the absence of a value. -/
def isNull : Literal → Bool
  | null => true
  | _ => false

mutual

/-- Two literals have the same form and content. -/
def same : Literal → Literal → Bool
  | null, null => true
  | boolean a, boolean b => a == b
  | integer a, integer b => a == b
  | float a, float b => a == b
  | decimal a, decimal b => a == b
  | text a, text b => a == b
  | char a, char b => a == b
  | date a, date b => a == b
  | dateTime a, dateTime b => a == b
  | bytes a, bytes b => a == b
  | array a, array b => sameItems a b
  | _, _ => false

/-- Two lists hold the same literals in the same order. -/
def sameItems : List Literal → List Literal → Bool
  | [], [] => true
  | a :: as, b :: bs => same a b && sameItems as bs
  | _, _ => false

end

mutual

/-- The comparison of literals decides their equality. -/
theorem same_iff_eq : ∀ a b : Literal, same a b = true ↔ a = b
  | null, b => by cases b <;> simp [same]
  | boolean _, b => by cases b <;> simp [same]
  | integer _, b => by cases b <;> simp [same]
  | float _, b => by cases b <;> simp [same]
  | decimal _, b => by cases b <;> simp [same]
  | text _, b => by cases b <;> simp [same]
  | char _, b => by cases b <;> simp [same]
  | date _, b => by cases b <;> simp [same]
  | dateTime _, b => by cases b <;> simp [same]
  | bytes _, b => by cases b <;> simp [same]
  | array as, b => by
    cases b with
    | array bs => simp [same, sameItems_iff_eq as bs]
    | _ => simp [same]

/-- The comparison of lists of literals decides their equality. -/
theorem sameItems_iff_eq : ∀ as bs : List Literal, sameItems as bs = true ↔ as = bs
  | [], bs => by cases bs <;> simp [sameItems]
  | a :: as, bs => by
    cases bs with
    | nil => simp [sameItems]
    | cons b bs => simp [sameItems, same_iff_eq a b, sameItems_iff_eq as bs]

end

instance : DecidableEq Literal := fun a b => decidable_of_iff _ (same_iff_eq a b)

mutual

/-- The text of a literal in a message: numbers as they are, decimals with a final `m`, texts and
characters quoted, dates after an `@` and bytes in hexadecimal digits. -/
def display : Literal → String
  | null => "null"
  | boolean b => if b then "true" else "false"
  | integer i => toString i.toInt
  | float x => Number.messageStyle.write x
  | decimal digits => digits ++ "m"
  | text s => Text.quoted s
  | char c => Text.quotedAlone c
  | date d => "@" ++ d.text
  | dateTime t => "@" ++ t.text
  | bytes bs => "0x" ++ String.join (bs.map Text.hexByte)
  | array items => "[" ++ displayItems items ++ "]"

/-- The texts of some literals, with commas between them. -/
def displayItems : List Literal → String
  | [] => ""
  | [item] => item.display
  | item :: rest => item.display ++ ", " ++ displayItems rest

end

end Literal

end QueryPipeline
