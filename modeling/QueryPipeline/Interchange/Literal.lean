import QueryPipeline.Calendar.Reading
import QueryPipeline.Json.Decoder
import QueryPipeline.Json.Encoder
import QueryPipeline.Literal

/-!
# Interchange of literals

Every literal but null says its form beside its content. Dates are texts, and bytes are an array of
numbers.
-/

set_option autoImplicit false

namespace QueryPipeline

open Json (Decoder)

namespace Literal

mutual

/-- The interchange form of a literal. -/
def toJson : Literal → Json
  | null => .string "Null"
  | boolean b => Json.case "Boolean" (.bool b)
  | integer i => Json.case "Integer" (Json.ofInt i.toInt)
  | float x => Json.case "Float" (Json.ofDouble x)
  | decimal digits => Json.case "Decimal" (.string digits)
  | text s => Json.case "Text" (.string s)
  | char c => Json.case "Char" (.string (String.singleton c))
  | date d => Json.case "Date" (.string d.text)
  | dateTime t => Json.case "DateTime" (.string t.text)
  | bytes bs => Json.case "Bytes" (Json.ofList (fun b => Json.ofNat b.toNat) bs)
  | array items => Json.case "Array" (.array (itemsToJson items))

/-- The interchange forms of some literals. -/
def itemsToJson : List Literal → List Json
  | [] => []
  | item :: rest => item.toJson :: itemsToJson rest

end

/-- Reads a literal that nests less deep than `fuel`. -/
def read : (fuel : Nat) → Decoder Literal
  | 0, _ => none
  | fuel + 1, j => do
    let c ← j.toCase?
    match c.name, c.content with
    | "Null", _ => if c.isBare then some null else none
    | "Boolean", some content => return boolean (← content.toBool?)
    | "Integer", some content => return integer (← content.toInt64?)
    | "Float", some content => return float (← content.toDouble?)
    | "Decimal", some content => return decimal (← content.toString?)
    | "Text", some content => return text (← content.toString?)
    | "Char", some content => return char (← content.toChar?)
    | "Date", some content => return date (← Calendar.Date.parse? (← content.toString?))
    | "DateTime", some content => return dateTime (← Calendar.DateTime.parse? (← content.toString?))
    | "Bytes", some content => return bytes (← content.toList? Json.toByte?)
    | "Array", some content => return array (← content.toList? (read fuel))
    | _, _ => none

/-- Reads a literal. -/
def ofJson? : Decoder Literal := fun j => read (j.depth + 1) j

end Literal

end QueryPipeline
