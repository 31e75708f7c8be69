import QueryPipeline.Json.Number
import QueryPipeline.Json.Reader

/-!
# Decoding interchange values

Readers of the simple types, and the two forms of a structured one. A record is an object with the
names of its fields, where unknown names are passed over and a known one must not be repeated, or an
array of its fields in order. A choice is the bare name of a case, or an object with one member
whose name is the case and whose value is what the case carries.
-/

set_option autoImplicit false

namespace QueryPipeline.Json

/-- A reader of a type: `none` when the value is not one of the type. -/
abbrev Decoder (α : Type) := Json → Option α

/-- Reads a value that nests no deeper than the format allows. -/
def interpret? {α : Type} (decoder : Decoder α) (j : Json) : Option α :=
  if j.depth ≤ depthLimit then decoder j else none

/-- Reads a text. -/
def decode? {α : Type} (decoder : Decoder α) (text : String) : Option α := do
  interpret? decoder (← parse? text)

/-- Reads a string. -/
def toString? : Decoder String
  | string s => some s
  | _ => none

/-- Reads a truth value. -/
def toBool? : Decoder Bool
  | bool b => some b
  | _ => none

/-- Reads an integer. -/
def toInt? : Decoder Int
  | number n => n.toInt?
  | _ => none

/-- Reads an integer of 64 bits. -/
def toInt64? : Decoder Int64 := fun j => do
  let i ← j.toInt?
  if -(twoTo 63) ≤ i ∧ i < twoTo 63 then some (Int64.ofInt i) else none

/-- Reads an integer of 8 bits without a sign. -/
def toByte? : Decoder UInt8 := fun j => do
  let i ← j.toInt?
  if 0 ≤ i ∧ i < 256 then some (UInt8.ofNat i.toNat) else none

/-- Reads a double. -/
def toDouble? : Decoder Double
  | number n => n.toDouble?
  | _ => none

/-- Reads a string of one character. -/
def toChar? : Decoder Char := fun j => do
  match (← j.toString?).toList with
  | [c] => some c
  | _ => none

/-- Reads every item of an array. -/
def toList? {α : Type} (decoder : Decoder α) : Decoder (List α)
  | array items => items.mapM decoder
  | _ => none

/-- Reads null as the absence of a value. -/
def toOption? {α : Type} (decoder : Decoder α) : Decoder (Option α)
  | null => some none
  | j => (decoder j).map some

/-- The fields of a record, as far as they are given. -/
structure Record where
  /-- The fields were given by their order and not by their names. -/
  positional : Bool
  field? : String → Option Json

/-- The members with a name. -/
def named (members : List (String × Json)) (name : String) : List Json :=
  (members.filter (·.1 == name)).map (·.2)

/-- Reads a value as a record with the given fields. -/
def toRecord? (fields : List String) : Json → Option Record
  | object members =>
    if fields.all fun name => (named members name).length ≤ 1 then
      some ⟨false, fun name => (named members name).head?⟩
    else none
  | array items =>
    if items.length ≤ fields.length then some ⟨true, fun name => items[fields.idxOf name]?⟩
    else none
  | _ => none

/-- A field that has to be given. -/
def Record.required? {α : Type} (r : Record) (name : String) (decoder : Decoder α) : Option α :=
  r.field? name >>= decoder

/-- A field that has a value of its own when it is not given. -/
def Record.withDefault? {α : Type} (r : Record) (name : String) (default : α)
    (decoder : Decoder α) : Option α :=
  match r.field? name with
  | none => some default
  | some j => decoder j

/-- A field that may be null, and may be left out of an object but not out of an array. -/
def Record.optional? {α : Type} (r : Record) (name : String) (decoder : Decoder α) :
    Option (Option α) :=
  match r.field? name with
  | none => if r.positional then none else some none
  | some j => toOption? decoder j

/-- A case of a choice, with what it carries when it is not a bare name. -/
structure Case where
  name : String
  content : Option Json

/-- Reads a value as one case of a choice. -/
def toCase? : Json → Option Case
  | string name => some ⟨name, none⟩
  | object [(name, content)] => some ⟨name, some content⟩
  | _ => none

/-- A case that carries nothing is a bare name or carries null. -/
def Case.isBare (c : Case) : Bool :=
  match c.content with
  | none | some null => true
  | _ => false

/-- Reads a choice among cases that carry nothing. -/
def toBareCase? {α : Type} (cases : List (String × α)) : Decoder α := fun j => do
  let c ← j.toCase?
  if c.isBare then cases.lookup c.name else none

end QueryPipeline.Json
