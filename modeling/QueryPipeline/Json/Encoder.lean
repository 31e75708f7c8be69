import QueryPipeline.Json.Value

/-!
# Encoding into interchange values

The counterparts of the readers of simple types, and the two forms of a structured value: a record is
an object with the names of its fields in order, and a case of a choice is its bare name or an object
with one member whose name is the case.
-/

set_option autoImplicit false

namespace QueryPipeline.Json

/-- A case of a choice with what it carries. -/
def case (name : String) (content : Json) : Json := object [(name, content)]

/-- The absence of a value is null. -/
def ofOption {α : Type} (encode : α → Json) : Option α → Json
  | none => null
  | some a => encode a

/-- The items of an array. -/
def ofList {α : Type} (encode : α → Json) (as : List α) : Json := array (as.map encode)

/-- Strings as the items of an array. -/
def ofStrings (ss : List String) : Json := ofList string ss

/-- A field that is left out when it has no value. -/
def optionalField {α : Type} (name : String) (encode : α → Json) : Option α → List (String × Json)
  | none => []
  | some a => [(name, encode a)]

end QueryPipeline.Json
