/-!
# Fresh names

A name that is not taken yet: the preferred name if it is free, and otherwise the preferred name
followed by the smallest number that makes it free. Of one more candidate than names are taken, one is
always free.
-/

set_option autoImplicit false

namespace QueryPipeline.Sql

/-- The preferred name followed by 0, 1, 2 and so on, one candidate more than names are taken. -/
def numberedNames (taken : List String) (preferred : String) : List String :=
  (List.range (taken.length + 1)).map fun n => preferred ++ toString n

/-- A name that is not taken. -/
def freshName (taken : List String) (preferred : String) : String :=
  if preferred ∈ taken then
    ((numberedNames taken preferred).find? (· ∉ taken)).getD preferred
  else preferred

end QueryPipeline.Sql
