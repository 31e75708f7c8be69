import QueryPipeline.Functions.Dates
import QueryPipeline.Functions.Geometry
import QueryPipeline.Functions.Patterns
import QueryPipeline.Functions.Positions
import QueryPipeline.Functions.SqlServer

/-!
# Functions of the dialects

The providers that every dialect has built in, and a provider for a single function that the author of
a pipeline adds.
-/

set_option autoImplicit false

namespace QueryPipeline

open Sql

/-- The providers of a dialect, in the order in which they are asked. -/
def builtInProviders : Dialect → List FunctionProvider
  | .msSql => [patternTextFunctions "LEN", conversionMethods, fullTextMethods, datePartMembers]
  | .sqlite =>
    [positionTextFunctions, formattedDateMembers, collectionMethods, lineMembers]
  | .postgres => [patternTextFunctions "LENGTH"]
  | .generic => [patternTextFunctions "CHAR_LENGTH"]

/-- The registry of a dialect before anything is registered. -/
def FunctionRegistry.ofDialect (dialect : Dialect) : FunctionRegistry :=
  ⟨builtInProviders dialect, 0, Nat.zero_le _⟩

/-- A method or member that becomes a function of the database, or is refused with a message. -/
structure CustomFunction where
  owner : String
  name : String
  /-- The function of the database. -/
  sql : String
  type : DataType
  isMember : Bool
  refusal : Option String
deriving DecidableEq, Repr

/-- What a custom function becomes for the given arguments. -/
def CustomFunction.answer (f : CustomFunction) (catalog : Catalog) (name : QualifiedName)
    (args : List Scalar) : Answer :=
  if !name.is f.owner f.name then .unknown
  else match f.refusal with
    | some message => .error (.usage name.display message)
    | none => .given (catalog.function f.sql args f.type)

/-- The provider of a custom function. -/
def CustomFunction.provider (f : CustomFunction) : FunctionProvider :=
  if f.isMember then
    .ofMember fun catalog receiver name => f.answer catalog name receiver.toList
  else
    .ofMethod fun catalog receiver name args => f.answer catalog name (receiver.toList ++ args)

end QueryPipeline
