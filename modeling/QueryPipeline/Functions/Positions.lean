import QueryPipeline.Functions.Basic

/-!
# Texts searched by position

The text functions of SQLite. It can look for a text that is not a constant, because `instr` finds the
position of one text in another and `substr` cuts a text at positions that begin with one, or at
positions from the end when they are negative.
-/

set_option autoImplicit false

namespace QueryPipeline

open Sql

namespace Positions

variable (catalog : Catalog)

/-- The text is the empty one. -/
def isEmpty (s : Scalar) : Scalar := catalog.equal s (.text "")

/-- How many characters a text has. -/
def length (s : Scalar) : Scalar := catalog.function "length" [s] .int32

/-- The position of a text in another one, beginning with one, or zero. -/
def position (subject sought : Scalar) : Scalar := catalog.function "instr" [subject, sought] .int32

/-- The position of a text in another one, beginning with zero, or minus one. -/
def indexOf (subject sought : Scalar) : Scalar :=
  let known := knownMapping? [subject, sought]
  catalog.subtract
    (position catalog (catalog.resolveFrom known subject) (catalog.resolveFrom known sought))
    (catalog.int 1)

/-- A text contains another one: the empty text is everywhere, any other has a position. -/
def contains (subject sought : Scalar) : Scalar :=
  let known := knownMapping? [subject, sought]
  let subject := catalog.resolveFrom known subject
  let sought := catalog.resolveFrom known sought
  catalog.or (isEmpty catalog sought)
    (catalog.binary .greaterThan (position catalog subject sought) (catalog.int 0))

/-- A text begins with another one. `LIKE` decides quickly and its wildcards and letter cases are
ruled out by comparing the beginning. -/
def startsWith (subject sought : Scalar) : Scalar :=
  let known := knownMapping? [subject, sought]
  let subject := catalog.resolveFrom known subject
  let sought := catalog.resolveFrom known sought
  let like := catalog.like subject (catalog.add sought (.text "%")) none
  let beginning :=
    catalog.sameTypeFunction "substr" subject [catalog.int 1, length catalog sought]
  catalog.or (isEmpty catalog sought) (catalog.and like (catalog.equal beginning sought))

/-- A text ends with another one. -/
def endsWith (subject sought : Scalar) : Scalar :=
  let known := knownMapping? [subject, sought]
  let subject := catalog.resolveFrom known subject
  let sought := catalog.resolveFrom known sought
  let ending := catalog.sameTypeFunction "substr" subject [(length catalog sought).negated]
  catalog.or (isEmpty catalog sought) (catalog.equal ending sought)

/-- So many characters of a text from a position that begins with zero. -/
def substring (subject start count : Scalar) : Scalar :=
  catalog.sameTypeFunction "substr" subject [catalog.add start (catalog.int 1), count]

/-- A text with every occurrence of one text replaced by another one. -/
def replace (subject old new : Scalar) : Scalar :=
  let operand := catalog.resolveFrom (knownMapping? [subject, old, new])
  catalog.sameTypeFunction "replace" (operand subject) [operand old, operand new]

/-- A text is absent or has nothing but blanks. -/
def isNullOrBlank (s : Scalar) : Scalar :=
  catalog.or (catalog.isNull s false) (isEmpty catalog (catalog.sameTypeFunction "trim" s []))

/-- The characters that are to be cut off, when they are constant. -/
def trimmedChars? (s : Scalar) : Option (List Char) :=
  match s.node with
  | .constant (.char c) => some [c]
  | .constant (.array items) => items.mapM fun
    | .char c => some c
    | _ => none
  | _ => none

/-- A text without blanks, or without the given characters, at its ends. -/
def trim (function : String) (subject : Scalar) (args : List Scalar) : Answer :=
  match subject.mapping, args with
  | some _, [] => .given (catalog.sameTypeFunction function subject [])
  | some m, [chars] =>
    match trimmedChars? chars with
    | some [] => .given (catalog.sameTypeFunction function subject [])
    | some cs =>
      .given (catalog.sameTypeFunction function subject
        [(Scalar.text (String.ofList cs)).withMapping m])
    | none => .unknown
  | _, _ => .unknown

end Positions

/-- The text functions of SQLite. -/
def positionTextFunctions : FunctionProvider where
  method catalog receiver name args :=
    if name.owner? != some "string" then .unknown
    else match receiver with
      | none =>
        match name.name, args with
        | "is_null_or_white_space", [s] => .given (Positions.isNullOrBlank catalog s)
        | _, _ => .unknown
      | some subject =>
        match name.name, args with
        | "index_of", [sought] => .given (Positions.indexOf catalog subject sought)
        | "replace", [old, new] => .given (Positions.replace catalog subject old new)
        | "to_lower", [] => .given (catalog.sameTypeFunction "lower" subject [])
        | "to_upper", [] => .given (catalog.sameTypeFunction "upper" subject [])
        | "substring", [start, count] => .given (Positions.substring catalog subject start count)
        | "trim_start", args => Positions.trim catalog "ltrim" subject args
        | "trim_end", args => Positions.trim catalog "rtrim" subject args
        | "trim", args => Positions.trim catalog "trim" subject args
        | "contains", [sought] => .given (Positions.contains catalog subject sought)
        | "starts_with", [sought] => .given (Positions.startsWith catalog subject sought)
        | "ends_with", [sought] => .given (Positions.endsWith catalog subject sought)
        | _, _ => .unknown
  member catalog receiver name :=
    match receiver with
    | some subject =>
      if name.is "string" "length" then
        .given (catalog.function "length" [subject] (integerLike subject))
      else .unknown
    | none => .unknown

end QueryPipeline
