import QueryPipeline.Functions.Basic

/-!
# Texts matched by patterns

The text functions of the dialects that match texts with `LIKE`. Whether a text begins or ends with
another one or contains it can only be asked about a constant text, because the wildcards in it have to
be escaped.
-/

set_option autoImplicit false

namespace QueryPipeline

open Sql

/-- The character before a wildcard that stands for itself. -/
def likeEscape : Char := '\\'

/-- The character has a meaning of its own in a pattern of some dialect. -/
def isWildcard (c : Char) : Bool := c == '%' || c == '_' || c == '[' || c == likeEscape

/-- The characters of a text with the escape before every wildcard. -/
def escapeWildcards : List Char → List Char
  | [] => []
  | c :: rest =>
    if isWildcard c then likeEscape :: c :: escapeWildcards rest else c :: escapeWildcards rest

/-- Where a text has to occur in another one. -/
inductive Occurrence where
  | atStart
  | atEnd
  | anywhere
deriving DecidableEq, Repr

/-- The pattern of the texts in which a text occurs. -/
def Occurrence.pattern (occurrence : Occurrence) (s : String) : String :=
  let escaped := escapeWildcards s.toList
  String.ofList (match occurrence with
    | .atStart => escaped ++ ['%']
    | .atEnd => '%' :: escaped
    | .anywhere => '%' :: escaped ++ ['%'])

/-- A constant text occurs in a text. -/
def likeConstant (catalog : Catalog) (subject pattern : Scalar) (occurrence : Occurrence) : Answer :=
  match pattern.node with
  | .constant (.text s) =>
    let escape :=
      if s.toList.any isWildcard then some (Scalar.text (String.singleton likeEscape)) else none
    .given (catalog.like subject (.text (occurrence.pattern s)) escape)
  | _ => .unknown

/-- The text functions of most dialects, which differ in the function for the length of a text. -/
def patternTextFunctions (lengthFunction : String) : FunctionProvider where
  method catalog receiver name args :=
    match receiver, name.owner? with
    | some subject, some "string" =>
      match name.name, args with
      | "to_lower", [] => .given (catalog.sameTypeFunction "LOWER" subject [])
      | "to_upper", [] => .given (catalog.sameTypeFunction "UPPER" subject [])
      | "replace", [old, new] =>
        match catalog.unify [subject, old, new] with
        | first :: others => .given (catalog.sameTypeFunction "REPLACE" first others)
        | [] => .unknown
      | "starts_with", [pattern] => likeConstant catalog subject pattern .atStart
      | "ends_with", [pattern] => likeConstant catalog subject pattern .atEnd
      | "contains", [pattern] => likeConstant catalog subject pattern .anywhere
      | _, _ => .unknown
    | _, _ => .unknown
  member catalog receiver name :=
    match receiver with
    | some subject =>
      if name.is "string" "length" then
        .given (catalog.function lengthFunction [subject] (integerLike subject))
      else .unknown
    | none => .unknown

end QueryPipeline
