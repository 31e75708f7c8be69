import QueryPipeline.Sql.StoreType

/-!
# Commands

A command is the text of a statement with the parameters it refers to. Its text is laid out from pieces:
every line that has text begins with four blanks for each open level of indentation, and a parameter is
listed where its placeholder occurs first.
-/

set_option autoImplicit false

namespace QueryPipeline.Sql

/-- A parameter of a statement. -/
structure CommandParameter where
  name : String
  /-- What stands for the parameter in the text. -/
  placeholder : String
  mapping : Option TypeMapping
  nullable : Bool
deriving DecidableEq, Repr

/-- The text of a statement and its parameters, in the order in which they occur first. -/
structure Command where
  sql : String
  parameters : List CommandParameter
deriving DecidableEq, Repr

/-- A piece of a statement before it is laid out. -/
inductive Piece where
  | text (s : String)
  | newline
  | indent
  | dedent
  | parameter (p : CommandParameter)
deriving DecidableEq, Repr

/-- The text that a piece writes. -/
def Piece.written : Piece → String
  | text s => s
  | newline => "\n"
  | indent | dedent => ""
  | parameter p => p.placeholder

/-- Where the next text of a statement goes. -/
structure Cursor where
  level : Nat
  atLineStart : Bool

/-- The blanks before the first text of a line. -/
def Cursor.margin (c : Cursor) : String :=
  if c.atLineStart then String.ofList (List.replicate (4 * c.level) ' ') else ""

/-- The text of some pieces from a cursor on. -/
def layOut (c : Cursor) : List Piece → String
  | [] => ""
  | .newline :: rest => "\n" ++ layOut { c with atLineStart := true } rest
  | .indent :: rest => layOut { c with level := c.level + 1 } rest
  | .dedent :: rest => layOut { c with level := c.level - 1 } rest
  | piece :: rest =>
    if piece.written.isEmpty then layOut c rest
    else c.margin ++ piece.written ++ layOut { c with atLineStart := false } rest

/-- The parameters of some pieces; one with a name that occurred before is left out. -/
def parametersOf (known : List CommandParameter) : List Piece → List CommandParameter
  | [] => known
  | .parameter p :: rest =>
    if known.any (·.name == p.name) then parametersOf known rest
    else parametersOf (known ++ [p]) rest
  | _ :: rest => parametersOf known rest

/-- The command that some pieces make. -/
def Command.ofPieces (pieces : List Piece) : Command :=
  ⟨layOut ⟨0, false⟩ pieces, parametersOf [] pieces⟩

end QueryPipeline.Sql
