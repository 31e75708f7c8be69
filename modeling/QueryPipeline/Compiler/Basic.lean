import QueryPipeline.Compiler.Options
import QueryPipeline.Functions.BuiltIn
import QueryPipeline.Lowering.Operators
import QueryPipeline.Sql.Rendering

/-!
# The compiler

A compiler knows a model and the choices of the author. It turns a pipeline into a shaped query and the
select of a shaped query into a command. The statement of a command may be laid out anew by a formatter, which
is no part of the compiler, and may end with a comment that names the compiler.
-/

set_option autoImplicit false

namespace QueryPipeline

open Sql

/-- The version of the compiler. -/
def version : String := "0.3.0"

/-- The comment at the end of a statement, after an empty line. -/
def signature : String := "\n\n-- Generated by pipesql " ++ version ++ "\n"

/-- What lays statements out anew: it makes of a statement the text that is returned instead. -/
abbrev Formatter := String → String

/-- What pipelines are compiled with. -/
structure Compiler where
  options : Options
  environment : Environment

namespace Compiler

/-- The compiler for a model, with the functions of the dialect that was chosen. -/
def new (model : Model) (options : Options) : Compiler :=
  ⟨options, ⟨model, options.dialect, options.dialect.catalog, .ofDialect options.dialect⟩⟩

/-- The compiler with one more provider of functions. -/
def withFunction (c : Compiler) (provider : FunctionProvider) : Compiler :=
  { c with environment.functions := c.environment.functions.register provider }

/-- A pipeline as a shaped query. -/
def lower (c : Compiler) (q : Query) : Except Diagnostic ShapedQuery :=
  match c.environment.lower q with
  | .ok shaped => .ok shaped
  | .error refusal => .error refusal.diagnostic

/-- A command with its statement laid out anew, if this was asked for. -/
def format (c : Compiler) (formatter : Formatter) (command : Command) : Command :=
  if c.options.format then { command with sql := formatter command.sql } else command

/-- A command with the comment that names the compiler, if it was asked for. -/
def sign (c : Compiler) (command : Command) : Command :=
  if c.options.signatureComment then { command with sql := command.sql ++ signature } else command

/-- A shaped query as a command. -/
def generate (c : Compiler) (formatter : Formatter) (shaped : ShapedQuery) : Except Diagnostic Command := do
  return c.sign (c.format formatter (← shaped.select.toCommand c.options.nameStyle))

/-- A pipeline as a command. -/
def compile (c : Compiler) (formatter : Formatter) (q : Query) : Except Diagnostic Command := do
  c.generate formatter (← c.lower q)

end Compiler

end QueryPipeline
