import QueryPipeline.CommandLine.Arguments
import QueryPipeline.Interchange.Model
import QueryPipeline.Interchange.Outcome
import QueryPipeline.Json.Writer

/-!
# Running a command

What a command prints and writes, given the files and variables it finds. The pipeline is read before the
model, both are understood before the names of dialect and quoting are looked at, and a journal is written
even if the compilation fails.
-/

set_option autoImplicit false

namespace QueryPipeline.CommandLine

open Sql

/-- What a command finds when it runs. -/
structure Surroundings where
  environment : Variables
  stdin : String
  /-- The text of a file, or why it cannot be read. -/
  read : String → Except String String
  /-- Why a file cannot be written, if it cannot. -/
  obstacle? : String → Option String
  /-- How statements are laid out anew. -/
  formatter : Formatter

/-- What a command leaves behind. -/
structure Outcome where
  code : Nat
  stdout : String
  stderr : String
  /-- The file that is written, with its text. -/
  written : Option (String × String)
deriving DecidableEq, Repr

namespace Outcome

/-- The command succeeds and prints a text. -/
def success (stdout : String) : Outcome := ⟨0, stdout, "", none⟩

/-- The command fails with a message. -/
def failure (message : String) : Outcome := ⟨1, "", message ++ "\n", none⟩

/-- The arguments are not a command. -/
def misuse (message : String) : Outcome := ⟨2, "", message ++ "\n", none⟩

/-- The outcome with a file written. -/
def withFile (o : Outcome) (name text : String) : Outcome := { o with written := some (name, text) }

end Outcome

/-- How the program is used. -/
def usage : String :=
  "Usage: pipesql compile [OPTIONS] --model <MODEL> [PIPELINE]\n"
    ++ "       pipesql debug <shaped|log> [OPTIONS] --model <MODEL> [PIPELINE]\n"
    ++ "       pipesql list-dialects"

/-- The name and version of the program. -/
def nameAndVersion : String := "pipesql " ++ version

/-- What is done when the arguments are not a command. -/
def Stop.outcome : Stop → Outcome
  | help => .success (usage ++ "\n")
  | version => .success (nameAndVersion ++ "\n")
  | invalid => .misuse usage

/-- A pipeline, its model and the choices for it, as they were given. -/
structure Task where
  query : Query
  model : Model
  options : Options

/-- A diagnostic as the message of a failure. -/
def orMessage {α : Type} : Except Diagnostic α → Except String α
  | .ok a => .ok a
  | .error d => .error (reportAll [d])

/-- The value a text stands for, or a message. -/
def decodeOr {α : Type} (decoder : Json.Decoder α) (what text : String) : Except String α :=
  match Json.decode? decoder text with
  | some a => .ok a
  | none => .error (reportAll [.simple ("the text is not a " ++ what)])

/-- The dialect with a name. -/
def dialectOf (name : String) : Except String Dialect :=
  match Dialect.ofName? name with
  | some d => .ok d
  | none => .error ("unknown dialect `" ++ name ++ "`, expected one of: "
      ++ String.intercalate ", " (Dialect.all.map Dialect.name))

/-- The way of quoting with a name. -/
def quotingOf (name : String) : Except String Quoting :=
  match Quoting.ofName? name with
  | some q => .ok q
  | none => .error ("unknown quoting `" ++ name ++ "`")

/-- The text of the pipeline. -/
def Input.pipelineText (input : Input) (s : Surroundings) : Except String String :=
  if input.file = "-" then .ok s.stdin else s.read input.file

/-- The task that an input stands for. -/
def Input.task (input : Input) (s : Surroundings) : Except String Task := do
  let pipeline ← input.pipelineText s
  let model ← s.read input.model
  let query ← decodeOr Query.ofJson? "pipeline" pipeline
  let model ← decodeOr Model.ofJson? "model" model
  let dialect ← dialectOf input.dialect
  let quoting ← quotingOf input.quoting
  return ⟨query, model, { Options.standard with dialect, quoting }⟩

/-- The journal of the compilation of a task. -/
def Task.journal (s : Surroundings) (t : Task) : Journal :=
  Journal.start.addAll false ((Compiler.new t.model t.options).events s.formatter t.query)

/-- The extension of a file: what follows the last point of its name, unless the name begins with it. -/
def extension? (path : String) : Option String :=
  let name := (path.toList.reverse.takeWhile (· != '/')).reverse
  let after := (name.reverse.takeWhile (· != '.')).reverse
  if after.length + 1 < name.length && name != ['.', '.'] then some (String.ofList after) else none

/-- What is printed for a command. -/
def CompileChoices.print (choices : CompileChoices) (command : Command) : String :=
  if choices.json then command.toJson.text else command.sql ++ "\n"

/-- The outcome of a compilation, without its journal. -/
def compileOutcome (s : Surroundings) (t : Task) (choices : CompileChoices) : Outcome :=
  match (Compiler.new t.model t.options).compile s.formatter t.query with
  | .ok command => .success (choices.print command)
  | .error d => .failure (reportAll [d])

/-- Compiles a task; the journal is only written to a file of the interchange format. -/
def runCompile (s : Surroundings) (t : Task) (choices : CompileChoices) : Outcome :=
  let t := { t with options := { t.options with
    signatureComment := choices.signatureComment, format := choices.format } }
  match choices.debugLog with
  | none => compileOutcome s t choices
  | some path =>
    if extension? path != some "json" then
      .failure ("unknown debug log format for file " ++ Text.quoted path)
    else match s.obstacle? path with
      | some message => .failure message
      | none => (compileOutcome s t choices).withFile path (t.journal s).toJson.text

/-- The shaped query of a task. -/
def shapedText (t : Task) : Except String String := do
  let shaped ← orMessage ((Compiler.new t.model t.options).lower t.query)
  return shaped.toJson.prettyText

/-- An answer or a message as an outcome. -/
def outcomeOf : Except String Outcome → Outcome
  | .ok o => o
  | .error message => .failure message

/-- What a command leaves behind. -/
def Invocation.run (s : Surroundings) : Invocation → Outcome
  | listDialects => .success (String.join (Dialect.all.map fun d => d.name ++ "\n"))
  | compile input choices => outcomeOf do return runCompile s (← input.task s) choices
  | shaped input => outcomeOf do return .success (← shapedText (← input.task s))
  | log input => outcomeOf do return .success ((← input.task s).journal s).toJson.prettyText

/-- What the program leaves behind for some arguments. -/
def run (s : Surroundings) (arguments : List String) : Outcome :=
  match Invocation.read s.environment arguments with
  | .ok invocation => invocation.run s
  | .error stop => stop.outcome

end QueryPipeline.CommandLine
