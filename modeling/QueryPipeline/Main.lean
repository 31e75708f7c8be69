import QueryPipeline.CommandLine.Run

/-!
# The program

The outer layer: it finds the files and variables that a command asks for, runs the command, and prints and
writes what it leaves behind. Statements keep the lines in which they are written.
-/

set_option autoImplicit false

namespace QueryPipeline.CommandLine

/-- The message for a file that does not exist. -/
def noSuchFile : String := "No such file or directory (os error 2)"

/-- The files that an input is read from. -/
def Input.files (input : Input) : List String :=
  if input.file = "-" then [input.model] else [input.file, input.model]

/-- The files that a command reads. -/
def Invocation.files : Invocation → List String
  | listDialects => []
  | compile input _ | shaped input | log input => input.files

/-- The command reads its pipeline from the standard input. -/
def Invocation.readsStdin : Invocation → Bool
  | listDialects => false
  | compile input _ | shaped input | log input => input.file = "-"

/-- The text of a file, or why it cannot be read. -/
def readFile (name : String) : IO (Except String String) := do
  try return .ok (← IO.FS.readFile name)
  catch _ => return .error noSuchFile

/-- The variables that switches are read from. -/
def findVariables : IO Variables := do
  let found ← (Switch.forCompile.filterMap (·.fallback?)).mapM fun name => do
    return (name, ← IO.getEnv name)
  return fun name => (found.lookup name).join

/-- Runs a command whose arguments have been understood. -/
def execute (environment : Variables) (invocation : Invocation) : IO Outcome := do
  let stdin ← if invocation.readsStdin then (← IO.getStdin).readToEnd else pure ""
  let files ← invocation.files.mapM fun name => do return (name, ← readFile name)
  let read (name : String) : Except String String :=
    (files.lookup name).getD (.error noSuchFile)
  return invocation.run ⟨environment, stdin, read, fun _ => none, id⟩

/-- Prints an outcome and writes its file. -/
def report (o : Outcome) : IO UInt32 := do
  let o ← match o.written with
    | none => pure o
    | some (name, text) =>
      try
        IO.FS.writeFile name text
        pure o
      catch _ => pure (.failure noSuchFile)
  IO.print o.stdout
  IO.eprint o.stderr
  return o.code.toUInt32

end QueryPipeline.CommandLine

/-- The program. -/
def main (args : List String) : IO UInt32 := do
  let environment ← QueryPipeline.CommandLine.findVariables
  match QueryPipeline.CommandLine.Invocation.read environment args with
  | .ok invocation =>
    QueryPipeline.CommandLine.report (← QueryPipeline.CommandLine.execute environment invocation)
  | .error stop => QueryPipeline.CommandLine.report stop.outcome
