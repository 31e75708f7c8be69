import QueryPipeline.Sql.Dialect

/-!
# Arguments

The arguments of the command line. A switch has a long name and perhaps a letter; its value stands after it,
or is attached to it, and must not look like a switch itself. After two dashes nothing is a switch any more.
Switches that are not given may have a value in an environment variable.
-/

set_option autoImplicit false

namespace QueryPipeline.CommandLine

/-- Why the arguments are not a command. -/
inductive Stop where
  /-- The author asked for help. -/
  | help
  /-- The author asked for the version. -/
  | version
  /-- The arguments cannot be understood. -/
  | invalid
deriving DecidableEq, Repr

/-- What a switch is given together with. -/
inductive SwitchValue where
  | none
  | text
  /-- The name of a file, which is not empty. -/
  | path
deriving DecidableEq, Repr

/-- A switch that a command knows. -/
structure Switch where
  long : String
  short : Option Char
  value : SwitchValue
  /-- The variable that holds the value when the switch is not given. -/
  fallback? : Option String
deriving DecidableEq, Repr

namespace Switch

/-- The file with the entity model. -/
def model : Switch := ⟨"model", some 'm', .path, some "PIPESQL_MODEL"⟩

/-- The name of the dialect. -/
def dialect : Switch := ⟨"dialect", some 'd', .text, some "PIPESQL_DIALECT"⟩

/-- The name of a way of quoting. -/
def quoting : Switch := ⟨"quoting", none, .text, none⟩

/-- The file that the journal is written to. -/
def debugLog : Switch := ⟨"debug-log", none, .path, some "PIPESQL_DEBUG_LOG"⟩

/-- No comment that names the compiler. -/
def hideSignature : Switch := ⟨"hide-signature-comment", none, .none, none⟩

/-- The statement stays as it is written. -/
def noFormat : Switch := ⟨"no-format", none, .none, none⟩

/-- The command with its parameters is printed, and not just the statement. -/
def json : Switch := ⟨"json", none, .none, none⟩

/-- The switches of every command that reads a pipeline. -/
def forInput : List Switch := [model, dialect, quoting]

/-- The switches of the command that compiles. -/
def forCompile : List Switch := forInput ++ [debugLog, hideSignature, noFormat, json]

/-- The value is one that the switch can have. -/
def accepts (s : Switch) (value : String) : Bool :=
  s.value = .text || (s.value = .path && !value.isEmpty)

end Switch

/-- What has been given so far: the switches by their long names, and the file with the pipeline. -/
structure Given where
  values : List (String × String)
  file : Option String
deriving DecidableEq, Repr

namespace Given

/-- Nothing has been given. -/
def nothing : Given := ⟨[], none⟩

/-- The value of a switch. -/
def value? (g : Given) (s : Switch) : Option String := g.values.lookup s.long

/-- The switch has been given. -/
def has (g : Given) (s : Switch) : Bool := (g.value? s).isSome

/-- A switch with a value is given; no switch may be given twice. -/
def add (g : Given) (s : Switch) (value : String) : Except Stop Given :=
  if g.has s || !s.accepts value then .error .invalid
  else .ok { g with values := g.values ++ [(s.long, value)] }

/-- A switch without a value is given. -/
def raise (g : Given) (s : Switch) : Except Stop Given :=
  if g.has s then .error .invalid else .ok { g with values := g.values ++ [(s.long, "")] }

/-- The file with the pipeline is given; there can only be one. -/
def addFile (g : Given) (name : String) : Except Stop Given :=
  if g.file.isSome || name.isEmpty then .error .invalid else .ok { g with file := some name }

end Given

/-- An argument by its form. -/
inductive Argument where
  /-- Two dashes alone. -/
  | separator
  /-- Two dashes and a name, perhaps with a value after an equals sign. -/
  | long (name : String) (attached : Option String)
  /-- A dash and letters. -/
  | short (letters : List Char)
  | plain (text : String)
deriving DecidableEq, Repr

/-- The form of an argument. A dash alone is a plain argument. -/
def Argument.of (text : String) : Argument :=
  match text.toList with
  | ['-', '-'] => .separator
  | '-' :: '-' :: rest =>
    let name := rest.takeWhile (· != '=')
    match rest.drop name.length with
    | [] => .long (String.ofList name) none
    | _ :: value => .long (String.ofList name) (some (String.ofList value))
  | '-' :: c :: rest => .short (c :: rest)
  | _ => .plain text

/-- Letters after one dash. The first one decides: a switch with a value takes the letters that follow it,
without an equals sign, as its value. The answer is a switch with its value, if it is there. -/
def readLetters (switches : List Switch) : List Char → Except Stop (Switch × Option String)
  | [] => .error .invalid
  | c :: rest =>
    if c = 'h' then .error .help
    else match switches.find? (·.short == some c) with
      | none => .error .invalid
      | some s =>
        match rest with
        | [] => .ok (s, none)
        | '=' :: value => .ok (s, some (String.ofList value))
        | value => .ok (s, some (String.ofList value))

/-- A name after two dashes. -/
def readName (switches : List Switch) (name : String) (attached : Option String) :
    Except Stop (Switch × Option String) :=
  if name = "help" then .error (if attached.isSome then .invalid else .help)
  else match switches.find? (·.long == name) with
    | none => .error .invalid
    | some s => .ok (s, attached)

/-- What has been given once all arguments that are left are files. -/
def readFiles (g : Given) : List String → Except Stop Given
  | [] => .ok g
  | name :: rest => do readFiles (← g.addFile name) rest

/-- What has been given after a switch, and the switch if it still waits for its value. -/
def Given.start (g : Given) (s : Switch) (attached : Option String) :
    Except Stop (Given × Option Switch) :=
  match s.value, attached with
  | .none, some _ => .error .invalid
  | .none, none => do return (← g.raise s, none)
  | _, some value => do return (← g.add s value, none)
  | _, none => .ok (g, some s)

/-- What has been given once all arguments are read; a switch may wait for its value. -/
def readArguments (switches : List Switch) (g : Given) (waiting : Option Switch) :
    List String → Except Stop Given
  | [] => if waiting.isSome then .error .invalid else .ok g
  | text :: rest =>
    match Argument.of text, waiting with
    | .plain value, some s => do readArguments switches (← g.add s value) none rest
    | _, some _ => .error .invalid
    | .separator, none => readFiles g rest
    | .plain name, none => do readArguments switches (← g.addFile name) none rest
    | .long name attached, none => do
      let (s, value) ← readName switches name attached
      let (g, waiting) ← g.start s value
      readArguments switches g waiting rest
    | .short letters, none => do
      let (s, value) ← readLetters switches letters
      let (g, waiting) ← g.start s value
      readArguments switches g waiting rest

/-- The environment variables, by their names. -/
abbrev Variables := String → Option String

/-- What has been given, with the values of variables for the switches that have not. -/
def readVariables (environment : Variables) (g : Given) : List Switch → Except Stop Given
  | [] => .ok g
  | s :: rest => do
    let g ← match g.has s, s.fallback?.bind environment with
      | false, some value => g.add s value
      | _, _ => pure g
    readVariables environment g rest

/-- Where a pipeline and its model come from and what it is compiled for. -/
structure Input where
  /-- The file with the pipeline; a dash is the standard input. -/
  file : String
  model : String
  dialect : String
  quoting : String
deriving DecidableEq, Repr

/-- The input that was given. There has to be a model. -/
def Input.ofGiven (g : Given) : Except Stop Input :=
  match g.value? .model with
  | none => .error .invalid
  | some model =>
    .ok ⟨g.file.getD "-", model, (g.value? .dialect).getD Sql.Dialect.generic.name,
      (g.value? .quoting).getD "when_needed"⟩

/-- How a pipeline is compiled and what is printed. -/
structure CompileChoices where
  signatureComment : Bool
  format : Bool
  json : Bool
  debugLog : Option String
deriving DecidableEq, Repr

/-- What the program is asked to do. -/
inductive Invocation where
  /-- Print the statement of a pipeline. -/
  | compile (input : Input) (choices : CompileChoices)
  /-- Print the shaped query of a pipeline. -/
  | shaped (input : Input)
  /-- Print the journal of a compilation. -/
  | log (input : Input)
  /-- Print the names of the dialects. -/
  | listDialects
deriving DecidableEq, Repr

/-- What is given in arguments and variables for some switches. -/
def readGiven (environment : Variables) (switches : List Switch) (arguments : List String) :
    Except Stop Given := do
  readVariables environment (← readArguments switches .nothing none arguments) switches

/-- The command that compiles. -/
def readCompile (environment : Variables) (arguments : List String) : Except Stop Invocation := do
  let g ← readGiven environment Switch.forCompile arguments
  let input ← Input.ofGiven g
  return .compile input ⟨!g.has .hideSignature, !g.has .noFormat, g.has .json, g.value? .debugLog⟩

/-- A command that only reads a pipeline. -/
def readInput (environment : Variables) (arguments : List String) : Except Stop Input := do
  Input.ofGiven (← readGiven environment Switch.forInput arguments)

/-- The command that lists the dialects takes nothing. -/
def readList : List String → Except Stop Invocation
  | [] => .ok .listDialects
  | text :: rest =>
    match Argument.of text with
    | .separator => if rest.isEmpty then .ok .listDialects else .error .invalid
    | .long "help" none => .error .help
    | .short ('h' :: _) => .error .help
    | _ => .error .invalid

/-- Help about one of some commands, or about all of them. -/
def readHelp (commands : List String) : List String → Stop
  | [] => .help
  | name :: _ => if commands.contains name then .help else .invalid

/-- The commands for debugging. -/
def readDebug (environment : Variables) : List String → Except Stop Invocation
  | [] => .error .invalid
  | text :: rest =>
    match Argument.of text with
    | .plain "shaped" => do return .shaped (← readInput environment rest)
    | .plain "log" => do return .log (← readInput environment rest)
    | .plain "help" => .error (readHelp ["shaped", "log", "help"] rest)
    | .long "help" none => .error .help
    | .short ('h' :: _) => .error .help
    | _ => .error .invalid

/-- The command that the arguments of the program ask for. -/
def Invocation.read (environment : Variables) : List String → Except Stop Invocation
  | [] => .error .invalid
  | text :: rest =>
    match Argument.of text with
    | .plain "compile" => readCompile environment rest
    | .plain "debug" => readDebug environment rest
    | .plain "list-dialects" => readList rest
    | .plain "help" => .error (readHelp ["compile", "debug", "list-dialects", "help"] rest)
    | .long "help" none => .error .help
    | .long "version" none => .error .version
    | .short ('h' :: _) => .error .help
    | .short ('V' :: _) => .error .version
    | _ => .error .invalid

end QueryPipeline.CommandLine
