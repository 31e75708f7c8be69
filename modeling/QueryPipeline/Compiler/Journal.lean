import QueryPipeline.Compiler.Basic

/-!
# The journal of a compilation

What a compiler does can be written down: the pipeline it is given, the operators it reaches, expressions
without an equivalent, the shaped query, the statement, and that it gave up. The events of a compilation
follow from its outcome, and a journal collects events with the stage in which they happened.
-/

set_option autoImplicit false

namespace QueryPipeline

/-- The stages of a compilation. -/
inductive Stage where
  | lowering
  | finishing
  | rendering
deriving DecidableEq, Repr

namespace Stage

/-- The name of a stage. -/
def name : Stage → String
  | lowering => "Translate"
  | finishing => "Finalize"
  | rendering => "Generate"

/-- The stage with a name. -/
def ofName? (name : String) : Option Stage :=
  [lowering, finishing, rendering].find? (·.name == name)

end Stage

/-- How much a message matters. -/
inductive Level where
  | debug
  | trace
deriving DecidableEq, Repr

/-- The name of a level. -/
def Level.name : Level → String
  | .debug => "DEBUG"
  | .trace => "TRACE"

/-- A remark of a part of the compiler. -/
structure Message where
  level : Level
  /-- The part of the compiler that makes the remark. -/
  source : String
  /-- What is remarked; that a diagnostic was issued has no words of its own. -/
  text : Option String
deriving DecidableEq, Repr

namespace Message

/-- An operator is reached. -/
def reached (op : Operator) : Message :=
  ⟨.debug, "pipesql::translate", some ("translating " ++ op.name)⟩

/-- An expression has no equivalent in SQL. -/
def withoutEquivalent (e : Expr) : Message :=
  ⟨.trace, "pipesql::translate::sql_translator", some ("no translation for " ++ e.display)⟩

/-- A diagnostic is issued. -/
def issued : Message := ⟨.debug, "pipesql::error_message", none⟩

end Message

/-- What a journal keeps. -/
inductive Record where
  | query (q : Query)
  | shaped (q : ShapedQuery)
  | statement (sql : String)
  | message (m : Message)

/-- Something that happens during a compilation. -/
inductive Event where
  /-- A stage begins. -/
  | stage (s : Stage)
  | record (r : Record)

namespace Event

/-- A remark is made. -/
def remark (m : Message) : Event := record (.message m)

/-- The event is recorded where messages of the level of traces are, or not. -/
def isKept (traces : Bool) : Event → Bool
  | record (.message m) => traces || m.level = .debug
  | _ => true

end Event

namespace Compiler

/-- What happens while a pipeline becomes a shaped query. -/
def loweringEvents (c : Compiler) (q : Query) : List Event :=
  .stage .lowering :: .record (.query q)
    :: (c.environment.reachedOperators q).map (fun op => .remark (.reached op))
    ++ match c.environment.lower q with
      | .ok shaped => [.stage .finishing, .record (.shaped shaped)]
      | .error refusal =>
        (refusal.withoutEquivalent.toList.map fun e => .remark (.withoutEquivalent e))
          ++ [.remark .issued]

/-- What happens while a shaped query becomes a command. -/
def renderingEvents (c : Compiler) (formatter : Formatter) (shaped : ShapedQuery) : List Event :=
  [.stage .rendering, match c.generate formatter shaped with
    | .ok command => .record (.statement command.sql)
    | .error _ => .remark .issued]

/-- What happens while a pipeline becomes a command. -/
def events (c : Compiler) (formatter : Formatter) (q : Query) : List Event :=
  c.loweringEvents q ++ match c.lower q with
    | .ok shaped => c.renderingEvents formatter shaped
    | .error _ => []

end Compiler

/-- A record and the stage in which it was made. -/
structure Entry where
  stage : Stage
  record : Record

/-- The records of one or more compilations. -/
structure Journal where
  entries : List Entry
  /-- The stage that has begun last. -/
  stage : Stage

namespace Journal

/-- The journal before anything happens. -/
def start : Journal := ⟨[], .lowering⟩

/-- The journal after an event. -/
def add (j : Journal) : Event → Journal
  | .stage s => { j with stage := s }
  | .record r => { j with entries := j.entries ++ [⟨j.stage, r⟩] }

/-- The journal after some events; traces are only kept if asked for. -/
def addAll (j : Journal) (traces : Bool) (events : List Event) : Journal :=
  (events.filter (·.isKept traces)).foldl add j

end Journal

end QueryPipeline
