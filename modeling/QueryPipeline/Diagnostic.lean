/-!
# Diagnostics

What the compiler tells the author of a pipeline when it cannot go on: the cause, hints how to mend
it, and for some causes a code that programs can recognise.
-/

set_option autoImplicit false

namespace QueryPipeline

/-- Why the compiler cannot go on. -/
inductive Cause where
  /-- A cause that is told in its own words. -/
  | simple (text : String)
  | expected (who : Option String) (wanted found : String)
  | notFound (name space : String)
  /-- An operator that no statement expresses. -/
  | unsupported (operator : String)
  /-- An expression without an equivalent in SQL; `what` is its part in the pipeline. -/
  | noEquivalent (what expr : String)
  /-- A function with arguments that it cannot take. -/
  | usage (function message : String)
  /-- A broken promise inside of the compiler. -/
  | bug (details : Option String)
deriving DecidableEq, Repr

/-- The name of a sort of cause. -/
def Cause.name : Cause → String
  | .simple _ => "Simple"
  | .expected .. => "Expected"
  | .notFound .. => "NotFound"
  | .unsupported _ => "Unsupported"
  | .noEquivalent .. => "Untranslatable"
  | .usage .. => "Usage"
  | .bug _ => "Bug"

/-- The words for a cause. -/
def Cause.message : Cause → String
  | .simple text => text
  | .expected who wanted found =>
    (match who with | some who => who ++ " " | none => "")
      ++ "expected " ++ wanted ++ ", but found " ++ found
  | .notFound name space => space ++ " `" ++ name ++ "` not found"
  | .unsupported operator => "operator `" ++ operator ++ "` is not implemented"
  | .noEquivalent what expr => what ++ " `" ++ expr ++ "` could not be translated to SQL"
  | .usage function message => "invalid call to `" ++ function ++ "`: " ++ message
  | .bug details =>
    "internal compiler error" ++ (match details with | some details => "; " ++ details | none => "")

/-- A cause with hints and perhaps a code. -/
structure Diagnostic where
  cause : Cause
  hints : List String
  code : Option String
deriving DecidableEq, Repr

namespace Diagnostic

/-- A cause without hints or code. -/
def of (cause : Cause) : Diagnostic := ⟨cause, [], none⟩

/-- The code of an operator that no statement expresses. -/
def unsupportedCode : String := "E0001"

/-- The code of an expression without an equivalent in SQL. -/
def noEquivalentCode : String := "E0002"

/-- The code of a function with arguments that it cannot take. -/
def usageCode : String := "E0003"

/-- The code of a result that has to have a row and has none. -/
def noElementsCode : String := "E0004"

/-- A cause that is told in its own words. -/
def simple (text : String) : Diagnostic := of (.simple text)

/-- Something that is not there. -/
def notFound (name space : String) : Diagnostic := of (.notFound name space)

/-- An operator that no statement expresses. -/
def unsupported (operator : String) : Diagnostic := ⟨.unsupported operator, [], some unsupportedCode⟩

/-- An expression without an equivalent in SQL. -/
def noEquivalent (what expr : String) : Diagnostic :=
  ⟨.noEquivalent what expr, [], some noEquivalentCode⟩

/-- A function with arguments that it cannot take. -/
def usage (function message : String) : Diagnostic :=
  ⟨.usage function message, [], some usageCode⟩

/-- A broken promise inside of the compiler. -/
def bug (details : String) : Diagnostic := of (.bug (some details))

/-- A result that has to have a row and has none. -/
def noElements : Diagnostic :=
  ⟨.simple "Sequence contains no elements", [], some noElementsCode⟩

/-- The diagnostic with one more hint. -/
def withHint (d : Diagnostic) (hint : String) : Diagnostic := { d with hints := d.hints ++ [hint] }

/-- The code in brackets and a blank, if there is a code. -/
def codeTag (d : Diagnostic) : String :=
  match d.code with
  | some code => "[" ++ code ++ "] "
  | none => ""

/-- The code and the words for the cause. -/
def display (d : Diagnostic) : String := d.codeTag ++ d.cause.message

/-- The diagnostic as it is reported: a line with the cause and a line for every hint. -/
def report (d : Diagnostic) : String :=
  d.codeTag ++ "Error: " ++ d.cause.message ++ "\n"
    ++ String.join (d.hints.map fun hint => "↳ Hint: " ++ hint ++ "\n")

end Diagnostic

/-- Several diagnostics as they are reported, one after the other. -/
def reportAll (ds : List Diagnostic) : String := String.join (ds.map Diagnostic.report)

/-- The code of the first diagnostic, if it has one. -/
def firstCode? (ds : List Diagnostic) : Option String := ds.head?.bind (·.code)

end QueryPipeline
