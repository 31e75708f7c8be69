import QueryPipeline.Sql.Identifier

/-!
# Options

What the author of a pipeline may choose: the database, which names are quoted, and how the statement looks.
-/

set_option autoImplicit false

namespace QueryPipeline

open Sql

/-- The choices for a compilation. -/
structure Options where
  /-- The statement is laid out anew after it is written. -/
  format : Bool
  dialect : Dialect
  /-- The statement ends with a comment that names the compiler. -/
  signatureComment : Bool
  quoting : Quoting
deriving DecidableEq, Repr

namespace Options

/-- The choices where none were made. -/
def standard : Options := ⟨true, .generic, true, .whenNeeded⟩

/-- How names are written. -/
def nameStyle (o : Options) : NameStyle := ⟨o.dialect, o.quoting⟩

end Options

end QueryPipeline
