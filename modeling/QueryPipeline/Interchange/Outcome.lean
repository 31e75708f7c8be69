import QueryPipeline.Compiler.Journal
import QueryPipeline.Interchange.Query
import QueryPipeline.Interchange.Statement
import QueryPipeline.Results

/-!
# Interchange of options and outcomes

The interchange forms of the choices of an author and of all that comes out of a compilation: shaped
queries, results, diagnostics and journals.
-/

set_option autoImplicit false

namespace QueryPipeline

open Json (Decoder)
open Sql

/-- The interchange form of options. -/
def Options.toJson (o : Options) : Json :=
  .object [("format", .bool o.format), ("dialect", .string o.dialect.tag),
    ("signature_comment", .bool o.signatureComment), ("quoting", .string o.quoting.tag)]

/-- Reads options. -/
def Options.ofJson? : Decoder Options := fun j => do
  let r ← j.toRecord? ["format", "dialect", "signature_comment", "quoting"]
  return ⟨← r.required? "format" Json.toBool?,
    ← r.required? "dialect" (Json.toBareCase? (Dialect.all.map fun d => (d.tag, d))),
    ← r.required? "signature_comment" Json.toBool?,
    ← r.required? "quoting" (Json.toBareCase? (Quoting.all.map fun q => (q.tag, q)))⟩

/-- The interchange form of a cardinality. -/
def Cardinality.toJson (c : Cardinality) : Json := .string c.name

/-- Reads a cardinality. -/
def Cardinality.ofJson? : Decoder Cardinality :=
  Json.toBareCase? (Cardinality.all.map fun c => (c.name, c))

/-- The interchange form of a shaped query. -/
def ShapedQuery.toJson (q : ShapedQuery) : Json :=
  .object [("select", q.select.toJson), ("shaper", q.shaper.toJson),
    ("cardinality", q.cardinality.toJson)]

mutual

/-- The interchange form of a value. -/
def Value.toJson : Value → Json
  | .scalar value => Json.case "Scalar" value.toJson
  | .object members => Json.case "Object" (.array (membersToJson members))

/-- The interchange forms of the members of a value. -/
def membersToJson : List (String × Value) → List Json
  | [] => []
  | (name, value) :: rest => .array [.string name, value.toJson] :: membersToJson rest

end

/-- The interchange form of results. -/
def QueryResult.toJson : QueryResult → Json
  | .sequence values => Json.case "Sequence" (Json.ofList Value.toJson values)
  | .single value => Json.case "Single" value.toJson
  | .singleOrDefault value => Json.case "SingleOrDefault" (Json.ofOption Value.toJson value)

/-- The interchange form of a diagnostic. -/
def Diagnostic.toJson (d : Diagnostic) : Json :=
  .object [("kind", .string "Error"), ("code", Json.ofOption Json.string d.code),
    ("reason", .string d.cause.message), ("hints", Json.ofStrings d.hints)]

/-- The interchange form of the diagnostics of a compilation. -/
def diagnosticsToJson (ds : List Diagnostic) : Json :=
  .object [("inner", Json.ofList Diagnostic.toJson ds)]

/-- The interchange form of a record. -/
def Record.toJson : Record → Json
  | .query q => Json.case "ReprQuery" q.toJson
  | .shaped q => Json.case "ReprShaped" q.toJson
  | .statement sql => Json.case "ReprSql" (.string sql)
  | .message m => Json.case "Message" (.object [("level", .string m.level.name),
      ("module_path", .string m.source), ("text", Json.ofOption Json.string m.text)])

/-- The interchange form of a journal. -/
def Journal.toJson (j : Journal) : Json :=
  .object [("version", .string version), ("entries", Json.ofList (fun e : Entry =>
    .object [("stage", .string e.stage.name), ("kind", e.record.toJson)]) j.entries)]

end QueryPipeline
