/-!
# Dialects

The databases that statements are written for, and what they differ in: how a number of rows is
limited, how names are quoted, how texts are joined, and whether truth values are values.
-/

set_option autoImplicit false

namespace QueryPipeline.Sql

/-- A database language. -/
inductive Dialect where
  | generic
  | msSql
  | postgres
  | sqlite
deriving DecidableEq, Repr, Inhabited

/-- How limit and offset are written. -/
inductive Pagination where
  /-- `TOP(n)` without an offset, `OFFSET .. FETCH NEXT` with one. -/
  | top
  /-- `FETCH FIRST n ROWS ONLY` without an offset, `OFFSET .. FETCH NEXT` with one. -/
  | fetch
  /-- `LIMIT m OFFSET n`. -/
  | limitOffset
deriving DecidableEq, Repr

/-- The name of a way to write limit and offset. -/
def Pagination.name : Pagination → String
  | .top => "Top"
  | .fetch => "Fetch"
  | .limitOffset => "LimitOffset"

namespace Dialect

/-- All dialects. -/
def all : List Dialect := [generic, msSql, postgres, sqlite]

/-- The name by which a dialect is chosen. -/
def name : Dialect → String
  | generic => "generic"
  | msSql => "mssql"
  | postgres => "postgres"
  | sqlite => "sqlite"

/-- The name of a dialect in an interchange text. -/
def tag : Dialect → String
  | generic => "Generic"
  | msSql => "MsSql"
  | postgres => "Postgres"
  | sqlite => "SQLite"

/-- The dialect with a name. -/
def ofName? (name : String) : Option Dialect := all.find? (·.name == name)

/-- How a dialect writes limit and offset. -/
def pagination : Dialect → Pagination
  | generic => .fetch
  | msSql => .top
  | postgres | sqlite => .limitOffset

/-- The characters that open and close a quoted name. -/
def quotes : Dialect → Char × Char
  | msSql => ('[', ']')
  | _ => ('"', '"')

/-- The character before the name of a parameter. -/
def parameterMark (_ : Dialect) : Char := '@'

/-- Conditions may stand where values are expected, and boolean values where conditions are. -/
def hasBooleanValues : Dialect → Bool
  | generic | postgres => true
  | msSql | sqlite => false

/-- The operator that joins two texts. -/
def joinOperator : Dialect → String
  | msSql => "+"
  | _ => "||"

/-- The function that counts rows in 64 bits. -/
def longCountFunction : Dialect → String
  | msSql => "COUNT_BIG"
  | _ => "COUNT"

/-- The limit that means all rows, where an offset cannot stand without a limit. -/
def unlimited? : Dialect → Option String
  | sqlite => some "-1"
  | _ => none

end Dialect

end QueryPipeline.Sql
