import QueryPipeline.DataType
import QueryPipeline.Diagnostic
import QueryPipeline.Number.Power
import QueryPipeline.Sql.Dialect
import QueryPipeline.Text.Blank

/-!
# Store types

How values of a kind are stored in a database and written as literals of a statement. The catalog of a
dialect maps every kind that a column can have to a store type; entities and shapes have none.
-/

set_option autoImplicit false

namespace QueryPipeline.Sql

/-- How values are written as literals. -/
inductive LiteralStyle where
  | number
  /-- Between single quotes, after an `N` when the text is national. -/
  | text (national : Bool)
  /-- `CAST(1 AS bit)`. -/
  | bitCast
  /-- `1` and `0`. -/
  | bitInteger
  /-- `TRUE` and `FALSE`. -/
  | boolKeyword
  | date (pattern : Calendar.Pattern)
  | dateTime (pattern : Calendar.Pattern)
  /-- `0x0102`. -/
  | hexBytes
  /-- `X'0102'`. -/
  | quotedHexBytes
  /-- `'\x0102'`. -/
  | escapedHexBytes
  /-- There are no literals; values have to be bound as parameters. -/
  | unsupported
deriving DecidableEq, Repr

/-- How values of a kind are stored. -/
structure TypeMapping where
  /-- The name of the type in the database. -/
  storeType : String
  kind : DataKind
  literal : LiteralStyle
  /-- The length of the store type, if it has one. -/
  size : Option Nat
deriving DecidableEq, Repr

/-- The part of a list before the first separator and the part after it. -/
def splitOnce? (separator : Char) (cs : List Char) : Option (List Char × List Char) :=
  let before := cs.takeWhile (· != separator)
  match cs.drop before.length with
  | [] => none
  | _ :: rest => some (before, rest)

/-- The value of decimal digits, which may have a plus sign before them, below 2³². -/
def sizeValue? (cs : List Char) : Option Nat :=
  let digits := match cs with
    | '+' :: rest => rest
    | _ => cs
  if digits.isEmpty || !digits.all Char.isDigit then none
  else
    let value := digits.foldl (fun n c => 10 * n + (c.toNat - '0'.toNat)) 0
    if value < twoTo 32 then some value else none

/-- The length that a store type has between its parentheses. -/
def sizeOfStoreType? (storeType : String) : Option Nat := do
  let (_, rest) ← splitOnce? '(' storeType.toList
  let (size, _) ← splitOnce? ')' rest
  sizeValue? (Text.trim (String.ofList size)).toList

namespace TypeMapping

/-- The mapping onto another store type. -/
def withStoreType (m : TypeMapping) (storeType : String) : TypeMapping :=
  { m with storeType, size := sizeOfStoreType? storeType }

/-- The mapping of a kind onto a store type. -/
def of (storeType : String) (kind : DataKind) (literal : LiteralStyle) : TypeMapping :=
  ⟨storeType, kind, literal, sizeOfStoreType? storeType⟩

end TypeMapping

/-- A text between single quotes, with the quotes inside of it written twice. -/
def quoteText (national : Bool) (s : String) : String :=
  let escaped := s.toList.flatMap fun c => if c = '\'' then ['\'', '\''] else [c]
  (if national then "N'" else "'") ++ String.ofList escaped ++ "'"

/-- The hexadecimal digits of some bytes. -/
def hexBytes (bs : List UInt8) : String := String.join (bs.map Text.hexByte)

/-- The digit of a truth value. -/
def bit (b : Bool) : String := if b then "1" else "0"

/-- A value as a literal in a style, if the style has one for it. -/
def LiteralStyle.write? : LiteralStyle → Literal → Option String
  | number, .integer i => some (toString i.toInt)
  | number, .float x => if x.isFinite then some (Number.messageStyle.write x) else none
  | number, .decimal digits => some digits
  | number, .boolean b => some (bit b)
  | text national, .text s => some (quoteText national s)
  | text national, .char c => some (quoteText national (String.singleton c))
  | bitCast, .boolean b => some ("CAST(" ++ bit b ++ " AS bit)")
  | bitInteger, .boolean b => some (bit b)
  | boolKeyword, .boolean b => some (if b then "TRUE" else "FALSE")
  | date pattern, .date d => some ("'" ++ pattern.write d .midnight ++ "'")
  | dateTime pattern, .dateTime t => some ("'" ++ pattern.write t.date t.time ++ "'")
  | dateTime pattern, .date d => some ("'" ++ pattern.write d .midnight ++ "'")
  | hexBytes, .bytes bs => some ("0x" ++ Sql.hexBytes bs)
  | quotedHexBytes, .bytes bs => some ("X'" ++ Sql.hexBytes bs ++ "'")
  | escapedHexBytes, .bytes bs => some ("'\\x" ++ Sql.hexBytes bs ++ "'")
  | _, _ => none

/-- A value as a literal of a store type. The absence of a value is written the same for all types. -/
def TypeMapping.write (m : TypeMapping) (value : Literal) : Except Diagnostic String :=
  if value.isNull then .ok "NULL"
  else match m.literal.write? value with
    | some text => .ok text
    | none => .error (.simple
        ("cannot write " ++ value.display ++ " as a literal of type " ++ m.storeType))

/-- The store types of the kinds, as far as they have one. -/
structure Catalog where
  mapping? : DataKind → Option TypeMapping

/-- A store type and its literals for a kind on SQL Server. -/
def msSqlStore? : DataKind → Option (String × LiteralStyle)
  | .bool => some ("bit", .bitCast)
  | .int16 => some ("smallint", .number)
  | .int32 => some ("int", .number)
  | .int64 => some ("bigint", .number)
  | .float32 => some ("real", .number)
  | .float64 => some ("float", .number)
  | .decimal => some ("decimal(18,2)", .number)
  | .text => some ("nvarchar(max)", .text true)
  | .char => some ("nchar(1)", .text true)
  | .date => some ("date", .date Calendar.dashedDate)
  | .dateTime => some ("datetime2", .dateTime Calendar.millisecondPrecision)
  | .bytes => some ("varbinary(max)", .hexBytes)
  | .geometry | .point | .lineString | .geometryCollection => some ("geometry", .unsupported)
  | .entity _ | .anonymous => none

/-- A store type and its literals for a kind on SQLite. -/
def sqliteStore? : DataKind → Option (String × LiteralStyle)
  | .bool => some ("INTEGER", .bitInteger)
  | .int16 | .int32 | .int64 => some ("INTEGER", .number)
  | .float32 | .float64 => some ("REAL", .number)
  | .decimal => some ("TEXT", .number)
  | .text | .char => some ("TEXT", .text false)
  | .date => some ("TEXT", .date Calendar.dashedDate)
  | .dateTime => some ("TEXT", .dateTime Calendar.blankSeparated)
  | .bytes => some ("BLOB", .quotedHexBytes)
  | .geometry => some ("GEOMETRY", .unsupported)
  | .point => some ("POINT", .unsupported)
  | .lineString => some ("LINESTRING", .unsupported)
  | .geometryCollection => some ("GEOMETRYCOLLECTION", .unsupported)
  | .entity _ | .anonymous => none

/-- A store type and its literals for a kind on PostgreSQL. -/
def postgresStore? : DataKind → Option (String × LiteralStyle)
  | .bool => some ("boolean", .boolKeyword)
  | .int16 => some ("smallint", .number)
  | .int32 => some ("integer", .number)
  | .int64 => some ("bigint", .number)
  | .float32 => some ("real", .number)
  | .float64 => some ("double precision", .number)
  | .decimal => some ("numeric", .number)
  | .text => some ("text", .text false)
  | .char => some ("character(1)", .text false)
  | .date => some ("date", .date Calendar.dashedDate)
  | .dateTime => some ("timestamp", .dateTime Calendar.blankSeparated)
  | .bytes => some ("bytea", .escapedHexBytes)
  | .geometry | .point | .lineString | .geometryCollection => some ("geometry", .unsupported)
  | .entity _ | .anonymous => none

/-- A store type and its literals for a kind in standard SQL. -/
def genericStore? : DataKind → Option (String × LiteralStyle)
  | .bool => some ("BOOLEAN", .boolKeyword)
  | .int16 => some ("SMALLINT", .number)
  | .int32 => some ("INTEGER", .number)
  | .int64 => some ("BIGINT", .number)
  | .float32 => some ("REAL", .number)
  | .float64 => some ("DOUBLE PRECISION", .number)
  | .decimal => some ("DECIMAL", .number)
  | .text => some ("VARCHAR", .text false)
  | .char => some ("CHAR(1)", .text false)
  | .date => some ("DATE", .date Calendar.dashedDate)
  | .dateTime => some ("TIMESTAMP", .dateTime Calendar.blankSeparated)
  | .bytes => some ("VARBINARY", .quotedHexBytes)
  | .geometry | .point | .lineString | .geometryCollection => some ("GEOMETRY", .unsupported)
  | .entity _ | .anonymous => none

/-- A store type and its literals for a kind in a dialect. -/
def Dialect.store? : Dialect → DataKind → Option (String × LiteralStyle)
  | msSql => msSqlStore?
  | sqlite => sqliteStore?
  | postgres => postgresStore?
  | generic => genericStore?

/-- The catalog of a dialect. -/
def Dialect.catalog (dialect : Dialect) : Catalog where
  mapping? kind := (dialect.store? kind).map fun (storeType, style) => .of storeType kind style

end QueryPipeline.Sql
