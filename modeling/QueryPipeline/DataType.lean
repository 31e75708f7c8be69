import QueryPipeline.Literal
import QueryPipeline.Number.Power

/-!
# Data types

The types of the values that flow through a pipeline. A type is a kind of value together with the
answer to whether the value may be absent. Entities and shapes are kinds too, though no database
column has them.
-/

set_option autoImplicit false

namespace QueryPipeline

/-- A kind of value. -/
inductive DataKind where
  | bool
  | int16
  | int32
  | int64
  | float32
  | float64
  | decimal
  | text
  | char
  | date
  | dateTime
  | bytes
  /-- Any kind of geometry. -/
  | geometry
  | point
  | lineString
  | geometryCollection
  /-- A row of a mapped entity. -/
  | entity (name : String)
  /-- A shape put together from named members. -/
  | anonymous
deriving DecidableEq, Repr, Inhabited

namespace DataKind

/-- The name of a kind; the name of an entity is not part of it. -/
def name : DataKind → String
  | bool => "Bool"
  | int16 => "Int16"
  | int32 => "Int32"
  | int64 => "Int64"
  | float32 => "Float32"
  | float64 => "Float64"
  | decimal => "Decimal"
  | text => "Text"
  | char => "Char"
  | date => "Date"
  | dateTime => "DateTime"
  | bytes => "Bytes"
  | geometry => "Geometry"
  | point => "Point"
  | lineString => "LineString"
  | geometryCollection => "GeometryCollection"
  | entity _ => "Entity"
  | anonymous => "Anonymous"

/-- The kinds that have no content of their own. -/
def simpleKinds : List DataKind :=
  [bool, int16, int32, int64, float32, float64, decimal, text, char, date, dateTime, bytes, geometry,
    point, lineString, geometryCollection, anonymous]

/-- Whole numbers. -/
def isInteger : DataKind → Bool
  | int16 | int32 | int64 => true
  | _ => false

/-- Binary floating-point numbers. -/
def isFloat : DataKind → Bool
  | float32 | float64 => true
  | _ => false

/-- Numbers of any kind. -/
def isNumeric (kind : DataKind) : Bool :=
  kind.isInteger || kind.isFloat || kind == decimal

/-- Values with parts, which no single column holds. -/
def isStructural : DataKind → Bool
  | entity _ | anonymous => true
  | _ => false

/-- What a value of the kind becomes when the database has none although there has to be one. Kinds
without a neutral value have none. -/
def neutral : DataKind → Literal
  | bool => .boolean false
  | int16 | int32 | int64 => .integer 0
  | float32 | float64 => .float .zero
  | decimal => .decimal "0"
  | char => .char '\x00'
  | _ => .null

/-- The name under which the functions and members of values of a kind are looked up. -/
def owner : DataKind → String
  | bool => "bool"
  | int16 | int32 | int64 => "int"
  | float32 | float64 => "float"
  | decimal => "decimal"
  | text => "string"
  | char => "char"
  | date | dateTime => "datetime"
  | bytes => "bytes"
  | geometry => "geometry"
  | point => "point"
  | lineString => "line_string"
  | geometryCollection => "geometry_collection"
  | entity _ | anonymous => "object"

end DataKind

/-- A kind of value that may or may not be absent. -/
structure DataType where
  kind : DataKind
  nullable : Bool
deriving DecidableEq, Repr, Inhabited

namespace DataType

/-- The type of values of a kind that are always present. -/
def of (kind : DataKind) : DataType := ⟨kind, false⟩

/-- The type of values of a kind that may be absent. -/
def optional (kind : DataKind) : DataType := ⟨kind, true⟩

/-- The truth values. -/
def bool : DataType := of .bool

/-- The 32-bit integers. -/
def int32 : DataType := of .int32

/-- The 64-bit integers. -/
def int64 : DataType := of .int64

/-- The double-precision numbers. -/
def float64 : DataType := of .float64

/-- The texts. -/
def text : DataType := of .text

/-- The same kind with another answer to whether the value may be absent. -/
def withNullable (type : DataType) (nullable : Bool) : DataType := { type with nullable }

/-- What a value of the type becomes when the database has none. -/
def neutral (type : DataType) : Literal :=
  if type.nullable then .null else type.kind.neutral

/-- The text of a type in a message: its kind in lower case, or the name of the entity, and a question
mark when the value may be absent. -/
def display (type : DataType) : String :=
  let kind := match type.kind with
    | .entity name => name
    | kind => kind.name.toLower
  if type.nullable then kind ++ "?" else kind

end DataType

/-- The type of a literal written in a pipeline. An integer has the smallest type that holds it. Arrays
only occur as arguments of functions, which take them as they are, so any type will do for them. -/
def Literal.type : Literal → DataType
  | .null => .optional .text
  | .boolean _ => .of .bool
  | .integer i => if -(twoTo 31) ≤ i.toInt ∧ i.toInt < twoTo 31 then .of .int32 else .of .int64
  | .float _ => .of .float64
  | .decimal _ => .of .decimal
  | .text _ => .of .text
  | .char _ => .of .char
  | .date _ => .of .date
  | .dateTime _ => .of .dateTime
  | .bytes _ => .of .bytes
  | .array _ => .of .text

end QueryPipeline
