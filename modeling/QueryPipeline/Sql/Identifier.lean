import QueryPipeline.Sql.Dialect

/-!
# Identifiers

How names of tables, columns and parameters are written. A name stands bare only if it is a plain word
that no dialect reserves and quotes were not asked for; otherwise it stands between the quotes of the
dialect, and a closing quote inside of it is written twice.
-/

set_option autoImplicit false

namespace QueryPipeline.Sql

/-- When names are quoted. -/
inductive Quoting where
  /-- Only where a bare name would not be read as a name. -/
  | whenNeeded
  | always
deriving DecidableEq, Repr, Inhabited

namespace Quoting

/-- All ways of quoting. -/
def all : List Quoting := [whenNeeded, always]

/-- The name by which a way of quoting is chosen. -/
def name : Quoting → String
  | whenNeeded => "when_needed"
  | always => "always"

/-- The name of a way of quoting in an interchange text. -/
def tag : Quoting → String
  | whenNeeded => "WhenNeeded"
  | always => "Always"

/-- The way of quoting with a name. -/
def ofName? (name : String) : Option Quoting := all.find? (·.name == name)

end Quoting

/-- The words that at least one dialect does not take as a bare name. -/
def reservedWords : List String :=
  ["ADD", "ALL", "ALTER", "AND", "ANY", "AS", "ASC", "BETWEEN", "BY", "CASE", "CAST", "CHECK",
    "COLUMN", "CONSTRAINT", "CREATE", "CROSS", "CURRENT", "CURRENT_DATE", "CURRENT_TIME",
    "CURRENT_TIMESTAMP", "CURRENT_USER", "DEFAULT", "DELETE", "DESC", "DISTINCT", "DROP", "ELSE",
    "END", "ESCAPE", "EXCEPT", "EXISTS", "FALSE", "FETCH", "FOR", "FOREIGN", "FROM", "FULL",
    "GRANT", "GROUP", "HAVING", "IN", "INDEX", "INNER", "INSERT", "INTERSECT", "INTO", "IS",
    "JOIN", "KEY", "LEFT", "LIKE", "LIMIT", "NOT", "NULL", "OFFSET", "ON", "OR", "ORDER", "OUTER",
    "OVER", "PERCENT", "PRIMARY", "REFERENCES", "RIGHT", "ROWS", "SELECT", "SET", "TABLE", "THEN",
    "TO", "TOP", "TRUE", "UNION", "UNIQUE", "UPDATE", "USER", "USING", "VALUES", "VIEW", "WHEN",
    "WHERE", "WITH"]

/-- The word is reserved, in whatever case its letters are written. -/
def isReserved (word : String) : Bool := reservedWords.contains (word.map Char.toUpper)

/-- A letter or underscore, with which a plain word begins. -/
def isWordStart (c : Char) : Bool := c.isAlpha || c == '_'

/-- A letter, digit or underscore, with which a plain word goes on. -/
def isWordPart (c : Char) : Bool := c.isAlphanum || c == '_'

/-- The name is a word of ASCII letters, digits and underscores that does not begin with a digit. -/
def isPlainWord (name : String) : Bool :=
  match name.toList with
  | [] => false
  | c :: rest => isWordStart c && rest.all isWordPart

/-- The characters of a name with its closing quotes written twice. -/
def doubleQuotes (closing : Char) : List Char → List Char
  | [] => []
  | c :: rest => if c = closing then c :: c :: doubleQuotes closing rest else c :: doubleQuotes closing rest

/-- How a dialect and a way of quoting write names. -/
structure NameStyle where
  dialect : Dialect
  quoting : Quoting
deriving DecidableEq, Repr

namespace NameStyle

/-- A name between quotes. -/
def quote (style : NameStyle) (name : String) : String :=
  let (opening, closing) := style.dialect.quotes
  String.ofList (opening :: doubleQuotes closing name.toList ++ [closing])

/-- A name, quoted unless it may stand bare. -/
def write (style : NameStyle) (name : String) : String :=
  if style.quoting = .whenNeeded && isPlainWord name && !isReserved name then name
  else style.quote name

/-- A name after the name of its schema, if it has one. -/
def writeQualified (style : NameStyle) (name : String) : Option String → String
  | none => style.write name
  | some schema => style.write schema ++ "." ++ style.write name

/-- What stands for a parameter in a statement. -/
def placeholder (style : NameStyle) (name : String) : String :=
  String.ofList (style.dialect.parameterMark :: name.toList)

end NameStyle

end QueryPipeline.Sql
