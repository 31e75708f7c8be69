import QueryPipeline.Text.Visible

/-!
# Quoted text

A text is shown between quotes so that every character can be told from its form: the quote, the
backslash and the common controls have a short escape, every other character that is not visible
is written by its code point in hexadecimal digits between braces, and all else stands for itself.
-/

set_option autoImplicit false

namespace QueryPipeline.Text

/-- The hexadecimal digits of a number, in lower case. -/
def hexDigits (n : Nat) : String := String.ofList (Nat.toDigits 16 n)

/-- The two capital hexadecimal digits of a byte. -/
def hexByte (b : UInt8) : String :=
  let digit (n : Nat) : Char := (Nat.digitChar n).toUpper
  String.ofList [digit (b.toNat / 16), digit (b.toNat % 16)]

/-- The form of one character between quotes of the kind `quote`. -/
def quotedChar (quote c : Char) : String :=
  if c = '\x00' then "\\0"
  else if c = '\t' then "\\t"
  else if c = '\n' then "\\n"
  else if c = '\r' then "\\r"
  else if c = '\\' then "\\\\"
  else if c = quote then String.ofList ['\\', quote]
  else if isVisible c then String.singleton c
  else "\\u\x7b" ++ hexDigits c.toNat ++ "\x7d"

/-- A text between double quotes. -/
def quoted (s : String) : String :=
  "\"" ++ String.join (s.toList.map (quotedChar '"')) ++ "\""

/-- A character between single quotes. -/
def quotedAlone (c : Char) : String :=
  "'" ++ quotedChar '\'' c ++ "'"

end QueryPipeline.Text
