import QueryPipeline.Json.Number
import QueryPipeline.Text.Quoted

/-!
# Writing the interchange format

A value is written densely, without any blanks, or on lines of its own with two blanks of indentation
for each level. Strings escape the quote, the backslash and the control characters only.
-/

set_option autoImplicit false

namespace QueryPipeline.Json

/-- The form of one character inside a string. -/
def charText (c : Char) : List Char :=
  if c = '"' then ['\\', '"']
  else if c = '\\' then ['\\', '\\']
  else if c = '\x08' then ['\\', 'b']
  else if c = '\x0c' then ['\\', 'f']
  else if c = '\n' then ['\\', 'n']
  else if c = '\r' then ['\\', 'r']
  else if c = '\t' then ['\\', 't']
  else if c.toNat < 0x20 then
    ['\\', 'u', '0', '0', Nat.digitChar (c.toNat / 16), Nat.digitChar (c.toNat % 16)]
  else [c]

/-- A string between quotes. -/
def stringText (s : String) : List Char :=
  '"' :: s.toList.flatMap charText ++ ['"']

/-- A number with the digits it has. -/
def Number.text (n : Number) : List Char :=
  (if n.negative then ['-'] else []) ++ n.whole
    ++ (if n.fraction.isEmpty then [] else '.' :: n.fraction)
    ++ (match n.exponent with
      | none => []
      | some e => 'e' :: (toString e).toList)

mutual

/-- The characters of a value without any blanks. -/
def dense : Json → List Char
  | null => "null".toList
  | bool b => (if b then "true" else "false").toList
  | number n => n.text
  | string s => stringText s
  | array items => '[' :: denseItems items ++ [']']
  | object members => '\x7b' :: denseMembers members ++ ['\x7d']

/-- The characters of some values with commas between them. -/
def denseItems : List Json → List Char
  | [] => []
  | [item] => item.dense
  | item :: rest => item.dense ++ ',' :: denseItems rest

/-- The characters of some members with commas between them. -/
def denseMembers : List (String × Json) → List Char
  | [] => []
  | [(name, value)] => stringText name ++ ':' :: value.dense
  | (name, value) :: rest => stringText name ++ ':' :: value.dense ++ ',' :: denseMembers rest

end

/-- The start of a line at a level. -/
def lineStart (level : Nat) : List Char := '\n' :: List.replicate (2 * level) ' '

mutual

/-- The characters of a value whose parts stand on lines of their own, one level deeper. -/
def laidOut (level : Nat) : Json → List Char
  | array [] => ['[', ']']
  | array items => '[' :: laidOutItems (level + 1) items ++ lineStart level ++ [']']
  | object [] => ['\x7b', '\x7d']
  | object members => '\x7b' :: laidOutMembers (level + 1) members ++ lineStart level ++ ['\x7d']
  | null => "null".toList
  | bool b => (if b then "true" else "false").toList
  | number n => n.text
  | string s => stringText s

/-- The characters of some values, each on a line of its own. -/
def laidOutItems (level : Nat) : List Json → List Char
  | [] => []
  | [item] => lineStart level ++ laidOut level item
  | item :: rest => lineStart level ++ laidOut level item ++ ',' :: laidOutItems level rest

/-- The characters of some members, each on a line of its own. -/
def laidOutMembers (level : Nat) : List (String × Json) → List Char
  | [] => []
  | [(name, value)] => lineStart level ++ stringText name ++ ": ".toList ++ laidOut level value
  | (name, value) :: rest =>
    lineStart level ++ stringText name ++ ": ".toList ++ laidOut level value
      ++ ',' :: laidOutMembers level rest

end

/-- The text of a value without any blanks. -/
def text (j : Json) : String := String.ofList j.dense

/-- The text of a value on lines with indentation. -/
def prettyText (j : Json) : String := String.ofList (laidOut 0 j)

end QueryPipeline.Json
