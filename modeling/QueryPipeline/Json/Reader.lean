import QueryPipeline.Json.Value

/-!
# Reading the interchange format

A text is first cut into tokens and the tokens are then put together, with the arrays and objects
that are still open kept on a stack. Both steps refuse whatever the format does not allow: leading
zeros, control characters inside strings, halves of surrogate pairs, and text after the value.
-/

set_option autoImplicit false

namespace QueryPipeline.Json

/-- The smallest meaningful parts of a text. -/
inductive Token where
  | leftBrace
  | rightBrace
  | leftBracket
  | rightBracket
  | colon
  | comma
  | null
  | bool (b : Bool)
  | number (n : Number)
  | string (s : String)
deriving Repr

/-- The value of a hexadecimal digit. -/
def hexValue? (c : Char) : Option Nat :=
  if c.isDigit then some (c.toNat - '0'.toNat)
  else if 'a' ≤ c ∧ c ≤ 'f' then some (c.toNat - 'a'.toNat + 10)
  else if 'A' ≤ c ∧ c ≤ 'F' then some (c.toNat - 'A'.toNat + 10)
  else none

/-- The value of four hexadecimal digits. -/
def hexUnit? (a b c d : Char) : Option Nat := do
  return (((← hexValue? a) * 16 + (← hexValue? b)) * 16 + (← hexValue? c)) * 16 + (← hexValue? d)

/-- The character that a backslash and this letter stand for. -/
def escape? : Char → Option Char
  | '"' => some '"'
  | '\\' => some '\\'
  | '/' => some '/'
  | 'b' => some '\x08'
  | 'f' => some '\x0c'
  | 'n' => some '\n'
  | 'r' => some '\r'
  | 't' => some '\t'
  | _ => none

/-- A code unit is the first half of a surrogate pair. -/
def isHighSurrogate (n : Nat) : Bool := 0xd800 ≤ n && n < 0xdc00

/-- A code unit is the second half of a surrogate pair. -/
def isLowSurrogate (n : Nat) : Bool := 0xdc00 ≤ n && n < 0xe000

/-- The characters of a string up to its closing quote, and what follows the quote. -/
def scanString? : List Char → Option (List Char × List Char)
  | [] => none
  | '"' :: rest => some ([], rest)
  | '\\' :: 'u' :: a :: b :: c :: d :: rest => do
    let unit ← hexUnit? a b c d
    if isLowSurrogate unit then none
    else if isHighSurrogate unit then
      match rest with
      | '\\' :: 'u' :: e :: f :: g :: h :: rest => do
        let low ← hexUnit? e f g h
        if isLowSurrogate low then
          let code := 0x10000 + (unit - 0xd800) * 0x400 + (low - 0xdc00)
          let (cs, rest) ← scanString? rest
          return (Char.ofNat code :: cs, rest)
        else none
      | _ => none
    else
      let (cs, rest) ← scanString? rest
      return (Char.ofNat unit :: cs, rest)
  | '\\' :: letter :: rest => do
    let c ← escape? letter
    let (cs, rest) ← scanString? rest
    return (c :: cs, rest)
  | c :: rest =>
    if c.toNat < 0x20 || c == '\\' then none
    else do
      let (cs, rest) ← scanString? rest
      return (c :: cs, rest)

/-- The digits of a whole part: a zero alone or digits that do not start with one. -/
def wholePart? (cs : List Char) : Option (List Char) :=
  let digits := cs.takeWhile Char.isDigit
  if digits.isEmpty || (digits.head? == some '0' && 1 < digits.length) then none else some digits

/-- The digits of a fraction, none when no point follows. -/
def fractionPart? : List Char → Option (List Char × List Char)
  | '.' :: rest =>
    let digits := rest.takeWhile Char.isDigit
    if digits.isEmpty then none else some (digits, rest.drop digits.length)
  | cs => some ([], cs)

/-- The exponent, if one follows. -/
def exponentPart? : List Char → Option (Option Int × List Char)
  | c :: rest =>
    if c == 'e' || c == 'E' then
      let (negative, rest) := match rest with
        | '-' :: rest => (true, rest)
        | '+' :: rest => (false, rest)
        | rest => (false, rest)
      let digits := rest.takeWhile Char.isDigit
      if digits.isEmpty then none
      else
        let value : Int := digits.foldl (fun v c => 10 * v + (c.toNat - '0'.toNat)) (0 : Nat)
        some (some (if negative then -value else value), rest.drop digits.length)
    else some (none, c :: rest)
  | [] => some (none, [])

/-- A number at the front of a text that has no sign, and what follows it. -/
def scanUnsigned? (negative : Bool) (cs : List Char) : Option (Number × List Char) := do
  let whole ← wholePart? cs
  let (fraction, rest) ← fractionPart? (cs.drop whole.length)
  let (exponent, rest) ← exponentPart? rest
  return (⟨negative, whole, fraction, exponent⟩, rest)

/-- A number at the front of a text, and what follows it. -/
def scanNumber? : List Char → Option (Number × List Char)
  | '-' :: rest => scanUnsigned? true rest
  | cs => scanUnsigned? false cs

/-- The first token of a text that does not begin with a blank, and what follows it. -/
def scanToken? : List Char → Option (Token × List Char)
  | '\x7b' :: rest => some (.leftBrace, rest)
  | '\x7d' :: rest => some (.rightBrace, rest)
  | '[' :: rest => some (.leftBracket, rest)
  | ']' :: rest => some (.rightBracket, rest)
  | ':' :: rest => some (.colon, rest)
  | ',' :: rest => some (.comma, rest)
  | '"' :: rest => (scanString? rest).map fun (cs, rest) => (.string (String.ofList cs), rest)
  | 'n' :: 'u' :: 'l' :: 'l' :: rest => some (.null, rest)
  | 't' :: 'r' :: 'u' :: 'e' :: rest => some (.bool true, rest)
  | 'f' :: 'a' :: 'l' :: 's' :: 'e' :: rest => some (.bool false, rest)
  | cs => (scanNumber? cs).map fun (n, rest) => (.number n, rest)

/-- The format allows this blank between tokens. -/
def isGap (c : Char) : Bool := c == ' ' || c == '\n' || c == '\r' || c == '\t'

/-- The tokens of a text, as many as `fuel` characters can hold. -/
def tokensWithin? : (fuel : Nat) → List Char → Option (List Token)
  | _, [] => some []
  | 0, _ :: _ => none
  | fuel + 1, c :: rest =>
    if isGap c then tokensWithin? fuel rest
    else do
      let (token, rest) ← scanToken? (c :: rest)
      let tokens ← tokensWithin? fuel rest
      return token :: tokens

/-- The tokens of a text. -/
def tokens? (cs : List Char) : Option (List Token) := tokensWithin? cs.length cs

/-- An array or object whose end has not been read, with its finished parts in reverse. -/
inductive Open where
  | array (done : List Json)
  | object (done : List (String × Json)) (name : String)

mutual

/-- Reads on where a value has to begin, inside of the open arrays and objects. -/
def readValue? (stack : List Open) : List Token → Option Json
  | .null :: rest => readAfter? stack .null rest
  | .bool b :: rest => readAfter? stack (.bool b) rest
  | .number n :: rest => readAfter? stack (.number n) rest
  | .string s :: rest => readAfter? stack (.string s) rest
  | .leftBracket :: .rightBracket :: rest => readAfter? stack (.array []) rest
  | .leftBracket :: rest => readValue? (.array [] :: stack) rest
  | .leftBrace :: .rightBrace :: rest => readAfter? stack (.object []) rest
  | .leftBrace :: .string name :: .colon :: rest => readValue? (.object [] name :: stack) rest
  | _ => none

/-- Reads on after a finished value, which becomes a part of the innermost open array or object. -/
def readAfter? (stack : List Open) (value : Json) (tokens : List Token) : Option Json :=
  match stack, tokens with
  | [], [] => some value
  | .array done :: stack, .comma :: rest => readValue? (.array (value :: done) :: stack) rest
  | .array done :: stack, .rightBracket :: rest =>
    readAfter? stack (.array (value :: done).reverse) rest
  | .object done name :: stack, .comma :: .string next :: .colon :: rest =>
    readValue? (.object ((name, value) :: done) next :: stack) rest
  | .object done name :: stack, .rightBrace :: rest =>
    readAfter? stack (.object ((name, value) :: done).reverse) rest
  | _, _ => none

end

/-- The value that a text stands for. -/
def parse? (text : String) : Option Json := do
  readValue? [] (← tokens? text.toList)

end QueryPipeline.Json
