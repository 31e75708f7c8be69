import QueryPipeline.Json.Reader
import QueryPipeline.Proofs.Words

/-!
# Reading literals back

A reader of a statement takes a literal apart by the rules of SQL: a text stands between single quotes, perhaps
after an `N`, two of them stand for one inside of it, and nothing else in it is special; bytes are hexadecimal
digits after `0x`, between quotes after an `X`, or in a text after a backslash and an `x`. Whatever a text or some
bytes contain, their literal is read as just this value and ends where what follows it begins.
-/

set_option autoImplicit false

namespace QueryPipeline

namespace Sql

/-- What stands between an opening quote, which has been read, and the quote that closes it, and what follows that
one. Two closing quotes stand for one. -/
def readQuoted? (closing : Char) : List Char → Option (List Char × List Char)
  | [] => none
  | [c] => if c = closing then some ([], []) else none
  | c :: d :: rest =>
    if c = closing then
      if d = closing then (readQuoted? closing rest).map fun (cs, rest) => (closing :: cs, rest)
      else some ([], d :: rest)
    else (readQuoted? closing (d :: rest)).map fun (cs, rest) => (c :: cs, rest)

/-- The bytes that pairs of hexadecimal digits stand for. -/
def bytesOf? : List Char → Option (List UInt8)
  | [] => some []
  | [_] => none
  | high :: low :: rest => do
    let byte := (← Json.hexValue? high) * 16 + (← Json.hexValue? low)
    return UInt8.ofNat byte :: (← bytesOf? rest)

/-- A hexadecimal digit. -/
def isHexDigit (c : Char) : Bool := (Json.hexValue? c).isSome

/-- A literal of a statement, whatever it is used for. -/
inductive WrittenLiteral where
  | text (s : String)
  | bytes (bs : List UInt8)
deriving DecidableEq, Repr

/-- The literal at the beginning of a text, and what follows it. -/
def readLiteral? : List Char → Option (WrittenLiteral × List Char)
  | '\'' :: rest => (readQuoted? '\'' rest).map fun (cs, rest) => (.text (String.ofList cs), rest)
  | 'N' :: '\'' :: rest => (readQuoted? '\'' rest).map fun (cs, rest) => (.text (String.ofList cs), rest)
  | 'X' :: '\'' :: rest => do
    let (digits, rest) ← readQuoted? '\'' rest
    return (.bytes (← bytesOf? digits), rest)
  | '0' :: 'x' :: rest => do
    let digits := rest.takeWhile isHexDigit
    return (.bytes (← bytesOf? digits), rest.drop digits.length)
  | _ => none

/-- The value of a literal where a value of a kind is expected. A character is a text that is one letter long, and
bytes may be told in a text by their digits after a backslash and an `x`. -/
def WrittenLiteral.valueAs? : DataKind → WrittenLiteral → Option Literal
  | .text, text s => some (.text s)
  | .char, text s =>
    match s.toList with
    | [c] => some (.char c)
    | _ => none
  | .bytes, bytes bs => some (.bytes bs)
  | .bytes, text s =>
    match s.toList with
    | '\\' :: 'x' :: digits => (bytesOf? digits).map .bytes
    | _ => none
  | _, _ => none

/-- The value of a kind at the beginning of a text, and what follows its literal. -/
def readValue? (kind : DataKind) (cs : List Char) : Option (Literal × List Char) := do
  let (literal, rest) ← readLiteral? cs
  return (← literal.valueAs? kind, rest)

/-- The style is one for texts and the value a text or a character, or the style is one for bytes and so is the
value. -/
def LiteralStyle.spells : LiteralStyle → Literal → Bool
  | text _, .text _ | text _, .char _ => true
  | hexBytes, .bytes _ | quotedHexBytes, .bytes _ | escapedHexBytes, .bytes _ => true
  | _, _ => false

/-- The letters can follow a literal: they neither begin with a single quote nor with a hexadecimal digit. -/
def EndsLiteral (rest : List Char) : Prop := ∀ c ∈ rest.head?, c ≠ '\'' ∧ isHexDigit c = false

section Quotes

variable {closing : Char} {rest : List Char}

/-- A quote that no other one follows closes. -/
theorem readQuoted?_closing (h : ∀ c ∈ rest.head?, c ≠ closing) :
    readQuoted? closing (closing :: rest) = some ([], rest) := by
  cases rest with
  | nil => simp [readQuoted?]
  | cons c rest =>
    have hc : c ≠ closing := h c rfl
    simp [readQuoted?, hc]

/-- Two quotes are read as one. -/
theorem readQuoted?_doubled (cs : List Char) :
    readQuoted? closing (closing :: closing :: cs) =
      (readQuoted? closing cs).map fun (cs, rest) => (closing :: cs, rest) := by
  simp [readQuoted?]

/-- Any other letter is read as itself. -/
theorem readQuoted?_other {c : Char} (hc : c ≠ closing) (cs : List Char) :
    readQuoted? closing (c :: cs) = (readQuoted? closing cs).map fun (cs, rest) => (c :: cs, rest) := by
  cases cs with
  | nil => simp [readQuoted?, hc]
  | cons d cs => simp [readQuoted?, hc]

/-- Quotes that are written twice are read as they were, up to the one that closes them. -/
theorem readQuoted?_doubleQuotes (cs : List Char) (h : ∀ c ∈ rest.head?, c ≠ closing) :
    readQuoted? closing (doubleQuotes closing cs ++ closing :: rest) = some (cs, rest) := by
  induction cs with
  | nil => exact readQuoted?_closing h
  | cons c cs ih =>
    rw [doubleQuotes]
    by_cases hc : c = closing
    · rw [if_pos hc, hc, List.cons_append, List.cons_append, readQuoted?_doubled, ih, Option.map_some]
    · rw [if_neg hc, List.cons_append, readQuoted?_other hc, ih, Option.map_some]

/-- Letters without closing quotes are read up to the first one. -/
theorem readQuoted?_plain {cs : List Char} (hcs : closing ∉ cs) (h : ∀ c ∈ rest.head?, c ≠ closing) :
    readQuoted? closing (cs ++ closing :: rest) = some (cs, rest) := by
  have hdouble : doubleQuotes closing cs = cs := by
    induction cs with
    | nil => rfl
    | cons c cs ih =>
      rw [List.mem_cons, not_or] at hcs
      rw [doubleQuotes, if_neg (Ne.symm hcs.1), ih hcs.2]
  rw [← hdouble, readQuoted?_doubleQuotes cs h, hdouble]

end Quotes

section Bytes

/-- The capital digits of a byte are hexadecimal. -/
theorem hexValue?_digit : ∀ n < 16, Json.hexValue? (Nat.digitChar n).toUpper = some n := by decide

/-- The two digits of a byte are read as the byte. -/
theorem bytesOf?_hexByte (b : UInt8) (cs : List Char) :
    bytesOf? ((Text.hexByte b).toList ++ cs) = (bytesOf? cs).map (b :: ·) := by
  have hb : b.toNat < 256 := b.toNat_lt
  have hhigh := hexValue?_digit (b.toNat / 16) (by omega)
  have hlow := hexValue?_digit (b.toNat % 16) (Nat.mod_lt _ (by decide))
  have hbyte : b.toNat / 16 * 16 + b.toNat % 16 = b.toNat := by omega
  simp only [Text.hexByte, String.toList_ofList, List.cons_append, List.nil_append, bytesOf?, hhigh, hlow,
    Option.bind_eq_bind, Option.bind_some, hbyte, UInt8.ofNat_toNat]
  cases bytesOf? cs <;> rfl

/-- The digits of some bytes stand for these bytes. -/
theorem bytesOf?_hexBytes (bs : List UInt8) : bytesOf? (hexBytes bs).toList = some bs := by
  rw [toList_hexBytes]
  induction bs with
  | nil => rfl
  | cons b bs ih => rw [List.flatMap_cons, bytesOf?_hexByte, ih, Option.map_some]

/-- The letters of bytes are digits to the base 16. -/
theorem isHexDigit_of_mem_hexBytes {bs : List UInt8} {c : Char} (h : c ∈ (hexBytes bs).toList) :
    isHexDigit c = true := by
  obtain ⟨n, hn, rfl⟩ := exists_digit_of_mem_hexBytes h
  rw [isHexDigit, hexValue?_digit n hn, Option.isSome_some]

end Bytes

section Literals

variable {rest : List Char}

/-- A quoted text is read back. -/
theorem readLiteral?_text (national : Bool) (s : String) (h : EndsLiteral rest) :
    readLiteral? ((quoteText national s).toList ++ rest) = some (.text s, rest) := by
  have hread := readQuoted?_doubleQuotes s.toList fun c hc => (h c hc).1
  rw [toList_quoteText]
  cases national with
  | false => simp [readLiteral?, hread]
  | true => simp [readLiteral?, hread]

/-- A text without quotes stands between single quotes as it is. -/
theorem readLiteral?_plain {s : String} (hs : '\'' ∉ s.toList) (h : EndsLiteral rest) :
    readLiteral? (("'" ++ s ++ "'").toList ++ rest) = some (.text s, rest) := by
  have hread := readQuoted?_plain hs fun c hc => (h c hc).1
  simp [String.toList_append, readLiteral?, hread]

/-- Bytes in digits behind `0x` are read back. -/
theorem readLiteral?_digits (bs : List UInt8) (h : EndsLiteral rest) :
    readLiteral? (("0x" ++ hexBytes bs).toList ++ rest) = some (.bytes bs, rest) := by
  have hdigits : ((hexBytes bs).toList ++ rest).takeWhile isHexDigit = (hexBytes bs).toList :=
    Number.takeWhile_run (fun c hc => isHexDigit_of_mem_hexBytes hc) fun c hc => (h c hc).2
  simp [String.toList_append, readLiteral?, hdigits, bytesOf?_hexBytes]

/-- Bytes in quoted digits behind an `X` are read back. -/
theorem readLiteral?_quotedDigits (bs : List UInt8) (h : EndsLiteral rest) :
    readLiteral? (("X'" ++ hexBytes bs ++ "'").toList ++ rest) = some (.bytes bs, rest) := by
  have hread := readQuoted?_plain (quote_not_mem_hexBytes bs) fun c hc => (h c hc).1
  simp [String.toList_append, readLiteral?, hread, bytesOf?_hexBytes]

/-- Bytes in digits with an escape are read as the text of these digits. -/
theorem readLiteral?_escapedDigits (bs : List UInt8) (h : EndsLiteral rest) :
    readLiteral? (("'\\x" ++ hexBytes bs ++ "'").toList ++ rest) =
      some (.text ("\\x" ++ hexBytes bs), rest) := by
  have hquote : '\'' ∉ ("\\x" ++ hexBytes bs).toList := by
    rw [String.toList_append, List.mem_append, not_or]
    exact ⟨by decide, quote_not_mem_hexBytes bs⟩
  have hread := readLiteral?_plain hquote h
  simpa [String.toList_append] using hread

end Literals

end Sql

open Sql

/-- A text, a character or some bytes cannot break out of their literal. A mapping with a style for the value writes
it, and whatever follows that is no quote and no hexadecimal digit, a reader finds just the value and is left with
what follows. -/
theorem literal_reads_back (m : TypeMapping) (value : Literal) (h : m.literal.spells value = true)
    (rest : List Char) (hrest : EndsLiteral rest) :
    ∃ text, m.write value = .ok text ∧
      readValue? value.type.kind (text.toList ++ rest) = some (value, rest) := by
  obtain ⟨storeType, kind, style, size⟩ := m
  cases value with
  | text s =>
    cases style with
    | text national =>
      refine ⟨quoteText national s, rfl, ?_⟩
      rw [readValue?, readLiteral?_text national s hrest]
      rfl
    | _ => cases h
  | char c =>
    cases style with
    | text national =>
      refine ⟨quoteText national (String.singleton c), rfl, ?_⟩
      rw [readValue?, readLiteral?_text national _ hrest]
      simp [WrittenLiteral.valueAs?, Literal.type, DataType.of]
    | _ => cases h
  | bytes bs =>
    cases style with
    | hexBytes =>
      refine ⟨"0x" ++ hexBytes bs, rfl, ?_⟩
      rw [readValue?, readLiteral?_digits bs hrest]
      rfl
    | quotedHexBytes =>
      refine ⟨"X'" ++ hexBytes bs ++ "'", rfl, ?_⟩
      rw [readValue?, readLiteral?_quotedDigits bs hrest]
      rfl
    | escapedHexBytes =>
      refine ⟨"'\\x" ++ hexBytes bs ++ "'", rfl, ?_⟩
      rw [readValue?, readLiteral?_escapedDigits bs hrest]
      simp [WrittenLiteral.valueAs?, Literal.type, DataType.of, String.toList_append, bytesOf?_hexBytes]
    | _ => cases h
  | _ => cases style <;> cases h

/-- A text that would close its literal and go on as a statement of its own is read as a text. -/
theorem dropTable_reads_back :
    (TypeMapping.of "nvarchar(50)" .text (.text true)).write (.text "'; DROP TABLE Person; --\\'") =
        .ok "N'''; DROP TABLE Person; --\\'''" ∧
      readValue? .text ("N'''; DROP TABLE Person; --\\'''".toList ++ " OR 1 = 1".toList) =
        some (.text "'; DROP TABLE Person; --\\'", " OR 1 = 1".toList) := by
  have hwritten : (TypeMapping.of "nvarchar(50)" .text (.text true)).write (.text "'; DROP TABLE Person; --\\'") =
      .ok "N'''; DROP TABLE Person; --\\'''" := by decide
  have hends : EndsLiteral " OR 1 = 1".toList := by
    intro c hc
    cases hc
    decide
  obtain ⟨text, hwrite, hread⟩ := literal_reads_back (.of "nvarchar(50)" .text (.text true))
    (.text "'; DROP TABLE Person; --\\'") (by decide) " OR 1 = 1".toList hends
  cases hwritten.symm.trans hwrite
  exact ⟨hwritten, hread⟩

end QueryPipeline
