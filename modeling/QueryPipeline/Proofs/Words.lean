import QueryPipeline.Proofs.DateTexts
import QueryPipeline.Proofs.Scanning

/-!
# Names and literals as words

Names, parameters and literals are words of a statement in which no comment begins. In quotes that holds of all
letters, because a closing quote is written twice. Outside of quotes it holds of plain words, and of numerals,
whose minus signs have digits after them.
-/

set_option autoImplicit false

namespace QueryPipeline

/-- A decimal number is written in the digits of a numeral. -/
def Literal.isPlain : Literal → Bool
  | .decimal digits => Number.isNumeral digits
  | _ => true

namespace Sql

open Number

variable {d : Dialect} {p : ScanState} {cs : List Char}

section Calm

/-- At a letter without a meaning of its own a bare reader is in code. -/
theorem next_of_isCalm {c : Char} (hc : isCalm c = true) (hp : p.isBare = true) : d.next p c = .code := by
  simp only [isCalm, Bool.and_eq_true, bne_iff_ne, ne_eq] at hc
  obtain ⟨⟨⟨⟨hminus, htext⟩, hname⟩, hopening⟩, hclosing⟩ := hc
  have hquotes : c ≠ d.quotes.1 ∧ c ≠ d.quotes.2 := by
    cases d <;> exact ⟨by assumption, by assumption⟩
  have henter : d.enter c = .code := by
    rw [Dialect.enter, if_neg hminus, if_neg htext, if_neg hquotes.1]
  cases p with
  | code => exact henter
  | closed q =>
    cases q with
    | text => exact (if_neg htext).trans henter
    | name => exact (if_neg hquotes.2).trans henter
  | _ => cases hp

/-- Behind letters without meanings of their own a bare reader is in code. -/
theorem scan_of_calm (h : cs.all isCalm = true) (hne : cs ≠ []) (hp : p.isBare = true) :
    d.scan p cs = .code := by
  induction cs generalizing p with
  | nil => exact absurd rfl hne
  | cons c rest ih =>
    obtain ⟨hc, hrest⟩ := Bool.and_eq_true_iff.1 (List.all_cons.symm.trans h)
    show d.scan (d.next p c) rest = .code
    rw [next_of_isCalm hc hp]
    by_cases hnil : rest = []
    · rw [hnil]
      rfl
    · exact ih hrest hnil rfl

/-- Letters without meanings of their own separate. -/
theorem separates_of_calm (h : cs.all isCalm = true) (hne : cs ≠ []) : d.separates cs = true := by
  simp only [Dialect.separates, List.all_cons, List.all_nil, Bool.and_true, Bool.and_eq_true, beq_iff_eq]
  exact ⟨scan_of_calm h hne rfl, scan_of_calm h hne rfl, scan_of_calm h hne rfl⟩

/-- What separates is a word without a comment. -/
theorem isWord_of_separates (h : d.separates cs = true) : d.IsWord cs False :=
  ⟨ne_nil_of_separates h, (follows_of_separates h).reads⟩

/-- Letters without meanings of their own are a word without a comment. -/
theorem isWord_of_calm (h : cs.all isCalm = true) (hne : cs ≠ []) : d.IsWord cs False :=
  isWord_of_separates (separates_of_calm h hne)

/-- The letters of words have no meanings of their own. -/
theorem isCalm_of_isWordPart {c : Char} (h : isWordPart c = true) : isCalm c = true := by
  by_contra hc
  simp only [isCalm, Bool.and_eq_true, bne_iff_ne, ne_eq, not_and_or, not_not] at hc
  rcases hc with (((rfl | rfl) | rfl) | rfl) | rfl <;> cases h

/-- Digits are letters of words. -/
theorem isWordPart_of_isDigit {c : Char} (h : c.isDigit = true) : isWordPart c = true := by
  simp [isWordPart, Char.isAlphanum, h]

/-- The letters of a plain word. -/
theorem letters_of_isPlainWord {name : String} (h : isPlainWord name = true) :
    name.toList ≠ [] ∧ ∀ c ∈ name.toList, isWordPart c = true := by
  unfold isPlainWord at h
  split at h
  · cases h
  · rename_i c rest hname
    rw [Bool.and_eq_true, List.all_eq_true] at h
    rw [hname]
    refine ⟨List.cons_ne_nil _ _, List.forall_mem_cons.2 ⟨?_, h.2⟩⟩
    have hstart := h.1
    simp only [isWordStart, isWordPart, Char.isAlphanum, Bool.or_eq_true] at hstart ⊢
    rcases hstart with hstart | hstart
    · exact .inl (.inl hstart)
    · exact .inr hstart

/-- Where all letters are those of words, none has a meaning of its own. -/
theorem all_isCalm_of_isWordPart (h : ∀ c ∈ cs, isWordPart c = true) : cs.all isCalm = true :=
  List.all_eq_true.2 fun c hc => isCalm_of_isWordPart (h c hc)

/-- The letters of plain words have no meanings of their own. -/
theorem isCalm_of_isPlainWord {name : String} (h : isPlainWord name = true) : name.toList.all isCalm = true :=
  all_isCalm_of_isWordPart (letters_of_isPlainWord h).2

/-- A plain word is a word without a comment. -/
theorem isWord_of_isPlainWord {name : String} (h : isPlainWord name = true) :
    d.IsWord name.toList False :=
  isWord_of_calm (isCalm_of_isPlainWord h) (letters_of_isPlainWord h).1

end Calm

section Quoted

/-- Letters between quotes that are closed nowhere. -/
theorem scan_quoted {q : Quote} (h : ∀ c ∈ cs, c ≠ d.closing q) : d.scan (.quoted q) cs = .quoted q := by
  induction cs with
  | nil => rfl
  | cons c rest ih =>
    obtain ⟨hc, hrest⟩ := List.forall_mem_cons.1 h
    show d.scan (d.next (.quoted q) c) rest = .quoted q
    rw [Dialect.next, if_neg hc, ih hrest]

/-- Quotes that are written twice are not closed. -/
theorem scan_doubleQuotes (q : Quote) (cs : List Char) :
    d.scan (.quoted q) (doubleQuotes (d.closing q) cs) = .quoted q := by
  induction cs with
  | nil => rfl
  | cons c rest ih =>
    rw [doubleQuotes]
    split
    · rename_i hc
      show d.scan (d.next (d.next (.quoted q) c) c) _ = .quoted q
      simp only [Dialect.next, if_pos hc, ih]
    · rename_i hc
      show d.scan (d.next (.quoted q) c) _ = .quoted q
      rw [Dialect.next, if_neg hc, ih]

/-- The quote that opens a name leads into a quoted name. -/
theorem enter_opening (d : Dialect) : d.enter d.quotes.1 = .quoted .name := by cases d <;> rfl

/-- What opens quotes, stays inside of them and closes them is a word. -/
theorem isWord_quoted {opening : Char} {q : Quote} (hopening : d.enter opening = .quoted q)
    (h : d.scan (.quoted q) cs = .quoted q) : d.IsWord (opening :: cs ++ [d.closing q]) False := by
  refine ⟨by simp, ?_⟩
  rw [Dialect.Reads, scan_append]
  show (d.scan (d.scan (d.enter opening) cs) [d.closing q]).Ends False
  rw [hopening, h]
  show (d.next (.quoted q) (d.closing q)).Ends False
  rw [Dialect.next, if_pos rfl]
  exact .of_isBare rfl

/-- A text in single quotes is a word, if it contains none. -/
theorem isWord_text {s : String} (h : '\'' ∉ s.toList) : d.IsWord ("'" ++ s ++ "'").toList False := by
  have hscan : d.scan (.quoted .text) s.toList = .quoted .text := by
    refine scan_quoted fun c hc hquote => h ?_
    rwa [← show c = '\'' from hquote]
  have hopening : d.enter '\'' = .quoted .text := rfl
  have hword := isWord_quoted hopening hscan
  simpa [String.toList_append] using hword

/-- The letters of a text between single quotes, perhaps after an `N`. -/
theorem toList_quoteText (national : Bool) (s : String) :
    (quoteText national s).toList =
      (if national then ['N'] else []) ++ ('\'' :: doubleQuotes '\'' s.toList ++ ['\'']) := by
  have hescaped : ∀ cs : List Char,
      (cs.flatMap fun c => if c = '\'' then ['\'', '\''] else [c]) = doubleQuotes '\'' cs := by
    intro cs
    induction cs with
    | nil => rfl
    | cons c rest ih =>
      rw [List.flatMap_cons, ih, doubleQuotes]
      split
      · rename_i hc
        rw [hc]
        rfl
      · rfl
  unfold quoteText
  dsimp only
  rw [hescaped]
  cases national with
  | false => simp [String.toList_append]
  | true => simp [String.toList_append]

/-- A quoted text is a word without a comment. -/
theorem isWord_quoteText (national : Bool) (s : String) :
    d.IsWord (quoteText national s).toList False := by
  have hopening : d.enter '\'' = .quoted .text := rfl
  have hword := isWord_quoted hopening (scan_doubleQuotes .text s.toList)
  rw [toList_quoteText]
  cases national with
  | false => exact hword
  | true => exact hword.reads.headed (show d.separates ['N'] = true by cases d <;> rfl)

variable (style : NameStyle)

/-- A name that is written as the style wants is a word without a comment. -/
theorem isWord_name (name : String) : style.dialect.IsWord (style.write name).toList False := by
  unfold NameStyle.write
  split
  · rename_i hplain
    simp only [Bool.and_eq_true] at hplain
    exact isWord_of_isPlainWord hplain.1.2
  · have hword := isWord_quoted (enter_opening style.dialect) (scan_doubleQuotes .name name.toList)
    rwa [NameStyle.quote, String.toList_ofList]

/-- The placeholder of a plain name is a word without a comment. -/
theorem isWord_placeholder {name : String} (h : isPlainWord name = true) :
    style.dialect.IsWord (style.placeholder name).toList False := by
  rw [NameStyle.placeholder, String.toList_ofList]
  refine isWord_of_calm ?_ (List.cons_ne_nil _ _)
  rw [List.all_cons, isCalm_of_isPlainWord h]
  rfl

end Quoted

section Numerals

/-- Where a reader of a statement is when a part of a numeral has been read. -/
def ScanState.Meets (p : ScanState) : NumeralState → Prop
  | .sign => p = .minus
  | .exponentSign => p = .code ∨ p = .minus
  | .rejected => True
  | _ => p = .code

/-- At a digit a reader is in code, also behind a minus sign. -/
theorem next_of_isDigit {c : Char} (hc : c.isDigit = true) (hp : p = .code ∨ p = .minus) :
    d.next p c = .code := by
  have hcalm := isCalm_of_isWordPart (isWordPart_of_isDigit hc)
  have hcode : d.next .code c = .code := next_of_isCalm hcalm rfl
  rcases hp with rfl | rfl
  · exact hcode
  · have hminus : c ≠ '-' := by
      rintro rfl
      cases hc
    rw [Dialect.next, if_neg hminus]
    exact hcode

/-- A numeral and a statement are read side by side. -/
theorem ScanState.Meets.next {state : NumeralState} {c : Char} (h : p.Meets state) :
    (d.next p c).Meets (state.next c) := by
  by_cases hc : c.isDigit = true
  · rw [NumeralState.next.eq_def, if_pos hc]
    cases state with
    | rejected => trivial
    | sign => exact next_of_isDigit hc (.inr h)
    | exponentSign => exact next_of_isDigit hc h
    | _ => exact next_of_isDigit hc (.inl h)
  · rw [NumeralState.next.eq_def, if_neg hc]
    cases state with
    | start =>
      dsimp only
      split
      · rename_i hminus
        rw [show p = .code from h, hminus]
        rfl
      · trivial
    | whole =>
      dsimp only
      rw [show p = .code from h]
      split
      · rename_i hpoint
        rw [hpoint]
        exact next_of_isCalm rfl rfl
      · split
        · rename_i hmark
          rcases hmark with rfl | rfl
          · exact next_of_isCalm rfl rfl
          · exact next_of_isCalm rfl rfl
        · trivial
    | fraction =>
      dsimp only
      rw [show p = .code from h]
      split
      · rename_i hmark
        rcases hmark with rfl | rfl
        · exact next_of_isCalm rfl rfl
        · exact next_of_isCalm rfl rfl
      · trivial
    | mark =>
      dsimp only
      rw [show p = .code from h]
      split
      · rename_i hsign
        rcases hsign with rfl | rfl
        · exact .inr rfl
        · exact .inl (next_of_isCalm rfl rfl)
      · trivial
    | _ => trivial

/-- A numeral is a word, whether it has a sign or not. -/
theorem isWord_numeral {s : String} (h : isNumeral s = true) : d.IsWord s.toList False := by
  have hread : ∀ (cs : List Char) (state : NumeralState) (p : ScanState), p.Meets state →
      (d.scan p cs).Meets (cs.foldl NumeralState.next state) := by
    intro cs
    induction cs with
    | nil => exact fun _ _ hmeets => hmeets
    | cons c rest ih => exact fun _ _ hmeets => ih _ _ hmeets.next
  have hmeets := hread s.toList .start .code rfl
  unfold isNumeral at h
  refine ⟨fun hnil => ?_, ?_⟩
  · rw [hnil] at h
    cases h
  · generalize s.toList.foldl NumeralState.next .start = state at h hmeets
    have hcode : d.scan .code s.toList = .code := by
      cases state with
      | whole | fraction | exponent => exact hmeets
      | _ => cases h
    rw [Dialect.Reads, hcode]
    exact .of_isBare rfl

end Numerals

section Dates

open Calendar

variable {pattern : Pattern} {date : Date} {time : Time}

/-- A padded number has no quotes. -/
theorem quote_not_mem_padded (width n : Nat) : '\'' ∉ (padded width n).toList := by
  intro h
  have hdigit := (isDigits_padded width n).digit _ h
  cases hdigit

/-- The fraction of a second has no quotes. -/
theorem quote_not_mem_fractionText (time : Time) : '\'' ∉ time.fractionText.toList := by
  unfold Time.fractionText
  split
  · simp
  · split
    · simpa [String.toList_append] using quote_not_mem_padded _ _
    · split
      · simpa [String.toList_append] using quote_not_mem_padded _ _
      · simpa [String.toList_append] using quote_not_mem_padded _ _

/-- A year has no quotes. -/
theorem quote_not_mem_yearText (year : Int) : '\'' ∉ (yearText year).toList := by
  unfold yearText
  split
  · exact quote_not_mem_padded _ _
  · rw [String.toList_append, List.mem_append, not_or]
    refine ⟨?_, quote_not_mem_padded _ _⟩
    split <;> decide

/-- A field of a date has no quotes unless it separates by one. -/
theorem quote_not_mem_field {field : Field} (h : field ≠ .separator '\'') :
    '\'' ∉ (field.write date time).toList := by
  cases field with
  | year => exact quote_not_mem_yearText _
  | fraction => exact quote_not_mem_fractionText time
  | milliseconds =>
    simp only [Field.write, String.toList_append, List.mem_append, not_or]
    exact ⟨by decide, quote_not_mem_padded _ _⟩
  | separator c =>
    simp only [Field.write, String.toList_singleton, List.mem_singleton]
    rintro rfl
    exact h rfl
  | _ => exact quote_not_mem_padded _ _

/-- A pattern without quotes writes dates without quotes. -/
theorem isWord_date (h : .separator '\'' ∉ pattern) :
    d.IsWord ("'" ++ pattern.write date time ++ "'").toList False := by
  refine isWord_text fun hquote => ?_
  simp only [Pattern.write, String.toList_join, List.flatMap_map, List.mem_flatMap] at hquote
  obtain ⟨field, hfield, hquote⟩ := hquote
  refine quote_not_mem_field (fun heq => h ?_) hquote
  rwa [← heq]

end Dates

section Literals

/-- Bytes are written one after the other. -/
theorem toList_hexBytes (bs : List UInt8) :
    (hexBytes bs).toList = bs.flatMap fun b => (Text.hexByte b).toList := by
  rw [hexBytes, String.toList_join, List.flatMap_map]

/-- Bytes are written in the capital digits of their halves. -/
theorem exists_digit_of_mem_hexBytes {bs : List UInt8} {c : Char} (h : c ∈ (hexBytes bs).toList) :
    ∃ n < 16, c = (Nat.digitChar n).toUpper := by
  rw [toList_hexBytes, List.mem_flatMap] at h
  obtain ⟨b, -, hc⟩ := h
  have hb : b.toNat < 256 := b.toNat_lt
  simp only [Text.hexByte, String.toList_ofList, List.mem_cons, List.not_mem_nil, or_false] at hc
  rcases hc with rfl | rfl
  · exact ⟨b.toNat / 16, by omega, rfl⟩
  · exact ⟨b.toNat % 16, by omega, rfl⟩

/-- The digits of bytes are letters of words. -/
theorem isWordPart_of_mem_hexBytes {bs : List UInt8} {c : Char} (h : c ∈ (hexBytes bs).toList) :
    isWordPart c = true := by
  have hdigit : ∀ n < 16, isWordPart (Nat.digitChar n).toUpper = true := by decide
  obtain ⟨n, hn, rfl⟩ := exists_digit_of_mem_hexBytes h
  exact hdigit n hn

/-- The digits of bytes have no quotes. -/
theorem quote_not_mem_hexBytes (bs : List UInt8) : '\'' ∉ (hexBytes bs).toList := by
  intro h
  have hpart := isWordPart_of_mem_hexBytes h
  cases hpart

/-- A truth value as a digit is a word without a comment. -/
theorem isWord_bit (b : Bool) : d.IsWord (bit b).toList False := by
  cases b with
  | true => exact isWord_of_calm (by decide) (by decide)
  | false => exact isWord_of_calm (by decide) (by decide)

/-- The dates of a style are written without quotes. -/
def LiteralStyle.isPlain : LiteralStyle → Bool
  | .date pattern | .dateTime pattern => !pattern.contains (.separator '\'')
  | _ => true

/-- What stands for a value is a word. -/
theorem LiteralStyle.isWord_write {style : LiteralStyle} {value : Literal} {text : String}
    (hstyle : style.isPlain = true) (hvalue : value.isPlain = true) (h : style.write? value = some text) :
    d.IsWord text.toList False := by
  have hseparator : ∀ pattern : Calendar.Pattern, (!pattern.contains (.separator '\'')) = true →
      .separator '\'' ∉ pattern := by
    intro pattern hpattern
    simpa using hpattern
  unfold LiteralStyle.write? at h
  split at h
  · cases h
    exact isWord_numeral (isNumeral_int _)
  · split at h
    · rename_i hfinite
      cases h
      exact isWord_numeral (messageStyle.isNumeral_write hfinite)
    · cases h
  · cases h
    exact isWord_numeral hvalue
  · cases h
    exact isWord_bit _
  · cases h
    exact isWord_quoteText _ _
  · cases h
    exact isWord_quoteText _ _
  · rename_i b
    cases h
    cases b with
    | true => exact isWord_of_calm (by decide) (by decide)
    | false => exact isWord_of_calm (by decide) (by decide)
  · cases h
    exact isWord_bit _
  · rename_i b
    cases h
    cases b with
    | true => exact isWord_of_calm (by decide) (by decide)
    | false => exact isWord_of_calm (by decide) (by decide)
  · cases h
    exact isWord_date (hseparator _ hstyle)
  · cases h
    exact isWord_date (hseparator _ hstyle)
  · cases h
    exact isWord_date (hseparator _ hstyle)
  · rename_i bs
    cases h
    have hcalm : ("0x" ++ Sql.hexBytes bs).toList.all isCalm = true := by
      rw [String.toList_append, List.all_append, Bool.and_eq_true]
      exact ⟨by decide, all_isCalm_of_isWordPart fun c hc => isWordPart_of_mem_hexBytes hc⟩
    exact isWord_of_calm hcalm (by simp [String.toList_append])
  · rename_i bs
    cases h
    have hword := (isWord_text (d := d) (quote_not_mem_hexBytes bs)).reads.headed
      (show d.separates ['X'] = true by cases d <;> rfl)
    simpa [String.toList_append] using hword
  · rename_i bs
    cases h
    have hquote : '\'' ∉ ("\\x" ++ Sql.hexBytes bs).toList := by
      rw [String.toList_append, List.mem_append, not_or]
      exact ⟨by decide, quote_not_mem_hexBytes bs⟩
    simpa [String.toList_append] using isWord_text (d := d) hquote
  · cases h

/-- The store types of a dialect have plain names, and plain literals. -/
theorem Dialect.catalog_plain {kind : DataKind} {m : TypeMapping} (h : d.catalog.mapping? kind = some m) :
    m.literal.isPlain = true ∧ m.storeType.toList.all isCalm = true := by
  obtain ⟨⟨storeType, style⟩, hstore, rfl⟩ := Option.map_eq_some_iff.1 h
  show style.isPlain = true ∧ storeType.toList.all isCalm = true
  -- only entities and shapes have no store type
  cases d <;> cases kind <;> first | (cases hstore; decide) | cases hstore

/-- What is written for a value is the word for its absence or a literal in the style of the mapping. -/
theorem TypeMapping.literal_of_write {m : TypeMapping} {value : Literal} {text : String}
    (h : m.write value = .ok text) :
    value.isNull = true ∧ text = "NULL" ∨ m.literal.write? value = some text := by
  unfold TypeMapping.write at h
  split at h
  · rename_i hnull
    cases h
    exact .inl ⟨hnull, rfl⟩
  · split at h
    · rename_i hwrite
      cases h
      exact .inr hwrite
    · cases h

/-- A literal of a store type of a dialect is a word. -/
theorem isWord_literal {kind : DataKind} {m : TypeMapping} (hm : d.catalog.mapping? kind = some m)
    {value : Literal} (hvalue : value.isPlain = true) {text : String} (h : m.write value = .ok text) :
    d.IsWord text.toList False := by
  rcases m.literal_of_write h with ⟨-, rfl⟩ | hwrite
  · exact isWord_of_calm (by decide) (by decide)
  · exact LiteralStyle.isWord_write (Dialect.catalog_plain hm).1 hvalue hwrite

end Literals

end Sql

end QueryPipeline
