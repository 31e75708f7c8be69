import QueryPipeline.Proofs.PlainScalars

/-!
# The texts of a statement

What stands around the scalars of a statement is made of separators, of names and of literals. So a comment
begins in a text that is put together just where one begins in the scalars in it.
-/

set_option autoImplicit false

namespace QueryPipeline.Sql

section Texts

variable {d : Dialect} {cs : List Char} {begun : Prop}

/-- A text of letters that mean nothing special. -/
def isSeparator (s : String) : Bool := !s.toList.isEmpty && s.toList.all isCalm

/-- A text that separates does so in every dialect. -/
theorem separates_of_isSeparator {s : String} (h : isSeparator s = true) : d.separates s.toList = true := by
  simp only [isSeparator, Bool.and_eq_true, Bool.not_eq_true', List.isEmpty_eq_false_iff] at h
  exact separates_of_calm h.2 h.1

/-- The text of an operator separates its operands. -/
theorem separates_operator (style : NameStyle) (op : ScalarOp) (kind : DataKind) :
    style.dialect.separates (operatorText style op kind).toList = true := by
  unfold operatorText
  generalize style.dialect = d
  split
  · cases d <;> rfl
  · cases op <;> cases d <;> rfl

/-- A term of a dialect is a word without a comment. -/
theorem isWord_term {sql : String} (h : sql = "*" ∨ IsTerm sql) : d.IsWord sql.toList False := by
  rcases h with rfl | h
  · exact isWord_of_separates (separates_of_isSeparator (by decide))
  · cases h with
    | datePart h =>
      have hplain : ∀ name ∈ datePartNames, isPlainWord name = true := by decide
      exact isWord_of_isPlainWord (hplain _ h)
    | textType length =>
      have hdigits : (toString length).toList.all isCalm = true := by
        rw [Number.toList_toString_nat]
        exact all_isCalm_of_isWordPart fun c hc => isWordPart_of_isDigit ((Number.isDigits_toDigits _).digit c hc)
      refine isWord_of_calm ?_ (by simp [String.toList_append])
      simp only [String.toList_append, List.all_append, Bool.and_eq_true]
      exact ⟨⟨by decide, hdigits⟩, by decide⟩
    | language i =>
      rw [String.toList_append]
      exact (isWord_numeral (Number.isNumeral_int i)).reads.headed (separates_of_isSeparator (by decide))

/-- Behind a separator, what begins a comment at the front follows anything. -/
theorem Dialect.Reads.behind {s : String} (h : d.Reads cs begun) (hs : isSeparator s = true) :
    d.Follows (s.toList ++ cs) begun := h.separated (separates_of_isSeparator hs)

/-- With a separator before it, what begins a comment at the front is a word. -/
theorem Dialect.Reads.headedBy {s : String} (h : d.Reads cs begun) (hs : isSeparator s = true) :
    d.IsWord (s.toList ++ cs) begun := h.headed (separates_of_isSeparator hs)

/-- A text that separates begins no comment, whatever stands before it. -/
theorem follows_separator {s : String} (hs : isSeparator s = true) : d.Follows s.toList False :=
  follows_of_separates (separates_of_isSeparator hs)

variable {style : NameStyle} {mapping : Option TypeMapping}

/-- A plain constant is a word without a comment. -/
theorem isWord_constantText (hm : ∀ m ∈ mapping, ∃ kind, style.dialect.catalog.mapping? kind = some m)
    {value : Literal} (hvalue : value.isPlain = true) {text : String}
    (h : constantText mapping value = .ok text) : style.dialect.IsWord text.toList False := by
  cases mapping with
  | some m =>
    obtain ⟨kind, hkind⟩ := hm m rfl
    exact isWord_literal hkind hvalue h
  | none =>
    unfold constantText at h
    split at h
    · rename_i m hmapping
      cases hmapping
    · split at h
      · cases h
        exact isWord_of_separates (separates_of_isSeparator (by decide))
      · cases h

/-- A truth value is a word without a comment. -/
theorem isWord_boolLiteral (hm : ∀ m ∈ mapping, ∃ kind, style.dialect.catalog.mapping? kind = some m)
    {b : Bool} {text : String} (h : boolLiteral mapping b = .ok text) :
    style.dialect.IsWord text.toList False := by
  cases mapping with
  | some m =>
    obtain ⟨kind, hkind⟩ := hm m rfl
    exact isWord_literal hkind rfl h
  | none =>
    cases h
    exact isWord_bit b

/-- The name of a source or of a column follows it. -/
theorem follows_aliasText (aliasName : String) :
    style.dialect.Follows (letters (aliasText style aliasName)) False := by
  simp only [aliasText, letters_cons, letters_nil, Piece.written, String.toList_append, List.append_nil]
  exact (isWord_name style aliasName).reads.separated (separates_of_isSeparator (by decide))

/-- An alias for a column begins no comment. -/
theorem follows_outputAlias (s : Scalar) (aliasName : Option String) :
    style.dialect.Follows (letters (outputAlias style s aliasName)) False := by
  unfold outputAlias
  split
  · exact follows_nil
  · split
    · exact follows_nil
    · exact follows_aliasText _

/-- A condition as a value is a word. -/
theorem isWord_conditionAsValue {condition : List Piece} {ifTrue ifFalse : String}
    (h : d.IsWord (letters condition) begun) (htrue : d.IsWord ifTrue.toList False)
    (hfalse : d.IsWord ifFalse.toList False) :
    d.IsWord (letters (conditionAsValue condition ifTrue ifFalse)) begun := by
  have hend : d.Follows ("\n".toList ++ "END".toList) False :=
    (follows_separator (by decide)).reads.behind (by decide)
  have helse : d.Follows ("\n".toList ++ ("ELSE ".toList ++ (ifFalse.toList ++ ("\n".toList ++ "END".toList))))
      (False ∨ False) :=
    ((hfalse.append hend).reads.behind (by decide)).reads.behind (by decide)
  have hthen := (htrue.append helse).reads.behind (show isSeparator " THEN " = true by decide)
  have hwhen := (h.append hthen).reads.headedBy (show isSeparator "WHEN " = true by decide)
  have hcase := (hwhen.reads.headedBy (show isSeparator "\n" = true by decide)).reads.headedBy
    (show isSeparator "CASE" = true by decide)
  simp only [conditionAsValue, letters_append, letters_text, letters_newline, letters_indent, letters_dedent,
    letters_nil, String.toList_append, List.append_nil, List.append_assoc, List.cons_append, List.nil_append]
  exact hcase.congr (by simp)

/-- Two words with a separator between them are a word. -/
theorem isWord_between {l r : List Piece} {s : String} {begun' : Prop} (hl : d.IsWord (letters l) begun)
    (hs : d.separates s.toList = true) (hr : d.IsWord (letters r) begun') :
    d.IsWord (letters (l ++ .text s :: r)) (begun ∨ begun') := by
  rw [letters_append, letters_text]
  exact hl.append (hr.reads.separated hs)

/-- What stands between brackets or key words is a word with them. -/
theorem isWord_enclosed {pieces : List Piece} {opening closing : String} (hopening : isSeparator opening = true)
    (h : d.Reads (letters pieces) begun) (hclosing : isSeparator closing = true) :
    d.IsWord (letters (.text opening :: pieces ++ [.text closing])) begun := by
  simp only [List.cons_append, letters_text, letters_append, letters_nil, List.append_nil]
  exact ((h.append (follows_separator hclosing)).headedBy hopening).congr (by simp)

/-- An operand is a word, in parentheses or without them. -/
theorem isWord_parenthesize {pieces : List Piece} (needed : Bool)
    (h : style.dialect.IsWord (letters pieces) begun) :
    style.dialect.IsWord (letters (parenthesize needed pieces)) begun := by
  cases needed with
  | false => exact h
  | true => exact isWord_enclosed (by decide) h.reads (by decide)

end Texts

section Selects

variable {style : NameStyle} {begun : Scalar → Prop}

/-- A scalar is written as a word, in which a comment begins just when `begun`. -/
def Scalar.WritesWord (style : NameStyle) (begun : Prop) (s : Scalar) : Prop :=
  ∀ pieces, s.render style = .ok pieces → style.dialect.IsWord (letters pieces) begun

/-- A scalar between separators may follow a word, and so may nothing. -/
theorem follows_renderOption {before after pieces : List Piece} {s : Option Scalar}
    (hword : ∀ whole ∈ s, whole.WritesWord style (begun whole))
    (hbefore : style.dialect.separates (letters before) = true)
    (hafter : style.dialect.Follows (letters after) False)
    (h : renderOption style before s after = .ok pieces) :
    style.dialect.Follows (letters pieces) (∃ whole ∈ s, begun whole) := by
  cases s with
  | none =>
    cases h
    exact follows_nil.congr (by simp)
  | some whole =>
    obtain ⟨w, hw, h⟩ := bind_eq_ok.1 h
    cases h
    rw [List.append_assoc, letters_append, letters_append]
    exact (((hword whole rfl w hw).append hafter).reads.separated hbefore).congr (by simp)

/-- A limit that stands before the columns. -/
def renderTop (style : NameStyle) (limit offset : Option Scalar) : Written :=
  if style.dialect.pagination = .top ∧ offset.isNone then renderOption style [.text "TOP("] limit [.text ") "]
  else pure []

/-- A limit and an offset that stand at the end. -/
def renderPaging (style : NameStyle) (limit offset : Option Scalar) : Written :=
  if style.dialect.pagination = .limitOffset then do
    let most ← renderOption style [.newline, .text "LIMIT "] limit []
    let most := most ++ unlimitedText style limit offset
    let before := if most.isEmpty then Piece.newline else Piece.text " "
    return most ++ (← renderOption style [before, .text "OFFSET "] offset [])
  else if offset.isSome then do
    let skipped ← renderOption style [.newline, .text "OFFSET "] offset [.text " ROWS"]
    return skipped ++ (← renderOption style [.text " FETCH NEXT "] limit [.text " ROWS ONLY"])
  else if style.dialect.pagination = .fetch then
    renderOption style [.newline, .text "FETCH FIRST "] limit [.text " ROWS ONLY"]
  else pure []

/-- What stands between the conditions of a select and its limit. -/
def orderText (style : NameStyle) (s : Select) (keys : List Piece) : List Piece :=
  if !s.orderings.isEmpty then [.newline, .text "ORDER BY "] ++ keys
  else if style.dialect.pagination = .limitOffset then [] else defaultOrder s.offset

/-- A select is written clause by clause, with its limit before its columns or at its end. -/
theorem Select.render_eq (s : Select) : s.render style = (do
    let top ← renderTop style s.limit s.offset
    let columns ← renderColumns style s.projection
    let sources ← renderTables style s.tables
    let condition ← renderOption style [.newline, .text "WHERE "] s.predicate []
    let keys ← renderKeys style s.orderings
    let paging ← renderPaging style s.limit s.offset
    return .text "SELECT " :: (if s.distinct then [.text "DISTINCT "] else []) ++ top
      ++ (if s.projection.isEmpty then [.text "1"] else columns)
      ++ (if s.tables.isEmpty then [] else [.newline, .text "FROM "] ++ sources)
      ++ condition ++ orderText style s keys ++ paging) := by
  obtain ⟨tables, projection, slots, predicate, orderings, limit, offset, distinct⟩ := s
  rw [Select.render]
  simp only [renderTop, renderPaging, orderText]
  generalize style.dialect.pagination = pagination
  cases pagination <;> cases offset <;> simp

/-- The texts of some things follow a word, and so does nothing where there are none. -/
theorem follows_unless_isEmpty {α : Type} {d : Dialect} {begun : Prop} (things : List α) (pieces : List Piece)
    (h : d.Follows (letters pieces) begun) (hsome : begun → things ≠ []) :
    d.Follows (letters (if things.isEmpty then [] else pieces)) begun := by
  cases things with
  | nil => exact follows_nil.congr (by simpa using hsome)
  | cons _ _ => exact h

/-- A limit before the columns begins a comment where its scalar does. -/
theorem reads_renderTop {limit offset : Option Scalar}
    (hlimit : ∀ whole ∈ limit, whole.WritesWord style (begun whole))
    {top : List Piece} (h : renderTop style limit offset = .ok top) {cs : List Char} {later : Prop}
    (hcs : style.dialect.Reads cs later) :
    style.dialect.Reads (letters top ++ cs)
      (((style.dialect.pagination = .top ∧ offset.isNone) ∧ ∃ whole ∈ limit, begun whole) ∨ later) := by
  unfold renderTop at h
  split at h
  · rename_i hplace
    cases limit with
    | none =>
      cases h
      exact hcs.congr (by simp)
    | some whole =>
      obtain ⟨w, hw, h⟩ := bind_eq_ok.1 h
      cases h
      have hrest := hcs.behind (show isSeparator ") " = true by decide)
      have hlines := ((hlimit whole rfl w hw).append hrest).reads
      simp only [letters_append, letters_text, letters_nil, List.append_assoc, List.append_nil]
      exact (hlines.headedBy (by decide)).reads.congr (by simp [hplace])
  · rename_i hplace
    cases h
    exact hcs.congr (by simp only [hplace, false_and, false_or])

/-- The limit that an offset demands begins no comment. -/
theorem follows_unlimitedText (limit offset : Option Scalar) :
    style.dialect.Follows (letters (unlimitedText style limit offset)) False := by
  unfold unlimitedText
  split
  · rename_i all hall
    have hseparates : style.dialect.separates ("\n" ++ ("LIMIT " ++ all)).toList = true := by
      generalize style.dialect = d at hall
      cases d <;> cases hall
      rfl
    simpa [String.toList_append] using follows_of_separates hseparates
  · exact follows_nil

/-- A limit and an offset at the end begin a comment where one of their scalars does. -/
theorem follows_renderPaging {limit offset : Option Scalar}
    (hlimit : ∀ whole ∈ limit, whole.WritesWord style (begun whole))
    (hoffset : ∀ whole ∈ offset, whole.WritesWord style (begun whole))
    {paging : List Piece} (h : renderPaging style limit offset = .ok paging) :
    style.dialect.Follows (letters paging)
      ((¬ (style.dialect.pagination = .top ∧ offset.isNone) ∧ ∃ whole ∈ limit, begun whole) ∨
        ∃ whole ∈ offset, begun whole) := by
  unfold renderPaging at h
  split at h
  · rename_i hplace
    obtain ⟨most, hmost, h⟩ := bind_eq_ok.1 h
    obtain ⟨skipped, hskipped, h⟩ := bind_eq_ok.1 h
    cases h
    have hmost := follows_renderOption hlimit (separates_of_calm (by decide) (by decide)) follows_nil hmost
    have hskipped := follows_renderOption hoffset (by
      split <;> exact separates_of_calm (by decide) (by decide)) follows_nil hskipped
    rw [letters_append, letters_append]
    exact ((hmost.append (follows_unlimitedText limit offset)).append hskipped).congr (by simp [hplace])
  · split at h
    · rename_i hsome
      obtain ⟨skipped, hskipped, h⟩ := bind_eq_ok.1 h
      obtain ⟨most, hmost, h⟩ := bind_eq_ok.1 h
      cases h
      have hskipped := follows_renderOption hoffset (separates_of_calm (by decide) (by decide))
        (follows_separator (show isSeparator " ROWS" = true by decide)) hskipped
      have hmost := follows_renderOption hlimit (separates_of_calm (by decide) (by decide))
        (follows_separator (show isSeparator " ROWS ONLY" = true by decide)) hmost
      rw [letters_append]
      refine (hskipped.append hmost).congr ?_
      rw [or_comm]
      simp [Option.isSome_iff_ne_none.1 hsome]
    · rename_i hlimitOffset hnone
      obtain rfl : offset = none := by simpa using hnone
      split at h
      · rename_i hplace
        have hmost := follows_renderOption hlimit (separates_of_calm (by decide) (by decide))
          (follows_separator (show isSeparator " ROWS ONLY" = true by decide)) h
        exact hmost.congr (by simp [hplace])
      · rename_i hfetch
        cases h
        have htop : style.dialect.pagination = .top := by
          cases hpagination : style.dialect.pagination <;> simp_all
        exact follows_nil.congr (by simp [htop])

/-- The order that an offset demands begins no comment. -/
theorem follows_defaultOrder (offset : Option Scalar) :
    style.dialect.Follows (letters (defaultOrder offset)) False := by
  unfold defaultOrder
  split
  · exact follows_of_separates (separates_of_calm (by decide) (by decide))
  · exact follows_nil

/-- What stands between the conditions and the limit begins a comment where the keys do. -/
theorem follows_orderText {s : Select} {keys : List Piece} {begun : Prop}
    (h : style.dialect.Reads (letters keys) begun) (hsome : begun → s.orderings ≠ []) :
    style.dialect.Follows (letters (orderText style s keys)) begun := by
  have hkeys : style.dialect.Follows (letters ([.newline, .text "ORDER BY "] ++ keys)) begun :=
    (h.headedBy (show isSeparator "ORDER BY " = true by decide)).reads.behind (by decide)
  unfold orderText
  cases horderings : s.orderings with
  | cons _ _ => exact hkeys
  | nil =>
    have hnothing : False ↔ begun := by simpa [horderings] using hsome
    simp only [List.isEmpty_nil, Bool.not_true, Bool.false_eq_true, if_false]
    split
    · exact follows_nil.congr hnothing
    · exact (follows_defaultOrder s.offset).congr hnothing

end Selects

end QueryPipeline.Sql
