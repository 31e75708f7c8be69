import QueryPipeline.Proofs.Grouping
import QueryPipeline.Proofs.Phrases

/-!
# Operators in phrases

The grouping of a phrase has an operator for each operator that the text of the phrase shows. Signs of
negative numbers and `NOT EXISTS` are operators for a database too, and so is the comparison that makes a
condition of a truth value. Everything between brackets or key words is enclosed, and a nested select is a
unit of its own. The tokens of the grouping spell just what the phrase is written as.
-/

set_option autoImplicit false

namespace QueryPipeline.Sql

section Spelling

/-- What some pieces spell, letter by letter. -/
def spell (pieces : List Piece) : List (Char ⊕ Piece) :=
  pieces.flatMap fun
    | .text s => s.toList.map .inl
    | piece => [.inr piece]

/-- Without pieces nothing is spelled. -/
@[simp] theorem spell_nil : spell [] = [] := rfl

/-- Pieces one after the other spell what they spell, one after the other. -/
@[simp] theorem spell_append (before after : List Piece) :
    spell (before ++ after) = spell before ++ spell after :=
  List.flatMap_append

/-- A text spells its letters. -/
@[simp] theorem spell_text (s : String) (rest : List Piece) :
    spell (.text s :: rest) = s.toList.map .inl ++ spell rest := rfl

/-- The end of a line is spelled as such. -/
@[simp] theorem spell_newline (rest : List Piece) :
    spell (.newline :: rest) = .inr .newline :: spell rest := rfl

/-- An indentation is spelled as such. -/
@[simp] theorem spell_indent (rest : List Piece) :
    spell (.indent :: rest) = .inr .indent :: spell rest := rfl

/-- The end of an indentation is spelled as such. -/
@[simp] theorem spell_dedent (rest : List Piece) :
    spell (.dedent :: rest) = .inr .dedent :: spell rest := rfl

/-- The text of some letters from a cursor on. -/
def layOutLetters (c : Cursor) : List (Char ⊕ Piece) → String
  | [] => ""
  | .inr .newline :: rest => "\n" ++ layOutLetters { c with atLineStart := true } rest
  | .inr .indent :: rest => layOutLetters { c with level := c.level + 1 } rest
  | .inr .dedent :: rest => layOutLetters { c with level := c.level - 1 } rest
  | .inr piece :: rest =>
    if piece.written.isEmpty then layOutLetters c rest
    else c.margin ++ piece.written ++ layOutLetters { c with atLineStart := false } rest
  | .inl letter :: rest =>
    c.margin ++ String.singleton letter ++ layOutLetters { c with atLineStart := false } rest

/-- The parameters among some letters. -/
def parametersOfLetters (known : List CommandParameter) : List (Char ⊕ Piece) → List CommandParameter
  | [] => known
  | .inr (.parameter p) :: rest =>
    if known.any (·.name == p.name) then parametersOfLetters known rest
    else parametersOfLetters (known ++ [p]) rest
  | _ :: rest => parametersOfLetters known rest

/-- Letters of one text are laid out together, behind the margin if a line starts with them. -/
theorem layOutLetters_text (rest : List (Char ⊕ Piece)) : ∀ (letters : List Char) (c : Cursor),
    letters ≠ [] → layOutLetters c (letters.map .inl ++ rest) =
      c.margin ++ String.ofList letters ++ layOutLetters { c with atLineStart := false } rest
  | [letter], c, _ => by
    rw [List.map_cons, List.map_nil, List.singleton_append, layOutLetters, String.singleton_eq_ofList]
  | letter :: next :: letters, c, _ => by
    have hrest := layOutLetters_text rest (next :: letters) { c with atLineStart := false }
      (List.cons_ne_nil _ _)
    have hmargin : Cursor.margin { c with atLineStart := false } = "" := rfl
    have hletters : String.ofList (letter :: next :: letters) =
        String.singleton letter ++ String.ofList (next :: letters) := by
      rw [String.singleton_eq_ofList, ← String.ofList_append, List.singleton_append]
    rw [List.map_cons, List.cons_append, layOutLetters, hrest, hmargin, hletters, String.empty_append]
    simp only [String.append_assoc]

/-- Pieces are laid out as what they spell. -/
theorem layOut_eq : ∀ (pieces : List Piece) (c : Cursor),
    layOut c pieces = layOutLetters c (spell pieces)
  | [], _ => rfl
  | .newline :: rest, c => congrArg ("\n" ++ ·) (layOut_eq rest _)
  | .indent :: rest, c => layOut_eq rest _
  | .dedent :: rest, c => layOut_eq rest _
  | .parameter p :: rest, c => by
    have hspell : spell (.parameter p :: rest) = .inr (.parameter p) :: spell rest := rfl
    simp only [hspell, layOut, layOutLetters, layOut_eq rest]
  | .text s :: rest, c => by
    have hspell : spell (.text s :: rest) = s.toList.map .inl ++ spell rest := rfl
    simp only [hspell, layOut, layOut_eq rest]
    by_cases hs : s = ""
    · rw [hs]
      rfl
    · have hletters : s.toList ≠ [] := fun h => hs (String.toList_eq_nil_iff.1 h)
      rw [layOutLetters_text _ _ _ hletters, String.ofList_toList, if_neg (by simpa [Piece.written] using hs)]
      rfl

/-- Pieces have the same parameters as what they spell. -/
theorem parametersOf_eq : ∀ (pieces : List Piece) (known : List CommandParameter),
    parametersOf known pieces = parametersOfLetters known (spell pieces) := by
  have htext : ∀ (letters : List Char) (known : List CommandParameter) (rest : List (Char ⊕ Piece)),
      parametersOfLetters known (letters.map .inl ++ rest) = parametersOfLetters known rest := by
    intro letters known rest
    induction letters with
    | nil => rfl
    | cons letter letters ih => exact ih
  intro pieces
  induction pieces with
  | nil => exact fun _ => rfl
  | cons piece rest ih =>
    intro known
    cases piece with
    | parameter p =>
      have hspell : spell (.parameter p :: rest) = .inr (.parameter p) :: spell rest := rfl
      rw [hspell, parametersOf, parametersOfLetters, ih, ih]
    | text s => exact (ih known).trans (htext s.toList known (spell rest)).symm
    | _ => exact ih known

/-- Pieces that spell the same make the same command. -/
theorem Command.ofPieces_of_spell {pieces pieces' : List Piece} (h : spell pieces = spell pieces') :
    Command.ofPieces pieces = Command.ofPieces pieces' := by
  simp only [ofPieces, layOut_eq, parametersOf_eq, h]

end Spelling

/-- The pieces of a token. -/
def Token.pieces : Token → List Piece
  | .atom pieces | .opening pieces | .separator pieces | .closing pieces => pieces
  | .between _ text | .before _ text | .after _ text => [.text text]

/-- The pieces of an expression. -/
def Grouping.pieces (g : Grouping) : List Piece := g.tokens.flatMap Token.pieces

section Pieces

variable (sign : Sign) (text : String) (pieces : List Piece) (left right operand : Grouping)

/-- An atom is made of its pieces. -/
@[simp] theorem Grouping.pieces_atom : (atom pieces).pieces = pieces := by
  simp [Grouping.pieces, tokens, Token.pieces]

/-- An operator between two operands is made of both of them with its text between them. -/
@[simp] theorem Grouping.pieces_between :
    (between sign text left right).pieces = left.pieces ++ .text text :: right.pieces := by
  simp [Grouping.pieces, tokens, Token.pieces]

/-- An operator before its operand is made of its text and the operand. -/
@[simp] theorem Grouping.pieces_before :
    (before sign text operand).pieces = .text text :: operand.pieces := by
  simp [Grouping.pieces, tokens, Token.pieces]

/-- An operator after its operand is made of the operand and its text. -/
@[simp] theorem Grouping.pieces_after :
    (after sign text operand).pieces = operand.pieces ++ [.text text] := by
  simp [Grouping.pieces, tokens, Token.pieces]

end Pieces

/-- A part of a bracket and what stands before it. -/
abbrev Part := List Piece × Grouping

/-- The pieces of the parts of a bracket. -/
def partPieces (parts : List Part) : List Piece := parts.flatMap fun part => part.1 ++ part.2.pieces

/-- The last parts of a bracket. -/
def Contents.of (g : Grouping) (closing : List Piece) : List Part → Contents
  | [] => .last g closing
  | (separator, g') :: rest => .more g separator (.of g' closing rest)

/-- Some parts in a bracket. A bracket without parts is a unit. -/
def enclose (opening closing : List Piece) : List Part → Grouping
  | [] => .atom (opening ++ closing)
  | (before, g) :: rest => .enclosed (opening ++ before) (.of g closing rest)

/-- What is in a bracket is made of its first part, the others and what closes it. -/
theorem Contents.pieces_of (closing : List Piece) : ∀ (rest : List Part) (g : Grouping),
    (Contents.of g closing rest).tokens.flatMap Token.pieces =
      g.pieces ++ partPieces rest ++ closing
  | [], g => by simp [Contents.of, tokens, Token.pieces, Grouping.pieces, partPieces]
  | (separator, g') :: rest, g => by
    simp [Contents.of, tokens, Token.pieces, pieces_of closing rest g', Grouping.pieces, partPieces]

/-- A bracket is made of what opens it, its parts and what closes it. -/
@[simp] theorem pieces_enclose (opening closing : List Piece) (parts : List Part) :
    (enclose opening closing parts).pieces = opening ++ partPieces parts ++ closing := by
  cases parts with
  | nil => simp [enclose, partPieces]
  | cons part rest =>
    have hrest := Contents.pieces_of closing rest part.2
    simp [enclose, Grouping.pieces, Grouping.tokens, Token.pieces, hrest, partPieces]

/-- The literal of a value. The sign of a negative number is an operator. -/
def signed (literal : String) : Grouping :=
  match literal.toList with
  | '-' :: digits => .before .minus "-" (.atom [.text (String.ofList digits)])
  | _ => .atom [.text literal]

/-- The sign of an operator between two operands. -/
def signOf (op : ScalarOp) (kind : DataKind) : Sign :=
  if op = .add ∧ (kind = .text ∨ kind = .char) then .join else .op op

/-- Every operation but the addition has its own sign, whatever its operands are. -/
theorem signOf_of_ne_add {op : ScalarOp} (hop : op ≠ .add) (kind : DataKind) : signOf op kind = .op op :=
  if_neg fun h => hop h.1

mutual

/-- The operators that the text of a phrase shows. -/
def Phrase.grouping (style : NameStyle) : Phrase → Except Diagnostic Grouping
  | .column table name => .ok (.atom [.text (style.write table ++ "." ++ style.write name)])
  | .constant mapping value => do return signed (← constantText mapping value)
  | .parameter name mapping nullable =>
    .ok (.atom [.parameter ⟨name, style.placeholder name, mapping, nullable⟩])
  | .binary op kind left right => do
    let l ← left.grouping style
    let r ← right.grouping style
    return .between (signOf op kind) (operatorText style op kind) l r
  | .coalesce left right => do
    let l ← left.grouping style
    let r ← right.grouping style
    return enclose [.text "COALESCE("] [.text ")"] [([], l), ([.text ", "], r)]
  | .not operand => do
    return .before .not "NOT " (enclose [.text "("] [.text ")"] [([], ← operand.grouping style)])
  | .negate operand => do return .before .minus "-" (← operand.grouping style)
  | .isNull operand negated => do
    return .after .isNull (if negated then " IS NOT NULL" else " IS NULL") (← operand.grouping style)
  | .function _ name schema receiver args => do
    let owner ← optionGrouping style receiver
    let args ← argumentParts style [] args
    let call (space : List Piece) := enclose (space ++ [.text (name ++ "(")]) [.text ")"] args
    return match owner, schema with
      | none, none => call []
      | none, some schema => call [.text (style.write schema ++ ".")]
      | some owner, none => .between .member "." owner (call [])
      | some owner, some schema =>
        .before .member (style.write schema ++ ".") (.between .member "." owner (call []))
  | .case branches otherwise => do
    let branches ← caseParts style branches
    let otherwise ← optionGrouping style otherwise
    return enclose [.text "CASE", .indent] [.dedent, .newline, .text "END"]
      (branches ++ otherwise.toList.map (([.newline, .text "ELSE "], ·)))
  | .existsIn subquery negated => do
    let inner ← subquery.render style
    let existence := Grouping.atom (.text "EXISTS (" :: .newline :: .indent :: inner
      ++ [.dedent, .newline, .text ")"])
    return if negated then .before .not "NOT " existence else existence
  | .like subject pattern escape => do
    let subject ← subject.grouping style
    let pattern ← pattern.grouping style
    let escape ← optionGrouping style escape
    let like := Grouping.between .like " LIKE " subject pattern
    return match escape with
      | none => like
      | some escape => .between .escape " ESCAPE " like escape
  | .cast operand mapping =>
    match mapping with
    | some m => do
      return enclose [.text "CAST("] [.text (" AS " ++ m.storeType ++ ")")]
        [([], ← operand.grouping style)]
    | none => .error (.bug "cast without a target type mapping")
  | .fragment sql => .ok (.atom [.text sql])
  | .parens inner => do return enclose [.text "("] [.text ")"] [([], ← inner.grouping style)]
  | .truthOf condition mapping => do
    let ifTrue ← boolLiteral mapping true
    let ifFalse ← boolLiteral mapping false
    return enclose [.text "CASE", .indent, .newline, .text "WHEN "]
      [.text (" THEN " ++ ifTrue), .newline, .text ("ELSE " ++ ifFalse), .dedent, .newline, .text "END"]
      [([], ← condition.grouping style)]
  | .isTrue value mapping => do
    let value ← value.grouping style
    return .between (.op .equal) " = " value (.atom [.text (← boolLiteral mapping true)])

/-- The operators of a phrase that may be missing. -/
def optionGrouping (style : NameStyle) : Option Phrase → Except Diagnostic (Option Grouping)
  | none => .ok none
  | some p => do return some (← p.grouping style)

/-- The parts that arguments are, the first after some pieces and the others after commas. -/
def argumentParts (style : NameStyle) (before : List Piece) :
    List Phrase → Except Diagnostic (List Part)
  | [] => .ok []
  | p :: rest => do
    let g ← p.grouping style
    return (before, g) :: (← argumentParts style [.text ", "] rest)

/-- The parts that the branches of a `CASE` are. -/
def caseParts (style : NameStyle) : List PhraseBranch → Except Diagnostic (List Part)
  | [] => .ok []
  | ⟨test, result⟩ :: rest => do
    let test ← test.grouping style
    let result ← result.grouping style
    return ([.newline, .text "WHEN "], test) :: ([.text " THEN "], result) :: (← caseParts style rest)

end

section Agreement

/-- Two computations fail with the same error, or have results in a relation. -/
inductive Alike {α : Type} (R : α → List Piece → Prop) : Except Diagnostic α → Written → Prop
  | error (d : Diagnostic) : Alike R (.error d) (.error d)
  | ok {a : α} {pieces : List Piece} (h : R a pieces) : Alike R (.ok a) (.ok pieces)

namespace Alike

variable {α β : Type} {R : α → List Piece → Prop} {Q : β → List Piece → Prop}

/-- Computations that come out alike still do so when they go on alike from their results. -/
theorem bind {x : Except Diagnostic α} {y : Written} {f : α → Except Diagnostic β}
    {g : List Piece → Written} (h : Alike R x y)
    (hf : ∀ a pieces, R a pieces → Alike Q (f a) (g pieces)) : Alike Q (x >>= f) (y >>= g) := by
  cases h with
  | error d => exact .error d
  | ok h => exact hf _ _ h

/-- Computations come out alike, too, when the result of the first one is changed to one in the other relation.
-/
theorem map {x : Except Diagnostic α} {y : Written} {f : α → β} (h : Alike R x y)
    (hf : ∀ a pieces, R a pieces → Q (f a) pieces) : Alike Q (x >>= fun a => .ok (f a)) y := by
  cases h with
  | error d => exact .error d
  | ok h => exact .ok (hf _ _ h)

/-- A computation on both sides comes out alike. -/
theorem bind_same {γ : Type} {x : Except Diagnostic γ} {f : γ → Except Diagnostic β} {g : γ → Written}
    (hf : ∀ a, Alike Q (f a) (g a)) : Alike Q (x >>= f) (x >>= g) := by
  cases x with
  | error d => exact .error d
  | ok a => exact hf a

end Alike

/-- Without parts there are no pieces. -/
@[simp] theorem partPieces_nil : partPieces [] = [] := rfl

/-- A part has what stands before it and its own pieces, and then come those of the others. -/
@[simp] theorem partPieces_cons (before : List Piece) (g : Grouping) (rest : List Part) :
    partPieces ((before, g) :: rest) = before ++ g.pieces ++ partPieces rest := by
  simp [partPieces]

/-- Parts one after the other have their pieces one after the other. -/
@[simp] theorem partPieces_append (parts rest : List Part) :
    partPieces (parts ++ rest) = partPieces parts ++ partPieces rest := by
  simp [partPieces]

/-- The pieces of an expression between others, or none if it is missing. -/
def presentPieces (before after : List Piece) : Option Grouping → List Piece
  | none => []
  | some g => before ++ g.pieces ++ after

/-- An expression that is missing has no pieces. -/
@[simp] theorem presentPieces_none (before after : List Piece) : presentPieces before after none = [] := rfl

/-- An expression that is there has its pieces between the others. -/
@[simp] theorem presentPieces_some (before after : List Piece) (g : Grouping) :
    presentPieces before after (some g) = before ++ g.pieces ++ after := rfl

/-- A literal is spelled as it is written, whether its sign is an operator or not. -/
@[simp] theorem spell_signed (literal : String) : spell (signed literal).pieces = spell [.text literal] := by
  unfold signed
  split
  · rename_i digits h
    have hliteral : literal = String.ofList ('-' :: digits) := by rw [← h, String.ofList_toList]
    simp [hliteral]
  · simp

variable {style : NameStyle}

mutual

/-- The tokens of a phrase spell what it is written as. -/
theorem Phrase.grouping_spells : ∀ p : Phrase,
    Alike (fun g pieces => spell g.pieces = spell pieces) (p.grouping style) (p.render style)
  | .column _ _ => .ok rfl
  | .constant mapping value => .bind_same fun literal => .ok (by simp)
  | .parameter _ _ _ => .ok rfl
  | .binary op kind left right =>
    .bind (left.grouping_spells) fun _ _ hl => .bind (right.grouping_spells) fun _ _ hr =>
      .ok (by simp [hl, hr])
  | .coalesce left right =>
    .bind (left.grouping_spells) fun _ _ hl => .bind (right.grouping_spells) fun _ _ hr =>
      .ok (by simp [hl, hr])
  | .not operand => .bind (operand.grouping_spells) fun _ _ h => .ok (by simp [h])
  | .negate operand => .bind (operand.grouping_spells) fun _ _ h => .ok (by simp [h])
  | .isNull operand negated => .bind (operand.grouping_spells) fun _ _ h => .ok (by simp [h])
  | .function _ name schema receiver args =>
    .bind (optionGrouping_spells [] [.text "."] receiver) fun owner _ howner =>
      .bind (argumentParts_spells [] args) fun _ _ hargs => .ok (by
        simp only [List.nil_append, ite_self] at hargs
        cases owner <;> cases schema <;> simp [← howner, hargs])
  | .case branches otherwise =>
    .bind (caseParts_spells branches) fun _ _ hbranches =>
      .bind (optionGrouping_spells [.newline, .text "ELSE "] [] otherwise) fun otherwise _ hotherwise =>
        .ok (by
          cases otherwise <;> simp [hbranches, ← hotherwise])
  | .existsIn inner negated => by
    rw [Phrase.grouping, Phrase.render]
    cases inner.render style with
    | error d => exact .error d
    | ok ps => cases negated <;> exact .ok (by simp)
  | .like subject pattern escape =>
    .bind (subject.grouping_spells) fun _ _ hs => .bind (pattern.grouping_spells) fun _ _ hp =>
      .bind (optionGrouping_spells [.text " ESCAPE "] [] escape) fun escape _ he => .ok (by
        cases escape <;> simp [hs, hp, ← he])
  | .cast operand mapping => by
    cases mapping with
    | some m => exact .bind (operand.grouping_spells) fun _ _ h => .ok (by simp [h])
    | none => exact .error _
  | .fragment _ => .ok rfl
  | .parens inner => .bind (inner.grouping_spells) fun _ _ h => .ok (by simp [h])
  | .truthOf condition mapping =>
    .bind_same fun ifTrue => .bind_same fun ifFalse => .bind (condition.grouping_spells) fun _ _ h =>
      .ok (by simp [conditionAsValue, h])
  | .isTrue value mapping =>
    .bind (value.grouping_spells) fun _ _ h => .bind_same fun literal => .ok (by simp [h])

/-- The operators of a phrase that may be missing spell what it is written as. -/
theorem optionGrouping_spells (before after : List Piece) : ∀ p : Option Phrase,
    Alike (fun g pieces => spell (presentPieces before after g) = spell pieces) (optionGrouping style p)
      (renderPresent style before p after)
  | none => .ok rfl
  | some p => .bind p.grouping_spells fun _ _ h => .ok (by simp [h])

/-- The parts that arguments are spell what they are written as. -/
theorem argumentParts_spells : ∀ (before : List Piece) (ps : List Phrase),
    Alike (fun parts pieces =>
        spell (partPieces parts) = spell (if ps.isEmpty then pieces else before ++ pieces))
      (argumentParts style before ps) (renderArguments style ps)
  | _, [] => .ok rfl
  | before, [p] =>
    Alike.map (f := fun g => [(before, g)]) p.grouping_spells fun _ _ h => by simp [h]
  | before, p :: next :: rest =>
    .bind p.grouping_spells fun _ _ h =>
      .bind (argumentParts_spells [.text ", "] (next :: rest)) fun _ _ hrest => .ok (by
        simp [h, hrest])

/-- The parts that the branches of a `CASE` are spell what they are written as. -/
theorem caseParts_spells : ∀ bs : List PhraseBranch,
    Alike (fun parts pieces => spell (partPieces parts) = spell pieces) (caseParts style bs)
      (renderCases style bs)
  | [] => .ok rfl
  | ⟨test, result⟩ :: rest =>
    .bind (test.grouping_spells) fun _ _ ht => .bind (result.grouping_spells) fun _ _ hr =>
      .bind (caseParts_spells rest) fun _ _ hrest => .ok (by simp [ht, hr, hrest])

end

end Agreement

end QueryPipeline.Sql
