import QueryPipeline.Proofs.Lowered
import QueryPipeline.Proofs.Scanning
import QueryPipeline.Sql.Rendering

/-!
# Scalars that are written as whole numbers

Where a database reads a whole number by itself in place of a key, it takes it for the position of a projected
column. A scalar is only written as one if it is a literal, the opposite of such a scalar, or a fragment: all
other forms need a letter, a blank, a parenthesis or a mark.
-/

set_option autoImplicit false

namespace QueryPipeline.Sql

/-- The letters are the digits of a whole number, perhaps after a minus sign. -/
def isWholeNumeral : List Char → Bool
  | '-' :: digits => !digits.isEmpty && digits.all Char.isDigit
  | digits => !digits.isEmpty && digits.all Char.isDigit

mutual

/-- A scalar is written as a whole number. -/
def Scalar.isWhole : Scalar → Bool
  | ⟨node, _, mapping, _, _⟩ => node.isWhole mapping

/-- A node is written as a whole number. -/
def Node.isWhole (mapping : Option TypeMapping) : Node → Bool
  | .constant value => (constantText mapping value).toOption.any (isWholeNumeral ·.toList)
  | .negate operand => operand.isWhole
  | .fragment sql => isWholeNumeral sql.toList
  | _ => false

end

/-- The forms that may be written as whole numbers. -/
def Node.isNumeralForm : Node → Bool
  | .constant _ | .negate _ | .fragment _ => true
  | _ => false

section Numerals

variable {cs : List Char}

/-- Whole numbers are written with digits and minus signs only. -/
theorem mem_of_isWholeNumeral (h : isWholeNumeral cs = true) : ∀ c ∈ cs, c = '-' ∨ c.isDigit = true := by
  unfold isWholeNumeral at h
  split at h
  · simp only [Bool.and_eq_true, List.all_eq_true] at h
    exact List.forall_mem_cons.2 ⟨.inl rfl, fun c hc => .inr (h.2 c hc)⟩
  · simp only [Bool.and_eq_true, List.all_eq_true] at h
    exact fun c hc => .inr (h.2 c hc)

/-- Letters are no whole number when one of them is neither a digit nor a minus sign. -/
theorem isWholeNumeral_of_mem {c : Char} (hc : c ∈ cs) (hminus : c ≠ '-') (hdigit : c.isDigit = false) :
    isWholeNumeral cs = false := by
  cases h : isWholeNumeral cs with
  | false => rfl
  | true =>
    rcases mem_of_isWholeNumeral h c hc with hc | hc
    · exact absurd hc hminus
    · rw [hdigit] at hc
      cases hc

/-- What stands after the minus sign of a whole number is one. -/
theorem isWholeNumeral_of_minus (h : isWholeNumeral ('-' :: cs) = true) : isWholeNumeral cs = true := by
  have hdigits : (!cs.isEmpty && cs.all Char.isDigit) = true := h
  unfold isWholeNumeral
  split
  · simp only [List.all_cons, Bool.and_eq_true] at hdigits
    cases hdigits.2.1
  · exact hdigits

end Numerals

section Writing

variable {style : NameStyle} {pieces : List Piece}

/-- Whether a scalar is written as a whole number is a matter of its node and its mapping. -/
theorem Scalar.isWhole_eq (s : Scalar) : s.isWhole = s.node.isWhole s.mapping := by
  obtain ⟨node, type, mapping, isCondition, asValue⟩ := s
  rw [isWhole]

/-- What separates two operands begins with a blank. -/
theorem blank_mem_operatorText (style : NameStyle) {op : ScalarOp} (hop : op ≠ .coalesce) (kind : DataKind) :
    ' ' ∈ (operatorText style op kind).toList := by
  unfold operatorText
  split
  · simp
  · cases op with
    | coalesce => exact absurd rfl hop
    | _ => decide

/-- Only numeral forms are written as whole numbers. -/
theorem Node.isWholeNumeral_letters {type : DataType} {mapping : Option TypeMapping} {node : Node}
    (hform : node.isNumeralForm = false) (h : node.render style type mapping = .ok pieces) :
    isWholeNumeral (letters pieces) = false := by
  cases node with
  | constant _ | negate _ | fragment _ => cases hform
  | column table name =>
    cases h
    exact isWholeNumeral_of_mem (c := '.') (by simp) (by decide) (by decide)
  | parameter name =>
    cases h
    exact isWholeNumeral_of_mem (c := '@') (by simp [letters_cons, Piece.written, NameStyle.placeholder,
      Dialect.parameterMark]) (by decide) (by decide)
  | binary op left right =>
    rw [Node.render] at h
    split at h
    · obtain ⟨l, -, h⟩ := bind_eq_ok.1 h
      obtain ⟨r, -, h⟩ := bind_eq_ok.1 h
      cases h
      exact isWholeNumeral_of_mem (c := 'C') (by simp) (by decide) (by decide)
    · rename_i hop
      obtain ⟨l, -, h⟩ := bind_eq_ok.1 h
      obtain ⟨r, -, h⟩ := bind_eq_ok.1 h
      cases h
      have hblank := blank_mem_operatorText style hop type.kind
      exact isWholeNumeral_of_mem (c := ' ') (by simp [hblank]) (by decide) (by decide)
  | not operand =>
    obtain ⟨inner, -, h⟩ := bind_eq_ok.1 h
    cases h
    exact isWholeNumeral_of_mem (c := 'N') (by simp) (by decide) (by decide)
  | existsIn subquery negated =>
    obtain ⟨inner, -, h⟩ := bind_eq_ok.1 h
    cases h
    exact isWholeNumeral_of_mem (c := 'E') (by cases negated <;> simp) (by decide) (by decide)
  | isNull operand negated =>
    obtain ⟨inner, -, h⟩ := bind_eq_ok.1 h
    cases h
    exact isWholeNumeral_of_mem (c := ' ') (by cases negated <;> simp) (by decide) (by decide)
  | function name schema receiver args =>
    obtain ⟨owner, -, h⟩ := bind_eq_ok.1 h
    obtain ⟨args, -, h⟩ := bind_eq_ok.1 h
    cases h
    exact isWholeNumeral_of_mem (c := '(') (by simp) (by decide) (by decide)
  | case branches otherwise =>
    obtain ⟨branches, -, h⟩ := bind_eq_ok.1 h
    obtain ⟨otherwise, -, h⟩ := bind_eq_ok.1 h
    cases h
    exact isWholeNumeral_of_mem (c := 'C') (by simp) (by decide) (by decide)
  | like subject pattern escape =>
    obtain ⟨subject, -, h⟩ := bind_eq_ok.1 h
    obtain ⟨pattern, -, h⟩ := bind_eq_ok.1 h
    obtain ⟨escape, -, h⟩ := bind_eq_ok.1 h
    cases h
    exact isWholeNumeral_of_mem (c := ' ') (by simp) (by decide) (by decide)
  | cast operand =>
    cases mapping with
    | none => cases h
    | some m =>
      obtain ⟨inner, -, h⟩ := bind_eq_ok.1 h
      cases h
      exact isWholeNumeral_of_mem (c := 'C') (by simp) (by decide) (by decide)

/-- What stands for a condition that is a value, or for a truth value that is a condition, has letters. -/
theorem isWholeNumeral_conditionAsValue (condition : List Piece) (ifTrue ifFalse : String) :
    isWholeNumeral (letters (conditionAsValue condition ifTrue ifFalse)) = false :=
  isWholeNumeral_of_mem (c := 'C') (by simp [conditionAsValue]) (by decide) (by decide)

mutual

/-- A scalar whose text is a whole number is one that is written as such. -/
theorem Scalar.isWhole_of_render : ∀ (s : Scalar) {pieces : List Piece}, s.render style = .ok pieces →
    isWholeNumeral (letters pieces) = true → s.isWhole = true
  | ⟨node, type, mapping, isCondition, asValue⟩, pieces => by
    intro h hwhole
    rw [Scalar.isWhole]
    rw [Scalar.render] at h
    split at h
    · exact Node.isWhole_of_render node h hwhole
    · split at h
      · obtain ⟨ifTrue, -, h⟩ := bind_eq_ok.1 h
        obtain ⟨ifFalse, -, h⟩ := bind_eq_ok.1 h
        obtain ⟨condition, -, h⟩ := bind_eq_ok.1 h
        cases h
        rw [isWholeNumeral_conditionAsValue] at hwhole
        cases hwhole
      · split at h
        · obtain ⟨value, -, h⟩ := bind_eq_ok.1 h
          obtain ⟨text, -, h⟩ := bind_eq_ok.1 h
          cases h
          rw [isWholeNumeral_of_mem (c := ' ') (by simp) (by decide) (by decide)] at hwhole
          cases hwhole
        · exact Node.isWhole_of_render node h hwhole

/-- A node whose letters are a whole number is one that is written so. -/
theorem Node.isWhole_of_render {type : DataType} {mapping : Option TypeMapping} :
    ∀ (node : Node) {pieces : List Piece}, node.render style type mapping = .ok pieces →
      isWholeNumeral (letters pieces) = true → node.isWhole mapping = true
  | .constant value, pieces => by
    intro h hwhole
    obtain ⟨text, htext, h⟩ := bind_eq_ok.1 h
    cases h
    rw [Node.isWhole, htext]
    rwa [letters_text, letters_nil, List.append_nil] at hwhole
  | .negate operand, pieces => by
    intro h hwhole
    obtain ⟨inner, hinner, h⟩ := bind_eq_ok.1 h
    cases h
    cases hoperator : operand.node.isInfix with
    | true =>
      rw [isWholeNumeral_of_mem (c := '(') (by simp [hoperator, parenthesize]) (by decide) (by decide)] at hwhole
      cases hwhole
    | false =>
      rw [hoperator] at hwhole
      exact Scalar.isWhole_of_render operand hinner (isWholeNumeral_of_minus hwhole)
  | .fragment sql, pieces => by
    intro h hwhole
    cases h
    rw [Node.isWhole]
    simpa using hwhole
  | .column .., _ | .parameter _, _ | .binary .., _ | .not _, _ | .isNull .., _ | .function .., _ | .case .., _
  | .existsIn .., _ | .like .., _ | .cast _, _ => by
    intro h hwhole
    rw [Node.isWholeNumeral_letters rfl h] at hwhole
    cases hwhole

end

end Writing

end QueryPipeline.Sql
