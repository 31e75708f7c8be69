import QueryPipeline.Proofs.StatementTexts

/-!
# Where a statement begins a comment

Two minus signs next to each other begin a comment. Operators between two operands have blanks around them, and
no sign follows an opening parenthesis directly, so only a negation can put its sign before another one: when
its operand stands without parentheses and begins with a minus sign itself. A statement of plain scalars begins
a comment just when it contains such a negation, at any depth.
-/

set_option autoImplicit false

namespace QueryPipeline

open Sql

namespace Sql

/-- The text of a scalar begins with a minus sign. -/
def Scalar.beginsWithMinus (style : NameStyle) (s : Scalar) : Bool :=
  (s.render style).toOption.any fun pieces => (letters pieces).head? == some '-'

/-- A negation whose operand stands without parentheses and begins with a minus sign. -/
def Node.doublesMinus (style : NameStyle) : Node → Bool
  | .negate operand => !operand.node.isInfix && operand.beginsWithMinus style
  | _ => false

/-- A select contains such a negation, at any depth. -/
def Select.DoublesMinus (style : NameStyle) (s : Select) : Prop :=
  ∃ select : Select, select.Within s ∧ ∃ whole ∈ select.scalars, ∃ part ∈ whole.parts,
    part.node.doublesMinus style = true

/-- A node is such a negation or asks about a select that contains one. -/
def Node.DoublesMinus (style : NameStyle) (n : Node) : Prop :=
  n.doublesMinus style = true ∨ ∃ inner negated, n = .existsIn inner negated ∧ inner.DoublesMinus style

/-- Some scalars contain such a negation, at any depth. -/
def PartsDouble (style : NameStyle) (parts : List Scalar) : Prop :=
  ∃ part ∈ parts, part.node.DoublesMinus style

section Doubles

variable {style : NameStyle}

/-- Where there are no scalars, no sign is doubled. -/
@[simp] theorem partsDouble_nil : PartsDouble style [] ↔ False := by simp [PartsDouble]

/-- A sign is doubled in some scalars and others just when it is in the ones or in the others. -/
@[simp] theorem partsDouble_append {parts parts' : List Scalar} :
    PartsDouble style (parts ++ parts') ↔ PartsDouble style parts ∨ PartsDouble style parts' := by
  simp [PartsDouble, or_and_right, exists_or]

/-- A sign is doubled in a scalar and others just when it is in the scalar's own node or in the others. -/
@[simp] theorem partsDouble_cons {s : Scalar} {parts : List Scalar} :
    PartsDouble style (s :: parts) ↔ s.node.DoublesMinus style ∨ PartsDouble style parts := by
  simp [PartsDouble]

/-- A sign is doubled in a scalar that may be missing just when the scalar is there and doubles one. -/
theorem partsDouble_optionParts {s : Option Scalar} :
    PartsDouble style (optionParts s) ↔ ∃ whole ∈ s, PartsDouble style whole.parts := by
  cases s <;> simp [optionParts]

/-- The scalars of a select are its columns, its condition, its keys, its limit and its offset. -/
theorem Select.partsDouble_scalars {s : Select} : (∃ whole ∈ s.scalars, PartsDouble style whole.parts) ↔
    (∃ c ∈ s.projection, PartsDouble style c.expr.parts) ∨
      (∃ whole ∈ s.predicate, PartsDouble style whole.parts) ∨
        (∃ k ∈ s.orderings, PartsDouble style k.expr.parts) ∨
          (∃ whole ∈ s.limit, PartsDouble style whole.parts) ∨
            ∃ whole ∈ s.offset, PartsDouble style whole.parts := by
  simp [Select.scalars, or_and_right, exists_or]

/-- A select contains such a negation in its sources or in its scalars. -/
theorem Select.doublesMinus_iff {s : Select} : s.DoublesMinus style ↔
    (∃ inner aliasName, TableSource.subquery inner aliasName ∈ s.tables ∧ inner.DoublesMinus style) ∨
      ∃ whole ∈ s.scalars, PartsDouble style whole.parts := by
  constructor
  · rintro ⟨select, hwithin, whole, hwhole, part, hpart, hdoubles⟩
    cases hwithin with
    | refl => exact .inr ⟨whole, hwhole, part, hpart, .inl hdoubles⟩
    | source hsource h =>
      exact .inl ⟨_, _, hsource, select, h, whole, hwhole, part, hpart, hdoubles⟩
    | existence hwhole' hpart' hnode h =>
      have hinner : ∃ inner negated, _ = Node.existsIn inner negated ∧ inner.DoublesMinus style :=
        ⟨_, _, hnode, select, h, whole, hwhole, part, hpart, hdoubles⟩
      exact .inr ⟨_, hwhole', _, hpart', .inr hinner⟩
  · rintro (⟨inner, aliasName, hsource, hinner⟩ | ⟨whole, hwhole, part, hpart, hdoubles | hinner⟩)
    · obtain ⟨select, h, hselect⟩ := hinner
      exact ⟨select, .source hsource h, hselect⟩
    · exact ⟨s, .refl, whole, hwhole, part, hpart, hdoubles⟩
    · obtain ⟨inner, negated, hnode, select, h, hselect⟩ := hinner
      exact ⟨select, .existence hwhole hpart hnode h, hselect⟩

end Doubles

/-- A part of a statement that is plain, in selects at any depth. -/
abbrev Scalar.IsWritable (style : NameStyle) (s : Scalar) : Prop :=
  s.IsPlain style.dialect.catalog (Select.IsPlain style.dialect.catalog)

section Rendering

variable {style : NameStyle}

/-- The scalars of a select that is plain at any depth can be written. -/
theorem Select.writable_scalars {s : Select}
    (h : ∀ i : Select, i.Within s → i.IsPlain style.dialect.catalog) :
    ∀ whole ∈ s.scalars, ∀ part ∈ whole.parts, part.IsWritable style := by
  intro whole hwhole part hpart
  obtain ⟨hnode, hmapping⟩ := h s .refl whole hwhole part hpart
  refine ⟨?_, hmapping⟩
  cases hkind : part.node with
  | existsIn inner negated => exact fun i hi => h i (.existence hwhole hpart hkind hi)
  | constant _ | parameter _ | fragment _ | function _ _ _ _ =>
    rw [hkind] at hnode
    exact hnode
  | _ => trivial

/-- The parts of a scalar that may be missing can be written when those of the scalar can. -/
theorem optionParts_writable {s : Option Scalar}
    (h : ∀ whole ∈ s.toList, ∀ part ∈ whole.parts, part.IsWritable style) :
    ∀ part ∈ optionParts s, part.IsWritable style := by
  intro part hpart
  obtain ⟨whole, hwhole, hpart⟩ := mem_optionParts.1 hpart
  exact h whole (Option.mem_toList.2 hwhole) part hpart

/-- The texts of a select are read one after the other. -/
theorem Select.reads_texts (s : Select) {top columns sources condition keys paging : List Piece} {atTop : Prop}
    (htop : ∀ {cs begun}, style.dialect.Reads cs begun → style.dialect.Reads (letters top ++ cs)
      ((atTop ∧ ∃ whole ∈ s.limit, PartsDouble style whole.parts) ∨ begun))
    (hcolumns : style.dialect.Reads (letters columns) (∃ c ∈ s.projection, PartsDouble style c.expr.parts))
    (hsources : style.dialect.Reads (letters sources) (∃ inner aliasName,
      TableSource.subquery inner aliasName ∈ s.tables ∧ inner.DoublesMinus style))
    (hcondition : style.dialect.Follows (letters condition)
      (∃ whole ∈ s.predicate, PartsDouble style whole.parts))
    (hkeys : style.dialect.Reads (letters keys) (∃ k ∈ s.orderings, PartsDouble style k.expr.parts))
    (hpaging : style.dialect.Follows (letters paging)
      ((¬ atTop ∧ ∃ whole ∈ s.limit, PartsDouble style whole.parts) ∨
        ∃ whole ∈ s.offset, PartsDouble style whole.parts)) :
    style.dialect.Reads (letters
      (.text "SELECT " :: (if s.distinct then [.text "DISTINCT "] else []) ++ top
        ++ (if s.projection.isEmpty then [.text "1"] else columns)
        ++ (if s.tables.isEmpty then [] else [.newline, .text "FROM "] ++ sources)
        ++ condition ++ orderText style s keys ++ paging)) (s.DoublesMinus style) := by
  have hcolumns : style.dialect.Reads (letters (if s.projection.isEmpty then [.text "1"] else columns))
      (∃ c ∈ s.projection, PartsDouble style c.expr.parts) := by
    cases hprojection : s.projection with
    | nil => exact (follows_separator (show isSeparator "1" = true by decide)).reads.congr (by simp)
    | cons _ _ => rwa [hprojection] at hcolumns
  have hfrom := (hsources.headedBy (show isSeparator "FROM " = true by decide)).reads.behind
    (show isSeparator "\n" = true by decide)
  have hsources := follows_unless_isEmpty s.tables ([.newline, .text "FROM "] ++ sources) hfrom
    fun ⟨_, _, hi, _⟩ => List.ne_nil_of_mem hi
  have horder := follows_orderText hkeys fun ⟨_, hk, _⟩ => List.ne_nil_of_mem hk
  have hlines := htop (hcolumns.append (hsources.append (hcondition.append (horder.append hpaging))))
  have hdistinct : ∀ {cs begun}, style.dialect.Reads cs begun → style.dialect.Reads
      (letters (if s.distinct then [.text "DISTINCT "] else []) ++ cs) begun := by
    intro cs begun hcs
    cases s.distinct with
    | false => exact hcs
    | true => exact (hcs.headedBy (show isSeparator "DISTINCT " = true by decide)).reads
  simp only [letters_append, letters_text, List.append_assoc, List.cons_append]
  refine ((hdistinct hlines).headedBy (by decide)).reads.congr ?_
  rw [Select.doublesMinus_iff, Select.partsDouble_scalars]
  -- the limit stands before the columns or at the end, and not in both places
  by_cases h : atTop
  · simp only [h, true_and, not_true_eq_false, false_and, false_or, or_left_comm]
  · simp only [h, false_and, not_false_eq_true, true_and, false_or, or_left_comm]

mutual

/-- A plain scalar is written as a word, in which a comment begins just where a minus sign is doubled. -/
theorem Scalar.render_isWord : ∀ s : Scalar, (∀ part ∈ s.parts, part.IsWritable style) →
    ∀ pieces, s.render style = .ok pieces →
      style.dialect.IsWord (letters pieces) (PartsDouble style s.parts)
  | ⟨node, type, mapping, isCondition, asValue⟩ => fun h pieces hr => by
    rw [Scalar.parts, List.forall_mem_cons] at h
    have hm := h.1.mapping
    -- what is written around a node for its context are literals of the dialect, and so words
    have hnode := Node.render_isWord type mapping hm node h.1.node h.2
    rw [Scalar.parts, partsDouble_cons]
    rw [Scalar.render] at hr
    split at hr
    · exact hnode pieces hr
    · split at hr
      · obtain ⟨ifTrue, htrue, hr⟩ := bind_eq_ok.1 hr
        obtain ⟨ifFalse, hfalse, hr⟩ := bind_eq_ok.1 hr
        obtain ⟨condition, hcondition, hr⟩ := bind_eq_ok.1 hr
        cases hr
        exact isWord_conditionAsValue (hnode condition hcondition) (isWord_boolLiteral hm htrue)
          (isWord_boolLiteral hm hfalse)
      · split at hr
        · obtain ⟨value, hvalue, hr⟩ := bind_eq_ok.1 hr
          obtain ⟨literal, hliteral, hr⟩ := bind_eq_ok.1 hr
          cases hr
          have hequal := (isWord_boolLiteral hm hliteral).reads.behind
            (show isSeparator " = " = true by decide)
          simp only [letters_append, letters_text, letters_nil, String.toList_append, List.append_nil]
          exact ((hnode value hvalue).append hequal).congr (by simp)
        · exact hnode pieces hr

/-- A plain node is written as a word, in which a comment begins just where a minus sign is doubled. -/
theorem Node.render_isWord (type : DataType) (mapping : Option TypeMapping)
    (hm : ∀ m ∈ mapping, ∃ kind, style.dialect.catalog.mapping? kind = some m) :
    ∀ n : Node, n.IsPlain (Select.IsPlain style.dialect.catalog) →
      (∀ part ∈ n.parts, part.IsWritable style) → ∀ pieces, n.render style type mapping = .ok pieces →
        style.dialect.IsWord (letters pieces) (n.DoublesMinus style ∨ PartsDouble style n.parts)
  | .column table name => fun _ _ pieces hr => by
    cases hr
    have hname := (isWord_name style name).reads.behind (show isSeparator "." = true by decide)
    simp only [letters_text, letters_nil, String.toList_append, List.append_nil, List.append_assoc]
    exact ((isWord_name style table).append hname).congr
      (by simp [Node.DoublesMinus, Node.doublesMinus, Node.parts])
  | .constant value => fun hplain _ pieces hr => by
    obtain ⟨text, htext, hr⟩ := bind_eq_ok.1 hr
    cases hr
    rw [letters_text, letters_nil, List.append_nil]
    exact (isWord_constantText hm hplain htext).congr
      (by simp [Node.DoublesMinus, Node.doublesMinus, Node.parts])
  | .parameter name => fun hplain _ pieces hr => by
    cases hr
    rw [letters_cons, letters_nil, List.append_nil]
    exact (isWord_placeholder style hplain).congr
      (by simp [Node.DoublesMinus, Node.doublesMinus, Node.parts])
  | .binary op left right => fun _ h pieces hr => by
    rw [Node.parts, List.forall_mem_append] at h
    have hl := Scalar.render_isWord left h.1
    have hr' := Scalar.render_isWord right h.2
    rw [Node.render] at hr
    split at hr
    · obtain ⟨l, hleft, hr⟩ := bind_eq_ok.1 hr
      obtain ⟨r, hright, hr⟩ := bind_eq_ok.1 hr
      cases hr
      have hcomma : style.dialect.separates ", ".toList = true := separates_of_isSeparator (by decide)
      have hbetween := isWord_between (hl l hleft) hcomma (hr' r hright)
      exact (isWord_enclosed (by decide) hbetween.reads (by decide)).congr
        (by simp [Node.DoublesMinus, Node.doublesMinus, Node.parts])
    · obtain ⟨l, hleft, hr⟩ := bind_eq_ok.1 hr
      obtain ⟨r, hright, hr⟩ := bind_eq_ok.1 hr
      cases hr
      exact (isWord_between (isWord_parenthesize _ (hl l hleft)) (separates_operator style op type.kind)
        (isWord_parenthesize _ (hr' r hright))).congr
          (by simp [Node.DoublesMinus, Node.doublesMinus, Node.parts])
  | .not operand => fun _ h pieces hr => by
    obtain ⟨w, hw, hr⟩ := bind_eq_ok.1 hr
    cases hr
    exact (isWord_enclosed (by decide) (Scalar.render_isWord operand h w hw).reads (by decide)).congr
      (by simp [Node.DoublesMinus, Node.doublesMinus, Node.parts])
  | .negate operand => fun _ h pieces hr => by
    obtain ⟨w, hw, hr⟩ := bind_eq_ok.1 hr
    cases hr
    have hword := Scalar.render_isWord operand h w hw
    -- every other minus sign has a digit or a blank behind it
    have hsigned := (isWord_parenthesize operand.node.isInfix hword).negate
    have hbegins : (letters (parenthesize operand.node.isInfix w)).head? = some '-' ↔
        (Node.negate operand).doublesMinus style = true := by
      simp only [Node.doublesMinus, Scalar.beginsWithMinus, hw]
      cases operand.node.isInfix with
      | false => simp [parenthesize, Except.toOption]
      | true => simp [parenthesize, letters_text]
    rw [hbegins] at hsigned
    exact hsigned.congr (by simp [Node.DoublesMinus, Node.parts])
  | .isNull operand negated => fun _ h pieces hr => by
    obtain ⟨w, hw, hr⟩ := bind_eq_ok.1 hr
    cases hr
    have hseparator : isSeparator (if negated then " IS NOT NULL" else " IS NULL") = true := by
      cases negated <;> decide
    rw [letters_append, letters_text, letters_nil, List.append_nil]
    exact ((isWord_parenthesize _ (Scalar.render_isWord operand h w hw)).append
      (follows_separator hseparator)).congr (by simp [Node.DoublesMinus, Node.doublesMinus, Node.parts])
  | .function name schema receiver args => fun hplain h pieces hr => by
    obtain ⟨hname, rfl, rfl⟩ := hplain
    rw [Node.parts, List.forall_mem_append] at h
    obtain ⟨owner, howner, hr⟩ := bind_eq_ok.1 hr
    cases howner
    obtain ⟨as, has, hr⟩ := bind_eq_ok.1 hr
    cases hr
    have hopening : isSeparator (name ++ "(") = true := by
      simp only [isSeparator, String.toList_append, Bool.and_eq_true, Bool.not_eq_true',
        List.isEmpty_eq_false_iff, List.all_append]
      exact ⟨by simp, isCalm_of_isPlainWord hname, by decide⟩
    exact (isWord_enclosed hopening (renderArgs_reads args h.2 as has) (by decide)).congr
      (by simp [Node.DoublesMinus, Node.doublesMinus, Node.parts, optionParts])
  | .case branches otherwise => fun _ h pieces hr => by
    rw [Node.parts, List.forall_mem_append] at h
    obtain ⟨bs, hbs, hr⟩ := bind_eq_ok.1 hr
    obtain ⟨o, ho, hr⟩ := bind_eq_ok.1 hr
    cases hr
    have hend : style.dialect.Follows ("\n".toList ++ "END".toList) False :=
      (follows_separator (by decide)).reads.behind (by decide)
    have helse : style.dialect.Follows (letters o) (PartsDouble style (optionParts otherwise)) :=
      (follows_renderOption (renderOption_isWord otherwise h.2) (separates_of_calm (by decide) (by decide))
        follows_nil ho).congr partsDouble_optionParts.symm
    have hbranches := (renderBranches_follows branches h.1 bs hbs).append (helse.append hend)
    simp only [letters_append, letters_text, letters_newline, letters_indent, letters_dedent, letters_nil,
      List.append_nil, List.append_assoc, List.cons_append, List.nil_append]
    exact (hbranches.reads.headedBy (by decide)).congr
      (by simp [Node.DoublesMinus, Node.doublesMinus, Node.parts])
  | .existsIn subquery negated => fun hplain _ pieces hr => by
    obtain ⟨inner, hinner, hr⟩ := bind_eq_ok.1 hr
    cases hr
    have hopening : isSeparator (if negated then "NOT EXISTS (" else "EXISTS (") = true := by
      cases negated <;> decide
    have hclosing : style.dialect.Follows ("\n".toList ++ ")".toList) False :=
      (follows_separator (by decide)).reads.behind (by decide)
    have hlines := ((Select.render_reads subquery hplain inner hinner).append hclosing).headedBy
      (show isSeparator "\n" = true by decide)
    simp only [letters_append, letters_text, letters_newline, letters_indent, letters_dedent, letters_nil,
      List.append_nil, List.cons_append]
    exact (hlines.reads.headedBy hopening).congr
      (by simp [Node.DoublesMinus, Node.doublesMinus, Node.parts])
  | .like subject pattern escape => fun _ h pieces hr => by
    rw [Node.parts, List.forall_mem_append, List.forall_mem_append] at h
    obtain ⟨l, hsubject, hr⟩ := bind_eq_ok.1 hr
    obtain ⟨r, hpattern, hr⟩ := bind_eq_ok.1 hr
    obtain ⟨e, hescape, hr⟩ := bind_eq_ok.1 hr
    cases hr
    have hlike := isWord_between (Scalar.render_isWord subject h.1.1 l hsubject)
      (separates_of_isSeparator (show isSeparator " LIKE " = true by decide))
      (Scalar.render_isWord pattern h.1.2 r hpattern)
    have hescape : style.dialect.Follows (letters e) (PartsDouble style (optionParts escape)) :=
      (follows_renderOption (renderOption_isWord escape h.2) (separates_of_calm (by decide) (by decide))
        follows_nil hescape).congr partsDouble_optionParts.symm
    rw [letters_append]
    exact (hlike.append hescape).congr (by simp [Node.DoublesMinus, Node.doublesMinus, Node.parts, or_assoc])
  | .cast operand => fun _ h pieces hr => by
    cases mapping with
    | none => cases hr
    | some m =>
      obtain ⟨w, hw, hr⟩ := bind_eq_ok.1 hr
      cases hr
      obtain ⟨kind, hkind⟩ := hm m rfl
      have hclosing : isSeparator (" AS " ++ m.storeType ++ ")") = true := by
        simp only [isSeparator, String.toList_append, Bool.and_eq_true, Bool.not_eq_true',
          List.isEmpty_eq_false_iff, List.all_append]
        exact ⟨by simp, ⟨by decide, (Dialect.catalog_plain hkind).2⟩, by decide⟩
      exact (isWord_enclosed (by decide) (Scalar.render_isWord operand h w hw).reads hclosing).congr
        (by simp [Node.DoublesMinus, Node.doublesMinus, Node.parts])
  | .fragment sql => fun hplain _ pieces hr => by
    cases hr
    rw [letters_text, letters_nil, List.append_nil]
    exact (isWord_term hplain).congr (by simp [Node.DoublesMinus, Node.doublesMinus, Node.parts])

/-- A plain scalar that may be missing is written as a word when it is there. -/
theorem renderOption_isWord : ∀ s : Option Scalar, (∀ part ∈ optionParts s, part.IsWritable style) →
    ∀ whole ∈ s, whole.WritesWord style (PartsDouble style whole.parts)
  | none => fun _ => nofun
  | some s => fun h => by
    rintro _ ⟨⟩
    exact Scalar.render_isWord s h

/-- The arguments of a function are read one after the other. -/
theorem renderArgs_reads : ∀ args : List Scalar, (∀ part ∈ listParts args, part.IsWritable style) →
    ∀ pieces, renderArgs style args = .ok pieces →
      style.dialect.Reads (letters pieces) (PartsDouble style (listParts args))
  | [] => fun _ pieces hr => by
    cases hr
    exact reads_nil.congr (by simp [listParts])
  | [s] => fun h pieces hr => by
    rw [listParts, List.forall_mem_append] at h
    exact (Scalar.render_isWord s h.1 pieces hr).reads.congr (by simp [listParts])
  | s :: next :: rest => fun h pieces hr => by
    rw [listParts, List.forall_mem_append] at h
    rw [renderArgs] at hr
    · obtain ⟨first, hfirst, hr⟩ := bind_eq_ok.1 hr
      obtain ⟨others, hothers, hr⟩ := bind_eq_ok.1 hr
      cases hr
      have hrest := (renderArgs_reads (next :: rest) h.2 others hothers).behind
        (show isSeparator ", " = true by decide)
      rw [letters_append, letters_text, listParts, partsDouble_append]
      exact ((Scalar.render_isWord s h.1 first hfirst).append hrest).reads
    · exact nofun

/-- The branches of a `CASE` may follow its first word. -/
theorem renderBranches_follows :
    ∀ branches : List CaseBranch, (∀ part ∈ branchParts branches, part.IsWritable style) →
      ∀ pieces, renderBranches style branches = .ok pieces →
        style.dialect.Follows (letters pieces) (PartsDouble style (branchParts branches))
  | [] => fun _ pieces hr => by
    cases hr
    exact follows_nil.congr (by simp [branchParts])
  | ⟨test, result⟩ :: rest => fun h pieces hr => by
    rw [branchParts, List.forall_mem_append, List.forall_mem_append] at h
    rw [renderBranches] at hr
    obtain ⟨t, htest, hr⟩ := bind_eq_ok.1 hr
    obtain ⟨r, hresult, hr⟩ := bind_eq_ok.1 hr
    obtain ⟨others, hothers, hr⟩ := bind_eq_ok.1 hr
    cases hr
    have hrest := renderBranches_follows rest h.2 others hothers
    have hthen := ((Scalar.render_isWord result h.1.2 r hresult).append hrest).reads.behind
      (show isSeparator " THEN " = true by decide)
    have hwhen := ((Scalar.render_isWord test h.1.1 t htest).append hthen).reads.headedBy
      (show isSeparator "WHEN " = true by decide)
    simp only [letters_append, letters_text, letters_newline, List.append_assoc, List.cons_append]
    exact (hwhen.reads.behind (by decide)).congr (by simp [branchParts])

/-- In the text of a select that is plain at any depth, a comment begins just where it doubles a minus sign. -/
theorem Select.render_reads : ∀ s : Select,
    (∀ i : Select, i.Within s → i.IsPlain style.dialect.catalog) →
      ∀ pieces, s.render style = .ok pieces → style.dialect.Reads (letters pieces) (s.DoublesMinus style)
  | ⟨tables, projection, slots, predicate, orderings, limit, offset, distinct⟩ => fun h pieces hr => by
    have hscalars := Select.writable_scalars h
    simp only [Select.scalars, List.forall_mem_append, List.forall_mem_map] at hscalars
    obtain ⟨⟨⟨⟨hprojection, hpredicate⟩, horderings⟩, hlimit⟩, hoffset⟩ := hscalars
    rw [Select.render_eq] at hr
    dsimp only at hr
    obtain ⟨top, htop, hr⟩ := bind_eq_ok.1 hr
    obtain ⟨columns, hcolumns, hr⟩ := bind_eq_ok.1 hr
    obtain ⟨sources, hsources, hr⟩ := bind_eq_ok.1 hr
    obtain ⟨condition, hcondition, hr⟩ := bind_eq_ok.1 hr
    obtain ⟨keys, hkeys, hr⟩ := bind_eq_ok.1 hr
    obtain ⟨paging, hpaging, hr⟩ := bind_eq_ok.1 hr
    cases hr
    have hcolumns := renderColumns_reads projection hprojection columns hcolumns
    have hsources := renderTables_reads tables (fun _ _ hi _ hwithin => h _ (.source hi hwithin)) sources
      hsources
    have hcondition := follows_renderOption (renderOption_isWord predicate (optionParts_writable hpredicate))
      (separates_of_calm (by decide) (by decide)) follows_nil hcondition
    have hkeys := renderKeys_reads orderings horderings keys hkeys
    have hlimit := renderOption_isWord limit (optionParts_writable hlimit)
    have hoffset := renderOption_isWord offset (optionParts_writable hoffset)
    exact Select.reads_texts ⟨tables, projection, slots, predicate, orderings, limit, offset, distinct⟩
      (reads_renderTop hlimit htop) hcolumns hsources hcondition hkeys
      (follows_renderPaging hlimit hoffset hpaging)

/-- The columns of a select are read one after the other. -/
theorem renderColumns_reads :
    ∀ columns : List OutputColumn, (∀ c ∈ columns, ∀ part ∈ c.expr.parts, part.IsWritable style) →
      ∀ pieces, renderColumns style columns = .ok pieces →
        style.dialect.Reads (letters pieces) (∃ c ∈ columns, PartsDouble style c.expr.parts)
  | [] => fun _ pieces hr => by
    cases hr
    exact reads_nil.congr (by simp)
  | [⟨s, aliasName⟩] => fun h pieces hr => by
    obtain ⟨w, hw, hr⟩ := bind_eq_ok.1 hr
    cases hr
    rw [letters_append]
    exact (((Scalar.render_isWord s (h _ List.mem_cons_self) w hw).append
      (follows_outputAlias s aliasName)).reads).congr (by simp)
  | ⟨s, aliasName⟩ :: next :: rest => fun h pieces hr => by
    obtain ⟨hs, hrest⟩ := List.forall_mem_cons.1 h
    rw [renderColumns] at hr
    · obtain ⟨w, hw, hr⟩ := bind_eq_ok.1 hr
      obtain ⟨others, hothers, hr⟩ := bind_eq_ok.1 hr
      cases hr
      have hothers := (renderColumns_reads (next :: rest) hrest others hothers).behind
        (show isSeparator ", " = true by decide)
      rw [letters_append, letters_append, letters_text, List.append_assoc]
      exact ((Scalar.render_isWord s hs w hw).append
        ((follows_outputAlias s aliasName).append hothers)).reads.congr (by simp)
    · exact nofun

/-- The sources of a select are read one after the other, subqueries in parentheses. -/
theorem renderTables_reads :
    ∀ tables : List TableSource,
      (∀ inner aliasName, TableSource.subquery inner aliasName ∈ tables →
        ∀ i : Select, i.Within inner → i.IsPlain style.dialect.catalog) →
      ∀ pieces, renderTables style tables = .ok pieces →
        style.dialect.Reads (letters pieces) (∃ inner aliasName,
          TableSource.subquery inner aliasName ∈ tables ∧ inner.DoublesMinus style)
  | [] => fun _ pieces hr => by
    cases hr
    exact reads_nil.congr (by simp)
  | .table name schema aliasName :: rest => fun h pieces hr => by
    obtain ⟨others, hothers, hr⟩ := bind_eq_ok.1 hr
    cases hr
    have hothers := renderTables_reads rest (fun _ _ hi => h _ _ (List.mem_cons_of_mem _ hi)) others hothers
    have hname : style.dialect.IsWord (style.writeQualified name schema).toList False := by
      cases schema with
      | none => exact isWord_name style name
      | some schema =>
        simp only [NameStyle.writeQualified, String.toList_append, List.append_assoc]
        exact ((isWord_name style schema).append ((isWord_name style name).reads.behind (by decide))).congr
          (by simp)
    have hsource := hname.append (follows_aliasText aliasName)
    have hrest := follows_unless_isEmpty rest (.newline :: others)
      (hothers.behind (show isSeparator "\n" = true by decide))
      (fun ⟨_, _, hi, _⟩ => List.ne_nil_of_mem hi)
    rw [letters_append, letters_text]
    exact (hsource.append hrest).reads.congr (by simp)
  | .subquery select aliasName :: rest => fun h pieces hr => by
    obtain ⟨inner, hinner, hr⟩ := bind_eq_ok.1 hr
    obtain ⟨others, hothers, hr⟩ := bind_eq_ok.1 hr
    cases hr
    have hselect := Select.render_reads select (h _ _ List.mem_cons_self) inner hinner
    have hothers := renderTables_reads rest (fun _ _ hi => h _ _ (List.mem_cons_of_mem _ hi)) others hothers
    have hrest := follows_unless_isEmpty rest (.newline :: others)
      (hothers.behind (show isSeparator "\n" = true by decide))
      (fun ⟨_, _, hi, _⟩ => List.ne_nil_of_mem hi)
    have hclosing : style.dialect.Follows ("\n".toList ++ ")".toList) False :=
      (follows_separator (by decide)).reads.behind (by decide)
    have hlines := (hselect.append (hclosing.append ((follows_aliasText aliasName).append hrest))).headedBy
      (show isSeparator "\n" = true by decide)
    simp only [letters_append, letters_text, letters_newline, letters_indent, letters_dedent,
      List.cons_append, List.append_assoc, List.nil_append]
    exact (hlines.reads.headedBy (show isSeparator "(" = true by decide)).reads.congr
      (by simp [or_and_right, exists_or])

/-- The keys of an ordering are read one after the other. -/
theorem renderKeys_reads :
    ∀ keys : List SortKey, (∀ k ∈ keys, ∀ part ∈ k.expr.parts, part.IsWritable style) →
      ∀ pieces, renderKeys style keys = .ok pieces →
        style.dialect.Reads (letters pieces) (∃ k ∈ keys, PartsDouble style k.expr.parts)
  | [] => fun _ pieces hr => by
    cases hr
    exact reads_nil.congr (by simp)
  | ⟨s, ascending⟩ :: rest => fun h pieces hr => by
    obtain ⟨hs, hrest⟩ := List.forall_mem_cons.1 h
    rw [renderKeys] at hr
    obtain ⟨w, hw, hr⟩ := bind_eq_ok.1 hr
    obtain ⟨others, hothers, hr⟩ := bind_eq_ok.1 hr
    cases hr
    have hothers := renderKeys_reads rest hrest others hothers
    have hdirection : style.dialect.Follows (letters (if ascending then [] else [.text " DESC"])) False := by
      cases ascending with
      | true => exact follows_nil
      | false => exact follows_separator (show isSeparator " DESC" = true by decide)
    have hrest := follows_unless_isEmpty rest (.text ", " :: others)
      (hothers.behind (show isSeparator ", " = true by decide))
      (fun ⟨_, hk, _⟩ => List.ne_nil_of_mem hk)
    rw [letters_append, letters_append, List.append_assoc]
    exact ((Scalar.render_isWord s hs w hw).append (hdirection.append hrest)).reads.congr (by simp)

end

/-- The statement that is written for a select begins a comment just where the select doubles a minus sign. -/
theorem hasComment_toCommand {s : Select} {written : Command}
    (h : ∀ i : Select, i.Within s → i.IsPlain style.dialect.catalog) (hwritten : s.toCommand style = .ok written) :
    style.dialect.hasComment written.sql = true ↔ s.DoublesMinus style := by
  obtain ⟨pieces, hpieces, hwritten⟩ := bind_eq_ok.1 hwritten
  cases hwritten
  show style.dialect.hasComment (layOut ⟨0, false⟩ pieces) = true ↔ _
  have hstart : (⟨0, false⟩ : Cursor).atLineStart = true → style.dialect.next .code ' ' = .code :=
    fun h => absurd h Bool.false_ne_true
  rw [Dialect.hasComment, beq_iff_eq, scan_layOut pieces ⟨0, false⟩ .code hstart]
  exact (Select.render_reads s h pieces hpieces).scan_eq_comment

end Rendering

end Sql

/-- The statement of an accepted pipeline without a signature begins a comment just when it contains a negation
that puts its sign before another one. Constants and names of parameters are plain, and the model leaves the
types of its columns to the dialect. Where statements are laid out anew, the formatter changes nothing but blanks
outside of quotes in the statement that is written without it. -/
theorem comment_iff_doublesMinus (model : Model) (options : Options) (formatter : Formatter) (query : Query)
    (hmodel : model.isUsual = true) (hbodies : ∀ e ∈ query.bodies, e.everywhere Expr.isPlainLeaf = true)
    (hsignature : options.signatureComment = false)
    (hformatter : options.format = true → ∀ written : Command,
      (Compiler.new model { options with format := false }).compile formatter query = .ok written →
        options.dialect.ReadsAlike written.sql (formatter written.sql))
    (command : Command) (h : (Compiler.new model options).compile formatter query = .ok command) :
    ∃ shaped, (Compiler.new model options).lower query = .ok shaped ∧
      (options.dialect.hasComment command.sql = true ↔ shaped.select.DoublesMinus options.nameStyle) := by
  obtain ⟨shaped, hlower, h⟩ := bind_eq_ok.1 h
  obtain ⟨written, hwritten, h⟩ := bind_eq_ok.1 h
  cases h
  refine ⟨shaped, hlower, ?_⟩
  have hkeep := (allPlain_composed options.dialect.catalog (Select.IsPlain options.dialect.catalog)).ofDialect_keep
    options.dialect
  have hplain : ∀ i : Select, i.Within shaped.select → i.IsPlain options.nameStyle.dialect.catalog :=
    Environment.lower_plain hkeep hmodel hbodies (Compiler.lower_eq_ok hlower)
  have hcomment := hasComment_toCommand hplain hwritten
  have hunformatted : (Compiler.new model { options with format := false }).compile formatter query =
      .ok written := by
    refine bind_eq_ok.2 ⟨shaped, hlower, bind_eq_ok.2 ⟨written, hwritten, ?_⟩⟩
    simp [Compiler.sign, Compiler.format, Compiler.new, hsignature, pure, Except.pure]
  have hsign : ∀ command, (Compiler.new model options).sign command = command := by
    simp [Compiler.sign, Compiler.new, hsignature]
  rw [hsign, ← hcomment]
  -- only a statement that is laid out anew differs from the one that is written
  cases hformat : options.format with
  | false => simp [Compiler.format, Compiler.new, hformat, Options.nameStyle]
  | true =>
    have halike := hformatter hformat written hunformatted
    simp [Compiler.format, Compiler.new, hformat, Options.nameStyle, halike.hasComment]

section Clauses

/-- The word begins a clause. -/
def beginsClause (word : List Char) : Bool := ["SELECT", "FROM", "WHERE"].any (·.toList == word)

/-- Between two words: a clause begins a line, and what it consists of stands indented below. -/
def betweenWords (before after : List Char) : String :=
  if beginsClause after then "\n"
  else if beginsClause before || before.getLast? == some ',' then "\n  "
  else " "

/-- Words with what stands between them. -/
def joinWords : List (List Char) → List Char
  | [] => []
  | [word] => word
  | word :: next :: rest => word ++ (betweenWords word next).toList ++ joinWords (next :: rest)

/-- Lays out a select without quotes in it: each clause begins a line, and each of its columns is a line. -/
def Formatter.clauses : Formatter := fun sql => .ofList (joinWords (sql.toList.splitOnP Text.isBlank))

end Clauses

/-- Persons whose number, with a negative one taken away, is positive. -/
def Query.negativeTakenAway : Query :=
  ⟨"Person", [.filter ⟨"p", .binary .gt (.binary .sub (.access (.param "p") "id") (.constant (.integer (-1))))
    (.constant (.integer 0))⟩]⟩

/-- A negative number that is taken away begins no comment, because a blank stands before its sign, and the blank
is still there when the statement is laid out anew. -/
theorem negativeTakenAway_begins_no_comment :
    ∃ written command shaped,
      (Compiler.new .persons ⟨false, .sqlite, false, .whenNeeded⟩).compile .clauses .negativeTakenAway =
        .ok written ∧
      Dialect.sqlite.ReadsAlike written.sql (Formatter.clauses written.sql) ∧
      (Compiler.new .persons ⟨true, .sqlite, false, .whenNeeded⟩).compile .clauses .negativeTakenAway =
        .ok command ∧
      command.sql = "SELECT\n  p.id,\n  p.name\nFROM\n  Person AS p\nWHERE\n  (p.id - -1) > 0" ∧
      (Compiler.new .persons ⟨true, .sqlite, false, .whenNeeded⟩).lower .negativeTakenAway = .ok shaped ∧
      Dialect.sqlite.hasComment command.sql = false ∧ ¬ shaped.select.DoublesMinus ⟨.sqlite, .whenNeeded⟩ := by
  obtain ⟨written, hwritten, halike⟩ : ∃ written,
      (Compiler.new .persons ⟨false, .sqlite, false, .whenNeeded⟩).compile .clauses .negativeTakenAway =
        .ok written ∧ decide (Dialect.sqlite.ReadsAlike written.sql (Formatter.clauses written.sql)) = true :=
    exists_of_any (by decide +kernel)
  have halike : Dialect.sqlite.ReadsAlike written.sql (Formatter.clauses written.sql) := of_decide_eq_true halike
  obtain ⟨command, hcompile, hsql⟩ : ∃ command,
      (Compiler.new .persons ⟨true, .sqlite, false, .whenNeeded⟩).compile .clauses .negativeTakenAway =
        .ok command ∧ (command.sql ==
          "SELECT\n  p.id,\n  p.name\nFROM\n  Person AS p\nWHERE\n  (p.id - -1) > 0") = true :=
    exists_of_any (by decide +kernel)
  have hsql := eq_of_beq hsql
  have hcomment : Dialect.sqlite.hasComment command.sql = false := by
    rw [hsql]
    decide +kernel
  have hformatter : ∀ written' : Command,
      (Compiler.new .persons ⟨false, .sqlite, false, .whenNeeded⟩).compile .clauses .negativeTakenAway =
        .ok written' → Dialect.sqlite.ReadsAlike written'.sql (Formatter.clauses written'.sql) := by
    intro written' hwritten'
    rw [hwritten] at hwritten'
    cases hwritten'
    exact halike
  obtain ⟨shaped, hlower, hiff⟩ := comment_iff_doublesMinus .persons ⟨true, .sqlite, false, .whenNeeded⟩ .clauses
    .negativeTakenAway (by decide) (by decide) rfl (fun _ => hformatter) command hcompile
  refine ⟨written, command, shaped, hwritten, halike, hcompile, hsql, hlower, hcomment, fun hdoubles => ?_⟩
  have hbegins := hiff.2 hdoubles
  rw [hcomment] at hbegins
  cases hbegins

/-- Persons whose number, negated twice, is positive. -/
def Query.negatedTwice : Query :=
  ⟨"Person", [.filter ⟨"p", .binary .gt (.unary .negate (.unary .negate (.access (.param "p") "id")))
    (.constant (.integer 0))⟩]⟩

/-- A number that is negated twice begins a comment. No formatter has a hand in this: the statement is not laid
out anew. -/
theorem negatedTwice_begins_comment :
    ∃ command, (∀ formatter : Formatter,
        (Compiler.new .persons ⟨false, .sqlite, false, .whenNeeded⟩).compile formatter .negatedTwice =
          .ok command) ∧
      Dialect.sqlite.hasComment command.sql = true := by
  obtain ⟨command, hcompile, hcomment⟩ : ∃ command,
      (Compiler.new .persons ⟨false, .sqlite, false, .whenNeeded⟩).compile id .negatedTwice = .ok command ∧
        Dialect.sqlite.hasComment command.sql = true := exists_of_any (by decide +kernel)
  refine ⟨command, fun formatter => ?_, hcomment⟩
  rw [← hcompile]
  rfl

end QueryPipeline
