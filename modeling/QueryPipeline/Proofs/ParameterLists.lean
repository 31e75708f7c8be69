import Mathlib.Data.List.Induction
import QueryPipeline.Proofs.Lowered
import QueryPipeline.Proofs.ParameterNodes
import QueryPipeline.Proofs.StatementTexts

/-!
# The parameter list of a command

Every parameter of a select is written just once for each of its occurrences, and where a parameter is written
its placeholder stands in the text. The command lists a parameter at the first of these places with its name.
So the list is in the order of the places, has no name twice, and has the store type of the first place.
-/

set_option autoImplicit false

namespace QueryPipeline.Sql

/-- The parameter that a piece writes. -/
def Piece.parameter? : Piece → Option CommandParameter
  | .parameter p => some p
  | _ => none

/-- The parameters that some pieces write. -/
def written (pieces : List Piece) : List CommandParameter := pieces.filterMap Piece.parameter?

section Written

/-- Without pieces no parameters are written. -/
@[simp] theorem written_nil : written [] = [] := rfl

/-- Pieces one after the other write their parameters one after the other. -/
@[simp] theorem written_append (before after : List Piece) :
    written (before ++ after) = written before ++ written after := List.filterMap_append

/-- A text writes no parameters. -/
@[simp] theorem written_text (s : String) (rest : List Piece) :
    written (.text s :: rest) = written rest := rfl

/-- The end of a line writes no parameters. -/
@[simp] theorem written_newline (rest : List Piece) : written (.newline :: rest) = written rest := rfl

/-- An indentation writes no parameters. -/
@[simp] theorem written_indent (rest : List Piece) : written (.indent :: rest) = written rest := rfl

/-- The end of an indentation writes no parameters. -/
@[simp] theorem written_dedent (rest : List Piece) : written (.dedent :: rest) = written rest := rfl

/-- A placeholder writes its parameter. -/
@[simp] theorem written_parameter (p : CommandParameter) (rest : List Piece) :
    written (.parameter p :: rest) = p :: written rest := rfl

/-- Brackets write no parameters. -/
@[simp] theorem written_parenthesize (needed : Bool) (pieces : List Piece) :
    written (parenthesize needed pieces) = written pieces := by
  cases needed <;> simp [parenthesize]

/-- A condition that is made a value writes the parameters of the condition. -/
@[simp] theorem written_conditionAsValue (pieces : List Piece) (ifTrue ifFalse : String) :
    written (conditionAsValue pieces ifTrue ifFalse) = written pieces := by
  simp [conditionAsValue]

/-- An alias writes no parameters. -/
@[simp] theorem written_aliasText (style : NameStyle) (aliasName : String) :
    written (aliasText style aliasName) = [] := rfl

/-- The alias of a column writes no parameters. -/
@[simp] theorem written_outputAlias (style : NameStyle) (s : Scalar) (aliasName : Option String) :
    written (outputAlias style s aliasName) = [] := by
  unfold outputAlias
  split
  · rfl
  · split <;> rfl

/-- The order that an offset demands writes no parameters. -/
@[simp] theorem written_defaultOrder (offset : Option Scalar) : written (defaultOrder offset) = [] := by
  unfold defaultOrder
  split <;> rfl

/-- The limit that an offset demands writes no parameters. -/
@[simp] theorem written_unlimitedText (style : NameStyle) (limit offset : Option Scalar) :
    written (unlimitedText style limit offset) = [] := by
  unfold unlimitedText
  split <;> rfl

end Written

/-- Pieces that can be written write these parameters. -/
def Writes (parameters : List CommandParameter) (x : Written) : Prop :=
  ∀ pieces, x = .ok pieces → written pieces = parameters

namespace Writes

variable {ps qs : List CommandParameter}

/-- Pieces that write some parameters are a rendering that writes them. -/
theorem ok {pieces : List Piece} (h : written pieces = ps) : Writes ps (.ok pieces) := by
  rintro _ ⟨⟩
  exact h

/-- What is written first is written in what is put together from it. -/
theorem bind {x : Written} {f : List Piece → Written} (hx : Writes ps x)
    (hf : ∀ pieces, written pieces = ps → Writes qs (f pieces)) : Writes qs (x >>= f) := by
  intro pieces h
  obtain ⟨first, hfirst, h⟩ := bind_eq_ok.1 h
  exact hf first (hx first hfirst) pieces h

/-- A literal writes no parameter. -/
theorem bind_text {x : Except Diagnostic String} {f : String → Written}
    (hf : ∀ text, Writes qs (f text)) : Writes qs (x >>= f) := by
  intro pieces h
  obtain ⟨text, -, h⟩ := bind_eq_ok.1 h
  exact hf text pieces h

end Writes

section Rendering

variable {style : NameStyle} {limit offset : Option Scalar}

/-- A limit before the columns is all that is written there. -/
theorem renderTop_writes
    (hlimit : ∀ before after, written before = [] → written after = [] →
      Writes (optionParameters style limit) (renderOption style before limit after)) :
    Writes (if style.dialect.pagination = .top ∧ offset.isNone then optionParameters style limit else [])
      (renderTop style limit offset) := by
  unfold renderTop
  split
  · exact hlimit _ _ rfl rfl
  · exact .ok rfl

/-- A limit and an offset at the end are written in the order of the dialect. -/
theorem renderPaging_writes
    (hlimit : ∀ before after, written before = [] → written after = [] →
      Writes (optionParameters style limit) (renderOption style before limit after))
    (hoffset : ∀ before after, written before = [] → written after = [] →
      Writes (optionParameters style offset) (renderOption style before offset after)) :
    Writes (if style.dialect.pagination = .top ∧ offset.isNone then []
        else if style.dialect.pagination = .limitOffset then
          optionParameters style limit ++ optionParameters style offset
        else optionParameters style offset ++ optionParameters style limit)
      (renderPaging style limit offset) := by
  unfold renderPaging
  by_cases hlast : style.dialect.pagination = .limitOffset
  · rw [if_pos hlast, if_pos hlast, hlast, if_neg (by simp)]
    refine (hlimit _ _ rfl rfl).bind fun most hmost => (hoffset _ _ ?_ rfl).bind fun skipped hskipped => ?_
    · split <;> rfl
    · exact .ok (by simp [hmost, hskipped])
  · rw [if_neg hlast, if_neg hlast]
    cases offset with
    | some offset =>
      rw [if_neg (by simp), if_pos Option.isSome_some]
      exact (hoffset _ _ rfl rfl).bind fun skipped hskipped => (hlimit _ _ rfl rfl).bind fun most hmost =>
        .ok (by simp [hmost, hskipped])
    | none =>
      cases hpagination : style.dialect.pagination with
      | top => exact .ok rfl
      | fetch => exact hlimit _ _ rfl rfl
      | limitOffset => exact absurd hpagination hlast

/-- The keys of an ordering are all that is written for it. -/
theorem written_orderText (style : NameStyle) (s : Select) {keys : List Piece}
    (h : written keys = keyParameters style s.orderings) :
    written (orderText style s keys) = keyParameters style s.orderings := by
  unfold orderText
  cases horderings : s.orderings with
  | nil =>
    rw [if_neg (by simp)]
    split
    · rfl
    · exact written_defaultOrder _
  | cons _ _ =>
    rw [← horderings]
    simpa [horderings] using h

mutual

/-- A scalar writes its parameters. -/
theorem Scalar.render_writes : ∀ s : Scalar, Writes (s.parameters style) (s.render style)
  | ⟨node, type, mapping, isCondition, asValue⟩ => by
    have hnode := Node.render_writes type mapping node
    rw [Scalar.render, Scalar.parameters]
    split
    · exact hnode
    · split
      · refine .bind_text fun ifTrue => .bind_text fun ifFalse => hnode.bind fun pieces h => ?_
        exact .ok (by rw [written_conditionAsValue, h])
      · split
        · exact hnode.bind fun pieces h => .bind_text fun literal => .ok (by simp [h])
        · exact hnode

/-- A node writes its parameters. -/
theorem Node.render_writes (type : DataType) (mapping : Option TypeMapping) :
    ∀ n : Node, Writes (n.parameters style type mapping) (n.render style type mapping)
  | .column _ _ | .fragment _ | .parameter _ => .ok rfl
  | .constant _ => .bind_text fun _ => .ok rfl
  | .binary op left right => by
    have hl := left.render_writes
    have hr := right.render_writes
    rw [Node.render]
    split
    · exact hl.bind fun _ hl => hr.bind fun _ hr => .ok (by simp [Node.parameters, hl, hr])
    · exact hl.bind fun _ hl => hr.bind fun _ hr => .ok (by simp [Node.parameters, hl, hr])
  | .not operand | .negate operand | .isNull operand _ =>
    operand.render_writes.bind fun _ h => .ok (by simp [Node.parameters, h])
  | .function name schema receiver args => by
    refine (renderOption_writes [] [.text "."] rfl rfl receiver).bind fun _ hreceiver => ?_
    refine (renderArgs_writes args).bind fun _ hargs => .ok ?_
    cases schema <;> simp [Node.parameters, hreceiver, hargs]
  | .case branches otherwise => by
    refine (renderBranches_writes branches).bind fun _ hbranches => ?_
    refine (renderOption_writes _ _ rfl rfl otherwise).bind fun _ hotherwise => .ok ?_
    simp [Node.parameters, hbranches, hotherwise]
  | .existsIn subquery negated =>
    subquery.render_writes.bind fun _ h => .ok (by simp [Node.parameters, h])
  | .like subject pattern escape =>
    subject.render_writes.bind fun _ hsubject => pattern.render_writes.bind fun _ hpattern =>
      (renderOption_writes _ _ rfl rfl escape).bind fun _ hescape =>
        .ok (by simp [Node.parameters, hsubject, hpattern, hescape])
  | .cast operand => by
    cases mapping with
    | none => exact nofun
    | some m => exact operand.render_writes.bind fun _ h => .ok (by simp [Node.parameters, h])

/-- A scalar that may be missing writes its parameters, whatever text is before and after it. -/
theorem renderOption_writes (before after : List Piece) (hbefore : written before = [])
    (hafter : written after = []) :
    ∀ s : Option Scalar, Writes (optionParameters style s) (renderOption style before s after)
  | none => .ok rfl
  | some s => s.render_writes.bind fun _ h => .ok (by simp [optionParameters, hbefore, hafter, h])

/-- Arguments write their parameters. -/
theorem renderArgs_writes : ∀ args : List Scalar,
    Writes (listParameters style args) (renderArgs style args)
  | [] => .ok rfl
  | [s] => by
    rw [renderArgs, listParameters, listParameters, List.append_nil]
    exact s.render_writes
  | s :: next :: rest => by
    rw [renderArgs, listParameters]
    · exact s.render_writes.bind fun _ h => (renderArgs_writes (next :: rest)).bind fun _ hrest =>
        .ok (by simp [h, hrest])
    · exact nofun

/-- The branches of a `CASE` write their parameters. -/
theorem renderBranches_writes : ∀ branches : List CaseBranch,
    Writes (branchParameters style branches) (renderBranches style branches)
  | [] => .ok rfl
  | ⟨test, result⟩ :: rest =>
    test.render_writes.bind fun _ htest => result.render_writes.bind fun _ hresult =>
      (renderBranches_writes rest).bind fun _ hrest =>
        .ok (by simp [branchParameters, htest, hresult, hrest])

/-- A select writes its parameters, those of its limit and offset where the dialect writes these. -/
theorem Select.render_writes : ∀ s : Select, Writes (s.parameters style) (s.render style)
  | ⟨tables, projection, slots, predicate, orderings, limit, offset, distinct⟩ => by
    have hlimit := fun before after hbefore hafter =>
      renderOption_writes before after hbefore hafter limit
    have hoffset := fun before after hbefore hafter =>
      renderOption_writes before after hbefore hafter offset
    rw [Select.render_eq]
    refine (renderTop_writes hlimit).bind fun top htop => ?_
    refine (renderColumns_writes projection).bind fun columns hcolumns => ?_
    refine (renderTables_writes tables).bind fun sources hsources => ?_
    refine (renderOption_writes _ _ rfl rfl predicate).bind fun condition hcondition => ?_
    refine (renderKeys_writes orderings).bind fun keys hkeys => ?_
    refine (renderPaging_writes hlimit hoffset).bind fun paging hpaging => .ok ?_
    have hdistinct : written (if distinct then [.text "DISTINCT "] else []) = [] := by
      cases distinct <;> rfl
    have hcolumns : written (if projection.isEmpty then [.text "1"] else columns) =
        columnParameters style projection := by
      cases projection with
      | nil => rfl
      | cons _ _ => exact hcolumns
    have hsources : written (if tables.isEmpty then [] else [.newline, .text "FROM "] ++ sources) =
        tableParameters style tables := by
      cases tables with
      | nil => rfl
      | cons _ _ => exact hsources
    have horder := written_orderText style
      ⟨tables, projection, slots, predicate, orderings, limit, offset, distinct⟩ hkeys
    simp only [written_text, written_append, hdistinct, htop, hcolumns, hsources, hcondition, horder, hpaging,
      Select.parameters, List.nil_append]

/-- Columns write their parameters. -/
theorem renderColumns_writes : ∀ columns : List OutputColumn,
    Writes (columnParameters style columns) (renderColumns style columns)
  | [] => .ok rfl
  | [⟨s, aliasName⟩] => by
    rw [renderColumns, columnParameters, columnParameters, List.append_nil]
    exact s.render_writes.bind fun _ h => .ok (by simp [h])
  | ⟨s, aliasName⟩ :: next :: rest => by
    rw [renderColumns, columnParameters]
    · exact s.render_writes.bind fun _ h => (renderColumns_writes (next :: rest)).bind fun _ hrest =>
        .ok (by simp [h, hrest])
    · exact nofun

/-- Tables write their parameters. -/
theorem renderTables_writes : ∀ tables : List TableSource,
    Writes (tableParameters style tables) (renderTables style tables)
  | [] => .ok rfl
  | .table _ _ _ :: rest =>
    (renderTables_writes rest).bind fun _ hrest => .ok (by
      cases rest <;> simp_all [tableParameters])
  | .subquery select _ :: rest =>
    select.render_writes.bind fun _ h => (renderTables_writes rest).bind fun _ hrest => .ok (by
      cases rest <;> simp_all [tableParameters])

/-- Keys write their parameters. -/
theorem renderKeys_writes : ∀ keys : List SortKey,
    Writes (keyParameters style keys) (renderKeys style keys)
  | [] => .ok rfl
  | ⟨s, ascending⟩ :: rest =>
    s.render_writes.bind fun _ h => (renderKeys_writes rest).bind fun _ hrest => .ok (by
      cases rest <;> cases ascending <;> simp_all [keyParameters])

end

end Rendering

/-- A parameter with the place of its placeholder in a text, counted in letters. -/
abbrev PlacedParameter := Nat × CommandParameter

/-- Placeholders stand in a text one behind the other, each at its place. -/
structure StandIn (text : String) (places : List PlacedParameter) : Prop where
  stands : ∀ place ∈ places, place.2.placeholder.toList <+: text.toList.drop place.1
  apart : places.Pairwise fun a b => a.1 + a.2.placeholder.length ≤ b.1

/-- The places when a text has so many letters more at its front. -/
def shifted (n : Nat) (places : List PlacedParameter) : List PlacedParameter :=
  places.map fun place => (n + place.1, place.2)

/-- Where the parameters among some pieces are laid out from a cursor on. -/
def placesOf (c : Cursor) : List Piece → List PlacedParameter
  | [] => []
  | .newline :: rest => shifted 1 (placesOf { c with atLineStart := true } rest)
  | .indent :: rest => placesOf { c with level := c.level + 1 } rest
  | .dedent :: rest => placesOf { c with level := c.level - 1 } rest
  | .text s :: rest =>
    if s.isEmpty then placesOf c rest
    else shifted (c.margin ++ s).length (placesOf { c with atLineStart := false } rest)
  | .parameter p :: rest =>
    shifted c.margin.length
      ((0, p) :: shifted p.placeholder.length (placesOf { c with atLineStart := false } rest))

section Places

/-- To move places changes none of the parameters in them. -/
theorem map_snd_shifted (n : Nat) (places : List PlacedParameter) :
    (shifted n places).map (·.2) = places.map (·.2) := by
  simp [shifted]

/-- The places are those of the parameters that the pieces write. -/
theorem map_snd_placesOf : ∀ (pieces : List Piece) (c : Cursor),
    (placesOf c pieces).map (·.2) = written pieces
  | [], _ => rfl
  | .newline :: rest, c => (map_snd_shifted _ _).trans (map_snd_placesOf rest _)
  | .indent :: rest, c | .dedent :: rest, c => map_snd_placesOf rest _
  | .text s :: rest, c => by
    rw [placesOf, written_text]
    split
    · exact map_snd_placesOf rest c
    · exact (map_snd_shifted _ _).trans (map_snd_placesOf rest _)
  | .parameter p :: rest, c => by
    rw [placesOf, map_snd_shifted, List.map_cons, map_snd_shifted, map_snd_placesOf rest, written_parameter]

/-- What stands in a text stands behind other letters, too. -/
theorem StandIn.behind {text : String} {places : List PlacedParameter} (h : StandIn text places)
    (before : String) :
    StandIn (before ++ text) (shifted before.length places) where
  stands := by
    simp only [shifted, List.forall_mem_map, String.toList_append, ← String.length_toList]
    intro place hplace
    rw [List.drop_append, List.drop_of_length_le (by omega), List.nil_append, Nat.add_sub_cancel_left]
    exact h.stands place hplace
  apart := by
    rw [shifted, List.pairwise_map]
    refine h.apart.imp fun {a b} hab => ?_
    show before.length + a.1 + a.2.placeholder.length ≤ before.length + b.1
    omega

/-- A placeholder stands at the front of its own text. -/
theorem StandIn.cons {text : String} {places : List PlacedParameter} (h : StandIn text places)
    (p : CommandParameter) :
    StandIn (p.placeholder ++ text) ((0, p) :: shifted p.placeholder.length places) where
  stands := by
    refine List.forall_mem_cons.2 ⟨?_, (h.behind p.placeholder).stands⟩
    rw [String.toList_append]
    exact List.prefix_append _ _
  apart := by
    refine List.pairwise_cons.2 ⟨?_, (h.behind p.placeholder).apart⟩
    simp only [shifted, List.forall_mem_map]
    intro place _
    show 0 + p.placeholder.length ≤ p.placeholder.length + place.1
    omega

/-- The placeholders stand in the text that is laid out. -/
theorem layOut_standIn (pieces : List Piece) (c : Cursor) (h : ∀ p ∈ written pieces, p.placeholder ≠ "") :
    StandIn (layOut c pieces) (placesOf c pieces) := by
  induction pieces generalizing c with
  | nil => exact ⟨List.forall_mem_nil _, .nil⟩
  | cons piece rest ih =>
    cases piece with
    | newline => exact (ih _ h).behind "\n"
    | indent | dedent => exact ih _ h
    | text s =>
      show StandIn (if s.isEmpty then _ else _) (if s.isEmpty then _ else _)
      split
      · exact ih c h
      · exact (ih _ h).behind _
    | parameter p =>
      obtain ⟨hp, hrest⟩ := List.forall_mem_cons.1 h
      have hwritten : p.placeholder.isEmpty = false := by simpa using hp
      show StandIn (if p.placeholder.isEmpty then _ else _) _
      rw [hwritten, if_neg Bool.false_ne_true, String.append_assoc]
      exact ((ih _ hrest).cons p).behind _

end Places

/-- A parameter after those that are known, unless one with its name is known. -/
def addFirst (known : List CommandParameter) (p : CommandParameter) : List CommandParameter :=
  if known.any (·.name == p.name) then known else known ++ [p]

/-- The parameters of pieces are those that are written, each one added at its first place. -/
theorem parametersOf_eq_foldl : ∀ (pieces : List Piece) (known : List CommandParameter),
    parametersOf known pieces = (written pieces).foldl addFirst known
  | [], _ => rfl
  | .newline :: rest, known | .indent :: rest, known | .dedent :: rest, known | .text _ :: rest, known =>
    parametersOf_eq_foldl rest known
  | .parameter p :: rest, known => by
    rw [parametersOf, parametersOf_eq_foldl rest, parametersOf_eq_foldl rest, written_parameter, List.foldl_cons,
      addFirst]
    split <;> rfl

/-- A command lists parameters at the first of their places: every name once, with the parameter of its first
place, and in the order of these places. -/
structure ListsFirst (places : List PlacedParameter) (listed : List CommandParameter) : Prop where
  nodup : (listed.map (·.name)).Nodup
  mem_iff (name : String) : name ∈ listed.map (·.name) ↔ ∃ place ∈ places, place.2.name = name
  ordered : ∃ offsets : List Nat, offsets.Pairwise (· < ·) ∧
    List.Forall₂ (fun n p => places.find? (·.2.name == p.name) = some (n, p)) offsets listed

section Listing

variable {places : List PlacedParameter} {listed : List CommandParameter} {place : PlacedParameter}

/-- One more place of a name that has one already changes nothing. -/
theorem ListsFirst.known (h : ListsFirst places listed) (hknown : place.2.name ∈ listed.map (·.name)) :
    ListsFirst (places ++ [place]) listed where
  nodup := h.nodup
  mem_iff name := by
    rw [h.mem_iff] at hknown ⊢
    constructor
    · rintro ⟨other, hother, rfl⟩
      exact ⟨other, List.mem_append_left _ hother, rfl⟩
    · rintro ⟨other, hother, rfl⟩
      rcases List.mem_append.1 hother with hother | hother
      · exact ⟨other, hother, rfl⟩
      · cases List.mem_singleton.1 hother
        exact hknown
  ordered := by
    obtain ⟨offsets, hoffsets, hall⟩ := h.ordered
    refine ⟨offsets, hoffsets, hall.imp fun n p hfound => ?_⟩
    rw [List.find?_append, hfound]
    rfl

/-- The first place of a name is listed behind all others when it comes behind them. -/
theorem ListsFirst.add (h : ListsFirst places listed) (hnew : place.2.name ∉ listed.map (·.name))
    (hbehind : ∀ other ∈ places, other.1 < place.1) :
    ListsFirst (places ++ [place]) (listed ++ [place.2]) where
  nodup := by
    rw [List.map_append, List.nodup_append]
    refine ⟨h.nodup, List.nodup_singleton _, ?_⟩
    rintro name hname _ hlast rfl
    cases List.mem_singleton.1 hlast
    exact hnew hname
  mem_iff name := by
    rw [List.map_append, List.mem_append, h.mem_iff]
    constructor
    · rintro (⟨other, hother, rfl⟩ | hlast)
      · exact ⟨other, List.mem_append_left _ hother, rfl⟩
      · exact ⟨place, List.mem_append_right _ List.mem_cons_self, (List.mem_singleton.1 hlast).symm⟩
    · rintro ⟨other, hother, rfl⟩
      rcases List.mem_append.1 hother with hother | hother
      · exact .inl ⟨other, hother, rfl⟩
      · cases List.mem_singleton.1 hother
        exact .inr List.mem_cons_self
  ordered := by
    obtain ⟨offsets, hoffsets, hall⟩ := h.ordered
    refine ⟨offsets ++ [place.1], List.pairwise_append.2 ⟨hoffsets, List.pairwise_singleton _ _, ?_⟩,
      List.rel_append (hall.imp fun n p hfound => ?_) (.cons ?_ .nil)⟩
    · intro n hn _ hlast
      cases List.mem_singleton.1 hlast
      obtain ⟨p, -, hfound⟩ := exists_of_mem_right hall.flip hn
      exact hbehind _ (List.mem_of_find?_eq_some hfound)
    · rw [List.find?_append, hfound]
      rfl
    · have hnone : places.find? (·.2.name == place.2.name) = none := by
        rw [List.find?_eq_none]
        intro other hother hname
        exact hnew ((h.mem_iff _).2 ⟨other, hother, by simpa using hname⟩)
      rw [List.find?_append, hnone]
      simp

/-- Parameters that are collected one after the other are listed at the first of their places. -/
theorem listsFirst_addFirst (h : places.Pairwise fun a b => a.1 < b.1) :
    ListsFirst places ((places.map (·.2)).foldl addFirst []) := by
  induction places using List.reverseRecOn with
  | nil => exact ⟨List.nodup_nil, by simp, [], .nil, .nil⟩
  | append_singleton places place ih =>
    obtain ⟨hplaces, -, hbehind⟩ := List.pairwise_append.1 h
    have hlisted := ih hplaces
    rw [List.map_append, List.map_singleton, List.foldl_append, List.foldl_cons, List.foldl_nil, addFirst]
    have hiff : ((places.map (·.2)).foldl addFirst []).any (·.name == place.2.name) = true ↔
        place.2.name ∈ ((places.map (·.2)).foldl addFirst []).map (·.name) := by
      simp
    split
    · rename_i hknown
      exact hlisted.known (hiff.1 hknown)
    · rename_i hnew
      exact hlisted.add (mt hiff.2 hnew) fun other hother => hbehind other hother place List.mem_cons_self

end Listing

/-- No placeholder is empty. -/
theorem NameStyle.placeholder_ne_empty (style : NameStyle) (name : String) : style.placeholder name ≠ "" := by
  simp [placeholder]

/-- The parameter list of a command matches its text. The parameters of the select and of all selects within it
are written in the order of `Select.parameters`, and their placeholders stand in the text at the places of
their pieces. The command lists every name that a parameter has just once, with the store type and nullability
of its first place, and in the order of the first places. -/
theorem toCommand_listsFirst (style : NameStyle) (s : Select) (command : Command)
    (h : s.toCommand style = .ok command) :
    ∃ pieces, s.render style = .ok pieces ∧
      (placesOf ⟨0, false⟩ pieces).map (·.2) = s.parameters style ∧
      StandIn command.sql (placesOf ⟨0, false⟩ pieces) ∧
      ListsFirst (placesOf ⟨0, false⟩ pieces) command.parameters ∧
      (∀ p ∈ s.parameters style, s.HasParameter style p) ∧
      (∀ name, name ∈ command.parameters.map (·.name) ↔
        ∃ inner : Select, inner.Within s ∧
          ∃ whole ∈ inner.scalars, ∃ part ∈ whole.parts, part.node = .parameter name) := by
  obtain ⟨pieces, hpieces, h⟩ := bind_eq_ok.1 h
  cases h
  have hwritten := s.render_writes pieces hpieces
  have hplaces := map_snd_placesOf pieces ⟨0, false⟩
  have hhas : ∀ p ∈ s.parameters style, s.HasParameter style p := fun p hp => s.mem_parameters.1 hp
  have hnonempty : ∀ p ∈ written pieces, p.placeholder ≠ "" := by
    intro p hp
    obtain ⟨_, -, _, -, _, -, -, hp⟩ := hhas p (hwritten ▸ hp)
    rw [hp]
    exact style.placeholder_ne_empty p.name
  have hstand := layOut_standIn pieces ⟨0, false⟩ hnonempty
  have hbehind : (placesOf ⟨0, false⟩ pieces).Pairwise fun a b => a.1 < b.1 := by
    refine hstand.apart.imp_of_mem fun {a b} ha _ hab => ?_
    have hletters : a.2.placeholder ≠ "" := hnonempty _ (hplaces ▸ List.mem_map_of_mem ha)
    have hlength : 0 < a.2.placeholder.length := Nat.pos_of_ne_zero fun h => hletters (by simpa using h)
    omega
  have hlists : ListsFirst (placesOf ⟨0, false⟩ pieces) (parametersOf [] pieces) := by
    rw [parametersOf_eq_foldl, ← hplaces]
    exact listsFirst_addFirst hbehind
  refine ⟨pieces, hpieces, hplaces.trans hwritten, hstand, hlists, hhas, fun name =>
    (hlists.mem_iff name).trans ?_⟩
  constructor
  · rintro ⟨place, hplace, rfl⟩
    have hmem : place.2 ∈ s.parameters style := by
      rw [← hwritten, ← hplaces]
      exact List.mem_map_of_mem hplace
    obtain ⟨inner, hinner, whole, hwhole, part, hpart, hnode, -⟩ := hhas _ hmem
    exact ⟨inner, hinner, whole, hwhole, part, hpart, hnode⟩
  · rintro ⟨inner, hinner, whole, hwhole, part, hpart, hnode⟩
    have hmem : (⟨name, style.placeholder name, part.mapping, part.type.nullable⟩ : CommandParameter) ∈
        s.parameters style :=
      s.mem_parameters.2 ⟨inner, hinner, whole, hwhole, part, hpart, hnode, rfl⟩
    rw [← hwritten, ← hplaces] at hmem
    obtain ⟨place, hplace, heq⟩ := List.mem_map.1 hmem
    exact ⟨place, hplace, by rw [heq]⟩

/-- The persons with a name that is bound when the statement runs. -/
def Select.personsNamed : Select :=
  ⟨[.table "Person" none "p"], [⟨.column "p" "name" .text none, some "name"⟩], [],
    some (.binary .equal (.column "p" "name" .text none) (.parameter "who" .text) .bool none), [], none, none,
    false⟩

/-- A greeting for so many of them, if there are any. -/
def Select.greetings : Select :=
  ⟨[.subquery .personsNamed "t"],
    [⟨.parameter "greeting" .text, none⟩, ⟨.column "t" "name" .text none, none⟩], [],
    some (.natural (.existsIn .personsNamed false) .bool none), [], some (.parameter "most" .int32), none,
    false⟩

/-- The greetings list the limit first, which stands before the columns, and the name once. -/
theorem greetings_listsFirst :
    ∃ command, Select.greetings.toCommand ⟨.msSql, .whenNeeded⟩ = .ok command ∧
      command.parameters.map (·.name) = ["most", "greeting", "who"] ∧
      ∃ pieces, Select.greetings.render ⟨.msSql, .whenNeeded⟩ = .ok pieces ∧
        (placesOf ⟨0, false⟩ pieces).map (·.2) = Select.greetings.parameters ⟨.msSql, .whenNeeded⟩ ∧
        StandIn command.sql (placesOf ⟨0, false⟩ pieces) ∧
        ListsFirst (placesOf ⟨0, false⟩ pieces) command.parameters := by
  obtain ⟨command, h, hnames⟩ : ∃ command, Select.greetings.toCommand ⟨.msSql, .whenNeeded⟩ = .ok command ∧
      decide (command.parameters.map (·.name) = ["most", "greeting", "who"]) = true :=
    exists_of_any (by decide +kernel)
  obtain ⟨pieces, hpieces, hplaces, hstand, hlists, -⟩ :=
    toCommand_listsFirst ⟨.msSql, .whenNeeded⟩ .greetings command h
  exact ⟨command, h, of_decide_eq_true hnames, pieces, hpieces, hplaces, hstand, hlists⟩

end QueryPipeline.Sql
