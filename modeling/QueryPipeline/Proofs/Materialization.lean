import QueryPipeline.Proofs.Shaper
import QueryPipeline.Results

/-!
# Results can always be read

The rows that a database returns for an accepted pipeline can be read: every leaf of the shaper finds its
slot, every slot is a position of the projection, and a row that is as long as the projection has a value
there. The only failure that is left is that there is no result where one is expected: there is no row for it,
or a value that must be present is null in its row.
-/

set_option autoImplicit false

namespace QueryPipeline

open Sql

/-- The value that a row holds at a position, in the form of the type of the column there. -/
def Sql.Select.HoldsValue (s : Select) (row : Row) (position : Nat) (type : DataType) (value : Value) :
    Prop :=
  ∃ column literal, s.projection[position]? = some column ∧ column.expr.type = type ∧
    row[position]? = some literal ∧ value = .scalar (coerce literal type)

/-- A value is what a shaper puts together from a row: a scalar is the value at its slot in the form of
its type, an entity has the properties of the model in their order, and a shape has its members in their
order. A value that must be present is not null. -/
inductive Reads (model : Model) (s : Select) (row : Row) : Expr → Value → Prop
  | scalar {path : MemberPath} {type : DataType} {position : Nat} {value : Value}
      (hslot : s.slot? path = some (.scalar position)) (h : s.HoldsValue row position type value) :
      Reads model s row (.binding path type) value
  | nonEmpty {path : MemberPath} {type : DataType} {position : Nat} {literal : Literal} {value : Value}
      (hslot : s.slot? path = some (.scalar position)) (hrow : row[position]? = some literal)
      (hpresent : literal.isNull = false) (h : Reads model s row (.binding path type) value) :
      Reads model s row (.ensureNonEmpty (.binding path type)) value
  | entity {name : String} {path : MemberPath} {entity : EntityType} {positions : List (String × Nat)}
      {members : List (String × Value)} (hentity : model.findEntity? name = some entity)
      (hslot : s.slot? path = some (.entity positions))
      (hnames : members.map (·.1) = entity.properties.map (·.name))
      (h : List.Forall₂ (fun p m => p.1 = m.1 ∧ ∃ type, s.HoldsValue row p.2 type m.2) positions
        members) : Reads model s row (.entity name path) (.object members)
  | shapeNil : Reads model s row (.shape []) (.object [])
  | shapeCons {name : String} {e : Expr} {rest : List ShapeMember} {value : Value}
      {members : List (String × Value)} (he : Reads model s row e value)
      (hrest : Reads model s row (.shape rest) (.object members)) :
      Reads model s row (.shape (⟨some name, e⟩ :: rest)) (.object ((name, value) :: members))

/-- Results are what a shaped query makes of some rows. Where one result is expected, it is made of the
first row. -/
inductive ShapedQuery.Results (model : Model) (q : ShapedQuery) : List Row → QueryResult → Prop
  | sequence {rows : List Row} {values : List Value} (hc : q.cardinality = .sequence)
      (h : List.Forall₂ (fun row value => Reads model q.select row q.shaper value) rows values) :
      Results model q rows (.sequence values)
  | single {row : Row} {rest : List Row} {value : Value} (hc : q.cardinality = .single)
      (h : Reads model q.select row q.shaper value) : Results model q (row :: rest) (.single value)
  | one {row : Row} {rest : List Row} {value : Value} (hc : q.cardinality = .singleOrDefault)
      (h : Reads model q.select row q.shaper value) :
      Results model q (row :: rest) (.singleOrDefault (some value))
  | none (hc : q.cardinality = .singleOrDefault) : Results model q [] (.singleOrDefault none)

/-- What a shaper puts together from a row lacks a value: one that must be present is null in the row. -/
inductive Lacks (s : Select) (row : Row) : Expr → Prop
  | value {path : MemberPath} {type : DataType} {position : Nat} {literal : Literal}
      (hslot : s.slot? path = some (.scalar position)) (hrow : row[position]? = some literal)
      (hnull : literal.isNull = true) : Lacks s row (.ensureNonEmpty (.binding path type))
  | member {members : List ShapeMember} {m : ShapeMember} (hm : m ∈ members) (h : Lacks s row m.expr) :
      Lacks s row (.shape members)

/-- A shaped query lacks a result for some rows: there is no row where one result is expected, or what the shaper
puts together from a row that is looked at lacks a value. -/
inductive ShapedQuery.LacksResult (q : ShapedQuery) : List Row → Prop
  | noRow (hc : q.cardinality = .single) : LacksResult q []
  | ofRow {rows : List Row} {row : Row} (hc : q.cardinality = .sequence) (hrow : row ∈ rows)
      (h : Lacks q.select row q.shaper) : LacksResult q rows
  | ofFirst {row : Row} {rest : List Row} (hc : q.cardinality ≠ .sequence)
      (h : Lacks q.select row q.shaper) : LacksResult q (row :: rest)

section Lacking

variable {s : Select} {row : Row}

/-- A shape lacks a value where one of its members does. -/
theorem lacks_shape_cons {name : Option String} {e : Expr} {rest : List ShapeMember} :
    Lacks s row (.shape (⟨name, e⟩ :: rest)) ↔ Lacks s row e ∨ Lacks s row (.shape rest) := by
  constructor
  · rintro (_ | ⟨hm, h⟩)
    rcases List.mem_cons.1 hm with rfl | hm
    · exact .inl h
    · exact .inr (.member hm h)
  · rintro (h | _ | ⟨hm, h⟩)
    · exact .member List.mem_cons_self h
    · exact .member (List.mem_cons_of_mem _ hm) h

/-- A value that must be present is lacking just when it is null in the row. -/
theorem lacks_nonEmpty {path : MemberPath} {type : DataType} {position : Nat} {literal : Literal}
    (hslot : s.slot? path = some (.scalar position)) (hrow : row[position]? = some literal) :
    Lacks s row (.ensureNonEmpty (.binding path type)) ↔ literal.isNull = true := by
  refine ⟨fun h => ?_, .value hslot hrow⟩
  cases h with
  | value hslot' hrow' hnull =>
    obtain rfl : _ = position := by simpa [hslot] using hslot'.symm
    rw [hrow] at hrow'
    cases hrow'
    exact hnull

/-- Where all rows are looked at, a result is lacking when one of them lacks a value. -/
theorem ShapedQuery.lacksResult_all {q : ShapedQuery} (hc : q.cardinality = .sequence) {rows : List Row} :
    q.LacksResult rows ↔ ∃ row ∈ rows, Lacks q.select row q.shaper := by
  constructor
  · rintro (hsingle | ⟨_, hrow, h⟩ | ⟨hne, _⟩)
    · rw [hc] at hsingle
      cases hsingle
    · exact ⟨_, hrow, h⟩
    · exact absurd hc hne
  · rintro ⟨row, hrow, h⟩
    exact .ofRow hc hrow h

/-- Where only the first row is looked at, a result is lacking when this one lacks a value. -/
theorem ShapedQuery.lacksResult_first {q : ShapedQuery} (hc : q.cardinality ≠ .sequence) {rest : List Row} :
    q.LacksResult (row :: rest) ↔ Lacks q.select row q.shaper := by
  refine ⟨?_, .ofFirst hc⟩
  rintro (_ | ⟨hsequence, _⟩ | ⟨_, h⟩)
  · exact absurd hsequence hc
  · exact h

end Lacking

namespace Sql.Select

variable {s : Select} {row : Row}

/-- A row that is as long as the projection has a value at every position of the projection. -/
theorem readAt_eq_ok (hrow : s.projection.length ≤ row.length) {position : Nat} {column : OutputColumn}
    (h : s.projection[position]? = some column) :
    ∃ literal, row[position]? = some literal ∧ readAt row position = .ok literal := by
  obtain ⟨hlt, -⟩ := List.getElem?_eq_some_iff.1 h
  have hget := List.getElem?_eq_getElem (Nat.lt_of_lt_of_le hlt hrow)
  exact ⟨_, hget, by simp [readAt, hget]⟩

/-- A scalar that its slot leads to can be read. -/
theorem read_eq_ok (hrow : s.projection.length ≤ row.length) {path : MemberPath} {position : Nat}
    {scalar : Scalar} (hslot : s.slot? path = some (.scalar position))
    (hholds : HoldsAt s.projection position scalar) :
    ∃ literal, s.read row path = .ok literal ∧ row[position]? = some literal ∧
      s.HoldsValue row position scalar.type (.scalar (coerce literal scalar.type)) := by
  obtain ⟨column, hcolumn, hexpr⟩ := hholds
  obtain ⟨literal, hliteral, hread⟩ := readAt_eq_ok hrow hcolumn
  refine ⟨literal, ?_, hliteral, column, literal, hcolumn, by rw [hexpr]; rfl, hliteral, rfl⟩
  have hposition : s.position path = .ok position := by simp [Select.position, hslot]
  rw [read, hposition]
  exact hread

/-- The properties of an entity that their positions lead to can be read. -/
theorem readProperties_eq_ok (hrow : s.projection.length ≤ row.length)
    {columns : List (String × Scalar)} {positions : List (String × Nat)}
    (h : List.Forall₂ (fun c p => c.1 = p.1 ∧ HoldsAt s.projection p.2 c.2) columns positions) :
    ∃ members, s.readProperties row positions = .ok members ∧
      List.Forall₂ (fun p m => p.1 = m.1 ∧ ∃ type, s.HoldsValue row p.2 type m.2) positions members := by
  induction h with
  | nil => exact ⟨[], rfl, .nil⟩
  | @cons c p _ _ hcp _ ih =>
    obtain ⟨property, position⟩ := p
    obtain ⟨members, hmembers, hall⟩ := ih
    obtain ⟨-, column, hcolumn, -⟩ := hcp
    obtain ⟨literal, hliteral, hread⟩ := readAt_eq_ok hrow hcolumn
    refine ⟨(property, .scalar (coerce literal column.expr.type)) :: members, ?_, ?_⟩
    · simp only [readProperties, typeAt, hcolumn, hread, hmembers]
      rfl
    · exact .cons ⟨rfl, _, column, literal, hcolumn, rfl, hliteral, rfl⟩ hall

end Sql.Select

/-- A reading fails where a result is lacking, and only there. Else it succeeds, and `P` holds of what is read. -/
structure IsRead {α : Type} (lacking : Prop) (P : α → Prop) (x : Except Diagnostic α) : Prop where
  fails (h : lacking) : x = .error .noElements
  succeeds (h : ¬ lacking) : ∃ a, x = .ok a ∧ P a

namespace IsRead

variable {α β : Type} {lacking lacking' : Prop} {P : α → Prop} {Q : β → Prop}

/-- What is there is read. -/
theorem pure {a : α} (h : P a) : IsRead False P (.ok a) := ⟨False.elim, fun _ => ⟨a, rfl, h⟩⟩

/-- Where a result is lacking nothing is read. -/
theorem error (h : lacking) : IsRead lacking P (.error .noElements) := ⟨fun _ => rfl, absurd h⟩

/-- It may be said in other words what a reading lacks. -/
theorem congr {x : Except Diagnostic α} (hx : IsRead lacking P x) (h : lacking ↔ lacking') :
    IsRead lacking' P x := ⟨fun hl => hx.fails (h.2 hl), fun hl => hx.succeeds fun hl' => hl (h.1 hl')⟩

/-- Of two readings one after the other, the first that lacks something fails. -/
theorem bind {x : Except Diagnostic α} {f : α → Except Diagnostic β} (hx : IsRead lacking P x)
    (hf : ∀ a, P a → IsRead lacking' Q (f a)) : IsRead (lacking ∨ lacking') Q (x >>= f) := by
  by_cases h : lacking
  · rw [hx.fails h]
    exact .error (.inl h)
  · obtain ⟨a, rfl, ha⟩ := hx.succeeds h
    exact (hf a ha).congr (by simp [h])

/-- What is read is used for something else. -/
theorem map {x : Except Diagnostic α} {f : α → β} (hx : IsRead lacking P x) (hf : ∀ a, P a → Q (f a)) :
    IsRead lacking Q (x >>= fun a => .ok (f a)) :=
  (hx.bind fun a ha => .pure (hf a ha)).congr (by simp)

/-- Readings one after the other. -/
theorem mapM {R : α → β → Prop} {lacks : α → Prop} {f : α → Except Diagnostic β} {as : List α}
    (h : ∀ a ∈ as, IsRead (lacks a) (R a) (f a)) :
    IsRead (∃ a ∈ as, lacks a) (List.Forall₂ R as) (as.mapM f) := by
  induction as with
  | nil => exact (IsRead.pure .nil).congr (by simp)
  | cons a rest ih =>
    rw [List.mapM_cons]
    obtain ⟨ha, hrest⟩ := List.forall_mem_cons.1 h
    have hall := ha.bind fun b hb => (ih hrest).map fun bs hbs => List.Forall₂.cons hb hbs
    exact hall.congr (by simp)

end IsRead

section Shape

variable {model : Model} {entity : EntityType} {s : Select} {row : Row} {full : Shape}

/-- The slots of a select hold a shape, so what the shape has under a path has a slot. -/
theorem slot?_of_lookup (hslots : SlotsHold s.projection full s.slots) {path : MemberPath}
    {projected : Projected} (h : full.lookup path = some projected) :
    ∃ slot, s.slot? path = some slot ∧ Slot.Holds s.projection projected slot := by
  have hrel := lookup_related hslots path
  rw [h] at hrel
  unfold Select.slot?
  generalize s.slots.lookup path = found at hrel ⊢
  cases hrel with
  | some hholds => exact ⟨_, rfl, hholds⟩

/-- A shaper that fits a part of the shape reads its value from a row. -/
theorem Fits.isRead (hentity : model.findEntity? entity.name = some entity)
    (hslots : SlotsHold s.projection full s.slots) (hrow : s.projection.length ≤ row.length)
    {e : Expr} {path : MemberPath} {shape : Shape} (h : Fits entity e path shape)
    (hfound : ∀ p ∈ shape, full.lookup p.1 = some p.2) :
    IsRead (Lacks s row e) (Reads model s row e) (s.shape row e) ∧
      ∀ members, e = .shape members → ∀ whole index, IsRead (Lacks s row e)
        (fun vs => Reads model s row e (.object vs)) (s.shapeMembers row whole index members) := by
  induction h with
  | scalar path scalar =>
    refine ⟨?_, nofun⟩
    obtain ⟨slot, hslot, hholds⟩ := slot?_of_lookup hslots (hfound _ List.mem_cons_self)
    cases hholds with
    | scalar hposition =>
      obtain ⟨literal, hread, -, hvalue⟩ := Select.read_eq_ok hrow hslot hposition
      rw [Select.shape, hread]
      exact (IsRead.pure (.scalar hslot hvalue)).congr ⟨False.elim, nofun⟩
  | nonEmpty path scalar =>
    refine ⟨?_, nofun⟩
    obtain ⟨slot, hslot, hholds⟩ := slot?_of_lookup hslots (hfound _ List.mem_cons_self)
    cases hholds with
    | scalar hposition =>
      obtain ⟨literal, hread, hliteral, hvalue⟩ := Select.read_eq_ok hrow hslot hposition
      rw [Select.shape, Select.requirePresent, Select.shape, hread]
      cases hnull : literal.isNull with
      | true =>
        simp only [bind, Except.bind, hnull, if_true]
        exact .error (.value hslot hliteral hnull)
      | false =>
        simp only [bind, Except.bind, hnull, Bool.false_eq_true, if_false, pure, Except.pure]
        refine (IsRead.pure (.nonEmpty hslot hliteral hnull (.scalar hslot hvalue))).congr ?_
        simp [lacks_nonEmpty hslot hliteral, hnull]
  | entity path hof =>
    refine ⟨?_, nofun⟩
    obtain ⟨slot, hslot, hholds⟩ := slot?_of_lookup hslots (hfound _ List.mem_cons_self)
    cases hholds with
    | @entity e positions hpositions =>
      obtain ⟨members, hmembers, hall⟩ := Select.readProperties_eq_ok hrow hpositions
      have hnames : members.map (·.1) = entity.properties.map (·.name) := by
        rw [← keys_eq (R := fun p m => ∃ type, s.HoldsValue row p type m) hall,
          ← keys_eq (R := fun c p => HoldsAt s.projection p c) hpositions]
        exact hof
      rw [Select.shape, Select.readEntity, hslot]
      simp only [hmembers]
      exact (IsRead.pure (.entity hentity hslot hnames hall)).congr ⟨False.elim, nofun⟩
  | shapeNil path =>
    have hnone : False ↔ Lacks s row (.shape []) := ⟨False.elim, by rintro (_ | ⟨hm, _⟩); cases hm⟩
    refine ⟨?_, ?_⟩
    · exact (IsRead.pure .shapeNil).congr hnone
    · rintro _ ⟨⟩ whole index
      exact (IsRead.pure .shapeNil).congr hnone
  | @shapeCons path name e rest shape shapes _ _ ihe ihrest =>
    obtain ⟨hfirst, hothers⟩ := List.forall_mem_append.1 hfound
    obtain ⟨he, -⟩ := ihe hfirst
    obtain ⟨-, hrest⟩ := ihrest hothers
    -- what is read of the members depends neither on the whole shape nor on their index
    have hmembers : ∀ whole index, IsRead (Lacks s row (.shape (⟨some name, e⟩ :: rest)))
        (fun vs => Reads model s row (.shape (⟨some name, e⟩ :: rest)) (.object vs))
        (s.shapeMembers row whole index (⟨some name, e⟩ :: rest)) := by
      intro whole index
      rw [Select.shapeMembers]
      exact (he.bind fun value hvalue => (hrest rest rfl whole (index + 1)).map fun members hmembers =>
        .shapeCons hvalue hmembers).congr lacks_shape_cons.symm
    refine ⟨?_, ?_⟩
    · rw [Select.shape]
      exact (hmembers _ 0).map fun members hmembers => hmembers
    · rintro _ ⟨⟩ whole index
      exact hmembers whole index

end Shape

/-- When every row can be read, the results can be, unless one is lacking. -/
theorem ShapedQuery.materialize_isRead {model : Model} {q : ShapedQuery} {rows : List Row}
    (h : ∀ row ∈ rows, IsRead (Lacks q.select row q.shaper) (Reads model q.select row q.shaper) (q.valueOf row)) :
    IsRead (q.LacksResult rows) (q.Results model rows) (q.materialize rows) := by
  obtain ⟨select, shaper, cardinality⟩ := q
  cases cardinality with
  | sequence =>
    have hrows := IsRead.mapM h
    exact (hrows.map fun values hvalues => .sequence rfl hvalues).congr (ShapedQuery.lacksResult_all rfl).symm
  | single =>
    cases rows with
    | nil => exact .error (.noRow rfl)
    | cons row rest =>
      have hrow := h row List.mem_cons_self
      exact (hrow.map fun value hvalue => .single rfl hvalue).congr
        (ShapedQuery.lacksResult_first (by nofun)).symm
  | singleOrDefault =>
    cases rows with
    | nil => exact (IsRead.pure (.none rfl)).congr ⟨False.elim, by rintro (_ | _) <;> contradiction⟩
    | cons row rest =>
      have hrow := h row List.mem_cons_self
      exact (hrow.map fun value hvalue => .one rfl hvalue).congr
        (ShapedQuery.lacksResult_first (by nofun)).symm

/-- Reading the results of an accepted pipeline is total. When every row has at least as many values as the
projection has columns, the results are read and every value is what the shaper puts together from its
row, or the only diagnostic is the one with the code `E0004`, that there is no result where one is expected. This
one comes just where one result is expected and there is no row, or where a value that must be present is null in
a row that is looked at. This holds whatever functions the compiler knows. -/
theorem materialize_total (c : Compiler) (query : Query) (shaped : ShapedQuery) (rows : List Row)
    (h : c.lower query = .ok shaped)
    (hbodies : ∀ e ∈ query.bodies, e.isSource = true ∧ e.hasDistinctMembers = true)
    (hrows : ∀ row ∈ rows, shaped.select.projection.length ≤ row.length) :
    ((∃ results, shaped.materialize rows = .ok results ∧
        shaped.Results c.environment.model rows results) ∨
      (shaped.materialize rows = .error .noElements ∧ Diagnostic.noElements.code = some "E0004")) ∧
    (shaped.materialize rows = .error .noElements ↔ shaped.LacksResult rows) := by
  obtain ⟨entity, q, hentity, hsteps, rfl⟩ := Environment.lower_steps (Compiler.lower_eq_ok h) hbodies
  have hagrees : q.Agrees entity := hsteps.agrees
  have hname : entity.name = query.source := by simpa using List.find?_some hentity
  have hread : ∀ row ∈ rows, IsRead (Lacks q.finish.select row q.finish.shaper)
      (Reads c.environment.model q.finish.select row q.finish.shaper) (q.finish.valueOf row) := by
    intro row hrow
    have hfits := hagrees.fits.isRead (hname ▸ hentity) q.draft.rowSlots_hold (hrows row hrow)
      fun p hp => hagrees.found hp
    exact hfits.1
  have hresult := ShapedQuery.materialize_isRead hread
  by_cases hlacks : q.finish.LacksResult rows
  · have herror := hresult.fails hlacks
    exact ⟨.inr ⟨herror, rfl⟩, fun _ => hlacks, fun _ => herror⟩
  · obtain ⟨results, hok, hresults⟩ := hresult.succeeds hlacks
    refine ⟨.inl ⟨results, hok, hresults⟩, fun herror => ?_, fun hl => absurd hl hlacks⟩
    rw [hok] at herror
    cases herror

/-- Two rows of numbers and names, one of them with a value more than there are columns. -/
def namedRows : List Row := [[.integer 2, .text "Ada"], [.integer 7, .null, .boolean true]]

/-- The person and the name that a row gives, by its number and by a name that may be null. -/
def namedPerson (id : Literal) (name : Literal) : Value :=
  .object [("who", .object [("id", .scalar id), ("name", .scalar name)]), ("name", .scalar name)]

/-- The results for the last named persons are read from these rows: a person and its name from each. -/
theorem lastNamed_materialize_total :
    ∃ shaped, (Compiler.new .persons .standard).lower .lastNamed = .ok shaped ∧
      (∀ e ∈ Query.lastNamed.bodies, e.isSource = true ∧ e.hasDistinctMembers = true) ∧
      (∀ row ∈ namedRows, shaped.select.projection.length ≤ row.length) ∧
      ∃ results, results = .sequence [namedPerson (.integer 2) (.text "Ada"), namedPerson (.integer 7) .null] ∧
        shaped.materialize namedRows = .ok results ∧ shaped.Results .persons namedRows results ∧
        ¬ shaped.LacksResult namedRows := by
  have hbodies : ∀ e ∈ Query.lastNamed.bodies, e.isSource = true ∧ e.hasDistinctMembers = true := by
    decide
  obtain ⟨shaped, h⟩ : ∃ shaped, (Compiler.new .persons .standard).lower .lastNamed = .ok shaped :=
    exists_of_isOk (by decide +kernel)
  have hlength : ((Compiler.new .persons .standard).lower .lastNamed).toOption.map
      (·.select.projection.length) = some 2 := by decide +kernel
  have hresults : ((Compiler.new .persons .standard).lower .lastNamed).toOption.map (·.materialize namedRows) =
      some (.ok (.sequence [namedPerson (.integer 2) (.text "Ada"), namedPerson (.integer 7) .null])) := by
    with_unfolding_all rfl
  simp only [h, Except.toOption, Option.map_some, Option.some.injEq] at hlength hresults
  have hrows : ∀ row ∈ namedRows, shaped.select.projection.length ≤ row.length := by
    rw [hlength]
    decide
  obtain ⟨hread, hlacks⟩ := materialize_total (Compiler.new .persons .standard) .lastNamed shaped namedRows h
    hbodies hrows
  rw [hresults] at hread hlacks
  refine ⟨shaped, h, hbodies, hrows, _, rfl, hresults, ?_, fun hl => nomatch hlacks.2 hl⟩
  rcases hread with ⟨results, hok, hall⟩ | ⟨herror, -⟩
  · cases hok
    exact hall
  · cases herror

end QueryPipeline
