import Mathlib.Data.List.DropRight
import QueryPipeline.Proofs.Nesting

/-!
# Names of columns without regard to case

The columns of a subquery have different names, but databases do not regard the case of names that are not
quoted. A fresh name is a preferred one with a number behind it, so its stem, which is the name without the
digits at its end, is that of a stored column, of a member of a shape, or of the name for all else. When no two
of these stems only differ in case, then no two columns of any subquery have names that only differ in case.
-/

set_option autoImplicit false

namespace QueryPipeline

open Sql

section Stems

/-- A name without the digits at its end. -/
def stem (name : String) : List Char := name.toList.rdropWhile Char.isDigit

/-- Of some names, no two have stems that only differ in case. -/
def StemsApart (names : List String) : Prop :=
  ∀ a ∈ names, ∀ b ∈ names, (stem a).map Char.toLower = (stem b).map Char.toLower → stem a = stem b

instance (names : List String) : Decidable (StemsApart names) :=
  inferInstanceAs (Decidable (∀ a ∈ names, ∀ b ∈ names, _ → stem a = stem b))

/-- A name is one of some names, perhaps with other digits at its end. -/
def NamedAfter (names : List String) (name : String) : Prop := ∃ n ∈ names, stem name = stem n

variable {names : List String} {name : String}

/-- A name comes from some names when it is one of them. -/
theorem NamedAfter.ofMem (h : name ∈ names) : NamedAfter names name := ⟨name, h, rfl⟩

/-- A letter is a digit when its small letter is one. -/
theorem isDigit_toLower (c : Char) : c.toLower.isDigit = c.isDigit := by
  unfold Char.toLower
  split
  · rename_i hupper
    -- neither a capital letter nor a small one is a digit
    have hnine : '9'.val.toNat = 57 := rfl
    have hfirst : 'A'.val.toNat = 65 := rfl
    have hlast : 'Z'.val.toNat = 90 := rfl
    have hshift : ('a'.val - 'A'.val).toNat = 32 := rfl
    simp only [ge_iff_le, UInt32.le_iff_toNat_le] at hupper
    have hcapital : ¬c.val ≤ '9'.val := by
      rw [UInt32.le_iff_toNat_le]
      omega
    have hsmall : ¬c.val + ('a'.val - 'A'.val) ≤ '9'.val := by
      rw [UInt32.le_iff_toNat_le, UInt32.toNat_add, hshift]
      omega
    simp only [Char.isDigit, hcapital, hsmall, decide_false, Bool.and_false]
  · rfl

/-- Digits have no other small letter. -/
theorem toLower_of_isDigit {c : Char} (h : c.isDigit = true) : c.toLower = c := by
  simp only [Char.isDigit, Bool.and_eq_true, decide_eq_true_eq, ge_iff_le, UInt32.le_iff_toNat_le] at h
  unfold Char.toLower
  split
  · rename_i hupper
    have hnine : '9'.val.toNat = 57 := rfl
    have hfirst : 'A'.val.toNat = 65 := rfl
    simp only [ge_iff_le, UInt32.le_iff_toNat_le] at hupper
    omega
  · rfl

/-- Digits stay the same in small letters. -/
theorem map_toLower_of_digits {digits : List Char} (h : ∀ d ∈ digits, d.isDigit = true) :
    digits.map Char.toLower = digits := by
  conv_rhs => rw [← List.map_id digits]
  exact List.map_congr_left fun d hd => toLower_of_isDigit (h d hd)

/-- Digits behind a name do not change its stem. -/
theorem stem_append {digits : List Char} (h : ∀ d ∈ digits, d.isDigit = true) :
    (name.toList ++ digits).rdropWhile Char.isDigit = stem name := by
  unfold stem List.rdropWhile
  rw [List.reverse_append, List.dropWhile_append_of_pos fun d hd => h d (List.mem_reverse.1 hd)]

/-- A number at the end of a name changes nothing about its stem. -/
theorem stem_numbered (n : Nat) : stem (name ++ toString n) = stem name := by
  have hdigits : ∀ d ∈ (toString n).toList, d.isDigit = true := by
    intro d hd
    have hd : d ∈ Nat.toDigits 10 n := by rwa [← Nat.toList_repr]
    exact Nat.isDigit_of_mem_toDigits (by decide) (by decide) hd
  rw [stem, String.toList_append, stem_append hdigits]

/-- A fresh name has the stem of the preferred one. -/
theorem stem_freshName (taken : List String) : stem (freshName taken name) = stem name := by
  unfold freshName
  split
  · cases hfound : (numberedNames taken name).find? (· ∉ taken) with
    | none => rfl
    | some found =>
      obtain ⟨n, -, rfl⟩ := List.mem_map.1 (List.mem_of_find?_eq_some hfound)
      exact stem_numbered n
  · rfl

/-- A name is its stem with digits behind it. -/
theorem exists_digits (name : String) :
    ∃ digits : List Char, name.toList = stem name ++ digits ∧ ∀ d ∈ digits, d.isDigit = true := by
  refine ⟨name.toList.rtakeWhile Char.isDigit, List.rdropWhile_append_rtakeWhile.symm, ?_⟩
  intro d hd
  exact List.mem_takeWhile_imp (List.mem_reverse.1 hd)

/-- A name in small letters is written letter by letter. -/
theorem toList_toLower (name : String) : name.toLower.toList = name.toList.map Char.toLower := by
  have hlower : name.toLower = name.map Char.toLower := rfl
  rw [hlower, String.toList_map]

/-- The case of letters has nothing to do with what the stem is. -/
theorem stem_toLower (name : String) : stem name.toLower = (stem name).map Char.toLower := by
  have hsame : Char.isDigit ∘ Char.toLower = Char.isDigit := funext isDigit_toLower
  rw [stem, toList_toLower, stem, List.rdropWhile, ← List.map_reverse, List.dropWhile_map, hsame,
    ← List.map_reverse, List.rdropWhile]

/-- Names with the same stem that only differ in case are the same: behind the stem there are only digits. -/
theorem eq_of_toLower {a b : String} (hstem : stem a = stem b) (h : a.toLower = b.toLower) : a = b := by
  obtain ⟨as, ha, hasDigits⟩ := exists_digits a
  obtain ⟨bs, hb, hbsDigits⟩ := exists_digits b
  have hlower : a.toList.map Char.toLower = b.toList.map Char.toLower := by
    rw [← toList_toLower, ← toList_toLower, h]
  rw [ha, hb, hstem, List.map_append, List.map_append, map_toLower_of_digits hasDigits,
    map_toLower_of_digits hbsDigits, List.append_cancel_left_eq] at hlower
  rw [← String.toList_inj, ha, hb, hstem, hlower]

/-- Different names after names whose stems are apart differ in more than case. -/
theorem StemsApart.nodup_toLower (h : StemsApart names) {aliases : List String} (hnodup : aliases.Nodup)
    (hnamed : ∀ a ∈ aliases, NamedAfter names a) : (aliases.map String.toLower).Nodup := by
  refine hnodup.map_on fun a ha b hb hlower => eq_of_toLower ?_ hlower
  obtain ⟨n, hn, hna⟩ := hnamed a ha
  obtain ⟨m, hm, hmb⟩ := hnamed b hb
  have hstems : (stem n).map Char.toLower = (stem m).map Char.toLower := by
    rw [← hna, ← hmb, ← stem_toLower, ← stem_toLower, hlower]
  rw [hna, hmb, h n hn m hm hstems]

end Stems

section Projections

variable {names : List String}

namespace Sql

/-- A node that is a column has a name after some names. -/
def Node.NamedAfter (names : List String) (n : Node) : Prop :=
  ∀ table name, n = .column table name → QueryPipeline.NamedAfter names name

/-- To be named after some names is a matter of references to columns. -/
theorem namedAfter_onReferences (names : List String) : OnReferences (Node.NamedAfter names) where
  free h := by
    rintro table name rfl
    cases h
  withMapping _ h table name hnode := h table name (Node.eq_of_withMapping hnode nofun nofun nofun)

/-- All columns of a projection have names after some names. -/
def Projection.NamedAfter (names : List String) (p : Projection) : Prop :=
  ∀ name ∈ p.names, QueryPipeline.NamedAfter names name

namespace Projection

variable {p : Projection}

/-- A column that is added to a projection gets a name that comes from the same names. -/
theorem NamedAfter.add (h : p.NamedAfter names) {s : Scalar} {preferred : String}
    (hs : QueryPipeline.NamedAfter names (s.ownName?.getD preferred)) :
    (p.add s preferred).1.NamedAfter names := by
  cases hfind : p.columns.findIdx? (·.expr = s.asValueForm) with
  | some position =>
    rw [add_of_found hfind]
    exact h
  | none =>
    rw [add_of_new hfind]
    intro name hname
    rw [names_withColumn, newName] at hname
    rcases List.mem_append.1 hname with hname | hname
    · exact h name hname
    · split at hname
      · obtain ⟨n, hn, hstem⟩ := hs
        rw [Option.toList_some, List.mem_singleton] at hname
        exact ⟨n, hn, by rw [hname, stem_freshName]; exact hstem⟩
      · cases hname

/-- The columns of an entity get names that come from the same names. -/
theorem NamedAfter.addColumns (h : p.NamedAfter names) {columns : List (String × Scalar)}
    (hcolumns : ∀ c ∈ columns, QueryPipeline.NamedAfter names (c.2.ownName?.getD c.1)) :
    (p.addColumns columns).1.NamedAfter names := by
  induction columns generalizing p with
  | nil => exact h
  | cons c rest ih =>
    obtain ⟨hc, hrest⟩ := List.forall_mem_cons.1 hcolumns
    exact ih (h.add hc) hrest

/-- The keys of an ordering get names that come from the same names. -/
theorem NamedAfter.addKeys (h : p.NamedAfter names) {keys : List SortKey}
    (hkeys : ∀ k ∈ keys, QueryPipeline.NamedAfter names (k.expr.ownName?.getD "c")) :
    (p.addKeys keys).1.NamedAfter names := by
  induction keys generalizing p with
  | nil => exact h
  | cons k rest ih =>
    obtain ⟨hk, hrest⟩ := List.forall_mem_cons.1 hkeys
    exact ih (h.add hk) hrest

/-- The columns of a shape get names that come from the same names. -/
theorem NamedAfter.addShape (h : p.NamedAfter names) {shape : Shape}
    (hscalars : ∀ path s, (path, Projected.scalar s) ∈ shape →
      QueryPipeline.NamedAfter names (s.ownName?.getD (path.last?.getD "c")))
    (hentities : ∀ path e, (path, Projected.entity e) ∈ shape →
      ∀ c ∈ e.columns, QueryPipeline.NamedAfter names (c.2.ownName?.getD c.1)) :
    (p.addShape shape).1.NamedAfter names := by
  induction shape generalizing p with
  | nil => exact h
  | cons entry rest ih =>
    obtain ⟨path, projected⟩ := entry
    have hprojected : (p.addProjected path projected).1.NamedAfter names := by
      cases projected with
      | scalar s => exact h.add (hscalars path s List.mem_cons_self)
      | entity e => exact h.addColumns (hentities path e List.mem_cons_self)
    exact ih hprojected (fun path s hs => hscalars path s (List.mem_cons_of_mem _ hs))
      fun path e he => hentities path e (List.mem_cons_of_mem _ he)

end Projection

variable {s : Scalar}

/-- The columns of a select have names that differ in more than case. -/
def Select.NamesApart (s : Select) : Prop :=
  ∃ aliases : List String, s.projection.map (·.aliasName) = aliases.map some ∧
    (aliases.map String.toLower).Nodup

/-- An entry of a shape takes its names from some names: the members of its path are among them, its scalars
have columns named after them, and the properties of an entity are columns. -/
structure NamedEntry (names : List String) (entry : MemberPath × Projected) : Prop where
  path : ∀ member ∈ entry.1.members, member ∈ names
  scalars : ∀ s ∈ entry.2.scalars, s.AllNodes (Node.NamedAfter names)
  entity : ∀ e, entry.2 = .entity e → ∀ c ∈ e.columns, c.2.ownName?.isSome = true

/-- The own name of a scalar is that of a column. -/
theorem namedAfter_ownName (h : s.AllNodes (Node.NamedAfter names)) {name : String}
    (hname : s.ownName? = some name) : QueryPipeline.NamedAfter names name := by
  unfold Scalar.ownName? at hname
  split at hname
  · rename_i hnode
    cases hname
    exact h.self _ _ hnode
  · cases hname

/-- A scalar of a shape is projected under its own name, the name of its member or the one for all else. -/
theorem NamedEntry.preferred (hc : "c" ∈ names) {path : MemberPath} (h : NamedEntry names (path, .scalar s)) :
    QueryPipeline.NamedAfter names (s.ownName?.getD (path.last?.getD "c")) := by
  cases hown : s.ownName? with
  | some name => exact namedAfter_ownName (h.scalars s (List.mem_singleton_self s)) hown
  | none =>
    cases hlast : path.last? with
    | some member => exact .ofMem (h.path member (List.mem_of_getLast? hlast))
    | none => exact .ofMem hc

/-- A property of an entity is projected under the name of its column. -/
theorem NamedEntry.preferredColumn {path : MemberPath} {e : EntityColumns}
    (h : NamedEntry names (path, .entity e)) :
    ∀ c ∈ e.columns, QueryPipeline.NamedAfter names (c.2.ownName?.getD c.1) := by
  intro c hc
  obtain ⟨name, hname⟩ := Option.isSome_iff_exists.1 (h.entity e rfl c hc)
  rw [hname]
  exact namedAfter_ownName (h.scalars c.2 (List.mem_map_of_mem hc)) hname

/-- A subquery has names after some names when its shape and the keys of its orderings take theirs from them. -/
theorem Draft.subqueryProjection_namedAfter (hc : "c" ∈ names) {d : Draft}
    (hentries : ∀ entry ∈ d.shape, NamedEntry names entry)
    (hkeys : ∀ k ∈ d.orderings, k.expr.AllNodes (Node.NamedAfter names)) :
    d.subqueryProjection.NamedAfter names := by
  have hempty : (⟨true, []⟩ : Projection).NamedAfter names := fun _ h => absurd h List.not_mem_nil
  have hshape : d.shapeProjection.NamedAfter names := hempty.addShape
    (fun path s h => (hentries (path, .scalar s) h).preferred hc)
    fun path e h => (hentries (path, .entity e) h).preferredColumn
  refine hshape.addKeys fun k hk => ?_
  cases hown : k.expr.ownName? with
  | some name => exact namedAfter_ownName (hkeys k hk) hown
  | none => exact .ofMem hc

/-- Names of columns are all there when every column has one. -/
theorem map_aliasName_eq {columns : List OutputColumn} (h : ∀ c ∈ columns, c.aliasName.isSome = true) :
    columns.map (·.aliasName) = (columns.filterMap (·.aliasName)).map some := by
  induction columns with
  | nil => rfl
  | cons c rest ih =>
    obtain ⟨hc, hrest⟩ := List.forall_mem_cons.1 h
    obtain ⟨name, hname⟩ := Option.isSome_iff_exists.1 hc
    rw [List.map_cons, ih hrest, List.filterMap_cons, hname, List.map_cons]

/-- The names of a subquery differ in more than case when they are after names whose stems do. -/
theorem Draft.subquery_namesApart (hstems : StemsApart names) {d : Draft}
    (h : d.subqueryProjection.NamedAfter names) : d.subquery.NamesApart := by
  obtain ⟨hall, hnodup⟩ := d.subqueryProjection_wellNamed
  exact ⟨d.subqueryProjection.names, map_aliasName_eq hall, hstems.nodup_toLower hnodup h⟩

/-- A column outside of a subquery has the name of a column inside. -/
theorem OuterColumn.namedAfter {d : Draft} (h : d.subqueryProjection.NamedAfter names) {s' : Scalar}
    (hs : OuterColumn d.subqueryProjection.columns s s') :
    s'.AllNodes (Node.NamedAfter names) ∧ s'.ownName?.isSome = true := by
  obtain ⟨c, hc, name, hname, -, rfl⟩ := hs
  have hnamed := h name (List.mem_filterMap.2 ⟨c, hc, hname⟩)
  refine ⟨Scalar.all_of_leaf ?_ rfl, rfl⟩
  rintro table _ ⟨⟩
  exact hnamed

end Sql

end Projections

/-- The members of a shape have names among some names. -/
def Expr.membersIn (names : List String) : Expr → Bool
  | .shape members => members.all fun m => m.name.all (names.contains ·)
  | _ => true

section Pipelines

variable {names : List String}

/-- The shape that a selector becomes takes its names from some names, and so do the shapes of its shaper. -/
theorem Bound.namedAfter {scope : Scope} (hd : ∀ entry ∈ scope.draft.shape, NamedEntry names entry)
    (hvalue : ∀ e s, scope.value e = .ok (some s) → s.AllNodes (Node.NamedAfter names)) {e shaper : Expr}
    {path : MemberPath} {shape : Shape} (h : Bound scope e path shaper shape)
    (he : e.everywhere (·.membersIn names) = true) (hpath : ∀ member ∈ path.members, member ∈ names) :
    shaper.everywhere (·.membersIn names) = true ∧ ∀ entry ∈ shape, NamedEntry names entry := by
  induction h with
  | leaf _ _ h =>
    exact ⟨rfl, List.forall_mem_singleton.2 ⟨hpath, List.forall_mem_singleton.2 (hvalue _ _ h), nofun⟩⟩
  | entity _ h =>
    obtain ⟨l, r, hshape, -⟩ := List.lookup_eq_some_iff.1 h
    have hentry := hd _ (hshape ▸ List.mem_append_right l List.mem_cons_self)
    exact ⟨rfl, List.forall_mem_singleton.2 ⟨hpath, hentry.scalars, hentry.entity⟩⟩
  | shapeNil _ => exact ⟨rfl, List.forall_mem_nil _⟩
  | @shapeCons _ _ _ path name _ _ _ _ hreduced _ _ ihm ihrest =>
    have he := Expr.everywhere_reduceMembers he
    rw [hreduced] at he
    simp only [Expr.everywhere, everywhereMembers, Expr.membersIn, List.all_cons, Option.all_some,
      Bool.and_eq_true] at he
    obtain ⟨⟨hname, hnames⟩, hm, hrest⟩ := he
    have hmember : name ∈ names := List.contains_iff_mem.1 hname
    have hmemberPath : ∀ member ∈ (path.append name).members, member ∈ names := by
      simpa [MemberPath.append] using fun member hm => hm.elim (hpath member) (· ▸ hmember)
    obtain ⟨hbound, hentries⟩ := ihm hm hmemberPath
    simp only [Expr.everywhere, Expr.membersIn, Bool.and_eq_true] at ihrest
    obtain ⟨⟨hotherNames, hotherMembers⟩, hotherEntries⟩ := ihrest ⟨hnames, hrest⟩ hpath
    refine ⟨?_, List.forall_mem_append.2 ⟨hentries, hotherEntries⟩⟩
    simp only [Expr.everywhere, everywhereMembers, Expr.membersIn, List.all_cons, Option.all_some,
      Bool.and_eq_true]
    exact ⟨⟨hname, hotherNames⟩, hbound, hotherMembers⟩

/-- The body of a selector with a shaper in it names its members as both of them do. -/
theorem Expr.membersIn_inline {f : Lambda} {argument : Expr}
    (hbody : f.body.everywhere (·.membersIn names) = true)
    (harg : argument.everywhere (·.membersIn names) = true) :
    (f.inline argument).everywhere (·.membersIn names) = true := by
  refine Expr.everywhere_inline (fun g e he hne => ?_) (fun _ => rfl) hbody harg
  cases e with
  | param name => exact absurd rfl (hne name)
  | shape members =>
    have hmapped : ∀ ms : List ShapeMember, ms.all (fun m => m.name.all (names.contains ·)) = true ↔
        ∀ name ∈ ms.map (·.name), name.all (names.contains ·) = true := by simp
    simp only [membersIn, mapParams] at he ⊢
    rw [hmapped] at he ⊢
    rwa [names_mapParamsMembers]
  | _ => rfl

/-- All names that the columns of a query and of the subqueries in it come from are among some names, and the
columns of its sources have names that differ in more than case. -/
structure ShapedDraft.NamedAfter (names : List String) (q : ShapedDraft) : Prop where
  shaper : q.shaper.everywhere (·.membersIn names) = true
  entries : ∀ entry ∈ q.draft.shape, NamedEntry names entry
  keys : ∀ k ∈ q.draft.orderings, k.expr.AllNodes (Node.NamedAfter names)
  sources : ∀ inner aliasName, TableSource.subquery inner aliasName ∈ q.draft.tables → inner.NamesApart

namespace ShapedDraft.NamedAfter

variable {env : Environment} {q q' : ShapedDraft} (h : q.NamedAfter names)
include h

/-- The scalars of the shape of a query come from the names of the query. -/
theorem scalars : ∀ s ∈ q.draft.shape.scalars, s.AllNodes (Node.NamedAfter names) := by
  intro s hs
  obtain ⟨entry, hentry, hs⟩ := List.mem_flatMap.1 hs
  exact (h.entries entry hentry).scalars s hs

/-- The draft becomes a subquery whose columns have names that differ in more than case. -/
theorem pushDown (hc : "c" ∈ names) (hstems : StemsApart names) : q.pushDown.NamedAfter names := by
  have hnames := Draft.subqueryProjection_namedAfter hc h.entries h.keys
  refine ⟨h.shaper, fun entry' hentry' => ?_, fun k' hk' => ?_, fun inner aliasName hinner => ?_⟩
  · obtain ⟨entry, hentry, hpath, hrelated⟩ := exists_of_mem_right q.draft.outerShape_related hentry'
    obtain ⟨path, projected⟩ := entry
    obtain ⟨path', projected'⟩ := entry'
    refine ⟨hpath ▸ (h.entries _ hentry).path, ?_, ?_⟩
    · cases hrelated with
      | scalar hs => exact List.forall_mem_singleton.2 (hs.namedAfter hnames).1
      | entity hcolumns =>
        intro s' hs'
        obtain ⟨c', hc', rfl⟩ := List.mem_map.1 hs'
        obtain ⟨c, -, -, hs⟩ := exists_of_mem_right hcolumns hc'
        exact (hs.namedAfter hnames).1
    · rintro e rfl c' hc'
      cases hrelated with
      | entity hcolumns =>
        obtain ⟨c, -, -, hs⟩ := exists_of_mem_right hcolumns hc'
        exact (hs.namedAfter hnames).2
  · obtain ⟨k, -, hk, -⟩ := exists_of_mem_right q.draft.outerOrderings_related hk'
    exact (hk.namedAfter hnames).1
  · cases List.mem_singleton.1 hinner
    exact Draft.subquery_namesApart hstems hnames

/-- Other scalars of all rows come from no new names. -/
theorem returning {s : Scalar} (hs : s.AllNodes (Node.NamedAfter names)) :
    (q.returning s).NamedAfter names :=
  ⟨rfl, List.forall_mem_singleton.2 ⟨nofun, List.forall_mem_singleton.2 hs, nofun⟩, h.keys, h.sources⟩

/-- Other keys of the ordering whose columns come from the same names change nothing. -/
theorem reorder {orderings : List SortKey}
    (hkeys : ∀ k ∈ orderings, k.expr.AllNodes (Node.NamedAfter names)) :
    (q.mapDraft ({ · with orderings })).NamedAfter names := ⟨h.shaper, h.entries, hkeys, h.sources⟩

/-- A condition on the rows brings in no names. -/
theorem restrict (s : Scalar) : (q.mapDraft (·.restrict s)).NamedAfter names := by
  unfold ShapedDraft.mapDraft Draft.restrict
  split
  · exact h
  · exact ⟨h.shaper, h.entries, h.keys, h.sources⟩

/-- One more key brings in no other names than its own. -/
theorem thenBy {k : SortKey} (hk : k.expr.AllNodes (Node.NamedAfter names)) :
    (q.mapDraft (·.thenBy k)).NamedAfter names := by
  unfold ShapedDraft.mapDraft Draft.thenBy
  dsimp only
  split
  · exact h
  · exact h.reorder (List.forall_mem_append.2 ⟨h.keys, List.forall_mem_singleton.2 hk⟩)

/-- To reverse the ordering brings in no names. -/
theorem reverse : (q.mapDraft Draft.reverse).NamedAfter names := by
  refine h.reorder fun k hk => ?_
  obtain ⟨k', hk', rfl⟩ := List.mem_map.1 hk
  exact h.keys k' hk'

end ShapedDraft.NamedAfter

namespace Environment

variable {env : Environment} {q q' : ShapedDraft}

/-- The columns of the query that returns the rows of an entity come from the columns of the entity. -/
theorem startQuery_namedAfter {entity : EntityType}
    (hcolumns : ∀ p ∈ entity.properties, p.columnName ∈ names) :
    (env.startQuery entity).NamedAfter names := by
  refine ⟨rfl, List.forall_mem_singleton.2 ⟨nofun, ?_, ?_⟩, fun _ h => absurd h List.not_mem_nil, ?_⟩
  · intro s hs
    simp only [Projected.scalars, List.map_map, List.mem_map] at hs
    obtain ⟨property, hproperty, rfl⟩ := hs
    refine Scalar.all_of_leaf ?_ rfl
    rintro table _ ⟨⟩
    exact .ofMem (hcolumns property hproperty)
  · rintro _ ⟨⟩ c hc
    obtain ⟨property, -, rfl⟩ := List.mem_map.1 hc
    rfl
  · intro inner aliasName hinner
    cases List.mem_singleton.1 hinner

/-- Every step brings in no names but those of its bodies. -/
theorem Step.namedAfter (hf : env.FunctionsKeep) (hc : "c" ∈ names) (hstems : StemsApart names)
    (h : q.NamedAfter names) (hstep : env.Step (·.everywhere (·.membersIn names) = true) q q') :
    q'.NamedAfter names := by
  have hclosed := (namedAfter_onReferences names).closed env.catalog
  have hlowered : ∀ {e : Expr} {asValue : Bool} {s : Scalar}, (env.scope q).lowerIn e asValue = .ok (some s) →
      s.AllNodes (Node.NamedAfter names) :=
    fun hs => Closed.lowerIn (env.scope q) hclosed (hf _ hclosed) h.scalars hs
  cases hstep with
  | pushDown _ => exact h.pushDown hc hstems
  | restrict _ _ _ | exclude _ _ _ => exact h.restrict _
  | project _ hbody hbound =>
    obtain ⟨hshaper, hentries⟩ := (Scope.bind_bound _ _ _ _ hbound).namedAfter h.entries
      (fun _ _ hs => hlowered hs) (Expr.membersIn_inline hbody h.shaper) nofun
    exact ⟨hshaper, hentries, h.keys, h.sources⟩
  | orderBy _ _ _ hs => exact h.reorder (List.forall_mem_singleton.2 (hlowered hs))
  | thenBy _ _ _ hs => exact h.thenBy (hlowered hs)
  | skip _ _ _ | take _ _ _ | takeOne _ | expecting _ => exact ⟨h.shaper, h.entries, h.keys, h.sources⟩
  | makeDistinct _ => exact ⟨h.shaper, h.entries, fun _ hk => absurd hk List.not_mem_nil, h.sources⟩
  | reverse _ => exact h.reverse
  | unordered _ => exact h.reorder (List.forall_mem_nil _)
  | existence negated =>
    refine ⟨rfl, List.forall_mem_singleton.2 ⟨nofun, List.forall_mem_singleton.2 ?_, nofun⟩,
      fun _ hk => absurd hk List.not_mem_nil, fun _ _ hinner => absurd hinner List.not_mem_nil⟩
    exact Scalar.all_of_leaf (fun _ _ => nofun) rfl
  | rowTotal _ type _ =>
    exact h.returning (hclosed.ofArgs _ type (List.forall_mem_singleton.2 (hclosed.fragment "*" type)))
  | aggregate _ hcompute hs hr =>
    have hinput := hclosed.resolve (h.scalars _ (Draft.scalar?_mem hs))
    exact h.returning (hclosed.composed.aggregate hcompute hinput hr)
  | ensureNonEmpty _ =>
    refine ⟨?_, h.entries, h.keys, h.sources⟩
    simp only [Expr.everywhere, Expr.membersIn, Bool.true_and]
    exact h.shaper

/-- Operators do not look at the model. -/
theorem applyAll_withModel (env : Environment) (model : Model) (q : ShapedDraft) (ops : List Operator) :
    { env with model }.applyAll q ops = env.applyAll q ops := by
  have happly : ∀ q op, { env with model }.apply q op = env.apply q op := fun _ op => by cases op <;> rfl
  induction ops generalizing q with
  | nil => rfl
  | cons op rest ih =>
    unfold applyAll
    rw [happly]
    simp only [ih]

/-- Of the model, only the entity that a pipeline starts from matters. -/
theorem lower_withModel (env : Environment) {query : Query} {entity : EntityType}
    (hentity : env.model.findEntity? query.source = some entity) :
    { env with model := ⟨[entity]⟩ }.lower query = env.lower query := by
  have hname : (entity.name == query.source) = true := by simpa using List.find?_some hentity
  have hstart : { env with model := ⟨[entity]⟩ }.start query.source = env.start query.source := by
    have honly : Model.findEntity? ⟨[entity]⟩ query.source = some entity := by
      simp [Model.findEntity?, hname]
    unfold start
    rw [hentity, honly]
    rfl
  unfold lower
  rw [hstart]
  simp only [applyAll_withModel]

/-- The columns of the sources of all selects have names that differ in more than case. -/
theorem nests_namedAfter (hf : env.FunctionsKeep) {entity : EntityType}
    (hcolumns : ∀ p ∈ entity.properties, p.columnName ∈ names) (hc : "c" ∈ names)
    (hstems : StemsApart names) :
    { env with model := ⟨[entity]⟩ }.Nests (·.everywhere (·.membersIn names) = true) (·.NamedAfter names)
      (Scalar.AsksOnly fun s => ∀ inner ∈ s.sources, inner.NamesApart)
      fun s => ∀ inner ∈ s.sources, inner.NamesApart := by
  have hsources : ∀ {q : ShapedDraft} {s : Select}, q.NamedAfter names → s.tables = q.draft.tables →
      ∀ inner ∈ s.sources, inner.NamesApart := by
    intro q s hq htables inner hinner
    obtain ⟨aliasName, hsource⟩ := Select.mem_sources.1 hinner
    exact hq.sources inner aliasName (htables ▸ hsource)
  have hasked : ∀ d : Draft, d.asked.finish.tables = d.tables := by
    intro d
    unfold Draft.asked
    split <;> rfl
  have hkeep : FunctionsKeep { env with model := ⟨[entity]⟩ } := hf
  refine .ofQuestions (hf _ ((asksOnly_onReferences _).closed env.catalog)) (fun h => ?_)
    (fun hq hstep => hstep.namedAfter hkeep hc hstems hq) (fun hq => hsources hq rfl)
    fun hq => hsources hq (hasked _)
  -- the only entity of the model is the one with these columns
  rw [List.mem_singleton.1 (List.mem_of_find?_eq_some h)]
  exact startQuery_namedAfter hcolumns

end Environment

end Pipelines

/-- The columns of a subquery have names that differ in more than case, in all selects of a statement at any
depth: as long as this is so for the stems of the names they come from, which are those of the columns of the
entity, those of the members of shapes, and the name for all else. Functions must not bring in columns. -/
theorem subquery_names_differ_in_more_than_case (env : Environment) (hf : env.FunctionsKeep) (query : Query)
    (entity : EntityType) (hentity : env.model.findEntity? query.source = some entity) (names : List String)
    (hc : "c" ∈ names) (hcolumns : ∀ p ∈ entity.properties, p.columnName ∈ names)
    (hmembers : ∀ e ∈ query.bodies, e.everywhere (·.membersIn names) = true) (hstems : StemsApart names)
    (shaped : ShapedQuery) (h : env.lower query = .ok shaped) :
    ∀ s : Select, s.Within shaped.select → ∀ inner ∈ s.sources, ∃ aliases : List String,
      inner.projection.map (·.aliasName) = aliases.map some ∧ (aliases.map String.toLower).Nodup := by
  rw [← env.lower_withModel hentity] at h
  have hnests := Environment.nests_namedAfter hf hcolumns hc hstems
  obtain ⟨q, hq, hcarries, rfl⟩ := hnests.lower h hmembers
  intro s hs inner hinner
  rcases Select.within_iff.1 hs with rfl | hs
  · obtain ⟨aliasName, hsource⟩ := Select.mem_sources.1 hinner
    exact hq.sources inner aliasName hsource
  · exact hcarries.finish hnests s hs inner hinner

/-- The next number of a person under the name of the number, beside the person. -/
def Query.numberBesideWho : Query :=
  ⟨"Person",
    [.select ⟨"p", .shapeOf [
        ("id", .binary .add (.access (.param "p") "id") (.constant (.integer 1))), ("who", .param "p")]⟩,
      .take (.constant (.integer 1)),
      .filter ⟨"r", .binary .gt (.access (.param "r") "id") (.constant (.integer 0))⟩]⟩

/-- A member with the name of a column leaves the column a name with a number behind it. -/
theorem numberBesideWho_names_differ :
    ∃ shaped, (Compiler.new .persons .standard).environment.lower .numberBesideWho = .ok shaped ∧
      ∃ inner ∈ shaped.select.sources,
        inner.projection.map (·.aliasName) = [some "id", some "id0", some "name"] ∧
        ∃ aliases : List String, inner.projection.map (·.aliasName) = aliases.map some ∧
          (aliases.map String.toLower).Nodup := by
  obtain ⟨shaped, h, hcheck⟩ : ∃ shaped,
      (Compiler.new .persons .standard).environment.lower .numberBesideWho = .ok shaped ∧
        (shaped.select.sources.any fun inner =>
          decide (inner.projection.map (·.aliasName) = [some "id", some "id0", some "name"])) = true :=
    exists_of_any (by decide +kernel)
  obtain ⟨inner, hinner, haliases⟩ := List.any_eq_true.1 hcheck
  refine ⟨shaped, h, inner, hinner, of_decide_eq_true haliases, ?_⟩
  exact subquery_names_differ_in_more_than_case (Compiler.new .persons .standard).environment
    (fun _ hP => hP.ofDialect_keep _) .numberBesideWho (Model.persons.entities.headD (.plain "Person")) rfl
    ["c", "id", "name", "who"] (by decide) (by decide) (by decide +kernel) (by decide +kernel) shaped h _ .refl
    inner hinner

/-- The number of a person and the one after it, under names that only differ in case. -/
def Query.alikeNumbers : Query :=
  ⟨"Person",
    [.select ⟨"p", .shapeOf [
        ("next", .binary .add (.access (.param "p") "id") (.constant (.integer 1))),
        ("Next", .binary .add (.access (.param "p") "id") (.constant (.integer 2)))]⟩,
      .take (.constant (.integer 1)),
      .filter ⟨"r", .binary .gt (.access (.param "r") "next") (.constant (.integer 0))⟩]⟩

/-- Members whose names only differ in case become columns whose names do. -/
theorem alikeNumbers_names_alike :
    ∃ shaped, (Compiler.new .persons .standard).environment.lower .alikeNumbers = .ok shaped ∧
      ∃ inner ∈ shaped.select.sources,
        inner.projection.map (·.aliasName) = [some "next", some "Next"] ∧
        "next".toLower = "Next".toLower := by
  obtain ⟨shaped, h, hcheck⟩ : ∃ shaped,
      (Compiler.new .persons .standard).environment.lower .alikeNumbers = .ok shaped ∧
        (shaped.select.sources.any fun inner =>
          decide (inner.projection.map (·.aliasName) = [some "next", some "Next"])) = true :=
    exists_of_any (by decide +kernel)
  obtain ⟨inner, hinner, haliases⟩ := List.any_eq_true.1 hcheck
  have hlower : "next".toLower = "Next".toLower := by
    rw [← String.toList_inj, toList_toLower, toList_toLower]
    decide +kernel
  exact ⟨shaped, h, inner, hinner, of_decide_eq_true haliases, hlower⟩

end QueryPipeline
