import QueryPipeline.Compiler.Basic
import QueryPipeline.Proofs.Steps
import QueryPipeline.Proofs.Subexpressions

/-!
# Properties that scalars keep

Bodies become scalars by a few ways to put scalars together, and so do the functions that are built in. A
property that is closed under these ways holds of every scalar that a body becomes, as soon as it holds of
the scalars of the draft.
-/

set_option autoImplicit false

namespace QueryPipeline

open Sql

/-- A property that scalars keep when they are put together. -/
structure Closed (catalog : Catalog) (P : Scalar → Prop) : Prop where
  constant (value : Literal) : P (.constant value value.type)
  null (type : DataType) : P (.constant .null type)
  parameter (name : String) (type : DataType) : P (.parameter name type)
  fragment (sql : String) (type : DataType) : P (.fragment sql type)
  int (i : Int64) : P (catalog.int i)
  withMapping {s : Scalar} (m : TypeMapping) (h : P s) : P (s.withMapping m)
  resolve {s : Scalar} (h : P s) : P (catalog.resolve s)
  inContext {s : Scalar} (asValue : Bool) (h : P s) : P (s.inContext asValue)
  asPredicate {s : Scalar} (h : P s) : P s.asPredicate
  retype {s : Scalar} {type : DataType} (hkind : s.type.kind = type.kind) (h : P s) :
    P { s with type }
  binary (op : ScalarOp) {left right : Scalar} (hl : P left) (hr : P right) :
    P (catalog.binary op left right)
  not {s : Scalar} (h : P s) : P (catalog.not s)
  isNull {s : Scalar} (negated : Bool) (h : P s) : P (catalog.isNull s negated)
  negated {s : Scalar} (h : P s) : P s.negated
  case {test ifTrue ifFalse : Scalar} (ht : P test) (hl : P ifTrue) (hr : P ifFalse) :
    P (catalog.case (test, ifTrue) [] (some ifFalse))
  function (name : String) {args : List Scalar} (type : DataType) (mapping : Option TypeMapping)
    (h : ∀ a ∈ args, P a) : P (catalog.functionWith name none args type mapping)
  like {subject pattern : Scalar} {escape : Option Scalar} (hs : P subject) (hp : P pattern)
    (he : ∀ e ∈ escape, P e) : P (catalog.like subject pattern escape)
  castTo {s : Scalar} (type : DataType) (m : TypeMapping) (h : P s) :
    P ((catalog.resolve s).castTo type m)
  withoutCast {s : Scalar} (h : P s) : P s.withoutCast

/-- The function is a full-text search. -/
def isSearch (name : String) : Bool := (fullTextPredicates.map Prod.snd).contains name

/-- The name of a function other than a full-text search. -/
def isFunctionName (name : String) : Bool := isPlainWord name && !isSearch name

/-- What functions write as it is: the name of a part of dates, a type of texts of some length, or a
language. -/
inductive IsTerm : String → Prop
  | datePart {name : String} (h : name ∈ datePartNames) : IsTerm name
  | textType (length : Nat) : IsTerm ("VARCHAR(" ++ toString length ++ ")")
  | language (i : Int) : IsTerm ("LANGUAGE " ++ toString i)

/-- A mapping is that of a kind of values or of a scalar with `P`. -/
inductive Sql.Catalog.Supplies (catalog : Catalog) (P : Scalar → Prop) (m : TypeMapping) : Prop
  | kind {kind : DataKind} (h : catalog.mapping? kind = some m) : Supplies catalog P m
  | scalar {s : Scalar} (hs : P s) (h : s.mapping = some m) : Supplies catalog P m

/-- A property `P` that scalars keep when they are put together as bodies and functions do it. Only scalars
with `T` are matched with a pattern, and only the full-text functions become predicates. -/
structure Composed (catalog : Catalog) (P T : Scalar → Prop) : Prop where
  text (s : String) : P (.text s)
  fragment {sql : String} (hsql : IsTerm sql) (type : DataType) : P (.fragment sql type)
  int (i : Int64) : P (catalog.int i)
  withMapping {s : Scalar} {m : TypeMapping} (hm : catalog.Supplies P m) (h : P s) : P (s.withMapping m)
  resolve {s : Scalar} (h : P s) : P (catalog.resolve s)
  retype {s : Scalar} {type : DataType} (hkind : s.type.kind = type.kind) (h : P s) :
    P { s with type }
  binary (op : ScalarOp) {left right : Scalar} (hl : P left) (hr : P right) :
    P (catalog.binary op left right)
  not {s : Scalar} (h : P s) : P (catalog.not s)
  isNull {s : Scalar} (negated : Bool) (h : P s) : P (catalog.isNull s negated)
  negated {s : Scalar} (h : P s) : P s.negated
  case {test ifTrue ifFalse : Scalar} (ht : P test) (hl : P ifTrue) (hr : P ifFalse) :
    P (catalog.case (test, ifTrue) [] (some ifFalse))
  function {name : String} {args : List Scalar} {mapping : Option TypeMapping}
    (hname : isFunctionName name = true) (type : DataType) (hm : ∀ m ∈ mapping, catalog.Supplies P m)
    (h : ∀ a ∈ args, P a) : P (catalog.functionWith name none args type mapping)
  search {name : String} {args : List Scalar} (hname : isSearch name = true)
    (h : ∀ a ∈ args, P a) :
    P (catalog.functionWith name none args .bool catalog.boolMapping?).asPredicate
  like {subject pattern : Scalar} {escape : Option Scalar} (hs : P subject) (hst : T subject)
    (hp : P pattern) (hpt : T pattern) (he : ∀ e ∈ escape, P e ∧ T e) :
    P (catalog.like subject pattern escape)
  castTo {s : Scalar} {type : DataType} {m : TypeMapping} (hm : catalog.mapping? type.kind = some m)
    (h : P s) : P ((catalog.resolve s).castTo type m)
  withoutCast {s : Scalar} (h : P s) : P s.withoutCast
  matchable_text (s : String) : T (.text s)
  matchable_add (left right : Scalar) : T (catalog.add left right)
  matchable_withMapping {s : Scalar} (m : TypeMapping) (h : T s) : T (s.withMapping m)
  matchable_resolve {s : Scalar} (h : T s) : T (catalog.resolve s)

/-- A function has a closed property when its arguments have it. -/
theorem Closed.ofArgs {catalog : Catalog} {P : Scalar → Prop} (hP : Closed catalog P) (name : String)
    {args : List Scalar} (type : DataType) (h : ∀ a ∈ args, P a) : P (catalog.function name args type) :=
  hP.function _ _ _ h

/-- A property that scalars keep however they are put together. -/
theorem Closed.composed {catalog : Catalog} {P : Scalar → Prop} (hP : Closed catalog P) :
    Composed catalog P fun _ => True where
  text s := hP.constant (.text s)
  fragment _ := hP.fragment _
  int := hP.int
  withMapping _ := hP.withMapping _
  resolve := hP.resolve
  retype := hP.retype
  binary := hP.binary
  not := hP.not
  isNull := hP.isNull
  negated := hP.negated
  case := hP.case
  function _ type _ h := hP.function _ type _ h
  search _ h := hP.asPredicate (hP.function _ _ _ h)
  like hs _ hp _ he := hP.like hs hp fun e hescape => (he e hescape).1
  castTo _ := hP.castTo _ _
  withoutCast := hP.withoutCast
  matchable_text _ := trivial
  matchable_add _ _ := trivial
  matchable_withMapping _ _ := trivial
  matchable_resolve _ := trivial

/-- A provider answers with scalars that have a property when it is asked with such scalars. -/
structure FunctionProvider.Keeps (catalog : Catalog) (P : Scalar → Prop) (p : FunctionProvider) :
    Prop where
  method {receiver : Option Scalar} {name : QualifiedName} {args : List Scalar} {s : Scalar}
    (hr : ∀ r ∈ receiver, P r) (ha : ∀ a ∈ args, P a)
    (h : p.method catalog receiver name args = .ok (some s)) : P s
  member {receiver : Option Scalar} {name : QualifiedName} {s : Scalar} (hr : ∀ r ∈ receiver, P r)
    (h : p.member catalog receiver name = .ok (some s)) : P s

/-- A provider answers with scalars that have a property `P` when it is asked with such scalars, and the
value that a method of texts belongs to has `T`. -/
structure FunctionProvider.KeepsFor (catalog : Catalog) (P T : Scalar → Prop) (p : FunctionProvider) :
    Prop where
  method {receiver : Option Scalar} {name : QualifiedName} {args : List Scalar} {s : Scalar}
    (hr : ∀ r ∈ receiver, P r) (ht : name.owner? = some DataKind.text.owner → ∀ r ∈ receiver, T r)
    (ha : ∀ a ∈ args, P a) (h : p.method catalog receiver name args = .ok (some s)) : P s
  member {receiver : Option Scalar} {name : QualifiedName} {s : Scalar} (hr : ∀ r ∈ receiver, P r)
    (h : p.member catalog receiver name = .ok (some s)) : P s

/-- Where every value may be matched with a pattern, what a provider keeps is kept without further conditions. -/
theorem FunctionProvider.keepsFor_true {catalog : Catalog} {P : Scalar → Prop} {p : FunctionProvider} :
    p.KeepsFor catalog P (fun _ => True) ↔ p.Keeps catalog P :=
  ⟨fun h => ⟨fun hr ha => h.method hr (fun _ _ _ => trivial) ha, h.member⟩,
    fun h => ⟨fun hr _ ha => h.method hr ha, h.member⟩⟩

/-- The first answer is the answer of one of the providers. -/
theorem firstAnswer_eq_some {ask : FunctionProvider → Answer} {providers : List FunctionProvider}
    {s : Scalar} (h : firstAnswer ask providers = .ok (some s)) :
    ∃ p ∈ providers, ask p = .ok (some s) := by
  induction providers with
  | nil => cases h
  | cons p rest ih =>
    rw [firstAnswer_cons] at h
    split at h
    · obtain ⟨p', hmem, hp'⟩ := ih h
      exact ⟨p', List.mem_cons_of_mem _ hmem, hp'⟩
    · exact ⟨p, List.mem_cons_self, h⟩

namespace Composed

variable {catalog : Catalog} {P T : Scalar → Prop} (hP : Composed catalog P T)

include hP

omit hP in
/-- A mapping that is known among scalars with `P` is the one of a scalar with `P`. -/
theorem supplies_known {ss : List Scalar} (h : ∀ s ∈ ss, P s) :
    ∀ m ∈ knownMapping? ss, catalog.Supplies P m := by
  intro m hm
  obtain ⟨s, hs, hm⟩ := List.exists_of_findSome?_eq_some hm
  exact .scalar (h s hs) hm

/-- A scalar that gets a mapping from elsewhere or from the catalog keeps the property. -/
theorem resolveFrom {known : Option TypeMapping} (hknown : ∀ m ∈ known, catalog.Supplies P m)
    {s : Scalar} (h : P s) : P (catalog.resolveFrom known s) := by
  unfold Catalog.resolveFrom
  split
  · exact hP.withMapping (hknown _ rfl) h
  · exact hP.resolve h

/-- Two scalars share the mapping that is known of them. -/
theorem resolveFrom_pair {left right : Scalar} (hl : P left) (hr : P right) :
    P (catalog.resolveFrom (knownMapping? [left, right]) left) ∧
      P (catalog.resolveFrom (knownMapping? [left, right]) right) := by
  have hknown : ∀ m ∈ knownMapping? [left, right], catalog.Supplies P m :=
    supplies_known (List.forall_mem_cons.2 ⟨hl, List.forall_mem_singleton.2 hr⟩)
  exact ⟨hP.resolveFrom hknown hl, hP.resolveFrom hknown hr⟩

/-- A scalar that gets a mapping may be matched with a pattern as before. -/
theorem matchable_resolveFrom (known : Option TypeMapping) {s : Scalar} (h : T s) :
    T (catalog.resolveFrom known s) := by
  unfold Catalog.resolveFrom
  split
  · exact hP.matchable_withMapping _ h
  · exact hP.matchable_resolve h

/-- Scalars that share a mapping keep the property. -/
theorem unify {ss : List Scalar} (h : ∀ s ∈ ss, P s) : ∀ s ∈ catalog.unify ss, P s := by
  intro s hs
  obtain ⟨s', hs', rfl⟩ := List.mem_map.1 hs
  exact hP.resolveFrom (supplies_known h) (h s' hs')

/-- A conjunction has the property when both operands have it. -/
theorem and {left right : Scalar} (hl : P left) (hr : P right) : P (catalog.and left right) :=
  hP.binary _ hl hr

/-- A disjunction has the property when both operands have it. -/
theorem or {left right : Scalar} (hl : P left) (hr : P right) : P (catalog.or left right) :=
  hP.binary _ hl hr

/-- An equation has the property when both sides have it. -/
theorem equal {left right : Scalar} (hl : P left) (hr : P right) : P (catalog.equal left right) :=
  hP.binary _ hl hr

/-- A sum has the property when both operands have it. -/
theorem add {left right : Scalar} (hl : P left) (hr : P right) : P (catalog.add left right) :=
  hP.binary _ hl hr

/-- A difference has the property when both operands have it. -/
theorem subtract {left right : Scalar} (hl : P left) (hr : P right) :
    P (catalog.subtract left right) :=
  hP.binary _ hl hr

/-- A function has the property when its arguments have it. -/
theorem ofArgs {name : String} (hname : isFunctionName name = true) {args : List Scalar} (type : DataType)
    (h : ∀ a ∈ args, P a) : P (catalog.function name args type) :=
  hP.function hname _ (fun _ => .kind) h

/-- A function of the type of its first argument has the property when its arguments have it. -/
theorem sameType {name : String} (hname : isFunctionName name = true) {first : Scalar}
    {others : List Scalar} (hf : P first) (ho : ∀ a ∈ others, P a) :
    P (catalog.sameTypeFunction name first others) :=
  hP.function hname _ (fun _ => .scalar (hP.resolve hf)) (List.forall_mem_cons.2 ⟨hf, ho⟩)

/-- A cast has the property when its operand has it. -/
theorem cast? {s s' : Scalar} {type : DataType} (h : P s) (hs : catalog.cast? s type = some s') :
    P s' := by
  obtain ⟨m, hm, rfl⟩ := Option.map_eq_some_iff.1 hs
  exact hP.castTo hm h

omit hP in
/-- A provider that answers with a scalar knows no other one. -/
theorem given {s s' : Scalar} (h : Answer.given s = .ok (some s')) (hs : P s) : P s' := by
  cases h
  exact hs

/-- The test for an empty text has the property when the text has it. -/
theorem positions_isEmpty {s : Scalar} (h : P s) : P (Positions.isEmpty catalog s) :=
  hP.equal h (hP.text _)

/-- The length of a text has the property when the text has it. -/
theorem positions_length {s : Scalar} (h : P s) : P (Positions.length catalog s) :=
  hP.ofArgs (by decide) _ (by simpa using h)

/-- The position of a text in another one has the property when both texts have it. -/
theorem positions_position {subject sought : Scalar} (hs : P subject) (hp : P sought) :
    P (Positions.position catalog subject sought) :=
  hP.ofArgs (by decide) _ (by simpa using ⟨hs, hp⟩)

/-- The position counted from zero has the property when both texts have it. -/
theorem positions_indexOf {subject sought : Scalar} (hs : P subject) (hp : P sought) :
    P (Positions.indexOf catalog subject sought) := by
  obtain ⟨hs, hp⟩ := hP.resolveFrom_pair hs hp
  exact hP.subtract (hP.positions_position hs hp) (hP.int 1)

/-- The test whether a text is contained in another one has the property when both have it. -/
theorem positions_contains {subject sought : Scalar} (hs : P subject) (hp : P sought) :
    P (Positions.contains catalog subject sought) := by
  obtain ⟨hs, hp⟩ := hP.resolveFrom_pair hs hp
  exact hP.or (hP.positions_isEmpty hp) (hP.binary _ (hP.positions_position hs hp) (hP.int 0))

/-- The test for the beginning of a text has the property when both texts have it. -/
theorem positions_startsWith {subject sought : Scalar} (hs : P subject) (ht : T subject)
    (hp : P sought) : P (Positions.startsWith catalog subject sought) := by
  have ht := hP.matchable_resolveFrom (knownMapping? [subject, sought]) ht
  obtain ⟨hs, hp⟩ := hP.resolveFrom_pair hs hp
  have hescape : ∀ e ∈ (none : Option Scalar), P e ∧ T e := nofun
  have hlike := hP.like hs ht (hP.add hp (hP.text "%")) (hP.matchable_add _ _) hescape
  have hbeginning := hP.sameType (show isFunctionName "substr" = true by decide) hs
    (List.forall_mem_cons.2 ⟨hP.int 1, List.forall_mem_singleton.2 (hP.positions_length hp)⟩)
  exact hP.or (hP.positions_isEmpty hp) (hP.and hlike (hP.equal hbeginning hp))

/-- The test for the end of a text has the property when both texts have it. -/
theorem positions_endsWith {subject sought : Scalar} (hs : P subject) (hp : P sought) :
    P (Positions.endsWith catalog subject sought) := by
  obtain ⟨hs, hp⟩ := hP.resolveFrom_pair hs hp
  have hending := hP.sameType (show isFunctionName "substr" = true by decide) hs
    (List.forall_mem_singleton.2 (hP.negated (hP.positions_length hp)))
  exact hP.or (hP.positions_isEmpty hp) (hP.equal hending hp)

/-- A part of a text has the property when the text, the start and the count have it. -/
theorem positions_substring {subject start count : Scalar} (hs : P subject) (hstart : P start)
    (hc : P count) : P (Positions.substring catalog subject start count) :=
  hP.sameType (by decide) hs (by simpa using ⟨hP.add hstart (hP.int 1), hc⟩)

/-- A replacement in a text has the property when all three texts have it. -/
theorem positions_replace {subject old new : Scalar} (hs : P subject) (ho : P old) (hn : P new) :
    P (Positions.replace catalog subject old new) := by
  have hunified := hP.unify (List.forall_mem_cons.2
    ⟨hs, List.forall_mem_cons.2 ⟨ho, List.forall_mem_singleton.2 hn⟩⟩)
  obtain ⟨hs, hothers⟩ := List.forall_mem_cons.1 hunified
  exact hP.sameType (by decide) hs hothers

/-- The test for a text without letters has the property when the text has it. -/
theorem positions_isNullOrBlank {s : Scalar} (h : P s) : P (Positions.isNullOrBlank catalog s) :=
  hP.or (hP.isNull _ h) (hP.positions_isEmpty (hP.sameType (by decide) h (List.forall_mem_nil _)))

/-- A text that is trimmed has the property when the text has it. -/
theorem positions_trim {function : String} (hname : isFunctionName function = true)
    {subject s : Scalar} {args : List Scalar}
    (hs : P subject) (h : Positions.trim catalog function subject args = .ok (some s)) : P s := by
  unfold Positions.trim at h
  split at h
  · exact given h (hP.sameType hname hs (List.forall_mem_nil _))
  · rename_i hmapping
    split at h
    · exact given h (hP.sameType hname hs (List.forall_mem_nil _))
    · rename_i cs _ _
      have hchars := hP.withMapping (.scalar hs hmapping) (hP.text (String.ofList cs))
      exact given h (hP.sameType hname hs (List.forall_mem_singleton.2 hchars))
    · cases h
  · cases h

/-- The functions on texts of a database without patterns of its own keep the property. -/
theorem positionTextFunctions_keeps : positionTextFunctions.KeepsFor catalog P T := by
  constructor
  · intro receiver name args s hr ht ha h
    simp only [positionTextFunctions] at h
    split at h
    · cases h
    · rename_i howner
      have howner : name.owner? = some "string" := by simpa using howner
      split at h
      · split at h
        · exact given h (hP.positions_isNullOrBlank (ha _ (by simp)))
        · cases h
      · rename_i subject
        have hs := hr subject rfl
        split at h
        · exact given h (hP.positions_indexOf hs (ha _ (by simp)))
        · exact given h (hP.positions_replace hs (ha _ (by simp)) (ha _ (by simp)))
        · exact given h (hP.sameType (by decide) hs (List.forall_mem_nil _))
        · exact given h (hP.sameType (by decide) hs (List.forall_mem_nil _))
        · exact given h (hP.positions_substring hs (ha _ (by simp)) (ha _ (by simp)))
        · exact hP.positions_trim (by decide) hs h
        · exact hP.positions_trim (by decide) hs h
        · exact hP.positions_trim (by decide) hs h
        · exact given h (hP.positions_contains hs (ha _ (by simp)))
        · exact given h (hP.positions_startsWith hs (ht howner subject rfl) (ha _ (by simp)))
        · exact given h (hP.positions_endsWith hs (ha _ (by simp)))
        · cases h
  · intro receiver name s hr h
    simp only [positionTextFunctions] at h
    split at h
    · split at h
      · exact given h (hP.ofArgs (by decide) _ (by simpa using hr _ rfl))
      · cases h
    · cases h

/-- A search for a text that is known beforehand has the property when the subject has it. -/
theorem likeConstant_keeps {subject pattern s : Scalar} {occurrence : Occurrence} (hs : P subject)
    (ht : T subject) (h : likeConstant catalog subject pattern occurrence = .ok (some s)) : P s := by
  unfold likeConstant at h
  split at h
  · refine given h (hP.like hs ht (hP.text _) (hP.matchable_text _) ?_)
    split
    · rintro _ ⟨⟩
      exact ⟨hP.text _, hP.matchable_text _⟩
    · nofun
  · cases h

/-- The functions on texts that match patterns keep the property. -/
theorem patternTextFunctions_keeps {lengthFunction : String}
    (hname : isFunctionName lengthFunction = true) :
    (patternTextFunctions lengthFunction).KeepsFor catalog P T := by
  constructor
  · intro receiver name args s hr ht ha h
    simp only [patternTextFunctions] at h
    split at h
    · rename_i subject howner
      have hs := hr subject rfl
      have ht := ht howner subject rfl
      split at h
      · exact given h (hP.sameType (by decide) hs (List.forall_mem_nil _))
      · exact given h (hP.sameType (by decide) hs (List.forall_mem_nil _))
      · split at h
        · rename_i old new _ _ first others hunify
          have hall : ∀ s ∈ [subject, old, new], P s := List.forall_mem_cons.2 ⟨hs, ha⟩
          have hunified := hP.unify hall
          rw [hunify] at hunified
          obtain ⟨hfirst, hothers⟩ := List.forall_mem_cons.1 hunified
          exact given h (hP.sameType (by decide) hfirst hothers)
        · cases h
      · exact hP.likeConstant_keeps hs ht h
      · exact hP.likeConstant_keeps hs ht h
      · exact hP.likeConstant_keeps hs ht h
      · cases h
    · cases h
  · intro receiver name s hr h
    simp only [patternTextFunctions] at h
    split at h
    · split at h
      · exact given h (hP.ofArgs hname _ (by simpa using hr _ rfl))
      · cases h
    · cases h

/-- Conversions keep the property. -/
theorem conversionMethods_keeps : conversionMethods.KeepsFor catalog P T := by
  constructor
  · intro receiver name args s hr _ _ h
    simp only [conversionMethods, FunctionProvider.ofMethod] at h
    split at h
    · rename_i value _ _
      have hvalue := hP.resolve (hr value rfl)
      split at h
      · cases h
      · split at h
        · rename_i length _
          have hterm := hP.fragment (.textType length) .text
          exact given h (hP.function (by decide) _ (fun _ => .kind) (by simpa using ⟨hterm, hvalue⟩))
        · cases h
    · cases h
  · intro receiver name s _ h
    cases h

/-- A full-text search has the property when what is searched and what is sought have it. -/
theorem fullTextSearch_keeps {function : String} (hname : isSearch function = true)
    {name : QualifiedName} {property sought s : Scalar} {language : Option Scalar}
    (hproperty : P property) (hsought : P sought)
    (h : fullTextSearch catalog function name property sought language = .ok (some s)) : P s := by
  have hsearch : ∀ terms : List Scalar, (∀ t ∈ terms, P t) →
      P (catalog.functionWith function none
        (property :: catalog.resolveFrom property.mapping sought :: terms) .bool
        catalog.boolMapping?).asPredicate := by
    intro terms hterms
    refine hP.search hname ?_
    have hsought := hP.resolveFrom (fun _ => .scalar hproperty) hsought
    exact List.forall_mem_cons.2 ⟨hproperty, List.forall_mem_cons.2 ⟨hsought, hterms⟩⟩
  unfold fullTextSearch at h
  split at h
  · cases h
  · split at h
    · exact given h (hsearch [] (List.forall_mem_nil _))
    · split at h
      · rename_i term hterm
        refine given h (hsearch [term] (List.forall_mem_singleton.2 ?_))
        unfold languageTerm? at hterm
        split at hterm <;> cases hterm
        exact hP.fragment (.language _) _
      · cases h

omit hP in
/-- The functions behind the methods for full-text search are searches. -/
theorem isSearch_of_lookup {name function : String}
    (h : fullTextPredicates.lookup name = some function) : isSearch function = true := by
  obtain ⟨before, after, hall, -⟩ := List.lookup_eq_some_iff.1 h
  simp [isSearch, hall]

/-- The methods for full-text search keep the property. -/
theorem fullTextMethods_keeps : fullTextMethods.KeepsFor catalog P T := by
  constructor
  · intro receiver name args s _ _ ha h
    simp only [fullTextMethods, FunctionProvider.ofMethod] at h
    split at h
    · cases h
    · split at h
      · exact hP.fullTextSearch_keeps (isSearch_of_lookup ‹_›) (ha _ (by simp)) (ha _ (by simp)) h
      · exact hP.fullTextSearch_keeps (isSearch_of_lookup ‹_›) (ha _ (by simp)) (ha _ (by simp)) h
      · cases h
  · intro receiver name s _ h
    cases h

/-- The parts of a date keep the property. -/
theorem datePartMembers_keeps : datePartMembers.KeepsFor catalog P T := by
  constructor
  · intro receiver name args s _ _ _ h
    cases h
  · intro receiver name s hr h
    simp only [datePartMembers, FunctionProvider.ofMember] at h
    split at h
    · cases h
    · split at h
      · split at h
        · exact given h (hP.ofArgs (by decide) _ (List.forall_mem_nil _))
        · exact given h (hP.ofArgs (by decide) _ (List.forall_mem_nil _))
        · cases h
      · rename_i date
        split at h
        · rename_i hname
          have hterm := hP.fragment (.datePart (List.contains_iff_mem.1 hname)) .text
          exact given h (hP.ofArgs (by decide) _ (by simpa using ⟨hterm, hr date rfl⟩))
        · cases h

/-- The text of the present time has the property. -/
theorem formattedNow (modifiers : List String) : P (formattedNow catalog modifiers) := by
  refine hP.ofArgs (by decide) _ (List.forall_mem_cons.2 ⟨hP.text _, ?_⟩)
  intro s hs
  obtain ⟨m, -, rfl⟩ := List.mem_map.1 hs
  exact hP.text m

/-- The parts of a date that are cut out of its text keep the property. -/
theorem formattedDateMembers_keeps : formattedDateMembers.KeepsFor catalog P T := by
  constructor
  · intro receiver name args s _ _ _ h
    cases h
  · intro receiver name s hr h
    simp only [formattedDateMembers, FunctionProvider.ofMember] at h
    split at h
    · cases h
    · split at h
      · split at h
        · exact given h (hP.formattedNow _)
        · exact given h (hP.formattedNow _)
        · cases h
      · rename_i date
        split at h
        · exact hP.cast? (hP.ofArgs (by decide) _ (by simpa using ⟨hP.text _, hr date rfl⟩)) (Except.ok.inj h)
        · cases h

/-- The methods of geometries keep the property. -/
theorem collectionMethods_keeps : collectionMethods.KeepsFor catalog P T := by
  constructor
  · intro receiver name args s hr _ ha h
    simp only [collectionMethods, FunctionProvider.ofMethod] at h
    split at h
    · rename_i collection index _
      split at h
      · have hindex := hP.add (ha index (by simp)) (hP.int 1)
        exact given h (hP.ofArgs (by decide) _ (by simpa using ⟨hr collection rfl, hindex⟩))
      · cases h
    · cases h
  · intro receiver name s _ h
    cases h

/-- The members of lines keep the property. -/
theorem lineMembers_keeps : lineMembers.KeepsFor catalog P T := by
  constructor
  · intro receiver name args s _ _ _ h
    cases h
  · intro receiver name s hr h
    simp only [lineMembers, FunctionProvider.ofMember] at h
    split at h
    · rename_i line
      split at h
      · exact given h (hP.ofArgs (by decide) _ (by simpa using hP.withoutCast (hr line rfl)))
      · cases h
    · cases h

/-- The functions that dialects have built in keep such a property. -/
theorem builtIn_keeps (dialect : Dialect) :
    ∀ p ∈ builtInProviders dialect, p.KeepsFor catalog P T := by
  have hpattern {name : String} (hname : isFunctionName name = true) :=
    hP.patternTextFunctions_keeps hname
  cases dialect with
  | generic => simpa [builtInProviders] using @hpattern "CHAR_LENGTH" (by decide)
  | postgres => simpa [builtInProviders] using @hpattern "LENGTH" (by decide)
  | msSql =>
    simpa [builtInProviders] using ⟨@hpattern "LEN" (by decide), hP.conversionMethods_keeps,
      hP.fullTextMethods_keeps, hP.datePartMembers_keeps⟩
  | sqlite =>
    simpa [builtInProviders] using ⟨hP.positionTextFunctions_keeps, hP.formattedDateMembers_keeps,
      hP.collectionMethods_keeps, hP.lineMembers_keeps⟩

end Composed

/-- All functions of a registry keep a property. -/
def FunctionRegistry.Keep (r : FunctionRegistry) (catalog : Catalog) (P : Scalar → Prop) : Prop :=
  ∀ p ∈ r.providers, p.Keeps catalog P

/-- All functions of a registry keep a property if the texts that methods belong to have another one. -/
def FunctionRegistry.KeepFor (r : FunctionRegistry) (catalog : Catalog) (P T : Scalar → Prop) : Prop :=
  ∀ p ∈ r.providers, p.KeepsFor catalog P T

/-- The functions of a dialect keep a property that scalars keep when they are put together. -/
theorem Composed.ofDialect_keep {catalog : Catalog} {P T : Scalar → Prop} (hP : Composed catalog P T)
    (dialect : Dialect) : (FunctionRegistry.ofDialect dialect).KeepFor catalog P T :=
  hP.builtIn_keeps dialect

/-- The functions of a dialect keep a closed property. -/
theorem Closed.ofDialect_keep {catalog : Catalog} {P : Scalar → Prop} (hP : Closed catalog P)
    (dialect : Dialect) : (FunctionRegistry.ofDialect dialect).Keep catalog P :=
  fun p hp => FunctionProvider.keepsFor_true.1 (hP.composed.ofDialect_keep dialect p hp)

/-- Every member of a list has a partner in a list of the same length. -/
theorem exists_mem_zip {α β : Type} {as : List α} {bs : List β} (hlen : as.length = bs.length)
    {b : β} (hb : b ∈ bs) : ∃ a, (a, b) ∈ as.zip bs := by
  obtain ⟨i, hi, rfl⟩ := List.mem_iff_getElem.1 hb
  refine ⟨as[i], List.mem_iff_getElem.2 ⟨i, by simpa [hlen] using hi, by simp⟩⟩

section Scope

variable {scope : Scope} {P : Scalar → Prop}

/-- What a path of a shape leads to has scalars of the shape only. -/
theorem Sql.mem_scalars_of_lookup {shape : Shape} {path : MemberPath} {projected : Projected}
    (h : shape.lookup path = some projected) {s : Scalar} (hs : s ∈ projected.scalars) :
    s ∈ shape.scalars := by
  obtain ⟨l, r, rfl, -⟩ := List.lookup_eq_some_iff.1 h
  simp [Shape.scalars, hs]

/-- The scalar at a path is one of the scalars of the shape. -/
theorem Sql.Draft.scalar?_mem {d : Draft} {path : MemberPath} {s : Scalar}
    (h : d.scalar? path = some s) : s ∈ d.shape.scalars := by
  unfold Draft.scalar? at h
  split at h
  · rename_i s' hs'
    cases h
    exact mem_scalars_of_lookup hs' (by simp [Projected.scalars])
  · cases h

/-- The column of a property is one of the scalars of the shape. -/
theorem Sql.Draft.property?_mem {d : Draft} {path : MemberPath} {property : String} {s : Scalar}
    (h : d.property? path property = some s) : s ∈ d.shape.scalars := by
  unfold Draft.property? at h
  split at h
  · rename_i e he
    obtain ⟨l, r, hcolumns, -⟩ := List.lookup_eq_some_iff.1 h
    exact mem_scalars_of_lookup he (by simp [Projected.scalars, hcolumns])
  · cases h

/-- Expressions that `keep` admits become scalars with `P` where they have no parts, and a method that they
find for texts belongs to a value with `T`. -/
structure Expr.Leaves (P T : Scalar → Prop) (keep : Expr → Bool) : Prop where
  constant {value : Literal} (h : keep (.constant value) = true) : P (.constant value value.type)
  null (type : DataType) : P (.constant .null type)
  parameter {name : String} {type : DataType} (h : keep (.parameter name type) = true) :
    P (.parameter name type)
  receiver {value : Scalar} {e : Expr} {name : QualifiedName} {args : List Expr} (hvalue : P value)
    (h : keep (.call (some e) name args) = true)
    (howner : (qualify name (some value)).owner? = some DataKind.text.owner) : T value

/-- What has to be known of each rule by which bodies become scalars, so that `R` relates each body whose parts are
all kept to the scalar that it becomes. -/
structure Lowered.Rules (scope : Scope) (keep : Expr → Bool) (R : Expr → Scalar → Prop) : Prop where
  constant {value : Literal} (hkeep : keep (.constant value) = true) :
    R (.constant value) (.constant value value.type)
  null {type : DataType} (h : type.nullable = true) : R (.constant .null) (.constant .null type)
  parameter {name : String} {type : DataType} (hkeep : keep (.parameter name type) = true) :
    R (.parameter name type) (.parameter name type)
  draft (e : Expr) {s : Scalar} (h : s ∈ scope.draft.shape.scalars) : R e s
  shapeMember {receiver : Expr} {name : QualifiedName} {members : List ShapeMember} {m : ShapeMember}
    {s : Scalar} (hr : receiver.reduceMembers = .shape members)
    (hm : findMember? members name.name = some m) (h : R m.expr s) : R (.member (some receiver) name) s
  member {receiver : Option Expr} {name : QualifiedName} {value : Option Scalar} {s : Scalar}
    {p : FunctionProvider} (hp : p ∈ scope.functions.providers)
    (hkeep : keep (.member receiver name) = true) (hr : ∀ v ∈ value, ∃ e ∈ receiver, R e v)
    (h : p.member scope.catalog value (qualify name value) = .ok (some s)) : R (.member receiver name) s
  isNull {op : BinaryOp} {left right operand : Expr} {s : Scalar} (h : R operand s) :
    R (.binary op left right) (scope.catalog.isNull s (op = .ne))
  binary {op : BinaryOp} {scalarOp : ScalarOp} {left right : Expr} {l r : Scalar}
    (hkeep : keep (.binary op left right) = true)
    (hnull : ¬((op = .eq ∨ op = .ne) ∧ (left.isNull != right.isNull) = true))
    (hop : ScalarOp.ofBinaryOp? op = some scalarOp) (hl : R left l) (hr : R right r) :
    R (.binary op left right) (scope.catalog.binary scalarOp l r)
  not {operand : Expr} {s : Scalar} (h : R operand s) : R (.unary .not operand) (scope.catalog.not s)
  negate {operand : Expr} {s : Scalar} (h : R operand s) : R (.unary .negate operand) s.negated
  method {receiver : Option Expr} {name : QualifiedName} {args : List Expr} {value : Option Scalar}
    {ss : List Scalar} {s : Scalar} {p : FunctionProvider} (hp : p ∈ scope.functions.providers)
    (hkeep : keep (.call receiver name args) = true) (hr : ∀ v ∈ value, ∃ e ∈ receiver, R e v)
    (hargs : ∀ a ∈ ss, ∃ e ∈ args, R e a)
    (h : p.method scope.catalog value (qualify name value) ss = .ok (some s)) :
    R (.call receiver name args) s
  conditional {test ifTrue ifFalse : Expr} {t l r : Scalar} (ht : R test t) (hl : R ifTrue l)
    (hr : R ifFalse r) : R (.conditional test ifTrue ifFalse) (scope.catalog.case (t, l) [] (some r))
  convert {operand : Expr} {type : DataType} {value s : Scalar}
    (hkeep : keep (.convert operand type) = true) (ho : R operand value)
    (h : convertScalar scope.catalog value type = some s) : R (.convert operand type) s

/-- A body whose parts are all kept is related to the scalar that it becomes. -/
theorem Lowered.ofRules {keep : Expr → Bool} {R : Expr → Scalar → Prop} (hR : Lowered.Rules scope keep R)
    {e : Expr} {s : Scalar} (h : Lowered scope e s) (he : e.everywhere keep = true) : R e s := by
  have hargs : ∀ {args : List Expr} {ss : List Scalar}, args.length = ss.length →
      everywhereArgs keep args = true →
      (∀ p ∈ args.zip ss, p.1.everywhere keep = true → R p.1 p.2) → ∀ a ∈ ss, ∃ e ∈ args, R e a := by
    intro args ss hlen hkeep ih a ha
    obtain ⟨e, hmem⟩ := exists_mem_zip hlen ha
    have he := (List.of_mem_zip hmem).1
    exact ⟨e, he, ih _ hmem (Expr.everywhere_of_mem hkeep he)⟩
  induction h with
  | constant value => exact hR.constant he
  | null h => exact hR.null h
  | parameter name type => exact hR.parameter he
  | staticMember h =>
    simp only [Expr.everywhere, everywhereReceiver, Bool.and_eq_true] at he
    obtain ⟨p, hp, h⟩ := firstAnswer_eq_some h
    exact hR.member hp he.1 (by simp) h
  | property _ h => exact hR.draft _ (Draft.property?_mem h)
  | shapeMember hr hm _ ih =>
    simp only [Expr.everywhere, everywhereReceiver, Bool.and_eq_true] at he
    have hreduced := Expr.everywhere_reduceMembers he.2
    rw [hr, Expr.everywhere, Bool.and_eq_true] at hreduced
    exact hR.shapeMember hr hm (ih (Expr.everywhere_findMember? hreduced.2 hm))
  | member _ _ _ h ih =>
    simp only [Expr.everywhere, everywhereReceiver, Bool.and_eq_true] at he
    obtain ⟨p, hp, h⟩ := firstAnswer_eq_some h
    exact hR.member hp he.1 (by simpa using ih he.2) h
  | isNull _ _ hoperand _ ih =>
    simp only [Expr.everywhere, Bool.and_eq_true] at he
    refine hR.isNull (ih ?_)
    rw [hoperand]
    split
    · exact he.1.2
    · exact he.2
  | binary hnull hop _ _ ihl ihr =>
    simp only [Expr.everywhere, Bool.and_eq_true] at he
    exact hR.binary he.1.1 hnull hop (ihl he.1.2) (ihr he.2)
  | not _ ih =>
    simp only [Expr.everywhere, Bool.and_eq_true] at he
    exact hR.not (ih he.2)
  | negate _ ih =>
    simp only [Expr.everywhere, Bool.and_eq_true] at he
    exact hR.negate (ih he.2)
  | staticCall hlen _ h ih =>
    simp only [Expr.everywhere, everywhereReceiver, Bool.and_eq_true] at he
    obtain ⟨p, hp, h⟩ := firstAnswer_eq_some h
    exact hR.method hp he.1.1 (by simp) (hargs hlen he.2 ih) h
  | call _ hlen _ h ihr ih =>
    simp only [Expr.everywhere, everywhereReceiver, Bool.and_eq_true] at he
    obtain ⟨p, hp, h⟩ := firstAnswer_eq_some h
    exact hR.method hp he.1.1 (by simpa using ihr he.1.2) (hargs hlen he.2 ih) h
  | conditional _ _ _ iht ihl ihr =>
    simp only [Expr.everywhere, Bool.and_eq_true] at he
    exact hR.conditional (iht he.1.1.2) (ihl he.1.2) (ihr he.2)
  | convert _ h ih =>
    simp only [Expr.everywhere, Bool.and_eq_true] at he
    exact hR.convert he.1 (ih he.2) h
  | binding h => exact hR.draft _ (Draft.scalar?_mem h)

/-- The rules keep a property that scalars keep when they are put together, if leaves have it. -/
theorem Composed.rules {T : Scalar → Prop} {keep : Expr → Bool} (hP : Composed scope.catalog P T)
    (hf : scope.functions.KeepFor scope.catalog P T) (hleaves : Expr.Leaves P T keep)
    (hdraft : ∀ s ∈ scope.draft.shape.scalars, P s) : Lowered.Rules scope keep fun _ s => P s where
  constant := hleaves.constant
  null _ := hleaves.null _
  parameter := hleaves.parameter
  draft _ := hdraft _
  shapeMember _ _ h := h
  member hp _ hr h := (hf _ hp).member (fun v hv => (hr v hv).elim fun _ h => h.2) h
  isNull := hP.isNull _
  binary _ _ _ := hP.binary _
  not := hP.not
  negate := hP.negated
  method {receiver name args value ss s p} hp hkeep hr hargs h := by
    refine (hf p hp).method (fun v hv => ?_) (fun howner v hv => ?_) (fun a ha => ?_) h
    · obtain ⟨_, -, hv⟩ := hr v hv
      exact hv
    · obtain ⟨e, he, hvalue⟩ := hr v hv
      rw [Option.mem_def.1 hv] at howner
      rw [Option.mem_def.1 he] at hkeep
      exact hleaves.receiver hvalue hkeep howner
    · obtain ⟨_, -, ha⟩ := hargs a ha
      exact ha
  conditional := hP.case
  convert {operand type value s} _ ho h := by
    unfold convertScalar at h
    split at h
    · rename_i hkind
      cases h
      exact hP.retype hkind ho
    · exact hP.cast? ho h

/-- A scalar that a body becomes has a property that the scalars of the draft have, if the leaves of the body
have it. -/
theorem Lowered.keepsFor {T : Scalar → Prop} {keep : Expr → Bool}
    (hP : Composed scope.catalog P T) (hf : scope.functions.KeepFor scope.catalog P T)
    (hleaves : Expr.Leaves P T keep) (hdraft : ∀ s ∈ scope.draft.shape.scalars, P s) {e : Expr}
    {s : Scalar} (h : Lowered scope e s) (he : e.everywhere keep = true) : P s :=
  h.ofRules (hP.rules hf hleaves hdraft) he

/-- A scalar that a body becomes has a closed property that the scalars of the draft have. -/
theorem Lowered.keeps (hP : Closed scope.catalog P) (hf : scope.functions.Keep scope.catalog P)
    (hdraft : ∀ s ∈ scope.draft.shape.scalars, P s) {e : Expr} {s : Scalar}
    (h : Lowered scope e s) : P s := by
  have hleaves : Expr.Leaves P (fun _ => True) fun _ => true :=
    ⟨fun _ => hP.constant _, hP.null, fun _ => hP.parameter _ _, fun _ _ _ => trivial⟩
  exact h.keepsFor hP.composed (fun p hp => FunctionProvider.keepsFor_true.2 (hf p hp)) hleaves hdraft
    (Expr.everywhere_of_forall (fun _ => rfl) e)

/-- A body that a pipeline may contain becomes the same scalar over every draft. -/
theorem Lowered.anyDraft {e : Expr} {s : Scalar} (h : Lowered scope e s) (hsource : e.isSource = true)
    (d : Draft) : Lowered { scope with draft := d } e s := by
  induction h with
  | constant value => exact .constant value
  | null h => exact .null h
  | parameter name type => exact .parameter name type
  | staticMember h => exact .staticMember h
  | property hr _ =>
    simp only [Expr.isSource, Expr.everywhere, everywhereReceiver, Bool.and_eq_true] at hsource
    have hreduced := Expr.everywhere_self (Expr.everywhere_reduceMembers hsource.2)
    rw [hr] at hreduced
    cases hreduced
  | shapeMember hr hm _ ih =>
    simp only [Expr.isSource, Expr.everywhere, everywhereReceiver, Bool.and_eq_true] at hsource
    have hreduced := Expr.everywhere_reduceMembers hsource.2
    rw [hr, Expr.everywhere, Bool.and_eq_true] at hreduced
    exact .shapeMember hr hm (ih (Expr.everywhere_findMember? hreduced.2 hm))
  | member hentity hshape _ h ih =>
    simp only [Expr.isSource, Expr.everywhere, everywhereReceiver, Bool.and_eq_true] at hsource
    exact .member hentity hshape (ih hsource.2) h
  | isNull hop hnull hoperand _ ih =>
    simp only [Expr.isSource, Expr.everywhere, Bool.and_eq_true] at hsource
    refine .isNull hop hnull hoperand (ih ?_)
    rw [hoperand]
    split
    · exact hsource.1.2
    · exact hsource.2
  | binary hnull hop _ _ ihl ihr =>
    simp only [Expr.isSource, Expr.everywhere, Bool.and_eq_true] at hsource
    exact .binary hnull hop (ihl hsource.1.2) (ihr hsource.2)
  | not _ ih =>
    simp only [Expr.isSource, Expr.everywhere, Bool.and_eq_true] at hsource
    exact .not (ih hsource.2)
  | negate _ ih =>
    simp only [Expr.isSource, Expr.everywhere, Bool.and_eq_true] at hsource
    exact .negate (ih hsource.2)
  | staticCall hlen _ h ih =>
    simp only [Expr.isSource, Expr.everywhere, everywhereReceiver, Bool.and_eq_true] at hsource
    exact .staticCall hlen
      (fun p hp => ih p hp (Expr.everywhere_of_mem hsource.2 (List.of_mem_zip hp).1)) h
  | call _ hlen _ h ihr ih =>
    simp only [Expr.isSource, Expr.everywhere, everywhereReceiver, Bool.and_eq_true] at hsource
    exact .call (ihr hsource.1.2) hlen
      (fun p hp => ih p hp (Expr.everywhere_of_mem hsource.2 (List.of_mem_zip hp).1)) h
  | conditional _ _ _ iht ihl ihr =>
    simp only [Expr.isSource, Expr.everywhere, Bool.and_eq_true] at hsource
    exact .conditional (iht hsource.1.1.2) (ihl hsource.1.2) (ihr hsource.2)
  | convert _ h ih =>
    simp only [Expr.isSource, Expr.everywhere, Bool.and_eq_true] at hsource
    exact .convert (ih hsource.2) h
  | binding _ => cases hsource

/-- A scalar that a body of a pipeline becomes has a closed property whatever the draft is. -/
theorem Lowered.keeps_of_source (hP : Closed scope.catalog P)
    (hf : scope.functions.Keep scope.catalog P) {e : Expr} (hsource : e.isSource = true) {s : Scalar}
    (h : Lowered scope e s) : P s := by
  let empty : Scope := { scope with draft := default }
  have hempty : ∀ s ∈ empty.draft.shape.scalars, P s := fun _ hs => (List.not_mem_nil hs).elim
  exact @Lowered.keeps empty P hP hf hempty e s (h.anyDraft hsource default)

/-- The scalars of the shape that a selector becomes have a property that the scalars of the draft have, and
bodies as values when all of their parts are kept as those of the selector are. -/
theorem Bound.keeps {keep : Expr → Bool} (hshape : ∀ members, keep (.shape members) = true)
    (hvalue : ∀ e s, e.everywhere keep = true → scope.value e = .ok (some s) → P s)
    (hdraft : ∀ s ∈ scope.draft.shape.scalars, P s) {e shaper : Expr} {path : MemberPath}
    {shape : Shape} (h : Bound scope e path shaper shape) (he : e.everywhere keep = true) :
    ∀ s ∈ shape.scalars, P s := by
  induction h with
  | leaf _ _ h =>
    simpa [Shape.scalars, Projected.scalars] using hvalue _ _ (Expr.everywhere_reduceMembers he) h
  | entity _ h =>
    intro s hs
    exact hdraft s (mem_scalars_of_lookup h (by simpa [Shape.scalars] using hs))
  | shapeNil _ => exact List.forall_mem_nil _
  | shapeCons hreduced _ _ ihm ihrest =>
    have he := Expr.everywhere_reduceMembers he
    rw [hreduced] at he
    simp only [Expr.everywhere, everywhereMembers, Bool.and_eq_true] at he
    rw [Shape.scalars, List.flatMap_append]
    refine List.forall_mem_append.2 ⟨ihm he.2.1, ihrest ?_⟩
    rw [Expr.everywhere, hshape, Bool.true_and]
    exact he.2.2

/-- The forms that shapers consist of. -/
def Expr.isShaperForm : Expr → Bool
  | .shape _ | .entity .. | .binding .. | .ensureNonEmpty _ => true
  | _ => false

/-- The shaper of a selector consists of forms of shapers. -/
theorem Bound.shaper_forms {e shaper : Expr} {path : MemberPath} {shape : Shape}
    (h : Bound scope e path shaper shape) : shaper.everywhere Expr.isShaperForm = true := by
  induction h with
  | leaf _ _ _ | entity _ _ | shapeNil _ => rfl
  | shapeCons _ _ _ ihm ihrest =>
    simp only [Expr.everywhere, everywhereMembers, Bool.and_eq_true] at ihm ihrest ⊢
    exact ⟨rfl, ihm, ihrest.2⟩

/-- The shaper that a selector becomes calls nothing. -/
theorem Bound.shaper_callsOnly {e shaper : Expr} {path : MemberPath} {shape : Shape}
    (h : Bound scope e path shaper shape) (allowed : QualifiedName → Bool) :
    shaper.callsOnly allowed = true := by
  refine Expr.everywhere_imp (fun e he => ?_) h.shaper_forms
  have hform := Expr.everywhere_self he
  cases e with
  | call _ _ _ | member _ _ => cases hform
  | _ => rfl

end Scope

/-- Every step keeps the forms of shapers. -/
theorem Environment.Step.shaper_forms {env : Environment} {A : Expr → Prop} {q q' : ShapedDraft}
    (h : q.shaper.everywhere Expr.isShaperForm = true) (hstep : env.Step A q q') :
    q'.shaper.everywhere Expr.isShaperForm = true := by
  cases hstep with
  | project _ _ hbound => exact (Scope.bind_bound _ _ _ _ hbound).shaper_forms
  | existence _ | rowTotal _ _ _ | aggregate _ _ _ _ => rfl
  | ensureNonEmpty _ =>
    simp only [Expr.everywhere, Bool.and_eq_true]
    exact ⟨rfl, h⟩
  | _ => exact h

/-- A scalar in the store type of another type. -/
def Sql.Catalog.IsCast (catalog : Catalog) (s r : Scalar) : Prop :=
  ∃ type m, catalog.mapping? type.kind = some m ∧ r = (catalog.resolve s).castTo type m

/-- A cast that succeeds gives the scalar itself or a cast of it. -/
theorem Environment.cast_eq_ok {env : Environment} {s r : Scalar} {type : DataType}
    (h : env.cast s type = .ok r) : env.catalog.IsCast s r := by
  unfold Environment.cast at h
  split at h <;> cases h
  rename_i hcast
  obtain ⟨m, hm, rfl⟩ := Option.map_eq_some_iff.1 hcast
  exact ⟨type, m, hm, rfl⟩

/-- A value computed from a scalar of all rows is a function of the scalar, or the function with casts
before and after it. -/
theorem Environment.IsAggregate.form {env : Environment} {compute : Scalar → Except Diagnostic Scalar}
    (hcompute : env.IsAggregate compute) {input r : Scalar} (h : compute input = .ok r) :
    ∃ name ∈ rowFunctions, ∃ a type, (a = input ∨ env.catalog.IsCast input a) ∧
      (r = env.catalog.function name [a] type ∨
        env.catalog.IsCast (env.catalog.function name [a] type) r) := by
  have haggregate : ∀ function ∈ rowFunctions, env.aggregateOf function input = .ok r →
      ∃ name ∈ rowFunctions, ∃ a type, (a = input ∨ env.catalog.IsCast input a) ∧
        (r = env.catalog.function name [a] type ∨
          env.catalog.IsCast (env.catalog.function name [a] type) r) := by
    intro function hname h
    unfold Environment.aggregateOf at h
    split at h
    · obtain ⟨value, hvalue, h⟩ := bind_eq_ok.1 h
      exact ⟨function, hname, value, _, .inr (cast_eq_ok hvalue), .inr (cast_eq_ok h)⟩
    · cases h
      exact ⟨function, hname, input, _, .inl rfl, .inl rfl⟩
  obtain ⟨function, hname, rfl | rfl | rfl⟩ := hcompute
  · exact haggregate function hname h
  · unfold Environment.averageOf at h
    split at h
    · obtain ⟨value, hvalue, h⟩ := bind_eq_ok.1 h
      cases h
      exact ⟨"AVG", by decide, value, _, .inr (cast_eq_ok hvalue), .inl rfl⟩
    · exact haggregate "AVG" (by decide) h
  · cases h
    exact ⟨function, hname, input, _, .inl rfl, .inl rfl⟩

/-- A value computed from a scalar of all rows has a property that scalars keep when they are put together, if
the scalar has it. -/
theorem Composed.aggregate {env : Environment} {P T : Scalar → Prop} (hP : Composed env.catalog P T)
    {compute : Scalar → Except Diagnostic Scalar} (hcompute : env.IsAggregate compute) {input s : Scalar}
    (hinput : P input) (h : compute input = .ok s) : P s := by
  have hnames : ∀ name ∈ Environment.rowFunctions, isFunctionName name = true := by decide
  obtain ⟨name, hname, a, type, ha, hs⟩ := hcompute.form h
  have ha : P a := by
    rcases ha with rfl | ⟨type, m, hm, rfl⟩
    · exact hinput
    · exact hP.castTo hm hinput
  have htotal : P (env.catalog.function name [a] type) :=
    hP.ofArgs (hnames name hname) type (List.forall_mem_singleton.2 ha)
  rcases hs with rfl | ⟨type, m, hm, rfl⟩
  · exact htotal
  · exact hP.castTo hm htotal

/-- A body in a context has a closed property that the scalars of the draft have. -/
theorem Closed.lowerIn (scope : Scope) {P : Scalar → Prop} (hP : Closed scope.catalog P)
    (hf : scope.functions.Keep scope.catalog P) (hd : ∀ s ∈ scope.draft.shape.scalars, P s) {e : Expr}
    {asValue : Bool} {s : Scalar} (hs : scope.lowerIn e asValue = .ok (some s)) : P s := by
  obtain ⟨s', hs', rfl⟩ := Scope.lowerIn_eq_some hs
  exact hP.inContext asValue (hP.resolve (hs'.keeps hP hf hd))

end QueryPipeline
