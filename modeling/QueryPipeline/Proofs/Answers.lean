import QueryPipeline.Proofs.Closed
import QueryPipeline.Proofs.RowTotals

/-!
# What functions become

Whatever it is asked with, a function that a dialect has built in becomes a function, an operation, a match with
a pattern or a cast. A property that all of these have is one of every answer. So no function becomes a number of
rows.
-/

set_option autoImplicit false

namespace QueryPipeline

open Sql

/-- A provider only answers with scalars that have a property, whatever it is asked with. -/
structure FunctionProvider.Answers (catalog : Catalog) (P : Scalar → Prop) (p : FunctionProvider) :
    Prop where
  method {receiver : Option Scalar} {name : QualifiedName} {args : List Scalar} {s : Scalar}
    (h : p.method catalog receiver name args = .ok (some s)) : P s
  member {receiver : Option Scalar} {name : QualifiedName} {s : Scalar}
    (h : p.member catalog receiver name = .ok (some s)) : P s

/-- All functions of a registry only answer with scalars that have a property. -/
def FunctionRegistry.Answers (r : FunctionRegistry) (catalog : Catalog) (P : Scalar → Prop) : Prop :=
  ∀ p ∈ r.providers, p.Answers catalog P

/-- A property of all answers is kept by the functions. -/
theorem FunctionRegistry.Answers.keep {r : FunctionRegistry} {catalog : Catalog} {P : Scalar → Prop}
    (h : r.Answers catalog P) : r.Keep catalog P :=
  fun p hp => ⟨fun _ _ => (h p hp).method, fun _ => (h p hp).member⟩

/-- The forms that built-in functions become have a property, whatever they are put together from. -/
structure Answered (catalog : Catalog) (P : Scalar → Prop) : Prop where
  function {name : String} (hname : rowCounters.contains name = false) (args : List Scalar)
    (type : DataType) (mapping : Option TypeMapping) : P (catalog.functionWith name none args type mapping)
  search {name : String} (hname : rowCounters.contains name = false) (args : List Scalar)
    (type : DataType) (mapping : Option TypeMapping) :
    P (catalog.functionWith name none args type mapping).asPredicate
  binary (op : ScalarOp) (left right : Scalar) : P (catalog.binary op left right)
  like (subject pattern : Scalar) (escape : Option Scalar) : P (catalog.like subject pattern escape)
  castTo (operand : Scalar) (type : DataType) (mapping : TypeMapping) : P (operand.castTo type mapping)

namespace Answered

variable {catalog : Catalog} {P : Scalar → Prop} (hP : Answered catalog P) {s : Scalar}
include hP

/-- A disjunction is an operation. -/
theorem or (left right : Scalar) : P (catalog.or left right) := hP.binary _ _ _

/-- A difference is an operation. -/
theorem subtract (left right : Scalar) : P (catalog.subtract left right) := hP.binary _ _ _

/-- The functions that trim texts become functions. -/
theorem trim {function : String} (hname : rowCounters.contains function = false) {subject : Scalar}
    {args : List Scalar} (h : Positions.trim catalog function subject args = .ok (some s)) : P s := by
  unfold Positions.trim at h
  split at h
  · cases h
    exact hP.function hname _ _ _
  · split at h
    · cases h
      exact hP.function hname _ _ _
    · cases h
      exact hP.function hname _ _ _
    · cases h
  · cases h

/-- A search for a text that is known beforehand becomes a match with a pattern. -/
theorem likeConstant {subject pattern : Scalar} {occurrence : Occurrence}
    (h : likeConstant catalog subject pattern occurrence = .ok (some s)) : P s := by
  unfold QueryPipeline.likeConstant at h
  split at h <;> cases h
  exact hP.like _ _ _

/-- A full-text search becomes a function that is taken for a condition. -/
theorem fullTextSearch {function : String} (hname : rowCounters.contains function = false)
    {name : QualifiedName} {property sought : Scalar} {language : Option Scalar}
    (h : fullTextSearch catalog function name property sought language = .ok (some s)) : P s := by
  unfold QueryPipeline.fullTextSearch at h
  split at h
  · cases h
  · split at h
    · cases h
      exact hP.search hname _ _ _
    · split at h <;> cases h
      exact hP.search hname _ _ _

/-- The functions on texts of a database without patterns of its own become functions, operations and casts. -/
theorem positionTextFunctions : positionTextFunctions.Answers catalog P := by
  constructor
  · intro receiver name args s h
    simp only [QueryPipeline.positionTextFunctions] at h
    split at h
    · cases h
    · split at h
      · split at h <;> cases h
        exact hP.or _ _
      · split at h
        · cases h
          exact hP.subtract _ _
        · cases h
          exact hP.function (by decide) _ _ _
        · cases h
          exact hP.function (by decide) _ _ _
        · cases h
          exact hP.function (by decide) _ _ _
        · cases h
          exact hP.function (by decide) _ _ _
        · exact hP.trim (by decide) h
        · exact hP.trim (by decide) h
        · exact hP.trim (by decide) h
        · cases h
          exact hP.or _ _
        · cases h
          exact hP.or _ _
        · cases h
          exact hP.or _ _
        · cases h
  · intro receiver name s h
    simp only [QueryPipeline.positionTextFunctions] at h
    split at h
    · split at h <;> cases h
      exact hP.function (by decide) _ _ _
    · cases h

/-- The functions on texts that match patterns become functions, operations and matches. -/
theorem patternTextFunctions {lengthFunction : String}
    (hname : rowCounters.contains lengthFunction = false) :
    (patternTextFunctions lengthFunction).Answers catalog P := by
  constructor
  · intro receiver name args s h
    simp only [QueryPipeline.patternTextFunctions] at h
    split at h
    · split at h
      · cases h
        exact hP.function (by decide) _ _ _
      · cases h
        exact hP.function (by decide) _ _ _
      · split at h <;> cases h
        exact hP.function (by decide) _ _ _
      · exact hP.likeConstant h
      · exact hP.likeConstant h
      · exact hP.likeConstant h
      · cases h
    · cases h
  · intro receiver name s h
    simp only [QueryPipeline.patternTextFunctions] at h
    split at h
    · split at h <;> cases h
      exact hP.function hname _ _ _
    · cases h

/-- Conversions to texts become functions. -/
theorem conversionMethods : conversionMethods.Answers catalog P := by
  refine ⟨fun {receiver name args s} h => ?_, nofun⟩
  simp only [QueryPipeline.conversionMethods, FunctionProvider.ofMethod] at h
  split at h
  · split at h
    · cases h
    · split at h <;> cases h
      exact hP.function (by decide) _ _ _
  · cases h

omit hP in
/-- The full-text predicates are functions that do not count rows. -/
theorem fullTextPredicates_lookup {name function : String}
    (h : fullTextPredicates.lookup name = some function) : rowCounters.contains function = false := by
  have hall : ∀ p ∈ fullTextPredicates, rowCounters.contains p.2 = false := by decide
  obtain ⟨before, after, hpredicates, -⟩ := List.lookup_eq_some_iff.1 h
  exact hall (name, function) (by simp [hpredicates])

/-- The methods for full-text search become searches. -/
theorem fullTextMethods : fullTextMethods.Answers catalog P := by
  refine ⟨fun {receiver name args s} h => ?_, nofun⟩
  simp only [QueryPipeline.fullTextMethods, FunctionProvider.ofMethod] at h
  split at h
  · cases h
  · split at h
    · exact hP.fullTextSearch (fullTextPredicates_lookup ‹_›) h
    · exact hP.fullTextSearch (fullTextPredicates_lookup ‹_›) h
    · cases h

/-- The parts of a date become functions. -/
theorem datePartMembers : datePartMembers.Answers catalog P := by
  refine ⟨nofun, fun {receiver name s} h => ?_⟩
  simp only [QueryPipeline.datePartMembers, FunctionProvider.ofMember] at h
  split at h
  · cases h
  · split at h
    · split at h <;> cases h
      · exact hP.function (by decide) _ _ _
      · exact hP.function (by decide) _ _ _
    · split at h <;> cases h
      exact hP.function (by decide) _ _ _

/-- The parts of a date that are cut out of its text become casts and functions. -/
theorem formattedDateMembers : formattedDateMembers.Answers catalog P := by
  refine ⟨nofun, fun {receiver name s} h => ?_⟩
  simp only [QueryPipeline.formattedDateMembers, FunctionProvider.ofMember] at h
  split at h
  · cases h
  · split at h
    · split at h <;> cases h
      · exact hP.function (by decide) _ _ _
      · exact hP.function (by decide) _ _ _
    · split at h
      · obtain ⟨m, -, rfl⟩ := Option.map_eq_some_iff.1 (Except.ok.inj h)
        exact hP.castTo _ _ _
      · cases h

/-- The methods of geometries become functions. -/
theorem collectionMethods : collectionMethods.Answers catalog P := by
  refine ⟨fun {receiver name args s} h => ?_, nofun⟩
  simp only [QueryPipeline.collectionMethods, FunctionProvider.ofMethod] at h
  split at h
  · split at h <;> cases h
    exact hP.function (by decide) _ _ _
  · cases h

/-- The members of lines become functions. -/
theorem lineMembers : lineMembers.Answers catalog P := by
  refine ⟨nofun, fun {receiver name s} h => ?_⟩
  simp only [QueryPipeline.lineMembers, FunctionProvider.ofMember] at h
  split at h
  · split at h <;> cases h
    exact hP.function (by decide) _ _ _
  · cases h

/-- Every answer of a function that a dialect has built in is one of the forms. -/
theorem ofDialect (dialect : Dialect) : (FunctionRegistry.ofDialect dialect).Answers catalog P := by
  show ∀ p ∈ builtInProviders dialect, p.Answers catalog P
  have hpattern {name : String} (hname : rowCounters.contains name = false) :=
    hP.patternTextFunctions hname
  cases dialect with
  | generic => simpa [builtInProviders] using @hpattern "CHAR_LENGTH" (by decide)
  | postgres => simpa [builtInProviders] using @hpattern "LENGTH" (by decide)
  | msSql =>
    simpa [builtInProviders] using ⟨@hpattern "LEN" (by decide), hP.conversionMethods, hP.fullTextMethods,
      hP.datePartMembers⟩
  | sqlite =>
    simpa [builtInProviders] using ⟨hP.positionTextFunctions, hP.formattedDateMembers,
      hP.collectionMethods, hP.lineMembers⟩

end Answered

/-- What built-in functions become is no number of rows. -/
theorem noTotal_answered (catalog : Catalog) : Answered catalog Scalar.NoTotal where
  function hname _ _ _ := Scalar.noTotal_functionWith hname _ _ _ _
  search hname args type mapping := Scalar.noTotal_functionWith hname none args type mapping
  binary := Scalar.noTotal_binary
  like _ _ _ := rfl
  castTo _ _ _ := rfl

/-- No function that a dialect has built in becomes the number of all rows. -/
theorem FunctionRegistry.ofDialect_noTotal {catalog : Catalog} (dialect : Dialect) :
    (FunctionRegistry.ofDialect dialect).Keep catalog Scalar.NoTotal :=
  ((noTotal_answered catalog).ofDialect dialect).keep

end QueryPipeline
