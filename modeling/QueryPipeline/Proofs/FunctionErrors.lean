import QueryPipeline.Functions.BuiltIn
import QueryPipeline.Proofs.RenderingErrors

/-!
# Functions without internal errors

The functions that dialects have built in answer, refuse their arguments, or know nothing of what they are
asked. They never answer with an internal error.
-/

set_option autoImplicit false

namespace QueryPipeline

open Sql

/-- A provider never answers with an internal error. -/
structure FunctionProvider.NeverBug (catalog : Catalog) (p : FunctionProvider) : Prop where
  method (receiver : Option Scalar) (name : QualifiedName) (args : List Scalar) :
    NoBug (p.method catalog receiver name args)
  member (receiver : Option Scalar) (name : QualifiedName) : NoBug (p.member catalog receiver name)

/-- The functions of a registry never answer with an internal error. -/
def FunctionRegistry.NeverBug (r : FunctionRegistry) (catalog : Catalog) : Prop :=
  ∀ p ∈ r.providers, p.NeverBug catalog

/-- When no provider reports an internal error, the first answer is none. -/
theorem firstAnswer_noBug {ask : FunctionProvider → Answer} {providers : List FunctionProvider}
    (h : ∀ p ∈ providers, NoBug (ask p)) : NoBug (firstAnswer ask providers) := by
  induction providers with
  | nil => exact .ok _
  | cons p rest ih =>
    obtain ⟨hp, hrest⟩ := List.forall_mem_cons.1 h
    rw [firstAnswer_cons]
    split
    · exact ih hrest
    · exact hp

section Functions

variable (catalog : Catalog)

/-- A full-text search never fails with an internal error. -/
theorem fullTextSearch_noBug (function : String) (name : QualifiedName) (property sought : Scalar)
    (language : Option Scalar) : NoBug (fullTextSearch catalog function name property sought language) := by
  unfold fullTextSearch
  split
  · exact .error (by rintro ⟨_, ⟨⟩⟩)
  · dsimp only
    split
    · exact .ok _
    · split
      · exact .ok _
      · exact .error (by rintro ⟨_, ⟨⟩⟩)

/-- A search for a text that is known beforehand never fails with an internal error. -/
theorem likeConstant_noBug (subject pattern : Scalar) (occurrence : Occurrence) :
    NoBug (likeConstant catalog subject pattern occurrence) := by
  unfold likeConstant
  split <;> exact .ok _

/-- To trim a text never fails with an internal error. -/
theorem positions_trim_noBug (function : String) (subject : Scalar) (args : List Scalar) :
    NoBug (Positions.trim catalog function subject args) := by
  unfold Positions.trim
  split
  · exact .ok _
  · split <;> exact .ok _
  · exact .ok _

/-- The functions on texts that match patterns never report an internal error. -/
theorem patternTextFunctions_neverBug (lengthFunction : String) :
    (patternTextFunctions lengthFunction).NeverBug catalog := by
  constructor
  · intro receiver name args
    simp only [patternTextFunctions]
    split
    · split
      · exact .ok _
      · exact .ok _
      · split <;> exact .ok _
      · exact likeConstant_noBug _ _ _ _
      · exact likeConstant_noBug _ _ _ _
      · exact likeConstant_noBug _ _ _ _
      · exact .ok _
    · exact .ok _
  · intro receiver name
    simp only [patternTextFunctions]
    split
    · split <;> exact .ok _
    · exact .ok _

/-- The functions on texts of a database without patterns of its own never report an internal error. -/
theorem positionTextFunctions_neverBug : positionTextFunctions.NeverBug catalog := by
  constructor
  · intro receiver name args
    simp only [positionTextFunctions]
    split
    · exact .ok _
    · split
      · split <;> exact .ok _
      · split <;> first | exact .ok _ | exact positions_trim_noBug _ _ _ _
  · intro receiver name
    simp only [positionTextFunctions]
    split
    · split <;> exact .ok _
    · exact .ok _

/-- Conversions never report an internal error. -/
theorem conversionMethods_neverBug : conversionMethods.NeverBug catalog := by
  refine ⟨fun receiver name args => ?_, fun _ _ => .ok _⟩
  simp only [conversionMethods, FunctionProvider.ofMethod]
  split
  · split
    · exact .ok _
    · split <;> exact .ok _
  · exact .ok _

/-- The methods for full-text search never report an internal error. -/
theorem fullTextMethods_neverBug : fullTextMethods.NeverBug catalog := by
  refine ⟨fun receiver name args => ?_, fun _ _ => .ok _⟩
  simp only [fullTextMethods, FunctionProvider.ofMethod]
  split
  · exact .ok _
  · split
    · exact fullTextSearch_noBug _ _ _ _ _ _
    · exact fullTextSearch_noBug _ _ _ _ _ _
    · exact .ok _

/-- The parts of a date never report an internal error. -/
theorem datePartMembers_neverBug : datePartMembers.NeverBug catalog := by
  refine ⟨fun _ _ _ => .ok _, fun receiver name => ?_⟩
  simp only [datePartMembers, FunctionProvider.ofMember]
  split
  · exact .ok _
  · split
    · split <;> exact .ok _
    · split <;> exact .ok _

/-- The parts of a date that are cut out of its text never report an internal error. -/
theorem formattedDateMembers_neverBug : formattedDateMembers.NeverBug catalog := by
  refine ⟨fun _ _ _ => .ok _, fun receiver name => ?_⟩
  simp only [formattedDateMembers, FunctionProvider.ofMember]
  split
  · exact .ok _
  · split
    · split <;> exact .ok _
    · split <;> exact .ok _

/-- The methods of geometries never report an internal error. -/
theorem collectionMethods_neverBug : collectionMethods.NeverBug catalog := by
  refine ⟨fun receiver name args => ?_, fun _ _ => .ok _⟩
  simp only [collectionMethods, FunctionProvider.ofMethod]
  split
  · split <;> exact .ok _
  · exact .ok _

/-- The members of lines never report an internal error. -/
theorem lineMembers_neverBug : lineMembers.NeverBug catalog := by
  refine ⟨fun _ _ _ => .ok _, fun receiver name => ?_⟩
  simp only [lineMembers, FunctionProvider.ofMember]
  split
  · split <;> exact .ok _
  · exact .ok _

/-- The functions that dialects have built in never answer with an internal error. -/
theorem ofDialect_neverBug (dialect : Dialect) :
    (FunctionRegistry.ofDialect dialect).NeverBug catalog := by
  have hpattern := patternTextFunctions_neverBug catalog
  unfold FunctionRegistry.NeverBug
  cases dialect with
  | generic =>
    simpa [FunctionRegistry.ofDialect, builtInProviders]
      using hpattern "CHAR_LENGTH"
  | postgres =>
    simpa [FunctionRegistry.ofDialect, builtInProviders]
      using hpattern "LENGTH"
  | msSql =>
    simpa [FunctionRegistry.ofDialect, builtInProviders] using
      ⟨hpattern "LEN", conversionMethods_neverBug catalog, fullTextMethods_neverBug catalog,
        datePartMembers_neverBug catalog⟩
  | sqlite =>
    simpa [FunctionRegistry.ofDialect, builtInProviders] using
      ⟨positionTextFunctions_neverBug catalog, formattedDateMembers_neverBug catalog,
        collectionMethods_neverBug catalog, lineMembers_neverBug catalog⟩

end Functions

end QueryPipeline
