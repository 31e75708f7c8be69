import QueryPipeline.Proofs.Nesting

/-!
# Types that admit no absence

The type of a scalar says whether its value may be absent. Each way to put scalars together finds this out
from the types of the parts that decide it, and so does each function, but for a few functions whose results
have a type that does not look at all arguments. Without conversions, which may claim anything, all scalars
that operators make have types that account for their parts in this way.
-/

set_option autoImplicit false

namespace QueryPipeline

open Sql

/-- The type of a literal admits absence when the literal is a null. -/
theorem Literal.nullable_type (value : Literal) : value.type.nullable = value.isNull := by
  cases value with
  | integer i =>
    rw [Literal.type]
    split <;> rfl
  | _ => rfl

namespace Sql

/-- The functions whose results have a type that does not look at all arguments. -/
def overlookingFunctions : List String :=
  ["instr", "replace", "REPLACE", "substr", "strftime"] ++ fullTextPredicates.map Prod.snd

/-- The node is a function whose type does not look at all arguments. -/
def Node.overlooks : Node → Bool
  | .function name .. => overlookingFunctions.contains name
  | _ => false

/-- The node is a null. -/
def Node.isNullConstant : Node → Bool
  | .constant value => value.isNull
  | _ => false

/-- The node is a `CASE` that has a result for some rows only. -/
def Node.leavesRows : Node → Bool
  | .case _ otherwise => otherwise.isNone
  | _ => false

/-- The scalars that make the value of a node absent when they are absent. A condition has none: whether it is
unknown does not follow from its operands alone. -/
def Node.deciding : Node → List Scalar
  | .binary op left right =>
    if op.isComparison || op.isLogical then []
    else if op = .coalesce then [right] else [left, right]
  | .negate operand | .cast operand => [operand]
  | .function _ _ receiver args => receiver.toList ++ args
  | .case branches otherwise => branches.map (·.result) ++ otherwise.toList
  | _ => []

/-- A scalar is the whole, or one of the scalars that decide such a scalar. Only what a type that admits no
absence rests on counts. -/
inductive Scalar.Decides (part : Scalar) : Scalar → Prop
  | refl : Scalar.Decides part part
  | child {whole child : Scalar} (htype : whole.type.nullable = false) (hchild : child ∈ whole.node.deciding)
      (h : Scalar.Decides part child) : Scalar.Decides part whole

/-- What a type that admits no absence says of its node: a constant is not null, a `CASE` has a result for all
rows, and no scalar that decides it may be absent by its type, unless it is overlooked. -/
structure Node.Accounts (n : Node) : Prop where
  constant : n.isNullConstant = false
  complete : n.leavesRows = false
  parts : n.overlooks = false → ∀ part ∈ n.deciding, part.type.nullable = false

/-- The type of a scalar accounts for the scalars that decide it, and so do their types. What a cast is applied
to counts even when the cast may be absent, because the cast may be taken off. -/
inductive Scalar.Tracks : Scalar → Prop
  | intro {s : Scalar} (hnode : s.type.nullable = false → s.node.Accounts)
      (hparts : s.type.nullable = false → ∀ part ∈ s.node.deciding, Scalar.Tracks part)
      (hcast : ∀ operand, s.node = .cast operand → Scalar.Tracks operand) : Scalar.Tracks s

section Mappings

variable {m : TypeMapping} {n : Node}

/-- A mapping makes a deciding scalar of each one before, or leaves it as it is. -/
theorem Node.deciding_withMapping {part : Scalar} (h : part ∈ (n.withMapping m).deciding) :
    ∃ part' ∈ n.deciding, part = part' ∨ part = part'.withMapping m := by
  cases n with
  | negate operand => exact ⟨operand, List.mem_singleton_self _, .inr (List.mem_singleton.1 h)⟩
  | binary op left right =>
    rw [withMapping] at h
    split at h
    · exact ⟨part, h, .inl rfl⟩
    · rename_i hop
      rw [deciding, if_neg hop] at h ⊢
      split at h
      · rename_i hcoalesce
        rw [if_pos hcoalesce]
        exact ⟨right, List.mem_singleton_self _, .inr (List.mem_singleton.1 h)⟩
      · rename_i hcoalesce
        rw [if_neg hcoalesce]
        rcases List.mem_pair.1 h with rfl | rfl
        · exact ⟨left, by simp, .inr rfl⟩
        · exact ⟨right, by simp, .inr rfl⟩
  | case branches otherwise =>
    rw [withMapping, deciding, map_result_branchesWithMapping, toList_optionWithMapping] at h
    rcases List.mem_append.1 h with h | h
    · obtain ⟨b, hb, rfl⟩ := List.mem_map.1 h
      exact ⟨b.result, List.mem_append_left _ (List.mem_map.2 ⟨b, hb, rfl⟩), .inr rfl⟩
    · obtain ⟨s, hs, rfl⟩ := List.mem_map.1 h
      exact ⟨s, List.mem_append_right _ hs, .inr rfl⟩
  | _ => exact ⟨part, h, .inl rfl⟩

/-- A mapping does not change whether the type of a node looks at all arguments. -/
theorem Node.overlooks_withMapping (m : TypeMapping) (n : Node) :
    (n.withMapping m).overlooks = n.overlooks := by
  cases n with
  | binary op left right =>
    rw [withMapping]
    split <;> rfl
  | _ => rfl

/-- A mapping makes no null of a node, and no other node of a null. -/
theorem Node.isNullConstant_withMapping (m : TypeMapping) (n : Node) :
    (n.withMapping m).isNullConstant = n.isNullConstant := by
  cases n with
  | binary op left right =>
    rw [withMapping]
    split <;> rfl
  | _ => rfl

/-- A mapping does not change whether a `CASE` has a result for all rows. -/
theorem Node.leavesRows_withMapping (m : TypeMapping) (n : Node) :
    (n.withMapping m).leavesRows = n.leavesRows := by
  cases n with
  | binary op left right =>
    rw [withMapping]
    split <;> rfl
  | case branches otherwise => cases otherwise <;> rfl
  | _ => rfl

/-- With a mapping the type of a node accounts for what it did before. -/
theorem Node.Accounts.withMapping (h : n.Accounts) : (n.withMapping m).Accounts := by
  refine ⟨?_, ?_, fun hoverlooks part hpart => ?_⟩
  · rw [Node.isNullConstant_withMapping, h.constant]
  · rw [Node.leavesRows_withMapping, h.complete]
  · rw [Node.overlooks_withMapping] at hoverlooks
    obtain ⟨part', hpart', rfl | rfl⟩ := Node.deciding_withMapping hpart
    · exact h.parts hoverlooks part hpart'
    · rw [Scalar.type_withMapping]
      exact h.parts hoverlooks part' hpart'

end Mappings

/-- Nothing decides whether a condition is absent. -/
theorem Node.deciding_of_condition {n : Node} (h : n.isConditionForm = true) : n.deciding = [] := by
  cases n with
  | binary op left right => exact if_pos h
  | not _ | isNull _ _ | existsIn _ _ | like _ _ _ => rfl
  | _ => cases h

namespace Scalar

variable {catalog : Catalog} {s s' : Scalar}

/-- What a cast is applied to has a type that accounts for its parts. -/
theorem Tracks.hcast (h : s.Tracks) : ∀ operand, s.node = .cast operand → operand.Tracks := by
  cases h
  assumption

/-- Only the node counts, and a type that admits absence is as good as any. -/
theorem Tracks.ofNode (h : s.Tracks) (hnode : s'.node = s.node)
    (htype : s'.type.nullable = false → s.type.nullable = false) : s'.Tracks := by
  cases h with
  | intro haccounts hparts hcast =>
    rw [← hnode] at haccounts hparts hcast
    exact .intro (fun h => haccounts (htype h)) (fun h => hparts (htype h)) hcast

/-- The position of a scalar does not matter for what its type accounts for. -/
theorem Tracks.inContext (h : s.Tracks) (asValue : Bool) : (s.inContext asValue).Tracks := h.ofNode rfl id

/-- Scalars are put together from such scalars when the type accounts for them. -/
theorem Tracks.ofParts (hnode : s.type.nullable = false → s.node.Accounts)
    (hparts : ∀ part ∈ s.node.deciding, part.Tracks) : s.Tracks := by
  refine .intro hnode (fun _ => hparts) fun operand hoperand => hparts operand ?_
  rw [hoperand]
  exact List.mem_singleton_self _

/-- A scalar that nothing decides. -/
theorem tracks_of_leaf (hnode : s.type.nullable = false → s.node.isNullConstant = false)
    (hcomplete : s.node.leavesRows = false) (hdeciding : s.node.deciding = []) : s.Tracks := by
  refine .ofParts (fun htype => ⟨hnode htype, hcomplete, fun _ => ?_⟩) ?_
  · rw [hdeciding]
    exact List.forall_mem_nil _
  · rw [hdeciding]
    exact List.forall_mem_nil _

/-- The type of every condition accounts for its parts. -/
theorem tracks_of_condition (h : s.node.isConditionForm = true) : s.Tracks := by
  refine tracks_of_leaf (fun _ => ?_) ?_ (Node.deciding_of_condition h)
  · cases hnode : s.node with
    | constant value =>
      rw [hnode] at h
      cases h
    | _ => rfl
  · cases hnode : s.node with
    | case branches otherwise =>
      rw [hnode] at h
      cases h
    | _ => rfl

/-- The type of a constant accounts for it when it admits absence or the constant is no null. -/
theorem tracks_constant {value : Literal} {type : DataType} {mapping : Option TypeMapping}
    (h : type.nullable = false → value.isNull = false) :
    (natural (.constant value) type mapping).Tracks := tracks_of_leaf h rfl rfl

/-- The type of a text accounts for it. -/
theorem tracks_text (s : String) : (Scalar.text s).Tracks := tracks_constant fun _ => rfl

/-- The type of a whole number accounts for it. -/
theorem tracks_int (catalog : Catalog) (i : Int64) : (catalog.int i).Tracks := tracks_constant fun _ => rfl

/-- The type of a fragment accounts for it. -/
theorem tracks_fragment (sql : String) (type : DataType) : (Scalar.fragment sql type).Tracks :=
  tracks_of_leaf (fun _ => rfl) rfl rfl

/-- The type of a column accounts for it. -/
theorem tracks_column (table name : String) (type : DataType) (mapping : Option TypeMapping) :
    (Scalar.column table name type mapping).Tracks := tracks_of_leaf (fun _ => rfl) rfl rfl

/-- The type of a parameter accounts for it. -/
theorem tracks_parameter (name : String) (type : DataType) : (Scalar.parameter name type).Tracks :=
  tracks_of_leaf (fun _ => rfl) rfl rfl

/-- With a mapping the type of a scalar accounts for its parts when it did before. -/
theorem Tracks.withMapping (m : TypeMapping) (h : s.Tracks) : (s.withMapping m).Tracks := by
  induction h with
  | @intro s hnode hparts hcast ih _ =>
    obtain ⟨node, type, _ | known, isCondition, asValue⟩ := s
    · refine .intro (fun h => (hnode h).withMapping) (fun h part hpart => ?_) fun operand hoperand => ?_
      · obtain ⟨part', hpart', rfl | rfl⟩ := Node.deciding_withMapping hpart
        · exact hparts h part hpart'
        · exact ih h part' hpart'
      · exact hcast operand (Node.eq_of_withMapping hoperand nofun nofun nofun)
    · exact .intro hnode hparts hcast

/-- With the mapping of the catalog the type of a scalar accounts for its parts when it did before. -/
theorem Tracks.resolve (catalog : Catalog) (h : s.Tracks) : (catalog.resolve s).Tracks := by
  unfold Catalog.resolve
  split
  · exact h.withMapping _
  · exact h

/-- With a mapping from elsewhere or from the catalog the type of a scalar accounts for its parts when it did
before. -/
theorem Tracks.resolveFrom (catalog : Catalog) (known : Option TypeMapping) (h : s.Tracks) :
    (catalog.resolveFrom known s).Tracks := by
  unfold Catalog.resolveFrom
  split
  · exact h.withMapping _
  · exact h.resolve catalog

/-- Without its casts a scalar has a type that accounts for its parts. -/
theorem Tracks.withoutCast (h : s.Tracks) : s.withoutCast.Tracks := by
  unfold Scalar.withoutCast
  split
  · exact h.hcast _ ‹_›
  · exact h

/-- The type of a condition that is turned around accounts for its parts. -/
theorem Tracks.negated (h : s.Tracks) : s.negated.Tracks := by
  refine .ofParts (fun htype => ⟨rfl, rfl, fun _ => ?_⟩) (List.forall_mem_singleton.2 (h.inContext true))
  exact List.forall_mem_singleton.2 htype

/-- A cast has a type that accounts for its parts when it admits no absence only where its operand admits none.
-/
theorem Tracks.castTo {type : DataType} (m : TypeMapping) (h : s.Tracks)
    (htype : type.nullable = false → s.type.nullable = false) : (s.castTo type m).Tracks := by
  refine .ofParts (fun h => ⟨rfl, rfl, fun _ => ?_⟩) (List.forall_mem_singleton.2 (h.inContext true))
  exact List.forall_mem_singleton.2 (htype h)

end Scalar

namespace Catalog

variable (catalog : Catalog)

/-- The type of an operation accounts for its operands when their types do for their parts. -/
theorem tracks_binary (op : ScalarOp) {left right : Scalar} (hl : left.Tracks) (hr : right.Tracks) :
    (catalog.binary op left right).Tracks := by
  unfold binary
  split
  · rename_i hlogical
    exact Scalar.tracks_of_condition (Bool.or_eq_true_iff.2 (.inr hlogical))
  · rename_i hlogical
    have hl := hl.resolveFrom catalog (knownMapping? [left, right])
    have hr := hr.resolveFrom catalog (knownMapping? [left, right])
    dsimp only
    split
    · rename_i hcomparison
      exact Scalar.tracks_of_condition (Bool.or_eq_true_iff.2 (.inl hcomparison))
    · rename_i hcomparison
      have hvalue : ¬(op.isComparison || op.isLogical) = true := by simp [hcomparison, hlogical]
      simp only [Scalar.binary]
      refine .ofParts (fun htype => ⟨rfl, rfl, fun _ => ?_⟩) ?_
      · simp only [Scalar.natural, DataType.withNullable] at htype
        rw [Scalar.natural, Node.deciding, if_neg hvalue]
        split
        · rename_i hcoalesce
          rw [if_pos hcoalesce] at htype
          exact List.forall_mem_singleton.2 htype
        · rename_i hcoalesce
          rw [if_neg hcoalesce, Bool.or_eq_false_iff] at htype
          exact List.forall_mem_cons.2 ⟨htype.1, List.forall_mem_singleton.2 htype.2⟩
      · rw [Scalar.natural, Node.deciding, if_neg hvalue]
        split
        · exact List.forall_mem_singleton.2 (hr.inContext _)
        · exact List.forall_mem_cons.2 ⟨hl.inContext _, List.forall_mem_singleton.2 (hr.inContext _)⟩

/-- The type of a negation accounts for its parts. -/
theorem tracks_not (s : Scalar) : (catalog.not s).Tracks := Scalar.tracks_of_condition rfl

/-- The question whether a scalar is null has a type that accounts for its parts. -/
theorem tracks_isNull (s : Scalar) (negated : Bool) : (catalog.isNull s negated).Tracks :=
  Scalar.tracks_of_condition rfl

/-- The type of a match with a pattern accounts for its parts. -/
theorem tracks_like (subject pattern : Scalar) (escape : Option Scalar) :
    (catalog.like subject pattern escape).Tracks := Scalar.tracks_of_condition rfl

/-- The question whether there are rows has a type that accounts for its parts. -/
theorem tracks_existsIn (subquery : Select) (negated : Bool) : (catalog.existsIn subquery negated).Tracks :=
  Scalar.tracks_of_condition rfl

/-- A `CASE` that has a result for all other rows is absent only where a result is. -/
theorem tracks_case {test ifTrue ifFalse : Scalar} (hl : ifTrue.Tracks) (hr : ifFalse.Tracks) :
    (catalog.case (test, ifTrue) [] (some ifFalse)).Tracks := by
  have hl := hl.resolveFrom catalog (knownMapping? [ifTrue, ifFalse])
  have hr := hr.resolveFrom catalog (knownMapping? [ifTrue, ifFalse])
  refine .ofParts (fun htype => ⟨rfl, rfl, fun _ => ?_⟩)
    (List.forall_mem_cons.2 ⟨hl.inContext _, List.forall_mem_singleton.2 (hr.inContext _)⟩)
  have htypes : ifFalse.type.nullable = false ∧ ifTrue.type.nullable = false := by
    simpa [case, Scalar.natural, DataType.withNullable] using htype
  refine List.forall_mem_cons.2 ⟨?_, List.forall_mem_singleton.2 ?_⟩
  · exact (congrArg DataType.nullable (catalog.type_resolveFrom _ ifTrue)).trans htypes.2
  · exact (congrArg DataType.nullable (catalog.type_resolveFrom _ ifFalse)).trans htypes.1

/-- A function is absent only where an argument is, and it is known not to look or its type says so. -/
theorem tracks_arguments {name : String} {args : List Scalar} {type : DataType}
    (mapping : Option TypeMapping) (h : ∀ a ∈ args, a.Tracks)
    (htype : overlookingFunctions.contains name = false → type.nullable = false →
      ∀ a ∈ args, a.type.nullable = false) :
    (catalog.functionWith name none args type mapping).Tracks := by
  refine .ofParts (fun hnullable => ⟨rfl, rfl, fun hname part hpart => ?_⟩) fun part hpart => ?_
  · obtain ⟨a, ha, rfl⟩ := List.mem_map.1 hpart
    exact (congrArg DataType.nullable (catalog.type_resolve a)).trans (htype hname hnullable a ha)
  · obtain ⟨a, ha, rfl⟩ := List.mem_map.1 hpart
    exact ((h a ha).resolve catalog).inContext true

/-- A function whose type looks at its last argument, and whose other arguments are never absent. -/
theorem tracks_function {name : String} {others : List Scalar} {s : Scalar} {type : DataType}
    {mapping : Option TypeMapping} (ho : ∀ a ∈ others, a.Tracks ∧ a.type.nullable = false) (h : s.Tracks)
    (htype : type.nullable = false → s.type.nullable = false) :
    (catalog.functionWith name none (others ++ [s]) type mapping).Tracks := by
  refine catalog.tracks_arguments mapping ?_ fun _ hnullable => ?_
  · exact List.forall_mem_append.2 ⟨fun a ha => (ho a ha).1, List.forall_mem_singleton.2 h⟩
  · exact List.forall_mem_append.2 ⟨fun a ha => (ho a ha).2, List.forall_mem_singleton.2 (htype hnullable)⟩

/-- A function that is known not to look at its arguments. -/
theorem tracks_overlooking {name : String} (hname : overlookingFunctions.contains name = true)
    {args : List Scalar} {type : DataType} {mapping : Option TypeMapping} (h : ∀ a ∈ args, a.Tracks) :
    (catalog.functionWith name none args type mapping).Tracks := by
  refine catalog.tracks_arguments mapping h fun hlooks => ?_
  rw [hname] at hlooks
  cases hlooks

/-- A function with the type of its first argument, whose other arguments are never absent. -/
theorem tracks_sameType {name : String} {first : Scalar} {others : List Scalar} (hf : first.Tracks)
    (ho : ∀ a ∈ others, a.Tracks ∧ a.type.nullable = false) :
    (catalog.sameTypeFunction name first others).Tracks := by
  have hargs : ∀ a ∈ first :: others, a.Tracks := List.forall_mem_cons.2 ⟨hf, fun a ha => (ho a ha).1⟩
  refine catalog.tracks_arguments _ hargs fun _ hnullable => ?_
  rw [type_resolve] at hnullable
  exact List.forall_mem_cons.2 ⟨hnullable, fun a ha => (ho a ha).2⟩

/-- A conversion, written as a cast or left out, has a type that accounts for its parts. -/
theorem tracks_cast? {s s' : Scalar} {type : DataType} (h : s.Tracks)
    (htype : type.nullable = false → s.type.nullable = false) (hs : catalog.cast? s type = some s') :
    s'.Tracks := by
  obtain ⟨m, -, rfl⟩ := Option.map_eq_some_iff.1 hs
  refine (h.resolve catalog).castTo m fun hnullable => ?_
  rw [type_resolve]
  exact htype hnullable

end Catalog

end Sql

section Functions

variable {catalog : Catalog}

/-- The position of a text in another one has a type that accounts for both. -/
theorem Positions.tracks_indexOf {subject sought : Scalar} (hs : subject.Tracks) (hp : sought.Tracks) :
    (Positions.indexOf catalog subject sought).Tracks := by
  have hposition : (Positions.position catalog
      (catalog.resolveFrom (knownMapping? [subject, sought]) subject)
      (catalog.resolveFrom (knownMapping? [subject, sought]) sought)).Tracks :=
    catalog.tracks_overlooking (by decide) (List.forall_mem_cons.2
      ⟨hs.resolveFrom catalog _, List.forall_mem_singleton.2 (hp.resolveFrom catalog _)⟩)
  exact catalog.tracks_binary .subtract hposition (Scalar.tracks_int catalog 1)

/-- A trimmed text has a type that accounts for its parts. -/
theorem Positions.tracks_trim {function : String} {subject s : Scalar} {args : List Scalar}
    (hs : subject.Tracks) (h : Positions.trim catalog function subject args = .ok (some s)) : s.Tracks := by
  have hblanks : (catalog.sameTypeFunction function subject []).Tracks :=
    catalog.tracks_sameType hs (List.forall_mem_nil _)
  unfold Positions.trim at h
  split at h
  · cases h
    exact hblanks
  · split at h
    · cases h
      exact hblanks
    · cases h
      refine catalog.tracks_sameType hs (List.forall_mem_singleton.2 ⟨?_, ?_⟩)
      · exact (Scalar.tracks_text _).withMapping _
      · exact congrArg DataType.nullable (Scalar.type_withMapping _ _)
    · cases h
  · cases h

/-- The functions on texts that count positions keep to types that account for their parts. -/
theorem positionTextFunctions_tracks : positionTextFunctions.Keeps catalog Scalar.Tracks := by
  constructor
  · intro receiver name args s hr ha h
    simp only [positionTextFunctions] at h
    split at h
    · cases h
    · split at h
      · split at h
        · cases h
          exact Scalar.tracks_of_condition rfl
        · cases h
      · rename_i subject
        have hs := hr subject rfl
        have hchanged {function : String} : (catalog.sameTypeFunction function subject []).Tracks :=
          catalog.tracks_sameType hs (List.forall_mem_nil _)
        split at h
        · cases h
          exact Positions.tracks_indexOf hs (ha _ (by simp))
        · cases h
          exact catalog.tracks_overlooking (by decide) (List.forall_mem_cons.2 ⟨hs.resolveFrom catalog _,
            List.forall_mem_cons.2 ⟨(ha _ (by simp)).resolveFrom catalog _,
              List.forall_mem_singleton.2 ((ha _ (by simp)).resolveFrom catalog _)⟩⟩)
        · cases h
          exact hchanged
        · cases h
          exact hchanged
        · rename_i start count _
          cases h
          have hstart := catalog.tracks_binary .add (ha start (by simp)) (Scalar.tracks_int catalog 1)
          exact catalog.tracks_overlooking (by decide) (List.forall_mem_cons.2 ⟨hs,
            List.forall_mem_cons.2 ⟨hstart, List.forall_mem_singleton.2 (ha count (by simp))⟩⟩)
        · exact Positions.tracks_trim hs h
        · exact Positions.tracks_trim hs h
        · exact Positions.tracks_trim hs h
        · cases h
          exact Scalar.tracks_of_condition rfl
        · cases h
          exact Scalar.tracks_of_condition rfl
        · cases h
          exact Scalar.tracks_of_condition rfl
        · cases h
  · intro receiver name s hr h
    simp only [positionTextFunctions] at h
    split at h
    · rename_i subject
      split at h
      · cases h
        exact catalog.tracks_function (List.forall_mem_nil _) (hr subject rfl) id
      · cases h
    · cases h

/-- A match with a pattern for a constant has a type that accounts for its parts. -/
theorem likeConstant_tracks {subject pattern s : Scalar} {occurrence : Occurrence}
    (h : likeConstant catalog subject pattern occurrence = .ok (some s)) : s.Tracks := by
  unfold likeConstant at h
  split at h
  · cases h
    exact catalog.tracks_like _ _ _
  · cases h

/-- The functions on texts that match patterns keep to types that account for their parts. -/
theorem patternTextFunctions_tracks (lengthFunction : String) :
    (patternTextFunctions lengthFunction).Keeps catalog Scalar.Tracks := by
  constructor
  · intro receiver name args s hr ha h
    simp only [patternTextFunctions] at h
    split at h
    · rename_i subject _
      have hs := hr subject rfl
      have hchanged {function : String} : (catalog.sameTypeFunction function subject []).Tracks :=
        catalog.tracks_sameType hs (List.forall_mem_nil _)
      split at h
      · cases h
        exact hchanged
      · cases h
        exact hchanged
      · split at h
        · rename_i old new _ _ first others hunify
          have hunified : ∀ s ∈ catalog.unify [subject, old, new], s.Tracks := by
            intro s hmem
            obtain ⟨s', hs', rfl⟩ := List.mem_map.1 hmem
            have hs' : s'.Tracks := List.forall_mem_cons.2 ⟨hs, ha⟩ s' hs'
            exact hs'.resolveFrom catalog _
          rw [hunify] at hunified
          cases h
          exact catalog.tracks_overlooking (by decide) hunified
        · cases h
      · exact likeConstant_tracks h
      · exact likeConstant_tracks h
      · exact likeConstant_tracks h
      · cases h
    · cases h
  · intro receiver name s hr h
    simp only [patternTextFunctions] at h
    split at h
    · rename_i subject
      split at h
      · cases h
        exact catalog.tracks_function (List.forall_mem_nil _) (hr subject rfl) id
      · cases h
    · cases h

/-- Conversions keep to types that account for their parts. -/
theorem conversionMethods_tracks : conversionMethods.Keeps catalog Scalar.Tracks := by
  constructor
  · intro receiver name args s hr _ h
    simp only [conversionMethods, FunctionProvider.ofMethod] at h
    split at h
    · rename_i value _
      have hvalue := (hr value rfl).resolve catalog
      split at h
      · cases h
      · split at h
        · cases h
          exact catalog.tracks_function (List.forall_mem_singleton.2 ⟨Scalar.tracks_fragment _ _, rfl⟩)
            hvalue id
        · cases h
    · cases h
  · intro receiver name s _ h
    cases h

/-- A full-text search has a type that accounts for its parts. -/
theorem fullTextSearch_tracks {function : String} (hname : isSearch function = true)
    {name : QualifiedName} {property sought s : Scalar} {language : Option Scalar}
    (hproperty : property.Tracks) (hsought : sought.Tracks)
    (h : fullTextSearch catalog function name property sought language = .ok (some s)) : s.Tracks := by
  have hoverlooking : overlookingFunctions.contains function = true :=
    List.contains_iff_mem.2 (List.mem_append_right _ (List.contains_iff_mem.1 hname))
  have hsearch : ∀ terms : List Scalar, (∀ t ∈ terms, t.Tracks) →
      (catalog.functionWith function none
        (property :: catalog.resolveFrom property.mapping sought :: terms) .bool
        catalog.boolMapping?).Tracks := by
    intro terms hterms
    exact catalog.tracks_overlooking hoverlooking (List.forall_mem_cons.2 ⟨hproperty,
      List.forall_mem_cons.2 ⟨hsought.resolveFrom catalog property.mapping, hterms⟩⟩)
  unfold fullTextSearch at h
  split at h
  · cases h
  · split at h
    · cases h
      exact (hsearch [] (List.forall_mem_nil _)).ofNode rfl id
    · split at h
      · rename_i term hterm
        cases h
        refine (hsearch [term] (List.forall_mem_singleton.2 ?_)).ofNode rfl id
        unfold languageTerm? at hterm
        split at hterm <;> cases hterm
        exact Scalar.tracks_fragment _ _
      · cases h

/-- The methods for full-text search keep to types that account for their parts. -/
theorem fullTextMethods_tracks : fullTextMethods.Keeps catalog Scalar.Tracks := by
  constructor
  · intro receiver name args s _ ha h
    simp only [fullTextMethods, FunctionProvider.ofMethod] at h
    split at h
    · cases h
    · split at h
      · exact fullTextSearch_tracks (Composed.isSearch_of_lookup ‹_›) (ha _ (by simp)) (ha _ (by simp)) h
      · exact fullTextSearch_tracks (Composed.isSearch_of_lookup ‹_›) (ha _ (by simp)) (ha _ (by simp)) h
      · cases h
  · intro receiver name s _ h
    cases h

/-- The parts of a date have types that account for the date. -/
theorem datePartMembers_tracks : datePartMembers.Keeps catalog Scalar.Tracks := by
  constructor
  · intro receiver name args s _ _ h
    cases h
  · intro receiver name s hr h
    have hnow {function : String} : (catalog.function function [] (.of .dateTime)).Tracks :=
      catalog.tracks_arguments _ (List.forall_mem_nil _) fun _ _ => List.forall_mem_nil _
    simp only [datePartMembers, FunctionProvider.ofMember] at h
    split at h
    · cases h
    · split at h
      · split at h
        · cases h
          exact hnow
        · cases h
          exact hnow
        · cases h
      · rename_i date
        split at h
        · cases h
          exact catalog.tracks_function (List.forall_mem_singleton.2 ⟨Scalar.tracks_fragment _ _, rfl⟩)
            (hr date rfl) id
        · cases h

/-- The formatted current time has a type that accounts for its parts. -/
theorem formattedNow_tracks (modifiers : List String) : (formattedNow catalog modifiers).Tracks := by
  refine catalog.tracks_overlooking (by decide) (List.forall_mem_cons.2 ⟨Scalar.tracks_text _, ?_⟩)
  intro s hs
  obtain ⟨modifier, -, rfl⟩ := List.mem_map.1 hs
  exact Scalar.tracks_text modifier

/-- The parts of a date that are cut out of its text have types that account for the date. -/
theorem formattedDateMembers_tracks : formattedDateMembers.Keeps catalog Scalar.Tracks := by
  constructor
  · intro receiver name args s _ _ h
    cases h
  · intro receiver name s hr h
    simp only [formattedDateMembers, FunctionProvider.ofMember] at h
    split at h
    · cases h
    · split at h
      · split at h
        · cases h
          exact formattedNow_tracks _
        · cases h
          exact formattedNow_tracks _
        · cases h
      · rename_i date
        split at h
        · rename_i format _
          -- the part that is cut out has a type of its own, which does not look at the date
          have hpart : (catalog.function "strftime" [.text format, date] .text).Tracks :=
            catalog.tracks_overlooking (by decide) (List.forall_mem_cons.2
              ⟨Scalar.tracks_text _, List.forall_mem_singleton.2 (hr date rfl)⟩)
          exact catalog.tracks_cast? hpart (fun _ => rfl) (Except.ok.inj h)
        · cases h

/-- The methods of geometries keep to types that account for their parts. -/
theorem collectionMethods_tracks : collectionMethods.Keeps catalog Scalar.Tracks := by
  constructor
  · intro receiver name args s hr ha h
    simp only [collectionMethods, FunctionProvider.ofMethod] at h
    split at h
    · rename_i collection index
      split at h
      · cases h
        have hindex := catalog.tracks_binary .add (ha index (by simp)) (Scalar.tracks_int catalog 1)
        have hargs := List.forall_mem_cons.2 ⟨hr collection rfl, List.forall_mem_singleton.2 hindex⟩
        exact catalog.tracks_arguments _ hargs fun _ hnullable => by cases hnullable
      · cases h
    · cases h
  · intro receiver name s _ h
    cases h

/-- The members of lines keep to types that account for their parts. -/
theorem lineMembers_tracks : lineMembers.Keeps catalog Scalar.Tracks := by
  constructor
  · intro receiver name args s _ _ h
    cases h
  · intro receiver name s hr h
    simp only [lineMembers, FunctionProvider.ofMember] at h
    split at h
    · rename_i line
      split at h
      · cases h
        exact catalog.tracks_function (List.forall_mem_nil _) (hr line rfl).withoutCast id
      · cases h
    · cases h

/-- The functions of a dialect know where their results may be absent, up to those that overlook arguments. -/
theorem ofDialect_tracks (dialect : Dialect) :
    (FunctionRegistry.ofDialect dialect).Keep catalog Scalar.Tracks := by
  have hpattern := @patternTextFunctions_tracks catalog
  have hall : ∀ p ∈ builtInProviders dialect, p.Keeps catalog Scalar.Tracks := by
    cases dialect with
    | generic => simpa [builtInProviders] using hpattern "CHAR_LENGTH"
    | postgres => simpa [builtInProviders] using hpattern "LENGTH"
    | msSql =>
      simpa [builtInProviders] using ⟨hpattern "LEN", conversionMethods_tracks, fullTextMethods_tracks,
        datePartMembers_tracks⟩
    | sqlite =>
      simpa [builtInProviders] using ⟨positionTextFunctions_tracks, formattedDateMembers_tracks,
        collectionMethods_tracks, lineMembers_tracks⟩
  exact hall

end Functions

/-- A conversion leads to a type that admits absence. -/
def Expr.widens : Expr → Bool
  | .convert _ type => type.nullable
  | _ => true

section Bodies

variable {scope : Scope} (hf : scope.functions.Keep scope.catalog Scalar.Tracks)
  (hd : ∀ s ∈ scope.draft.shape.scalars, s.Tracks)
include hf hd

/-- Without conversions to types that admit no absence, the rules make types that account for their parts. -/
theorem Lowered.rules_tracks : Lowered.Rules scope Expr.widens fun _ s => s.Tracks where
  constant {value} _ := by
    refine Scalar.tracks_constant fun htype => ?_
    rwa [Literal.nullable_type] at htype
  null {type} hnullable := by
    refine Scalar.tracks_constant fun htype => ?_
    rw [hnullable] at htype
    cases htype
  parameter _ := Scalar.tracks_parameter _ _
  draft _ := hd _
  shapeMember _ _ h := h
  member hp _ hr h := (hf _ hp).member (fun v hv => (hr v hv).elim fun _ h => h.2) h
  isNull _ := scope.catalog.tracks_isNull _ _
  binary _ _ _ := scope.catalog.tracks_binary _
  not _ := scope.catalog.tracks_not _
  negate := Scalar.Tracks.negated
  method hp _ hr hargs h := (hf _ hp).method (fun v hv => (hr v hv).elim fun _ h => h.2)
    (fun a ha => (hargs a ha).elim fun _ h => h.2) h
  conditional _ := scope.catalog.tracks_case
  convert {operand type value s} hwidens ho h := by
    have hnullable {b : Bool} (h : type.nullable = false) : b = false := by
      rw [show type.nullable = true from hwidens] at h
      cases h
    unfold convertScalar at h
    split at h
    · cases h
      exact ho.ofNode rfl hnullable
    · exact scope.catalog.tracks_cast? ho hnullable h

/-- The type of a scalar that a body becomes accounts for its parts. -/
theorem Lowered.tracks {e : Expr} {s : Scalar} (h : Lowered scope e s)
    (he : e.everywhere Expr.widens = true) : s.Tracks := h.ofRules (rules_tracks hf hd) he

/-- A body that converts only to types that admit absence becomes a scalar whose type accounts for its parts. -/
theorem tracks_lowerIn {e : Expr} (he : e.everywhere Expr.widens = true) {asValue : Bool} {s : Scalar}
    (hs : scope.lowerIn e asValue = .ok (some s)) : s.Tracks := by
  obtain ⟨s', hs', rfl⟩ := Scope.lowerIn_eq_some hs
  exact ((hs'.tracks hf hd he).resolve scope.catalog).inContext asValue

end Bodies

/-- A body converts only to such types, too, when a shaper takes the place of its parameter. -/
theorem Expr.widens_inline {f : Lambda} {argument : Expr} (hbody : f.body.everywhere Expr.widens = true)
    (harg : argument.everywhere Expr.isShaperForm = true) :
    (f.inline argument).everywhere Expr.widens = true := by
  have hshaper : argument.everywhere Expr.widens = true := by
    refine Expr.everywhere_imp (fun e he => ?_) harg
    have hform := Expr.everywhere_self he
    cases e with
    | convert _ _ => cases hform
    | _ => rfl
  refine Expr.everywhere_inline (fun _ e he hne => ?_) (fun _ => rfl) hbody hshaper
  cases e with
  | param name => exact absurd rfl (hne name)
  | convert _ _ => exact he
  | _ => rfl

namespace Environment

variable {env : Environment}

/-- A cast of the environment has the type asked for, and this accounts for its parts. -/
theorem tracks_cast {s s' : Scalar} {type : DataType} (hs : env.cast s type = .ok s') (h : s.Tracks)
    (htype : type.nullable = false → s.type.nullable = false) :
    s'.Tracks ∧ s'.type = type := by
  unfold Environment.cast at hs
  split at hs <;> cases hs
  rename_i hcast
  refine ⟨env.catalog.tracks_cast? h htype hcast, ?_⟩
  obtain ⟨m, -, rfl⟩ := Option.map_eq_some_iff.1 hcast
  rfl

/-- An aggregate has a type that accounts for its input. -/
theorem tracks_aggregateOf {function : String} {input s : Scalar} (h : input.Tracks)
    (hs : env.aggregateOf function input = .ok s) : s.Tracks := by
  unfold aggregateOf at hs
  split at hs
  · obtain ⟨value, hvalue, hs⟩ := bind_eq_ok.1 hs
    obtain ⟨hvalue, htype⟩ := tracks_cast hvalue h id
    have htotal : (env.catalog.function function [value]
        (DataType.float64.withNullable input.type.nullable)).Tracks :=
      env.catalog.tracks_function (List.forall_mem_nil _) hvalue fun hnullable => by rw [htype, hnullable]
    exact (tracks_cast hs htotal id).1
  · cases hs
    exact env.catalog.tracks_function (List.forall_mem_nil _) h id

/-- A value computed from a scalar of all rows is absent only where the scalar is, by its type. -/
theorem IsAggregate.tracks {compute : Scalar → Except Diagnostic Scalar} (hcompute : env.IsAggregate compute)
    {input s : Scalar} (h : input.Tracks) (hs : compute input = .ok s) : s.Tracks := by
  obtain ⟨function, -, rfl | rfl | rfl⟩ := hcompute
  · exact tracks_aggregateOf h hs
  · unfold averageOf at hs
    split at hs
    · obtain ⟨value, hvalue, hs⟩ := bind_eq_ok.1 hs
      obtain ⟨hvalue, htype⟩ := tracks_cast hvalue h id
      cases hs
      refine env.catalog.tracks_function (List.forall_mem_nil _) hvalue fun hnullable => ?_
      rw [htype, hnullable]
    · exact tracks_aggregateOf h hs
  · cases hs
    exact env.catalog.tracks_function (List.forall_mem_nil _) h id

/-- Operators keep to scalars whose types account for their parts. -/
theorem nests_tracks (hf : env.functions.Keep env.catalog Scalar.Tracks) :
    env.Nests (·.everywhere Expr.widens = true) (·.shaper.everywhere Expr.isShaperForm = true)
      Scalar.Tracks fun _ => True where
  start _ := rfl
  property _ _ _ := Scalar.tracks_column _ _ _ _
  step h hstep := hstep.shaper_forms h
  nested _ _ _ _ _ := trivial
  inContext asValue h := h.inContext asValue
  conjunction _ _ := Scalar.tracks_of_condition rfl
  not _ := env.catalog.tracks_not _
  int := Scalar.tracks_int env.catalog
  column _ name := Scalar.tracks_column _ name _ _
  rowTotal _ type := env.catalog.tracks_function (List.forall_mem_nil _) (Scalar.tracks_fragment "*" type) id
  aggregate hcompute hinput h := hcompute.tracks (hinput.resolve env.catalog) h
  existence negated _ := env.catalog.tracks_existsIn _ negated
  body hq hd hbody hs := tracks_lowerIn hf hd (Expr.widens_inline hbody hq) hs
  selector hq hd hbody hbound := (Scope.bind_bound _ _ _ _ hbound).keeps (fun _ => rfl)
    (fun _ _ he hs => tracks_lowerIn hf hd he hs) hd (Expr.widens_inline hbody hq)
  count _ hd he hs := tracks_lowerIn hf hd he hs
  subquery _ _ := trivial
  question _ _ := trivial

end Environment

end QueryPipeline
