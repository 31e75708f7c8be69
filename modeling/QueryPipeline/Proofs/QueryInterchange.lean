import QueryPipeline.Interchange.Query
import QueryPipeline.Proofs.ExprInterchange

/-!
# Interchange of pipelines without loss

Every operator is read from its interchange form by a reader that reads the pipelines in it, and a pipeline is read
from its form by a reader with fuel for all arrays and objects that stand around its operators. With the forms of
expressions, types and models this gives the law of the whole format: whatever is written to a text is what is read
from the text.
-/

set_option autoImplicit false

namespace QueryPipeline

mutual

/-- All constants in the functions and pipelines of an operator are portable. -/
def Operator.isPortable : Operator → Bool
  | .filter f | .select f | .all f | .selectMany f | .skipWhile f | .takeWhile f => f.isPortable
  | .orderBy key _ | .thenBy key _ => key.isPortable
  | .skip e | .take e | .elementAt e _ | .contains e => e.isPortable
  | .distinct | .reverse | .cast _ | .ofType _ => true
  | .any f | .count f | .longCount f | .sum f | .average f | .min f | .max f => f.all Lambda.isPortable
  | .first f _ | .last f _ | .single f _ => f.all Lambda.isPortable
  | .defaultIfEmpty value => value.all Expr.isPortable
  | .concat other | .union other | .intersect other | .except other | .zip other => other.isPortable
  | .groupBy key element => key.isPortable && element.all Lambda.isPortable
  | .join inner outerKey innerKey result | .groupJoin inner outerKey innerKey result =>
    inner.isPortable && outerKey.isPortable && innerKey.isPortable && result.isPortable

/-- All constants in a pipeline are portable. -/
def Query.isPortable : Query → Bool
  | ⟨_, operators⟩ => operatorsPortable operators

/-- All constants in some operators are portable. -/
def operatorsPortable : List Operator → Bool
  | [] => true
  | op :: rest => op.isPortable && operatorsPortable rest

end

section Arguments

/-- A lambda that may be missing is read back from its interchange form. -/
theorem optionalLambda?_optionalLambda {f : Option Lambda} (h : f.all Lambda.isPortable = true) :
    optionalLambda? (optionalLambda f) = some f :=
  Json.toOption?_ofOption Lambda.toJson_ne_null fun g hg => by
    rw [Option.mem_def] at hg
    rw [hg] at h
    exact Lambda.ofJson?_toJson h

/-- The interchange form of a lambda that may be missing has plain numbers only. -/
theorem optionalLambda_plain (f : Option Lambda) : (optionalLambda f).HasPlainNumbers := by
  cases f with
  | none => trivial
  | some f => exact f.toJson_plain

/-- An expression that may be missing is read back from its interchange form. -/
theorem toOption?_ofOption_expr {value : Option Expr} (h : value.all Expr.isPortable = true) :
    Json.toOption? Expr.ofJson? (Json.ofOption Expr.toJson value) = some value :=
  Json.toOption?_ofOption Expr.toJson_ne_null fun e he => by
    rw [Option.mem_def] at he
    rw [he] at h
    exact Expr.ofJson?_toJson h

/-- A key and its direction are read back from their interchange form. -/
theorem readKey_form {key : Lambda} (descending : Bool) (h : key.isPortable = true) :
    readKey (.object [("key", key.toJson), ("descending", .bool descending)]) = some (key, descending) := by
  simp [readKey, Json.Record.required?, Json.Record.withDefault?, List.lookup_cons, Lambda.ofJson?_toJson h]

/-- The predicate for a single row and what stands for no row are read back from their interchange form. -/
theorem readRow_form {predicate : Option Lambda} (orDefault : Bool) (h : predicate.all Lambda.isPortable = true) :
    readRow (.object [("predicate", optionalLambda predicate), ("or_default", .bool orDefault)]) =
      some (predicate, orDefault) := by
  have hpredicate : Json.toOption? Lambda.ofJson? (optionalLambda predicate) = some predicate :=
    optionalLambda?_optionalLambda h
  simp [readRow, Json.Record.optional?, Json.Record.withDefault?, List.lookup_cons, hpredicate]

/-- A join is read back from its interchange form when its inner pipeline is. -/
theorem readJoin_form {query : Json.Decoder Query} {inner : Query} {outerKey innerKey result : Lambda}
    (hinner : query inner.toJson = some inner) (houter : outerKey.isPortable = true)
    (hkey : innerKey.isPortable = true) (hresult : result.isPortable = true) :
    readJoin query (.object [("inner", inner.toJson), ("outer_key", outerKey.toJson),
      ("inner_key", innerKey.toJson), ("result", result.toJson)]) = some ⟨inner, outerKey, innerKey, result⟩ := by
  simp [readJoin, Json.Record.required?, List.lookup_cons, hinner, Lambda.ofJson?_toJson houter,
    Lambda.ofJson?_toJson hkey, Lambda.ofJson?_toJson hresult]

end Arguments

namespace Operator

variable {query : Json.Decoder Query}

/-- The content of a choice is nested less deeply than the choice. -/
theorem depth_lt_case (family : String) (content : Json) : content.depth < (Json.case family content).depth := by
  simp only [Json.case, Json.depth, Json.membersDepth]
  omega

/-- The inner pipeline of a join is nested less deeply than the join. -/
theorem depth_lt_joinToJson (family : String) (inner : Json) (outerKey innerKey result : Lambda) :
    inner.depth < (joinToJson family inner outerKey innerKey result).depth := by
  simp only [joinToJson, Json.case, Json.depth, Json.membersDepth]
  omega

/-- An operator is read from its form when what it takes is read from the content of the form. -/
theorem readWith_of_content {α : Type} {op : Operator} {content : Json} {a : α} (decoder : Json.Decoder α)
    (make : α → Operator) (hread : readWith query op.toJson = (decoder content).bind fun a => some (make a))
    (hmake : make a = op) (h : decoder content = some a) : readWith query op.toJson = some op := by
  rw [hread, h, Option.bind_some, hmake]

/-- The row at an index is read back from its interchange form. -/
theorem readWith_elementAt {index : Expr} (orDefault : Bool) (h : index.isPortable = true) :
    readWith query (elementAt index orDefault).toJson = some (elementAt index orDefault) := by
  show readContent query "ElementAt" (.object [("index", index.toJson), ("or_default", .bool orDefault)]) = _
  simp [readContent, Json.Record.required?, Json.Record.withDefault?, List.lookup_cons, Expr.ofJson?_toJson h]

/-- A grouping is read back from its interchange form. -/
theorem readWith_groupBy {key : Lambda} {element : Option Lambda} (hkey : key.isPortable = true)
    (helement : element.all Lambda.isPortable = true) :
    readWith query (groupBy key element).toJson = some (groupBy key element) := by
  have hread : Json.toOption? Lambda.ofJson? (optionalLambda element) = some element :=
    optionalLambda?_optionalLambda helement
  show readContent query "GroupBy" (.object [("key", key.toJson), ("element", optionalLambda element)]) = _
  simp [readContent, Json.Record.required?, Json.Record.optional?, List.lookup_cons, Lambda.ofJson?_toJson hkey,
    hread]

/-- A portable operator is read from its form when the pipelines in it are. -/
theorem readWith_toJson {op : Operator} (h : op.isPortable = true)
    (hquery : ∀ q : Query, q.isPortable = true → q.toJson.depth < op.toJson.depth → query q.toJson = some q) :
    readWith query op.toJson = some op := by
  cases op with
  | distinct => rfl
  | reverse => rfl
  | filter f => exact readWith_of_content Lambda.ofJson? filter rfl rfl (Lambda.ofJson?_toJson h)
  | select f => exact readWith_of_content Lambda.ofJson? select rfl rfl (Lambda.ofJson?_toJson h)
  | all f => exact readWith_of_content Lambda.ofJson? all rfl rfl (Lambda.ofJson?_toJson h)
  | selectMany f => exact readWith_of_content Lambda.ofJson? selectMany rfl rfl (Lambda.ofJson?_toJson h)
  | skipWhile f => exact readWith_of_content Lambda.ofJson? skipWhile rfl rfl (Lambda.ofJson?_toJson h)
  | takeWhile f => exact readWith_of_content Lambda.ofJson? takeWhile rfl rfl (Lambda.ofJson?_toJson h)
  | orderBy key descending =>
    exact readWith_of_content readKey (fun p => orderBy p.1 p.2) rfl rfl (readKey_form descending h)
  | thenBy key descending =>
    exact readWith_of_content readKey (fun p => thenBy p.1 p.2) rfl rfl (readKey_form descending h)
  | skip count => exact readWith_of_content Expr.ofJson? skip rfl rfl (Expr.ofJson?_toJson h)
  | take count => exact readWith_of_content Expr.ofJson? take rfl rfl (Expr.ofJson?_toJson h)
  | any f => exact readWith_of_content optionalLambda? any rfl rfl (optionalLambda?_optionalLambda h)
  | count f => exact readWith_of_content optionalLambda? count rfl rfl (optionalLambda?_optionalLambda h)
  | longCount f => exact readWith_of_content optionalLambda? longCount rfl rfl (optionalLambda?_optionalLambda h)
  | sum f => exact readWith_of_content optionalLambda? sum rfl rfl (optionalLambda?_optionalLambda h)
  | average f => exact readWith_of_content optionalLambda? average rfl rfl (optionalLambda?_optionalLambda h)
  | min f => exact readWith_of_content optionalLambda? min rfl rfl (optionalLambda?_optionalLambda h)
  | max f => exact readWith_of_content optionalLambda? max rfl rfl (optionalLambda?_optionalLambda h)
  | first f orDefault =>
    exact readWith_of_content readRow (fun p => first p.1 p.2) rfl rfl (readRow_form orDefault h)
  | last f orDefault =>
    exact readWith_of_content readRow (fun p => last p.1 p.2) rfl rfl (readRow_form orDefault h)
  | single f orDefault =>
    exact readWith_of_content readRow (fun p => single p.1 p.2) rfl rfl (readRow_form orDefault h)
  | elementAt index orDefault => exact readWith_elementAt orDefault h
  | cast type => exact readWith_of_content DataType.ofJson? cast rfl rfl type.ofJson?_toJson
  | ofType type => exact readWith_of_content DataType.ofJson? ofType rfl rfl type.ofJson?_toJson
  | contains item => exact readWith_of_content Expr.ofJson? contains rfl rfl (Expr.ofJson?_toJson h)
  | defaultIfEmpty value =>
    exact readWith_of_content (Json.toOption? Expr.ofJson?) defaultIfEmpty rfl rfl (toOption?_ofOption_expr h)
  | concat other => exact readWith_of_content query concat rfl rfl (hquery other h (depth_lt_case _ _))
  | union other => exact readWith_of_content query union rfl rfl (hquery other h (depth_lt_case _ _))
  | intersect other => exact readWith_of_content query intersect rfl rfl (hquery other h (depth_lt_case _ _))
  | except other => exact readWith_of_content query except rfl rfl (hquery other h (depth_lt_case _ _))
  | zip other => exact readWith_of_content query zip rfl rfl (hquery other h (depth_lt_case _ _))
  | groupBy key element =>
    simp only [isPortable, Bool.and_eq_true] at h
    exact readWith_groupBy h.1 h.2
  | join inner outerKey innerKey result =>
    simp only [isPortable, Bool.and_eq_true] at h
    have hinner := hquery inner h.1.1.1 (depth_lt_joinToJson _ _ _ _ _)
    exact readWith_of_content (readJoin query) (fun args => join args.inner args.outerKey args.innerKey args.result)
      rfl rfl (readJoin_form hinner h.1.1.2 h.1.2 h.2)
  | groupJoin inner outerKey innerKey result =>
    simp only [isPortable, Bool.and_eq_true] at h
    have hinner := hquery inner h.1.1.1 (depth_lt_joinToJson _ _ _ _ _)
    exact readWith_of_content (readJoin query)
      (fun args => groupJoin args.inner args.outerKey args.innerKey args.result)
      rfl rfl (readJoin_form hinner h.1.1.2 h.1.2 h.2)

end Operator

namespace Query

/-- The operators of a pipeline are read from their forms by a reader that reads the pipelines in them. -/
theorem mapM_operatorsToJson {query : Json.Decoder Query} {n : Nat}
    (hquery : ∀ q : Query, q.isPortable = true → q.toJson.depth < n → query q.toJson = some q)
    {operators : List Operator} (h : operatorsPortable operators = true)
    (hdepth : Json.itemsDepth (operatorsToJson operators) ≤ n) :
    (operatorsToJson operators).mapM (Operator.readWith query) = some operators := by
  induction operators with
  | nil => rfl
  | cons op rest ih =>
    simp only [operatorsPortable, Bool.and_eq_true] at h
    simp only [operatorsToJson, Json.itemsDepth, Nat.max_le] at hdepth
    have hop := Operator.readWith_toJson h.1 fun q hq hlt => hquery q hq (by omega)
    simp [operatorsToJson, hop, ih h.2 hdepth.2]

/-- A portable pipeline is read from its form by a reader that goes deep enough. -/
theorem read_toJson {q : Query} {fuel : Nat} (h : q.isPortable = true) (hdepth : q.toJson.depth < fuel) :
    read fuel q.toJson = some q := by
  -- The pipelines in an operator stand deeper than the operator, so they leave the reader less fuel.
  induction fuel generalizing q with
  | zero => omega
  | succ fuel ih =>
    obtain ⟨source, operators⟩ := q
    simp only [toJson, Json.depth, Json.membersDepth] at hdepth
    have hoperators := mapM_operatorsToJson (fun _ hq hlt => ih hq hlt) h (by omega)
    simp [toJson, read, Json.Record.required?, Json.Record.withDefault?, List.lookup_cons, Json.toList?, hoperators]

/-- A portable pipeline is read back from its interchange form. -/
theorem ofJson?_toJson {q : Query} (h : q.isPortable = true) : Query.ofJson? q.toJson = some q :=
  read_toJson h (Nat.lt_succ_self _)

end Query

mutual

/-- All numbers of an operator's form have digits as the format has them. -/
theorem Operator.toJson_plain : ∀ op : Operator, op.toJson.HasPlainNumbers
  | .distinct | .reverse => trivial
  | .filter f | .select f | .all f | .selectMany f | .skipWhile f | .takeWhile f => ⟨f.toJson_plain, trivial⟩
  | .orderBy key _ | .thenBy key _ => ⟨⟨key.toJson_plain, trivial, trivial⟩, trivial⟩
  | .skip e | .take e | .contains e => ⟨e.toJson_plain, trivial⟩
  | .elementAt e _ => ⟨⟨e.toJson_plain, trivial, trivial⟩, trivial⟩
  | .any f | .count f | .longCount f | .sum f | .average f | .min f | .max f => ⟨optionalLambda_plain f, trivial⟩
  | .first f _ | .last f _ | .single f _ => ⟨⟨optionalLambda_plain f, trivial, trivial⟩, trivial⟩
  | .cast type | .ofType type => ⟨type.toJson_plain, trivial⟩
  | .defaultIfEmpty none => ⟨trivial, trivial⟩
  | .defaultIfEmpty (some e) => ⟨e.toJson_plain, trivial⟩
  | .concat other | .union other | .intersect other | .except other | .zip other =>
    ⟨other.toJson_plain, trivial⟩
  | .groupBy key element => ⟨⟨key.toJson_plain, optionalLambda_plain element, trivial⟩, trivial⟩
  | .join inner outerKey innerKey result | .groupJoin inner outerKey innerKey result =>
    ⟨⟨inner.toJson_plain, outerKey.toJson_plain, innerKey.toJson_plain, result.toJson_plain, trivial⟩, trivial⟩

/-- The interchange form of a pipeline has plain numbers only. -/
theorem Query.toJson_plain : ∀ q : Query, q.toJson.HasPlainNumbers
  | ⟨_, operators⟩ => ⟨trivial, operatorsToJson_plain operators, trivial⟩

/-- The interchange forms of operators have plain numbers only. -/
theorem operatorsToJson_plain : ∀ operators : List Operator, Json.PlainItems (operatorsToJson operators)
  | [] => trivial
  | op :: rest => ⟨op.toJson_plain, operatorsToJson_plain rest⟩

end

/-- A portable operator is read from its text, unless it is nested too deeply for the format. -/
theorem Operator.decode?_text {op : Operator} (h : op.isPortable = true)
    (hdepth : op.toJson.depth ≤ Json.depthLimit) : Json.decode? Operator.ofJson? op.toJson.text = some op :=
  Json.decode?_text op.toJson_plain hdepth (Operator.readWith_toJson h fun _ hq _ => Query.ofJson?_toJson hq)

/-- A portable pipeline is read from its text, unless it is nested too deeply for the format. -/
theorem Query.decode?_text {q : Query} (h : q.isPortable = true) (hdepth : q.toJson.depth ≤ Json.depthLimit) :
    Json.decode? Query.ofJson? q.toJson.text = some q :=
  Json.decode?_text q.toJson_plain hdepth (Query.ofJson?_toJson h)

/-- The format loses nothing. Whatever is built from pipelines, operators, functions, expressions and literals is
read from its text when its constants are portable and its arrays and objects are not nested too deeply; types and
models always are. -/
theorem interchange_loses_nothing :
    (∀ q : Query, q.isPortable = true → q.toJson.depth ≤ Json.depthLimit →
      Json.decode? Query.ofJson? q.toJson.text = some q) ∧
    (∀ op : Operator, op.isPortable = true → op.toJson.depth ≤ Json.depthLimit →
      Json.decode? Operator.ofJson? op.toJson.text = some op) ∧
    (∀ f : Lambda, f.isPortable = true → f.toJson.depth ≤ Json.depthLimit →
      Json.decode? Lambda.ofJson? f.toJson.text = some f) ∧
    (∀ e : Expr, e.isPortable = true → e.toJson.depth ≤ Json.depthLimit →
      Json.decode? Expr.ofJson? e.toJson.text = some e) ∧
    (∀ l : Literal, l.isPortable = true → l.toJson.depth ≤ Json.depthLimit →
      Json.decode? Literal.ofJson? l.toJson.text = some l) ∧
    (∀ type : DataType, Json.decode? DataType.ofJson? type.toJson.text = some type) ∧
    ∀ m : Model, Json.decode? Model.ofJson? m.toJson.text = some m :=
  ⟨fun _ => Query.decode?_text, fun _ => Operator.decode?_text, fun _ => Lambda.decode?_text,
    fun _ => Expr.decode?_text, fun _ => Literal.decode?_text, DataType.decode?_text, Model.decode?_text⟩

/-- A pipeline with another one in it, a double, a day, a member without a name and one without a receiver, an
operator without its function and a default that is null. -/
def recentTotals : Query :=
  ⟨"Order",
    [.filter ⟨"o", .binary .gt (.access (.param "o") "Total") (.constant (.float ⟨0x3fb999999999999a⟩))⟩,
      .concat ⟨"Archive", [.filter ⟨"a", .binary .gte (.access (.param "a") "Placed")
        (.constant (.date ⟨2024, 2, 29, rfl⟩))⟩, .any none]⟩,
      .select ⟨"o", .shape [⟨none, .param "o"⟩, ⟨some "Read", .member none (.plain "Now")⟩]⟩,
      .defaultIfEmpty (some (.constant .null))]⟩

/-- The totals of recent orders lose nothing on the way through the text. -/
theorem recentTotals_loses_nothing : recentTotals.isPortable = true ∧
    recentTotals.toJson.depth ≤ Json.depthLimit ∧
    Json.decode? Query.ofJson? recentTotals.toJson.text = some recentTotals := by
  have hportable : recentTotals.isPortable = true := by decide +kernel
  have hdepth : recentTotals.toJson.depth ≤ Json.depthLimit := by decide +kernel
  exact ⟨hportable, hdepth, interchange_loses_nothing.1 recentTotals hportable hdepth⟩

end QueryPipeline
