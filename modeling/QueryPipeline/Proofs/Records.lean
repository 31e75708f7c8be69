import Mathlib.Data.List.Nodup
import QueryPipeline.Interchange.Model
import QueryPipeline.Proofs.JsonTexts

/-!
# Records and choices in interchange values

A record is read from an object whose members have names of their own, whatever fields are left out. Types, names
and models are read from their interchange forms, and none of these forms is nested too deeply for the format.
-/

set_option autoImplicit false

namespace QueryPipeline

namespace Json

section Depths

/-- Items are nested no more deeply than a level when each of them is. -/
theorem itemsDepth_le_iff {items : List Json} {n : Nat} :
    itemsDepth items ≤ n ↔ ∀ j ∈ items, j.depth ≤ n := by
  induction items with
  | nil => simp [itemsDepth]
  | cons item items ih => simp [itemsDepth, ih]

/-- Items have plain numbers when each of them has. -/
theorem plainItems_iff {items : List Json} : PlainItems items ↔ ∀ j ∈ items, j.HasPlainNumbers := by
  induction items with
  | nil => simp [PlainItems]
  | cons item items ih => simp [PlainItems, ih]

/-- What is read from a value that is not nested too deeply is read from its text. -/
theorem decode?_text {α : Type} {decoder : Decoder α} {j : Json} {a : α} (hplain : j.HasPlainNumbers)
    (hdepth : j.depth ≤ depthLimit) (hread : decoder j = some a) : decode? decoder j.text = some a := by
  simp [decode?, parse?_text hplain, interpret?, hdepth, hread]

end Depths

section Decoders

variable {α : Type} {encode : α → Json} {decoder : Decoder α}

/-- A text is read as itself. -/
@[simp] theorem toString?_string (s : String) : (string s).toString? = some s := rfl

/-- A truth value is read as itself. -/
@[simp] theorem toBool?_bool (b : Bool) : (bool b).toBool? = some b := rfl

/-- A name is read as a choice without a content. -/
@[simp] theorem toCase?_string (name : String) : (string name).toCase? = some ⟨name, none⟩ := rfl

/-- A choice with a content is read as itself. -/
@[simp] theorem toCase?_case (name : String) (content : Json) :
    (case name content).toCase? = some ⟨name, some content⟩ := rfl

/-- Items are read back one by one. -/
theorem mapM_map {as : List α} (h : ∀ a ∈ as, decoder (encode a) = some a) :
    (as.map encode).mapM decoder = some as := by
  induction as with
  | nil => rfl
  | cons a as ih =>
    obtain ⟨ha, has⟩ := List.forall_mem_cons.1 h
    simp [ha, ih has]

/-- A list is read back when each of its items is. -/
theorem toList?_ofList {as : List α} (h : ∀ a ∈ as, decoder (encode a) = some a) :
    toList? decoder (ofList encode as) = some as := mapM_map h

/-- A list of texts is read back. -/
@[simp] theorem toList?_ofStrings (ss : List String) : toList? toString? (ofStrings ss) = some ss :=
  toList?_ofList fun _ _ => rfl

/-- Only null stands for the absence of a value. -/
theorem toOption?_of_ne_null {j : Json} (hj : j ≠ null) : toOption? decoder j = (decoder j).map some := by
  cases j with
  | null => exact absurd rfl hj
  | _ => rfl

/-- A value that may be missing is read back when it is never written as null. -/
theorem toOption?_ofOption {o : Option α} (hne : ∀ a, encode a ≠ null)
    (h : ∀ a ∈ o, decoder (encode a) = some a) : toOption? decoder (ofOption encode o) = some o := by
  cases o with
  | none => rfl
  | some a => rw [ofOption, toOption?_of_ne_null (hne a), h a rfl, Option.map_some]

/-- The first member with a name is the one that is looked up. -/
theorem head?_named (members : List (String × Json)) (name : String) :
    (named members name).head? = members.lookup name := by
  induction members with
  | nil => rfl
  | cons member members ih =>
    obtain ⟨other, value⟩ := member
    by_cases hname : other = name
    · simp [named, hname]
    · have hother : (name == other) = false := by
        rw [beq_eq_false_iff_ne]
        exact fun h => hname h.symm
      simpa [named, hname, List.lookup_cons, hother] using ih

/-- Among members with names of their own at most one has a name. -/
theorem length_named_le {members : List (String × Json)} (h : (members.map Prod.fst).Nodup) (name : String) :
    (named members name).length ≤ 1 := by
  -- The members with a name are as many as the name occurs among all names.
  have hcount : (named members name).length = (members.map Prod.fst).count name := by
    rw [named, List.length_map, List.count, List.countP_map, ← List.countP_eq_length_filter]
    rfl
  rw [hcount]
  exact List.nodup_iff_count_le_one.1 h name

/-- The fields of an object whose members have names of their own are its members. -/
@[simp] theorem toRecord?_object {fields : List String} {members : List (String × Json)}
    (h : (members.map Prod.fst).Nodup) :
    toRecord? fields (object members) = some ⟨false, fun name => members.lookup name⟩ := by
  have hall : (fields.all fun name => (named members name).length ≤ 1) = true := by
    simp [length_named_le h]
  simp [toRecord?, hall, head?_named]

end Decoders

end Json

section Types

/-- A kind of data is read back from its interchange form. -/
@[simp] theorem DataKind.ofJson?_toJson (kind : DataKind) : DataKind.ofJson? kind.toJson = some kind := by
  cases kind <;> simp [toJson, ofJson?, name, Json.toBareCase?, Json.Case.isBare, simpleKinds, List.lookup_cons]

/-- A type is read back from its interchange form. -/
@[simp] theorem DataType.ofJson?_toJson (type : DataType) : DataType.ofJson? type.toJson = some type := by
  obtain ⟨kind, nullable⟩ := type
  cases nullable <;> simp [toJson, ofJson?, Json.Record.required?, Json.Record.withDefault?,
    List.lookup_cons]

/-- A qualified name is read back from its interchange form. -/
@[simp] theorem QualifiedName.ofJson?_toJson (n : QualifiedName) : QualifiedName.ofJson? n.toJson = some n := by
  simp [toJson, ofJson?, Json.Record.required?, List.lookup_cons]

/-- A path is read back from its interchange form. -/
@[simp] theorem MemberPath.ofJson?_toJson (p : MemberPath) : MemberPath.ofJson? p.toJson = some p := by
  simp [toJson, ofJson?]

/-- A property is read back from its interchange form. -/
theorem Property.ofJson?_toJson (p : Property) : Property.ofJson? p.toJson = some p := by
  obtain ⟨name, column, type, storeType⟩ := p
  cases column <;> cases storeType <;> simp [toJson, ofJson?, Json.Record.required?,
    Json.Record.withDefault?, Json.toOption?, optionalText?, Json.optionalField, List.lookup_cons]

/-- An entity is read back from its interchange form. -/
theorem EntityType.ofJson?_toJson (e : EntityType) : EntityType.ofJson? e.toJson = some e := by
  obtain ⟨name, table, schema, properties⟩ := e
  have hproperties := Json.toList?_ofList fun p (_ : p ∈ properties) => p.ofJson?_toJson
  cases table <;> cases schema <;> simp [toJson, ofJson?, Json.Record.required?,
    Json.Record.withDefault?, Json.toOption?, optionalText?, Json.optionalField, List.lookup_cons, hproperties]

/-- A model is read back from its interchange form. -/
theorem Model.ofJson?_toJson (m : Model) : Model.ofJson? m.toJson = some m := by
  have hentities := Json.toList?_ofList fun e (_ : e ∈ m.entities) => e.ofJson?_toJson
  simp [toJson, ofJson?, Json.Record.withDefault?, List.lookup_cons, hentities]

end Types

section Forms

/-- The interchange form of a kind of data has plain numbers only. -/
theorem DataKind.toJson_plain (kind : DataKind) : kind.toJson.HasPlainNumbers := by
  cases kind <;> simp [toJson, Json.case, Json.HasPlainNumbers, Json.PlainMembers]

/-- The interchange form of a type has plain numbers only. -/
theorem DataType.toJson_plain (type : DataType) : type.toJson.HasPlainNumbers := by
  obtain ⟨kind, nullable⟩ := type
  cases nullable <;> simp [toJson, Json.HasPlainNumbers, Json.PlainMembers, kind.toJson_plain]

/-- The interchange form of texts has plain numbers only. -/
theorem Json.ofStrings_plain (ss : List String) : (Json.ofStrings ss).HasPlainNumbers := by
  simp [ofStrings, ofList, HasPlainNumbers, plainItems_iff]

/-- The interchange form of a qualified name has plain numbers only. -/
theorem QualifiedName.toJson_plain (n : QualifiedName) : n.toJson.HasPlainNumbers := by
  simp [toJson, Json.HasPlainNumbers, Json.PlainMembers, Json.ofStrings_plain]

/-- The interchange form of a path has plain numbers only. -/
theorem MemberPath.toJson_plain (p : MemberPath) : p.toJson.HasPlainNumbers := Json.ofStrings_plain p.members

/-- The interchange form of a property has plain numbers only. -/
theorem Property.toJson_plain (p : Property) : p.toJson.HasPlainNumbers := by
  obtain ⟨name, column, type, storeType⟩ := p
  cases column <;> cases storeType <;>
    simp [toJson, Json.optionalField, Json.HasPlainNumbers, Json.PlainMembers, type.toJson_plain]

/-- The interchange form of an entity has plain numbers only. -/
theorem EntityType.toJson_plain (e : EntityType) : e.toJson.HasPlainNumbers := by
  obtain ⟨name, table, schema, properties⟩ := e
  cases table <;> cases schema <;> simp [toJson, Json.optionalField, Json.ofList, Json.HasPlainNumbers,
    Json.PlainMembers, Json.plainItems_iff, Property.toJson_plain]

/-- The interchange form of a model has plain numbers only. -/
theorem Model.toJson_plain (m : Model) : m.toJson.HasPlainNumbers := by
  simp [toJson, Json.ofList, Json.HasPlainNumbers, Json.PlainMembers, Json.plainItems_iff,
    EntityType.toJson_plain]

/-- The interchange form of a kind of data has at most one level. -/
theorem DataKind.depth_toJson_le (kind : DataKind) : kind.toJson.depth ≤ 1 := by
  cases kind <;> simp [toJson, Json.case, Json.depth, Json.membersDepth]

/-- The interchange form of a type has at most two levels. -/
theorem DataType.depth_toJson_le (type : DataType) : type.toJson.depth ≤ 2 := by
  obtain ⟨kind, nullable⟩ := type
  have hkind := kind.depth_toJson_le
  cases nullable <;> simp [toJson, Json.depth, Json.membersDepth] <;> omega

/-- The interchange form of a property has at most three levels. -/
theorem Property.depth_toJson_le (p : Property) : p.toJson.depth ≤ 3 := by
  obtain ⟨name, column, type, storeType⟩ := p
  have htype := type.depth_toJson_le
  cases column <;> cases storeType <;>
    simp [toJson, Json.optionalField, Json.depth, Json.membersDepth] <;> omega

/-- The interchange form of an entity has at most five levels. -/
theorem EntityType.depth_toJson_le (e : EntityType) : e.toJson.depth ≤ 5 := by
  obtain ⟨name, table, schema, properties⟩ := e
  have hproperties : Json.itemsDepth (properties.map Property.toJson) ≤ 3 :=
    Json.itemsDepth_le_iff.2 (by simp [Property.depth_toJson_le])
  cases table <;> cases schema <;>
    simp [toJson, Json.optionalField, Json.ofList, Json.depth, Json.membersDepth] <;> omega

/-- The interchange form of a model has at most seven levels. -/
theorem Model.depth_toJson_le (m : Model) : m.toJson.depth ≤ 7 := by
  have hentities : Json.itemsDepth (m.entities.map EntityType.toJson) ≤ 5 :=
    Json.itemsDepth_le_iff.2 (by simp [EntityType.depth_toJson_le])
  simp [toJson, Json.ofList, Json.depth, Json.membersDepth]
  omega

end Forms

/-- A type is read from its text. -/
theorem DataType.decode?_text (type : DataType) :
    Json.decode? DataType.ofJson? type.toJson.text = some type :=
  Json.decode?_text type.toJson_plain (type.depth_toJson_le.trans (by decide)) type.ofJson?_toJson

/-- A model is read from its text. -/
theorem Model.decode?_text (m : Model) : Json.decode? Model.ofJson? m.toJson.text = some m :=
  Json.decode?_text m.toJson_plain (m.depth_toJson_le.trans (by decide)) m.ofJson?_toJson

end QueryPipeline
