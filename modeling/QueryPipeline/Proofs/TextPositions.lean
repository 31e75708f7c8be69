import Mathlib.Data.List.TakeWhile
import QueryPipeline.Proofs.LikePatterns
import QueryPipeline.Proofs.Parts
import QueryPipeline.Sql.Rendering

/-!
# Texts found by their positions

What the text functions of SQLite are on texts, and what becomes of the methods that are written with them.
Positions of characters begin with one and zero means that there is none, or they are counted from the end, and
a text is cut where it ends; patterns ignore letter cases and know no escape. The methods make up for all of it.
-/

set_option autoImplicit false

namespace QueryPipeline

open Sql

namespace PatternRules

variable {rules : PatternRules}

/-- The part that a character stands for where nothing is escaped and no class can be opened. -/
def place (c : Char) : PatternPart :=
  if c = '%' then .anything else if c = '_' then .one .all else .one (.only c)

/-- Where nothing is escaped and no class can be opened, every character of a pattern stands for its part. -/
theorem parts?_unescaped (he : rules.escape = none) (hclasses : rules.hasClasses = false)
    (text : List Char) : rules.parts? text = some (text.map place) := by
  induction text with
  | nil => rw [parts?, List.map_nil]
  | cons c text ih =>
    rw [parts?.eq_def]
    simp only [he, hclasses, place, List.map_cons]
    split_ifs <;> simp_all

/-- A character matches itself. -/
theorem admits_only_self (c : Char) : rules.admits (.only c) c = true := by simp [admits, same]

/-- A text fits the pattern that it is itself, whatever wildcards are in it. -/
theorem fits_place {rest : List PatternPart} {t : List Char} (h : rules.fits rest t = true)
    (text : List Char) : rules.fits (text.map place ++ rest) (text ++ t) = true := by
  induction text with
  | nil => exact h
  | cons c text ih =>
    rw [List.map_cons, List.cons_append, List.cons_append, place]
    split_ifs
    · exact fits_anything.2 ⟨text ++ t, List.suffix_cons c _, ih⟩
    · simp [fits, admits, ih]
    · simp [fits, admits_only_self, ih]

/-- A pattern without escapes can be read, and with a wildcard after it, it matches all texts that begin with it. -/
theorem like?_beginning (he : rules.escape = none) (hclasses : rules.hasClasses = false)
    (sought s : List Char) :
    ∃ b, rules.like? (sought ++ ['%']) s = some b ∧ (sought <+: s → b = true) := by
  refine ⟨_, by rw [like?, parts?_unescaped he hclasses, Option.map_some], ?_⟩
  rintro ⟨t, rfl⟩
  rw [List.map_append]
  exact fits_place (fits_anything.2 ⟨[], t.nil_suffix, rfl⟩) sought

end PatternRules

/-! ### The functions -/

/-- The position of the first occurrence of a text in another one, beginning with one, or zero. -/
def instr (s sought : List Char) : Int :=
  match s.tails.findIdx? (decide <| sought <+: ·) with
  | some i => i + 1
  | none => 0

/-- The characters of a text from a position on, all of them or so many. A negative position is counted from the
end, and a negative number asks for the characters before the position. -/
def substr (s : List Char) (start : Int) (count : Option Int) : List Char :=
  let first := if start < 0 then s.length + 1 + start else start
  let behind := match count with
    | some n => first + n
    | none => s.length + 1
  (s.take (max first behind - 1).toNat).drop (min first behind - 1).toNat

namespace Cell

/-- A text ends before its first null character. -/
def upToNul : Cell → Cell
  | .text s => .text (String.ofList (s.toList.takeWhile (· ≠ '\x00')))
  | c => c

/-- The text functions of SQLite. -/
def function? (name : String) (args : List Cell) : Option Cell :=
  match name, args, args.map upToNul with
  | "instr", [.text s, .text sought], _ => some (.number (instr s.toList sought.toList))
  | "length", _, [.text s] => some (.number s.length)
  | "substr", _, [.text s, .number start] => some (.text (String.ofList (substr s.toList start none)))
  | "substr", _, [.text s, .number start, .number count] =>
    some (.text (String.ofList (substr s.toList start (some count))))
  | _, _, _ => none

/-- A text without a null character ends where it ends. -/
theorem upToNul_text {s : String} (h : '\x00' ∉ s.toList) : (text s).upToNul = text s := by
  have hall : ∀ c ∈ s.toList, decide (c ≠ '\x00') = true := by
    intro c hc
    exact decide_eq_true fun he => h (he ▸ hc)
  rw [upToNul, List.takeWhile_eq_self_iff.2 hall, String.ofList_toList]

/-- A number has no end that a null character could move. -/
@[simp] theorem upToNul_number (i : Int) : (number i).upToNul = number i := rfl

end Cell

/-- Cells as SQLite compares, adds and joins them, with its text functions and its patterns. -/
def Interpretation.sqlite (other : Interpretation Cell) : Interpretation Cell :=
  { other.cells .sqlite with
    binary := fun
      | .equal, .text a, .text b => .flag (a = b)
      | .greaterThan, .number a, .number b => .flag (b < a)
      | .add, .number a, .number b => .number (a + b)
      | .add, .text a, .text b => .text (a ++ b)
      | .subtract, .number a, .number b => .number (a - b)
      | op, a, b => (other.cells .sqlite).binary op a b
    negate := fun
      | .number i => .number (-i)
      | a => other.negate a
    function := fun name schema receiver args =>
      match schema, receiver with
      | none, none => (Cell.function? name args).getD (other.function name none none args)
      | _, _ => other.function name schema receiver args
    like := fun s pattern escape => (other.cells .sqlite).like s.upToNul pattern.upToNul escape
    truth_and := (other.cells .sqlite).truth_and }

/-- The text functions of SQLite are those of the cells. -/
theorem Interpretation.sqlite_function (other : Interpretation Cell) {name : String} {args : List Cell}
    {v : Cell} (h : Cell.function? name args = some v) : other.sqlite.function name none none args = v := by
  simp [sqlite, h]

/-- Patterns match in SQLite as they do for cells. -/
theorem Interpretation.sqlite_like (other : Interpretation Cell) {s pattern : Cell} {escape : Option Cell}
    {b : Bool} (h : Cell.like? .sqlite s.upToNul pattern.upToNul escape = some b) :
    other.sqlite.like s pattern escape = .flag b :=
  cells_like h

section Functions

/-- There is a first occurrence, and its position is found, or there is none. -/
theorem instr_spec (s sought : List Char) :
    (∃ i : Nat, instr s sought = i + 1 ∧ sought <+: s.drop i ∧ ∀ j < i, ¬sought <+: s.drop j) ∨
      instr s sought = 0 ∧ ¬sought <:+: s := by
  unfold instr
  split
  next i h =>
    obtain ⟨hi, hfound, hbefore⟩ := List.findIdx?_eq_some_iff_getElem.1 h
    refine .inl ⟨i, rfl, ?_, fun j hj => ?_⟩
    · simpa [List.getElem_tails] using hfound
    · simpa [List.getElem_tails] using hbefore j hj
  next h =>
    refine .inr ⟨rfl, fun hinfix => ?_⟩
    obtain ⟨t, hprefix, hsuffix⟩ := List.infix_iff_prefix_suffix.1 hinfix
    have hnone := List.findIdx?_eq_none_iff.1 h t (by simpa using hsuffix)
    exact of_decide_eq_false hnone hprefix

/-- A text has a position in another one just when it occurs there. -/
theorem instr_pos {s sought : List Char} : 0 < instr s sought ↔ sought <:+: s := by
  obtain ⟨i, hi, hfound, -⟩ | ⟨hnone, habsent⟩ := instr_spec s sought
  · have hinfix : sought <:+: s := hfound.isInfix.trans (List.drop_suffix i s).isInfix
    exact iff_of_true (by omega) hinfix
  · exact iff_of_false (by omega) habsent

/-- To cut a text out from a position is to leave out what is before it and to keep as many characters. -/
theorem substr_after (s : List Char) (i n : Nat) : substr s (i + 1) (some n) = (s.drop i).take n := by
  have hfirst : ¬(i + 1 : Int) < 0 := by omega
  have hmax : (max (i + 1 : Int) (i + 1 + n) - 1).toNat = i + n := by omega
  have hmin : (min (i + 1 : Int) (i + 1 + n) - 1).toNat = i := by omega
  simp only [substr, if_neg hfirst, hmax, hmin]
  rw [List.drop_take, Nat.add_sub_cancel_left]

/-- The end of a text, or all of it if it is shorter. -/
theorem substr_end (s : List Char) {n : Nat} (hn : 0 < n) : substr s (-n) none = s.drop (s.length - n) := by
  have hfirst : -(n : Int) < 0 := by omega
  have hmax : (max (s.length + 1 + -(n : Int)) (s.length + 1) - 1).toNat = s.length := by omega
  have hmin : (min (s.length + 1 + -(n : Int)) (s.length + 1) - 1).toNat = s.length - n := by omega
  simp only [substr, if_pos hfirst, hmax, hmin, List.take_length]

-- the first two of the four characters are in front of the text
example : substr ['a', 'b', 'c'] (-5) (some 4) = ['a', 'b'] := by decide

end Functions

/-- What is added to a text is written behind it with the operator that joins texts. -/
theorem operatorText_add (style : NameStyle) (catalog : Catalog) {left : Scalar} (right : Scalar)
    (h : left.type.kind = .text) :
    operatorText style .add (catalog.add left right).type.kind = " " ++ style.dialect.joinOperator ++ " " := by
  have hkind : (catalog.add left right).type.kind = .text := by
    simp [Catalog.add, Catalog.binary, ScalarOp.isLogical, ScalarOp.isComparison, Scalar.binary, Scalar.natural,
      DataType.withNullable, h]
  simp [operatorText, hkind]

section Methods

variable {catalog : Catalog} {other : Interpretation Cell} {db : Database Cell} {ρ : Bindings Cell}
  {subject sought start count : Scalar} {s p : String}

/-- A scalar has a text for its value, and the text has no null character, at which it would seem to end. -/
structure HoldsText (other : Interpretation Cell) (db : Database Cell) (ρ : Bindings Cell) (scalar : Scalar)
    (s : String) : Prop where
  value : scalar.eval other.sqlite db ρ = .text s
  visible : '\x00' ∉ s.toList

variable (catalog) in
/-- A scalar with a mapping from elsewhere or from the catalog has the same text. -/
theorem HoldsText.resolveFrom (h : HoldsText other db ρ subject s) (known : Option TypeMapping) :
    HoldsText other db ρ (catalog.resolveFrom known subject) s :=
  ⟨(catalog.eval_resolveFrom known subject).trans h.value, h.visible⟩

/-- The value of a whole number is this number. -/
theorem eval_int (i : Int64) : (catalog.int i).eval other.sqlite db ρ = .number i.toInt := rfl

/-- A function that SQLite has is what it is on the values of its arguments. -/
theorem eval_function (name : String) (args : List Scalar) (type : DataType) (mapping : Option TypeMapping)
    {v : Cell} (h : Cell.function? name (args.map (·.eval other.sqlite db ρ)) = some v) :
    (catalog.functionWith name none args type mapping).eval other.sqlite db ρ = v :=
  (catalog.eval_functionWith ..).trans (other.sqlite_function h)

/-- The value of a disjunction is the disjunction of its values. -/
theorem eval_or {a b : Scalar} {x y : Bool} (ha : a.eval other.sqlite db ρ = .flag x)
    (hb : b.eval other.sqlite db ρ = .flag y) :
    (catalog.or a b).eval other.sqlite db ρ = .flag (x || y) := by
  rw [Catalog.or, Catalog.eval_binary, ha, hb]
  cases x <;> cases y <;> rfl

/-- The value of a conjunction is the conjunction of its values. -/
theorem eval_and {a b : Scalar} {x y : Bool} (ha : a.eval other.sqlite db ρ = .flag x)
    (hb : b.eval other.sqlite db ρ = .flag y) :
    (catalog.and a b).eval other.sqlite db ρ = .flag (x && y) := by
  rw [Catalog.and, Catalog.eval_binary, ha, hb]
  cases x <;> cases y <;> rfl

/-- The value of a comparison of texts says whether they are the same. -/
theorem eval_equal {a b : Scalar} {x y : String} (ha : a.eval other.sqlite db ρ = .text x)
    (hb : b.eval other.sqlite db ρ = .text y) :
    (catalog.equal a b).eval other.sqlite db ρ = .flag (decide (x = y)) := by
  rw [Catalog.equal, Catalog.eval_binary, ha, hb]
  rfl

/-- The value of the question for an empty text says whether it is empty. -/
theorem eval_isEmpty (hp : HoldsText other db ρ sought p) :
    (Positions.isEmpty catalog sought).eval other.sqlite db ρ = .flag (decide (p = "")) :=
  eval_equal hp.value rfl

/-- The value of a position is the place where the text occurs first, beginning with one. -/
theorem eval_position (hs : HoldsText other db ρ subject s) (hp : HoldsText other db ρ sought p) :
    (Positions.position catalog subject sought).eval other.sqlite db ρ = .number (instr s.toList p.toList) := by
  refine eval_function "instr" _ _ _ ?_
  simp [hs.value, hp.value, Cell.function?]

/-- The value of a length is the number of characters. -/
theorem eval_length (hp : HoldsText other db ρ sought p) :
    (Positions.length catalog sought).eval other.sqlite db ρ = .number p.length := by
  refine eval_function "length" _ _ _ ?_
  simp [hp.value, Cell.function?, Cell.upToNul_text hp.visible]

/-- The value of a text from a position on is what is left of it there. -/
theorem eval_substr {a : Int} (hs : HoldsText other db ρ subject s)
    (hstart : start.eval other.sqlite db ρ = .number a) :
    (catalog.sameTypeFunction "substr" subject [start]).eval other.sqlite db ρ =
      .text (String.ofList (substr s.toList a none)) := by
  refine eval_function "substr" _ _ _ ?_
  simp [hs.value, hstart, Cell.function?, Cell.upToNul_text hs.visible]

/-- The value of a text from a position on, up to a number of characters, is this part of it. -/
theorem eval_substr_count {a b : Int} (hs : HoldsText other db ρ subject s)
    (hstart : start.eval other.sqlite db ρ = .number a)
    (hcount : count.eval other.sqlite db ρ = .number b) :
    (catalog.sameTypeFunction "substr" subject [start, count]).eval other.sqlite db ρ =
      .text (String.ofList (substr s.toList a (some b))) := by
  refine eval_function "substr" _ _ _ ?_
  simp [hs.value, hstart, hcount, Cell.function?, Cell.upToNul_text hs.visible]

variable (catalog) in
/-- `LIKE` lets all texts pass that begin with the sought one. -/
theorem eval_like_beginning (hs : HoldsText other db ρ subject s) (hp : HoldsText other db ρ sought p) :
    ∃ b, (catalog.like subject (catalog.add sought (.text "%")) none).eval other.sqlite db ρ = .flag b ∧
      (p.toList <+: s.toList → b = true) := by
  have hjoined : (catalog.add sought (.text "%")).eval other.sqlite db ρ = .text (p ++ "%") := by
    rw [Catalog.add, Catalog.eval_binary, hp.value]
    rfl
  have hvisible : '\x00' ∉ (p ++ "%").toList := by simpa using hp.visible
  have hrules : (Dialect.sqlite.patternRules none).escape = none := rfl
  obtain ⟨b, hb, hpasses⟩ := PatternRules.like?_beginning hrules rfl p.toList s.toList
  refine ⟨b, ?_, hpasses⟩
  rw [Catalog.eval_like, hs.value, hjoined, Option.map_none]
  apply other.sqlite_like
  rw [Cell.upToNul_text hs.visible, Cell.upToNul_text hvisible]
  simpa [Cell.like?] using hb

/-- As many characters of a text as another one has. -/
theorem eval_beginning (hs : HoldsText other db ρ subject s) (hp : HoldsText other db ρ sought p) :
    (catalog.sameTypeFunction "substr" subject [catalog.int 1, Positions.length catalog sought]).eval
      other.sqlite db ρ = .text (String.ofList (s.toList.take p.length)) := by
  have hcut : substr s.toList 1 (some p.length) = s.toList.take p.length := substr_after s.toList 0 p.length
  rw [← hcut]
  exact eval_substr_count hs (eval_int 1) (eval_length hp)

/-- As many characters at the end of a text as another one has. -/
theorem eval_ending (hs : HoldsText other db ρ subject s) (hp : HoldsText other db ρ sought p) :
    (catalog.sameTypeFunction "substr" subject [(Positions.length catalog sought).negated]).eval
      other.sqlite db ρ = .text (String.ofList (substr s.toList (-p.length) none)) := by
  refine eval_substr hs ?_
  rw [Scalar.eval_negated, eval_length hp]
  rfl

/-- A text is found just when it occurs. -/
theorem eval_found (hs : HoldsText other db ρ subject s) (hp : HoldsText other db ρ sought p) :
    (catalog.binary .greaterThan (Positions.position catalog subject sought) (catalog.int 0)).eval
      other.sqlite db ρ = .flag (decide (p.toList <:+: s.toList)) := by
  rw [Catalog.eval_binary, eval_position hs hp, eval_int]
  exact congrArg Cell.flag (decide_eq_decide.2 instr_pos)

/-- A test for the empty text makes up for a condition that is right for all others. -/
theorem eval_or_isEmpty (occurrence : Occurrence) {condition : Scalar} {x : Bool}
    (hp : HoldsText other db ρ sought p) (hcondition : condition.eval other.sqlite db ρ = .flag x)
    (hx : p ≠ "" → (x = true ↔ occurrence.Holds p.toList s.toList)) :
    (catalog.or (Positions.isEmpty catalog sought) condition).eval other.sqlite db ρ =
      .flag (decide (occurrence.Holds p.toList s.toList)) := by
  refine (eval_or (eval_isEmpty hp) hcondition).trans (congrArg Cell.flag ?_)
  by_cases hempty : p = ""
  · subst hempty
    simpa using occurrence.holds_nil s.toList
  · rw [Bool.eq_iff_iff, decide_eq_true_iff, ← hx hempty]
    simp [hempty]

/-- The value of `Contains` says whether the text occurs anywhere. -/
theorem eval_contains (hs : HoldsText other db ρ subject s) (hp : HoldsText other db ρ sought p) :
    (Positions.contains catalog subject sought).eval other.sqlite db ρ =
      .flag (decide (Occurrence.anywhere.Holds p.toList s.toList)) :=
  eval_or_isEmpty .anywhere (hp.resolveFrom catalog _)
    (eval_found (hs.resolveFrom catalog _) (hp.resolveFrom catalog _)) fun _ => decide_eq_true_iff

/-- The value of `StartsWith` says whether the text occurs at the start. -/
theorem eval_startsWith (hs : HoldsText other db ρ subject s) (hp : HoldsText other db ρ sought p) :
    (Positions.startsWith catalog subject sought).eval other.sqlite db ρ =
      .flag (decide (Occurrence.atStart.Holds p.toList s.toList)) := by
  have hs' := hs.resolveFrom catalog (knownMapping? [subject, sought])
  have hp' := hp.resolveFrom catalog (knownMapping? [subject, sought])
  obtain ⟨b, hlike, hpasses⟩ := eval_like_beginning catalog hs' hp'
  have hequal : String.ofList (s.toList.take p.length) = p ↔ p.toList <+: s.toList := by
    rw [List.prefix_iff_eq_take, String.length_toList, ← String.toList_inj, String.toList_ofList, eq_comm]
  apply eval_or_isEmpty .atStart hp' (eval_and hlike (eval_equal (eval_beginning hs' hp') hp'.value))
  -- the beginnings decide letter by letter, and where they are equal `LIKE` has nothing to add
  intro _
  rw [Bool.and_eq_true, decide_eq_true_iff, hequal]
  exact and_iff_right_of_imp hpasses

/-- The value of `EndsWith` says whether the text occurs at the end. -/
theorem eval_endsWith (hs : HoldsText other db ρ subject s) (hp : HoldsText other db ρ sought p) :
    (Positions.endsWith catalog subject sought).eval other.sqlite db ρ =
      .flag (decide (Occurrence.atEnd.Holds p.toList s.toList)) := by
  have hs' := hs.resolveFrom catalog (knownMapping? [subject, sought])
  have hp' := hp.resolveFrom catalog (knownMapping? [subject, sought])
  apply eval_or_isEmpty .atEnd hp' (eval_equal (eval_ending hs' hp') hp'.value)
  intro hne
  have hlength : 0 < p.length := by
    rw [← String.length_toList, List.length_pos_iff]
    simpa using hne
  rw [decide_eq_true_iff, substr_end s.toList hlength, ← String.toList_inj, String.toList_ofList, eq_comm,
    ← String.length_toList]
  exact List.suffix_iff_eq_drop.symm

/-- The value of `IndexOf` is the place of the first occurrence, beginning with zero, or minus one. -/
theorem eval_indexOf (hs : HoldsText other db ρ subject s) (hp : HoldsText other db ρ sought p) :
    (Positions.indexOf catalog subject sought).eval other.sqlite db ρ =
      .number (instr s.toList p.toList - 1) := by
  rw [Positions.indexOf, Catalog.subtract, Catalog.eval_binary,
    eval_position (hs.resolveFrom catalog _) (hp.resolveFrom catalog _)]
  rfl

/-- The value of `Substring` is this part of the text. -/
theorem eval_substring {i n : Nat} (hs : HoldsText other db ρ subject s)
    (hstart : start.eval other.sqlite db ρ = .number i)
    (hcount : count.eval other.sqlite db ρ = .number n) :
    (Positions.substring catalog subject start count).eval other.sqlite db ρ =
      .text (String.ofList ((s.toList.drop i).take n)) := by
  have hnext : (catalog.add start (catalog.int 1)).eval other.sqlite db ρ = .number (i + 1) := by
    rw [Catalog.add, Catalog.eval_binary, hstart]
    rfl
  rw [← substr_after]
  exact eval_substr_count hs hnext hcount

end Methods

/-- What a text method is in SQLite, if there is such a method. -/
def sqliteMethod? (catalog : Catalog) (other : Interpretation Cell) (db : Database Cell) (ρ : Bindings Cell)
    (subject : Scalar) (name : String) (args : List Scalar) : Option Cell :=
  match (FunctionRegistry.ofDialect .sqlite).method catalog (some subject) (.owned "string" name) args with
  | .ok (some found) => some (found.eval other.sqlite db ρ)
  | _ => none

/-- The place of the first occurrence of a text in another one, beginning with zero, or minus one. -/
def IsFirstPlace (sought s : List Char) (k : Int) : Prop :=
  (∃ i : Nat, k = i ∧ sought <+: s.drop i ∧ ∀ j < i, ¬sought <+: s.drop j) ∨ k = -1 ∧ ¬sought <:+: s

/-- The text methods in SQLite are what they stand for, whatever the texts are. One begins or ends with another
one or contains it, letter by letter, just when the method says so; the first occurrence is where it says, and it
cuts out the characters that are asked for, as far as there are any. -/
theorem sqlite_text_methods (catalog : Catalog) (other : Interpretation Cell) (db : Database Cell)
    (ρ : Bindings Cell) (subject : Scalar) (s : String) (hs : HoldsText other db ρ subject s) :
    (∀ sought p, HoldsText other db ρ sought p →
      (∀ occurrence : Occurrence, sqliteMethod? catalog other db ρ subject occurrence.method [sought] =
        some (.flag (decide (occurrence.Holds p.toList s.toList)))) ∧
      ∃ k, sqliteMethod? catalog other db ρ subject "index_of" [sought] = some (.number k) ∧
        IsFirstPlace p.toList s.toList k) ∧
    ∀ (start count : Scalar) (i n : Nat), start.eval other.sqlite db ρ = .number i →
      count.eval other.sqlite db ρ = .number n →
      sqliteMethod? catalog other db ρ subject "substring" [start, count] =
        some (.text (String.ofList ((s.toList.drop i).take n))) := by
  refine ⟨fun sought p hp => ⟨fun occurrence => ?_, instr s.toList p.toList - 1, ?_, ?_⟩,
    fun start count i n hi hn => ?_⟩
  · cases occurrence with
    | atStart => exact congrArg some (eval_startsWith hs hp)
    | atEnd => exact congrArg some (eval_endsWith hs hp)
    | anywhere => exact congrArg some (eval_contains hs hp)
  · exact congrArg some (eval_indexOf hs hp)
  · refine (instr_spec s.toList p.toList).imp ?_ ?_
    · rintro ⟨i, hi, hfound⟩
      exact ⟨i, by omega, hfound⟩
    · rintro ⟨hnone, habsent⟩
      exact ⟨by omega, habsent⟩
  · exact congrArg some (eval_substring hs hi hn)

/-- A wildcard in a text that is searched for is a letter like all others. -/
theorem wildcard_is_letter :
    sqliteMethod? Dialect.sqlite.catalog .unknown (fun _ _ => []) (fun _ _ => .text "ab%b") .names "contains"
        [.text "%b"] = some (.flag true) ∧
      sqliteMethod? Dialect.sqlite.catalog .unknown (fun _ _ => []) (fun _ _ => .text "ab%b") .names
        "starts_with" [.text "%b"] = some (.flag false) ∧
      sqliteMethod? Dialect.sqlite.catalog .unknown (fun _ _ => []) (fun _ _ => .text "ab%b") .names
        "ends_with" [.text "%b"] = some (.flag true) ∧
      (∃ k, sqliteMethod? Dialect.sqlite.catalog .unknown (fun _ _ => []) (fun _ _ => .text "ab%b") .names
        "index_of" [.text "%b"] = some (.number k) ∧ IsFirstPlace "%b".toList "ab%b".toList k) ∧
      sqliteMethod? Dialect.sqlite.catalog .unknown (fun _ _ => []) (fun _ _ => .text "ab%b") .names
        "substring" [Dialect.sqlite.catalog.int 1, Dialect.sqlite.catalog.int 9] = some (.text "b%b") := by
  obtain ⟨hsearch, hcut⟩ := sqlite_text_methods Dialect.sqlite.catalog .unknown (fun _ _ => [])
    (fun _ _ => .text "ab%b") .names "ab%b" ⟨rfl, by decide⟩
  obtain ⟨hoccurs, hindex⟩ := hsearch (.text "%b") "%b" ⟨rfl, by decide⟩
  refine ⟨(hoccurs .anywhere).trans ?_, (hoccurs .atStart).trans ?_, (hoccurs .atEnd).trans ?_, hindex,
    hcut _ _ 1 9 rfl rfl⟩
  · exact congrArg (some <| Cell.flag ·) (by decide)
  · exact congrArg (some <| Cell.flag ·) (by decide)
  · exact congrArg (some <| Cell.flag ·) (by decide)

end QueryPipeline
