import Mathlib.Data.List.Infix
import QueryPipeline.Functions.BuiltIn
import QueryPipeline.Proofs.Evaluation

/-!
# Texts that match patterns

What `LIKE` is in each dialect. A pattern is read into parts, each of which stands for any text or for one
character; the dialects differ in the escape that they know without being told, in whether a bracket opens a
class of characters, and in whether letters are told apart by their case. A text that is searched for by a
pattern has an escape before each of its wildcards, or has none, so every letter of it stands for itself.
-/

set_option autoImplicit false

namespace QueryPipeline

open Sql

/-- The characters that one place of a pattern stands for. -/
inductive CharSet where
  | all
  | only (c : Char)
  /-- The characters in some ranges, or all others. -/
  | ranges (negated : Bool) (bounds : List (Char × Char))

/-- What a part of a pattern stands for. -/
inductive PatternPart where
  | anything
  | one (set : CharSet)

/-- How a dialect reads patterns. -/
structure PatternRules where
  /-- A bracket opens a class of characters. -/
  hasClasses : Bool
  /-- The character after this one stands for itself. -/
  escape : Option Char
  /-- The letters of the Latin alphabet are the same in both cases. -/
  ignoresCase : Bool

namespace PatternRules

variable (rules : PatternRules)

mutual

/-- The parts of a pattern, unless it ends within an escape or a class. -/
def parts? : List Char → Option (List PatternPart)
  | [] => some []
  | c :: rest =>
    if rules.escape = some c then
      match rest with
      | [] => none
      | literal :: rest => (parts? rest).map (.one (.only literal) :: ·)
    else if c = '%' then (parts? rest).map (.anything :: ·)
    else if c = '_' then (parts? rest).map (.one .all :: ·)
    else if rules.hasClasses ∧ c = '[' then
      match rest with
      | '^' :: rest => classParts? true [] rest
      | rest => classParts? false [] rest
    else (parts? rest).map (.one (.only c) :: ·)

/-- The parts of the rest of a pattern within a class, of which some ranges are known. -/
def classParts? (negated : Bool) (bounds : List (Char × Char)) : List Char → Option (List PatternPart)
  | [] => none
  | c :: rest =>
    if rules.escape = some c then
      match rest with
      | [] => none
      | literal :: rest => classParts? negated ((literal, literal) :: bounds) rest
    else if c = ']' then (parts? rest).map (.one (.ranges negated bounds) :: ·)
    else
      match rest with
      | '-' :: last :: rest =>
        if last = ']' then (parts? rest).map (.one (.ranges negated ((c, c) :: ('-', '-') :: bounds)) :: ·)
        else classParts? negated ((c, last) :: bounds) rest
      | rest => classParts? negated ((c, c) :: bounds) rest

end

/-- Two characters are the same to a pattern. -/
def same (a b : Char) : Bool := a = b || (rules.ignoresCase && a.toLower = b.toLower)

/-- A place of a pattern stands for a character. -/
def admits : CharSet → Char → Bool
  | .all, _ => true
  | .only c, d => rules.same c d
  | .ranges negated bounds, d => bounds.any (fun b => b.1 ≤ d && d ≤ b.2) != negated

/-- The parts of a pattern make up a text, one after the other. -/
def fits : List PatternPart → List Char → Bool
  | [], s => s.isEmpty
  | .anything :: rest, s => s.tails.any (fits rest)
  | .one set :: rest, c :: s => rules.admits set c && fits rest s
  | .one _ :: _, [] => false

/-- A text matches a pattern, if the pattern can be read. -/
def like? (pattern s : List Char) : Option Bool := (rules.parts? pattern).map (rules.fits · s)

variable {rules}

/-- After the escape a letter stands for itself. -/
theorem parts?_escaped {e : Char} (he : rules.escape = some e) (c : Char) (rest : List Char) :
    rules.parts? (e :: c :: rest) = (rules.parts? rest).map (.one (.only c) :: ·) := by
  rw [parts?, if_pos he]

/-- A percent sign stands for any letters, unless it is the escape. -/
theorem parts?_percent (he : rules.escape ≠ some '%') (rest : List Char) :
    rules.parts? ('%' :: rest) = (rules.parts? rest).map (.anything :: ·) := by
  rw [parts?.eq_def]
  simp [he]

/-- A letter that is no wildcard stands for itself, unless it is the escape. -/
theorem parts?_plain {c : Char} (he : rules.escape ≠ some c) (hc : isWildcard c = false)
    (rest : List Char) :
    rules.parts? (c :: rest) = (rules.parts? rest).map (.one (.only c) :: ·) := by
  simp only [isWildcard, Bool.or_eq_false_iff, beq_eq_false_iff_ne] at hc
  rw [parts?.eq_def]
  simp [he, hc]

/-- A text means itself once its wildcards are escaped: the escape is known, or there is none and nothing
that has to be escaped. -/
def KnowsEscapesOf (rules : PatternRules) (text : List Char) : Prop :=
  rules.escape = some likeEscape ∨ rules.escape = none ∧ ∀ c ∈ text, isWildcard c = false

/-- The escapes of a text are those of its beginning and of its rest. -/
theorem KnowsEscapesOf.tail {c : Char} {rest : List Char} (h : rules.KnowsEscapesOf (c :: rest)) :
    rules.KnowsEscapesOf rest :=
  h.imp_right fun h => ⟨h.1, fun d hd => h.2 d (List.mem_cons_of_mem c hd)⟩

/-- No letter is an escape but the one that escapes are made of. -/
theorem KnowsEscapesOf.escape_ne {text : List Char} (h : rules.KnowsEscapesOf text) {c : Char}
    (hc : c ≠ likeEscape) : rules.escape ≠ some c := by
  intro he
  obtain h | ⟨h, -⟩ := h
  · exact hc (Option.some.inj (he.symm.trans h))
  · cases h.symm.trans he

/-- The parts that stand for the characters of a text, one by one. -/
def literally (text : List Char) : List PatternPart := text.map fun c => .one (.only c)

/-- A text with its wildcards escaped is read back as the characters of the text. -/
theorem parts?_escapeWildcards {text : List Char} (h : rules.KnowsEscapesOf text) (rest : List Char) :
    rules.parts? (escapeWildcards text ++ rest) = (rules.parts? rest).map (literally text ++ ·) := by
  induction text with
  | nil => simp [escapeWildcards, literally]
  | cons c text ih =>
    have hrest := ih h.tail
    have hmap : (rules.parts? (escapeWildcards text ++ rest)).map (.one (.only c) :: ·)
        = (rules.parts? rest).map (literally (c :: text) ++ ·) := by
      rw [hrest, Option.map_map]
      rfl
    -- a wildcard is read behind its escape, any other character by itself; the rest is the same
    rw [escapeWildcards]
    by_cases hc : isWildcard c = true
    · have he : rules.escape = some likeEscape :=
        h.resolve_right fun h => by simp [h.2 c List.mem_cons_self] at hc
      rw [if_pos hc]
      exact (parts?_escaped he c _).trans hmap
    · have hne : c ≠ likeEscape := by
        rintro rfl
        exact hc rfl
      rw [if_neg hc]
      exact (parts?_plain (h.escape_ne hne) (by simpa using hc) _).trans hmap

/-- Any letters may stand where the pattern says so: some are passed over, and the rest fits what comes after. -/
theorem fits_anything {rest : List PatternPart} {s : List Char} :
    rules.fits (.anything :: rest) s = true ↔ ∃ t, t <:+ s ∧ rules.fits rest t = true := by
  simp [fits, List.any_eq_true]

/-- The characters of a text fit where the text stands, and the rest of the parts fits what is after it. -/
theorem fits_literally (hcase : rules.ignoresCase = false) {text : List Char} {rest : List PatternPart} :
    ∀ {s : List Char}, rules.fits (literally text ++ rest) s = true ↔
      ∃ t, text ++ t = s ∧ rules.fits rest t = true := by
  induction text with
  | nil => simp [literally]
  | cons c text ih =>
    intro s
    cases s with
    | nil => simp [literally, fits]
    | cons d s =>
      have hstep : rules.fits (literally (c :: text) ++ rest) (d :: s) = true ↔
          c = d ∧ rules.fits (literally text ++ rest) s = true := by
        simp [literally, fits, admits, same, hcase]
      rw [hstep, ih]
      simp [and_assoc]

end PatternRules

namespace Occurrence

/-- A text occurs in another one. -/
def Holds (occurrence : Occurrence) (sought s : List Char) : Prop :=
  match occurrence with
  | .atStart => sought <+: s
  | .atEnd => sought <:+ s
  | .anywhere => sought <:+: s

instance : ∀ (occurrence : Occurrence) (sought s : List Char), Decidable (occurrence.Holds sought s)
  | .atStart, sought, s => inferInstanceAs (Decidable (sought <+: s))
  | .atEnd, sought, s => inferInstanceAs (Decidable (sought <:+ s))
  | .anywhere, sought, s => inferInstanceAs (Decidable (sought <:+: s))

/-- The empty text occurs everywhere. -/
theorem holds_nil (occurrence : Occurrence) (s : List Char) : occurrence.Holds [] s := by
  cases occurrence with
  | atStart => exact List.nil_prefix
  | atEnd => exact List.nil_suffix
  | anywhere => exact List.nil_infix

/-- The method that asks whether a text occurs in another one. -/
def method : Occurrence → String
  | .atStart => "starts_with"
  | .atEnd => "ends_with"
  | .anywhere => "contains"

/-- The parts that the pattern of the texts in which a text occurs is read into. -/
def parts (occurrence : Occurrence) (sought : List Char) : List PatternPart :=
  match occurrence with
  | .atStart => PatternRules.literally sought ++ [.anything]
  | .atEnd => .anything :: PatternRules.literally sought
  | .anywhere => .anything :: (PatternRules.literally sought ++ [.anything])

variable {rules : PatternRules}

/-- The pattern for a text that is sought consists of its letters and of what may stand around them. -/
theorem parts?_pattern (occurrence : Occurrence) {sought : String}
    (h : rules.KnowsEscapesOf sought.toList) :
    rules.parts? (occurrence.pattern sought).toList = some (occurrence.parts sought.toList) := by
  have hpercent : rules.escape ≠ some '%' := h.escape_ne (by decide)
  have hend : rules.parts? (escapeWildcards sought.toList) = some (PatternRules.literally sought.toList) := by
    simpa [PatternRules.parts?] using PatternRules.parts?_escapeWildcards h []
  have hopen : rules.parts? (escapeWildcards sought.toList ++ ['%'])
      = some (PatternRules.literally sought.toList ++ [.anything]) := by
    rw [PatternRules.parts?_escapeWildcards h, PatternRules.parts?_percent hpercent]
    rfl
  cases occurrence with
  | atStart => simp [pattern, parts, hopen]
  | atEnd => simp [pattern, parts, PatternRules.parts?_percent hpercent, hend]
  | anywhere => simp [pattern, parts, PatternRules.parts?_percent hpercent, hopen]

/-- The parts fit the texts in which the text occurs, and no others. -/
theorem fits_parts (occurrence : Occurrence) (hcase : rules.ignoresCase = false) {sought s : List Char} :
    rules.fits (occurrence.parts sought) s = true ↔ occurrence.Holds sought s := by
  have hall : ∀ t, rules.fits [.anything] t = true := fun t =>
    PatternRules.fits_anything.2 ⟨[], t.nil_suffix, rfl⟩
  have hstart : ∀ t, rules.fits (PatternRules.literally sought ++ [.anything]) t = true ↔ sought <+: t := by
    intro t
    simp [PatternRules.fits_literally hcase, hall, List.IsPrefix]
  cases occurrence with
  | atStart => exact hstart s
  | atEnd =>
    have hexact : ∀ t, rules.fits (PatternRules.literally sought) t = true ↔ sought = t := by
      intro t
      have hrest : rules.fits (PatternRules.literally sought ++ []) t = true ↔
          ∃ rest, sought ++ rest = t ∧ rules.fits [] rest = true := PatternRules.fits_literally hcase
      simpa [PatternRules.fits] using hrest
    simp [parts, Holds, PatternRules.fits_anything, hexact]
  | anywhere =>
    simp only [parts, Holds, PatternRules.fits_anything, hstart]
    rw [List.infix_iff_prefix_suffix]
    exact exists_congr fun t => and_comm

/-- A text matches the pattern just when the sought text occurs in it. -/
theorem like?_pattern (occurrence : Occurrence) (hcase : rules.ignoresCase = false) {sought : String}
    (h : rules.KnowsEscapesOf sought.toList) (s : List Char) :
    rules.like? (occurrence.pattern sought).toList s = some (decide (occurrence.Holds sought.toList s)) := by
  rw [PatternRules.like?, occurrence.parts?_pattern h, Option.map_some, Option.some_inj, Bool.eq_iff_iff,
    occurrence.fits_parts hcase, decide_eq_true_iff]

end Occurrence

/-- How a dialect reads patterns with an escape, or with none of their own. -/
def Sql.Dialect.patternRules (dialect : Dialect) (escape : Option Char) : PatternRules where
  hasClasses := dialect = .msSql
  escape := escape <|> if dialect = .postgres then some '\\' else none
  ignoresCase := dialect = .sqlite

/-- Both of two truth values, of which any may be unknown. -/
def bothTrue (a b : Option Bool) : Option Bool :=
  if a = some true ∧ b = some true then some true
  else if a = some false ∨ b = some false then some false
  else none

/-- One of two truth values, of which any may be unknown. -/
def eitherTrue (a b : Option Bool) : Option Bool :=
  if a = some true ∨ b = some true then some true
  else if a = some false ∧ b = some false then some false
  else none

/-- Two conditions are true together just when both of them are. -/
theorem bothTrue_eq_true {a b : Option Bool} :
    bothTrue a b = some true ↔ a = some true ∧ b = some true := by
  unfold bothTrue
  split_ifs <;> simp_all

/-- A value of a database as far as texts are concerned: absent, a whole number or a text. -/
inductive Cell where
  | absent
  | number (i : Int)
  | text (s : String)
deriving DecidableEq

namespace Cell

/-- True as one and false as zero. -/
def flag (b : Bool) : Cell := .number (if b then 1 else 0)

/-- A truth value, where an unknown one is absent. -/
def ofTruth : Option Bool → Cell
  | none => .absent
  | some b => flag b

/-- A number is true unless it is zero. What a text is, is up to another interpretation. -/
def truth (other : Interpretation Cell) : Cell → Option Bool
  | .absent => none
  | .number i => some (i ≠ 0)
  | .text s => other.truth (.text s)

/-- The truth of a cell that holds a truth value is this value. -/
@[simp] theorem truth_flag (other : Interpretation Cell) (b : Bool) : (flag b).truth other = some b := by
  cases b <;> rfl

/-- The truth of a cell that is made of a truth value is this value. -/
@[simp] theorem truth_ofTruth (other : Interpretation Cell) (t : Option Bool) :
    (ofTruth t).truth other = t := by
  cases t with
  | none => rfl
  | some b => exact truth_flag other b

/-- A literal, if it is a number, a truth value, a text or nothing. -/
def ofLiteral? : Literal → Option Cell
  | .null => some .absent
  | .boolean b => some (flag b)
  | .integer i => some (.number i.toInt)
  | .text s => some (.text s)
  | .char c => some (.text (String.singleton c))
  | _ => none

/-- A text matches a pattern, if the escape is one character and the pattern can be read. -/
def like? (dialect : Dialect) : Cell → Cell → Option Cell → Option Bool
  | .text s, .text pattern, none => (dialect.patternRules none).like? pattern.toList s.toList
  | .text s, .text pattern, some (.text escape) =>
    match escape.toList with
    | [e] => (dialect.patternRules (some e)).like? pattern.toList s.toList
    | _ => none
  | _, _, _ => none

end Cell

/-- The escape is told as a text of one character. -/
theorem Cell.like?_escape (dialect : Dialect) (s pattern : String) (escape : Option Char) :
    Cell.like? dialect (.text s) (.text pattern) (escape.map fun e => .text (String.singleton e)) =
      (dialect.patternRules escape).like? pattern.toList s.toList := by
  cases escape with
  | none => rfl
  | some e => simp [Cell.like?]

/-- Cells as a dialect reads patterns and as all dialects join conditions. What else there is comes from
another interpretation. -/
def Interpretation.cells (dialect : Dialect) (other : Interpretation Cell) : Interpretation Cell :=
  { other with
    constant := fun l => (Cell.ofLiteral? l).getD (other.constant l)
    binary := fun
      | .and, a, b => .ofTruth (bothTrue (a.truth other) (b.truth other))
      | .or, a, b => .ofTruth (eitherTrue (a.truth other) (b.truth other))
      | op, a, b => other.binary op a b
    like := fun s pattern escape =>
      ((Cell.like? dialect s pattern escape).map .flag).getD (other.like s pattern escape)
    truth := Cell.truth other
    truth_true := rfl
    truth_and := fun a b => by
      rw [Cell.truth_ofTruth]
      exact bothTrue_eq_true }

/-- A text that is known beforehand is evaluated to itself. -/
theorem Interpretation.eval_text (dialect : Dialect) (other : Interpretation Cell) (db : Database Cell)
    (ρ : Bindings Cell) (s : String) : (Scalar.text s).eval (other.cells dialect) db ρ = .text s := rfl

/-- Where a pattern can be read, it decides. -/
theorem Interpretation.cells_like {dialect : Dialect} {other : Interpretation Cell} {s pattern : Cell}
    {escape : Option Cell} {b : Bool} (h : Cell.like? dialect s pattern escape = some b) :
    (other.cells dialect).like s pattern escape = .flag b := by
  simp [cells, h]

/-- The escape that is told when a constant text is searched for. -/
def literalEscape (v : String) : Option Char := if v.toList.any isWildcard then some likeEscape else none

/-- The rules of every dialect with the escape that is told, or without one, know the escapes of the text. -/
theorem knowsEscapesOf_literalEscape (dialect : Dialect) (v : String) :
    (dialect.patternRules (literalEscape v)).KnowsEscapesOf v.toList := by
  by_cases hv : v.toList.any isWildcard = true
  · exact .inl (by simp [Dialect.patternRules, literalEscape, hv])
  · have hplain : ∀ c ∈ v.toList, isWildcard c = false := by simpa using hv
    by_cases hdialect : dialect = .postgres
    · exact .inl (by simp [Dialect.patternRules, literalEscape, hv, hdialect, likeEscape])
    · exact .inr ⟨by simp [Dialect.patternRules, literalEscape, hv, hdialect], hplain⟩

/-- What asks whether a constant text occurs in another one. -/
def literalLike (catalog : Catalog) (occurrence : Occurrence) (subject : Scalar) (v : String) : Scalar :=
  catalog.like subject (.text (occurrence.pattern v))
    ((literalEscape v).map fun e => .text (String.singleton e))

/-- Where patterns are matched, a method that seeks a text becomes a match with the pattern for it. -/
theorem method_occurrence {dialect : Dialect} (hdialect : dialect ≠ .sqlite) (catalog : Catalog)
    (occurrence : Occurrence) (subject sought : Scalar) {v : String}
    (hsought : sought.node = .constant (.text v)) :
    (FunctionRegistry.ofDialect dialect).method catalog (some subject) (.owned "string" occurrence.method)
      [sought] = .given (literalLike catalog occurrence subject v) := by
  have hanswer : likeConstant catalog subject sought occurrence =
      .given (literalLike catalog occurrence subject v) := by
    simp only [likeConstant, hsought, literalLike, literalEscape]
    split <;> rfl
  have hprovider : ∀ lengthFunction, (patternTextFunctions lengthFunction).method catalog (some subject)
      (.owned "string" occurrence.method) [sought] = .given (literalLike catalog occurrence subject v) := by
    intro lengthFunction
    rw [← hanswer]
    cases occurrence <;> rfl
  have hfirst : ∃ lengthFunction rest,
      builtInProviders dialect = patternTextFunctions lengthFunction :: rest := by
    cases dialect with
    | sqlite => exact absurd rfl hdialect
    | _ => exact ⟨_, _, rfl⟩
  obtain ⟨lengthFunction, rest, hfirst⟩ := hfirst
  simp only [FunctionRegistry.method, FunctionRegistry.ofDialect, hfirst, firstAnswer_cons, hprovider,
    Answer.given]

/-- In the dialects that search by patterns, a text that is searched for a constant one is found to begin or end
with it or to contain it just when it does, whatever wildcards, escapes and brackets the constant has. -/
theorem constant_text_found_literally (dialect : Dialect) (hdialect : dialect ≠ .sqlite) (catalog : Catalog)
    (occurrence : Occurrence) (subject sought : Scalar) (v s : String)
    (hsought : sought.node = .constant (.text v)) (other : Interpretation Cell) (db : Database Cell)
    (ρ : Bindings Cell) (hsubject : subject.eval (other.cells dialect) db ρ = .text s) :
    ∃ found, (FunctionRegistry.ofDialect dialect).method catalog (some subject)
        (.owned "string" occurrence.method) [sought] = .given found ∧
      found.eval (other.cells dialect) db ρ = .flag (decide (occurrence.Holds v.toList s.toList)) := by
  refine ⟨_, method_occurrence hdialect catalog occurrence subject sought hsought, ?_⟩
  have hcase : (dialect.patternRules (literalEscape v)).ignoresCase = false := decide_eq_false hdialect
  have hlike : Cell.like? dialect (.text s) (.text (occurrence.pattern v))
      ((literalEscape v).map fun e => .text (String.singleton e)) =
        some (decide (occurrence.Holds v.toList s.toList)) := by
    rw [Cell.like?_escape]
    exact occurrence.like?_pattern hcase (knowsEscapesOf_literalEscape dialect v) s.toList
  rw [literalLike, Catalog.eval_like, hsubject, Option.map_map]
  simp only [Function.comp_def, Interpretation.eval_text, Interpretation.cells_like hlike]

/-- Nothing is known but what truth values are. -/
def Interpretation.unknown : Interpretation Cell where
  constant
    | .boolean b => .flag b
    | _ => .absent
  parameter _ := .absent
  fragment _ := .absent
  binary _ a b := .flag (decide (a = .flag true ∧ b = .flag true))
  not _ := .absent
  negate _ := .absent
  isNull _ _ := .absent
  function _ _ _ _ := .absent
  case _ _ := .absent
  existsIn _ _ := .absent
  like _ _ _ := .absent
  cast a := a
  truth a := some (a = .flag true)
  compare _ _ := .eq
  count _ := 0
  truth_true := rfl
  truth_and a b := by simp [Cell.flag]
  compare_trans := { eq_swap := rfl, isLE_trans := fun _ _ => rfl }

/-- The names of persons. -/
def Sql.Scalar.names : Scalar := .column "p" "Name" .text none

/-- A name with a wildcard, a bracket and the escape contains just these, and one that the wildcards would match
does not. -/
theorem bracketed_name_found_literally :
    (∃ found, (FunctionRegistry.ofDialect .msSql).method Dialect.msSql.catalog (some .names)
        (.owned "string" "contains") [.text "0%[a]_\\"] = .given found ∧
      found.eval (Interpretation.unknown.cells .msSql) (fun _ _ => []) (fun _ _ => .text "50%[a]_\\!") =
        .flag true) ∧
    ∃ found, (FunctionRegistry.ofDialect .msSql).method Dialect.msSql.catalog (some .names)
        (.owned "string" "contains") [.text "0%[a]_\\"] = .given found ∧
      found.eval (Interpretation.unknown.cells .msSql) (fun _ _ => []) (fun _ _ => .text "50 a_\\!") =
        .flag false := by
  have hdialect : Dialect.msSql ≠ .sqlite := by decide
  obtain ⟨found, h, hfound⟩ := constant_text_found_literally .msSql hdialect Dialect.msSql.catalog .anywhere
    .names (.text "0%[a]_\\") "0%[a]_\\" "50%[a]_\\!" rfl .unknown (fun _ _ => [])
    (fun _ _ => .text "50%[a]_\\!") rfl
  obtain ⟨found', h', hfound'⟩ := constant_text_found_literally .msSql hdialect Dialect.msSql.catalog .anywhere
    .names (.text "0%[a]_\\") "0%[a]_\\" "50 a_\\!" rfl .unknown (fun _ _ => [])
    (fun _ _ => .text "50 a_\\!") rfl
  exact ⟨⟨found, h, hfound.trans (congrArg Cell.flag (by decide))⟩,
    ⟨found', h', hfound'.trans (congrArg Cell.flag (by decide))⟩⟩

end QueryPipeline
