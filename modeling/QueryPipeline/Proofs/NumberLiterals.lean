import Mathlib.Data.List.TakeWhile
import QueryPipeline.Proofs.Words

/-!
# Literals of numbers

A numeral is a minus sign, if there is one, digits, a fraction, if there is one, and an exponent, if there is one.
The automaton of numerals accepts just these texts. A literal in the style of numbers is a numeral, whatever the
value, except that a decimal number is written in the letters it was given in: these have to be a numeral.
-/

set_option autoImplicit false

namespace QueryPipeline

namespace Number

/-- A point and digits. -/
def IsFraction (cs : List Char) : Prop := ∃ ds, IsDigits ds ∧ cs = '.' :: ds

/-- A sign, if there is one, and digits. -/
def IsSigned (cs : List Char) : Prop :=
  ∃ sign ds, (sign = [] ∨ sign = ['-'] ∨ sign = ['+']) ∧ IsDigits ds ∧ cs = sign ++ ds

/-- An `e`, a sign, if there is one, and digits. -/
def IsExponent (cs : List Char) : Prop := ∃ mark ds, (mark = 'e' ∨ mark = 'E') ∧ IsSigned ds ∧ cs = mark :: ds

/-- A fraction, if there is one, and an exponent, if there is one. -/
def IsFractional (cs : List Char) : Prop :=
  ∃ fraction exponent, (fraction = [] ∨ IsFraction fraction) ∧ (exponent = [] ∨ IsExponent exponent) ∧
    cs = fraction ++ exponent

/-- The text is a single numeral and nothing else: a minus sign, if there is one, digits, a fraction, if there is
one, and an exponent, if there is one. -/
def IsNumeralText (s : String) : Prop :=
  ∃ sign whole rest, (sign = [] ∨ sign = ['-']) ∧ IsDigits whole ∧ IsFractional rest ∧
    s.toList = sign ++ whole ++ rest

/-- A digit before digits makes digits. -/
theorem IsDigits.cons {c : Char} {cs : List Char} (hc : c.isDigit = true) (hcs : ∀ d ∈ cs, d.isDigit = true) :
    IsDigits (c :: cs) := ⟨List.cons_ne_nil _ _, List.forall_mem_cons.2 ⟨hc, hcs⟩⟩

/-- Letters are digits and what follows these. -/
theorem exists_run (cs : List Char) : ∃ ds rest, (∀ d ∈ ds, d.isDigit = true) ∧
    (∀ c ∈ rest.head?, c.isDigit = false) ∧ cs = ds ++ rest := by
  refine ⟨cs.takeWhile Char.isDigit, cs.dropWhile Char.isDigit, fun d hd => List.mem_takeWhile_imp hd, ?_,
    List.takeWhile_append_dropWhile.symm⟩
  intro c hc
  have hhead := List.head?_dropWhile_not Char.isDigit cs
  rw [hc] at hhead
  simpa using hhead

/-- The letters complete a numeral of which something has been read. -/
def NumeralState.Completes (state : NumeralState) (cs : List Char) : Prop :=
  (cs.foldl next state).isComplete = true

namespace NumeralState

variable {state : NumeralState} {c : Char} {cs ds : List Char}

/-- At a digit the automaton goes on as for digits. -/
theorem next_digit (hc : c.isDigit = true) : state.next c = state.digit := if_pos hc

/-- Letters complete a numeral when those after the first one complete it after the first. -/
theorem completes_cons : state.Completes (c :: cs) ↔ (state.next c).Completes cs := Iff.rfl

/-- No letters complete what is rejected. -/
theorem not_completes_rejected (cs : List Char) : ¬ rejected.Completes cs := by
  induction cs with
  | nil => nofun
  | cons c cs ih =>
    have hnext : rejected.next c = rejected := by
      unfold next
      split <;> rfl
    rw [completes_cons, hnext]
    exact ih

/-- What is rejected at a letter is no numeral, whatever follows. -/
theorem not_completes_cons (h : state.next c = rejected) : ¬ state.Completes (c :: cs) := by
  rw [completes_cons, h]
  exact not_completes_rejected cs

/-- Digits complete a numeral when what follows them does. -/
theorem completes_digits (hds : IsDigits ds) : state.Completes (ds ++ cs) ↔ state.digit.Completes cs := by
  rw [Completes, List.foldl_append, hds.read]
  rfl

/-- Digits lead nowhere else where further digits may follow. -/
theorem completes_run (hstate : state.digit = state) (hds : ∀ d ∈ ds, d.isDigit = true) :
    state.Completes (ds ++ cs) ↔ state.Completes cs := by
  by_cases hnil : ds = []
  · rw [hnil, List.nil_append]
  · rw [completes_digits ⟨hnil, hds⟩, hstate]

/-- What completes an exponent is digits. -/
theorem digits_of_exponent (h : exponent.Completes cs) : ∀ c ∈ cs, c.isDigit = true := by
  obtain ⟨ds, rest, hds, hrest, rfl⟩ := exists_run cs
  rw [completes_run rfl hds] at h
  cases rest with
  | nil => rwa [List.append_nil]
  | cons c rest => exact absurd h (not_completes_cons (by simp [next, hrest c rfl]))

/-- What completes an exponent after its sign is digits, at least one. -/
theorem digits_of_exponentSign (h : exponentSign.Completes cs) : IsDigits cs := by
  cases cs with
  | nil => cases h
  | cons c cs =>
    by_cases hc : c.isDigit = true
    · rw [completes_cons, next_digit hc] at h
      exact .cons hc (digits_of_exponent h)
    · exact absurd h (not_completes_cons (by simp [next, hc]))

/-- What completes an exponent after its mark is a sign, if there is one, and digits. -/
theorem signed_of_mark (h : mark.Completes cs) : IsSigned cs := by
  cases cs with
  | nil => cases h
  | cons c cs =>
    by_cases hc : c.isDigit = true
    · rw [completes_cons, next_digit hc] at h
      exact ⟨[], c :: cs, .inl rfl, .cons hc (digits_of_exponent h), rfl⟩
    · by_cases hsign : c = '-' ∨ c = '+'
      · have hnext : mark.next c = exponentSign := by simp [next, hc, hsign]
        rw [completes_cons, hnext] at h
        refine ⟨[c], cs, .inr ?_, digits_of_exponentSign h, rfl⟩
        simpa using hsign
      · exact absurd h (not_completes_cons (by simp [next, hc, hsign]))

/-- What completes a fraction is digits and an exponent, if there is one. -/
theorem exponent_of_fraction (h : fraction.Completes cs) : ∃ ds exponent, (∀ d ∈ ds, d.isDigit = true) ∧
    (exponent = [] ∨ IsExponent exponent) ∧ cs = ds ++ exponent := by
  obtain ⟨ds, rest, hds, hrest, rfl⟩ := exists_run cs
  refine ⟨ds, rest, hds, ?_, rfl⟩
  rw [completes_run rfl hds] at h
  cases rest with
  | nil => exact .inl rfl
  | cons c rest =>
    have hc := hrest c rfl
    by_cases hmark : c = 'e' ∨ c = 'E'
    · have hnext : fraction.next c = mark := by simp [next, hc, hmark]
      rw [completes_cons, hnext] at h
      exact .inr ⟨c, rest, hmark, signed_of_mark h, rfl⟩
    · exact absurd h (not_completes_cons (by simp [next, hc, hmark]))

/-- What completes a numeral after its point makes a fraction, with an exponent, if there is one. -/
theorem fractional_of_point (h : point.Completes cs) : IsFractional ('.' :: cs) := by
  cases cs with
  | nil => cases h
  | cons c cs =>
    by_cases hc : c.isDigit = true
    · rw [completes_cons, next_digit hc] at h
      obtain ⟨ds, exponent, hds, hexponent, rfl⟩ := exponent_of_fraction h
      exact ⟨'.' :: c :: ds, exponent, .inr ⟨c :: ds, .cons hc hds, rfl⟩, hexponent, rfl⟩
    · exact absurd h (not_completes_cons (by simp [next, hc]))

/-- What completes a whole number is digits, a fraction and an exponent, each of them if there is one. -/
theorem fractional_of_whole (h : whole.Completes cs) : ∃ ds rest, (∀ d ∈ ds, d.isDigit = true) ∧
    IsFractional rest ∧ cs = ds ++ rest := by
  obtain ⟨ds, rest, hds, hrest, rfl⟩ := exists_run cs
  refine ⟨ds, rest, hds, ?_, rfl⟩
  rw [completes_run rfl hds] at h
  cases rest with
  | nil => exact ⟨[], [], .inl rfl, .inl rfl, rfl⟩
  | cons c rest =>
    have hc := hrest c rfl
    by_cases hpoint : c = '.'
    · subst hpoint
      exact fractional_of_point h
    · by_cases hmark : c = 'e' ∨ c = 'E'
      · have hnext : whole.next c = mark := by simp [next, hc, hpoint, hmark]
        rw [completes_cons, hnext] at h
        exact ⟨[], c :: rest, .inl rfl, .inr ⟨c, rest, hmark, signed_of_mark h, rfl⟩, rfl⟩
      · exact absurd h (not_completes_cons (by simp [next, hc, hpoint, hmark]))

/-- A numeral has to go on with digits at its beginning and after its sign. -/
theorem exists_whole (hstate : state = start ∨ state = sign) (hc : c.isDigit = true)
    (h : (state.next c).Completes cs) :
    ∃ whole rest, IsDigits whole ∧ IsFractional rest ∧ c :: cs = whole ++ rest := by
  have hwhole : state.next c = whole := by
    rw [next_digit hc]
    rcases hstate with rfl | rfl <;> rfl
  rw [hwhole] at h
  obtain ⟨ds, rest, hds, hrest, rfl⟩ := fractional_of_whole h
  exact ⟨c :: ds, rest, .cons hc hds, hrest, rfl⟩

end NumeralState

open NumeralState

/-- What the automaton accepts is a numeral. -/
theorem isNumeralText_of_isNumeral {s : String} (h : isNumeral s = true) : IsNumeralText s := by
  have hstart : NumeralState.start.Completes s.toList := h
  unfold IsNumeralText
  generalize s.toList = letters at hstart ⊢
  cases letters with
  | nil => cases hstart
  | cons c cs =>
    by_cases hc : c.isDigit = true
    · obtain ⟨whole, rest, hwhole, hrest, heq⟩ := exists_whole (.inl rfl) hc hstart
      exact ⟨[], whole, rest, .inl rfl, hwhole, hrest, heq⟩
    · by_cases hminus : c = '-'
      · subst hminus
        have hsign : NumeralState.sign.Completes cs := hstart
        cases cs with
        | nil => cases hsign
        | cons d cs =>
          by_cases hd : d.isDigit = true
          · obtain ⟨whole, rest, hwhole, hrest, heq⟩ := exists_whole (.inr rfl) hd hsign
            exact ⟨['-'], whole, rest, .inr rfl, hwhole, hrest, congrArg ('-' :: ·) heq⟩
          · exact absurd hsign (not_completes_cons (by simp [next, hd]))
      · exact absurd hstart (not_completes_cons (by simp [next, hc, hminus]))

/-- An exponent completes a numeral wherever one may begin and the numeral may end. -/
theorem completes_exponent {state : NumeralState} {cs : List Char}
    (hmark : ∀ c, c = 'e' ∨ c = 'E' → state.next c = .mark) (hstate : state.isComplete = true)
    (h : cs = [] ∨ IsExponent cs) : state.Completes cs := by
  rcases h with rfl | ⟨mark, _, hm, ⟨sign, ds, hsign, hds, rfl⟩, rfl⟩
  · exact hstate
  · have hdigits : ∀ before : NumeralState, before.digit = .exponent → before.Completes ds := by
      intro before hbefore
      rw [← List.append_nil ds, completes_digits hds, hbefore]
      rfl
    rw [completes_cons, hmark mark hm]
    rcases hsign with rfl | rfl | rfl
    · exact hdigits .mark rfl
    · exact hdigits .exponentSign rfl
    · exact hdigits .exponentSign rfl

/-- A fraction and an exponent complete a whole number. -/
theorem completes_fractional {cs : List Char} (h : IsFractional cs) : NumeralState.whole.Completes cs := by
  obtain ⟨fraction, exponent, hfraction, hexponent, rfl⟩ := h
  rcases hfraction with rfl | ⟨ds, hds, rfl⟩
  · refine completes_exponent ?_ rfl hexponent
    rintro c (rfl | rfl) <;> rfl
  · rw [List.cons_append, completes_cons, show NumeralState.whole.next '.' = .point from rfl, completes_digits hds]
    refine completes_exponent ?_ rfl hexponent
    rintro c (rfl | rfl) <;> rfl

/-- The automaton accepts just the numerals. -/
theorem isNumeral_iff {s : String} : isNumeral s = true ↔ IsNumeralText s := by
  refine ⟨isNumeralText_of_isNumeral, ?_⟩
  rintro ⟨sign, whole, rest, hsign, hwhole, hrest, hletters⟩
  show NumeralState.start.Completes s.toList
  rw [hletters, List.append_assoc]
  rcases hsign with rfl | rfl
  · exact (completes_digits hwhole).2 (completes_fractional hrest)
  · show NumeralState.sign.Completes (whole ++ rest)
    exact (completes_digits hwhole).2 (completes_fractional hrest)

end Number

open Sql Number

/-- A truth value is written as a numeral. -/
theorem Sql.isNumeral_bit (b : Bool) : isNumeral (bit b) = true := by
  cases b <;> decide

/-- A literal in the style of numbers is a single numeral, for integers, finite doubles and truth values always, and
for a decimal number just when the letters it was given in are one. -/
theorem number_literal_numeral_iff (m : TypeMapping) (hm : m.literal = .number) (value : Literal)
    (hvalue : value.isNull = false) (text : String) (h : m.write value = .ok text) :
    IsNumeralText text ↔ ∀ digits, value = .decimal digits → IsNumeralText digits := by
  have hwrite : LiteralStyle.number.write? value = some text := by
    rcases m.literal_of_write h with ⟨hnull, -⟩ | hwrite
    · rw [hvalue] at hnull
      cases hnull
    · rwa [hm] at hwrite
  cases value with
  | decimal digits =>
    cases hwrite
    refine ⟨fun htext digits' heq => ?_, fun hdigits => hdigits _ rfl⟩
    cases heq
    exact htext
  | integer i =>
    cases hwrite
    exact iff_of_true (isNumeral_iff.1 (isNumeral_int _)) nofun
  | float x =>
    by_cases hfinite : x.isFinite = true
    · rw [LiteralStyle.write?, if_pos hfinite] at hwrite
      cases hwrite
      exact iff_of_true (isNumeral_iff.1 (messageStyle.isNumeral_write hfinite)) nofun
    · rw [LiteralStyle.write?, if_neg hfinite] at hwrite
      cases hwrite
  | boolean b =>
    cases hwrite
    exact iff_of_true (isNumeral_iff.1 (isNumeral_bit b)) nofun
  | _ => cases hwrite

/-- The letters of a decimal number with an exponent are a numeral, and so is its literal. -/
theorem decimalWithExponent_is_numeral :
    (TypeMapping.of "decimal(18,2)" .decimal .number).write (.decimal "-0012.50E+03") = .ok "-0012.50E+03" ∧
      IsNumeralText "-0012.50E+03" := by
  have hwrite : (TypeMapping.of "decimal(18,2)" .decimal .number).write (.decimal "-0012.50E+03") =
      .ok "-0012.50E+03" := by decide
  have hnumeral : isNumeral "-0012.50E+03" = true := by decide
  refine ⟨hwrite, (number_literal_numeral_iff _ rfl _ rfl _ hwrite).2 fun digits hdigits => ?_⟩
  cases hdigits
  exact isNumeral_iff.1 hnumeral

/-- A decimal number may be given in letters that are a condition, and these are written as they are. -/
theorem conditionAsDecimal_no_numeral :
    ∃ m, Dialect.generic.catalog.mapping? .decimal = some m ∧ m.literal = .number ∧
      m.write (.decimal "0 OR 1 = 1") = .ok "0 OR 1 = 1" ∧ ¬ IsNumeralText "0 OR 1 = 1" := by
  refine ⟨_, rfl, rfl, by decide, fun hnumeral => ?_⟩
  have hread := isNumeral_iff.2 hnumeral
  revert hread
  decide

end QueryPipeline
