import QueryPipeline.Json.Reader
import QueryPipeline.Json.Writer
import QueryPipeline.Proofs.Numerals

/-!
# Numbers in interchange texts

A number is scanned as far as digits, a point or an exponent go on, and no zero may stand before other digits.
The numbers that stand for integers and for doubles are written like that, so each is scanned as it was written.
-/

set_option autoImplicit false

open QueryPipeline.Number

namespace QueryPipeline.Json

/-- A number would go on with this letter. -/
def continuesNumber (c : Char) : Bool := c.isDigit || c == '.' || c == 'e' || c == 'E'

/-- A number ends before these letters. -/
def EndsNumber (cs : List Char) : Prop := ∀ c ∈ cs.head?, continuesNumber c = false

/-- The digits of a number are such as the format has them. -/
structure Number.IsPlain (n : Number) : Prop where
  whole : IsDigits n.whole
  leading : n.whole.head? = some '0' → n.whole.length = 1
  fraction : ∀ c ∈ n.fraction, c.isDigit = true

/-- The letters of an exponent, if there is one. -/
def exponentText : Option Int → List Char
  | none => []
  | some e => 'e' :: (toString e).toList

section Scanning

variable {ds rest : List Char}

/-- No digit goes on with a number where it ends. -/
theorem EndsNumber.not_digit (h : EndsNumber rest) : ∀ c ∈ rest.head?, c.isDigit = false := by
  intro c hc
  have hcontinues := h c hc
  simp only [continuesNumber, Bool.or_eq_false_iff] at hcontinues
  exact hcontinues.1.1.1

/-- The digits before a point are read up to what is no digit, without leading zeros. -/
theorem wholePart?_append (hds : IsDigits ds) (hleading : ds.head? = some '0' → ds.length = 1)
    (hrest : ∀ c ∈ rest.head?, c.isDigit = false) : wholePart? (ds ++ rest) = some ds := by
  have hempty : ds.isEmpty = false := by simp [hds.ne_nil]
  have hzero : (ds.head? == some '0' && decide (1 < ds.length)) = false := by
    by_cases hhead : ds.head? = some '0'
    · simp [hleading hhead]
    · simp [hhead]
  unfold wholePart?
  dsimp only
  rw [takeWhile_run hds.digit hrest, hempty, hzero]
  rfl

/-- The digits after a point are read up to what is no digit. -/
theorem fractionPart?_append (hds : ∀ c ∈ ds, c.isDigit = true)
    (hrest : ∀ c ∈ rest.head?, c.isDigit = false ∧ c ≠ '.') :
    fractionPart? ((if ds.isEmpty then [] else '.' :: ds) ++ rest) = some (ds, rest) := by
  cases ds with
  | nil =>
    show fractionPart? rest = _
    unfold fractionPart?
    split
    · rename_i rest
      exact absurd rfl (hrest '.' rfl).2
    · rfl
  | cons d ds =>
    have htake := takeWhile_run hds fun c hc => (hrest c hc).1
    show fractionPart? ('.' :: ((d :: ds) ++ rest)) = _
    simp only [fractionPart?]
    rw [htake, List.drop_left]
    rfl

/-- The value of digits is the same among the integers. -/
theorem foldl_digits (hds : ∀ c ∈ ds, c.isDigit = true) (n : Nat) :
    ds.foldl (fun v c => 10 * v + ((c.toNat : Int) - ('0'.toNat : Int))) (n : Int) = Nat.ofDigitChars 10 ds n := by
  induction ds generalizing n with
  | nil => rfl
  | cons d ds ih =>
    have hd : '0'.toNat ≤ d.toNat := by
      have hdigit := hds d List.mem_cons_self
      simp only [Char.isDigit, Bool.and_eq_true, decide_eq_true_eq, ge_iff_le] at hdigit
      exact hdigit.1
    have hstep : 10 * (n : Int) + ((d.toNat : Int) - ('0'.toNat : Int)) =
        ((10 * n + (d.toNat - '0'.toNat) : Nat) : Int) := by omega
    rw [List.foldl_cons, hstep, ih (fun c hc => hds c (List.mem_cons_of_mem _ hc)), Nat.ofDigitChars_cons]

/-- An exponent is read up to where the number ends. -/
theorem exponentPart?_append (exponent : Option Int) (hrest : EndsNumber rest) :
    exponentPart? (exponentText exponent ++ rest) = some (exponent, rest) := by
  have hdigits : ∀ (n : Nat) (negative : Bool),
      (let digits := (Nat.toDigits 10 n ++ rest).takeWhile Char.isDigit
        if digits.isEmpty then none
        else
          let value : Int := digits.foldl (fun v c => 10 * v + ((c.toNat : Int) - ('0'.toNat : Int))) (0 : Nat)
          some (some (if negative then -value else value), (Nat.toDigits 10 n ++ rest).drop digits.length)) =
        some (some (if negative then -(n : Int) else n), rest) := by
    intro n negative
    have htake := takeWhile_run (isDigits_toDigits n).digit hrest.not_digit
    dsimp only
    rw [htake, foldl_digits (isDigits_toDigits n).digit, Nat.ofDigitChars_ten_toDigits, List.drop_left]
    simp [Nat.toDigits_ne_nil]
  cases exponent with
  | none =>
    -- What follows a number is no mark of an exponent.
    show exponentPart? rest = _
    unfold exponentPart?
    split
    · rename_i c rest
      have hc := hrest c rfl
      simp only [continuesNumber, Bool.or_eq_false_iff] at hc
      rw [hc.1.2, hc.2]
      rfl
    · rfl
  | some e =>
    cases e with
    | ofNat n =>
      have htext : (toString (Int.ofNat n)).toList = Nat.toDigits 10 n := toList_toString_nat n
      obtain ⟨c, cs, hcs⟩ := List.exists_cons_of_ne_nil (Nat.toDigits_ne_nil (n := n) (b := 10))
      have hc : c.isDigit = true := (isDigits_toDigits n).digit c (by simp [hcs])
      have hplain := hdigits n false
      show exponentPart? ('e' :: ((toString (Int.ofNat n)).toList ++ rest)) = _
      rw [htext]
      rw [hcs] at hplain ⊢
      -- a digit is no sign
      have hminus : c ≠ '-' := by
        rintro rfl
        cases hc
      have hplus : c ≠ '+' := by
        rintro rfl
        cases hc
      simp only [exponentPart?, List.cons_append]
      rw [if_pos (by decide)]
      split
      · rename_i heq
        exact absurd (List.cons.inj heq).1 hminus
      · rename_i heq
        exact absurd (List.cons.inj heq).1 hplus
      · exact hplain
    | negSucc n =>
      have htext : (toString (Int.negSucc n)).toList = '-' :: Nat.toDigits 10 (n + 1) := by
        show ("-" ++ toString (n + 1)).toList = _
        rw [String.toList_append, toList_toString_nat]
        rfl
      show exponentPart? ('e' :: ((toString (Int.negSucc n)).toList ++ rest)) = _
      rw [htext]
      exact hdigits (n + 1) true

/-- The parts of a number are read one after the other, up to where the number ends. -/
theorem scanUnsigned?_append {n : Number} (h : n.IsPlain) (hrest : EndsNumber rest) (negative : Bool) :
    scanUnsigned? negative (n.whole ++ ((if n.fraction.isEmpty then [] else '.' :: n.fraction) ++
      (exponentText n.exponent ++ rest))) = some (⟨negative, n.whole, n.fraction, n.exponent⟩, rest) := by
  have hexponent : ∀ c ∈ (exponentText n.exponent ++ rest).head?, c.isDigit = false ∧ c ≠ '.' := by
    intro c hc
    cases he : n.exponent with
    | none =>
      rw [he] at hc
      have hcontinues := hrest c hc
      simp only [continuesNumber, Bool.or_eq_false_iff, beq_eq_false_iff_ne] at hcontinues
      exact ⟨hcontinues.1.1.1, hcontinues.1.1.2⟩
    | some e =>
      rw [he] at hc
      cases hc
      exact ⟨by decide, by decide⟩
  have hfraction : ∀ c ∈ ((if n.fraction.isEmpty then [] else '.' :: n.fraction) ++
      (exponentText n.exponent ++ rest)).head?, c.isDigit = false := by
    intro c hc
    cases hf : n.fraction with
    | nil =>
      rw [hf] at hc
      exact (hexponent c hc).1
    | cons d ds =>
      rw [hf] at hc
      cases hc
      decide
  unfold scanUnsigned?
  rw [wholePart?_append h.whole h.leading hfraction, Option.bind_eq_bind, Option.bind_some, List.drop_left,
    fractionPart?_append h.fraction hexponent]
  simp only [Option.bind_eq_bind, Option.bind_some]
  rw [exponentPart?_append n.exponent hrest]
  rfl

/-- The text of a number is its sign, its digits, its fraction and its exponent. -/
theorem Number.text_append (n : Number) (rest : List Char) :
    n.text ++ rest = (if n.negative then ['-'] else []) ++ (n.whole ++
      ((if n.fraction.isEmpty then [] else '.' :: n.fraction) ++ (exponentText n.exponent ++ rest))) := by
  obtain ⟨negative, whole, fraction, exponent⟩ := n
  cases exponent <;> simp [text, exponentText]

/-- A number is scanned as it was written, up to what follows it. -/
theorem scanNumber?_text {n : Number} (h : n.IsPlain) (hrest : EndsNumber rest) :
    scanNumber? (n.text ++ rest) = some (n, rest) := by
  have hscan := scanUnsigned?_append h hrest n.negative
  rw [n.text_append]
  cases hsign : n.negative with
  | true =>
    rw [hsign] at hscan
    exact hscan.trans (by rw [← hsign])
  | false =>
    rw [hsign] at hscan
    obtain ⟨c, cs, hcs⟩ := List.exists_cons_of_ne_nil h.whole.ne_nil
    have hc : c ≠ '-' := by
      rintro rfl
      have hdigit := h.whole.digit '-' (by simp [hcs])
      cases hdigit
    rw [hcs] at hscan ⊢
    unfold scanNumber?
    split
    · rename_i heq
      exact absurd (List.cons.inj heq).1 hc
    · exact hscan.trans (by rw [← hsign, ← hcs])

/-- A number begins with a minus sign or a digit. -/
theorem Number.IsPlain.exists_text {n : Number} (h : n.IsPlain) :
    ∃ c cs, n.text = c :: cs ∧ (c = '-' ∨ c.isDigit = true) := by
  have htext := n.text_append []
  rw [List.append_nil] at htext
  rw [htext]
  cases n.negative with
  | true => exact ⟨_, _, rfl, .inl rfl⟩
  | false =>
    obtain ⟨c, cs, hcs⟩ := List.exists_cons_of_ne_nil h.whole.ne_nil
    rw [hcs]
    exact ⟨_, _, rfl, .inr (h.whole.digit c (by simp [hcs]))⟩

/-- The first letter of a number begins no other token. -/
theorem scanToken?_text {n : Number} (h : n.IsPlain) (hrest : EndsNumber rest) :
    scanToken? (n.text ++ rest) = some (.number n, rest) := by
  have hscan := scanNumber?_text h hrest
  obtain ⟨c, cs, htext, hc⟩ := h.exists_text
  rw [htext, List.cons_append] at hscan ⊢
  unfold scanToken?
  split
  case h_11 =>
    rw [hscan]
    rfl
  all_goals
    rename_i heq
    obtain ⟨rfl, -⟩ := List.cons.inj heq
    exact absurd hc (by decide)

end Scanning

section Integers

/-- A whole number has the parts of a plain one. -/
theorem Number.ofInt_isPlain (i : Int) : (Number.ofInt i).IsPlain :=
  ⟨isDigits_toDigits _, leading_toDigits, List.forall_mem_nil _⟩

/-- The number that stands for an integer is read as the integer. -/
theorem Number.toInt?_ofInt (i : Int) : (Number.ofInt i).toInt? = some i := by
  have hvalue : (Nat.toDigits 10 i.natAbs).foldl (fun v c => 10 * v + (c.toNat - '0'.toNat)) 0 = i.natAbs := by
    rw [← Nat.ofDigitChars_eq_foldl, Nat.ofDigitChars_ten_toDigits]
  simp only [toInt?, Number.ofInt, List.isEmpty_nil, Option.isNone_none, Bool.and_self, if_true, hvalue]
  by_cases hi : i < 0
  · simp only [hi, decide_true, if_true]
    rw [if_neg (by omega)]
    congr 1
    omega
  · simp only [hi, decide_false, Bool.false_eq_true, if_false]
    congr 1
    omega

end Integers

section Doubles

variable {whole rest : List Char}

/-- A numeral that begins with digits as the format has them is split into such digits. -/
theorem Number.ofNumeral_isPlain (hwhole : IsDigits whole) (hleading : whole.head? = some '0' → whole.length = 1)
    (hrest : ∀ c ∈ rest.head?, c.isDigit = false) (negative : Bool) :
    (Number.ofNumeral ((if negative then ['-'] else []) ++ (whole ++ rest))).IsPlain := by
  generalize hcs : (if negative then ['-'] else []) ++ (whole ++ rest) = cs
  have hbody : (if cs.head? == some '-' then cs.drop 1 else cs) = whole ++ rest := by
    subst hcs
    cases negative with
    | true => rfl
    | false =>
      obtain ⟨d, ds, hds⟩ := List.exists_cons_of_ne_nil hwhole.ne_nil
      have hd : d ≠ '-' := by
        rintro rfl
        have hdigit := hwhole.digit '-' (by simp [hds])
        cases hdigit
      simp [hds, hd]
  have hdigits := takeWhile_run hwhole.digit hrest
  unfold Number.ofNumeral
  dsimp only
  rw [hbody]
  refine ⟨?_, ?_, fun c hc => ?_⟩
  · dsimp only
    rw [hdigits]
    exact hwhole
  · dsimp only
    rw [hdigits]
    exact hleading
  · dsimp only at hc
    split at hc
    · exact (List.all_eq_true.1 List.all_takeWhile) c hc
    · cases hc

/-- The number that stands for a finite double has digits as the format has them. -/
theorem Number.ofNumeral_write_isPlain {x : Double} (hx : x.isFinite = true) :
    (Number.ofNumeral (interchangeStyle.write x).toList).IsPlain := by
  obtain ⟨whole, rest, hwhole, hleading, hrest, -, hform⟩ := interchangeStyle.write_form hx
  have hletters : (interchangeStyle.write x).toList =
      (if x.isNegative then ['-'] else []) ++ (whole ++ rest) := by
    rw [hform, String.toList_append, String.toList_ofList]
    cases x.isNegative <;> rfl
  rw [hletters]
  exact Number.ofNumeral_isPlain hwhole hleading hrest _

end Doubles

end QueryPipeline.Json
