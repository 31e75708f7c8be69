import Mathlib.Tactic.Common
import Mathlib.Tactic.IntervalCases
import QueryPipeline.Number.Numeral

/-!
# Numerals

A numeral of a statement is a minus sign, if there is one, then digits, then a point with digits after it, if
there is one, and at last an `e` with an exponent, if there is one. An automaton reads numerals letter by
letter. The integers and the doubles that a statement contains are written as numerals.
-/

set_option autoImplicit false

namespace QueryPipeline

namespace Number

/-- How much of a numeral has been read. -/
inductive NumeralState where
  | start
  | sign
  | whole
  | point
  | fraction
  /-- The `e` before an exponent. -/
  | mark
  | exponentSign
  | exponent
  | rejected
deriving DecidableEq, Repr

namespace NumeralState

/-- What has been read after one more digit. -/
def digit : NumeralState → NumeralState
  | start | sign | whole => whole
  | point | fraction => fraction
  | mark | exponentSign | exponent => exponent
  | rejected => rejected

/-- What has been read after one more letter. -/
def next (state : NumeralState) (c : Char) : NumeralState :=
  if c.isDigit then state.digit
  else match state with
    | start => if c = '-' then sign else rejected
    | whole => if c = '.' then point else if c = 'e' ∨ c = 'E' then mark else rejected
    | fraction => if c = 'e' ∨ c = 'E' then mark else rejected
    | mark => if c = '-' ∨ c = '+' then exponentSign else rejected
    | _ => rejected

/-- The numeral may end here. -/
def isComplete : NumeralState → Bool
  | whole | fraction | exponent => true
  | _ => false

end NumeralState

/-- The text is a numeral. -/
def isNumeral (s : String) : Bool := (s.toList.foldl NumeralState.next .start).isComplete

/-- The letters are digits, and there is at least one. -/
structure IsDigits (cs : List Char) : Prop where
  ne_nil : cs ≠ []
  digit : ∀ c ∈ cs, c.isDigit = true

/-- The decimal letters of a number are digits. -/
theorem isDigits_toDigits (n : Nat) : IsDigits (Nat.toDigits 10 n) :=
  ⟨Nat.toDigits_ne_nil, fun _ hc => Nat.isDigit_of_mem_toDigits (by decide) (by decide) hc⟩

namespace IsDigits

variable {cs ds : List Char}

/-- Digits with further digits after them are digits. -/
theorem append (hc : IsDigits cs) (hd : ∀ d ∈ ds, d.isDigit = true) : IsDigits (cs ++ ds) := by
  refine ⟨?_, List.forall_mem_append.2 ⟨hc.digit, hd⟩⟩
  simp [hc.ne_nil]

/-- The first ones of digits, at least one, are digits. -/
theorem take (h : IsDigits cs) {n : Nat} (hn : 0 < n) : IsDigits (cs.take n) := by
  refine ⟨?_, fun c hc => h.digit c (List.mem_of_mem_take hc)⟩
  simp only [ne_eq, List.take_eq_nil_iff, not_or]
  exact ⟨by omega, h.ne_nil⟩

/-- What is left of digits, at least one, is digits. -/
theorem drop (h : IsDigits cs) {n : Nat} (hn : n < cs.length) : IsDigits (cs.drop n) := by
  refine ⟨?_, fun c hc => h.digit c (List.mem_of_mem_drop hc)⟩
  simp only [ne_eq, List.drop_eq_nil_iff]
  omega

/-- Several digits lead where a single one does. -/
theorem read (h : IsDigits cs) (state : NumeralState) : cs.foldl NumeralState.next state = state.digit := by
  obtain ⟨hne, hdigit⟩ := h
  induction cs generalizing state with
  | nil => exact absurd rfl hne
  | cons c rest ih =>
    obtain ⟨hc, hrest⟩ := List.forall_mem_cons.1 hdigit
    have hnext : state.next c = state.digit := if_pos hc
    rw [List.foldl_cons, hnext]
    by_cases hnil : rest = []
    · rw [hnil, List.foldl_nil]
    · have hagain : state.digit.digit = state.digit := by cases state <;> rfl
      rw [ih state.digit hnil hrest, hagain]

end IsDigits

/-- Zeros are digits. -/
theorem isDigits_replicate_zero {n : Nat} : ∀ c ∈ List.replicate n '0', c.isDigit = true := by
  intro c hc
  rw [List.eq_of_mem_replicate hc]
  rfl

/-- A run of letters of one sort ends before the first letter that is none of them. -/
theorem takeWhile_run {p : Char → Bool} {cs rest : List Char} (hcs : ∀ c ∈ cs, p c = true)
    (hrest : ∀ c ∈ rest.head?, p c = false) : (cs ++ rest).takeWhile p = cs := by
  rw [List.takeWhile_append_of_pos hcs]
  cases rest with
  | nil => simp
  | cons c rest =>
    have hc : p c = false := hrest c rfl
    simp [hc]

/-- A number is written with its decimal digits. -/
theorem toList_toString_nat (n : Nat) : (toString n).toList = Nat.toDigits 10 n := by
  rw [Nat.toString_eq_ofList_toDigits, String.toList_ofList]

/-- The letters of an integer, after a part of a numeral that a sign may follow, complete it. -/
theorem read_int {state signed : NumeralState} (hsign : state.next '-' = signed)
    (hdigit : signed.digit = state.digit) (i : Int) :
    (toString i).toList.foldl NumeralState.next state = state.digit := by
  cases i with
  | ofNat n =>
    have htext : (toString (Int.ofNat n)).toList = Nat.toDigits 10 n := toList_toString_nat n
    rw [htext, (isDigits_toDigits n).read]
  | negSucc n =>
    have htext : (toString (Int.negSucc n)).toList = '-' :: Nat.toDigits 10 (n + 1) := by
      show ("-" ++ toString (n + 1)).toList = _
      rw [String.toList_append, toList_toString_nat]
      rfl
    rw [htext, List.foldl_cons, hsign, (isDigits_toDigits _).read, hdigit]

/-- An integer is written as a numeral. -/
theorem isNumeral_int (i : Int) : isNumeral (toString i) = true := by
  have hsign : NumeralState.start.next '-' = .sign := rfl
  rw [isNumeral, read_int hsign rfl]
  rfl

/-- A sign stands before a numeral that begins with digits. -/
theorem isNumeral_signed {ds cs : List Char} (hds : IsDigits ds)
    (h : (cs.foldl NumeralState.next .whole).isComplete = true) (negative : Bool) :
    isNumeral ((if negative then "-" else "") ++ String.ofList (ds ++ cs)) = true := by
  have hread : ∀ state : NumeralState, state.digit = .whole →
      ((ds ++ cs).foldl NumeralState.next state).isComplete = true := by
    intro state hstate
    rw [List.foldl_append, hds.read, hstate, h]
  rw [isNumeral, String.toList_append, String.toList_ofList, List.foldl_append]
  cases negative with
  | true => exact hread .sign rfl
  | false => exact hread .start rfl

/-- A point with digits after it completes a numeral. -/
theorem read_fraction {ds : List Char} (hds : IsDigits ds) :
    ('.' :: ds).foldl NumeralState.next .whole = .fraction := by
  rw [List.foldl_cons]
  exact hds.read .point

/-- A number whose digits begin with a zero is zero. -/
theorem head?_toDigits {n : Nat} (h : (Nat.toDigits 10 n).head? = some '0') : n = 0 := by
  -- The digits of a number begin with the digits of its tenth, so the tenth is zero, and one digit is left.
  induction n using Nat.strong_induction_on with
  | _ n ih =>
    rw [Nat.toDigits_eq_if (by decide)] at h
    split at h
    · rename_i hlt
      interval_cases n <;> first | rfl | cases h
    · rename_i hle
      obtain ⟨c, cs, hcs⟩ := List.exists_cons_of_ne_nil (Nat.toDigits_ne_nil (n := n / 10) (b := 10))
      rw [hcs] at h
      have hzero := ih (n / 10) (by omega) (by rw [hcs]; exact h)
      omega

/-- A number whose digits start with a zero has no other digits. -/
theorem leading_toDigits {n : Nat} (h : (Nat.toDigits 10 n).head? = some '0') :
    (Nat.toDigits 10 n).length = 1 := by
  rw [head?_toDigits h, Nat.toDigits_zero]
  rfl

section Shortest

/-- Zeros are only taken off a decimal that keeps other digits. -/
theorem withoutTrailingZeros_of_zero {fuel : Nat} {d : Decimal} (h : (d.withoutTrailingZeros fuel).digits = 0) :
    d.withoutTrailingZeros fuel = d := by
  induction fuel generalizing d with
  | zero => rfl
  | succ fuel ih =>
    rw [Decimal.withoutTrailingZeros] at h ⊢
    split at h
    · rename_i hd
      have hrest : d.digits / 10 = 0 := by
        have hsame := ih h
        rw [hsame] at h
        exact h
      omega
    · rename_i hd
      rw [if_neg hd]

/-- A neighbour of a number that is not zero is not zero. -/
theorem digits_neighbour? {m : Nat} {q p : Int} {d : Decimal} (hm : m ≠ 0) (h : neighbour? m q p = some d) :
    d.digits ≠ 0 := by
  have hscale : 0 < twoTo q.toNat * tenTo (-p).toNat :=
    Nat.mul_pos (Nat.pow_pos (by decide)) (Nat.pow_pos (by decide))
  unfold neighbour? at h
  extract_lets scale unit value below above fits low lowIsNearer at h
  have hbelow : 0 < below := by
    show 0 < if _ then _ else _
    split
    · exact Nat.mul_pos (by omega) hscale
    · exact Nat.mul_pos (by omega) hscale
  -- The interval of a number that is not zero begins above zero.
  have hzero : fits 0 = false := by
    show (if _ then _ else _) = false
    split
    · simp
      omega
    · simp
  split at h
  · rename_i hfits
    cases h
    intro hlow
    rw [show low = 0 from hlow, hzero] at hfits
    cases hfits
  · split at h
    · cases h
      exact Nat.succ_ne_zero low
    · cases h

/-- The only shortest decimal without other digits than zero is zero itself. -/
theorem exponent_shortest {x : Double} (h : (shortest x).digits = 0) : (shortest x).exponent = 0 := by
  unfold shortest at h ⊢
  generalize x.magnitude = magnitude at h ⊢
  obtain ⟨m, q⟩ := magnitude
  dsimp only at h ⊢
  split at h
  · rename_i hm
    rw [if_pos hm]
  · rename_i hm
    rw [if_neg hm, withoutTrailingZeros_of_zero h]
    rw [withoutTrailingZeros_of_zero h] at h
    cases hfound : (List.range 17).findSome? fun (k : Nat) => neighbour? m q (leadingExponent m q - k) with
    | none => rfl
    | some d =>
      rw [hfound] at h
      obtain ⟨k, -, hd⟩ := List.exists_of_findSome?_eq_some hfound
      exact absurd h (digits_neighbour? hm hd)

end Shortest

/-- A decimal in positional form has digits on both sides of its point, and a zero in front of the point
stands alone. -/
theorem Decimal.positional_form (d : Decimal) (hzero : d.digits = 0 → d.exponent = 0) :
    ∃ whole fraction, IsDigits whole ∧ (whole.head? = some '0' → whole.length = 1) ∧ IsDigits fraction ∧
      d.positional = String.ofList (whole ++ '.' :: fraction) := by
  have hdigits := isDigits_toDigits d.digits
  unfold positional
  dsimp only
  split
  · refine ⟨Nat.toDigits 10 d.digits ++ List.replicate d.exponent.toNat '0', ['0'],
      hdigits.append isDigits_replicate_zero, fun hhead => ?_, ⟨by simp, by simp⟩, ?_⟩
    · rw [List.head?_append, List.head?_eq_some_head hdigits.ne_nil, Option.some_or,
        ← List.head?_eq_some_head hdigits.ne_nil] at hhead
      have hexponent := hzero (head?_toDigits hhead)
      rw [List.length_append, leading_toDigits hhead, hexponent]
      rfl
    · simp [zeros, String.ofList_append, ← String.toList_inj]
  · rename_i hexponent
    split
    · rename_i hpoint
      have htake : 0 < ((Nat.toDigits 10 d.digits).length + d.exponent).toNat := by omega
      have hdrop : ((Nat.toDigits 10 d.digits).length + d.exponent).toNat <
          (Nat.toDigits 10 d.digits).length := by omega
      refine ⟨_, _, hdigits.take htake, fun hhead => ?_, hdigits.drop hdrop, by simp [← String.toList_inj]⟩
      rw [List.head?_take, if_neg (by omega)] at hhead
      have := hzero (head?_toDigits hhead)
      omega
    · refine ⟨['0'], List.replicate (-(↑(Nat.toDigits 10 d.digits).length + d.exponent)).toNat '0'
        ++ Nat.toDigits 10 d.digits, ⟨by simp, by simp⟩, fun _ => rfl, ⟨by simp, ?_⟩, ?_⟩
      · exact List.forall_mem_append.2 ⟨isDigits_replicate_zero, hdigits.digit⟩
      · simp [zeros, ← String.toList_inj]

/-- A decimal in scientific form has one digit before its point, if it has one, and an exponent. -/
theorem Decimal.scientific_form (d : Decimal) : ∃ whole rest, IsDigits whole ∧ whole.length = 1 ∧
    (∀ c ∈ rest.head?, c.isDigit = false) ∧ (rest.foldl NumeralState.next .whole).isComplete = true ∧
    d.scientific = String.ofList (whole ++ rest) := by
  have hdigits := isDigits_toDigits d.digits
  have hlead : ((Nat.toDigits 10 d.digits).take 1).length = 1 := by
    have := List.length_pos_iff.2 hdigits.ne_nil
    rw [List.length_take]
    omega
  have hexponent : ∀ state : NumeralState, state.next 'e' = .mark → ∀ i : Int,
      ('e' :: (toString i).toList).foldl NumeralState.next state = .exponent := by
    intro state hstate i
    have hsign : NumeralState.mark.next '-' = .exponentSign := rfl
    rw [List.foldl_cons, hstate, read_int hsign rfl]
    rfl
  unfold scientific
  dsimp only
  split
  · refine ⟨_, 'e' :: (toString ((Nat.toDigits 10 d.digits).length + d.exponent - 1)).toList,
      hdigits.take Nat.one_pos, hlead, by simp, ?_, ?_⟩
    · rw [hexponent .whole rfl]
      rfl
    · simp [← String.toList_inj]
  · rename_i hlength
    have hfraction := read_fraction (hdigits.drop (Nat.lt_of_not_le hlength))
    refine ⟨_, ('.' :: (Nat.toDigits 10 d.digits).drop 1) ++
      'e' :: (toString ((Nat.toDigits 10 d.digits).length + d.exponent - 1)).toList,
      hdigits.take Nat.one_pos, hlead, by simp, ?_, ?_⟩
    · rw [List.foldl_append, hfraction, hexponent .fraction rfl]
      rfl
    · simp [← String.toList_inj]

/-- A finite double is written with digits after its sign, and a zero among them that other digits follow is
not the first. -/
theorem NumeralStyle.write_form (style : NumeralStyle) {x : Double} (hx : x.isFinite = true) :
    ∃ whole rest, IsDigits whole ∧ (whole.head? = some '0' → whole.length = 1) ∧
      (∀ c ∈ rest.head?, c.isDigit = false) ∧ (rest.foldl NumeralState.next .whole).isComplete = true ∧
      style.write x = (if x.isNegative then "-" else "") ++ String.ofList (whole ++ rest) := by
  unfold NumeralStyle.write
  dsimp only
  rw [if_pos hx]
  split
  · obtain ⟨whole, fraction, hwhole, hleading, hfraction, hform⟩ := (shortest x).positional_form exponent_shortest
    refine ⟨whole, '.' :: fraction, hwhole, hleading, by simp, ?_, by rw [hform]⟩
    rw [read_fraction hfraction]
    rfl
  · obtain ⟨whole, rest, hwhole, hlength, hhead, hrest, hform⟩ := (shortest x).scientific_form
    exact ⟨whole, rest, hwhole, fun _ => hlength, hhead, hrest, by rw [hform]⟩

/-- A finite double is written as a numeral. -/
theorem NumeralStyle.isNumeral_write (style : NumeralStyle) {x : Double} (hx : x.isFinite = true) :
    isNumeral (style.write x) = true := by
  obtain ⟨whole, rest, hwhole, -, -, hrest, hform⟩ := style.write_form hx
  rw [hform]
  exact isNumeral_signed hwhole hrest x.isNegative

end Number

end QueryPipeline
