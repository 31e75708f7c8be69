import QueryPipeline.Calendar.Pattern
import QueryPipeline.Calendar.Reading
import QueryPipeline.Proofs.Numerals

/-!
# Texts of dates

A date whose year has at most four digits is read from its text, with the time of day and the leap second that
it may have. Every number in such a text fills its width, so it is read without a look at what follows it.
-/

set_option autoImplicit false

open QueryPipeline.Number

namespace QueryPipeline.Calendar

/-- The year of a date is written with four digits. -/
def Date.hasPlainYear (d : Date) : Bool := decide (0 ≤ d.year ∧ d.year ≤ 9999)

section Numbers

variable {width n : Nat} {rest : List Char}

/-- A number is written with zeros in front of its digits. -/
theorem toList_padded (width n : Nat) :
    (padded width n).toList = List.replicate (width - (Nat.toDigits 10 n).length) '0' ++ Nat.toDigits 10 n := by
  simp [padded]

/-- A number is written in digits. -/
theorem isDigits_padded (width n : Nat) : IsDigits (padded width n).toList := by
  rw [toList_padded]
  refine ⟨by simp [Nat.toDigits_ne_nil], ?_⟩
  exact List.forall_mem_append.2 ⟨isDigits_replicate_zero, (isDigits_toDigits n).digit⟩

/-- Zeros in front of a number do not change its value. -/
theorem digitsValue_padded (width n : Nat) : digitsValue (padded width n).toList = n := by
  rw [toList_padded, digitsValue, ← Nat.ofDigitChars_eq_foldl, Nat.ofDigitChars_append,
    Nat.ofDigitChars_replicate_zero, Nat.mul_zero, Nat.ofDigitChars_ten_toDigits]

/-- A number that is not too great fills its width. -/
theorem length_padded (hwidth : 0 < width) (hn : n < tenTo width) : (padded width n).toList.length = width := by
  have hlength : (Nat.toDigits 10 n).length ≤ width := (Nat.length_toDigits_le_iff (by decide) hwidth).2 hn
  rw [toList_padded, List.length_append, List.length_replicate]
  omega

/-- No blanks stand in front of digits. -/
theorem trimFront_digits {cs : List Char} (h : IsDigits cs) : Text.trimFront (cs ++ rest) = cs ++ rest := by
  obtain ⟨c, cs, rfl⟩ := List.exists_cons_of_ne_nil h.ne_nil
  have hc : c.isDigit = true := h.digit c List.mem_cons_self
  have hblank : Text.isBlank c = false := by
    simp only [Char.isDigit, Bool.and_eq_true, decide_eq_true_eq, ge_iff_le] at hc
    have hleast : '0'.toNat ≤ c.toNat := hc.1
    have hgreatest : c.toNat ≤ '9'.toNat := hc.2
    simp only [Char.reduceToNat] at hleast hgreatest
    simp [Text.isBlank]
    omega
  rw [Text.trimFront, List.cons_append, List.dropWhile_cons, hblank]
  rfl

/-- As many digits as may be read are read, whatever follows them. -/
theorem readDigits?_full {cs : List Char} (h : IsDigits cs) (rest : List Char) :
    readDigits? cs.length (cs ++ rest) = some (cs, rest) := by
  have htake : ((cs ++ rest).take cs.length).takeWhile Char.isDigit = cs := by
    rw [List.take_left]
    have hdigits : (cs ++ []).takeWhile Char.isDigit = cs := takeWhile_run h.digit (by simp)
    rwa [List.append_nil] at hdigits
  have hempty : cs.isEmpty = false := by simp [h.ne_nil]
  unfold readDigits?
  dsimp only
  rw [htake, hempty, List.drop_left]
  rfl

/-- A number that fits its width is read back, and what follows it is left over. -/
theorem readNumber?_padded (hwidth : 0 < width) (hn : n < tenTo width) :
    readNumber? width ((padded width n).toList ++ rest) = some (n, rest) := by
  have hread := readDigits?_full (isDigits_padded width n) rest
  rw [length_padded hwidth hn] at hread
  rw [readNumber?, trimFront_digits (isDigits_padded width n), hread]
  simp [digitsValue_padded]

/-- A year of four digits has no sign. -/
theorem readYear?_padded (hn : n < tenTo 4) : readYear? ((padded 4 n).toList ++ rest) = some ((n : Int), rest) := by
  have hdigits := isDigits_padded 4 n
  have hread := readDigits?_full hdigits rest
  rw [length_padded (by decide) hn] at hread
  have hvalue := digitsValue_padded 4 n
  obtain ⟨c, cs, hcs⟩ := List.exists_cons_of_ne_nil hdigits.ne_nil
  have hc : c.isDigit = true := hdigits.digit c (by simp [hcs])
  rw [readYear?, trimFront_digits hdigits]
  rw [hcs] at hread hvalue ⊢
  split
  · rename_i heq
    cases (List.cons.inj heq).1
    cases hc
  · rename_i heq
    cases (List.cons.inj heq).1
    cases hc
  · rw [hread]
    simp [hvalue]

/-- A separator is skipped where it stands. -/
theorem skipSeparator?_self {c : Char} (hc : Text.isBlank c = false) : skipSeparator? c (c :: rest) = some rest := by
  simp [skipSeparator?, Text.trimFront, hc]

end Numbers

section Dates

variable {d : Date}

/-- No month has more than 31 days. -/
theorem daysInMonth_le (year : Int) (month : Nat) : daysInMonth year month ≤ 31 := by
  unfold daysInMonth
  split
  · split <;> omega
  · split <;> omega

/-- A date is read from its text, whatever follows it. -/
theorem readDate?_text (h : d.hasPlainYear = true) (rest : List Char) :
    readDate? (d.text.toList ++ rest) = some (d, rest) := by
  obtain ⟨year, month, day, hday⟩ := d
  obtain ⟨hyear, hlast⟩ : 0 ≤ year ∧ year ≤ 9999 := of_decide_eq_true h
  have hparts := hday
  simp only [isDay, Bool.and_eq_true, decide_eq_true_eq] at hparts
  have hmonth : month < tenTo 2 := by
    show month < 100
    omega
  have hdays : day < tenTo 2 := by
    show day < 100
    have := daysInMonth_le year month
    omega
  have hdigits : year.toNat < tenTo 4 := by
    show year.toNat < 10000
    omega
  have htext : (Date.text ⟨year, month, day, hday⟩).toList ++ rest = (padded 4 year.toNat).toList ++
      '-' :: ((padded 2 month).toList ++ '-' :: ((padded 2 day).toList ++ rest)) := by
    simp [Date.text, Pattern.write, dashedDate, Field.write, yearText, hyear, hlast]
  have hdash : Text.isBlank '-' = false := rfl
  simp [htext, readDate?, readYear?_padded hdigits, readNumber?_padded (by decide) hmonth,
    readNumber?_padded (by decide) hdays, skipSeparator?_self hdash, Date.ofParts?, Int.toNat_of_nonneg hyear, hday]

/-- A date whose year has four digits is read back from its text. -/
theorem Date.parse?_text (h : d.hasPlainYear = true) : Date.parse? d.text = some d := by
  have hread := readDate?_text h []
  rw [List.append_nil] at hread
  rw [Date.parse?, hread]
  rfl

end Dates

section Times

variable {t : Time}

/-- A fraction at the end of a text is read in nanoseconds. -/
theorem readFraction?_padded {width n : Nat} (hwidth : 0 < width ∧ width ≤ 9) (hn : n < tenTo width) :
    readFraction? ('.' :: (padded width n).toList) = some (n * tenTo (9 - width), []) := by
  have hdigits := isDigits_padded width n
  have hlength := length_padded hwidth.1 hn
  have hread : readDigits? 9 (padded width n).toList = some ((padded width n).toList, []) := by
    have htake : ((padded width n).toList ++ []).takeWhile Char.isDigit = (padded width n).toList :=
      takeWhile_run hdigits.digit (by simp)
    rw [List.append_nil] at htake
    unfold readDigits?
    rw [List.take_of_length_le (by omega), htake]
    simp [hdigits.ne_nil]
  rw [readFraction?, hread]
  simp [digitsValue_padded, hlength]

/-- The part of a second is below a second. -/
theorem Time.subsecond_lt (t : Time) : t.subsecond < 1000000000 := Nat.mod_lt _ (by decide)

/-- The fraction of a second is read back from its text, with nothing left over. -/
theorem readFraction?_fractionText (t : Time) : readFraction? t.fractionText.toList = some (t.subsecond, []) := by
  have hlt := t.subsecond_lt
  unfold Time.fractionText
  split
  · rename_i hzero
    rw [hzero]
    rfl
  split
  · rename_i hmilli
    have hn : t.subsecond / 1000000 < tenTo 3 := by
      show _ < 1000
      omega
    have hvalue : t.subsecond / 1000000 * tenTo 6 = t.subsecond := by
      show _ * 1000000 = _
      omega
    have hread := readFraction?_padded (by decide) hn
    rw [hvalue] at hread
    simpa using hread
  split
  · rename_i hmicro
    have hn : t.subsecond / 1000 < tenTo 6 := by
      show _ < 1000000
      omega
    have hvalue : t.subsecond / 1000 * tenTo 3 = t.subsecond := by
      show _ * 1000 = _
      omega
    have hread := readFraction?_padded (by decide) hn
    rw [hvalue] at hread
    simpa using hread
  · have hn : t.subsecond < tenTo 9 := hlt
    have hread := readFraction?_padded (by decide) hn
    simpa [tenTo] using hread

/-- The second that the clock shows and the nanoseconds in it are read as the time, a second 60 as the leap second
of its minute. -/
theorem ofParts?_shown (t : Time) :
    (if t.shownSecond = 60 then Time.ofParts? t.hour t.minute 59 (1000000000 + t.subsecond)
      else Time.ofParts? t.hour t.minute t.shownSecond t.subsecond) = some t := by
  obtain ⟨hour, minute, second, nanosecond, hclock⟩ := t
  have hparts := hclock
  simp only [isTime, Bool.and_eq_true, Bool.or_eq_true, decide_eq_true_eq, beq_iff_eq] at hparts
  obtain ⟨⟨⟨hhour, hminute⟩, hsecond⟩, hnano⟩ := hparts
  -- Nanoseconds from 10⁹ on belong to a leap second, which only the last second of a minute has.
  by_cases hleap : nanosecond < 1000000000
  · have hshown : second + nanosecond / 1000000000 = second := by omega
    have hsub : nanosecond % 1000000000 = nanosecond := Nat.mod_eq_of_lt hleap
    simp only [Time.shownSecond, Time.subsecond, hshown, hsub]
    rw [if_neg (by omega), Time.ofParts?, dif_pos hclock]
  · obtain ⟨rfl, hlast⟩ : second = 59 ∧ nanosecond < 2000000000 := by omega
    have hshown : 59 + nanosecond / 1000000000 = 60 := by omega
    have hsub : 1000000000 + nanosecond % 1000000000 = nanosecond := by omega
    simp only [Time.shownSecond, Time.subsecond, hshown, hsub]
    rw [if_pos trivial, Time.ofParts?, dif_pos hclock]

/-- The second that is written has two digits. -/
theorem Time.shownSecond_lt (t : Time) : t.shownSecond < tenTo 2 := by
  obtain ⟨hour, minute, second, nanosecond, hclock⟩ := t
  simp only [isTime, Bool.and_eq_true, Bool.or_eq_true, decide_eq_true_eq, beq_iff_eq] at hclock
  show second + nanosecond / 1000000000 < 100
  omega

/-- A time is read back from its text, with nothing left over. -/
theorem readTime?_text (t : Time) : readTime? ((padded 2 t.hour).toList ++ ':' :: ((padded 2 t.minute).toList ++
    ':' :: ((padded 2 t.shownSecond).toList ++ t.fractionText.toList))) = some (t, []) := by
  have hclock := t.shown_by_clock
  simp only [isTime, Bool.and_eq_true, Bool.or_eq_true, decide_eq_true_eq, beq_iff_eq] at hclock
  have hhour : t.hour < tenTo 2 := by
    show _ < 100
    omega
  have hminute : t.minute < tenTo 2 := by
    show _ < 100
    omega
  have hcolon : Text.isBlank ':' = false := rfl
  have hshown := ofParts?_shown t
  simp only [readTime?, readNumber?_padded (by decide) hhour, readNumber?_padded (by decide) hminute,
    readNumber?_padded (by decide) t.shownSecond_lt, skipSeparator?_self hcolon, readFraction?_fractionText,
    Option.bind_eq_bind, Option.bind_some]
  split at hshown
  · rename_i hleap
    rw [if_pos hleap, hshown]
    rfl
  · rename_i hplain
    rw [if_neg hplain, hshown]
    rfl

/-- A date with a time of day is read from its text. -/
theorem DateTime.parse?_text {t : DateTime} (h : t.date.hasPlainYear = true) : DateTime.parse? t.text = some t := by
  have htext : t.text.toList = t.date.text.toList ++ 'T' :: ((padded 2 t.time.hour).toList ++
      ':' :: ((padded 2 t.time.minute).toList ++
        ':' :: ((padded 2 t.time.shownSecond).toList ++ t.time.fractionText.toList))) := by
    simp [DateTime.text, Date.text, Pattern.write, interchange, dashedDate, colonTime, Field.write]
  have hmark : Text.isBlank 'T' = false := rfl
  simp only [DateTime.parse?, htext, readDate?_text h, skipSeparator?_self hmark, readTime?_text,
    Option.bind_eq_bind, Option.bind_some]
  rfl

end Times

end QueryPipeline.Calendar
