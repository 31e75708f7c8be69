import Mathlib.Tactic.Common
import QueryPipeline.Proofs.QuotedLiterals

/-!
# Reading names back

A reader of a statement takes a name for a word of letters, digits and underscores, or for what stands between the
quotes of the dialect, where two closing quotes stand for one. Every name is read as what it was before it was
written, also behind a schema, whatever dots, quotes and brackets the two contain. Names that stand bare are none
of the reserved words.
-/

set_option autoImplicit false

namespace QueryPipeline

namespace Sql

/-- The name at the beginning of a text, and what follows it. -/
def readName? (dialect : Dialect) : List Char → Option (String × List Char)
  | [] => none
  | c :: rest =>
    if c = dialect.quotes.1 then
      (readQuoted? dialect.quotes.2 rest).map fun (cs, rest) => (String.ofList cs, rest)
    else if isWordStart c then
      let word := rest.takeWhile isWordPart
      some (String.ofList (c :: word), rest.drop word.length)
    else none

/-- The schema, if there is one, and the name that a text consists of. -/
def readQualified? (dialect : Dialect) (text : String) : Option (Option String × String) :=
  match readName? dialect text.toList with
  | some (name, []) => some (none, name)
  | some (schema, '.' :: rest) =>
    match readName? dialect rest with
    | some (name, []) => some (some schema, name)
    | _ => none
  | _ => none

/-- The letters can follow a name: they neither begin with the closing quote nor go on with a word. -/
def Dialect.EndsName (dialect : Dialect) (rest : List Char) : Prop :=
  ∀ c ∈ rest.head?, c ≠ dialect.quotes.2 ∧ isWordPart c = false

section Reading

variable (dialect : Dialect) {rest : List Char}

/-- A name ends with the text. -/
theorem endsName_nil : dialect.EndsName [] := nofun

/-- A name ends before a point. -/
theorem endsName_dot (rest : List Char) : dialect.EndsName ('.' :: rest) := by
  intro c hc
  cases hc
  cases dialect <;> decide

/-- No word begins with a quote. -/
theorem opening_not_wordStart : isWordStart dialect.quotes.1 = false := by
  cases dialect <;> decide

/-- A plain word is read back as the name. -/
theorem readName?_word {name : String} (hname : isPlainWord name = true) (h : dialect.EndsName rest) :
    readName? dialect (name.toList ++ rest) = some (name, rest) := by
  unfold isPlainWord at hname
  split at hname
  · cases hname
  · rename_i c word hletters
    obtain ⟨hstart, hword⟩ := Bool.and_eq_true_iff.1 hname
    have hopening : c ≠ dialect.quotes.1 := by
      rintro rfl
      rw [opening_not_wordStart] at hstart
      cases hstart
    have hrun : (word ++ rest).takeWhile isWordPart = word :=
      Number.takeWhile_run (List.all_eq_true.1 hword) fun c hc => (h c hc).2
    rw [hletters, List.cons_append, readName?, if_neg hopening, if_pos hstart]
    dsimp only
    rw [hrun, List.drop_left, ← hletters, String.ofList_toList]

/-- A quoted name is read back. -/
theorem readName?_quote (style : NameStyle) (name : String) (h : style.dialect.EndsName rest) :
    readName? style.dialect ((style.quote name).toList ++ rest) = some (name, rest) := by
  have hread := readQuoted?_doubleQuotes name.toList fun c hc => (h c hc).1
  simp [NameStyle.quote, readName?, hread]

/-- A name is read as it was before it was written, and what follows it is left. -/
theorem readName?_write (style : NameStyle) (name : String) (h : style.dialect.EndsName rest) :
    readName? style.dialect ((style.write name).toList ++ rest) = some (name, rest) := by
  unfold NameStyle.write
  split
  · rename_i hbare
    simp only [Bool.and_eq_true] at hbare
    exact readName?_word style.dialect hbare.1.2 h
  · exact readName?_quote style name h

/-- A name that is written as the style wants is read back as a whole. -/
theorem readName?_write_whole (style : NameStyle) (name : String) :
    readName? style.dialect (style.write name).toList = some (name, []) := by
  have hread := readName?_write style name (endsName_nil style.dialect)
  rwa [List.append_nil] at hread

/-- The schema, or its absence, and the name are read as they were before they were written. -/
theorem readQualified?_writeQualified (style : NameStyle) (name : String) (schema : Option String) :
    readQualified? style.dialect (style.writeQualified name schema) = some (schema, name) := by
  cases schema with
  | none => rw [readQualified?, NameStyle.writeQualified, readName?_write_whole]
  | some schema =>
    have hletters : (style.writeQualified name (some schema)).toList =
        (style.write schema).toList ++ '.' :: (style.write name).toList := by
      simp [NameStyle.writeQualified, String.toList_append]
    have hschema := readName?_write style schema (endsName_dot style.dialect (style.write name).toList)
    simp only [readQualified?, hletters, hschema, readName?_write_whole]

end Reading

section Reserved

/-- The capital of a letter is the one of its small letter, too. -/
theorem toUpper_toLower (c : Char) : c.toLower.toUpper = c.toUpper := by
  have hcapitals : ∀ i : Fin 26, (Char.ofNat (65 + i)).toLower.toUpper = (Char.ofNat (65 + i)).toUpper := by
    decide
  -- only the capitals have small letters of their own
  by_cases h : 'A'.val ≤ c.val ∧ c.val ≤ 'Z'.val
  · have hc : 65 ≤ c.toNat ∧ c.toNat ≤ 90 := h
    have hcapital := hcapitals ⟨c.toNat - 65, by omega⟩
    rwa [show 65 + (c.toNat - 65) = c.toNat by omega, Char.ofNat_toNat] at hcapital
  · have hlower : c.toLower = c := dif_neg h
    rw [hlower]

/-- The capitals of a word are the ones of its small letters, too. -/
theorem map_toUpper_toLower (cs : List Char) : (cs.map Char.toLower).map Char.toUpper = cs.map Char.toUpper := by
  rw [List.map_map]
  exact List.map_congr_left fun c _ => toUpper_toLower c

/-- Words that only differ in the case of their letters are the same in capitals. -/
theorem map_toUpper_of_toLower {a b : String} (h : a.map Char.toLower = b.map Char.toLower) :
    a.map Char.toUpper = b.map Char.toUpper := by
  rw [← String.toList_inj, String.toList_map, String.toList_map] at h ⊢
  rw [← map_toUpper_toLower, h, map_toUpper_toLower]

/-- Reserved words are given in capital letters. -/
theorem map_toUpper_of_reserved : ∀ word ∈ reservedWords, word.map Char.toUpper = word := by
  decide +kernel

/-- A word is reserved however its letters are written. -/
theorem isReserved_of_toLower {word name : String} (hword : word ∈ reservedWords)
    (h : name.map Char.toLower = word.map Char.toLower) : isReserved name = true := by
  rw [isReserved, map_toUpper_of_toLower h, map_toUpper_of_reserved word hword]
  exact List.contains_iff_mem.2 hword

/-- A name between quotes is longer than the name. -/
theorem NameStyle.quote_ne (style : NameStyle) (name : String) : style.quote name ≠ name := by
  intro h
  have hlength : ∀ cs : List Char, cs.length ≤ (doubleQuotes style.dialect.quotes.2 cs).length := by
    intro cs
    induction cs with
    | nil => exact le_rfl
    | cons c rest ih =>
      rw [doubleQuotes]
      split
      · simp only [List.length_cons]
        omega
      · simp only [List.length_cons]
        omega
  have hsame := congrArg (·.toList.length) h
  have hname := hlength name.toList
  simp only [NameStyle.quote, String.toList_ofList, List.length_cons, List.length_append, List.length_nil] at hsame
  omega

/-- A name that stands bare is not reserved. -/
theorem NameStyle.not_isReserved_of_write (style : NameStyle) {name : String} (h : style.write name = name) :
    isReserved name = false := by
  unfold write at h
  split at h
  · rename_i hbare
    simpa using (Bool.and_eq_true_iff.1 hbare).2
  · exact absurd h (style.quote_ne name)

end Reserved

end Sql

open Sql

/-- Names are written without loss. A name is read back from its text, with nothing left over; if it stands bare, it
is no reserved word in any case of its letters. A name behind a schema or without one is read back as well, so two
of them have the same text only if both their schemas and their names are the same. -/
theorem names_read_back (style : NameStyle) :
    (∀ name, readName? style.dialect (style.write name).toList = some (name, [])) ∧
    (∀ name, style.write name = name →
      ∀ word ∈ reservedWords, name.map Char.toLower ≠ word.map Char.toLower) ∧
    (∀ name schema, readQualified? style.dialect (style.writeQualified name schema) = some (schema, name)) ∧
    Function.Injective fun qualified : Option String × String =>
      style.writeQualified qualified.2 qualified.1 := by
  refine ⟨readName?_write_whole style, fun name hbare word hword hcase => ?_,
    readQualified?_writeQualified style, fun qualified qualified' h => ?_⟩
  · have hreserved := isReserved_of_toLower hword hcase
    rw [style.not_isReserved_of_write hbare] at hreserved
    cases hreserved
  · have hread := readQualified?_writeQualified style qualified.2 qualified.1
    have hread' := readQualified?_writeQualified style qualified'.2 qualified'.1
    dsimp only at h
    rw [h, hread'] at hread
    exact (Option.some.inj hread).symm

/-- A schema that is a reserved word, and a name with a dot between brackets in it, are read as they were; a bare
name is not reserved. -/
theorem bracketed_name_reads_back :
    (⟨.msSql, .whenNeeded⟩ : NameStyle).writeQualified "a].[b" (some "Order") = "[Order].[a]].[b]" ∧
      readQualified? .msSql "[Order].[a]].[b]" = some (some "Order", "a].[b") ∧
      ∀ word ∈ reservedWords, "Person".map Char.toLower ≠ word.map Char.toLower := by
  have hwritten : (⟨.msSql, .whenNeeded⟩ : NameStyle).writeQualified "a].[b" (some "Order") =
      "[Order].[a]].[b]" := by decide +kernel
  obtain ⟨-, hbare, hqualified, -⟩ := names_read_back ⟨.msSql, .whenNeeded⟩
  have hread := hqualified "a].[b" (some "Order")
  rw [hwritten] at hread
  exact ⟨hwritten, hread, hbare "Person" (by decide +kernel)⟩

end QueryPipeline
