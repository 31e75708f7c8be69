import Mathlib.Tactic.Common
import QueryPipeline.Sql.Command
import QueryPipeline.Sql.Identifier
import QueryPipeline.Text.Blank

/-!
# Reading a statement letter by letter

A database reads a statement from left to right and knows at every letter whether it stands inside of quotes.
Two minus signs outside of quotes begin a comment. `Dialect.scan` is such a reader. What is written of a
statement is put together from words and from separators between them: a word leads a reader from code to
code, to the end of quotes, or into a comment, and after a separator the reader is back in code. Two texts read
alike when such a reader sees the same letters at the same places in them, blanks outside of quotes apart.
-/

set_option autoImplicit false

namespace QueryPipeline.Sql

/-- What quotes are for. -/
inductive Quote where
  | text
  | name
deriving DecidableEq, Repr

/-- Where a reader of a statement is. -/
inductive ScanState where
  /-- Outside of quotes. -/
  | code
  /-- Outside of quotes, after a minus sign. -/
  | minus
  | quoted (q : Quote)
  /-- After closing quotes. One more of them would stand for itself. -/
  | closed (q : Quote)
  /-- A comment has begun before. -/
  | comment
deriving DecidableEq, Repr

/-- The character that closes quotes. -/
def Dialect.closing (d : Dialect) : Quote → Char
  | .text => '\''
  | .name => d.quotes.2

/-- A text ends at a quote in every dialect. -/
@[simp] theorem Dialect.closing_text (d : Dialect) : d.closing .text = '\'' := rfl

/-- Where a reader is after a letter outside of quotes. -/
def Dialect.enter (d : Dialect) (c : Char) : ScanState :=
  if c = '-' then .minus
  else if c = '\'' then .quoted .text
  else if c = d.quotes.1 then .quoted .name
  else .code

/-- Where a reader is after one more letter. -/
def Dialect.next (d : Dialect) (p : ScanState) (c : Char) : ScanState :=
  match p with
  | .code => d.enter c
  | .minus => if c = '-' then .comment else d.enter c
  | .quoted q => if c = d.closing q then .closed q else .quoted q
  | .closed q => if c = d.closing q then .quoted q else d.enter c
  | .comment => .comment

/-- Where a reader is after some letters. -/
def Dialect.scan (d : Dialect) (p : ScanState) (cs : List Char) : ScanState := cs.foldl d.next p

/-- Two minus signs stand next to each other in a statement, outside of quotes. -/
def Dialect.hasComment (d : Dialect) (sql : String) : Bool := d.scan .code sql.toList == .comment

/-- A reader is inside of quotes. -/
def ScanState.isQuoted : ScanState → Bool
  | .quoted _ => true
  | _ => false

/-- What a reader sees: the letters, each with where the reader is after it, but no blanks outside of quotes. -/
def Dialect.seen (d : Dialect) : ScanState → List Char → List (Char × ScanState)
  | _, [] => []
  | p, c :: rest =>
    let after := d.next p c
    if Text.isBlank c && !after.isQuoted then d.seen after rest else (c, after) :: d.seen after rest

/-- A reader sees the same in two texts, so they differ in blanks outside of quotes only, and such a blank neither
parts nor joins minus signs that begin a comment. -/
def Dialect.ReadsAlike (d : Dialect) (sql sql' : String) : Prop :=
  d.seen .code sql.toList = d.seen .code sql'.toList

instance (d : Dialect) (sql sql' : String) : Decidable (d.ReadsAlike sql sql') :=
  inferInstanceAs (Decidable (_ = _))

/-- The letters of some pieces. -/
def letters (pieces : List Piece) : List Char := pieces.flatMap (·.written.toList)

/-- Without pieces there are no letters. -/
@[simp] theorem letters_nil : letters [] = [] := rfl

/-- Pieces one after the other have their letters one after the other. -/
@[simp] theorem letters_append (before after : List Piece) :
    letters (before ++ after) = letters before ++ letters after := List.flatMap_append

/-- The letters of a piece come before those of the next ones. -/
theorem letters_cons (piece : Piece) (rest : List Piece) :
    letters (piece :: rest) = piece.written.toList ++ letters rest := rfl

/-- A text has its letters. -/
@[simp] theorem letters_text (s : String) (rest : List Piece) :
    letters (.text s :: rest) = s.toList ++ letters rest := rfl

/-- The end of a line is a letter of its own. -/
@[simp] theorem letters_newline (rest : List Piece) :
    letters (.newline :: rest) = "\n".toList ++ letters rest := rfl

/-- An indentation has no letters. -/
@[simp] theorem letters_indent (rest : List Piece) : letters (.indent :: rest) = letters rest := rfl

/-- The end of an indentation has no letters. -/
@[simp] theorem letters_dedent (rest : List Piece) : letters (.dedent :: rest) = letters rest := rfl

section Scan

variable {d : Dialect} {p : ScanState} {cs ds : List Char}

/-- What two parts are read as is what the second one is read as after the first. -/
theorem scan_append : d.scan p (cs ++ ds) = d.scan (d.scan p cs) ds := List.foldl_append

/-- What is in a comment stays there. -/
theorem scan_comment : d.scan .comment cs = .comment := by
  induction cs with
  | nil => rfl
  | cons c rest ih => exact ih

/-- After a minus sign, a letter that is no other one is read as it is in code. -/
theorem scan_minus {c : Char} :
    d.scan .minus (c :: cs) = if c = '-' then .comment else d.scan .code (c :: cs) := by
  show d.scan (d.next .minus c) cs = _
  by_cases hc : c = '-'
  · rw [if_pos hc, hc]
    exact scan_comment
  · rw [if_neg hc, Dialect.next, if_neg hc]
    rfl

/-- A reader comes into a comment at the second of two minus signs. -/
theorem next_eq_comment {c : Char} : d.next p c = .comment ↔ p = .comment ∨ p = .minus ∧ c = '-' := by
  have henter : d.enter c ≠ .comment := by
    unfold Dialect.enter
    split_ifs <;> nofun
  cases p with
  | code => simp [Dialect.next, henter]
  | minus => by_cases hc : c = '-' <;> simp [Dialect.next, hc, henter]
  | quoted q => by_cases hc : c = d.closing q <;> simp [Dialect.next, hc]
  | closed q => by_cases hc : c = d.closing q <;> simp [Dialect.next, hc, henter]
  | comment => simp [Dialect.next]

/-- A comment that begins can be told from what a reader sees. -/
theorem scan_eq_comment_iff : d.scan p cs = .comment ↔ p = .comment ∨ ∃ place ∈ d.seen p cs, place.2 = .comment := by
  induction cs generalizing p with
  | nil => simp [Dialect.scan, Dialect.seen]
  | cons c rest ih =>
    rw [Dialect.scan, List.foldl_cons, ← Dialect.scan, ih, Dialect.seen]
    by_cases hblank : (Text.isBlank c && !(d.next p c).isQuoted) = true
    · -- a blank begins no comment
      have hc : c ≠ '-' := by
        rintro rfl
        cases hblank
      rw [if_pos hblank, next_eq_comment]
      simp [hc]
    · rw [if_neg hblank]
      simp only [List.mem_cons, exists_eq_or_imp, next_eq_comment]
      tauto

/-- In texts that read alike, comments begin in both of them or in none. -/
theorem Dialect.ReadsAlike.hasComment {sql sql' : String} (h : d.ReadsAlike sql sql') :
    d.hasComment sql' = d.hasComment sql := by
  rw [Dialect.hasComment, Dialect.hasComment, Bool.eq_iff_iff, beq_iff_eq, beq_iff_eq, scan_eq_comment_iff,
    scan_eq_comment_iff, show d.seen .code sql.toList = d.seen .code sql'.toList from h]

/-- A line end outside of quotes leads back to code, and blanks change nothing after it. -/
theorem next_blank_of_newline (d : Dialect) (p : ScanState) : d.next (d.next p '\n') ' ' = d.next p '\n' := by
  cases p with
  | quoted q | closed q => cases d <;> cases q <;> rfl
  | _ => cases d <;> rfl

/-- The margin of a line changes nothing for a reader. -/
theorem scan_margin {c : Cursor} (h : c.atLineStart = true → d.next p ' ' = p) :
    d.scan p c.margin.toList = p := by
  unfold Cursor.margin
  split
  · rename_i hstart
    rw [String.toList_ofList]
    have hblank := h hstart
    generalize 4 * c.level = n
    induction n with
    | zero => rfl
    | succ n ih =>
      rw [List.replicate_succ]
      show d.scan (d.next p ' ') _ = p
      rw [hblank, ih]
  · rfl

/-- A reader of a text that is laid out gets to where the letters of its pieces lead. -/
theorem scan_layOut (pieces : List Piece) : ∀ (c : Cursor) (p : ScanState),
    (c.atLineStart = true → d.next p ' ' = p) →
      d.scan p (layOut c pieces).toList = d.scan p (letters pieces) := by
  have hwritten : ∀ (piece : Piece) (rest : List Piece) (c : Cursor) (p : ScanState),
      (∀ (c : Cursor) (p : ScanState), (c.atLineStart = true → d.next p ' ' = p) →
        d.scan p (layOut c rest).toList = d.scan p (letters rest)) →
      (c.atLineStart = true → d.next p ' ' = p) →
      d.scan p (if piece.written.isEmpty then layOut c rest
        else c.margin ++ piece.written ++ layOut { c with atLineStart := false } rest).toList =
      d.scan p (letters (piece :: rest)) := by
    intro piece rest c p ih h
    rw [letters_cons]
    split
    · rename_i hempty
      have hnil : piece.written.toList = [] := by simpa using hempty
      rw [hnil, List.nil_append, ih c p h]
    · rw [String.toList_append, String.toList_append, scan_append, scan_append, scan_append, scan_margin h]
      refine ih _ _ fun hstart => ?_
      cases hstart
  induction pieces with
  | nil => exact fun _ _ _ => rfl
  | cons piece rest ih =>
    intro c p h
    cases piece with
    | newline =>
      rw [layOut, String.toList_append, letters_cons, scan_append, scan_append]
      exact ih _ _ fun _ => next_blank_of_newline d p
    | indent | dedent => exact ih _ p h
    | text s | parameter s => exact hwritten _ rest c p ih h

end Scan

/-- A reader has left quotes behind. -/
def ScanState.isBare : ScanState → Bool
  | .code | .closed _ => true
  | _ => false

/-- A reader has come into a comment just when one has begun, and else has left quotes behind. -/
structure ScanState.Ends (begun : Prop) (p : ScanState) : Prop where
  comment (h : begun) : p = .comment
  bare (h : ¬ begun) : p.isBare = true

/-- A reader comes from code through some letters, and a comment begins in them just when `begun`. -/
def Dialect.Reads (d : Dialect) (cs : List Char) (begun : Prop) : Prop := (d.scan .code cs).Ends begun

/-- Letters of their own: there is at least one. -/
structure Dialect.IsWord (d : Dialect) (cs : List Char) (begun : Prop) : Prop where
  ne_nil : cs ≠ []
  reads : d.Reads cs begun

/-- Letters that may follow a word. -/
def Dialect.Follows (d : Dialect) (cs : List Char) (begun : Prop) : Prop :=
  ∀ p : ScanState, p.isBare = true → (d.scan p cs).Ends begun

/-- After these letters, a reader that has left quotes behind is in code. -/
def Dialect.separates (d : Dialect) (cs : List Char) : Bool :=
  [.code, .closed .text, .closed .name].all fun p => d.scan p cs == .code

/-- The letter means nothing special to a reader. -/
def isCalm (c : Char) : Bool := c != '-' && c != '\'' && c != '"' && c != '[' && c != ']'

section Words

variable {d : Dialect} {cs ds : List Char} {begun begun' : Prop}

/-- A state ends a part just the same under an equivalent condition. -/
theorem ScanState.Ends.congr {p : ScanState} (h : p.Ends begun) (hiff : begun ↔ begun') : p.Ends begun' :=
  ⟨fun hb => h.comment (hiff.2 hb), fun hb => h.bare fun hb' => hb (hiff.1 hb')⟩

/-- A bare state ends a part that begins no comment. -/
theorem ScanState.Ends.of_isBare {p : ScanState} (h : p.isBare = true) : p.Ends False := ⟨nofun, fun _ => h⟩

/-- The empty text begins no comment. -/
theorem reads_nil : d.Reads [] False := .of_isBare rfl

/-- The empty text begins no comment, whatever stands before it. -/
theorem follows_nil : d.Follows [] False := fun _ h => .of_isBare h

/-- Whether a comment has begun can be seen from where the reader is. -/
theorem Dialect.Reads.scan_eq_comment (h : d.Reads cs begun) : d.scan .code cs = .comment ↔ begun := by
  refine ⟨fun hscan => by_contra fun hb => ?_, h.comment⟩
  have hbare := h.bare hb
  rw [hscan] at hbare
  cases hbare

namespace Dialect.Follows

/-- What begins a comment behind anything bare begins one at the front, too. -/
theorem reads (h : d.Follows cs begun) : d.Reads cs begun := h .code rfl

/-- What follows a word is read on from where the word ends. -/
theorem after {p : ScanState} (h : d.Follows ds begun') (hp : p.Ends begun) :
    (d.scan p ds).Ends (begun ∨ begun') := by
  by_cases hb : begun
  · rw [hp.comment hb, scan_comment]
    exact ⟨fun _ => rfl, fun hn => absurd (.inl hb) hn⟩
  · exact (h p (hp.bare hb)).congr (by simp [hb])

/-- Two parts one after the other begin a comment when one of them does. -/
theorem append (h : d.Follows cs begun) (h' : d.Follows ds begun') :
    d.Follows (cs ++ ds) (begun ∨ begun') := by
  intro p hp
  rw [scan_append]
  exact h'.after (h p hp)

/-- A part follows under an equivalent condition just the same. -/
theorem congr (h : d.Follows cs begun) (hiff : begun ↔ begun') : d.Follows cs begun' :=
  fun p hp => (h p hp).congr hiff

end Dialect.Follows

/-- A part that follows another one begins a comment when one of the two does. -/
theorem Dialect.Reads.append (h : d.Reads cs begun) (h' : d.Follows ds begun') :
    d.Reads (cs ++ ds) (begun ∨ begun') := by
  rw [Reads, scan_append]
  exact h'.after h

/-- A word with a part that follows it begins a comment when one of the two does. -/
theorem Dialect.IsWord.append (h : d.IsWord cs begun) (h' : d.Follows ds begun') :
    d.IsWord (cs ++ ds) (begun ∨ begun') :=
  ⟨by simp [h.ne_nil], h.reads.append h'⟩

/-- A word is one under an equivalent condition just the same. -/
theorem Dialect.IsWord.congr (h : d.IsWord cs begun) (hiff : begun ↔ begun') : d.IsWord cs begun' :=
  ⟨h.ne_nil, h.reads.congr hiff⟩

/-- Behind a separator nothing is left of what a bare state has read. -/
theorem scan_of_separates (h : d.separates cs = true) {p : ScanState} (hp : p.isBare = true) :
    d.scan p cs = .code := by
  simp only [Dialect.separates, List.all_cons, List.all_nil, Bool.and_true, Bool.and_eq_true,
    beq_iff_eq] at h
  cases p with
  | code => exact h.1
  | closed q =>
    cases q with
    | text => exact h.2.1
    | name => exact h.2.2
  | _ => cases hp

/-- A separator has letters. -/
theorem ne_nil_of_separates (h : d.separates cs = true) : cs ≠ [] := by
  rintro rfl
  cases h

/-- A separator and what is read from code on may follow a word. -/
theorem Dialect.Reads.separated (h : d.Reads ds begun) (hs : d.separates cs = true) :
    d.Follows (cs ++ ds) begun := by
  intro p hp
  rw [scan_append, scan_of_separates hs hp]
  exact h

/-- What begins with a separator is a word of its own. -/
theorem Dialect.Reads.headed (h : d.Reads ds begun) (hs : d.separates cs = true) :
    d.IsWord (cs ++ ds) begun :=
  ⟨by simp [ne_nil_of_separates hs], (h.separated hs).reads⟩

/-- A separator begins no comment, whatever stands before it. -/
theorem follows_of_separates (hs : d.separates cs = true) : d.Follows cs False := by
  have h := (reads_nil (d := d)).separated hs
  rwa [List.append_nil] at h

/-- A word after a minus sign. Together with a minus sign of its own, that begins a comment. -/
theorem Dialect.IsWord.negate (h : d.IsWord cs begun) :
    d.IsWord ('-' :: cs) (cs.head? = some '-' ∨ begun) := by
  refine ⟨List.cons_ne_nil _ _, ?_⟩
  obtain ⟨hne, hreads⟩ := h
  cases cs with
  | nil => exact absurd rfl hne
  | cons c rest =>
    show (d.scan .minus (c :: rest)).Ends _
    rw [scan_minus]
    by_cases hc : c = '-'
    · rw [if_pos hc]
      exact ⟨fun _ => rfl, fun hn => absurd (.inl (by rw [hc]; rfl)) hn⟩
    · rw [if_neg hc]
      exact hreads.congr (by simp [hc])

end Words

end QueryPipeline.Sql
