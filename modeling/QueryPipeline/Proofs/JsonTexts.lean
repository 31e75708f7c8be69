import QueryPipeline.Proofs.JsonNumbers

/-!
# Interchange texts

The dense text of a value is read as the value. A text is first cut into the tokens of the value: every token is
scanned up to the letters that follow it, which a number must not take for its own. The tokens are then put
together again, whatever arrays and objects are open around them.
-/

set_option autoImplicit false

namespace QueryPipeline.Json

mutual

/-- All numbers of a value have digits as the format has them. -/
def HasPlainNumbers : Json → Prop
  | number n => n.IsPlain
  | array items => PlainItems items
  | object members => PlainMembers members
  | _ => True

/-- All numbers of some values have digits as the format has them. -/
def PlainItems : List Json → Prop
  | [] => True
  | item :: rest => item.HasPlainNumbers ∧ PlainItems rest

/-- All numbers of some members have digits as the format has them. -/
def PlainMembers : List (String × Json) → Prop
  | [] => True
  | (_, value) :: rest => value.HasPlainNumbers ∧ PlainMembers rest

end

mutual

/-- The tokens of a value. -/
def tokens : Json → List Token
  | null => [.null]
  | bool b => [.bool b]
  | number n => [.number n]
  | string s => [.string s]
  | array items => .leftBracket :: (itemsTokens items ++ [.rightBracket])
  | object members => .leftBrace :: (membersTokens members ++ [.rightBrace])

/-- The tokens of some values with commas between them. -/
def itemsTokens : List Json → List Token
  | [] => []
  | [item] => item.tokens
  | item :: rest => item.tokens ++ .comma :: itemsTokens rest

/-- The tokens of some members with commas between them. -/
def membersTokens : List (String × Json) → List Token
  | [] => []
  | [(name, value)] => .string name :: .colon :: value.tokens
  | (name, value) :: rest => .string name :: .colon :: (value.tokens ++ .comma :: membersTokens rest)

end

section Strings

/-- The escape of a control character is read back. -/
theorem hexUnit?_control : ∀ n < 32,
    hexUnit? '0' '0' (Nat.digitChar (n / 16)) (Nat.digitChar (n % 16)) = some n := by
  decide

/-- A backslash and a letter are scanned as the character they stand for. -/
theorem scanString?_escape {letter c : Char} (h : escape? letter = some c) (rest : List Char) :
    scanString? ('\\' :: letter :: rest) = (scanString? rest).map fun (cs, rest) => (c :: cs, rest) := by
  have hletter : letter ≠ 'u' := by
    rintro rfl
    cases h
  rw [scanString?.eq_def]
  split
  · rename_i heq
    cases heq
  · rename_i heq
    cases (List.cons.inj heq).1
  · rename_i heq
    exact absurd (List.cons.inj (List.cons.inj heq).2).1 hletter
  · rename_i heq
    cases heq
    rw [h]
    cases scanString? rest <;> rfl
  · rename_i hother heq
    cases heq
    exact absurd rfl (hother letter rest rfl)

/-- A character is scanned from its form inside a string. -/
theorem scanString?_charText (c : Char) (rest : List Char) :
    scanString? (charText c ++ rest) = (scanString? rest).map fun (cs, rest) => (c :: cs, rest) := by
  unfold charText
  split
  · subst_vars
    exact scanString?_escape rfl rest
  split
  · subst_vars
    exact scanString?_escape rfl rest
  split
  · subst_vars
    exact scanString?_escape rfl rest
  split
  · subst_vars
    exact scanString?_escape rfl rest
  split
  · subst_vars
    exact scanString?_escape rfl rest
  split
  · subst_vars
    exact scanString?_escape rfl rest
  split
  · subst_vars
    exact scanString?_escape rfl rest
  split
  · rename_i hcontrol
    -- The other control characters are written with their code, which is no half of a surrogate pair.
    have hunit := hexUnit?_control c.toNat hcontrol
    have hlow : isLowSurrogate c.toNat = false := by
      simp [isLowSurrogate]
      omega
    have hhigh : isHighSurrogate c.toNat = false := by
      simp [isHighSurrogate]
      omega
    cases h : scanString? rest <;> simp [scanString?, hunit, hlow, hhigh, h]
  · rename_i hquote hbackslash _ _ _ _ _ hcontrol
    have hplain : (c.toNat < 0x20 || c == '\\') = false := by simp [hcontrol, hbackslash]
    show scanString? (c :: rest) = _
    rw [scanString?.eq_def]
    split
    · rename_i heq
      cases heq
    · rename_i heq
      exact absurd (List.cons.inj heq).1 hquote
    · rename_i heq
      exact absurd (List.cons.inj heq).1 hbackslash
    · rename_i heq
      exact absurd (List.cons.inj heq).1 hbackslash
    · rename_i heq
      cases heq
      rw [hplain]
      cases scanString? rest <;> rfl

/-- A string is scanned as it was written. -/
theorem scanToken?_stringText (s : String) (rest : List Char) :
    scanToken? (stringText s ++ rest) = some (.string s, rest) := by
  have hscan : ∀ cs : List Char, scanString? (cs.flatMap charText ++ '"' :: rest) = some (cs, rest) := by
    intro cs
    induction cs with
    | nil => rfl
    | cons c cs ih =>
      rw [List.flatMap_cons, List.append_assoc, scanString?_charText, ih]
      rfl
  have htext : stringText s ++ rest = '"' :: (s.toList.flatMap charText ++ '"' :: rest) := by
    simp [stringText]
  rw [htext, scanToken?, hscan]
  simp

end Strings

section Scanning

variable {rest : List Char} {ts : List Token}

/-- A text is cut into tokens. -/
def CutsInto (cs : List Char) (ts : List Token) : Prop :=
  ∀ fuel, cs.length ≤ fuel → tokensWithin? fuel cs = some ts

/-- An empty text has no tokens. -/
theorem cutsInto_nil : CutsInto [] [] := by
  intro fuel _
  cases fuel <;> rfl

/-- A token before a text is the first one of its tokens. -/
theorem CutsInto.token {t : Token} (h : CutsInto rest ts) (front : List Char)
    (hscan : scanToken? (front ++ rest) = some (t, rest))
    (hne : front ≠ []) (hgap : ∀ c ∈ front.head?, isGap c = false) : CutsInto (front ++ rest) (t :: ts) := by
  intro fuel hfuel
  obtain ⟨c, front, rfl⟩ := List.exists_cons_of_ne_nil hne
  have hc : isGap c = false := hgap c rfl
  rw [List.length_append, List.length_cons] at hfuel
  obtain ⟨fuel, rfl⟩ : ∃ n, fuel = n + 1 := ⟨fuel - 1, by omega⟩
  rw [List.cons_append, tokensWithin?, hc, if_neg Bool.false_ne_true, ← List.cons_append, hscan]
  simp [h fuel (by omega)]

/-- A string before a text is the first one of its tokens. -/
theorem CutsInto.string (h : CutsInto rest ts) (s : String) :
    CutsInto (stringText s ++ rest) (.string s :: ts) :=
  h.token _ (scanToken?_stringText s rest) (by simp [stringText]) (by simp [stringText, isGap])

/-- A number begins with a letter that is no blank. -/
theorem CutsInto.number {n : Number} (h : CutsInto rest ts) (hn : n.IsPlain) (hrest : EndsNumber rest) :
    CutsInto (n.text ++ rest) (.number n :: ts) := by
  obtain ⟨c, cs, hcs, hc⟩ := hn.exists_text
  refine h.token _ (scanToken?_text hn hrest) (by simp [hcs]) fun d hd => ?_
  rw [hcs] at hd
  cases hd
  rcases hc with rfl | hdigit
  · rfl
  · cases hgap : isGap c with
    | false => rfl
    | true =>
      simp only [isGap, Bool.or_eq_true, beq_iff_eq] at hgap
      rcases hgap with ((rfl | rfl) | rfl) | rfl <;> cases hdigit

/-- A letter that is a token of its own. -/
theorem CutsInto.mark {c : Char} {t : Token} (h : CutsInto rest ts)
    (hscan : scanToken? (c :: rest) = some (t, rest)) (hc : isGap c = false) : CutsInto (c :: rest) (t :: ts) :=
  h.token [c] hscan (by simp) (by simp [hc])

/-- A number ends before a letter that does not go on with it. -/
theorem endsNumber_cons {c : Char} (hc : continuesNumber c = false) : EndsNumber (c :: rest) := by
  intro d hd
  cases hd
  exact hc

mutual

/-- The text of a value is cut into its tokens. -/
theorem cutsInto_dense {rest : List Char} {ts : List Token} : ∀ j : Json, j.HasPlainNumbers → EndsNumber rest →
    CutsInto rest ts → CutsInto (j.dense ++ rest) (j.tokens ++ ts)
  | null, _, _, h => h.token ['n', 'u', 'l', 'l'] rfl (by simp) (by simp [isGap])
  | bool true, _, _, h => h.token ['t', 'r', 'u', 'e'] rfl (by simp) (by simp [isGap])
  | bool false, _, _, h => h.token ['f', 'a', 'l', 's', 'e'] rfl (by simp) (by simp [isGap])
  | number _, hn, hrest, h => h.number hn hrest
  | string s, _, _, h => h.string s
  | array items, hn, _, h => by
    -- What follows the last item is the bracket, so no number among the items goes on.
    have hitems := cutsInto_items items hn (endsNumber_cons rfl) (h.mark (c := ']') (t := .rightBracket) rfl rfl)
    simp only [dense, tokens, List.cons_append, List.append_assoc, List.nil_append]
    exact hitems.mark rfl rfl
  | object members, hn, _, h => by
    have hmembers := cutsInto_members members hn (endsNumber_cons rfl)
      (h.mark (c := '\x7d') (t := .rightBrace) rfl rfl)
    simp only [dense, tokens, List.cons_append, List.append_assoc, List.nil_append]
    exact hmembers.mark rfl rfl

/-- The items of an array are cut into their tokens. -/
theorem cutsInto_items {rest : List Char} {ts : List Token} : ∀ items : List Json, PlainItems items →
    EndsNumber rest → CutsInto rest ts → CutsInto (denseItems items ++ rest) (itemsTokens items ++ ts)
  | [], _, _, h => h
  | [item], hn, hrest, h => cutsInto_dense item hn.1 hrest h
  | item :: next :: items, hn, hrest, h => by
    have hnext := cutsInto_items (next :: items) hn.2 hrest h
    have hitem := cutsInto_dense item hn.1 (endsNumber_cons rfl) (hnext.mark (c := ',') (t := .comma) rfl rfl)
    simpa only [denseItems, itemsTokens, List.append_assoc, List.cons_append] using hitem

/-- The members of an object are cut into their tokens. -/
theorem cutsInto_members {rest : List Char} {ts : List Token} : ∀ members : List (String × Json),
    PlainMembers members → EndsNumber rest → CutsInto rest ts →
      CutsInto (denseMembers members ++ rest) (membersTokens members ++ ts)
  | [], _, _, h => h
  | [(name, value)], hn, hrest, h => by
    have hvalue := cutsInto_dense value hn.1 hrest h
    have hname := (hvalue.mark (c := ':') (t := .colon) rfl rfl).string name
    simpa only [denseMembers, membersTokens, List.append_assoc, List.cons_append] using hname
  | (name, value) :: next :: members, hn, hrest, h => by
    have hnext := cutsInto_members (next :: members) hn.2 hrest h
    have hvalue := cutsInto_dense value hn.1 (endsNumber_cons rfl) (hnext.mark (c := ',') (t := .comma) rfl rfl)
    have hname := (hvalue.mark (c := ':') (t := .colon) rfl rfl).string name
    simpa only [denseMembers, membersTokens, List.append_assoc, List.cons_append] using hname

end

end Scanning

section Reading

/-- The tokens of a value do not begin with a closing bracket. -/
theorem exists_tokens (j : Json) : ∃ t ts, j.tokens = t :: ts ∧ t ≠ .rightBracket := by
  cases j <;> exact ⟨_, _, rfl, by simp⟩

/-- The items of an array do not begin with its end. -/
theorem exists_itemsTokens (item : Json) (items : List Json) :
    ∃ t ts, itemsTokens (item :: items) = t :: ts ∧ t ≠ .rightBracket := by
  obtain ⟨t, ts, hitem, ht⟩ := item.exists_tokens
  cases items with
  | nil => exact ⟨t, ts, hitem, ht⟩
  | cons next items => exact ⟨t, ts ++ .comma :: itemsTokens (next :: items), by simp [itemsTokens, hitem], ht⟩

/-- The members of an object begin with the name of the first one. -/
theorem exists_membersTokens (name : String) (value : Json) (members : List (String × Json)) :
    ∃ ts, membersTokens ((name, value) :: members) = .string name :: .colon :: ts := by
  cases members <;> exact ⟨_, rfl⟩

mutual

/-- The tokens of a value are put together to the value, inside of what is open around it. -/
theorem readValue?_tokens : ∀ (j : Json) (stack : List Open) (ts : List Token),
    readValue? stack (j.tokens ++ ts) = readAfter? stack j ts
  | null, stack, ts => by rw [tokens, List.singleton_append, readValue?]
  | bool b, stack, ts => by rw [tokens, List.singleton_append, readValue?]
  | number n, stack, ts => by rw [tokens, List.singleton_append, readValue?]
  | string s, stack, ts => by rw [tokens, List.singleton_append, readValue?]
  | array [], stack, ts => by simp only [tokens, itemsTokens, List.nil_append, List.cons_append, readValue?]
  | array (item :: items), stack, ts => by
    -- A closing bracket after the opening one would have ended the array, but an item begins with none.
    have hitems := readValue?_items (item :: items) (by simp) [] stack ts
    obtain ⟨t, rest, htokens, ht⟩ := exists_itemsTokens item items
    simp only [tokens, List.cons_append, List.append_assoc, List.nil_append]
    rw [htokens, List.cons_append] at hitems ⊢
    rw [readValue?]
    · exact hitems
    · intro _ heq
      exact ht (List.cons.inj heq).1
  | object [], stack, ts => by simp only [tokens, membersTokens, List.nil_append, List.cons_append, readValue?]
  | object ((name, value) :: members), stack, ts => by
    obtain ⟨front, htokens⟩ := exists_membersTokens name value members
    have hmembers := readValue?_members _ htokens [] stack ts
    simp only [tokens, htokens, List.cons_append, List.append_assoc, List.nil_append]
    rw [readValue?]
    exact hmembers

/-- The items of an array are read back from their tokens. -/
theorem readValue?_items : ∀ items : List Json, items ≠ [] → ∀ (done : List Json) (stack : List Open)
    (ts : List Token), readValue? (.array done :: stack) (itemsTokens items ++ .rightBracket :: ts) =
      readAfter? stack (.array (done.reverse ++ items)) ts
  | [], hne, _, _, _ => absurd rfl hne
  | [item], _, done, stack, ts => by
    rw [itemsTokens, readValue?_tokens item, readAfter?, List.reverse_cons]
  | item :: next :: items, _, done, stack, ts => by
    have hnext := readValue?_items (next :: items) (by simp) (item :: done) stack ts
    simp only [itemsTokens, List.append_assoc, List.cons_append]
    rw [readValue?_tokens item, readAfter?, hnext, List.reverse_cons, List.append_assoc]
    rfl

/-- The members of an object are read back from their tokens. -/
theorem readValue?_members : ∀ (members : List (String × Json)) {name : String} {front : List Token},
    membersTokens members = .string name :: .colon :: front → ∀ (done : List (String × Json))
    (stack : List Open) (ts : List Token),
    readValue? (.object done name :: stack) (front ++ .rightBrace :: ts) =
      readAfter? stack (.object (done.reverse ++ members)) ts
  | [(_, value)], _, _, h, done, stack, ts => by
    cases h
    rw [readValue?_tokens value, readAfter?, List.reverse_cons]
  | (name, value) :: (nextName, nextValue) :: members, _, _, h, done, stack, ts => by
    cases h
    obtain ⟨front, htokens⟩ := exists_membersTokens nextName nextValue members
    have hnext := readValue?_members _ htokens ((name, value) :: done) stack ts
    simp only [htokens, List.append_assoc, List.cons_append]
    rw [readValue?_tokens value, readAfter?, hnext, List.reverse_cons, List.append_assoc]
    rfl

end

end Reading

/-- The dense text of a value is read as the value. -/
theorem parse?_text {j : Json} (h : j.HasPlainNumbers) : parse? j.text = some j := by
  have htokens : tokens? (String.toList j.text) = some j.tokens := by
    have hcuts : CutsInto (j.dense ++ []) (j.tokens ++ []) :=
      cutsInto_dense j h (by simp [EndsNumber]) cutsInto_nil
    simpa [text, tokens?] using hcuts _ (Nat.le_refl _)
  have hread := readValue?_tokens j [] []
  rw [List.append_nil] at hread
  rw [parse?, htokens, Option.bind_eq_bind, Option.bind_some, hread, readAfter?]

end QueryPipeline.Json
