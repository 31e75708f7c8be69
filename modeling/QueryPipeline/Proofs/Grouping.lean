import Mathlib.Tactic.Common
import QueryPipeline.Sql.Command
import QueryPipeline.Sql.Scalar

/-!
# Reading by precedence

How a database groups the operators of an expression. It reads the tokens from the left with a stack of the
operators and brackets that wait for more. An operator ends the operands before it that bind at least as
tightly, so operators of one level group to the left, and a bracket keeps together what it encloses.

A grouping is read back from its tokens just when it fits: no operand shows an operator to the outside that
binds more loosely than the operator next to it.
-/

set_option autoImplicit false

namespace QueryPipeline.Sql

/-- The operators that a text shows. -/
inductive Sign where
  /-- An operator between two operands. -/
  | op (o : ScalarOp)
  /-- Joins texts. -/
  | join
  | like
  /-- The character that takes the meaning of the next one in a pattern. -/
  | escape
  | minus
  | not
  /-- The operand is absent, or is not. -/
  | isNull
  /-- A function of the value before it. -/
  | member
deriving DecidableEq, Repr

mutual

/-- An expression with the operators that its text shows. -/
inductive Grouping where
  | atom (pieces : List Piece)
  | between (sign : Sign) (text : String) (left right : Grouping)
  | before (sign : Sign) (text : String) (operand : Grouping)
  | after (sign : Sign) (text : String) (operand : Grouping)
  | enclosed (opening : List Piece) (contents : Contents)

/-- What stands in a bracket, with what stands after each part of it. -/
inductive Contents where
  | last (g : Grouping) (closing : List Piece)
  | more (g : Grouping) (separator : List Piece) (rest : Contents)

end

/-- What a text consists of. -/
inductive Token where
  | atom (pieces : List Piece)
  | between (sign : Sign) (text : String)
  | before (sign : Sign) (text : String)
  | after (sign : Sign) (text : String)
  | opening (pieces : List Piece)
  | separator (pieces : List Piece)
  | closing (pieces : List Piece)

mutual

/-- The tokens of an expression. -/
def Grouping.tokens : Grouping → List Token
  | .atom pieces => [.atom pieces]
  | .between sign text left right => left.tokens ++ .between sign text :: right.tokens
  | .before sign text operand => .before sign text :: operand.tokens
  | .after sign text operand => operand.tokens ++ [.after sign text]
  | .enclosed opening contents => .opening opening :: contents.tokens

/-- The tokens in a bracket and at its end. -/
def Contents.tokens : Contents → List Token
  | .last g closing => g.tokens ++ [.closing closing]
  | .more g separator rest => g.tokens ++ .separator separator :: rest.tokens

end

/-- What waits for an operand. -/
inductive Frame where
  | between (sign : Sign) (text : String) (left : Grouping)
  | before (sign : Sign) (text : String)
  /-- A bracket with what has been read in it, the last first. -/
  | enclosed (opening : List Piece) (known : List (Grouping × List Piece))

/-- What has been read, with the last part of a bracket after it. -/
def Contents.close (contents : Contents) : List (Grouping × List Piece) → Contents
  | [] => contents
  | (g, separator) :: known => (Contents.more g separator contents).close known

/-- What a database knows in the middle of an expression. -/
structure Reader where
  stack : List Frame
  /-- The last operand, when an operator may follow. -/
  operand : Option Grouping

section Reading

variable (π : Sign → Nat)

/-- Ends the operands of the operators on the stack that bind at least as tightly as a level. -/
def unwind (k : Nat) : List Frame → Grouping → List Frame × Grouping
  | .between sign text left :: stack, g =>
    if k ≤ π sign then unwind k stack (.between sign text left g)
    else (.between sign text left :: stack, g)
  | .before sign text :: stack, g =>
    if k ≤ π sign then unwind k stack (.before sign text g) else (.before sign text :: stack, g)
  | stack, g => (stack, g)

/-- Reads a token. -/
def Reader.step : Reader → Token → Option Reader
  | ⟨stack, none⟩, .atom pieces => some ⟨stack, some (.atom pieces)⟩
  | ⟨stack, none⟩, .before sign text => some ⟨.before sign text :: stack, none⟩
  | ⟨stack, none⟩, .opening pieces => some ⟨.enclosed pieces [] :: stack, none⟩
  | ⟨stack, some g⟩, .between sign text =>
    let (stack, left) := unwind π (π sign) stack g
    some ⟨.between sign text left :: stack, none⟩
  | ⟨stack, some g⟩, .after sign text =>
    let (stack, operand) := unwind π (π sign) stack g
    some ⟨stack, some (.after sign text operand)⟩
  | ⟨stack, some g⟩, .separator pieces =>
    match unwind π 0 stack g with
    | (.enclosed opening known :: stack, g) =>
      some ⟨.enclosed opening ((g, pieces) :: known) :: stack, none⟩
    | _ => none
  | ⟨stack, some g⟩, .closing pieces =>
    match unwind π 0 stack g with
    | (.enclosed opening known :: stack, g) =>
      some ⟨stack, some (.enclosed opening ((Contents.last g pieces).close known))⟩
    | _ => none
  | _, _ => none

/-- Reads some tokens. -/
def Reader.steps (r : Reader) (tokens : List Token) : Option Reader := tokens.foldlM (Reader.step π) r

/-- The expression that some tokens are, for a database whose operators bind as tightly as `π` says. -/
def readTokens (tokens : List Token) : Option Grouping :=
  match Reader.steps π ⟨[], none⟩ tokens with
  | some ⟨stack, some g⟩ =>
    match unwind π 0 stack g with
    | ([], g) => some g
    | _ => none
  | _ => none

end Reading

section Fitting

variable (π : Sign → Nat)

/-- All operators that may take an operand from before the expression bind more tightly than a level. -/
def Grouping.opensAbove (k : Nat) : Grouping → Bool
  | .between sign _ left _ => decide (k < π sign) && left.opensAbove k
  | .after sign _ operand => decide (k < π sign) && operand.opensAbove k
  | _ => true

/-- All operators that may take an operand from after the expression bind at least as tightly as a level. -/
def Grouping.closesAt (k : Nat) : Grouping → Bool
  | .between sign _ _ right => decide (k ≤ π sign) && right.closesAt k
  | .before sign _ operand => decide (k ≤ π sign) && operand.closesAt k
  | _ => true

mutual

/-- Every operand shows only operators to the operator next to it that leave it alone. -/
def Grouping.fits : Grouping → Bool
  | .atom _ => true
  | .between sign _ left right =>
    left.fits && right.fits && left.closesAt π (π sign) && right.opensAbove π (π sign)
  | .before sign _ operand => operand.fits && operand.opensAbove π (π sign)
  | .after sign _ operand => operand.fits && operand.closesAt π (π sign)
  | .enclosed _ contents => contents.fits

/-- Everything in a bracket fits. -/
def Contents.fits : Contents → Bool
  | .last g _ => g.fits
  | .more g _ rest => g.fits && rest.fits

end

/-- An operand leaves the operator alone that waits for it. -/
def Grouping.opensOver (g : Grouping) : List Frame → Bool
  | .between sign _ _ :: _ | .before sign _ :: _ => g.opensAbove π (π sign)
  | _ => true

/-- The operator that waits for an operand binds more loosely than a level. -/
def waitsBelow (k : Nat) : List Frame → Bool
  | .between sign _ _ :: _ | .before sign _ :: _ => decide (π sign < k)
  | _ => true

end Fitting

/-- The operators of an expression that wait for an operand when the expression has been read, the last
first. -/
def Grouping.waiting : Grouping → List Frame
  | .between sign text left right => right.waiting ++ [.between sign text left]
  | .before sign text operand => operand.waiting ++ [.before sign text]
  | _ => []

/-- The last operand of an expression when the expression has been read. -/
def Grouping.ending : Grouping → Grouping
  | .between _ _ _ right => right.ending
  | .before _ _ operand => operand.ending
  | g => g

variable {π : Sign → Nat}

namespace Grouping

variable {k : Nat} {sign : Sign} {text : String} {left right operand : Grouping}

/-- An operator between two operands takes an operand from before it, and its left operand may do so, too. -/
@[simp] theorem opensAbove_between : (between sign text left right).opensAbove π k = true ↔
    k < π sign ∧ left.opensAbove π k = true := by
  simp [opensAbove]

/-- An operator after its operand takes an operand from before it, and the operand may do so, too. -/
@[simp] theorem opensAbove_after : (after sign text operand).opensAbove π k = true ↔
    k < π sign ∧ operand.opensAbove π k = true := by
  simp [opensAbove]

/-- An operator between two operands takes an operand from after it, and its right operand may do so, too. -/
@[simp] theorem closesAt_between : (between sign text left right).closesAt π k = true ↔
    k ≤ π sign ∧ right.closesAt π k = true := by
  simp [closesAt]

/-- An operator before its operand takes an operand from after it, and the operand may do so, too. -/
@[simp] theorem closesAt_before : (before sign text operand).closesAt π k = true ↔
    k ≤ π sign ∧ operand.closesAt π k = true := by
  simp [closesAt]

/-- Operands on both sides fit an operator when they fit themselves and leave the operator alone. -/
@[simp] theorem fits_between : (between sign text left right).fits π = true ↔
    left.fits π = true ∧ right.fits π = true ∧ left.closesAt π (π sign) = true ∧
      right.opensAbove π (π sign) = true := by
  simp [fits, and_assoc]

/-- An operand fits an operator before it when it fits itself and leaves the operator alone. -/
@[simp] theorem fits_before : (before sign text operand).fits π = true ↔
    operand.fits π = true ∧ operand.opensAbove π (π sign) = true := by
  simp [fits]

/-- An operand fits an operator after it when it fits itself and leaves the operator alone. -/
@[simp] theorem fits_after : (after sign text operand).fits π = true ↔
    operand.fits π = true ∧ operand.closesAt π (π sign) = true := by
  simp [fits]

/-- An operator that takes an operand from before it leaves an operator alone that waits for that operand
when it binds more tightly, and the operand leaves it alone. -/
theorem opensOver_between : ∀ {stack : List Frame},
    (between sign text left right).opensOver π stack = true ↔
      waitsBelow π (π sign) stack = true ∧ left.opensOver π stack = true
  | [] | .enclosed _ _ :: _ => by simp [opensOver, waitsBelow]
  | .between _ _ _ :: _ | .before _ _ :: _ => by simp [opensOver, waitsBelow]

/-- An operator after its operand leaves a waiting operator alone when it binds more tightly and its operand
leaves it alone. -/
theorem opensOver_after : ∀ {stack : List Frame},
    (after sign text operand).opensOver π stack = true ↔
      waitsBelow π (π sign) stack = true ∧ operand.opensOver π stack = true
  | [] | .enclosed _ _ :: _ => by simp [opensOver, waitsBelow]
  | .between _ _ _ :: _ | .before _ _ :: _ => by simp [opensOver, waitsBelow]

/-- An expression that begins with no operand of an operator leaves all operators before it alone. -/
theorem opensOver_of_shut {g : Grouping} (h : ∀ k, g.opensAbove π k = true) :
    ∀ {stack : List Frame}, g.opensOver π stack = true
  | [] | .enclosed _ _ :: _ => rfl
  | .between sign _ _ :: _ | .before sign _ :: _ => h (π sign)

/-- Every operator binds at least as tightly as the lowest level. -/
theorem closesAt_zero : ∀ g : Grouping, g.closesAt π 0 = true
  | .atom _ | .after _ _ _ | .enclosed _ _ => rfl
  | .between _ _ _ right => by simp [right.closesAt_zero]
  | .before _ _ operand => by simp [operand.closesAt_zero]

end Grouping

/-- Everything in a bracket fits when its first part and the others do. -/
@[simp] theorem Contents.fits_more {g : Grouping} {separator : List Piece} {rest : Contents} :
    (more g separator rest).fits π = true ↔ g.fits π = true ∧ rest.fits π = true := by
  simp [fits]

/-- An operator that binds more loosely than a level goes on waiting. -/
theorem unwind_of_waitsBelow {k : Nat} {stack : List Frame} {g : Grouping}
    (h : waitsBelow π k stack = true) : unwind π k stack g = (stack, g) := by
  unfold unwind
  split
  · rw [if_neg (Nat.not_le.2 (of_decide_eq_true h))]
  · rw [if_neg (Nat.not_le.2 (of_decide_eq_true h))]
  · rfl

/-- An operator that binds loosely enough ends an expression before it. -/
theorem unwind_waiting {k : Nat} : ∀ (g : Grouping) (stack : List Frame), g.closesAt π k = true →
    unwind π k (g.waiting ++ stack) g.ending = unwind π k stack g
  | .atom _, _, _ | .after _ _ _, _, _ | .enclosed _ _, _, _ => rfl
  | .between sign text left right, stack, h => by
    obtain ⟨hsign, hright⟩ := Grouping.closesAt_between.1 h
    rw [Grouping.waiting, Grouping.ending, List.append_assoc, List.singleton_append,
      unwind_waiting right _ hright, unwind, if_pos hsign]
  | .before sign text operand, stack, h => by
    obtain ⟨hsign, hoperand⟩ := Grouping.closesAt_before.1 h
    rw [Grouping.waiting, Grouping.ending, List.append_assoc, List.singleton_append,
      unwind_waiting operand _ hoperand, unwind, if_pos hsign]

/-- Tokens are read one part after the other. -/
theorem Reader.steps_append (r : Reader) (tokens rest : List Token) :
    r.steps π (tokens ++ rest) = (r.steps π tokens).bind (·.steps π rest) :=
  List.foldlM_append

/-- Tokens are read one by one. -/
theorem Reader.steps_cons (r : Reader) (token : Token) (rest : List Token) :
    r.steps π (token :: rest) = (r.step π token).bind (·.steps π rest) :=
  List.foldlM_cons

/-- The end of a part of a bracket ends an expression before it. -/
theorem unwind_enclosed (g : Grouping) (opening : List Piece) (known : List (Grouping × List Piece))
    (stack : List Frame) :
    unwind π 0 (g.waiting ++ .enclosed opening known :: stack) g.ending =
      (.enclosed opening known :: stack, g) := by
  rw [unwind_waiting g _ g.closesAt_zero]
  rfl

mutual

/-- An expression that fits is read up to its last operand, whatever it stands next to. -/
theorem steps_tokens : ∀ (g : Grouping) (stack : List Frame), g.fits π = true →
    g.opensOver π stack = true →
    Reader.steps π ⟨stack, none⟩ g.tokens = some ⟨g.waiting ++ stack, some g.ending⟩
  | .atom _, _, _, _ => rfl
  | .between sign text left right, stack, hfits, hopens => by
    obtain ⟨hl, hr, hcloses, hright⟩ := Grouping.fits_between.1 hfits
    obtain ⟨hwaits, hleft⟩ := Grouping.opensOver_between.1 hopens
    -- the operator waits for its right operand in the place of all that the left one had left to wait
    have hright : right.opensOver π (.between sign text left :: stack) = true := hright
    rw [Grouping.tokens, Reader.steps_append, steps_tokens left stack hl hleft, Option.bind_some,
      Reader.steps_cons, Reader.step, unwind_waiting left stack hcloses, unwind_of_waitsBelow hwaits,
      Option.bind_some, steps_tokens right _ hr hright, Grouping.waiting, Grouping.ending,
      List.append_assoc, List.singleton_append]
  | .before sign text operand, stack, hfits, _ => by
    obtain ⟨hfits, hopens⟩ := Grouping.fits_before.1 hfits
    have hopens : operand.opensOver π (.before sign text :: stack) = true := hopens
    rw [Grouping.tokens, Reader.steps_cons, Reader.step, Option.bind_some,
      steps_tokens operand _ hfits hopens, Grouping.waiting, Grouping.ending, List.append_assoc,
      List.singleton_append]
  | .after sign text operand, stack, hfits, hopens => by
    obtain ⟨hfits, hcloses⟩ := Grouping.fits_after.1 hfits
    obtain ⟨hwaits, hoperand⟩ := Grouping.opensOver_after.1 hopens
    rw [Grouping.tokens, Reader.steps_append, steps_tokens operand stack hfits hoperand,
      Option.bind_some, Reader.steps_cons, Reader.step, unwind_waiting operand stack hcloses,
      unwind_of_waitsBelow hwaits]
    rfl
  | .enclosed opening contents, stack, hfits, _ => by
    rw [Grouping.tokens, Reader.steps_cons, Reader.step, Option.bind_some,
      steps_contents contents opening [] stack hfits]
    rfl

/-- What fits in a bracket is read up to the end of the bracket. -/
theorem steps_contents : ∀ (contents : Contents) (opening : List Piece)
    (known : List (Grouping × List Piece)) (stack : List Frame), contents.fits π = true →
    Reader.steps π ⟨.enclosed opening known :: stack, none⟩ contents.tokens =
      some ⟨stack, some (.enclosed opening (contents.close known))⟩
  | .last g closing, opening, known, stack, hfits => by
    rw [Contents.tokens, Reader.steps_append, steps_tokens g _ hfits rfl, Option.bind_some,
      Reader.steps_cons, Reader.step, unwind_enclosed]
    rfl
  | .more g separator rest, opening, known, stack, hfits => by
    obtain ⟨hg, hrest⟩ := Contents.fits_more.1 hfits
    rw [Contents.tokens, Reader.steps_append, steps_tokens g _ hg rfl, Option.bind_some,
      Reader.steps_cons, Reader.step, unwind_enclosed, Option.bind_some,
      steps_contents rest opening _ stack hrest]
    rfl

end

/-- An expression that fits is read back from its tokens. -/
theorem readTokens_of_fits {g : Grouping} (h : g.fits π = true) : readTokens π g.tokens = some g := by
  rw [readTokens, steps_tokens g [] h rfl]
  dsimp only
  rw [unwind_waiting g [] g.closesAt_zero]
  rfl

section Soundness

variable (π)

/-- What waits on a stack fits, and leaves the operators alone that wait below it. -/
def StackFits : List Frame → Prop
  | .between sign _ left :: stack =>
    left.fits π = true ∧ left.closesAt π (π sign) = true ∧ waitsBelow π (π sign) stack = true ∧
      left.opensOver π stack = true ∧ StackFits stack
  | .before _ _ :: stack => StackFits stack
  | .enclosed _ known :: stack => (∀ part ∈ known, part.1.fits π = true) ∧ StackFits stack
  | [] => True

/-- An operand fits over a stack, and shows no operator after it that binds more loosely than a level. -/
structure OperandFits (k : Nat) (stack : List Frame) (g : Grouping) : Prop where
  below : StackFits π stack
  fits : g.fits π = true
  opens : g.opensOver π stack = true
  closes : g.closesAt π k = true

/-- What a database knows in the middle of an expression fits. -/
def Reader.Fits : Reader → Prop
  | ⟨stack, none⟩ => StackFits π stack
  | ⟨stack, some g⟩ => ∀ k, OperandFits π k stack g

variable {π}

/-- When the operands before an operator are ended, what is left fits and leaves the operator alone. -/
theorem OperandFits.unwind {k : Nat} : ∀ {stack : List Frame} {g : Grouping}, OperandFits π k stack g →
    OperandFits π k (unwind π k stack g).1 (unwind π k stack g).2 ∧
      waitsBelow π k (unwind π k stack g).1 = true
  | .between sign text left :: stack, g, h => by
    rw [Sql.unwind]
    split
    · rename_i hk
      obtain ⟨hleft, hcloses, hwaits, hopens, hstack⟩ := h.below
      -- what waited for the operand becomes the operand
      exact unwind ⟨hstack, Grouping.fits_between.2 ⟨hleft, h.fits, hcloses, h.opens⟩,
        Grouping.opensOver_between.2 ⟨hwaits, hopens⟩, Grouping.closesAt_between.2 ⟨hk, h.closes⟩⟩
    · rename_i hk
      exact ⟨h, decide_eq_true (Nat.not_le.1 hk)⟩
  | .before sign text :: stack, g, h => by
    rw [Sql.unwind]
    split
    · rename_i hk
      exact unwind ⟨h.below, Grouping.fits_before.2 ⟨h.fits, h.opens⟩,
        Grouping.opensOver_of_shut fun _ => rfl, Grouping.closesAt_before.2 ⟨hk, h.closes⟩⟩
    · rename_i hk
      exact ⟨h, decide_eq_true (Nat.not_le.1 hk)⟩
  | .enclosed _ _ :: _, _, h => ⟨h, rfl⟩
  | [], _, h => ⟨h, rfl⟩

/-- What has been read in a bracket fits together with what is at its end. -/
theorem Contents.fits_close : ∀ {known : List (Grouping × List Piece)} {contents : Contents},
    (∀ part ∈ known, part.1.fits π = true) → contents.fits π = true → (contents.close known).fits π = true
  | [], _, _, h => h
  | (g, separator) :: known, contents, hknown, h => by
    obtain ⟨hg, hknown⟩ := List.forall_mem_cons.1 hknown
    have hmore : (Contents.more g separator contents).fits π = true := Contents.fits_more.2 ⟨hg, h⟩
    exact @fits_close known (.more g separator contents) hknown hmore

/-- Reading a token keeps what is known fit. -/
theorem Reader.Fits.step {r r' : Reader} {token : Token} (h : r.Fits π) (hr : r.step π token = some r') :
    r'.Fits π := by
  obtain ⟨stack, operand⟩ := r
  cases operand with
  | none =>
    cases token with
    | atom pieces =>
      cases hr
      exact fun k => ⟨h, rfl, Grouping.opensOver_of_shut fun _ => rfl, rfl⟩
    | before sign text =>
      cases hr
      exact h
    | opening pieces =>
      cases hr
      exact ⟨List.forall_mem_nil _, h⟩
    | _ => cases hr
  | some g =>
    cases token with
    | between sign text =>
      cases hr
      obtain ⟨hg, hwaits⟩ := (h (π sign)).unwind
      exact ⟨hg.fits, hg.closes, hwaits, hg.opens, hg.below⟩
    | after sign text =>
      cases hr
      obtain ⟨hg, hwaits⟩ := (h (π sign)).unwind
      exact fun k => ⟨hg.below, Grouping.fits_after.2 ⟨hg.fits, hg.closes⟩,
        Grouping.opensOver_after.2 ⟨hwaits, hg.opens⟩, rfl⟩
    | separator pieces =>
      have hg := (h 0).unwind.1
      rw [Reader.step] at hr
      split at hr
      · rename_i hunwind
        cases hr
        rw [hunwind] at hg
        exact ⟨List.forall_mem_cons.2 ⟨hg.fits, hg.below.1⟩, hg.below.2⟩
      · cases hr
    | closing pieces =>
      have hg := (h 0).unwind.1
      rw [Reader.step] at hr
      split at hr
      · rename_i hunwind
        cases hr
        rw [hunwind] at hg
        refine fun k => ⟨hg.below.2, ?_, Grouping.opensOver_of_shut fun _ => rfl, rfl⟩
        exact Contents.fits_close hg.below.1 hg.fits
      · cases hr
    | _ => cases hr

/-- Reading some tokens keeps what is known fit. -/
theorem Reader.Fits.steps : ∀ {tokens : List Token} {r r' : Reader}, r.Fits π →
    r.steps π tokens = some r' → r'.Fits π
  | [], _, _, h, hr => by
    cases hr
    exact h
  | token :: rest, r, r', h, hr => by
    rw [Reader.steps_cons] at hr
    obtain ⟨next, hnext, hr⟩ := Option.bind_eq_some_iff.1 hr
    exact (h.step hnext).steps hr

/-- Whatever is read fits. -/
theorem fits_of_readTokens {tokens : List Token} {g : Grouping} (h : readTokens π tokens = some g) :
    g.fits π = true := by
  unfold readTokens at h
  split at h
  · rename_i hr
    have hfits : Reader.Fits π ⟨[], none⟩ := trivial
    have hg := (hfits.steps hr 0).unwind.1
    split at h
    · rename_i hunwind
      cases h
      rw [hunwind] at hg
      exact hg.fits
    · cases h
  · cases h

end Soundness

/-- An expression is read back from its tokens just when it fits. -/
theorem readTokens_tokens {g : Grouping} : readTokens π g.tokens = some g ↔ g.fits π = true :=
  ⟨fits_of_readTokens, readTokens_of_fits⟩

end QueryPipeline.Sql
