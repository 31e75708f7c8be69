import QueryPipeline.Proofs.Terminals

/-!
# Whether a predicate is true of all rows

A pipeline that ends with `All` asks whether there are no rows on which the negated predicate is true. These
are the rows on which the predicate is false, and a predicate that is unknown on a row is not false there. A
pipeline that ends with `Count` leaves such a row out. So the two agree about the rows on which the predicate
is true or false, and differ where it is unknown.
-/

set_option autoImplicit false

namespace QueryPipeline

open Sql

section Truth

variable {V : Type}

/-- A negation is true where its operand is false, false where it is true, and unknown where it is unknown. -/
def Interpretation.NegatesTruth (I : Interpretation V) : Prop := ∀ v, I.truth (I.not v) = (I.truth v).map (!·)

/-- The negation of a condition holds where the condition is false. -/
theorem Interpretation.NegatesTruth.holds_not {I : Interpretation V} (h : I.NegatesTruth) (v : V) :
    I.holds (I.not v) = decide (I.truth v = some false) := by
  rw [Interpretation.holds, h v]
  cases I.truth v with
  | none => rfl
  | some b => cases b <;> rfl

/-- A truth is one of three. -/
theorem countP_truths {α : Type} (truth : α → Option Bool) (l : List α) :
    l.countP (truth · = some true) + l.countP (truth · = some false) + l.countP (truth · = none) =
      l.length := by
  induction l with
  | nil => rfl
  | cons a rest ih =>
    simp only [List.countP_cons, List.length_cons]
    cases h : truth a with
    | none => simp; omega
    | some b => cases b <;> simp <;> omega

end Truth

variable {V : Type} [DecidableEq V]

/-- The number of rows of a query on which a condition has some truth. -/
def ShapedDraft.rowsWith (q : ShapedDraft) (I : Interpretation V) (db : Database V) (s : Scalar)
    (truth : Option Bool) : Nat :=
  (q.places I db).countP fun ρ => I.truth (s.eval I db ρ) = truth

namespace ShapedDraft

variable {q : ShapedDraft} {I : Interpretation V} {db : Database V} {s : Scalar}

/-- In every row a condition is true, false or unknown. -/
theorem rowsWith_total (q : ShapedDraft) (I : Interpretation V) (db : Database V) (s : Scalar) :
    q.rowsWith I db s (some true) + q.rowsWith I db s (some false) + q.rowsWith I db s none =
      (q.places I db).length :=
  countP_truths (fun ρ => I.truth (s.eval I db ρ)) (q.places I db)

/-- A condition has a truth value in no row just when no row gives it this value. -/
theorem rowsWith_eq_zero {truth : Option Bool} :
    q.rowsWith I db s truth = 0 ↔ ∀ ρ ∈ q.places I db, I.truth (s.eval I db ρ) ≠ truth := by
  simp [rowsWith, List.countP_eq_zero]

/-- The order of the rows does not count. -/
theorem rowsWith_kept (q : ShapedDraft) (I : Interpretation V) (db : Database V) (s : Scalar)
    (truth : Option Bool) :
    q.rowsWith I db s truth =
      (q.opened.draft.kept I db).countP fun ρ => I.truth (s.eval I db ρ) = truth :=
  (List.mergeSort_perm _ _).countP_eq _

/-- A query has as many rows as the draft that is opened for further operators keeps. -/
theorem length_places_kept (q : ShapedDraft) (I : Interpretation V) (db : Database V) :
    (q.places I db).length = (q.opened.draft.kept I db).length :=
  (List.mergeSort_perm _ _).length_eq

/-- A draft that sees all its rows is tidy. -/
theorem tidy_of_open (h : q.isClosed = false) : Environment.Tidy q := by
  have hdistinct := (isClosed_eq_false.1 h).2.2
  constructor
  · intro hd
    rw [hdistinct] at hd
    cases hd
  · intro hd
    rw [hdistinct] at hd
    cases hd

end ShapedDraft

namespace Environment

variable {env : Environment} {q q' : ShapedDraft} {I : CountingInterpretation V} {p : Lambda} {s : Scalar}

/-- A draft that is restricted has as many rows as those in which the condition holds. -/
theorem length_ranked_restrict (q : ShapedDraft) (s : Scalar) (db : Database V) :
    ((q.opened.mapDraft (·.restrict s)).ranked I.toInterpretation db).length =
      (q.places I.toInterpretation db).countP fun ρ => I.holds (s.eval I.toInterpretation db ρ) := by
  rw [ShapedDraft.ranked, List.length_map, places_restrict, List.countP_eq_length_filter]

/-- `All` is true where the predicate is false on no row, and false otherwise. -/
theorem all_yields (hnot : I.NegatesTruth) (hp : env.predicate q.opened p = .ok s)
    (db : Database V) :
    ∃ q' v, env.apply q (.all p) = .ok q' ∧ q'.finish.results I db = [.value v] ∧
      I.truth v = some (decide (q.rowsWith I.toInterpretation db s (some false) = 0)) := by
  have hopen : (q.opened.mapDraft (·.restrict (env.catalog.not s))).isClosed = false := by
    rw [ShapedDraft.isClosed_restrict]
    exact q.opened_isClosed
  obtain ⟨v, hresults, htruth⟩ : ∃ v, (env.existence (q.opened.mapDraft (·.restrict (env.catalog.not s)))
      true).finish.results I db = [.value v] ∧ _ :=
    existence_yields (ShapedDraft.tidy_of_open hopen) true
  have happly : env.apply q (.all p) =
      .ok (env.existence (q.opened.mapDraft (·.restrict (env.catalog.not s))) true) := by
    simp only [apply, hp]
    rfl
  -- the rows that are asked about are those on which the predicate is false
  have hlength : ((q.opened.mapDraft (·.restrict (env.catalog.not s))).ranked I.toInterpretation db).length =
      q.rowsWith I.toInterpretation db s (some false) := by
    rw [length_ranked_restrict]
    simp only [Catalog.eval_not, hnot.holds_not]
    rfl
  refine ⟨_, v, happly, hresults, ?_⟩
  rw [htruth, ← hlength]
  cases (q.opened.mapDraft (·.restrict (env.catalog.not s))).ranked I.toInterpretation db <;> simp

/-- `Count` with a predicate is the number of rows on which it is true. -/
theorem count_yields (I : CountingInterpretation V) (hp : env.predicate q.opened p = .ok s)
    (db : Database V) :
    ∃ q', env.apply q (.count (some p)) = .ok q' ∧
      q'.finish.results I db = [.value (I.total (q.rowsWith I.toInterpretation db s (some true)))] := by
  have happly : env.apply q (.count (some p)) =
      .ok (env.rowTotal (q.opened.mapDraft (·.restrict s)) "COUNT" .int32) := by
    simp only [apply, filterWith, filter, hp]
    rfl
  refine ⟨_, happly, ?_⟩
  rw [rowTotal_yields (by decide), length_ranked_restrict]
  rfl

/-- `Count` without a predicate is the number of all rows. -/
theorem total_yields (I : CountingInterpretation V) (env : Environment) (q : ShapedDraft)
    (db : Database V) :
    ∃ q', env.apply q (.count none) = .ok q' ∧
      q'.finish.results I db = [.value (I.total (q.places I.toInterpretation db).length)] := by
  refine ⟨env.rowTotal q "COUNT" .int32, rfl, ?_⟩
  rw [rowTotal_yields (by decide), ShapedDraft.ranked, List.length_map]

/-- One more operator is applied to what the operators before it have left. -/
theorem applyAll_concat {ops : List Operator} {op : Operator} {start : ShapedDraft}
    (h : env.applyAll start ops = .ok q) (hlist : q.cardinality = .sequence) (hop : env.apply q op = .ok q') :
    env.applyAll start (ops ++ [op]) = .ok q' := by
  induction ops generalizing start with
  | nil =>
    cases h
    rw [List.nil_append, applyAll, if_pos hlist, hop]
    rfl
  | cons first rest ih =>
    unfold applyAll at h
    split at h
    · rename_i hsequence
      obtain ⟨q₁, hfirst, hrest⟩ := bind_eq_ok.1 h
      rw [List.cons_append, applyAll, if_pos hsequence, hfirst]
      exact ih hrest
    · cases h

/-- An operator that a list admits may end its pipeline. -/
theorem lower_andThen {chain : Query} {op : Operator} (h : env.lowerDraft chain = .ok q)
    (hlist : q.cardinality = .sequence) (hop : env.apply q op = .ok q') :
    env.lower (chain.andThen op) = .ok q'.finish := by
  obtain ⟨start, hstart, hq⟩ := bind_eq_ok.1 h
  exact lower_eq_ok.2 ⟨q', bind_eq_ok.2 ⟨start, hstart, applyAll_concat hq hlist hop⟩, rfl⟩

end Environment

/-- A pipeline of any operators that becomes a list `q` may end with `All` of every predicate that becomes a
condition `s` over the rows of the list, with `Count` of it and with `Count` alone. `All` is true where the
predicate is false on no row and false otherwise; it is true just when the rows on which the predicate is
true and those on which it is unknown are all rows. So `All` is true wherever the two counts are equal, and
only there if the predicate is unknown on no row. -/
theorem all_iff_count (env : Environment) (chain : Query) (q : ShapedDraft) (p : Lambda) (s : Scalar)
    (hchain : env.lowerDraft chain = .ok q) (hlist : q.cardinality = .sequence)
    (hp : env.predicate q.opened p = .ok s) (I : CountingInterpretation V) (hnot : I.NegatesTruth)
    (htotal : Function.Injective I.total) (db : Database V) :
    ∃ all counted total v, env.lower (chain.andThen (.all p)) = .ok all ∧
      env.lower (chain.andThen (.count (some p))) = .ok counted ∧
      env.lower (chain.andThen (.count none)) = .ok total ∧
      q.rowsRead I.toInterpretation db =
        (q.places I.toInterpretation db).map (q.opened.read I.toInterpretation db) ∧
      all.results I db = [.value v] ∧
      counted.results I db = [.value (I.total (q.rowsWith I.toInterpretation db s (some true)))] ∧
      total.results I db = [.value (I.total (q.places I.toInterpretation db).length)] ∧
      I.truth v = some (decide (∀ ρ ∈ q.places I.toInterpretation db,
        I.truth (s.eval I.toInterpretation db ρ) ≠ some false)) ∧
      (I.truth v = some true ↔ q.rowsWith I.toInterpretation db s (some true) +
        q.rowsWith I.toInterpretation db s none = (q.places I.toInterpretation db).length) ∧
      (counted.results I db = total.results I db → I.truth v = some true) ∧
      (q.rowsWith I.toInterpretation db s none = 0 →
        (I.truth v = some true ↔ counted.results I db = total.results I db)) := by
  obtain ⟨qall, v, hall, hvalue, htruth⟩ := Environment.all_yields hnot hp db
  obtain ⟨qcount, hcount, hcounted⟩ := Environment.count_yields I hp db
  obtain ⟨qtotal, hlast, htotals⟩ := Environment.total_yields I env q db
  have hsum := q.rowsWith_total I.toInterpretation db s
  have hsettled := (Environment.lowerDraft_tidy hchain).settled
  have hfalse : I.truth v = some true ↔ q.rowsWith I.toInterpretation db s (some false) = 0 := by
    rw [htruth]
    simp
  have hequal : qcount.finish.results I db = qtotal.finish.results I db ↔
      q.rowsWith I.toInterpretation db s (some true) = (q.places I.toInterpretation db).length := by
    rw [hcounted, htotals]
    simp [htotal.eq_iff]
  refine ⟨qall.finish, qcount.finish, qtotal.finish, v, Environment.lower_andThen hchain hlist hall,
    Environment.lower_andThen hchain hlist hcount, Environment.lower_andThen hchain hlist hlast,
    ShapedDraft.rowsRead_eq hsettled, hvalue, hcounted, htotals, ?_, ?_, ?_, ?_⟩
  · rw [htruth]
    simp only [ShapedDraft.rowsWith_eq_zero]
  · rw [hfalse]
    omega
  · intro heq
    have := hequal.1 heq
    rw [hfalse]
    omega
  · intro hunknown
    rw [hfalse, hequal]
    omega

section Runs

/-- In the interpretation by numbers, a negation has the opposite truth value. -/
theorem CountingInterpretation.numbers_negatesTruth :
    CountingInterpretation.numbers.NegatesTruth := by
  rintro (_ | a)
  · rfl
  · by_cases h : a = 0
    · subst h
      rfl
    · show some (decide ((decide (a = 0)).toInt ≠ 0)) = some (!decide (a ≠ 0))
      simp [h]

/-- In the interpretation by numbers, different numbers of rows are different values. -/
theorem CountingInterpretation.numbers_total_injective :
    Function.Injective CountingInterpretation.numbers.total := by
  intro n m h
  have hcast : (n : Int) = m := Option.some.inj h
  exact Int.ofNat.inj hcast

/-- All of the last named persons have name 40 just when as many of them have it as there are, as long as it is
known of each of them. -/
theorem lastNamed_all_iff_count :
    ∃ q s all counted total v,
      (Compiler.new .persons .standard).environment.lowerDraft .lastNamed = .ok q ∧
      (Compiler.new .persons .standard).environment.predicate q.opened .isNamedForty = .ok s ∧
      (Compiler.new .persons .standard).environment.lower (Query.lastNamed.andThen (.all .isNamedForty)) =
        .ok all ∧
      (Compiler.new .persons .standard).environment.lower
        (Query.lastNamed.andThen (.count (some .isNamedForty))) = .ok counted ∧
      (Compiler.new .persons .standard).environment.lower (Query.lastNamed.andThen (.count none)) =
        .ok total ∧
      all.results .numbers personRows = [.value v] ∧
      (q.rowsWith .numbers personRows s none = 0 → (CountingInterpretation.numbers.truth v = some true ↔
        counted.results .numbers personRows = total.results .numbers personRows)) := by
  obtain ⟨q, hchain, hcheck⟩ : ∃ q,
      (Compiler.new .persons .standard).environment.lowerDraft .lastNamed = .ok q ∧
      (decide (q.cardinality = .sequence) &&
        ((Compiler.new .persons .standard).environment.predicate q.opened .isNamedForty).isOk) = true :=
    exists_of_any (by decide +kernel)
  obtain ⟨hlist, hok⟩ := Bool.and_eq_true_iff.1 hcheck
  obtain ⟨s, hs⟩ := exists_of_isOk hok
  obtain ⟨all, counted, total, v, hall, hcount, hlast, -, hvalue, -, -, -, -, -, hknown⟩ :=
    all_iff_count _ .lastNamed q .isNamedForty s hchain (of_decide_eq_true hlist) hs .numbers
      CountingInterpretation.numbers_negatesTruth CountingInterpretation.numbers_total_injective personRows
  exact ⟨q, s, all, counted, total, v, hchain, hs, hall, hcount, hlast, hvalue, hknown⟩

/-- Two persons, of whom the second has no name. -/
def twoPersons : Database (Option Int) := fun _ _ =>
  [some 40, none].map fun name column => if column = "name" then name else some 1

/-- It is true that all of two persons have name 40 if the second one has no name, and only one of them is
counted. -/
theorem all_with_other_counts :
    ∃ q s all counted total v,
      (Compiler.new .persons .standard).environment.lowerDraft ⟨"Person", []⟩ = .ok q ∧
      (Compiler.new .persons .standard).environment.predicate q.opened .isNamedForty = .ok s ∧
      CountingInterpretation.numbers.NegatesTruth ∧
      Function.Injective CountingInterpretation.numbers.total ∧
      (Compiler.new .persons .standard).environment.lower ⟨"Person", [.all .isNamedForty]⟩ = .ok all ∧
      (Compiler.new .persons .standard).environment.lower ⟨"Person", [.count (some .isNamedForty)]⟩ =
        .ok counted ∧
      (Compiler.new .persons .standard).environment.lower ⟨"Person", [.count none]⟩ = .ok total ∧
      all.results .numbers twoPersons = [.value v] ∧
      ¬(CountingInterpretation.numbers.truth v = some true ↔
        counted.results .numbers twoPersons = total.results .numbers twoPersons) := by
  obtain ⟨q, hchain, hcheck⟩ : ∃ q,
      (Compiler.new .persons .standard).environment.lowerDraft ⟨"Person", []⟩ = .ok q ∧
      (decide (q.cardinality = .sequence) &&
        ((Compiler.new .persons .standard).environment.predicate q.opened .isNamedForty).toOption.any fun s =>
          let rows := q.opened.draft.kept .numbers twoPersons
          let truth := fun ρ => Interpretation.numbers.truth (s.eval .numbers twoPersons ρ)
          decide (rows.countP (truth · = some true) = 1 ∧ rows.countP (truth · = some false) = 0 ∧
            rows.length = 2)) = true := exists_of_any (by decide +kernel)
  obtain ⟨hlist, hcheck⟩ := Bool.and_eq_true_iff.1 hcheck
  have hlist := of_decide_eq_true hlist
  obtain ⟨s, hs, hcheck⟩ := exists_of_any hcheck
  obtain ⟨htrue, hfalse, hlength⟩ := of_decide_eq_true hcheck
  obtain ⟨qall, v, hall, hvalue, htruth⟩ :=
    Environment.all_yields CountingInterpretation.numbers_negatesTruth hs twoPersons
  obtain ⟨qcount, hcount, hcounted⟩ := Environment.count_yields .numbers hs twoPersons
  obtain ⟨qtotal, hlast, htotals⟩ := Environment.total_yields .numbers _ q twoPersons
  refine ⟨q, s, qall.finish, qcount.finish, qtotal.finish, v, hchain, hs,
    CountingInterpretation.numbers_negatesTruth, CountingInterpretation.numbers_total_injective,
    Environment.lower_andThen hchain hlist hall, Environment.lower_andThen hchain hlist hcount,
    Environment.lower_andThen hchain hlist hlast, hvalue, ?_⟩
  have htruth : CountingInterpretation.numbers.truth v = some true := by
    rw [htruth, ShapedDraft.rowsWith_kept]
    exact congrArg some (decide_eq_true hfalse)
  have hdiffer : qcount.finish.results .numbers twoPersons ≠ qtotal.finish.results .numbers twoPersons := by
    rw [hcounted, htotals, ShapedDraft.rowsWith_kept, ShapedDraft.length_places_kept]
    intro heq
    have htotals := CountingInterpretation.numbers_total_injective (Datum.value.inj (List.cons.inj heq).1)
    exact absurd (htrue.symm.trans (htotals.trans hlength)) (by decide)
  exact fun h => hdiffer (h.1 htruth)

end Runs

end QueryPipeline
