import ScopedAccess.Filter.Compiled
import ScopedAccess.Proofs.Filter.Scoping
import ScopedAccess.Proofs.Filter.Spelling
import ScopedAccess.Proofs.Sql.Binding
/-!
# The text of predicates is read back

Written conditions are not ambiguous: the reader gets the whole text of a predicate, gives each
place its value and comes to a predicate of the same truth. It need not be the same predicate.
Connectives of one part leave no trace in the text, a range that leaves out a bound is written as
two comparisons, and the filter of a subquery that every row passes is not written (`Agree`).

Every predicate is written as something that is read as a part, next to whatever comes behind
(`ReadsPart`). Parts with a connective between them are read as a condition, as long as no further
connective follows (`ReadsCondition`), and in parentheses they are a part again. There is one lemma
for each kind of predicate.

* `texts_read_back`: the texts of predicates and of compiled filters are read back (`ReadsBack`).
-/

namespace ScopedAccess

set_option autoImplicit false

/-! ## The values of predicates -/

namespace Predicate

theorem sqls_eq_map (ps : List Predicate) : sqls ps = ps.map sql := by
  induction ps with
  | nil => rfl
  | cons p rest ih => rw [sqls, ih, List.map_cons]

theorem paramsList_eq_flatMap (ps : List Predicate) : paramsList ps = ps.flatMap params := by
  induction ps with
  | nil => rfl
  | cons p rest ih => rw [paramsList, ih, List.flatMap_cons]

theorem params_conj (ps : List Predicate) : (conj ps).params = ps.flatMap params := by
  unfold conj
  split
  · simp
  · rw [params, paramsList_eq_flatMap]

theorem params_disj (ps : List Predicate) : (disj ps).params = ps.flatMap params := by
  unfold disj
  split
  · simp
  · rw [params, paramsList_eq_flatMap]

theorem params_of_isTrivial {p : Predicate} (trivial : p.isTrivial = true) : p.params = [] := by
  rw [params_eq, slots_of_isTrivial trivial]
  rfl

/-- A filter that is not written has no values. -/
theorem params_subquery (c : Column) (s : Selection) (p : Predicate) :
    (subquery c s p).params = p.params := by
  rw [params]
  split
  · rename_i trivial
    exact (params_of_isTrivial trivial).symm
  · rfl

end Predicate

namespace Reader

/-- Two predicates have the same values in the same order, and the same truth everywhere. -/
structure Agree (p q : Predicate) : Prop where
  params : p.params = q.params
  evaluate : ∀ (db : Database) (view : List BoundRow), p.evaluate db view = q.evaluate db view

namespace Agree

variable {p q r : Predicate} {ps : List Predicate} {made : Predicate → Predicate}

theorem refl (p : Predicate) : Agree p p := ⟨rfl, fun _ _ => rfl⟩

theorem trans (first : Agree p q) (second : Agree q r) : Agree p r :=
  ⟨first.params.trans second.params,
    fun db view => (first.evaluate db view).trans (second.evaluate db view)⟩

theorem flatMap_params (each : ∀ p ∈ ps, Agree (made p) p) :
    (ps.map made).flatMap Predicate.params = ps.flatMap Predicate.params := by
  rw [List.flatMap_map]
  exact List.flatMap_congr fun p member => (each p member).params

theorem map_evaluate (each : ∀ p ∈ ps, Agree (made p) p) (db : Database) (view : List BoundRow) :
    (ps.map made).map (Predicate.evaluate db view) = ps.map (Predicate.evaluate db view) := by
  rw [List.map_map]
  exact List.map_congr_left fun p member => (each p member).evaluate db view

theorem conj (each : ∀ p ∈ ps, Agree (made p) p) : Agree (.conj (ps.map made)) (.conj ps) where
  params := by rw [Predicate.params_conj, Predicate.params_conj, flatMap_params each]
  evaluate db view := by
    rw [Predicate.evaluate_conj, Predicate.evaluate_conj, map_evaluate each]

theorem disj (each : ∀ p ∈ ps, Agree (made p) p) : Agree (.disj (ps.map made)) (.disj ps) where
  params := by rw [Predicate.params_disj, Predicate.params_disj, flatMap_params each]
  evaluate db view := by
    rw [Predicate.evaluate_disj, Predicate.evaluate_disj, map_evaluate each]

theorem conj_all (ps : List Predicate) : Agree (.conj ps) (.all ps) where
  params := by rw [Predicate.params_conj, Predicate.params, Predicate.paramsList_eq_flatMap]
  evaluate db view := by
    rw [Predicate.evaluate_conj, Predicate.evaluate, Predicate.evaluateEach_eq_map]

theorem disj_any (ps : List Predicate) : Agree (.disj ps) (.any ps) where
  params := by rw [Predicate.params_disj, Predicate.params, Predicate.paramsList_eq_flatMap]
  evaluate db view := by
    rw [Predicate.evaluate_disj, Predicate.evaluate, Predicate.evaluateEach_eq_map]

theorem subquery {c : Column} {s : Selection} (agree : Agree p q) :
    Agree (.subquery c s p) (.subquery c s q) where
  params := by rw [Predicate.params_subquery, Predicate.params_subquery, agree.params]
  evaluate db view := by
    rw [Predicate.evaluate, Predicate.evaluate]
    simp only [agree.evaluate db]

theorem of_isTrivial (trivial : p.isTrivial = true) : Agree (.const true) p where
  params := (Predicate.params_of_isTrivial trivial).symm
  evaluate db view := by
    rw [Predicate.evaluate_of_isTrivial trivial]
    rfl

end Agree

/-! ## Chains -/

section Chains

variable {α : Type} {between : String} {item? : Reading} {tokens : α → List Token}
  {made : α → Predicate} {before : List Token → Prop} {rest : List Token} {a : α} {l : List α}

theorem expect?_word (w : String) (rest : List Token) : expect? w (.word w :: rest) = some rest :=
  if_pos rfl

theorem items?_single {ts : List Token} {p : Predicate} (read : item? ts = some (p, rest))
    (finished : expect? between rest = none) : items? between item? ts = some ([p], rest) := by
  simp [items?, chain?, read, finished]

theorem chain?_intercalate (goesOn : ∀ more, before (.word between :: more))
    (stops : before rest) (finished : expect? between rest = none) :
    ∀ {l : List α} {n : Nat}, l ≠ [] → l.length ≤ n →
      (∀ a ∈ l, ∀ more, before more → item? (tokens a ++ more) = some (made a, more)) →
      chain? between item? n ([.word between].intercalate (l.map tokens) ++ rest) =
        some (l.map made, rest)
  | [a], n + 1, _, _, each => by
      have read := each a (.head _) rest stops
      simp [chain?, read, finished]
  | a :: b :: l, n + 1, _, enough, each => by
      obtain ⟨first, others⟩ := List.forall_mem_cons.mp each
      have tail := chain?_intercalate goesOn stops finished (List.cons_ne_nil b l)
        (Nat.le_of_succ_le_succ enough) others
      have head := first _ (goesOn ([.word between].intercalate ((b :: l).map tokens) ++ rest))
      simp only [List.map_cons, List.intercalate_cons_cons, List.append_assoc,
        List.singleton_append] at head tail ⊢
      simp [chain?, head, expect?_word, tail]

theorem length_le_intercalate {word : Token} (member : a ∈ l) :
    (tokens a).length ≤ ([word].intercalate (l.map tokens)).length := by
  induction l with
  | nil => cases member
  | cons b l ih =>
      cases l with
      | nil =>
          obtain rfl := List.mem_singleton.mp member
          simp
      | cons c l =>
          simp only [List.map_cons, List.intercalate_cons_cons, List.length_append] at ih ⊢
          rcases List.mem_cons.mp member with rfl | member
          · omega
          · have := ih member
            omega

theorem length_le_length_intercalate (word : Token) (tokens : α → List Token) (l : List α) :
    l.length ≤ ([word].intercalate (l.map tokens)).length + 1 := by
  induction l with
  | nil => simp
  | cons b l ih =>
      cases l with
      | nil => simp
      | cons c l =>
          simp only [List.map_cons, List.intercalate_cons_cons, List.length_append,
            List.length_cons, List.length_nil] at ih ⊢
          omega

/-- Items are read to the last of them, if each of them is read before the word between them and
the last before what follows. -/
theorem items?_intercalate (goesOn : ∀ more, before (.word between :: more))
    (stops : before rest) (finished : expect? between rest = none) (filled : l ≠ [])
    (each : ∀ a ∈ l, ∀ more, before more → item? (tokens a ++ more) = some (made a, more)) :
    items? between item? ([.word between].intercalate (l.map tokens) ++ rest) =
      some (l.map made, rest) := by
  have enough := length_le_length_intercalate (.word between) tokens l
  refine chain?_intercalate goesOn stops finished filled ?_ each
  rw [List.length_append]
  omega

end Chains

/-! ## What a text tells -/

/-- Tokens are read as a part of a condition, whatever follows, at every depth they can have. -/
def ReadsPart (tokens : List Token) (p : Predicate) : Prop :=
  ∀ depth rest, tokens.length ≤ depth →
    part? (condition? depth) (tokens ++ rest) = some (p, rest)

/-- Tokens are read as a condition, where no connective follows. -/
def ReadsCondition (tokens : List Token) (p : Predicate) : Prop :=
  ∀ depth rest, tokens.length < depth → expect? "AND" rest = none → expect? "OR" rest = none →
    condition? depth (tokens ++ rest) = some (p, rest)

/-- A text with values is spelled by tokens that are read as a predicate, or one that agrees. -/
def Tells (reads : List Token → Predicate → Prop) (text : List Char) (values : List Json)
    (p : Predicate) : Prop :=
  ∃ tokens q, Spells text values tokens ∧ reads tokens q ∧ Agree q p

/-- The text of a predicate is a part that tells the predicate. -/
def IsTold (p : Predicate) : Prop := Tells ReadsPart p.sql.toList p.params p

section Connectives

variable {reads : List Token → Predicate → Prop} {text : List Char} {values : List Json}
  {p q : Predicate} {ps : List Predicate}

theorem Tells.congr (tells : Tells reads text values p) (agree : Agree p q) :
    Tells reads text values q := by
  obtain ⟨tokens, r, spells, read, means⟩ := tells
  exact ⟨tokens, r, spells, read, means.trans agree⟩

/-- Parts with `AND` between them are read as their conjunction. -/
theorem tells_conj (filled : ps ≠ []) (each : ∀ p ∈ ps, IsTold p) :
    Tells ReadsCondition (" AND ".toList.intercalate (ps.map fun p => p.sql.toList))
      (ps.flatMap Predicate.params) (.conj ps) := by
  choose! tokens made spells reads agree using each
  have cut : Spells " AND ".toList [] [.word "AND"] := ⟨rfl, rfl⟩
  refine ⟨[.word "AND"].intercalate (ps.map tokens), .conj (ps.map made),
    cut.intercalate rfl (fun _ => rfl) spells, ?_, .conj agree⟩
  intro depth rest deep noAnd noOr
  cases depth with
  | zero => cases deep
  | succ depth =>
      have parts : ∀ p ∈ ps, ∀ more, True →
          part? (condition? depth) (tokens p ++ more) = some (made p, more) :=
        fun p member more _ => reads p member depth more
          (Nat.le_trans (length_le_intercalate member) (Nat.le_of_lt_succ deep))
      have conjunction : conjunction? (condition? depth)
          ([.word "AND"].intercalate (ps.map tokens) ++ rest) =
            some (.conj (ps.map made), rest) := by
        rw [conjunction?, items?_intercalate (fun _ => trivial) trivial noAnd filled parts]
        rfl
      rw [condition?, items?_single conjunction noOr]
      rfl

/-- Parts with `OR` between them are read as their disjunction. -/
theorem tells_disj (filled : ps ≠ []) (each : ∀ p ∈ ps, IsTold p) :
    Tells ReadsCondition (" OR ".toList.intercalate (ps.map fun p => p.sql.toList))
      (ps.flatMap Predicate.params) (.disj ps) := by
  choose! tokens made spells reads agree using each
  have cut : Spells " OR ".toList [] [.word "OR"] := ⟨rfl, rfl⟩
  refine ⟨[.word "OR"].intercalate (ps.map tokens), .disj (ps.map made),
    cut.intercalate rfl (fun _ => rfl) spells, ?_, .disj agree⟩
  intro depth rest deep noAnd noOr
  cases depth with
  | zero => cases deep
  | succ depth =>
      -- Each of the parts is a conjunction of its own, so no `AND` may follow it.
      have parts : ∀ p ∈ ps, ∀ more, expect? "AND" more = none →
          conjunction? (condition? depth) (tokens p ++ more) = some (made p, more) := by
        intro p member more noAnd
        have read := reads p member depth more
          (Nat.le_trans (length_le_intercalate member) (Nat.le_of_lt_succ deep))
        rw [conjunction?, items?_single read noAnd]
        rfl
      rw [condition?, items?_intercalate (fun _ => rfl) noAnd noOr filled parts]
      rfl

/-- A condition in parentheses is a part. -/
theorem Tells.parentheses (tells : Tells ReadsCondition text values p) :
    Tells ReadsPart ("(".toList ++ (text ++ ")".toList)) values p := by
  obtain ⟨ts, q, spells, reads, agree⟩ := tells
  have opening : Spells "(".toList [] [.word "("] := ⟨rfl, rfl⟩
  have closing : Spells ")".toList [] [.word ")"] := ⟨rfl, rfl⟩
  have inside := opening.append (spells.append closing (.inr rfl)) (.inl rfl)
  rw [List.append_nil] at inside
  refine ⟨_, q, inside, ?_, agree⟩
  intro depth rest deep
  have room : ts.length < depth := by
    simp only [List.length_append, List.length_cons, List.length_nil] at deep
    omega
  have nested := reads depth (.word ")" :: rest) room rfl rfl
  simp [part?, nested, expect?_word]

theorem isTold_const (b : Bool) : IsTold (.const b) := by
  cases b with
  | false =>
      exact ⟨[.word "1", .word "=", .word "0"], _, ⟨rfl, rfl⟩, fun _ _ _ => rfl, .refl _⟩
  | true =>
      exact ⟨[.word "1", .word "=", .word "1"], _, ⟨rfl, rfl⟩, fun _ _ _ => rfl, .refl _⟩

/-- What is joined by a connective is a part: a constant if there is nothing, one part as it is,
and several in parentheses. -/
theorem tells_joined (b : Bool) {connective : String} (each : ∀ q ∈ ps, IsTold q)
    (none : ps = [] → Agree (.const b) p) (one : ∀ q, ps = [q] → Agree q p)
    (several : ps ≠ [] → Tells ReadsCondition
      (connective.toList.intercalate (ps.map fun q => q.sql.toList))
      (ps.flatMap Predicate.params) p) :
    Tells ReadsPart
      (Predicate.joined connective (Predicate.const b).sql (Predicate.sqls ps)).toList
      (Predicate.paramsList ps) p := by
  rw [Predicate.sqls_eq_map, Predicate.paramsList_eq_flatMap]
  match ps with
  | [] => exact (isTold_const b).congr (none rfl)
  | [q] => simpa [Predicate.joined] using (each q (.head _)).congr (one q rfl)
  | q :: r :: rest =>
      have tells := (several (List.cons_ne_nil _ _)).parentheses
      simpa [Predicate.joined, String.toList_append, String.toList_intercalate,
        Function.comp_def] using tells

theorem isTold_all (each : ∀ p ∈ ps, IsTold p) : IsTold (.all ps) := by
  rw [IsTold, Predicate.sql, Predicate.params]
  refine tells_joined true each ?_ ?_ fun filled => (tells_conj filled each).congr (.conj_all ps)
  · rintro rfl
    exact ⟨rfl, fun _ _ => rfl⟩
  · rintro q rfl
    exact .conj_all [q]

theorem isTold_any (each : ∀ p ∈ ps, IsTold p) : IsTold (.any ps) := by
  rw [IsTold, Predicate.sql, Predicate.params]
  refine tells_joined false each ?_ ?_ fun filled => (tells_disj filled each).congr (.disj_any ps)
  · rintro rfl
    exact ⟨rfl, fun _ _ => rfl⟩
  · rintro q rfl
    exact .disj_any [q]

end Connectives

/-! ## Tests of columns -/

/-- The label and the name of a column are identifiers. -/
structure IsPlain (c : Column) : Prop where
  label : IsIdentifier c.label
  name : IsIdentifier c.name

section Tests

variable {c : Column} {p q : Predicate} {values : List Json} {tail : List Char} {ts : List Token}

theorem part?_column {nested : Reading} (plain : IsPlain c) (rest : List Token) :
    part? nested (.word c.label :: .word "." :: .word c.name :: rest) = test? nested c rest := by
  -- The label would be taken for a parenthesis otherwise; `part?` looks for that first.
  have other : c.label ≠ "(" := by
    intro same
    exact absurd (plain.label.2 '(' (by rw [same]; decide)) (by decide)
  simp [part?]

/-- A test is spelled behind its column. -/
theorem tells_test (plain : IsPlain c) (starts : StartsLoose tail) (spells : Spells tail values ts)
    (reads : ∀ depth rest, ts.length ≤ depth →
      test? (condition? depth) c (ts ++ rest) = some (q, rest))
    (agree : Agree q p) : Tells ReadsPart (c.sql.toList ++ tail) values p := by
  refine ⟨_, q, spells.column plain.label plain.name starts, ?_, agree⟩
  intro depth rest deep
  rw [List.cons_append, List.cons_append, List.cons_append, part?_column plain]
  refine reads depth rest ?_
  simp only [List.length_cons] at deep
  omega

theorem isTold_compare (plain : IsPlain c) (op : Comparison) (v : Json) :
    IsTold (.compare c op v) := by
  have spelled : Spells (" ".toList ++ (op.sql.toList ++ " ?".toList)) [v]
      [.word op.sql, .value v] := by
    cases op <;> exact ⟨rfl, rfl⟩
  have read : ∀ depth rest, test? (condition? depth) c ([.word op.sql, .value v] ++ rest) =
      some (.compare c op v, rest) := by
    intro depth rest
    cases op <;> rfl
  rw [IsTold, Predicate.sql, String.toList_append, String.toList_append, String.toList_append,
    List.append_assoc, List.append_assoc]
  exact tells_test plain rfl spelled (fun depth rest _ => read depth rest) (.refl _)

theorem isTold_null (plain : IsPlain c) (negated : Bool) : IsTold (.null c negated) := by
  rw [IsTold, Predicate.sql, String.toList_append]
  cases negated with
  | false =>
      have spelled : Spells " IS NULL".toList [] [.word "IS", .word "NULL"] := ⟨rfl, rfl⟩
      exact tells_test plain rfl spelled (fun _ _ _ => rfl) (.refl _)
  | true =>
      have spelled : Spells " IS NOT NULL".toList [] [.word "IS", .word "NOT", .word "NULL"] :=
        ⟨rfl, rfl⟩
      exact tells_test plain rfl spelled (fun _ _ _ => rfl) (.refl _)

theorem isTold_like (plain : IsPlain c) (pattern : String) : IsTold (.like c pattern) := by
  have spelled : Spells " LIKE ? ESCAPE '\\'".toList [.str pattern]
      [.word "LIKE", .value (.str pattern), .word "ESCAPE", .word "'\\'"] := ⟨rfl, rfl⟩
  rw [IsTold, Predicate.sql, String.toList_append]
  exact tells_test plain rfl spelled (fun _ _ _ => rfl) (.refl _)

/-- A range that leaves out a bound is written as two comparisons. -/
theorem isTold_between (plain : IsPlain c) (lower upper : Bound) :
    IsTold (.between c lower upper) := by
  rw [IsTold]
  by_cases inclusive : (lower.inclusive && upper.inclusive) = true
  · rw [Predicate.sql, if_pos inclusive, String.toList_append]
    rw [Bool.and_eq_true] at inclusive
    have spelled : Spells " BETWEEN ? AND ?".toList [lower.value, upper.value]
        [.word "BETWEEN", .value lower.value, .word "AND", .value upper.value] := ⟨rfl, rfl⟩
    have agree : Agree (.between c ⟨lower.value, true⟩ ⟨upper.value, true⟩)
        (.between c lower upper) := by
      refine ⟨rfl, fun db view => ?_⟩
      rw [Predicate.evaluate, Predicate.evaluate, Bound.lowerComparison, Bound.lowerComparison,
        Bound.upperComparison, Bound.upperComparison, inclusive.1, inclusive.2]
    exact tells_test plain rfl spelled (fun _ _ _ => rfl) agree
  · let bounds : List Predicate :=
      [.compare c lower.lowerComparison lower.value, .compare c upper.upperComparison upper.value]
    have written : (Predicate.between c lower upper).sql = (Predicate.all bounds).sql := by
      rw [Predicate.sql, if_neg inclusive, ← String.toList_inj]
      simp [bounds, Predicate.sql, Predicate.sqls, Predicate.joined, String.toList_append]
    have each : ∀ p ∈ bounds, IsTold p := by
      intro p member
      rcases List.mem_pair.mp member with rfl | rfl <;> exact isTold_compare plain _ _
    have agree : Agree (.all bounds) (.between c lower upper) := by
      refine ⟨rfl, fun db view => ?_⟩
      simp [bounds, Predicate.evaluate, Predicate.evaluateEach]
    rw [written]
    exact (isTold_all each).congr agree

/-! ### Lists of values -/

theorem someValues?_intercalate (rest : List Token) : ∀ (v : Json) (vs : List Json),
    someValues? ([.word ","].intercalate ((v :: vs).map fun v => [.value v]) ++
      .word ")" :: rest) = some (v :: vs, rest)
  | v, [] => rfl
  | v, w :: vs => by
      have others := someValues?_intercalate rest w vs
      rw [List.map_cons] at others
      rw [List.map_cons, List.map_cons, List.intercalate_cons_cons, List.append_assoc,
        List.singleton_append, List.cons_append, List.cons_append, someValues?, List.nil_append,
        others]
      rfl

/-- Values with commas between them are read up to the end of their list. -/
theorem values?_intercalate (vs : List Json) (rest : List Token) :
    values? ([.word ","].intercalate (vs.map fun v => [.value v]) ++ .word ")" :: rest) =
      some (vs, rest) := by
  cases vs with
  | nil => rfl
  | cons v vs =>
      rw [← someValues?_intercalate rest v vs]
      cases vs <;> rfl

/-- A list of values is not taken for a subquery. -/
theorem test?_in {nested : Reading} {rest : List Token} {vs : List Json}
    (read : values? ts = some (vs, rest)) :
    test? nested c (.word "IN" :: .word "(" :: ts) = some (.among c vs false, rest) := by
  have other : ∀ more, ts ≠ .word "SELECT" :: more := by
    rintro more rfl
    cases read
  simp [test?, read]

theorem isTold_among (plain : IsPlain c) (vs : List Json) (negated : Bool) :
    IsTold (.among c vs negated) := by
  have comma : Spells ", ".toList [] [.word ","] := ⟨rfl, rfl⟩
  have closing : Spells ")".toList [] [.word ")"] := ⟨rfl, rfl⟩
  have places : Spells (", ".toList.intercalate (vs.map fun _ => "?".toList)) vs
      ([.word ","].intercalate (vs.map fun v => [.value v])) := by
    have each : ∀ v ∈ vs, Spells "?".toList [v] [.value v] := fun v _ => ⟨rfl, rfl⟩
    simpa using comma.intercalate rfl (fun _ => rfl) each
  have list := places.append closing (.inr rfl)
  rw [List.append_nil] at list
  have written : (Predicate.among c vs negated).sql.toList = c.sql.toList ++
      ((if negated then " NOT IN (" else " IN (").toList ++
        (", ".toList.intercalate (vs.map fun _ => "?".toList) ++ ")".toList)) := by
    simp [Predicate.sql, String.toList_append, String.toList_intercalate]
  rw [IsTold, written]
  cases negated with
  | false =>
      have opening : Spells " IN (".toList [] [.word "IN", .word "("] := ⟨rfl, rfl⟩
      refine tells_test plain rfl (opening.append list (.inl rfl)) ?_ (.refl _)
      intro depth rest _
      simpa using test?_in (values?_intercalate vs rest)
  | true =>
      have opening : Spells " NOT IN (".toList [] [.word "NOT", .word "IN", .word "("] :=
        ⟨rfl, rfl⟩
      refine tells_test plain rfl (opening.append list (.inl rfl)) ?_ (.refl _)
      intro depth rest _
      simp [test?, values?_intercalate vs rest]

/-! ### Subqueries -/

variable {s : Selection}

/-- A subquery is spelled behind its column: the column that it selects, its table with the alias,
and then its filter. -/
theorem tells_selection (plain : IsPlain c) (table : IsIdentifier s.table)
    (label : IsIdentifier s.label) (column : IsIdentifier s.column)
    (starts : StartsLoose tail) (spells : Spells tail values ts)
    (reads : ∀ depth rest, ts.length ≤ depth →
      subquery? (condition? depth) c (.word s.label :: .word "." :: .word s.column ::
        .word "FROM" :: .word s.table :: .word s.label :: (ts ++ rest)) = some (q, rest))
    (agree : Agree q p) :
    Tells ReadsPart (c.sql.toList ++ (" IN (SELECT ".toList ++ (s.label.toList ++ (".".toList ++
      (s.column.toList ++ (" FROM ".toList ++ (s.table.toList ++ (" ".toList ++
        (s.label.toList ++ tail))))))))) values p := by
  have opening : Spells " IN (SELECT ".toList [] [.word "IN", .word "(", .word "SELECT"] :=
    ⟨rfl, rfl⟩
  have dot : Spells ".".toList [] [.word "."] := ⟨rfl, rfl⟩
  have source : Spells " FROM ".toList [] [.word "FROM"] := ⟨rfl, rfl⟩
  have gap : Spells " ".toList [] [] := ⟨rfl, rfl⟩
  have origin := (Spells.identifier table).append
    (gap.append ((Spells.identifier label).append spells (.inr starts)) (.inl rfl)) (.inr rfl)
  have selected := (Spells.identifier label).append
    (dot.append ((Spells.identifier column).append (source.append origin (.inl rfl)) (.inr rfl))
      (.inl rfl)) (.inr rfl)
  refine tells_test plain rfl (opening.append selected (.inl rfl)) ?_ agree
  intro depth rest deep
  have room : ts.length ≤ depth := by
    simp only [List.length_append, List.length_cons, List.length_nil] at deep
    omega
  exact reads depth rest room

theorem isTold_subquery {filter : Predicate} (plain : IsPlain c) (table : IsIdentifier s.table)
    (label : IsIdentifier s.label) (column : IsIdentifier s.column)
    (inner : Tells ReadsCondition filter.sql.toList filter.params filter) :
    IsTold (.subquery c s filter) := by
  have closing : Spells ")".toList [] [.word ")"] := ⟨rfl, rfl⟩
  rw [IsTold, Predicate.params_subquery]
  simp only [Predicate.sql, String.toList_append, List.append_assoc]
  by_cases trivial : filter.isTrivial = true
  · have agree : Agree (.const true) filter := .of_isTrivial trivial
    rw [if_pos trivial, ← agree.params]
    refine tells_selection plain table label column rfl closing ?_ agree.subquery
    intro depth rest _
    simp [subquery?]
  · rw [if_neg trivial, String.toList_append, List.append_assoc]
    obtain ⟨ts, q, spells, reads, agree⟩ := inner
    have opening : Spells " WHERE ".toList [] [.word "WHERE"] := ⟨rfl, rfl⟩
    have filtered := opening.append (spells.append closing (.inr rfl)) (.inl rfl)
    rw [List.append_nil] at filtered
    refine tells_selection plain table label column rfl filtered ?_ agree.subquery
    intro depth rest deep
    have room : ts.length < depth := by
      simp only [List.length_append, List.length_cons, List.length_nil] at deep
      omega
    have nested := reads depth (.word ")" :: rest) room rfl rfl
    simp [subquery?, nested, expect?_word]

end Tests

/-! ## Predicates -/

theorem isPlain_of_identifiers {c : Column}
    (plain : ∀ name ∈ [c.label, c.name], IsIdentifier name) : IsPlain c :=
  ⟨plain _ (.head _), plain _ (.tail _ (.head _))⟩

mutual

/-- The text of a predicate whose names are identifiers tells the predicate. -/
theorem isTold : ∀ p : Predicate, (∀ name ∈ p.identifiers, IsIdentifier name) → IsTold p
  | .compare _ op v, plain => isTold_compare (isPlain_of_identifiers plain) op v
  | .among _ vs negated, plain => isTold_among (isPlain_of_identifiers plain) vs negated
  | .null _ negated, plain => isTold_null (isPlain_of_identifiers plain) negated
  | .like _ pattern, plain => isTold_like (isPlain_of_identifiers plain) pattern
  | .between _ lower upper, plain => isTold_between (isPlain_of_identifiers plain) lower upper
  | .subquery c s filter, plain => by
      simp only [Predicate.identifiers, List.forall_mem_cons] at plain
      obtain ⟨ofColumn, named, table, label, column, inside⟩ := plain
      have alone : ∀ p ∈ [filter], IsTold p := List.forall_mem_singleton.mpr (isTold filter inside)
      have inner := tells_conj (List.cons_ne_nil _ _) alone
      exact isTold_subquery ⟨ofColumn, named⟩ table label column
        (by simpa [Predicate.conj] using inner)
  | .all ps, plain => isTold_all (isTold_each ps plain)
  | .any ps, plain => isTold_any (isTold_each ps plain)
  | .const b, _ => isTold_const b

theorem isTold_each : ∀ ps : List Predicate,
    (∀ name ∈ Predicate.identifiersOf ps, IsIdentifier name) → ∀ p ∈ ps, IsTold p
  | [], _ => fun _ member => absurd member List.not_mem_nil
  | p :: rest, plain => by
      rw [Predicate.identifiersOf, List.forall_mem_append] at plain
      exact List.forall_mem_cons.mpr ⟨isTold p plain.1, isTold_each rest plain.2⟩

end

/-! ## Whole texts -/

/-- A text has as many places as there are values. With these it is read, to its end, as a condition
that has the values in this order and the truth of a predicate. -/
def ReadsBack (text : String) (values : List Json) (p : Predicate) : Prop :=
  text.toList.count '?' = values.length ∧
    ∃ q, read? text values = some q ∧ q.params = values ∧
      ∀ (db : Database) (view : List BoundRow), q.evaluate db view = p.evaluate db view

theorem Tells.readsBack {text : String} {values : List Json} {p : Predicate}
    (tells : Tells ReadsCondition text.toList values p) (same : p.params = values) :
    ReadsBack text values p := by
  obtain ⟨tokens, q, spells, reads, agree⟩ := tells
  refine ⟨spells.places, q, ?_, agree.params.trans same, agree.evaluate⟩
  have read := reads (tokens.length + 1) [] (Nat.lt_succ_self _) rfl rfl
  rw [List.append_nil] at read
  have filled : tokens ≠ [] := by
    rintro rfl
    cases read
  simp [read?, spells.bound, filled, read]

/-- The text of a filter is read back; blank text is what is always true. -/
theorem readsBack_filter {f : CompiledFilter}
    (plain : ∀ p ∈ f.parts, ∀ name ∈ p.identifiers, IsIdentifier name) :
    ReadsBack f.sql f.params f.predicate := by
  by_cases blank : f.parts = []
  · rw [CompiledFilter.sql, CompiledFilter.params, CompiledFilter.predicate, blank]
    exact ⟨rfl, .const true, rfl, rfl, fun _ _ => rfl⟩
  · refine Tells.readsBack ?_ (Predicate.params_conj f.parts)
    have condition := tells_conj blank fun p member => isTold p (plain p member)
    rwa [CompiledFilter.sql, String.toList_intercalate, List.map_map]

end Reader

/-- The text of a predicate whose names are identifiers is read back with its values. So is the
text of a filter of such parts, as the predicate that the filter is. -/
theorem texts_read_back :
    (∀ p : Predicate, (∀ name ∈ p.identifiers, Reader.IsIdentifier name) →
      Reader.ReadsBack p.sql p.params p) ∧
    ∀ f : CompiledFilter, (∀ p ∈ f.parts, ∀ name ∈ p.identifiers, Reader.IsIdentifier name) →
      Reader.ReadsBack f.sql f.params f.predicate := by
  refine ⟨fun p plain => ?_, fun f plain => Reader.readsBack_filter plain⟩
  -- A predicate is the filter with this one part.
  let alone : CompiledFilter := ⟨[p], []⟩
  have read : Reader.ReadsBack alone.sql alone.params p :=
    Reader.readsBack_filter (List.forall_mem_singleton.mpr plain)
  have text : alone.sql = p.sql := by simp [alone, CompiledFilter.sql, CompiledFilter.parts]
  have values : alone.params = p.params := by
    simp [alone, CompiledFilter.params, CompiledFilter.parts]
  rwa [text, values] at read

/-- A comparison and, apart from it, a disjunction. Names are taken from the language itself. -/
def twoWays : CompiledFilter :=
  ⟨[.compare ⟨"t", "or"⟩ .eq (.str "o")],
    [.any [.compare ⟨"t", "OR"⟩ .lt (.int 3),
      .subquery ⟨"t", "in"⟩ ⟨"select", "t_1", "IN"⟩ (.like ⟨"t_1", "WHERE"⟩ "a%")]]⟩

/-- The disjunction stays apart from what stands before it. -/
theorem two_ways_read_back :
    (∀ p ∈ twoWays.parts, ∀ name ∈ p.identifiers, Reader.IsIdentifier name) ∧
    twoWays.sql = "t.or = ? AND (t.OR < ? OR t.in IN (SELECT t_1.IN FROM select t_1 " ++
      "WHERE t_1.WHERE LIKE ? ESCAPE '\\'))" ∧
    twoWays.params = [.str "o", .int 3, .str "a%"] ∧
    Reader.ReadsBack twoWays.sql twoWays.params twoWays.predicate := by
  have named : (twoWays.parts.flatMap Predicate.identifiers).all (fun name =>
      name.toList ≠ [] && name.toList.all fun c => Reader.kind? c = some .name) = true := rfl
  have plain : ∀ p ∈ twoWays.parts, ∀ name ∈ p.identifiers, Reader.IsIdentifier name := by
    intro p member name inside
    have checked := List.all_eq_true.mp named name (List.mem_flatMap.mpr ⟨p, member, inside⟩)
    simpa [Reader.IsIdentifier] using checked
  exact ⟨plain, rfl, rfl, texts_read_back.2 twoWays plain⟩

end ScopedAccess
