import ScopedAccess.Filter.Compilation
import ScopedAccess.Filter.Meaning
import ScopedAccess.Proofs.Filter.Bounds
import ScopedAccess.Sql.Datum
/-!
# The truth of predicates by alias

A predicate refers to rows by the aliases of their tables. `Predicate.truth` reads it
where aliases stand for rows: a column is that of the row its alias stands for, and a
subquery lets its alias stand for the rows of its table one after the other. No table
has to have the columns that are asked for; which columns a table has is a matter of
the database that runs a statement.

The rest are the equations that later modules read predicates by: what conjunctions
and disjunctions pass, and that the predicates of a value given to a column pass
where the value of the column passes it (`ofValue_all`).
-/

namespace ScopedAccess

set_option autoImplicit false

/-- The rows that aliases stand for, the innermost first. -/
abbrev Bindings : Type := List (Name × Row)

/-- The value of a column in the row that its alias stands for. -/
def Bindings.value (rows : Bindings) (c : Column) : Datum :=
  ((rows.lookup (.of c.label)).map fun row => row c.name).getD .null

@[simp] theorem Bindings.value_cons (rows : Bindings) (label column : String) (row : Row) :
    Bindings.value ((.of label, row) :: rows) ⟨label, column⟩ = row column := by
  simp [Bindings.value]

namespace Predicate

mutual

/-- The truth value of a predicate whose aliases stand for rows. -/
def truth (db : Database) (rows : Bindings) : Predicate → Truth
  | .compare c op value => (rows.value c).test op (.ofJson value)
  | .among c values negated => ((rows.value c).isAmong (values.map .ofJson)).negateIf negated
  | .null c negated => .ofBool ((rows.value c = .null) != negated)
  | .like c pattern => (rows.value c).matchesPattern pattern
  | .between c lower upper =>
    ((rows.value c).test lower.lowerComparison (.ofJson lower.value)).and
      ((rows.value c).test upper.upperComparison (.ofJson upper.value))
  | .subquery c s filter =>
    (rows.value c).isAmong
      (((db.rows s.table).filter fun row =>
        (filter.truth db ((.of s.label, row) :: rows)).isYes).map fun row => row s.column)
  | .all parts => .all (truths db rows parts)
  | .any parts => .any (truths db rows parts)
  | .const b => .ofBool b

def truths (db : Database) (rows : Bindings) : List Predicate → List Truth
  | [] => []
  | p :: rest => p.truth db rows :: truths db rows rest

end

/-- Whether a predicate is true where aliases stand for rows. -/
def isTrueAt (db : Database) (rows : Bindings) (p : Predicate) : Bool := (p.truth db rows).isYes

theorem truths_eq_map (db : Database) (rows : Bindings) (ps : List Predicate) :
    truths db rows ps = ps.map (truth db rows) := by
  induction ps with
  | nil => rfl
  | cons p rest ih => rw [truths, ih, List.map_cons]

variable {db : Database} {rows : Bindings}

/-! ## Conjunctions and disjunctions -/

@[simp] theorem isTrueAt_all (ps : List Predicate) :
    isTrueAt db rows (.all ps) = ps.all (isTrueAt db rows) := by
  simp only [isTrueAt, truth, truths_eq_map, Truth.isYes_all, List.all_map]
  rfl

@[simp] theorem isTrueAt_any (ps : List Predicate) :
    isTrueAt db rows (.any ps) = ps.any (isTrueAt db rows) := by
  simp only [isTrueAt, truth, truths_eq_map, Truth.isYes_any, List.any_map]
  rfl

@[simp] theorem isTrueAt_const (b : Bool) : isTrueAt db rows (.const b) = b := by
  simp [isTrueAt, truth]

theorem isTrueAt_conj (ps : List Predicate) :
    isTrueAt db rows (conj ps) = ps.all (isTrueAt db rows) := by
  unfold conj
  split
  · simp
  · exact isTrueAt_all ps

theorem isTrueAt_disj (ps : List Predicate) :
    isTrueAt db rows (disj ps) = ps.any (isTrueAt db rows) := by
  unfold disj
  split
  · simp
  · exact isTrueAt_any ps

theorem splitsRanges_isTrueAt : SplitsRanges (isTrueAt db rows) := by
  intro c lower upper
  simp [isTrueAt, truth]

mutual

/-- A predicate that is trivial by its shape is true everywhere. -/
theorem isTrueAt_of_isTrivial : ∀ {p : Predicate}, p.isTrivial = true → isTrueAt db rows p = true
  | .const b, trivial => by simpa [isTrivial] using trivial
  | .all ps, trivial => by
      rw [isTrueAt_all]
      exact all_isTrueAt_of_areTrivial trivial

theorem all_isTrueAt_of_areTrivial : ∀ {ps : List Predicate},
    areTrivial ps = true → ps.all (isTrueAt db rows) = true
  | [], _ => rfl
  | p :: rest, trivial => by
      rw [areTrivial, Bool.and_eq_true] at trivial
      rw [List.all_cons, isTrueAt_of_isTrivial trivial.1, all_isTrueAt_of_areTrivial trivial.2]
      rfl

end

/-! ## Values given to a column -/

theorem isTrueAt_compare (c : Column) (op : Comparison) (value : Json) :
    isTrueAt db rows (.compare c op value) = ((rows.value c).test op (.ofJson value)).isYes := by
  rw [isTrueAt, truth]

theorem isTrueAt_among (c : Column) (values : List Json) (negated : Bool) :
    isTrueAt db rows (.among c values negated) =
      (((rows.value c).isAmong (values.map .ofJson)).negateIf negated).isYes := by
  rw [isTrueAt, truth]

theorem isTrueAt_null (c : Column) (negated : Bool) :
    isTrueAt db rows (.null c negated) = (decide (rows.value c = .null) != negated) := by
  simp [isTrueAt, truth]

theorem isTrueAt_like (c : Column) (pattern : String) :
    isTrueAt db rows (.like c pattern) = ((rows.value c).matchesPattern pattern).isYes := by
  rw [isTrueAt, truth]

@[simp] theorem isAmong_nil (d : Datum) : d.isAmong [] = .no := rfl

/-- An operator of another name says nothing. -/
theorem ofOperator_of_unknown {c : Column} {op : String} {operand : Json} (eq : op ≠ "$eq")
    (ne : op ≠ "$ne") (among : op ≠ "$in") (notAmong : op ≠ "$nin") (stored : op ≠ "$exists")
    (like : op ≠ "$regex") : ofOperator c op operand = [] := by
  unfold ofOperator
  split
  case h_15 => rfl
  all_goals contradiction

/-- The predicates of an operator pass where the value of the column passes it. -/
theorem ofOperator_all (c : Column) (op : String) (operand : Json) :
    (ofOperator c op operand).all (isTrueAt db rows) =
      (rows.value c).passesOperator op operand := by
  by_cases eq : op = "$eq"
  · subst eq
    cases operand <;>
      simp [ofOperator, Datum.passesOperator, Datum.isOperand, Datum.equals, equals,
        isTrueAt_compare, isTrueAt_null]
  by_cases ne : op = "$ne"
  · subst ne
    cases operand <;>
      simp [ofOperator, Datum.passesOperator, Datum.isNotOperand, equals, isTrueAt_compare,
        isTrueAt_null]
  by_cases among : op = "$in"
  · subst among
    have listed : (ofOperator c "$in" operand).all (isTrueAt db rows) =
        ((rows.value c).isListed operand).isYes := by
      unfold ofOperator
      split <;> simp_all [Datum.isListed, isTrueAt_among, Truth.negateIf, Truth.isYes]
    simpa [Datum.passesOperator] using listed
  by_cases notAmong : op = "$nin"
  · subst notAmong
    have listed : (ofOperator c "$nin" operand).all (isTrueAt db rows) =
        ((rows.value c).isListed operand).not.isYes := by
      unfold ofOperator
      split <;> simp_all [Datum.isListed, isTrueAt_among, Truth.negateIf, Truth.not, Truth.isYes]
    simpa [Datum.passesOperator] using listed
  by_cases stored : op = "$exists"
  · subst stored
    simp only [ofOperator, List.all_cons, List.all_nil, Bool.and_true, isTrueAt_null]
    simp only [Datum.passesOperator, String.reduceEq, if_false, if_true]
    cases operand.isTruthy <;> simp
  by_cases like : op = "$regex"
  · subst like
    cases operand <;>
      simp [ofOperator, Datum.passesOperator, Datum.matchesOperand, isTrueAt_like]
  rw [ofOperator_of_unknown eq ne among notAmong stored like]
  simp [Datum.passesOperator, eq, ne, among, notAmong, stored, like]

/-- The bounds of an object pass where the value of the column lies within both. -/
theorem ofBounds_all (c : Column) (ops : List (String × Json)) :
    (ofBounds c ops).all (isTrueAt db rows) =
      ((rows.value c).passesBound ops "$gt" "$gte" .gt .ge &&
        (rows.value c).passesBound ops "$lt" "$lte" .lt .le) := by
  unfold ofBounds boundOf? Datum.passesBound
  cases ops.lookup "$gte" <;> cases ops.lookup "$gt" <;> cases ops.lookup "$lte" <;>
    cases ops.lookup "$lt" <;>
    simp [splitsRanges_isTrueAt _ _ _, isTrueAt_compare, Bound.lowerComparison,
      Bound.upperComparison]

/-- The predicates of a value given to a column pass where that of the column passes it. -/
theorem ofValue_all (c : Column) (value : Json) :
    (ofValue c value).all (isTrueAt db rows) = (rows.value c).passesValue value := by
  cases value with
  | obj ops =>
      simp only [ofValue, ofOperators, Datum.passesValue, List.all_append, List.all_flatMap,
        ofBounds_all, ofOperator_all, Bool.and_assoc]
  | arr items => simp [ofValue, Datum.passesValue, Datum.isOperand]
  | _ =>
      simp [ofValue, equals, Datum.passesValue, Datum.isOperand, Datum.equals, isTrueAt_compare,
        isTrueAt_null]

end Predicate

end ScopedAccess
