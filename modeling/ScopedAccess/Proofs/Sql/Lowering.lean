import ScopedAccess.Filter.Meaning
import ScopedAccess.Sql.Statement
/-!
# Lowered predicates

A predicate and the condition it is lowered to have one truth value. Two steps of the
lowering look as if they changed something and do not. A condition of one part is added to
others as that part (`Condition.element`), and a subquery whose filter is trivial by its
shape is lowered without the filter, which every row would pass.

* `Predicate.evaluate_condition`: both have the same truth value on any rows.
-/

namespace ScopedAccess

set_option autoImplicit false

variable {db : Database} {view : List BoundRow}

namespace Truth

@[simp] theorem and_yes (t : Truth) : t.and .yes = t := by cases t <;> rfl

@[simp] theorem or_no (t : Truth) : t.or .no = t := by cases t <;> rfl

@[simp] theorem all_nil : all [] = .yes := rfl

@[simp] theorem any_nil : any [] = .no := rfl

@[simp] theorem all_cons (t : Truth) (rest : List Truth) : all (t :: rest) = t.and (all rest) := rfl

@[simp] theorem any_cons (t : Truth) (rest : List Truth) : any (t :: rest) = t.or (any rest) := rfl

end Truth

/-- A condition of one part has the truth value of its part. -/
theorem Condition.evaluate_element (c : Condition) :
    db.evaluate view c.element = db.evaluate view c := by
  unfold element
  split
  · simp [Database.evaluate, Database.evaluateEach]
  · simp [Database.evaluate, Database.evaluateEach]
  · rfl

namespace Predicate

mutual

/-- A predicate that is trivial by its shape is true of all rows. -/
theorem evaluate_of_isTrivial : ∀ {p : Predicate} {view : List BoundRow},
    p.isTrivial = true → p.evaluate db view = .yes
  | .const b, view, trivial => by
      rw [isTrivial] at trivial
      rw [evaluate, trivial, Truth.ofBool]
  | .all ps, view, trivial => by
      rw [isTrivial] at trivial
      rw [evaluate]
      exact all_evaluateEach_of_areTrivial trivial

theorem all_evaluateEach_of_areTrivial : ∀ {ps : List Predicate} {view : List BoundRow},
    areTrivial ps = true → .all (evaluateEach db view ps) = Truth.yes
  | [], view, _ => rfl
  | p :: rest, view, trivial => by
      rw [areTrivial, Bool.and_eq_true] at trivial
      rw [evaluateEach, Truth.all_cons, evaluate_of_isTrivial trivial.1,
        all_evaluateEach_of_areTrivial trivial.2]
      rfl

end

/-- The parameter of a value is stored as the value. -/
theorem map_ofParam (values : List Json) :
    (values.map Param.ofJson).map Datum.ofParam = values.map Datum.ofJson :=
  List.map_map

mutual

/-- The condition of a predicate has its truth value. -/
theorem evaluate_condition : ∀ (p : Predicate) (view : List BoundRow),
    db.evaluate view p.condition = p.evaluate db view
  | .compare c op value, view => by
      simp [condition, evaluate, Database.evaluate, Database.evaluateEach, Datum.ofJson]
  | .among c values negated, view => by
      rw [condition, evaluate, Database.evaluate, Database.evaluateEach, Database.evaluateEach,
        Truth.all_cons, Truth.all_nil, Truth.and_yes, Database.evaluate, map_ofParam]
  | .null c negated, view => by
      simp [condition, evaluate, Database.evaluate, Database.evaluateEach]
  | .like c pattern, view => by
      simp [condition, evaluate, Database.evaluate, Database.evaluateEach]
  | .between c lower upper, view => by
      simp [condition, evaluate, Database.evaluate, Database.evaluateEach, Datum.ofJson]
  | .subquery c s filter, view => by
      have inner : ∀ v, db.evaluate v filter.condition = filter.evaluate db v :=
        evaluate_condition filter
      rw [condition, evaluate, Database.evaluate, Database.evaluateEach, Database.evaluateEach,
        Truth.all_cons, Truth.all_nil, Truth.and_yes]
      by_cases trivial : filter.isTrivial = true
      · have kept : (db.rowsOf view s).filter (fun v => (filter.evaluate db v).isYes) =
            db.rowsOf view s := by
          refine List.filter_eq_self.mpr fun v _ => ?_
          rw [evaluate_of_isTrivial trivial]
          rfl
        rw [if_pos trivial, Database.evaluate, kept]
      · rw [if_neg trivial, Database.evaluate]
        simp only [inner]
  | .all parts, view => by
      rw [condition, evaluate, Database.evaluate, evaluateEach_conditionElements parts view]
  | .any [], view => by
      simp [condition, Condition.denied, evaluate, evaluateEach, Database.evaluate,
        Database.evaluateEach, Truth.ofBool]
  | .any (p :: rest), view => by
      rw [condition, evaluate, evaluateEach, Database.evaluate, Database.evaluateEach,
        Condition.evaluate_element, evaluate_condition p view,
        evaluateEach_conditionElements rest view]
  | .const true, view => by
      simp [condition, evaluate, Database.evaluate, Database.evaluateEach, Truth.ofBool]
  | .const false, view => by
      simp [condition, Condition.denied, evaluate, Database.evaluate, Database.evaluateEach,
        Truth.ofBool]

theorem evaluateEach_conditionElements : ∀ (ps : List Predicate) (view : List BoundRow),
    db.evaluateEach view (conditionElements ps) = evaluateEach db view ps
  | [], view => rfl
  | p :: rest, view => by
      rw [conditionElements, Database.evaluateEach, Condition.evaluate_element,
        evaluate_condition p view, evaluateEach_conditionElements rest view, evaluateEach]

end

theorem evaluateEach_eq_map (ps : List Predicate) (view : List BoundRow) :
    evaluateEach db view ps = ps.map (evaluate db view) := by
  induction ps with
  | nil => rfl
  | cons p rest ih => rw [evaluateEach, ih, List.map_cons]

/-- The connective of a single part is left out without a change. -/
theorem evaluate_conj (ps : List Predicate) (view : List BoundRow) :
    (conj ps).evaluate db view = .all (ps.map (evaluate db view)) := by
  unfold conj
  split
  · simp
  · rw [evaluate, evaluateEach_eq_map]

theorem evaluate_disj (ps : List Predicate) (view : List BoundRow) :
    (disj ps).evaluate db view = .any (ps.map (evaluate db view)) := by
  unfold disj
  split
  · simp
  · rw [evaluate, evaluateEach_eq_map]

/-- A conjunction is true where all of its parts are. -/
theorem isYes_evaluate_conj (ps : List Predicate) (view : List BoundRow) :
    ((conj ps).evaluate db view).isYes = ps.all fun p => (p.evaluate db view).isYes := by
  rw [evaluate_conj, Truth.isYes_all, List.all_map]
  rfl

/-- A row passes the condition of a predicate where it passes the predicate. -/
theorem passes_condition (table : Name) (t : Table) (p : Predicate) (row : Row) :
    db.passes table t p.condition row = p.passes db table t row := by
  rw [Database.passes, evaluate_condition, Predicate.passes]

/-! ## Patterns -/

theorem patterns_element (c : Condition) : c.element.patterns = c.patterns := by
  unfold Condition.element
  split
  · simp [Condition.patterns, Condition.patternsOf]
  · simp [Condition.patterns, Condition.patternsOf]
  · rfl

theorem patternsOf_conditionElements (ps : List Predicate) :
    Condition.patternsOf (conditionElements ps) = ps.flatMap fun p => p.condition.patterns := by
  induction ps with
  | nil => rfl
  | cons p rest ih =>
      rw [conditionElements, Condition.patternsOf, patterns_element, ih, List.flatMap_cons]

theorem patterns_conj (ps : List Predicate) :
    (conj ps).condition.patterns = ps.flatMap fun p => p.condition.patterns := by
  unfold conj
  split
  · simp
  · rw [condition, Condition.patterns, patternsOf_conditionElements]

theorem patterns_disj (ps : List Predicate) :
    (disj ps).condition.patterns = ps.flatMap fun p => p.condition.patterns := by
  unfold disj
  split
  · simp
  · cases ps with
    | nil => rfl
    | cons p rest =>
        rw [condition, Condition.patterns, Condition.patternsOf, patterns_element,
          patternsOf_conditionElements, List.flatMap_cons]

end Predicate

end ScopedAccess
