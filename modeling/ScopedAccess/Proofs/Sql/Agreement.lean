import ScopedAccess.Proofs.Sql.Acceptance
/-!
# Databases that agree on some tables

A predicate looks at other rows than the one it is about through its subqueries only. So
two databases that have the same tables where the subqueries look give it one truth value
on any rows, and both accept its condition or neither does (`Predicate.Indifferent`).

* `Predicate.Follows.indifferent`: predicates that follow links to tables on which two
  databases agree.
-/

namespace ScopedAccess

set_option autoImplicit false

/-- Two databases have the same tables under some names. -/
def Database.AgreeOn (db db' : Database) (tables : List String) : Prop :=
  ∀ table ∈ tables, db.table? table = db'.table? table

/-- Two databases make no difference to a predicate. -/
structure Predicate.Indifferent (db db' : Database) (p : Predicate) : Prop where
  evaluate : ∀ view, p.evaluate db view = p.evaluate db' view
  accepts : ∀ view, db.accepts view p.condition = db'.accepts view p.condition

namespace Predicate

variable {db db' : Database}

/-- A test of a column looks at no other row. -/
theorem Tests.indifferent {c : Column} {p : Predicate} (tests : p.Tests c) :
    p.Indifferent db db' := by
  cases p with
  | compare | null | like | between =>
      exact ⟨fun _ => rfl, fun view => by simp [condition, Database.accepts]⟩
  | among c' values =>
      refine ⟨fun _ => rfl, fun view => ?_⟩
      cases values <;> simp [condition, Database.accepts]
  | const b => exact ⟨fun _ => rfl, fun view => by cases b <;> rfl⟩
  | _ => cases tests

theorem evaluateEach_congr {ps : List Predicate} (each : ∀ p ∈ ps, p.Indifferent db db')
    (view : List BoundRow) : evaluateEach db view ps = evaluateEach db' view ps := by
  induction ps with
  | nil => rfl
  | cons p rest ih =>
      obtain ⟨first, others⟩ := List.forall_mem_cons.mp each
      rw [evaluateEach, evaluateEach, first.evaluate, ih others]

theorem accepts_congr {ps : List Predicate} (each : ∀ p ∈ ps, p.Indifferent db db')
    (view : Database.View) : (ps.all fun p => db.accepts view p.condition) =
      ps.all fun p => db'.accepts view p.condition := by
  induction ps with
  | nil => rfl
  | cons p rest ih =>
      obtain ⟨first, others⟩ := List.forall_mem_cons.mp each
      rw [List.all_cons, List.all_cons, first.accepts, ih others]

theorem indifferent_all {ps : List Predicate} (each : ∀ p ∈ ps, p.Indifferent db db') :
    (all ps).Indifferent db db' := by
  refine ⟨fun view => ?_, fun view => ?_⟩
  · rw [Predicate.evaluate, Predicate.evaluate, evaluateEach_congr each]
  · rw [accepts_all, accepts_all, accepts_congr each]

theorem indifferent_any {ps : List Predicate} (each : ∀ p ∈ ps, p.Indifferent db db') :
    (any ps).Indifferent db db' := by
  refine ⟨fun view => ?_, fun view => ?_⟩
  · rw [Predicate.evaluate, Predicate.evaluate, evaluateEach_congr each]
  · rw [accepts_any, accepts_any, accepts_congr each]

theorem indifferent_conj {ps : List Predicate} (each : ∀ p ∈ ps, p.Indifferent db db') :
    (conj ps).Indifferent db db' := by
  unfold conj
  split
  · exact each _ (.head _)
  · exact indifferent_all each

/-- A subquery looks at the rows of its table. -/
theorem indifferent_subquery {c : Column} {s : Selection} {p : Predicate}
    (same : db.table? s.table = db'.table? s.table) (inner : p.Indifferent db db') :
    (subquery c s p).Indifferent db db' := by
  refine ⟨fun view => ?_, fun view => ?_⟩
  · simp only [Predicate.evaluate, Database.rowsOf, same, inner.evaluate]
  · have within : db.viewOf view s = db'.viewOf view s := by
      rw [Database.viewOf, Database.viewOf, same]
    rw [condition, Database.accepts_conjunction, Database.accepts_conjunction]
    simp only [List.all_cons, List.all_nil]
    split
    · simp only [Database.accepts, within]
    · simp only [Database.accepts, within, inner.accepts]

/-- Databases that agree on the tables that links lead to make no difference to a predicate
that follows them. -/
theorem Follows.indifferent {registry : Registry} {tables : List String} {e : Entity}
    {label : String} {p : Predicate} (follows : p.Follows registry tables e label)
    (agree : db.AgreeOn db' tables) : p.Indifferent db db' := by
  induction follows with
  | test _ tests => exact tests.indifferent
  | @const _ label b =>
      have tests : (Predicate.const b).Tests ⟨label, label⟩ := trivial
      exact tests.indifferent
  | all _ ih => exact indifferent_all ih
  | any _ ih => exact indifferent_any ih
  | direct _ member _ ih => exact indifferent_subquery (agree _ member) ih
  | joined _ _ memberJoin member _ ih =>
      exact indifferent_subquery (agree _ memberJoin) (indifferent_subquery (agree _ member) ih)

end Predicate

end ScopedAccess
