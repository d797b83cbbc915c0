import ScopedAccess.Proofs.Filter.Resolution
import ScopedAccess.Proofs.Sql.Lowering
/-!
# Accepted conditions

A database refuses a statement with a name that stands for nothing. The names of a
predicate that follows links are the columns of entities, which tables that fit have, the
tables of its subqueries, and the aliases of these. So it is accepted where the tables
that it leads to are there and can be written (`Database.Serves`).

* `Predicate.Follows.accepts`: such a predicate is accepted.
-/

namespace ScopedAccess

set_option autoImplicit false

/-- The tables of a list are there, under names that can be written in a statement. -/
def Database.Serves (db : Database) (tables : List String) : Prop :=
  ∀ table ∈ tables, (db.table? table).isSome = true ∧ Name.isWritable table = true

/-! ## Names that can be written -/

/-- Folding the case of a character neither makes a null character nor removes one. -/
theorem toLower_eq_null_iff (c : Char) : c.toLower = '\x00' ↔ c = '\x00' := by
  unfold Char.toLower
  split
  · rename_i upper
    have low : 65 ≤ c.val.toNat := upper.1
    have high : c.val.toNat ≤ 90 := upper.2
    constructor
    · intro null
      have sum : (c.val.toNat + 32) % 2 ^ 32 = 0 := congrArg (fun d : Char => d.val.toNat) null
      omega
    · rintro rfl
      exact absurd low (by decide)
  · rfl

theorem isWritable_iff (spelling : String) :
    Name.isWritable spelling = true ↔ '\x00' ∉ spelling.toList := by
  have folded : (Name.of spelling).folded.toList = spelling.toList.map Char.toLower :=
    String.toList_map
  simp only [Name.isWritable, hasNull, folded, Bool.not_eq_true', List.contains_eq_mem,
    decide_eq_false_iff_not, List.mem_map, toLower_eq_null_iff, exists_eq_right]

/-- The alias of a subquery can be written if the table can. -/
theorem isWritable_numberedAlias {table : String} (writable : Name.isWritable table = true)
    (n : Nat) : Name.isWritable (numberedAlias table n) = true := by
  rw [isWritable_iff] at writable ⊢
  have number : '\x00' ∉ (toString n).toList := by
    rw [Nat.toString_eq_repr, Nat.toList_repr]
    intro member
    have digit := Nat.isDigit_of_mem_toDigits (by decide) (by decide) member
    exact absurd digit (by decide)
  simpa [numberedAlias, String.toList_append, writable] using number

/-! ## Conditions -/

/-- The part that a condition contributes is accepted where the condition is. -/
theorem Condition.accepts_element {db : Database} {view : Database.View} (c : Condition) :
    db.accepts view c.element = db.accepts view c := by
  unfold element
  split
  · simp
  · simp
  · rfl

theorem seesColumn_of_answers {view : Database.View} {c : Column} (answers : view.Answers c) :
    Database.seesColumn view c = true := by
  obtain ⟨columns, looked, answered⟩ := answers
  have member : (Name.of c.label, columns) ∈ view := by
    obtain ⟨before, after, rfl, -⟩ := List.lookup_eq_some_iff.mp looked
    simp
  exact List.any_eq_true.mpr ⟨_, member, by simp [answered]⟩

namespace Predicate

variable {db : Database} {view : Database.View}

theorem all_conditionElements (ps : List Predicate) :
    ((conditionElements ps).all fun c => db.accepts view c) =
      ps.all fun p => db.accepts view p.condition := by
  induction ps with
  | nil => rfl
  | cons p rest ih =>
      rw [conditionElements, List.all_cons, Condition.accepts_element, ih, List.all_cons]

theorem accepts_all (ps : List Predicate) :
    db.accepts view (all ps).condition = ps.all fun p => db.accepts view p.condition := by
  rw [condition, Database.accepts_conjunction, all_conditionElements]

theorem accepts_any (ps : List Predicate) :
    db.accepts view (any ps).condition = ps.all fun p => db.accepts view p.condition := by
  cases ps with
  | nil => rfl
  | cons p rest =>
      rw [condition, Database.accepts_disjunction, List.all_cons, Condition.accepts_element,
        all_conditionElements, List.all_cons]

theorem accepts_conj (ps : List Predicate) :
    db.accepts view (conj ps).condition = ps.all fun p => db.accepts view p.condition := by
  unfold conj
  split
  · simp
  · exact accepts_all ps

theorem Tests.accepts {c : Column} {p : Predicate} (tests : p.Tests c) (answers : view.Answers c) :
    db.accepts view p.condition = true := by
  have sees := seesColumn_of_answers answers
  cases p with
  | compare | null | like | between =>
      cases tests
      simp [condition, Database.accepts, sees]
  | among c' values =>
      cases tests
      cases values <;> simp [condition, Database.accepts, sees]
  | const b => cases b <;> rfl
  | _ => cases tests

theorem accepts_subquery {c : Column} {s : Selection} {p : Predicate} {t : Table}
    (answers : view.Answers c) (writable : Name.isWritable s.label = true)
    (found : db.table? s.table = some t) (answered : Name.isAnsweredBy t.columns s.column = true)
    (inner : db.accepts ((.of s.label, t.columns) :: view) p.condition = true) :
    db.accepts view (subquery c s p).condition = true := by
  have within : db.viewOf view s = some ((.of s.label, t.columns) :: view) := by
    rw [Database.viewOf, if_pos writable, found]
    rfl
  have selects := seesColumn_of_answers
    (Database.View.answers_cons answered : Database.View.Answers (_ :: view) ⟨s.label, s.column⟩)
  rw [condition, Database.accepts_conjunction, List.all_cons, List.all_nil, Bool.and_true]
  split
  · simp only [Database.accepts, within, seesColumn_of_answers answers, selects, Bool.and_self]
  · simp only [Database.accepts, within, seesColumn_of_answers answers, selects, inner,
      Bool.and_self]

/-- A predicate that follows links is accepted where its tables are there and fit. -/
theorem Follows.accepts {registry : Registry} {tables : List String} {e : Entity}
    {label : String} {p : Predicate} (follows : p.Follows registry tables e label)
    (fits : db.Fits registry) (own : e.FitsIn db) (serves : db.Serves tables)
    {columns : List Name} (answered : e.AnsweredBy columns) (view : Database.View) :
    db.accepts ((.of label, columns) :: view) p.condition = true := by
  induction follows generalizing columns view with
  | test stores tests => exact tests.accepts (Database.View.answers_cons (answered _ stores))
  | @const _ _ b => cases b <;> rfl
  | all _ ih =>
      rw [accepts_all, List.all_eq_true]
      exact fun p member => ih p member own answered view
  | any _ ih =>
      rw [accepts_any, List.all_eq_true]
      exact fun p member => ih p member own answered view
  | direct link member _ ih =>
      obtain ⟨there, writable⟩ := serves _ member
      obtain ⟨t, found⟩ := Option.isSome_iff_exists.mp there
      have target := fits _ _ link.target
      have inner := target.answered t found
      exact accepts_subquery (Database.View.answers_cons (answered _ link.localColumn))
        (isWritable_numberedAlias writable _) found (inner _ link.foreignColumn)
        (ih target inner _)
  | joined link join memberJoin member _ ih =>
      obtain ⟨f, field, related⟩ := link.relation
      obtain ⟨thereJoin, writableJoin⟩ := serves _ memberJoin
      obtain ⟨between, foundBetween⟩ := Option.isSome_iff_exists.mp thereJoin
      obtain ⟨source, targetKey⟩ := own.joined _ ⟨f, field, _, related, join⟩ between foundBetween
      obtain ⟨there, writable⟩ := serves _ member
      obtain ⟨t, found⟩ := Option.isSome_iff_exists.mp there
      have target := fits _ _ link.target
      have inner := target.answered t found
      refine accepts_subquery (Database.View.answers_cons (answered _ link.localColumn))
        (isWritable_numberedAlias writableJoin _) foundBetween source ?_
      exact accepts_subquery (Database.View.answers_cons targetKey)
        (isWritable_numberedAlias writable _) found (inner _ link.foreignColumn)
        (ih target inner _)

end Predicate

end ScopedAccess
