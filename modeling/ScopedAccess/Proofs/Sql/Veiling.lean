import ScopedAccess.Proofs.Sql.Lowering
import ScopedAccess.Proofs.Sql.Ordering
/-!
# Columns that statements do not read

A predicate reads the columns that it names, each of all tables that its alias stands for where it
is read (`Predicate.reads`). In two databases that have the same tables but for the values of some
columns (`Database.AgreeUnder`) it has one truth value, if it reads none of them. Rows that pass
then come in one order, if they are not ordered by any of them either.

* `evaluate_congr`: the truth value of a predicate in two such databases;
* `inOrderOf_congr`: the rows that pass, in order.
-/

namespace ScopedAccess

set_option autoImplicit false

/-! ## Veils -/

/-- Which columns of which tables are veiled. -/
abbrev Veil : Type := Name → Name → Bool

/-- A row with nothing in some columns. -/
def veiledRow (veiled : Name → Bool) (row : Row) : Row := fun c => if veiled c then .null else row c

/-- A table with nothing in some columns. -/
def Table.veiled (veiled : Name → Bool) (t : Table) : Table :=
  { t with rows := t.rows.map (veiledRow veiled) }

/-- Two databases have the same tables but for the values of veiled columns. -/
structure Database.AgreeUnder (veil : Veil) (db db' : Database) : Prop where
  limits : db.limits = db'.limits
  tables : ∀ name, (db.table? name).map (Table.veiled (veil name)) =
    (db'.table? name).map (Table.veiled (veil name))

theorem veiledRow_eq_iff {veiled : Name → Bool} {row row' : Row} :
    veiledRow veiled row = veiledRow veiled row' ↔ ∀ c, veiled c = false → row c = row' c := by
  constructor
  · intro same c open_
    simpa [veiledRow, open_] using congrFun same c
  · intro same
    funext c
    cases open_ : veiled c with
    | true => simp [veiledRow, open_]
    | false => simp [veiledRow, open_, same c open_]

/-- A new row does not show what it has been given for veiled columns. -/
theorem veiledRow_newRow {veiled : Name → Bool} {values values' : Assignments}
    (same : (values.filter fun value => !veiled value.1) =
      values'.filter fun value => !veiled value.1) :
    veiledRow veiled (newRow values) = veiledRow veiled (newRow values') := by
  refine veiledRow_eq_iff.mpr fun c open_ => ?_
  have kept : ∀ l : Assignments, l.lookup c = (l.filter fun value => !veiled value.1).lookup c := by
    intro l
    have looked := SortedMap.lookup_filter (p := fun c => !veiled c) (l := l) (x := c)
    rw [if_pos (by rw [open_]; rfl)] at looked
    exact looked.symm
  rw [newRow, newRow, kept, same, ← kept]

/-- Databases agree if they keep tables that do. -/
theorem Database.agreeUnder_of_tables {veil : Veil} {db db' : Database}
    (limits : db.limits = db'.limits) (catalogue : db.catalogue = db'.catalogue)
    (tables : ∀ name, (db.tables name).map (Table.veiled (veil name)) =
      (db'.tables name).map (Table.veiled (veil name))) : db.AgreeUnder veil db' := by
  refine ⟨limits, fun name => ?_⟩
  rw [table?, table?, stored?, stored?, catalogue]
  split
  · rfl
  · split
    · rfl
    · split
      · rfl
      · exact tables name

section Rows

variable {veiled : Name → Bool} {rows rows' : List Row} {α : Type}

/-- What is made of rows does not depend on veiled columns, if what is made of each does not. -/
theorem map_congr_of_veiled {f f' : Row → α}
    (same : rows.map (veiledRow veiled) = rows'.map (veiledRow veiled))
    (each : ∀ row row', veiledRow veiled row = veiledRow veiled row' → f row = f' row') :
    rows.map f = rows'.map f' := by
  induction rows generalizing rows' with
  | nil =>
      rw [List.map_eq_nil_iff.mp same.symm]
      rfl
  | cons row rows ih =>
      cases rows' with
      | nil => cases same
      | cons row' rows' =>
          obtain ⟨first, others⟩ := List.cons.inj same
          rw [List.map_cons, List.map_cons, each row row' first, ih others]

/-- The rows that pass are the same but for veiled columns, if these decide about none. -/
theorem filter_congr_of_veiled {passes passes' : Row → Bool}
    (same : rows.map (veiledRow veiled) = rows'.map (veiledRow veiled))
    (each : ∀ row row', veiledRow veiled row = veiledRow veiled row' →
      passes row = passes' row') :
    (rows.filter passes).map (veiledRow veiled) =
      (rows'.filter passes').map (veiledRow veiled) := by
  induction rows generalizing rows' with
  | nil =>
      rw [List.map_eq_nil_iff.mp same.symm]
      rfl
  | cons row rows ih =>
      cases rows' with
      | nil => cases same
      | cons row' rows' =>
          obtain ⟨first, others⟩ := List.cons.inj same
          have both := each row row' first
          cases passed : passes row with
          | true =>
              rw [List.filter_cons_of_pos passed, List.filter_cons_of_pos (both ▸ passed),
                List.map_cons, List.map_cons, first, ih others]
          | false =>
              rw [List.filter_cons_of_neg (by simp [passed]),
                List.filter_cons_of_neg (by simp [← both, passed]), ih others]

/-- Rows come in one order where they are the same but for veiled columns, if the one that they are
ordered by is not veiled. -/
theorem inOrderOf_congr {column : Name} (open_ : veiled column = false)
    (same : rows.map (veiledRow veiled) = rows'.map (veiledRow veiled)) :
    (inOrderOf column rows).map (veiledRow veiled) =
      (inOrderOf column rows').map (veiledRow veiled) := by
  have commutes : ∀ rows, (inOrderOf column rows).map (veiledRow veiled) =
      inOrderOf column (rows.map (veiledRow veiled)) := by
    intro rows
    refine List.map_mergeSort fun a _ b _ => ?_
    simp [veiledRow, open_]
  rw [commutes, commutes, same]

end Rows

/-! ## What a predicate reads -/

/-- The columns that a name may stand for among tables in view, each with its table. A table in view
has an alias and a name. -/
def Column.among (view : List (Name × Name)) (c : Column) : List (Name × Name) :=
  (view.filter fun t => t.1 = .of c.label).map fun t => (t.2, .of c.name)

namespace Predicate

mutual

/-- The columns that a predicate reads where some tables are in view. -/
def reads (view : List (Name × Name)) : Predicate → List (Name × Name)
  | .compare c _ _ | .among c _ _ | .null c _ | .like c _ | .between c _ _ => c.among view
  | .subquery c s filter =>
    let inner := (.of s.label, .of s.table) :: view
    c.among view ++ Column.among inner ⟨s.label, s.column⟩ ++ filter.reads inner
  | .all parts | .any parts => readsOfEach view parts
  | .const _ => []

def readsOfEach (view : List (Name × Name)) : List Predicate → List (Name × Name)
  | [] => []
  | p :: rest => p.reads view ++ readsOfEach view rest

end

/-- A predicate on the rows of a table reads no veiled column. -/
def Overlooks (veil : Veil) (table : Name) (p : Predicate) : Prop :=
  ∀ r ∈ p.reads [(table, table)], veil r.1 r.2 = false

theorem readsOfEach_eq (view : List (Name × Name)) (ps : List Predicate) :
    readsOfEach view ps = ps.flatMap (reads view) := by
  induction ps with
  | nil => rfl
  | cons p rest ih => rw [readsOfEach, ih, List.flatMap_cons]

/-- A conjunction reads what its parts read. -/
theorem reads_conj (view : List (Name × Name)) (ps : List Predicate) :
    (conj ps).reads view = ps.flatMap (reads view) := by
  unfold conj
  split
  · exact (List.flatMap_singleton _ _).symm
  · rw [reads, readsOfEach_eq]

end Predicate

/-! ## Rows in view of two databases -/

/-- A row in view in each of two databases. -/
structure BoundPair where
  table : Name
  label : Name
  columns : List Name
  left : Row
  right : Row

namespace BoundPair

def boundLeft (x : BoundPair) : BoundRow := ⟨x.label, x.columns, x.left⟩

def boundRight (x : BoundPair) : BoundRow := ⟨x.label, x.columns, x.right⟩

/-- The tables of rows in view. -/
def view (xs : List BoundPair) : List (Name × Name) := xs.map fun x => (x.label, x.table)

/-- Rows in view are the same but for veiled columns. -/
def Agree (veil : Veil) (xs : List BoundPair) : Prop :=
  ∀ x ∈ xs, veiledRow (veil x.table) x.left = veiledRow (veil x.table) x.right

end BoundPair

section Truth

variable {veil : Veil} {db db' : Database} {xs : List BoundPair}

/-- A column that is not veiled has one value. -/
theorem valueOf_congr {c : Column} (agree : BoundPair.Agree veil xs)
    (open_ : ∀ r ∈ c.among (BoundPair.view xs), veil r.1 r.2 = false) :
    Database.valueOf (xs.map BoundPair.boundLeft) c =
      Database.valueOf (xs.map BoundPair.boundRight) c := by
  unfold Database.valueOf
  rw [List.find?_map, List.find?_map]
  have one : (fun r : BoundRow => decide (r.label = Name.of c.label) &&
        Name.isAnsweredBy r.columns c.name) ∘ BoundPair.boundRight =
      (fun r : BoundRow => decide (r.label = Name.of c.label) &&
        Name.isAnsweredBy r.columns c.name) ∘ BoundPair.boundLeft := rfl
  rw [one]
  cases found : xs.find? ((fun r : BoundRow => decide (r.label = Name.of c.label) &&
      Name.isAnsweredBy r.columns c.name) ∘ BoundPair.boundLeft) with
  | none => rfl
  | some x =>
      have member := List.mem_of_find?_eq_some found
      have named : x.label = Name.of c.label := by
        have passes := List.find?_some found
        simp only [Function.comp, Bool.and_eq_true, decide_eq_true_eq] at passes
        exact passes.1
      refine veiledRow_eq_iff.mp (agree x member) _ (open_ (x.table, .of c.name) ?_)
      exact List.mem_map.mpr ⟨(x.label, x.table), List.mem_filter.mpr
        ⟨List.mem_map_of_mem member, by simp [named]⟩, rfl⟩

/-- The columns and the rows of a table are the same but for veiled ones. -/
theorem Database.AgreeUnder.cases (agree : db.AgreeUnder veil db') (name : Name) :
    (db.table? name = none ∧ db'.table? name = none) ∨
      ∃ t t', db.table? name = some t ∧ db'.table? name = some t' ∧ t.columns = t'.columns ∧
        t.rows.map (veiledRow (veil name)) = t'.rows.map (veiledRow (veil name)) := by
  have same := agree.tables name
  cases found : db.table? name with
  | none =>
      rw [found] at same
      exact .inl ⟨rfl, Option.map_eq_none_iff.mp same.symm⟩
  | some t =>
      rw [found] at same
      obtain ⟨t', found', same⟩ := Option.map_eq_some_iff.mp same.symm
      obtain ⟨columns, -, rows⟩ := Table.mk.inj same
      exact .inr ⟨t, t', rfl, found', columns.symm, rows.symm⟩

theorem Database.AgreeUnder.columns (agree : db.AgreeUnder veil db') (name : Name) :
    (db.table? name).map Table.columns = (db'.table? name).map Table.columns := by
  rcases agree.cases name with ⟨none, none'⟩ | ⟨t, t', there, there', columns, -⟩
  · rw [none, none']
  · rw [there, there', Option.map_some, Option.map_some, columns]

mutual

/-- A predicate that reads no veiled column has one truth value. -/
theorem evaluate_congr (agree : db.AgreeUnder veil db') : ∀ (p : Predicate) {xs : List BoundPair},
    BoundPair.Agree veil xs → (∀ r ∈ p.reads (BoundPair.view xs), veil r.1 r.2 = false) →
      p.evaluate db (xs.map BoundPair.boundLeft) =
        p.evaluate db' (xs.map BoundPair.boundRight)
  | .compare c _ _, xs, same, open_ | .among c _ _, xs, same, open_
  | .null c _, xs, same, open_ | .like c _, xs, same, open_
  | .between c _ _, xs, same, open_ => by
      rw [Predicate.evaluate, Predicate.evaluate, valueOf_congr same open_]
  | .subquery c s filter, xs, same, open_ => by
      simp only [Predicate.reads, List.forall_mem_append] at open_
      obtain ⟨⟨here, selected⟩, inside⟩ := open_
      rw [Predicate.evaluate, Predicate.evaluate, valueOf_congr same here]
      congr 1
      rcases agree.cases (.of s.table) with ⟨none, none'⟩ | ⟨t, t', there, there', columns, rows⟩
      · simp only [Database.rowsOf, none, none', List.filter_nil, List.map_nil]
      · simp only [Database.rowsOf, there, there', List.filter_map, List.map_map]
        -- the inner rows are filtered and selected with the outer ones still in view
        have pairs : ∀ row row', veiledRow (veil (.of s.table)) row =
            veiledRow (veil (.of s.table)) row' →
              BoundPair.Agree veil (⟨.of s.table, .of s.label, t.columns, row, row'⟩ :: xs) :=
          fun row row' alike => List.forall_mem_cons.mpr ⟨alike, same⟩
        refine map_congr_of_veiled (filter_congr_of_veiled rows fun row row' alike => ?_)
          fun row row' alike => ?_
        · have truth := evaluate_congr agree filter (pairs row row' alike) inside
          exact congrArg Truth.isYes (columns ▸ truth)
        · have value := valueOf_congr (pairs row row' alike) selected
          exact columns ▸ value
  | .all parts, xs, same, open_ => by
      rw [Predicate.evaluate, Predicate.evaluate, evaluateEach_congr agree parts same open_]
  | .any parts, xs, same, open_ => by
      rw [Predicate.evaluate, Predicate.evaluate, evaluateEach_congr agree parts same open_]
  | .const b, xs, same, open_ => by rw [Predicate.evaluate, Predicate.evaluate]

theorem evaluateEach_congr (agree : db.AgreeUnder veil db') :
    ∀ (ps : List Predicate) {xs : List BoundPair}, BoundPair.Agree veil xs →
      (∀ r ∈ Predicate.readsOfEach (BoundPair.view xs) ps, veil r.1 r.2 = false) →
        Predicate.evaluateEach db (xs.map BoundPair.boundLeft) ps =
          Predicate.evaluateEach db' (xs.map BoundPair.boundRight) ps
  | [], xs, same, open_ => by rw [Predicate.evaluateEach, Predicate.evaluateEach]
  | p :: rest, xs, same, open_ => by
      rw [Predicate.readsOfEach, List.forall_mem_append] at open_
      rw [Predicate.evaluateEach, Predicate.evaluateEach, evaluate_congr agree p same open_.1,
        evaluateEach_congr agree rest same open_.2]

end

theorem viewOf_congr (columns : ∀ name, (db.table? name).map Table.columns =
      (db'.table? name).map Table.columns) (view : Database.View) (s : Selection) :
    db.viewOf view s = db'.viewOf view s := by
  have views := congrArg (Option.map fun names => (Name.of s.label, names) :: view)
    (columns s.table)
  rw [Option.map_map, Option.map_map] at views
  rw [Database.viewOf, Database.viewOf]
  split
  · exact views
  · rfl

mutual

/-- Whether a condition is accepted depends on what columns tables have, not on their rows. -/
theorem accepts_congr (columns : ∀ name, (db.table? name).map Table.columns =
      (db'.table? name).map Table.columns) : ∀ (cond : Condition) (view : Database.View),
    db.accepts view cond = db'.accepts view cond
  | .compare .., _ | .among _ [] _, _ | .among _ (_ :: _) _, _ | .null .., _ | .like .., _
  | .truth _, _ => by simp only [Database.accepts]
  | .selected c s, view => by
      rw [Database.accepts, Database.accepts, viewOf_congr columns]
  | .subquery c s filter, view => by
      rw [Database.accepts, Database.accepts, viewOf_congr columns]
      cases db'.viewOf view s with
      | none => rfl
      | some inner => simp only [accepts_congr columns filter inner]
  | .all parts, view => by
      rw [Database.accepts, Database.accepts, acceptsAll_congr columns parts view]
  | .any parts, view => by
      rw [Database.accepts, Database.accepts, acceptsAll_congr columns parts view]

theorem acceptsAll_congr (columns : ∀ name, (db.table? name).map Table.columns =
      (db'.table? name).map Table.columns) : ∀ (conds : List Condition) (view : Database.View),
    db.acceptsAll view conds = db'.acceptsAll view conds
  | [], _ => by simp only [Database.acceptsAll]
  | c :: rest, view => by
      rw [Database.acceptsAll, Database.acceptsAll, accepts_congr columns c view,
        acceptsAll_congr columns rest view]

end

end Truth

end ScopedAccess
