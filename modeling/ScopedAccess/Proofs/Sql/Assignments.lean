import ScopedAccess.Proofs.Filter.Resolution
import ScopedAccess.Store.Rows
import Mathlib.Data.List.Pairwise
/-!
# What an assignment changes

A record is written by assignments to columns, one for each of its stored fields. An
assignment to the number of a row shows under all names of the number, and of two
assignments to one column the last counts. So what is written to a column is known from the
record only where the table tells the columns of the entity apart (`Entity.SeparatedIn`).

* `changedRow_assignments`: a row to which a record is written has the values of the record
  in the columns of its stored fields, and its own values elsewhere.
-/

namespace ScopedAccess

set_option autoImplicit false

/-- Whether two names stand for one column: they are the same, or both stand for the number of
a row. -/
def Table.sameColumn (t : Table) (a b : Name) : Bool :=
  a = b || (a.isRowNumber t.columns && b.isRowNumber t.columns)

/-- A table tells the columns of the stored fields of an entity apart. -/
def Entity.SeparatedIn (e : Entity) (t : Table) : Prop :=
  e.storedFields.Pairwise fun f g => t.sameColumn f.column g.column = false

/-- A row with the stored fields of a record set. -/
def Entity.written (e : Entity) (t : Table) (r : Record) (row : Row) : Row := fun c =>
  match (e.storedFields.find? fun f => t.sameColumn f.column c).bind fun f => r.find? f.name with
  | some value => .ofJson value
  | none => row c

/-! ## Columns -/

namespace Table

variable {t : Table} {a b c : Name}

theorem sameColumn_comm : t.sameColumn a b = t.sameColumn b a := by
  rw [sameColumn, sameColumn, Bool.and_comm]
  congr 1
  exact decide_eq_decide.mpr eq_comm

theorem sameColumn_trans (ab : t.sameColumn a b = true) (bc : t.sameColumn b c = true) :
    t.sameColumn a c = true := by
  simp only [sameColumn, Bool.or_eq_true, decide_eq_true_eq, Bool.and_eq_true] at ab bc ⊢
  rcases ab with rfl | ⟨numberA, numberB⟩
  · exact bc
  · rcases bc with rfl | ⟨-, numberC⟩
    · exact .inr ⟨numberA, numberB⟩
    · exact .inr ⟨numberA, numberC⟩

theorem mem_numberNames : c ∈ t.numberNames ↔ c.isRowNumber t.columns = true := by
  rw [numberNames, List.mem_filter]
  constructor
  · intro listed
    exact listed.2
  · intro number
    have named := (Bool.and_eq_true_iff.mp number).1
    exact ⟨List.contains_iff_mem.mp named, number⟩

/-- An assignment is made under the names that stand for its column. -/
theorem mem_spread {values : Assignments} {d : Datum} :
    (c, d) ∈ t.spread values ↔ ∃ name, (name, d) ∈ values ∧ t.sameColumn name c = true := by
  have one : ∀ name d', (c, d) ∈ (if name.isRowNumber t.columns then
      t.numberNames.map fun name => (name, d') else [(name, d')]) ↔
        d = d' ∧ t.sameColumn name c = true := by
    intro name d'
    rw [sameColumn]
    cases number : name.isRowNumber t.columns with
    | false => simp [eq_comm, and_comm]
    | true =>
        have same : name = c → c.isRowNumber t.columns = true := fun same => same ▸ number
        simp only [if_pos, List.mem_map, Prod.mk.injEq, mem_numberNames, Bool.true_and,
          Bool.or_eq_true, decide_eq_true_eq]
        constructor
        · rintro ⟨c, named, rfl, rfl⟩
          exact ⟨rfl, .inr named⟩
        · rintro ⟨rfl, named⟩
          exact ⟨c, named.elim same id, rfl, rfl⟩
  rw [spread, List.mem_flatMap]
  constructor
  · rintro ⟨⟨name, d'⟩, member, made⟩
    obtain ⟨rfl, same⟩ := (one name d').mp made
    exact ⟨name, member, same⟩
  · rintro ⟨name, member, same⟩
    exact ⟨(name, d), member, (one name d).mpr ⟨rfl, same⟩⟩

end Table

/-! ## Rows -/

section Rows

variable {values : Assignments} {row : Row} {c : Name} {d : Datum}

theorem mem_of_lookup (found : values.lookup c = some d) : (c, d) ∈ values := by
  obtain ⟨before, after, rfl, -⟩ := List.lookup_eq_some_iff.mp found
  exact List.mem_append_right before List.mem_cons_self

/-- A column whose assignments agree has the value assigned. -/
theorem lookup_of_unique (member : (c, d) ∈ values) (unique : ∀ d', (c, d') ∈ values → d' = d) :
    values.lookup c = some d := by
  cases found : values.lookup c with
  | none =>
      have absent := List.lookup_eq_none_iff.mp found (c, d) member
      simp at absent
  | some d' =>
      rw [unique d' (mem_of_lookup found)]

/-- A changed row has its own value in a column, or one that is assigned. -/
theorem changedRow_cases (values : Assignments) (row : Row) :
    changedRow values row c = row c ∨ (c, changedRow values row c) ∈ values := by
  rw [changedRow]
  cases found : values.reverse.lookup c with
  | none => exact .inl rfl
  | some datum => exact .inr (List.mem_reverse.mp (mem_of_lookup found))

theorem changedRow_of_mem (member : (c, d) ∈ values)
    (unique : ∀ d', (c, d') ∈ values → d' = d) : changedRow values row c = d := by
  have looked : values.reverse.lookup c = some d :=
    lookup_of_unique (List.mem_reverse.mpr member)
      fun d' member' => unique d' (List.mem_reverse.mp member')
  rw [changedRow, looked]
  rfl

theorem changedRow_of_not_mem (absent : ∀ d, (c, d) ∉ values) : changedRow values row c = row c := by
  have looked : values.reverse.lookup c = none := by
    apply List.lookup_eq_none_iff.mpr
    rintro ⟨name, d⟩ member
    have other : c ≠ name := by
      rintro rfl
      exact absent d (List.mem_reverse.mp member)
    simp [other]
  rw [changedRow, looked]
  rfl

end Rows

/-! ## Records -/

section Records

variable {e : Entity} {t : Table} {r : Record}

theorem column?_eq_some_iff {name column : String} : e.column? name = some column ↔
    ∃ f ∈ e.storedFields, f.name = name ∧ f.column = column := by
  rw [Entity.column?, Option.map_eq_some_iff]
  constructor
  · rintro ⟨f, stored, rfl⟩
    obtain ⟨named, stored⟩ := Option.filter_eq_some_iff.mp stored
    have here : f.name = name := by simpa using List.find?_some named
    exact ⟨f, List.mem_filter.mpr ⟨Entity.mem_of_field? named, stored⟩, here, rfl⟩
  · rintro ⟨f, listed, rfl, rfl⟩
    obtain ⟨member, stored⟩ := List.mem_filter.mp listed
    refine ⟨f, Option.filter_eq_some_iff.mpr ⟨?_, stored⟩, rfl⟩
    obtain ⟨g, named⟩ : ∃ g, e.field? f.name = some g :=
      Option.isSome_iff_exists.mp (List.find?_isSome.mpr ⟨f, member, by simp⟩)
    have same : g.name = f.name := by simpa using List.find?_some named
    rw [named, Entity.eq_of_name (Entity.mem_of_field? named) member same]

/-- The assignments of a record are to the columns of its stored fields. -/
theorem mem_assignments {name : Name} {d : Datum} : (name, d) ∈ Store.assignments e r ↔
    ∃ f ∈ e.storedFields, ∃ value, r.find? f.name = some value ∧ .of f.column = name ∧
      .ofJson value = d := by
  rw [Store.assignments, List.mem_filterMap]
  constructor
  · rintro ⟨⟨key, value⟩, entry, made⟩
    obtain ⟨column, named, made⟩ := Option.map_eq_some_iff.mp made
    obtain ⟨rfl, rfl⟩ := Prod.mk.inj made
    obtain ⟨f, listed, rfl, rfl⟩ := column?_eq_some_iff.mp named
    exact ⟨f, listed, value, SortedMap.find?_eq_some_iff.mpr entry, rfl, rfl⟩
  · rintro ⟨f, listed, value, found, rfl, rfl⟩
    have named := column?_eq_some_iff.mpr ⟨f, listed, rfl, rfl⟩
    exact ⟨(f.name, value), SortedMap.find?_eq_some_iff.mp found, by simp only [named]; rfl⟩

/-- A table that has the columns of an entity tells them apart if they have different names. -/
theorem Entity.separatedIn_of_nodup (distinct : (Store.columns e).Nodup)
    (there : ∀ f ∈ e.storedFields, t.columns.contains (.of f.column) = true) :
    e.SeparatedIn t := by
  have apart := List.pairwise_map.mp distinct
  apply apart.imp_of_mem
  intro f g listed _ differ
  have column : Name.isRowNumber t.columns f.column = false := by
    rw [Name.isRowNumber, there f listed, Bool.not_true, Bool.and_false]
  rw [Table.sameColumn, column, Bool.false_and, Bool.or_false]
  exact decide_eq_false differ

/-- A field that a column belongs to is the only one. -/
theorem Entity.SeparatedIn.eq_of_sameColumn (separated : e.SeparatedIn t) {f g : Field} {c : Name}
    (listedF : f ∈ e.storedFields) (listedG : g ∈ e.storedFields)
    (sameF : t.sameColumn f.column c = true) (sameG : t.sameColumn g.column c = true) : f = g := by
  have comm : Std.Symm fun f g : Field => t.sameColumn f.column g.column = false :=
    ⟨fun f g apart => Table.sameColumn_comm.trans apart⟩
  by_contra differ
  have apart := List.Pairwise.forall separated listedF listedG differ
  have same := Table.sameColumn_trans sameF (Table.sameColumn_comm.trans sameG)
  rw [apart] at same
  cases same

/-- The assignments of a record that show under a name are to the stored field whose column the
name stands for. -/
theorem mem_spread_assignments {c : Name} {d : Datum} :
    (c, d) ∈ t.spread (Store.assignments e r) ↔ ∃ f ∈ e.storedFields, ∃ value,
      r.find? f.name = some value ∧ .ofJson value = d ∧ t.sameColumn f.column c = true := by
  rw [Table.mem_spread]
  constructor
  · rintro ⟨name, assigned, same⟩
    obtain ⟨f, listed, value, found, rfl, rfl⟩ := mem_assignments.mp assigned
    exact ⟨f, listed, value, found, rfl, same⟩
  · rintro ⟨f, listed, value, found, rfl, same⟩
    exact ⟨f.column, mem_assignments.mpr ⟨f, listed, value, found, rfl, rfl⟩, same⟩

/-- A row to which a record is written has the values of the record in the columns of its stored
fields. -/
theorem changedRow_assignments (separated : e.SeparatedIn t) (row : Row) :
    changedRow (t.spread (Store.assignments e r)) row = e.written t r row := by
  funext c
  rw [Entity.written]
  cases owner : e.storedFields.find? fun f => t.sameColumn f.column c with
  | none =>
      apply changedRow_of_not_mem
      intro d assigned
      obtain ⟨f, listed, value, found, -, same⟩ := mem_spread_assignments.mp assigned
      exact List.find?_eq_none.mp owner f listed same
  | some f =>
      have listed := List.mem_of_find?_eq_some owner
      have mine := List.find?_some owner
      have only : ∀ g ∈ e.storedFields, t.sameColumn g.column c = true → g = f :=
        fun g listedG same => separated.eq_of_sameColumn listedG listed same mine
      cases named : r.find? f.name with
      | none =>
          simp only [Option.bind_some, named]
          apply changedRow_of_not_mem
          intro d assigned
          obtain ⟨g, listedG, value, found, -, same⟩ := mem_spread_assignments.mp assigned
          rw [only g listedG same, named] at found
          cases found
      | some value =>
          simp only [Option.bind_some, named]
          apply changedRow_of_mem
          · exact mem_spread_assignments.mpr ⟨f, listed, value, named, rfl, mine⟩
          · intro d assigned
            obtain ⟨g, listedG, value', found, rfl, same⟩ := mem_spread_assignments.mp assigned
            rw [only g listedG same, named] at found
            rw [Option.some.inj found]

end Records

namespace Notebook

theorem separatedIn_tableOf {e : Entity} (distinct : (Store.columns e).Nodup) (rows : List Row) :
    e.SeparatedIn (tableOf e rows) := by
  refine Entity.separatedIn_of_nodup distinct fun f listed => ?_
  exact List.contains_iff_mem.mpr (List.mem_map.mpr ⟨f, listed, rfl⟩)

theorem notes_separated (rows : List Row) : notes.SeparatedIn (tableOf notes rows) :=
  separatedIn_tableOf (by decide +kernel) rows

end Notebook

end ScopedAccess
