import ScopedAccess.Proofs.Identifier
import ScopedAccess.Proofs.Sql.Assignments
/-!
# What an insertion adds

A record is inserted as one row behind the others (`Store.insert_ok`). The row gets a number,
under all names that stand for it, unless the record gives it one; so it is by their texts that
the columns of the row are known from the record (`added_eq_text_iff`). Identifiers are texts,
and no other value of a record is stored as one (`Datum.ofJson_eq_text_iff`).
-/

namespace ScopedAccess

set_option autoImplicit false

/-- The row that a record is added to a table as. -/
def Entity.added (e : Entity) (t : Table) (r : Record) : Row :=
  newRow (t.filled (Store.assignments e r))

/-- A table with one more row. -/
def Table.adding (t : Table) (row : Row) : Table := { t with rows := t.rows ++ [row] }

/-! ## Identifiers in columns -/

/-- The text of an array or an object starts with a bracket, which no identifier does. -/
theorem Uuid.text_ne_of_bracket {u : Uuid} {s : String} {c : Char} {rest : List Char}
    (bracket : c = '[' ∨ c = '\x7b') (starts : s.toList = c :: rest) : s ≠ u.text := by
  obtain ⟨d, small, digits, first⟩ := chars_eq_cons u
  rintro rfl
  rw [text, String.toList_ofList, first] at starts
  have digit : hexDigit d = c := (List.cons.inj starts).1
  rcases bracket with rfl | rfl <;> interval_cases d <;> revert digit <;> decide

/-- An identifier is stored from its canonical text and from nothing else. -/
theorem Datum.ofJson_eq_text_iff {j : Json} {u : Uuid} :
    Datum.ofJson j = .text u.text ↔ j = .ofUuid u := by
  cases j with
  | null | bool | float => simp [ofJson, Param.ofJson, ofParam, Json.ofUuid]
  | int n =>
      simp only [ofJson, Param.ofJson, Json.ofUuid]
      split <;> simp [ofParam]
  | str s => simp [ofJson, Param.ofJson, ofParam, Json.ofUuid]
  | arr items =>
      have other : (Json.arr items).print ≠ u.text := by
        have starts : (Json.arr items).print.toList =
            '[' :: (String.intercalate "," (Json.printItems items) ++ "]").toList := by
          simp [Json.print]
        exact Uuid.text_ne_of_bracket (.inl rfl) starts
      simp [ofJson, Param.ofJson, ofParam, Json.ofUuid, other]
  | obj members =>
      have other : (Json.obj members).print ≠ u.text := by
        have starts : (Json.obj members).print.toList =
            '\x7b' :: (String.intercalate "," (Json.printMembers members) ++ "\x7d").toList := by
          simp [Json.print]
        exact Uuid.text_ne_of_bracket (.inr rfl) starts
      simp [ofJson, Param.ofJson, ofParam, Json.ofUuid, other]

/-! ## The row that is added -/

section Rows

variable {e : Entity} {t : Table} {r : Record} {values : Assignments} {c : Name} {s : String}

/-- The texts that a row is added with are those assigned to it; its number is none. -/
theorem mem_filled_text : (c, .text s) ∈ t.filled values ↔ (c, .text s) ∈ t.spread values := by
  rw [Table.filled, List.mem_append, List.mem_filter]
  simp

/-- Only names that the table has values of are assigned to. -/
theorem isAnsweredBy_of_mem_filled {d : Datum} (answers : t.answers (values.map Prod.fst) = true)
    (assigned : (c, d) ∈ t.filled values) : Name.isAnsweredBy t.columns c = true := by
  have numbered : c.isRowNumber t.columns = true → Name.isAnsweredBy t.columns c = true := by
    intro number
    rw [Name.isAnsweredBy, (Bool.and_eq_true_iff.mp number).1, Bool.or_true]
  rw [Table.filled, List.mem_append, List.mem_filter, List.mem_map] at assigned
  rcases assigned with ⟨spread, -⟩ | ⟨name, listed, same⟩
  · obtain ⟨name, given, same⟩ := Table.mem_spread.mp spread
    rw [Table.sameColumn, Bool.or_eq_true, decide_eq_true_eq, Bool.and_eq_true] at same
    rcases same with rfl | ⟨-, number⟩
    · exact List.all_eq_true.mp answers _ (List.mem_map_of_mem given)
    · exact numbered number
  · obtain ⟨rfl, -⟩ := Prod.mk.inj same
    exact numbered (Table.mem_numberNames.mp listed)

/-- A new row has no value under a name that its table does not have. -/
theorem valueOf_added (answers : t.answers ((Store.assignments e r).map Prod.fst) = true)
    (label column : String) :
    Database.valueOf [⟨.of label, t.columns, e.added t r⟩] ⟨label, column⟩ =
      e.added t r column := by
  cases answered : Name.isAnsweredBy t.columns (.of column) with
  | true => simp [Database.valueOf, answered]
  | false =>
      have unassigned : (t.filled (Store.assignments e r)).lookup (.of column) = none := by
        refine List.lookup_eq_none_iff.mpr ?_
        rintro ⟨name, d⟩ assigned
        have other : Name.of column ≠ name := by
          rintro rfl
          rw [isAnsweredBy_of_mem_filled answers assigned] at answered
          cases answered
        simp [other]
      simp [Database.valueOf, answered, Entity.added, newRow, unassigned]

/-- A row that is given a value other than null for a column has one of those given. -/
theorem added_mem {d : Datum} (assigned : (c, d) ∈ t.spread (Store.assignments e r))
    (filled : d ≠ .null) : (c, e.added t r c) ∈ t.spread (Store.assignments e r) := by
  rw [Entity.added, newRow, Table.filled, List.lookup_append]
  generalize kept : (t.spread (Store.assignments e r)).filter _ = given
  have there : (c, d) ∈ given := kept ▸ List.mem_filter.mpr ⟨assigned, by simp [filled]⟩
  have within : ∀ d', (c, d') ∈ given → (c, d') ∈ t.spread (Store.assignments e r) :=
    fun d' member => (List.mem_filter.mp (kept ▸ member)).1
  cases looked : given.lookup c with
  | none =>
      have absent := List.lookup_eq_none_iff.mp looked _ there
      simp at absent
  | some d' => exact within d' (mem_of_lookup looked)

/-- The texts in the columns of stored fields are those of the record. -/
theorem added_eq_text_iff (separated : e.SeparatedIn t) {f : Field}
    (listed : f ∈ e.storedFields) :
    e.added t r f.column = .text s ↔ ∃ value,
      r.find? f.name = some value ∧ .ofJson value = Datum.text s := by
  have same : t.sameColumn f.column f.column = true := by simp [Table.sameColumn]
  have mine : ∀ d, (Name.of f.column, d) ∈ t.spread (Store.assignments e r) →
      ∃ value, r.find? f.name = some value ∧ .ofJson value = d := by
    intro d assigned
    obtain ⟨g, listedG, value, found, stored, sameG⟩ := mem_spread_assignments.mp assigned
    have one : g = f := separated.eq_of_sameColumn listedG listed sameG same
    exact ⟨value, one ▸ found, stored⟩
  constructor
  · intro text
    cases looked : (t.filled (Store.assignments e r)).lookup (.of f.column) with
    | none => simp [Entity.added, newRow, looked] at text
    | some d =>
        obtain rfl : d = .text s := by simpa [Entity.added, newRow, looked] using text
        exact mine _ (mem_filled_text.mp (mem_of_lookup looked))
  · rintro ⟨value, found, stored⟩
    have assigned : (Name.of f.column, .text s) ∈ t.spread (Store.assignments e r) :=
      mem_spread_assignments.mpr ⟨f, listed, value, found, stored, same⟩
    obtain ⟨value', found', stored'⟩ := mine _ (added_mem assigned (by simp))
    rw [← stored', ← stored, Option.some.inj (found'.symm.trans found)]

theorem added_eq_uuid_iff (separated : e.SeparatedIn t) {f : Field}
    (listed : f ∈ e.storedFields) {u : Uuid} :
    e.added t r f.column = .text u.text ↔ r.find? f.name = some (.ofUuid u) := by
  rw [added_eq_text_iff separated listed]
  simp [Datum.ofJson_eq_text_iff]

end Rows

/-! ## The statement -/

namespace Database

variable {db db' : Database} {name name' : Name} {t t' : Table}

theorem stored?_set (stored : db.stored? name = some t) :
    (db.set name t').stored? name = some t' := by
  obtain ⟨free, -⟩ := Option.ite_none_left_eq_some.mp stored
  rw [stored?, if_neg free]
  exact if_pos rfl

theorem stored?_set_of_ne (other : name' ≠ name) :
    (db.set name t).stored? name' = db.stored? name' := by
  have same : (db.set name t).tables name' = db.tables name' := if_neg other
  rw [stored?, stored?, same]

theorem insert?_eq_some {values : Assignments} (inserted : db.insert? name values = some db') :
    ∃ t, db.stored? name = some t ∧ t.answers (values.map Prod.fst) = true ∧
      db.set name (t.adding (newRow (t.filled values))) = db' := by
  obtain ⟨t, found, inserted⟩ := Option.bind_eq_some_iff.mp inserted
  obtain ⟨⟨answers, -⟩, rows⟩ := Option.ite_none_right_eq_some.mp inserted
  exact ⟨t, found, answers, Option.some.inj rows⟩

end Database

theorem Store.insert?_of_ok {db db' : Database} {e : Entity} {r : Record} {n : Nat}
    (inserted : insert db e r = .ok (n, db')) :
    n = 1 ∧ db.insert? e.table (assignments e r) = some db' := by
  unfold insert at inserted
  split at inserted
  · cases inserted
  · cases answer : db.insert? e.table (assignments e r) with
    | none => simp [answer, ofEngine, Except.map] at inserted
    | some written =>
        simp only [answer, ofEngine, Except.map, Except.ok.injEq, Prod.mk.injEq] at inserted
        obtain ⟨rfl, rfl⟩ := inserted
        exact ⟨rfl, rfl⟩

/-- An insertion adds one row, that of the record. -/
theorem Store.insert_ok {db db' : Database} {e : Entity} {r : Record} {n : Nat}
    (inserted : insert db e r = .ok (n, db')) :
    ∃ t, db.stored? e.table = some t ∧ t.answers ((assignments e r).map Prod.fst) = true ∧ n = 1 ∧
      db.set e.table (t.adding (e.added t r)) = db' := by
  obtain ⟨one, answer⟩ := insert?_of_ok inserted
  obtain ⟨t, found, answers, rows⟩ := Database.insert?_eq_some answer
  exact ⟨t, found, answers, one, rows⟩

end ScopedAccess
