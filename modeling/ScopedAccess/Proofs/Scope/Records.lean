import ScopedAccess.Proofs.Scope.Rows
import ScopedAccess.Proofs.Sql.Insertion
/-!
# Records and the rows that they become

A scope is tested on a record before it is written and on its row ever after. The tests agree
on a record whose owners are written in canonical form (`Record.HasCanonical`): the test on a
record reads all written forms of an identifier, but the row keeps the form that the record
has, and is compared with canonical texts. So a row in a scope has come from a record in it,
but not the other way around.

* `stored_record_in_scope`: the rows of a scope are those of its records, up to the form of
  identifiers.
-/

namespace ScopedAccess

set_option autoImplicit false

/-- A record that holds an identifier in a field holds its canonical text. -/
def Record.HasCanonical (r : Record) (name : String) : Prop :=
  ∀ id, r.uuid? name = some id → r.find? name = some (.ofUuid id)

/-- A record holds its owners in canonical form. -/
def Entity.HasCanonicalOwners (e : Entity) (r : Record) : Prop :=
  ∀ f, e.ownerOrgField? = some f ∨ e.ownerField? = some f → r.HasCanonical f.name

theorem uuid?_of_find? {r : Record} {name : String} {id : Uuid}
    (found : r.find? name = some (.ofUuid id)) : r.uuid? name = some id := by
  rw [Record.uuid?, found, Json.ofUuid, Option.bind_some, Json.text?, Option.bind_some,
    Uuid.ofText?_text]

/-- A record holds an identifier in a field as a text that is read as one. -/
theorem exists_of_uuid? {r : Record} {name : String} {id : Uuid} (held : r.uuid? name = some id) :
    ∃ s, r.find? name = some (.str s) ∧ Uuid.ofText? s = some id := by
  obtain ⟨s, text, denotes⟩ := Option.bind_eq_some_iff.mp held
  obtain ⟨value, found, text⟩ := Option.bind_eq_some_iff.mp text
  cases value with
  | str s' =>
      obtain rfl := Option.some.inj text
      exact ⟨s', found, denotes⟩
  | _ => cases text

/-! ## Predicates on a row that is added -/

section Predicates

variable {db : Database} {view : List BoundRow} {rows : Bindings}

/-- A test depends on the value of its column only. -/
theorem Predicate.Tests.evaluate_eq_truth {c : Column} {p : Predicate} (tests : p.Tests c)
    (same : Database.valueOf view c = rows.value c) : p.evaluate db view = p.truth db rows := by
  cases p <;> simp_all [Tests, evaluate, truth]

theorem Predicate.evaluate_disj_eq_truth {ps : List Predicate}
    (each : ∀ p ∈ ps, p.evaluate db view = p.truth db rows) :
    (disj ps).evaluate db view = (disj ps).truth db rows := by
  have parts : ∀ qs : List Predicate, (∀ p ∈ qs, p.evaluate db view = p.truth db rows) →
      evaluateEach db view qs = truths db rows qs := by
    intro qs each
    induction qs with
    | nil => rfl
    | cons p rest ih =>
        rw [evaluateEach, truths, each p List.mem_cons_self,
          ih fun q member => each q (List.mem_cons_of_mem _ member)]
  unfold disj
  split
  · exact each _ List.mem_cons_self
  · rw [evaluate, truth, parts ps each]

end Predicates

section Adding

variable {db : Database} {e : Entity} {t : Table} {r : Record}

/-- The predicate of a scope on the row of a record, under any alias: names that the table
does not have are those of null. -/
theorem passes_added (answers : t.answers ((Store.assignments e r).map Prod.fst) = true)
    (scope : AccessScope) (label : String) :
    (scopePredicate e scope label).passes db label (t.adding (e.added t r)) (e.added t r) =
      e.inScope scope (e.added t r) := by
  have value : ∀ column, Database.valueOf [⟨.of label, t.columns, e.added t r⟩] ⟨label, column⟩ =
      Bindings.value [(.of label, e.added t r)] ⟨label, column⟩ := by
    intro column
    rw [valueOf_added answers, Bindings.value_cons]
  have same : (scopePredicate e scope label).evaluate db [⟨.of label, t.columns, e.added t r⟩] =
      (scopePredicate e scope label).truth db [(.of label, e.added t r)] := by
    rw [scopePredicate]
    split
    · simp [Predicate.evaluate, Predicate.truth]
    · split
      · simp [Predicate.evaluate, Predicate.truth]
      · refine Predicate.evaluate_disj_eq_truth fun p member => ?_
        obtain ⟨path, -, lowered⟩ := List.mem_filterMap.mp member
        obtain ⟨f, -, rfl⟩ := Option.map_eq_some_iff.mp lowered
        exact (tests_test _ path).evaluate_eq_truth (value f.column)
  calc (scopePredicate e scope label).passes db label (t.adding (e.added t r)) (e.added t r)
      = (scopePredicate e scope label).isTrueAt db [(.of label, e.added t r)] :=
        congrArg Truth.isYes same
    _ = e.inScope scope (e.added t r) := isTrueAt_scopePredicate scope

/-! ## Paths -/

theorem admitsValue_iff {path : AccessPath} {d : Datum} :
    path.admitsValue d = true ↔ ∃ id, path.admits id = true ∧ d = .text id.text := by
  cases path with
  | orgs ids => simp [AccessPath.admitsValue, AccessPath.admits, SortedSet.mem_iff]
  | owner id => simp [AccessPath.admitsValue, AccessPath.admits]

theorem leadsTo_iff {path : AccessPath} {row : Row} : path.leadsTo e row = true ↔
    ∃ f, path.field? e = some f ∧ ∃ id, path.admits id = true ∧ row f.column = .text id.text := by
  simp [AccessPath.leadsTo, Option.any_eq_true, admitsValue_iff]

theorem reaches_iff {path : AccessPath} : path.reaches e r = true ↔
    ∃ f, path.field? e = some f ∧ ∃ id, path.admits id = true ∧ r.uuid? f.name = some id := by
  simp only [AccessPath.reaches, Option.any_eq_true, Option.bind_eq_some_iff]
  constructor
  · rintro ⟨id, ⟨f, looks, found⟩, admitted⟩
    exact ⟨f, looks, id, admitted, found⟩
  · rintro ⟨f, looks, id, admitted, found⟩
    exact ⟨id, ⟨f, looks, found⟩, admitted⟩

/-- A path looks at the field of an organization or of an owner. -/
theorem owns_of_path {path : AccessPath} {f : Field} (looks : path.field? e = some f) :
    e.ownerOrgField? = some f ∨ e.ownerField? = some f := by
  cases path with
  | orgs => exact .inl looks
  | owner => exact .inr looks

theorem Entity.listed_of_storedTagged? {tag : FieldTag} {f : Field}
    (tagged : e.storedTagged? tag = some f) : f ∈ e.storedFields := by
  obtain ⟨found, stored⟩ := Option.filter_eq_some_iff.mp tagged
  exact List.mem_filter.mpr ⟨mem_of_tagged? found, stored⟩

theorem Entity.listed_of_owns {f : Field}
    (owns : e.ownerOrgField? = some f ∨ e.ownerField? = some f) : f ∈ e.storedFields :=
  owns.elim listed_of_storedTagged? listed_of_storedTagged?

/-! ## Scopes -/

/-- A path that leads to the row of a record reaches the record. -/
theorem reaches_of_leadsTo (separated : e.SeparatedIn t) {path : AccessPath}
    (leads : path.leadsTo e (e.added t r) = true) : path.reaches e r = true := by
  obtain ⟨f, looks, id, admitted, text⟩ := leadsTo_iff.mp leads
  have found := (added_eq_uuid_iff separated (Entity.listed_of_owns (owns_of_path looks))).mp text
  exact reaches_iff.mpr ⟨f, looks, id, admitted, uuid?_of_find? found⟩

/-- A path that reaches a record leads to its row if the owners are in canonical form. -/
theorem leadsTo_of_reaches (separated : e.SeparatedIn t) (canonical : e.HasCanonicalOwners r)
    {path : AccessPath} (reaches : path.reaches e r = true) :
    path.leadsTo e (e.added t r) = true := by
  obtain ⟨f, looks, id, admitted, found⟩ := reaches_iff.mp reaches
  have owns := owns_of_path looks
  have text := (added_eq_uuid_iff separated (Entity.listed_of_owns owns)).mpr
    (canonical f owns id found)
  exact leadsTo_iff.mpr ⟨f, looks, id, admitted, text⟩

theorem recordInScope_of_inScope (separated : e.SeparatedIn t) {scope : AccessScope}
    (inside : e.inScope scope (e.added t r) = true) : recordInScope e scope r = true := by
  rw [Entity.inScope, Bool.or_eq_true, List.any_eq_true] at inside
  rw [recordInScope, Bool.or_eq_true, List.any_eq_true]
  rcases inside with everything | ⟨path, member, leads⟩
  · exact .inl everything
  · exact .inr ⟨path, member, reaches_of_leadsTo separated leads⟩

theorem inScope_of_recordInScope (separated : e.SeparatedIn t)
    (canonical : e.HasCanonicalOwners r) {scope : AccessScope}
    (inside : recordInScope e scope r = true) : e.inScope scope (e.added t r) = true := by
  rw [recordInScope, Bool.or_eq_true, List.any_eq_true] at inside
  rw [Entity.inScope, Bool.or_eq_true, List.any_eq_true]
  rcases inside with everything | ⟨path, member, reaches⟩
  · exact .inl everything
  · exact .inr ⟨path, member, leadsTo_of_reaches separated canonical reaches⟩

/-- A scope of organizations and an owner has the records that hold one of them. -/
theorem recordInScope_orgsOrOwner (orgs : SortedSet Uuid) (user : Uuid) :
    recordInScope e (.orgsOrOwner orgs user) r = (e.unrestricted ||
      ((e.ownerOrgField?.any fun f => (r.uuid? f.name).any fun org => org ∈ orgs) ||
        e.ownerField?.any fun f => r.uuid? f.name = some user)) := by
  have owned : AccessPath.reaches e r (.owner user) =
      e.ownerField?.any fun f => r.uuid? f.name = some user := by
    rw [AccessPath.reaches, AccessPath.field?]
    cases e.ownerField? with
    | none => rfl
    | some f => cases held : r.uuid? f.name <;> simp [held, AccessPath.admits, eq_comm]
  have inside : AccessPath.reaches e r (.orgs orgs) =
      e.ownerOrgField?.any fun f => (r.uuid? f.name).any fun org => org ∈ orgs := by
    rw [AccessPath.reaches, AccessPath.field?]
    cases e.ownerOrgField? <;> rfl
  rw [recordInScope, AccessScope.orgsOrOwner, AccessScope.isEverything, AccessScope.alternatives,
    Bool.or_false, ← owned, ← inside]
  by_cases empty : orgs.isEmpty = true
  · have nowhere : AccessPath.reaches e r (.orgs orgs) = false := by
      rw [inside]
      have none : orgs.toList = [] := List.isEmpty_iff.mp empty
      cases e.ownerOrgField? with
      | none => rfl
      | some f => cases r.uuid? f.name <;> simp [SortedSet.mem_iff, none]
    simp [empty, nowhere]
  · simp [empty]

/-- Some principal does not own a row. -/
theorem exists_stranger (e : Entity) (row : Row) :
    ∃ user : Uuid, (e.ownerField?.any fun f => row f.column = .text user.text) = false := by
  cases looks : e.ownerField? with
  | none => exact ⟨.nil, rfl⟩
  | some f =>
      by_cases first : row f.column = .text (Uuid.text (.ofNat 0))
      · refine ⟨.ofNat 1, decide_eq_false fun second => ?_⟩
        have same := Uuid.text_inj.mp (Datum.text.inj (first.symm.trans second))
        exact absurd same (by decide)
      · exact ⟨.ofNat 0, decide_eq_false first⟩

/-- If the owners are not in canonical form, a scope of organizations or an owner has the record
and not its row. -/
theorem exists_scope_apart (separated : e.SeparatedIn t) (restricted : e.unrestricted = false)
    (foreign : ¬ e.HasCanonicalOwners r) : ∃ orgs user,
      recordInScope e (.orgsOrOwner orgs user) r = true ∧
        e.inScope (.orgsOrOwner orgs user) (e.added t r) = false := by
  unfold Entity.HasCanonicalOwners Record.HasCanonical at foreign
  push Not at foreign
  obtain ⟨f, owns, id, found, other⟩ := foreign
  have differs : ¬ e.added t r f.column = .text id.text :=
    fun text => other ((added_eq_uuid_iff separated (Entity.listed_of_owns owns)).mp text)
  rcases owns with looks | looks
  · obtain ⟨user, stranger⟩ := exists_stranger e (e.added t r)
    have only : ∀ org ∈ (SortedSet.ofList [id]).toList, org = id := fun org member =>
      List.mem_singleton.mp (SortedSet.mem_ofList.mp member)
    refine ⟨.ofList [id], user, ?_, ?_⟩
    · rw [recordInScope_orgsOrOwner]
      simp [looks, found]
    · rw [inScope_orgsOrOwner, Entity.belongsTo, stranger, restricted, looks, Bool.false_or,
        Bool.or_false, Option.any_some, List.any_eq_false]
      intro org member
      rw [only org member]
      simpa using differs
  · have none : (∅ : SortedSet Uuid).toList = [] := rfl
    refine ⟨∅, id, ?_, ?_⟩
    · rw [recordInScope_orgsOrOwner]
      simp [looks, found]
    · rw [inScope_orgsOrOwner, Entity.belongsTo, restricted, looks, none]
      cases e.ownerOrgField? <;> simp [differs]

end Adding

/-! ## Stored records -/

/-- The rows of a scope are those of its records, up to the form of identifiers: the row that a
record is stored as is in no scope that the record is not in; it is in all the others, under
any alias, if the record holds its owners in canonical form, and else it is missing from one
of them, unless the entity is unrestricted. -/
theorem stored_record_in_scope {db db' : Database} {e : Entity} {r : Record} {n : Nat}
    (separated : ∀ t, db.stored? e.table = some t → e.SeparatedIn t)
    (inserted : Store.insert db e r = .ok (n, db')) :
    ∃ t row, db.stored? e.table = some t ∧ n = 1 ∧ db' = db.set e.table (t.adding row) ∧
      (∀ scope label, (scopePredicate e scope label).passes db' label (t.adding row) row = true →
        recordInScope e scope r = true) ∧
      (e.unrestricted = true ∨ e.HasCanonicalOwners r → ∀ scope label,
        (scopePredicate e scope label).passes db' label (t.adding row) row =
          recordInScope e scope r) ∧
      (e.unrestricted = false → ¬ e.HasCanonicalOwners r → ∃ orgs user,
        recordInScope e (.orgsOrOwner orgs user) r = true ∧ ∀ label,
          (scopePredicate e (.orgsOrOwner orgs user) label).passes db' label (t.adding row) row =
            false) := by
  obtain ⟨t, found, answers, one, rfl⟩ := Store.insert_ok inserted
  have apart := separated t found
  refine ⟨t, e.added t r, found, one, rfl, ?_, ?_, ?_⟩
  · intro scope label passed
    rw [passes_added answers] at passed
    exact recordInScope_of_inScope apart passed
  · intro agreed scope label
    rw [passes_added answers]
    rcases agreed with unrestricted | canonical
    · rw [Entity.inScope, recordInScope, unrestricted, Bool.true_or, Bool.true_or, Bool.true_or]
    · exact Bool.eq_iff_iff.mpr
        ⟨recordInScope_of_inScope apart, inScope_of_recordInScope apart canonical⟩
  · intro restricted foreign
    obtain ⟨orgs, user, inside, outside⟩ := exists_scope_apart apart restricted foreign
    exact ⟨orgs, user, inside, fun label => (passes_added answers _ label).trans outside⟩

namespace Notebook

def branch : Uuid := .ofNat 0xab

/-- A note of the branch, whose identifier is written with capital digits. -/
def capitals : Record :=
  .ofList [("id", .str "7"), ("org", .str "00000000-0000-0000-0000-0000000000AB")]

theorem capitals_inserted :
    ∃ written, Store.insert (database [] []) notes capitals = .ok written := by
  apply exists_of_isOk
  decide +kernel

end Notebook

open Notebook in
/-- A note with capital digits is in a scope that its row is missing from. -/
theorem capitals_miss_a_scope : ∃ n db', ∃ t : Table, ∃ row, Store.insert (database [] []) notes capitals =
      .ok (n, db') ∧ db' = (database [] []).set notes.table (t.adding row) ∧
      ∃ orgs user, recordInScope notes (.orgsOrOwner orgs user) capitals = true ∧ ∀ label,
        (scopePredicate notes (.orgsOrOwner orgs user) label).passes db' label (t.adding row) row =
          false := by
  obtain ⟨⟨n, db'⟩, inserted⟩ := capitals_inserted
  obtain ⟨t, row, -, -, added, -, -, apart⟩ := stored_record_in_scope
    (fun t stored => Option.some.inj ((stored?_notes [] []).symm.trans stored) ▸ notes_separated _)
    inserted
  have foreign : ¬ notes.HasCanonicalOwners capitals := by
    intro canonical
    have held := canonical ⟨"org", "org_id", [.ownerOrg], none⟩ (.inl (by decide +kernel)) branch
      (by decide +kernel)
    exact absurd (congrArg (Option.bind · Json.text?) held) (by decide +kernel)
  exact ⟨n, db', t, row, inserted, added, apart rfl foreign⟩

open Notebook in
/-- The scope of the branch has a note with capital digits, and not the row that it is stored
as. -/
theorem capitals_leave_scope :
    (Store.columns notes).Nodup ∧
    recordInScope notes (.orgsOrOwner (.ofList [branch]) .nil) capitals = true ∧
    ((Store.insert (database [] []) notes capitals).toOption.bind fun (_, db) =>
      (db.stored? notes.table).map fun t => t.rows.map fun row =>
        (scopePredicate notes (.orgsOrOwner (.ofList [branch]) .nil) notes.table).passes
          db notes.table t row) = some [false] := by
  decide +kernel

end ScopedAccess
