import ScopedAccess.Filter.Meaning
import ScopedAccess.Proofs.Filter.Links
import ScopedAccess.Proofs.Filter.Meaning
/-!
# The rows that columns stand for

A database resolves a column to the innermost table in view that has its alias and the
column. When a table lacks the column, the column goes to an enclosing table of the same
alias, and the statement means something else: a table may be called what a subquery is.
Where the tables of a schema have the columns of their entities (`Database.Fits`) this
does not happen, since every column of a compiled filter is then one of the innermost
table under its alias (`Predicate.Resolves`).

* `Predicate.evaluate_eq_truth`: a predicate whose columns resolve is evaluated by the
  rows of its aliases alone;
* `Predicate.Follows.passes`: where tables fit their entities, this is so for the predicates
  that follow links;
* `compile_meaning`: a compiled filter passes the rows of a table that the filter holds of.
-/

namespace ScopedAccess

set_option autoImplicit false

open ScopedAccess.Filter

/-! ## Views -/

/-- The innermost table under the alias of a column has the column. -/
def Database.View.Answers (view : Database.View) (c : Column) : Prop :=
  ∃ columns, view.lookup (.of c.label) = some columns ∧ Name.isAnsweredBy columns c.name = true

theorem Database.View.answers_cons {view : Database.View} {label name : String}
    {columns : List Name} (answered : Name.isAnsweredBy columns name = true) :
    Answers ((.of label, columns) :: view) ⟨label, name⟩ :=
  ⟨columns, List.lookup_cons_self, answered⟩

/-- The tables of the rows in view. -/
def tablesOf (view : List BoundRow) : Database.View := view.map fun r => (r.label, r.columns)

/-- What aliases stand for where these rows are in view. -/
def bindingsOf (view : List BoundRow) : Bindings := view.map fun r => (r.label, r.row)

theorem valueOf_eq {view : List BoundRow} {c : Column} (answers : (tablesOf view).Answers c) :
    Database.valueOf view c = (bindingsOf view).value c := by
  obtain ⟨columns, looked, answered⟩ := answers
  induction view with
  | nil => simp [tablesOf] at looked
  | cons r rest ih =>
      simp only [tablesOf, List.map_cons, List.lookup_cons] at looked
      unfold Database.valueOf Bindings.value
      simp only [bindingsOf, List.map_cons, List.lookup_cons, List.find?_cons]
      by_cases same : r.label = Name.of c.label
      · have here : (Name.of c.label == r.label) = true := by simp [same]
        simp only [here, Option.some.injEq] at looked
        simp [same, looked, answered]
      · have elsewhere : (Name.of c.label == r.label) = false := by simp [Ne.symm same]
        simp only [elsewhere] at looked
        simpa [same, elsewhere, Database.valueOf, Bindings.value, bindingsOf] using ih looked

/-- The name of a catalogue is one that the database keeps for itself. -/
theorem Database.table?_of_free {db : Database} {name : Name} (free : name.isReserved = false) :
    db.table? name = db.tables name := by
  have reserved : ∀ n ∈ Catalogue.names ++ Catalogue.temporaryNames, n.isReserved = true := by
    decide +kernel
  have unlisted : ∀ names : List Name, names ⊆ Catalogue.names ++ Catalogue.temporaryNames →
      names.contains name = false := by
    intro names within
    refine Bool.eq_false_iff.mpr fun listed => ?_
    have kept := reserved name (within (List.contains_iff_mem.mp listed))
    simp [free] at kept
  rw [table?, unlisted _ (List.subset_append_left _ _), unlisted _ (List.subset_append_right _ _),
    stored?, free]
  rfl

/-- A table that can be written can be read. -/
theorem Database.table?_of_stored? {db : Database} {name : Name} {t : Table}
    (stored : db.stored? name = some t) : db.table? name = some t := by
  unfold Database.stored? at stored
  split at stored
  · cases stored
  · rename_i free
    rw [table?_of_free (Bool.eq_false_iff.mpr free)]
    exact stored

/-! ## Predicates -/

namespace Predicate

mutual

/-- Every column of a predicate is one of the innermost table under its alias. -/
def Resolves (db : Database) (view : Database.View) : Predicate → Prop
  | .compare c _ _ | .among c _ _ | .null c _ | .like c _ | .between c _ _ => view.Answers c
  | .subquery c s filter => view.Answers c ∧ ∀ t, db.table? s.table = some t →
      Name.isAnsweredBy t.columns s.column = true ∧
        filter.Resolves db ((.of s.label, t.columns) :: view)
  | .all parts | .any parts => ResolveEach db view parts
  | .const _ => True

def ResolveEach (db : Database) (view : Database.View) : List Predicate → Prop
  | [] => True
  | p :: rest => p.Resolves db view ∧ ResolveEach db view rest

end

variable {db : Database}

theorem resolveEach_iff {view : Database.View} {ps : List Predicate} :
    ResolveEach db view ps ↔ ∀ p ∈ ps, p.Resolves db view := by
  induction ps with
  | nil => simp [ResolveEach]
  | cons p rest ih => rw [ResolveEach, ih, List.forall_mem_cons]

theorem resolves_all {view : Database.View} {ps : List Predicate} :
    (all ps).Resolves db view ↔ ∀ p ∈ ps, p.Resolves db view := by
  rw [Resolves, resolveEach_iff]

theorem resolves_any {view : Database.View} {ps : List Predicate} :
    (any ps).Resolves db view ↔ ∀ p ∈ ps, p.Resolves db view := by
  rw [Resolves, resolveEach_iff]

mutual

/-- Where columns resolve, a predicate is evaluated by the rows of its aliases. -/
theorem evaluate_eq_truth : ∀ {p : Predicate} {view : List BoundRow},
    p.Resolves db (tablesOf view) → p.evaluate db view = p.truth db (bindingsOf view)
  | .compare c op value, view, resolves => by
      rw [evaluate, truth, valueOf_eq (by rwa [Resolves] at resolves)]
  | .among c values negated, view, resolves => by
      rw [evaluate, truth, valueOf_eq (by rwa [Resolves] at resolves)]
  | .null c negated, view, resolves => by
      rw [evaluate, truth, valueOf_eq (by rwa [Resolves] at resolves)]
  | .like c pattern, view, resolves => by
      rw [evaluate, truth, valueOf_eq (by rwa [Resolves] at resolves)]
  | .between c lower upper, view, resolves => by
      rw [evaluate, truth, valueOf_eq (by rwa [Resolves] at resolves)]
  | .subquery c s filter, view, resolves => by
      rw [Resolves] at resolves
      obtain ⟨answers, inner⟩ := resolves
      rw [evaluate, truth, valueOf_eq answers]
      congr 1
      unfold Database.rowsOf Database.rows
      cases found : db.table? s.table with
      | none => rfl
      | some t =>
          obtain ⟨answered, resolved⟩ := inner t found
          simp only [Option.map_some, Option.getD_some, List.filter_map, List.map_map]
          have same : ∀ row : Row,
              filter.evaluate db (⟨.of s.label, t.columns, row⟩ :: view) =
                filter.truth db ((.of s.label, row) :: bindingsOf view) :=
            fun row => evaluate_eq_truth resolved
          have selected : ∀ row : Row,
              Database.valueOf (⟨.of s.label, t.columns, row⟩ :: view) ⟨s.label, s.column⟩ =
                row s.column := by
            intro row
            have answers : (tablesOf (⟨.of s.label, t.columns, row⟩ :: view)).Answers
                ⟨s.label, s.column⟩ := Database.View.answers_cons answered
            exact (valueOf_eq answers).trans (Bindings.value_cons _ _ _ _)
          simp only [Function.comp_def, same, selected]
  | .all parts, view, resolves => by
      rw [Resolves] at resolves
      rw [evaluate, truth, evaluateEach_eq_truths resolves]
  | .any parts, view, resolves => by
      rw [Resolves] at resolves
      rw [evaluate, truth, evaluateEach_eq_truths resolves]
  | .const b, view, _ => by rw [evaluate, truth]

theorem evaluateEach_eq_truths : ∀ {ps : List Predicate} {view : List BoundRow},
    ResolveEach db (tablesOf view) ps → evaluateEach db view ps = truths db (bindingsOf view) ps
  | [], view, _ => rfl
  | p :: rest, view, resolve => by
      rw [ResolveEach] at resolve
      rw [evaluateEach, truths, evaluate_eq_truth resolve.1, evaluateEach_eq_truths resolve.2]

end

end Predicate

/-! ## Schemas and their tables -/

/-- A table with these columns has a value for every stored field of an entity. -/
def Entity.AnsweredBy (e : Entity) (columns : List Name) : Prop :=
  ∀ column, e.Stores column → Name.isAnsweredBy columns column = true

/-- The tables of an entity, where there are any, have the columns that it gives them. -/
structure Entity.FitsIn (e : Entity) (db : Database) : Prop where
  answered : ∀ t, db.table? e.table = some t → e.AnsweredBy t.columns
  /-- Join tables have both of their keys. -/
  joined : ∀ join, e.Joins join → ∀ t, db.table? join.table = some t →
    Name.isAnsweredBy t.columns join.sourceKey = true ∧
      Name.isAnsweredBy t.columns join.targetKey = true

/-- A table made of the columns of an entity has a value for each. -/
theorem Entity.answeredBy_storedFields (e : Entity) :
    e.AnsweredBy (e.storedFields.map fun f => .of f.column) := by
  rintro column ⟨f, member, stored, rfl⟩
  have listed : Name.of f.column ∈ e.storedFields.map fun f => .of f.column :=
    List.mem_map.mpr ⟨f, List.mem_filter.mpr ⟨member, stored⟩, rfl⟩
  simp [Name.isAnsweredBy, listed]

/-- The tables of a database fit the entities of a registry. -/
def Database.Fits (db : Database) (registry : Registry) : Prop :=
  ∀ name e, registry.find? name = some e → e.FitsIn db

namespace Predicate

theorem Tests.resolves {db : Database} {view : Database.View} {c : Column} {p : Predicate}
    (tests : p.Tests c) (answers : view.Answers c) : p.Resolves db view := by
  cases p with
  | compare | among | null | like | between =>
      rw [Resolves]
      exact tests ▸ answers
  | const => trivial
  | _ => cases tests

/-- Where tables fit their entities, the columns of a predicate that follows links resolve. -/
theorem Follows.resolves {registry : Registry} {tables : List String} {db : Database} {e : Entity}
    {label : String} {p : Predicate} (follows : p.Follows registry tables e label)
    (fits : db.Fits registry) (own : e.FitsIn db) {columns : List Name}
    (answered : e.AnsweredBy columns) (view : Database.View) :
    p.Resolves db ((.of label, columns) :: view) := by
  induction follows generalizing columns view with
  | test stores tests => exact tests.resolves (Database.View.answers_cons (answered _ stores))
  | const => trivial
  | all _ ih => exact resolves_all.mpr fun p member => ih p member own answered view
  | any _ ih => exact resolves_any.mpr fun p member => ih p member own answered view
  | direct link _ _ ih =>
      rw [Resolves]
      refine ⟨Database.View.answers_cons (answered _ link.localColumn), ?_⟩
      intro t found
      have target := fits _ _ link.target
      have inner := target.answered t found
      exact ⟨inner _ link.foreignColumn, ih target inner _⟩
  | joined link join _ _ _ ih =>
      obtain ⟨f, member, related⟩ := link.relation
      rw [Resolves]
      refine ⟨Database.View.answers_cons (answered _ link.localColumn), ?_⟩
      intro between foundBetween
      obtain ⟨source, target⟩ := own.joined _ ⟨f, member, _, related, join⟩ between foundBetween
      rw [Resolves]
      refine ⟨source, Database.View.answers_cons target, ?_⟩
      intro t found
      have fitting := fits _ _ link.target
      have inner := fitting.answered t found
      exact ⟨inner _ link.foreignColumn, ih fitting inner _⟩

/-- A predicate that follows no link needs no other table. -/
theorem Follows.resolves_local {registry : Registry} {tables : List String} {db : Database}
    {e : Entity} {label : String} {p : Predicate} (follows : p.Follows registry tables e label)
    (nowhere : tables = []) {columns : List Name} (answered : e.AnsweredBy columns)
    (view : Database.View) : p.Resolves db ((.of label, columns) :: view) := by
  induction follows with
  | test stores tests => exact tests.resolves (Database.View.answers_cons (answered _ stores))
  | const => trivial
  | all _ ih => exact resolves_all.mpr fun p member => ih p member answered
  | any _ ih => exact resolves_any.mpr fun p member => ih p member answered
  | direct _ member _ _ => exact absurd (nowhere ▸ member) List.not_mem_nil
  | joined _ _ member _ _ _ => exact absurd (nowhere ▸ member) List.not_mem_nil

end Predicate

/-! ## The rows that a filter passes -/

/-- Rows pass a predicate that follows links by the rows of its aliases alone. -/
theorem Predicate.Follows.passes {registry : Registry} {tables : List String} {db : Database}
    {e : Entity} {p : Predicate} (follows : p.Follows registry tables e e.table)
    (fits : db.Fits registry) (own : e.FitsIn db) {t : Table} (found : db.table? e.table = some t)
    (row : Row) : p.passes db e.table t row = p.isTrueAt db [(.of e.table, row)] := by
  have resolves : p.Resolves db (tablesOf [⟨.of e.table, t.columns, row⟩]) :=
    follows.resolves fits own (own.answered t found) []
  rw [Predicate.passes, evaluate_eq_truth resolves]
  rfl

section Compilation

variable {registry : Registry} {maxDepth : Nat} {e : Entity} {filter : Json} {f : CompiledFilter}

/-- A compiled filter is true of a row that the alias of its entity stands for exactly where
the filter holds of the row. -/
theorem compile_isTrueAt (compiled : compile registry maxDepth e filter = .ok f) (db : Database)
    (row : Row) : f.predicate.isTrueAt db [(.of e.table, row)] =
      Filter.holds registry db e row filter := by
  rw [CompiledFilter.isTrueAt_predicate]
  rcases compile_derivation compiled with ⟨rfl, rfl⟩ | ⟨members, g, rfl, rfl, derived⟩
  · rfl
  · rw [CompiledFilter.isTrueAt_merged]
    exact derived.meaning [] row

/-- Compilation keeps the meaning of a filter: where the aliases of the predicate stand for
rows, and where a database resolves its columns, if the tables fit the schema. -/
theorem compile_meaning (compiled : compile registry maxDepth e filter = .ok f) (db : Database) :
    (∀ row, f.predicate.isTrueAt db [(.of e.table, row)] =
      Filter.holds registry db e row filter) ∧
    (db.Fits registry → e.FitsIn db → ∀ t, db.table? e.table = some t →
      ∀ row, f.predicate.passes db e.table t row = Filter.holds registry db e row filter) := by
  refine ⟨compile_isTrueAt compiled db, ?_⟩
  intro fits own t found row
  rw [(compile_follows compiled).predicate.passes fits own found]
  exact compile_isTrueAt compiled db row

end Compilation

/-! ## Notes in folders -/

namespace Notebook

/-- Folders belong to organizations. -/
def folders : Entity where
  name := "folder"
  table := "folders"
  unrestricted := false
  fields := [⟨"id", "id", [.primaryKey], none⟩, ⟨"label", "label", [], none⟩,
    ⟨"org", "org_id", [.ownerOrg], none⟩]
  wellTagged := ⟨by decide, by decide, by decide⟩

/-- Notes belong to organizations, lie in folders and can be marked as deleted. -/
def notes : Entity where
  name := "note"
  table := "notes"
  unrestricted := false
  fields := [⟨"id", "id", [.primaryKey], none⟩, ⟨"title", "title", [], none⟩,
    ⟨"folder_id", "folder_id", [], none⟩,
    ⟨"folder", "folder", [], some (.ownedReference "folder" "folder_id")⟩,
    ⟨"org", "org_id", [.ownerOrg], none⟩, ⟨"editor", "editor_id", [.lastModifier], none⟩,
    ⟨"pin", "pin", [.secret], none⟩, ⟨"deleted", "deleted_at", [.softDelete], none⟩]
  wellTagged := ⟨by decide, by decide, by decide⟩

def registry : Registry := ⟨.ofList [("folder", folders), ("note", notes)]⟩

/-- The table of an entity with some rows. -/
def tableOf (e : Entity) (rows : List Row) : Table :=
  ⟨e.storedFields.map fun f => .of f.column, some (.of e.primaryKey.column), rows⟩

/-- A database with folders and notes. -/
def database (inFolders inNotes : List Row) : Database where
  tables n :=
    if n = .of "folders" then some (tableOf folders inFolders)
    else if n = .of "notes" then some (tableOf notes inNotes)
    else none
  catalogue := []
  readOnly := false
  limits := none

theorem entity_of_find? {name : String} {e : Entity} (found : registry.find? name = some e) :
    e = folders ∨ e = notes := by
  simp only [registry, Registry.find?, SortedMap.ofList, List.foldl_cons, List.foldl_nil,
    SortedMap.find?_insert, SortedMap.find?_empty] at found
  split at found
  · exact .inr (Option.some.inj found).symm
  · split at found
    · exact .inl (Option.some.inj found).symm
    · cases found

theorem table?_folders (inFolders inNotes : List Row) :
    (database inFolders inNotes).table? "folders" = some (tableOf folders inFolders) := by
  rw [Database.table?_of_free (by decide +kernel)]
  exact if_pos rfl

theorem table?_notes (inFolders inNotes : List Row) :
    (database inFolders inNotes).table? "notes" = some (tableOf notes inNotes) := by
  rw [Database.table?_of_free (by decide +kernel)]
  exact (if_neg (by decide +kernel)).trans (if_pos rfl)

theorem stored?_notes (inFolders inNotes : List Row) :
    (database inFolders inNotes).stored? notes.table = some (tableOf notes inNotes) := by
  have free : (Name.of notes.table).isReserved = false := by decide +kernel
  rw [Database.stored?, free, if_neg Bool.false_ne_true]
  exact (if_neg (by decide +kernel)).trans (if_pos rfl)

theorem unjoined {e : Entity} (known : e = folders ∨ e = notes) (join : JoinTable) :
    ¬ e.Joins join := by
  rintro ⟨f, member, r, related, joined⟩
  have direct : (e.fields.all fun f => f.relation.all fun r => r.join.isNone) = true := by
    rcases known with rfl | rfl <;> decide
  simpa [related, joined] using List.all_eq_true.mp direct f member

theorem fitsIn (inFolders inNotes : List Row) {e : Entity} (known : e = folders ∨ e = notes) :
    e.FitsIn (database inFolders inNotes) := by
  refine ⟨?_, fun join joins => absurd joins (unjoined known join)⟩
  intro t found
  rcases known with rfl | rfl
  · rw [show folders.table = "folders" from rfl, table?_folders, Option.some.injEq] at found
    exact found ▸ folders.answeredBy_storedFields
  · rw [show notes.table = "notes" from rfl, table?_notes, Option.some.injEq] at found
    exact found ▸ notes.answeredBy_storedFields

theorem fits (inFolders inNotes : List Row) : (database inFolders inNotes).Fits registry :=
  fun _ _ found => fitsIn inFolders inNotes (entity_of_find? found)

/-- A folder of an organization. -/
def folder (id label org : String) : Row :=
  newRow [("id", .text id), ("label", .text label), ("org_id", .text org)]

/-- A note of an organization in a folder. -/
def note (id title folder org : String) : Row :=
  newRow [("id", .text id), ("title", .text title), ("folder_id", .text folder),
    ("org_id", .text org)]

/-- Asks for the notes in folders that are labelled as plans. -/
def inPlans : Json := .obj [("folder", .obj [("label", .str "Plans")])]

theorem inPlans_compiles : ∃ f, compile registry defaultMaxDepth notes inPlans = .ok f := by
  apply exists_of_isOk
  decide +kernel

end Notebook

open Notebook in
/-- A note is found by the label of its folder. -/
theorem note_in_plans_passes : ∃ f,
    compile registry defaultMaxDepth notes inPlans = .ok f ∧
      f.predicate.passes (database [folder "1" "Plans" "o"] [note "7" "Sketch" "1" "o"])
        notes.table (tableOf notes [note "7" "Sketch" "1" "o"]) (note "7" "Sketch" "1" "o") =
          true := by
  obtain ⟨f, compiled⟩ := inPlans_compiles
  refine ⟨f, compiled, ?_⟩
  rw [(compile_meaning compiled _).2 (fits _ _) (fitsIn _ _ (.inr rfl)) _ (table?_notes _ _)]
  decide +kernel

end ScopedAccess
