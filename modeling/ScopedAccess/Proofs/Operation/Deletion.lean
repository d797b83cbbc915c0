import ScopedAccess.Proofs.Operation.Keeping
import ScopedAccess.Proofs.Operation.Narrowing
import ScopedAccess.Proofs.Operation.Provenance
/-!
# Rows that are marked as deleted

Where the entity has a mark of deletion, the statements of its operations look at rows without the
mark only, whoever the actor is and whatever the filter of the client says. So a row that has got
the mark keeps it, with all its other values: updates and deletes change the rows that their
statements look at, deletes mark them and remove none, and a create that takes the key of a marked
row is refused. Queries neither show marked rows nor count them.

* `deleted_rows_frozen`: what becomes of marked rows over runs of operations.
-/

namespace ScopedAccess

set_option autoImplicit false

/-! ## Tables that go on -/

/-- A table goes on as another. Every row keeps its place, and the rows that have a value in a
column are as they were. -/
structure Table.Continues (mark : Name) (t t' : Table) : Prop where
  columns : t'.columns = t.columns
  key : t'.key = t.key
  rows : ∀ (i : Nat) row, t.rows[i]? = some row →
    ∃ row', t'.rows[i]? = some row' ∧ (row mark ≠ .null → row' = row)

namespace Table

variable {mark key : Name} {t t' t'' : Table}

theorem Continues.refl (mark : Name) (t : Table) : t.Continues mark t :=
  ⟨rfl, rfl, fun _ row there => ⟨row, there, fun _ => rfl⟩⟩

theorem Continues.trans (first : t.Continues mark t') (then_ : t'.Continues mark t'') :
    t.Continues mark t'' := by
  refine ⟨then_.columns.trans first.columns, then_.key.trans first.key, fun i row there => ?_⟩
  obtain ⟨row', there', same⟩ := first.rows i row there
  obtain ⟨row'', there'', same'⟩ := then_.rows i row' there'
  refine ⟨row'', there'', fun marked => ?_⟩
  obtain rfl := same marked
  exact same' marked

theorem continues_adding (row : Row) : t.Continues mark (t.adding row) :=
  ⟨rfl, rfl, fun i row' there => ⟨row', by
    rw [adding, List.getElem?_append_left (List.getElem?_eq_some_iff.mp there).1, there],
    fun _ => rfl⟩⟩

/-- To change rows without the mark leaves those with it as they are. -/
theorem continues_changing {wanted : Row → Bool} (values : Assignments)
    (unmarked : ∀ row, wanted row = true → row mark = .null) :
    t.Continues mark (t.changing wanted values) := by
  refine ⟨rfl, rfl, fun i row there => ?_⟩
  refine ⟨if wanted row then changedRow (t.spread values) row else row, ?_, fun marked => ?_⟩
  · rw [changing, List.getElem?_map, there]
    rfl
  · exact if_neg fun passes => marked (unmarked row passes)

/-- A row that has the mark is still there. -/
theorem Continues.mem {row : Row} (continues : t.Continues mark t') (member : row ∈ t.rows)
    (marked : row mark ≠ .null) : row ∈ t'.rows := by
  obtain ⟨i, there⟩ := List.mem_iff_getElem?.mp member
  obtain ⟨row', there', same⟩ := continues.rows i row there
  obtain rfl := same marked
  exact List.mem_of_getElem? there'

/-- Rows of one key are one row. -/
theorem eq_of_key {row row' : Row} (unique : isUnique t.rows key = true) (member : row ∈ t.rows)
    (member' : row' ∈ t.rows) (same : row' key = row key) : row' = row := by
  simp only [isUnique, Bool.and_eq_true, decide_eq_true_eq] at unique
  exact List.inj_on_of_nodup_map unique.2 member' member same

end Table

/-! ## One operation -/

/-- A client is told of the rows found: those of its page are shown, each as the hook of the entity
leaves it and without its secrets, and all of them are counted if it asks for that. -/
def Outcome.Shows (outcome : Outcome) (setting : Setting) (actor : Actor) (e : Entity) (page : Page)
    (found : List Row) : Prop :=
  ∃ records journal journal',
    ((((found.drop page.offset).take (setting.limits.pageLimit page.limit)).map
      (Store.recordOf e)).mapM (setting.lifecycle.reveal e actor)).run journal =
        (.ok records, journal') ∧
    outcome = ⟨records.map e.redact, if page.withTotal then some found.length else none, 0⟩

/-- A client is told of rows without a mark at most. -/
def Outcome.Spares (outcome : Outcome) (setting : Setting) (actor : Actor) (e : Entity)
    (request : Request) (mark : Name) (t : Table) : Prop :=
  if request.phase = .query then
    ∃ wanted : Row → Bool, (∀ row, wanted row = true → row mark = .null) ∧
      outcome.Shows setting actor e request.page
        (inOrderOf e.primaryKey.column (t.rows.filter wanted))
  else outcome.rows = [] ∧ outcome.total = none

/-- What an operation may make of a table, if the rows with a mark are out of its reach. A create
adds a row, and others, deletes among them, leave every row in its place and add none. -/
structure Request.Leaves (request : Request) (mark : Name) (t t' : Table) : Prop where
  continues : t.Continues mark t'
  sameNumber : request.phase ≠ .create → t'.rows.length = t.rows.length

section Operations

variable {setting : Setting} {w w' begin : World} {actor : Actor} {name : String}
  {request : Request} {e : Entity} {f : Field} {t : Table} {outcome : Outcome} {key : Name}

theorem null_of_passes {table column : String} {db : Database} {row : Row}
    (answered : Name.isAnsweredBy t.columns column = true)
    (passes : (Predicate.null ⟨table, column⟩ false).passes db table t row = true) :
    row column = .null := by
  have value : Database.valueOf [⟨.of table, t.columns, row⟩] ⟨table, column⟩ = row column := by
    simp [Database.valueOf, answered]
  rw [Predicate.passes, Predicate.evaluate, value, Truth.isYes_ofBool] at passes
  simpa using passes

/-- An operation but a create acts on rows that are not marked as deleted. -/
theorem exists_actsOn_unmarked (registered : setting.registry.find? name = some e)
    (reaches : request.phase ≠ .create) (mark : e.tagged? .softDelete = some f)
    (told : (w.perform setting .builtin actor name request).1 = .ok outcome) :
    ∃ changes wanted, w.ActsOn setting request e actor changes wanted outcome
        (w.perform setting .builtin actor name request).2.db ∧
      ∀ t row, Name.isAnsweredBy t.columns f.column = true → wanted t row = true →
        row f.column = .null := by
  have ordered : ((Builtin.leading request.phase).map Link.engine).filterMap Link.builtin? =
      Builtin.leading request.phase := by
    rw [List.filterMap_map]
    exact List.filterMap_some
  have chain : Callbacks.builtin.chain request.phase =
      ((Builtin.leading request.phase).map Link.engine).map Link.callback ++
        Callbacks.closing request.phase := by
    cases request.phase <;> rfl
  obtain ⟨_, s, wanted, -, -, -, which, acts⟩ :=
    exists_actsOn registered reaches ordered chain told
  refine ⟨_, wanted, acts, fun t row answered passes => ?_⟩
  have hides : Predicate.null ⟨e.table, f.column⟩ false ∈
      (Operation.start request e actor).guards (w.used? setting e actor) := by
    rw [Operation.guards_eq, show (Operation.start request e actor).entity = e from rfl,
      Entity.undeleted?, mark]
    exact List.mem_append_right _ (List.mem_singleton.mpr rfl)
  exact null_of_passes answered (((which t row).mp passes).2.1 _ hides)

/-- A create leaves the rows of its table, and tells of none. -/
theorem leaves_of_create {s' : Session} (creates : request.phase = .create)
    (stored : w.db.stored? e.table = some t)
    (ran : Session.runChain setting (Callbacks.builtin.chain .create)
      ⟨.start request e actor, w⟩ = (.ok (), s')) :
    (∃ t', s'.world.db.stored? e.table = some t' ∧ request.Leaves f.column t t') ∧
      s'.operation.outcome.Spares setting actor e request f.column t := by
  obtain ⟨record, -, -, ⟨n, tells⟩, after⟩ := exists_of_create ran
  constructor
  · rcases after with same | ⟨t₁, stored₁, adds⟩
    · exact ⟨t, same ▸ stored, .refl _ t, fun _ => rfl⟩
    · obtain rfl := Option.some.inj (stored.symm.trans stored₁)
      exact ⟨_, adds ▸ Database.stored?_set stored, Table.continues_adding _,
        fun others => absurd creates others⟩
  · rw [Outcome.Spares, creates, if_neg (by decide), tells]
    exact ⟨rfl, rfl⟩

/-- Where only rows without the mark are acted on, the marked rows of a table are left. -/
theorem leaves_of_actsOn {changes : Record} {wanted : Table → Row → Bool} {db : Database}
    (mark : e.tagged? .softDelete = some f) (stored : w.db.stored? e.table = some t)
    (unmarked : ∀ row, wanted t row = true → row f.column = .null)
    (acts : w.ActsOn setting request e actor changes wanted outcome db) :
    (∃ t', db.stored? e.table = some t' ∧ request.Leaves f.column t t') ∧
      outcome.Spares setting actor e request f.column t := by
  cases acts with
  | @found t₁ records journal journal' phase there revealed =>
      obtain rfl := Option.some.inj ((Database.table?_of_stored? stored).symm.trans there)
      refine ⟨⟨t, stored, .refl _ t, fun _ => rfl⟩, ?_⟩
      rw [Outcome.Spares, if_pos phase]
      refine ⟨wanted t, unmarked, records, journal, journal', revealed, ?_⟩
      rw [(inOrderOf_perm _ _).length_eq, List.countP_eq_length_filter]
  | changed phase stored₁ =>
      obtain rfl := Option.some.inj (stored.symm.trans stored₁)
      refine ⟨⟨_, Database.stored?_set stored, Table.continues_changing _ unmarked,
        fun _ => List.length_map _⟩, ?_⟩
      rw [Outcome.Spares, phase, if_neg (by decide)]
      exact ⟨rfl, rfl⟩
  | strayed phase =>
      refine ⟨⟨t, stored, .refl _ t, fun _ => rfl⟩, ?_⟩
      rw [Outcome.Spares, phase, if_neg (by decide)]
      exact ⟨rfl, rfl⟩
  | marked phase _ stored₁ =>
      obtain rfl := Option.some.inj (stored.symm.trans stored₁)
      refine ⟨⟨_, Database.stored?_set stored, Table.continues_changing _ unmarked,
        fun _ => List.length_map _⟩, ?_⟩
      rw [Outcome.Spares, phase, if_neg (by decide)]
      exact ⟨rfl, rfl⟩
  | removed phase without =>
      rw [mark] at without
      cases without

/-- An operation leaves the rows that are marked as deleted as they are, and tells of others
only. -/
theorem leaves_perform (registered : setting.registry.find? name = some e)
    (mark : e.tagged? .softDelete = some f) (stored : w.db.stored? e.table = some t)
    (answered : Name.isAnsweredBy t.columns f.column = true) :
    (∃ t', (w.perform setting .builtin actor name request).2.db.stored? e.table = some t' ∧
      request.Leaves f.column t t') ∧
    ∀ outcome, (w.perform setting .builtin actor name request).1 = .ok outcome →
      outcome.Spares setting actor e request f.column t := by
  rcases told : (w.perform setting .builtin actor name request).1 with failure | outcome
  · rw [perform_failed registered told]
    exact ⟨⟨t, stored, .refl _ t, fun _ => rfl⟩, nofun⟩
  · have leaves : (∃ t', (w.perform setting .builtin actor name request).2.db.stored? e.table =
        some t' ∧ request.Leaves f.column t t') ∧
          outcome.Spares setting actor e request f.column t := by
      by_cases creates : request.phase = .create
      · obtain ⟨s', ran, rfl, left⟩ := exists_of_perform_ok registered told
        rw [left]
        rw [creates] at ran
        exact leaves_of_create creates stored ran
      · obtain ⟨changes, wanted, acts, unmarked⟩ :=
          exists_actsOn_unmarked registered creates mark told
        exact leaves_of_actsOn mark stored (fun row => unmarked t row answered) acts
    refine ⟨leaves.1, fun outcome' told' => ?_⟩
    cases told'
    exact leaves.2

/-! ## Runs -/

/-- Where operations on an entity lead from a world, each by whatever actor and in whatever setting.
In between anything may change but the table of the entity. -/
inductive Operated (e : Entity) (begin : World) : World → Prop
  | start {w : World} (same : w.db.stored? e.table = begin.db.stored? e.table) :
      Operated e begin w
  | operation {w w' : World} {setting : Setting} {name : String} (operated : Operated e begin w)
      (registered : setting.registry.find? name = some e) (actor : Actor) (request : Request)
      (same : w'.db.stored? e.table =
        (w.perform setting .builtin actor name request).2.db.stored? e.table) :
      Operated e begin w'

/-- Over a run of operations the rows that are marked as deleted stay as they are. -/
theorem Operated.continues (mark : e.tagged? .softDelete = some f)
    (stored : begin.db.stored? e.table = some t)
    (answered : Name.isAnsweredBy t.columns f.column = true) (operated : Operated e begin w) :
    ∃ t', w.db.stored? e.table = some t' ∧ t.Continues f.column t' := by
  induction operated with
  | start same => exact ⟨t, same.trans stored, .refl _ t⟩
  | operation _ registered actor request same ih =>
      obtain ⟨t', stored', continues⟩ := ih
      obtain ⟨⟨t'', stored'', leaves⟩, -⟩ :=
        leaves_perform registered mark stored' (continues.columns ▸ answered)
      exact ⟨t'', same.trans stored'', continues.trans leaves.continues⟩

/-- Over a run of operations a table keeps its key. -/
theorem Operated.keepsKey (kept : begin.db.KeepsKey e.table) (operated : Operated e begin w) :
    w.db.KeepsKey e.table := by
  induction operated with
  | start same => exact fun t stored => kept t (same.symm.trans stored)
  | operation _ _ actor request same ih =>
      exact fun t stored => perform_keeps (maintains_key e.table) ih t (same.symm.trans stored)

/-- Rows that are marked as deleted are frozen. Whatever is done on an entity that has a mark of
deletion, by whatever actors, a row that has got the mark stays in its place with all its values
from then on, and no other row gets its key. Of an operation a client is told of rows without the
mark only: a query neither shows a marked row nor counts it. Nothing but a create changes the number
of rows, so that no delete removes any. -/
theorem deleted_rows_frozen (mark : e.tagged? .softDelete = some f)
    (stored : begin.db.stored? e.table = some t)
    (answered : Name.isAnsweredBy t.columns f.column = true)
    (keyed : t.key = some (.of e.primaryKey.column)) (unique : t.keepsKey t.rows = true)
    (before : Operated e begin w) (after : Operated e w w') :
    ∃ t₁ t₂, w.db.stored? e.table = some t₁ ∧ w'.db.stored? e.table = some t₂ ∧
      t₁.Continues f.column t₂ ∧
      (∀ row ∈ t₁.rows, row f.column ≠ .null → row ∈ t₂.rows ∧
        ∀ row' ∈ t₂.rows, row' e.primaryKey.column = row e.primaryKey.column → row' = row) ∧
      ∀ setting actor name request, setting.registry.find? name = some e →
        (∃ t₃, (w'.perform setting .builtin actor name request).2.db.stored? e.table = some t₃ ∧
          request.Leaves f.column t₂ t₃) ∧
        ∀ outcome, (w'.perform setting .builtin actor name request).1 = .ok outcome →
          outcome.Spares setting actor e request f.column t₂ := by
  obtain ⟨t₁, stored₁, continues₁⟩ := before.continues mark stored answered
  have answered₁ := continues₁.columns ▸ answered
  obtain ⟨t₂, stored₂, continues₂⟩ := after.continues mark stored₁ answered₁
  have kept : begin.db.KeepsKey e.table := fun t' stored' =>
    Option.some.inj (stored.symm.trans stored') ▸ unique
  have unique₂ := after.keepsKey (before.keepsKey kept) t₂ stored₂
  rw [Table.keepsKey, continues₂.key, continues₁.key, keyed] at unique₂
  refine ⟨t₁, t₂, stored₁, stored₂, continues₂, fun row member marked => ?_,
    fun setting actor name request registered => ?_⟩
  · have member₂ := continues₂.mem member marked
    exact ⟨member₂, fun row' there same => Table.eq_of_key unique₂ member₂ there same⟩
  · exact leaves_perform registered mark stored₂ (continues₂.columns ▸ answered₁)

end Operations

namespace Notebook

/-- A note that has been deleted. -/
def gone : Row :=
  newRow [("id", .text "7"), ("title", .text "Sketch"), ("folder_id", .text "1"),
    ("org_id", .text office.text), ("deleted_at", .text "yesterday")]

/-- Takes the mark of deletion away. -/
def restored : Record := .ofList [("deleted", .null)]

/-- The world after somebody has tried to restore all notes. -/
def restoring : World :=
  ((world [] [gone]).perform setting .builtin writer "note" (.update .null restored)).2

theorem gone_there : (world [] [gone]).db.stored? notes.table = some (tableOf notes [gone]) :=
  stored?_notes [] [gone]

theorem gone_unique : (tableOf notes [gone]).keepsKey [gone] = true := by decide +kernel

theorem answers_mark : Name.isAnsweredBy (tableOf notes [gone]).columns "deleted_at" = true := by
  decide +kernel

/-- Where the deleted note is all there is, and no row is added, nothing changes. -/
theorem eq_of_continues {t : Table} (continues : (tableOf notes [gone]).Continues "deleted_at" t)
    (number : t.rows.length = 1) : t = tableOf notes [gone] := by
  obtain ⟨row, there, same⟩ := continues.rows 0 gone rfl
  obtain rfl := same (by decide +kernel)
  obtain ⟨only, rows⟩ := List.length_eq_one_iff.mp number
  rw [rows, List.getElem?_cons_zero, Option.some.injEq] at there
  obtain ⟨columns, key, _⟩ := t
  obtain rfl : columns = _ := continues.columns
  obtain rfl : key = _ := continues.key
  rw [there] at rows
  exact congrArg _ rows

end Notebook

open Notebook in
/-- An update takes the mark of no note away: the deleted note stays as it is, and is not found. -/
theorem deleted_note_not_restored :
    restoring.db.stored? notes.table = some (tableOf notes [gone]) ∧
      (restoring.perform setting .builtin writer "note" (.query .null everything)).1 =
        .ok ⟨[], some 0, 0⟩ := by
  have restores : Operated notes (world [] [gone]) restoring :=
    .operation (.start rfl) find?_note writer (.update .null restored) rfl
  have same : restoring.db.stored? notes.table = some (tableOf notes [gone]) := by
    obtain ⟨-, t, -, stored, -, -, next⟩ := deleted_rows_frozen rfl gone_there answers_mark rfl
      gone_unique (.start rfl) (.start rfl)
    obtain rfl := Option.some.inj (gone_there.symm.trans stored)
    obtain ⟨⟨t', stored', leaves⟩, -⟩ :=
      next setting writer "note" (.update .null restored) find?_note
    rw [← eq_of_continues leaves.continues (leaves.sameNumber (by decide))]
    exact stored'
  refine ⟨same, ?_⟩
  obtain ⟨-, t, -, stored, -, -, next⟩ := deleted_rows_frozen rfl gone_there answers_mark rfl
    gone_unique (.start rfl) restores
  obtain rfl := Option.some.inj (same.symm.trans stored)
  obtain ⟨outcome, told⟩ : ∃ outcome, (restoring.perform setting .builtin writer "note"
      (.query .null everything)).1 = .ok outcome := exists_of_isOk (by decide +kernel)
  obtain ⟨wanted, unmarked, records, journal, journal', revealed, shown⟩ :=
    (next setting writer "note" (.query .null everything) find?_note).2 outcome told
  have none : (tableOf notes [gone]).rows.filter wanted = [] :=
    List.filter_cons_of_neg fun found => absurd (unmarked gone found) (by decide +kernel)
  have empty : inOrderOf notes.primaryKey.column [] = [] := List.mergeSort_nil
  rw [none, empty] at revealed shown
  cases revealed
  rw [told, shown]
  rfl

end ScopedAccess
