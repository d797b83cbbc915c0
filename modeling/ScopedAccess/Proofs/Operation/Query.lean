import ScopedAccess.Proofs.Operation.Reaching
import ScopedAccess.Proofs.Sql.Ordering
import Mathlib.Data.List.Nodup
/-!
# What a query finds

A query finds the rows that its filter holds of, that the principal may read and that are
not marked as deleted, and nothing else. They come in the order of the primary key; the
page is cut out of them and shown without secrets, and the total is their number before.

The database may refuse the statement as a whole, and the query then fails. What this
depends on is `Store.takes`, which holds where the tables are there and the statement is
within the limits (`takes_of_serves`).

* `query_exact`: the outcome of a query.
-/

namespace ScopedAccess

set_option autoImplicit false

/-! ## What is shown of a row -/

namespace Entity

variable {e : Entity}

/-- What is shown of a row: the values of its stored fields but the secret ones. -/
def shown (e : Entity) (row : Row) : Record :=
  .ofList ((e.storedFields.filter fun f => !f.isSecret).map fun f =>
    (f.name, (row f.column).toJson))

theorem find?_foldl_erase (fields : List Field) (r : Record) (name : String) :
    (fields.foldl (fun r f => r.erase f.name) r).find? name =
      if name ∈ fields.map Field.name then none else r.find? name := by
  induction fields generalizing r with
  | nil => rfl
  | cons f rest ih =>
      rw [List.foldl_cons, ih, SortedMap.find?_erase, List.map_cons]
      by_cases here : name = f.name
      · simp [here]
      · by_cases later : name ∈ rest.map Field.name
        · simp [here, later]
        · simp [here, later]

/-- A list of fields of an entity, with a value for each, has no key twice. -/
theorem nodup_values {fields : List Field} (within : fields.Sublist e.fields)
    (value : Field → Json) : ((fields.map fun f => (f.name, value f)).map Prod.fst).Nodup := by
  rw [List.map_map]
  exact (within.map Field.name).nodup e.wellTagged.names_nodup

/-- Without its secrets the record of a row is what is shown of it. -/
theorem redact_recordOf (e : Entity) (row : Row) : e.redact (Store.recordOf e row) = e.shown row := by
  have stored : e.storedFields.Sublist e.fields := List.filter_sublist
  refine SortedMap.ext_find? fun name => Option.ext fun value => ?_
  rw [redact, find?_foldl_erase, Option.ite_none_left_eq_some, Store.recordOf, shown,
    SortedMap.find?_ofList (nodup_values stored _),
    SortedMap.find?_ofList (nodup_values (List.filter_sublist.trans stored) _),
    SortedMap.lookup_eq_some_iff_mem (nodup_values stored _),
    SortedMap.lookup_eq_some_iff_mem (nodup_values (List.filter_sublist.trans stored) _)]
  simp only [List.mem_map, List.mem_filter, Prod.mk.injEq, secretFields]
  constructor
  · rintro ⟨open_, f, member, rfl, shows⟩
    have plain : f.isSecret = false := by
      refine Bool.eq_false_iff.mpr fun secret => open_ ⟨f, ⟨?_, secret⟩, rfl⟩
      exact stored.subset member
    exact ⟨f, ⟨member, by simp [plain]⟩, rfl, shows⟩
  · rintro ⟨f, ⟨member, plain⟩, rfl, shows⟩
    refine ⟨?_, f, member, rfl, shows⟩
    rintro ⟨g, ⟨listed, secret⟩, same⟩
    have one : g = f := eq_of_name listed (stored.subset member) same
    simp [← one, secret] at plain

end Entity

/-! ## Selecting and counting -/

namespace Store

/-- Whether the database takes the statement for rows of an entity, a page of which starts
at an offset: its names can be written and stand for something, and it is within the limits. -/
def takes (db : Database) (e : Entity) (t : Table) (cond : Condition) (offset : Nat) : Bool :=
  (e.storedFields.all fun f => Name.isWritable f.name) &&
    db.admits e.table t cond (if 0 < offset then 2 else 1) &&
      (!(columns e).isEmpty && t.answers (e.primaryKey.column :: columns e)) &&
        db.limits.all fun l => e.storedFields.length ≤ l.columns

variable {db : Database} {e : Entity} {t : Table} {cond : Condition}

theorem takes_iff {offset : Nat} : takes db e t cond offset = true ↔
    (e.storedFields.all fun f => Name.isWritable f.name) = true ∧
      db.admits e.table t cond (if 0 < offset then 2 else 1) = true ∧
        (!(columns e).isEmpty && t.answers (e.primaryKey.column :: columns e)) = true ∧
          (db.limits.all fun l => e.storedFields.length ≤ l.columns) = true := by
  rw [takes, Bool.and_eq_true, Bool.and_eq_true, Bool.and_eq_true, and_assoc, and_assoc]

theorem admits_iff {name : Name} {others : Nat} : db.admits name t cond others = true ↔
    db.accepts [(name, t.columns)] cond = true ∧ db.reads t cond others = true := by
  rw [Database.admits, Bool.and_eq_true]

/-- The columns of an entity whose primary key is stored are there, and there are some. -/
theorem answers_columns (keyed : e.primaryKey.isStored = true) (answered : e.AnsweredBy t.columns) :
    (!(columns e).isEmpty && t.answers (e.primaryKey.column :: columns e)) = true := by
  have member : e.primaryKey ∈ e.fields := List.mem_of_find?_eq_some (Option.some_get _).symm
  have listed : e.primaryKey ∈ e.storedFields := List.mem_filter.mpr ⟨member, keyed⟩
  have some_ : (columns e).isEmpty = false :=
    List.isEmpty_eq_false_iff_exists_mem.mpr ⟨_, List.mem_map_of_mem listed⟩
  rw [some_, Bool.not_false, Bool.true_and]
  refine List.all_eq_true.mpr fun name mention => ?_
  rcases List.mem_cons.mp mention with rfl | mention
  · exact answered _ ⟨_, member, keyed, rfl⟩
  · obtain ⟨f, stored, rfl⟩ := List.mem_map.mp mention
    obtain ⟨member, stored⟩ := List.mem_filter.mp stored
    exact answered _ ⟨f, member, stored, rfl⟩

/-- Selecting gives a page of the rows that pass, or the refusal of the database. -/
theorem select_eq (stored : db.table? e.table = some t) (offset limit : Nat) :
    select db e cond offset (some limit) =
      if takes db e t cond offset then
        .ok ((((inOrderOf e.primaryKey.column
          (t.rows.filter (db.passes e.table t cond))).drop offset).take limit).map (recordOf e))
      else .error .engine := by
  have parameters : (some limit).toList.length + (if 0 < offset then 1 else 0) =
      if 0 < offset then 2 else 1 := by
    split <;> rfl
  have width : (columns e).length = e.storedFields.length := List.length_map _
  unfold select takes
  cases writable : e.storedFields.all fun f => Name.isWritable f.name with
  | false => simp [throw, throwThe, MonadExceptOf.throw, bind, Except.bind]
  | true =>
      have selected : db.select? e.table (columns e) cond e.primaryKey.column
          (if 0 < offset then 2 else 1) =
            if (db.admits e.table t cond (if 0 < offset then 2 else 1) &&
                (!(columns e).isEmpty && t.answers (e.primaryKey.column :: columns e)) &&
                  db.limits.all fun l => e.storedFields.length ≤ l.columns) = true then
              some (inOrderOf e.primaryKey.column (t.rows.filter (db.passes e.table t cond)))
            else none := by
        simp [Database.select?, stored, inOrderOf, and_assoc, width]
      rw [Bool.true_and]
      simp only [parameters, selected]
      cases db.admits e.table t cond (if 0 < offset then 2 else 1) &&
          (!(columns e).isEmpty && t.answers (e.primaryKey.column :: columns e)) &&
            db.limits.all fun l => e.storedFields.length ≤ l.columns <;>
        simp [ofEngine, bind, Except.bind, pure, Except.pure]

theorem select_of_no_table (missing : db.table? e.table = none) (offset limit : Nat) :
    select db e cond offset (some limit) = .error .engine := by
  unfold select
  cases e.storedFields.all fun f => Name.isWritable f.name <;>
    simp [Database.select?, missing, ofEngine, throw, throwThe, MonadExceptOf.throw, bind,
      Except.bind]

theorem admits_mono {name : Name} {m n : Nat} (fewer : m ≤ n)
    (admitted : db.admits name t cond n = true) : db.admits name t cond m = true := by
  obtain ⟨accepted, within⟩ := admits_iff.mp admitted
  refine admits_iff.mpr ⟨accepted, ?_⟩
  unfold Database.reads at within ⊢
  cases limits : db.limits with
  | none => rfl
  | some l =>
      simp only [limits, Option.all_some, Bool.and_eq_true, decide_eq_true_eq] at within ⊢
      obtain ⟨⟨height, parameters⟩, sizes⟩ := within
      exact ⟨⟨height, by omega⟩, sizes⟩

/-- What can be selected can be counted. -/
theorem count_of_takes {offset : Nat} (stored : db.table? e.table = some t)
    (taken : takes db e t cond offset = true) :
    count db e cond = .ok (t.rows.countP (db.passes e.table t cond)) := by
  obtain ⟨-, admitted, -, -⟩ := takes_iff.mp taken
  have admitted : db.admits e.table t cond 0 = true := admits_mono (Nat.zero_le _) admitted
  simp [count, Database.count?, stored, admitted, ofEngine]

end Store

/-! ## The outcome of a query -/

namespace Step

variable {setting : Setting} {s : Session}

theorem queryRows_ok {rows : List Record} {n : Nat}
    (selected : Store.select s.world.db s.operation.entity s.operation.condition
      s.operation.page.offset (some (setting.limits.pageLimit s.operation.page.limit)) = .ok rows)
    (counted : Store.count s.world.db s.operation.entity s.operation.condition = .ok n) :
    queryRows setting s = (.ok (), { s with operation := { s.operation with
      outcome := { s.operation.outcome with
        rows, total := if s.operation.page.withTotal then some n else none } } }) := by
  cases asked : s.operation.page.withTotal <;> simp [queryRows, selected, counted, asked]

theorem queryRows_error {reason : StoreError}
    (refused : Store.select s.world.db s.operation.entity s.operation.condition
      s.operation.page.offset (some (setting.limits.pageLimit s.operation.page.limit)) =
        .error reason) :
    queryRows setting s = (.error (.operation (.store reason)), s) := by
  simp [queryRows, refused]

theorem afterFind_none (unhooked : setting.lifecycle.afterFind s.operation.entity.name = none) :
    afterFind setting s = (.ok (), s) := by
  simp [afterFind, unhooked]

end Step

/-- The callbacks that find the rows of a query and show them. -/
def Callbacks.finding : List (String × Handler) :=
  [(Builtin.query.name, Step.queryRows), (Builtin.afterFind.name, Step.afterFind),
    (Builtin.redactSecrets.name, Step.redactSecrets), (Builtin.audit.name, Step.audit)]

theorem chain_query : Callbacks.builtin.chain .query = Callbacks.reaching ++ Callbacks.finding :=
  rfl

section Outcome

variable {w : World} {setting : Setting} {actor : Actor} {name : String} {e : Entity}
  {filter : Json} {page : Page} {f : CompiledFilter} {p : Privileges}

/-- The operation of a query once its rows are settled. -/
def Operation.querying (e : Entity) (actor : Actor) (filter : Json) (page : Page)
    (f : CompiledFilter) (p : Privileges) : Operation :=
  (Operation.start (.query filter page) e actor).reached f (p.usedFor e)

theorem runChain_query
    (compiled : compile setting.registry setting.limits.maxFilterDepth e filter = .ok f)
    (resolved : e.unrestricted = false → (w.privilegesOf setting actor).1 = .ok p) :
    Session.runChain setting (Callbacks.builtin.chain .query)
        ⟨.start (.query filter page) e actor, w⟩ =
      Session.runChain setting Callbacks.finding
        ⟨.querying e actor filter page f p, w.asked setting e actor⟩ :=
  runChain_reaching compiled resolved

/-- A query whose statements succeed shows the rows selected. -/
theorem perform_query_ok {rows : List Row} {n : Nat}
    (registered : setting.registry.find? name = some e)
    (compiled : compile setting.registry setting.limits.maxFilterDepth e filter = .ok f)
    (resolved : e.unrestricted = false → (w.privilegesOf setting actor).1 = .ok p)
    (unhooked : setting.lifecycle.afterFind e.name = none)
    (selected : Store.select w.db e (Operation.querying e actor filter page f p).condition
      page.offset (some (setting.limits.pageLimit page.limit)) =
        .ok (rows.map (Store.recordOf e)))
    (counted : Store.count w.db e (Operation.querying e actor filter page f p).condition = .ok n) :
    (w.perform setting .builtin actor name (.query filter page)).1 =
      .ok ⟨rows.map e.shown, if page.withTotal then some n else none, 0⟩ := by
  have shows : (rows.map (Store.recordOf e)).map e.redact = rows.map e.shown := by
    rw [List.map_map]
    exact List.map_congr_left fun row _ => e.redact_recordOf row
  have same : (w.asked setting e actor).db = w.db := asked_db
  rw [← same] at selected counted
  have run : Session.runChain setting Callbacks.finding
      ⟨.querying e actor filter page f p, w.asked setting e actor⟩ = _ :=
    (runChain_cons_ok rfl (Step.queryRows_ok selected counted)).trans <|
      (runChain_cons_ok rfl (Step.afterFind_none unhooked)).trans <|
        (runChain_cons_ok rfl rfl).trans (runChain_cons_ok rfl rfl)
  rw [perform_fst registered, show (Request.query filter page).phase = .query from rfl,
    runChain_query compiled resolved, run, ← shows]
  rfl

/-- A client is told of the refusal of a statement. -/
theorem told_refused {s : Session} {reason : StoreError} (going : s.operation.stopped = false)
    (refused : Store.select s.world.db s.operation.entity s.operation.condition
      s.operation.page.offset (some (setting.limits.pageLimit s.operation.page.limit)) =
        .error reason) :
    Session.told (Session.runChain setting Callbacks.finding s) = .error (.store reason) := by
  have fails : Session.runChain setting Callbacks.finding s = _ :=
    runChain_cons_error going (Step.queryRows_error refused)
  rw [fails]
  rfl

/-- A query whose statement is refused fails with the refusal. -/
theorem perform_query_error {reason : StoreError}
    (registered : setting.registry.find? name = some e)
    (compiled : compile setting.registry setting.limits.maxFilterDepth e filter = .ok f)
    (resolved : e.unrestricted = false → (w.privilegesOf setting actor).1 = .ok p)
    (refused : Store.select w.db e (Operation.querying e actor filter page f p).condition
      page.offset (some (setting.limits.pageLimit page.limit)) = .error reason) :
    (w.perform setting .builtin actor name (.query filter page)).1 = .error (.store reason) := by
  have same : (w.asked setting e actor).db = w.db := asked_db
  rw [← same] at refused
  rw [perform_fst registered, show (Request.query filter page).phase = .query from rfl,
    runChain_query compiled resolved]
  exact told_refused rfl refused

/-- The statement of a query is taken where its tables are there, its names can be written and
it is within the limits. -/
theorem takes_of_serves {t : Table} {offset : Nat}
    (registered : setting.registry.find? name = some e) (keyed : e.primaryKey.isStored = true)
    (compiled : compile setting.registry setting.limits.maxFilterDepth e filter = .ok f)
    (marked : e.StoresMark) (fits : w.db.Fits setting.registry)
    (stored : w.db.table? e.table = some t)
    (serves : w.db.Serves (Filter.tables setting.registry e filter))
    (writable : ∀ field ∈ e.storedFields, Name.isWritable field.name = true)
    (within : w.db.reads t (Operation.querying e actor filter page f p).condition
      (if 0 < offset then 2 else 1) = true)
    (narrow : (w.db.limits.all fun l => e.storedFields.length ≤ l.columns) = true) :
    Store.takes w.db e t (Operation.querying e actor filter page f p).condition offset = true := by
  have own : e.FitsIn w.db := fits _ _ registered
  have accepted : w.db.accepts [(.of e.table, t.columns)]
      (Operation.querying e actor filter page f p).condition = true :=
    Operation.accepts_reached (.start (.query filter page) e actor) compiled marked fits own stored
      serves _
  exact Store.takes_iff.mpr ⟨List.all_eq_true.mpr writable, Store.admits_iff.mpr ⟨accepted, within⟩,
    Store.answers_columns keyed (own.answered t stored), narrow⟩

/-- A query shows a page of the rows that its filter holds of, that the principal may read and
that are not marked as deleted, if the database takes its statement. -/
theorem perform_query (w : World) (page : Page) {t : Table}
    (registered : setting.registry.find? name = some e) (marked : e.StoresMark)
    (unhooked : setting.lifecycle.afterFind e.name = none)
    (compiled : compile setting.registry setting.limits.maxFilterDepth e filter = .ok f)
    (resolved : e.unrestricted = false → (w.privilegesOf setting actor).1 = .ok p)
    (fits : w.db.Fits setting.registry) (stored : w.db.table? e.table = some t)
    {found : List Row} (wanted : inOrderOf e.primaryKey.column (t.rows.filter fun row =>
      Filter.holds setting.registry w.db e row filter && p.mayRead e row && e.isLive row) =
        found) :
    (w.perform setting .builtin actor name (.query filter page)).1 =
      if Store.takes w.db e t (Operation.querying e actor filter page f p).condition
          page.offset then
        .ok ⟨((found.drop page.offset).take (setting.limits.pageLimit page.limit)).map e.shown,
          if page.withTotal then some found.length else none, 0⟩
      else .error (.store .engine) := by
  have own : e.FitsIn w.db := fits _ _ registered
  have passing : ∀ row, w.db.passes e.table t
      (Operation.querying e actor filter page f p).condition row =
        (Filter.holds setting.registry w.db e row filter && p.mayRead e row && e.isLive row) :=
    Operation.passes_reached (.start (.query filter page) e actor) compiled marked fits own stored
  have selects : Store.select w.db e (Operation.querying e actor filter page f p).condition
      page.offset (some (setting.limits.pageLimit page.limit)) = _ :=
    Store.select_eq stored page.offset (setting.limits.pageLimit page.limit)
  rw [List.filter_congr fun row _ => passing row, wanted] at selects
  cases taken : Store.takes w.db e t (Operation.querying e actor filter page f p).condition
      page.offset with
  | false =>
      rw [taken, if_neg Bool.false_ne_true] at selects
      rw [if_neg Bool.false_ne_true]
      exact perform_query_error registered compiled resolved selects
  | true =>
      rw [taken, if_pos rfl] at selects
      have counts := Store.count_of_takes stored taken
      have number : t.rows.countP (w.db.passes e.table t
          (Operation.querying e actor filter page f p).condition) = found.length := by
        rw [← wanted, List.countP_congr fun row _ => by rw [passing row],
          List.countP_eq_length_filter]
        exact (inOrderOf_perm _ _).length_eq.symm
      rw [number] at counts
      rw [if_pos rfl]
      exact perform_query_ok registered compiled resolved unhooked selects counts

/-- The outcome of a query: a page of the rows that the filter holds of, that the principal
may read and that are not marked as deleted, in the order of the primary key and without
their secrets, and the number of them all if it is asked for; or the refusal of the
database, which does not refuse what it serves. -/
theorem query_exact (w : World) (page : Page) {t : Table}
    (registered : setting.registry.find? name = some e)
    (keyed : e.primaryKey.isStored = true) (marked : e.StoresMark)
    (unhooked : setting.lifecycle.afterFind e.name = none)
    (compiled : compile setting.registry setting.limits.maxFilterDepth e filter = .ok f)
    (resolved : e.unrestricted = false → (w.privilegesOf setting actor).1 = .ok p)
    (fits : w.db.Fits setting.registry) (stored : w.db.table? e.table = some t) :
    ∃ found : List Row,
      found.Perm (t.rows.filter fun row => Filter.holds setting.registry w.db e row filter &&
        p.mayRead e row && e.isLive row) ∧
      found.Pairwise (fun a b =>
        (a e.primaryKey.column).sortsBefore (b e.primaryKey.column) = true) ∧
      ((w.perform setting .builtin actor name (.query filter page)).1 =
        if Store.takes w.db e t (Operation.querying e actor filter page f p).condition
            page.offset then
          .ok {
            rows := ((found.drop page.offset).take (min
              (page.limit.getD setting.limits.defaultPageLimit) setting.limits.maxPageLimit)).map
                e.shown
            total := if page.withTotal then some found.length else none
            affected := 0 }
        else .error (.store .engine)) ∧
      (w.db.Serves (Filter.tables setting.registry e filter) →
        (∀ field ∈ e.storedFields, Name.isWritable field.name = true) →
        w.db.reads t (Operation.querying e actor filter page f p).condition
          (if 0 < page.offset then 2 else 1) = true →
        (w.db.limits.all fun l => e.storedFields.length ≤ l.columns) = true →
        Store.takes w.db e t (Operation.querying e actor filter page f p).condition page.offset =
          true) :=
  ⟨_, inOrderOf_perm _ _, inOrderOf_pairwise _ _,
    perform_query w page registered marked unhooked compiled resolved fits stored rfl,
    takes_of_serves registered keyed compiled marked fits stored⟩

end Outcome

namespace Notebook

def office : Uuid := .ofNat 16

def elsewhere : Uuid := .ofNat 17

/-- A principal of the office, which may read and write its rows. -/
def writer : Actor := ⟨.ofNat 32, none, office⟩

def source : SourceData where
  organizations := [⟨office, "office", "Office", none, ""⟩]
  roles := [⟨.ofNat 48, "writer", "Writer", [], [⟨office, .current, .current, []⟩]⟩]
  assignments := [⟨writer.id, .ofNat 48, 0⟩]

def setting : Setting where
  registry := registry
  resolver := ⟨.ofNat 1, false⟩
  limits := .default
  lifecycle := .empty
  now := ⟨0, "today"⟩

def world (inFolders inNotes : List Row) : World :=
  .ofDatabase (database inFolders inNotes) (.ofSource source)

/-- What the writer may do. -/
def writing : Privileges where
  user := writer.id
  permissions := ∅
  readable := .ofList [office]
  writable := .ofList [office]
  activeOrg := office
  bypass := false
  entities := ∅

theorem resolve_writer :
    ((ResolverWorld.ofSource source).resolve setting.resolver 0 writer).1 = .ok writing := by
  decide +kernel

theorem privilegesOf_writer (inFolders inNotes : List Row) :
    ((world inFolders inNotes).privilegesOf setting writer).1 = .ok writing := resolve_writer

theorem find?_note : setting.registry.find? "note" = some notes := by
  simp [setting, registry, Registry.find?, SortedMap.ofList, SortedMap.find?_insert]

theorem notes_storesMark : notes.StoresMark := by
  have all : ∀ f ∈ notes.fields, f.hasTag .softDelete = true → f.isStored = true := by decide
  intro f tagged
  have found : notes.fields.find? (·.hasTag .softDelete) = some f := tagged
  have marks : f.hasTag .softDelete = true := by simpa using List.find?_some found
  exact all f (List.mem_of_find?_eq_some found) marks

theorem serves_folders (inFolders inNotes : List Row) :
    (database inFolders inNotes).Serves (Filter.tables registry notes inPlans) := by
  have one : Filter.tables registry notes inPlans = ["folders"] := by decide +kernel
  rw [one]
  intro table member
  rw [List.mem_singleton.mp member, table?_folders]
  exact ⟨rfl, by decide +kernel⟩

end Notebook

open Notebook in
/-- Of two notes in a folder, the one of another organization stays hidden. -/
theorem plans_show_own_note :
    ((world [folder "1" "Plans" office.text]
        [note "7" "Sketch" "1" office.text, note "8" "Draft" "1" elsewhere.text]).perform setting
          .builtin writer "note" (.query inPlans ⟨0, none, true⟩)).1 =
      .ok ⟨[notes.shown (note "7" "Sketch" "1" office.text)], some 1, 0⟩ := by
  obtain ⟨f, compiled⟩ := inPlans_compiles
  obtain ⟨found, perm, -, outcome, taken⟩ := query_exact
    (world [folder "1" "Plans" office.text]
      [note "7" "Sketch" "1" office.text, note "8" "Draft" "1" elsewhere.text]) ⟨0, none, true⟩
    find?_note rfl notes_storesMark rfl compiled (fun _ => privilegesOf_writer _ _) (fits _ _)
    (table?_notes _ _)
  have only : found = [note "7" "Sketch" "1" office.text] := by
    refine List.perm_singleton.mp (perm.trans (.of_eq ?_))
    rw [tableOf, List.filter_cons_of_pos (by decide +kernel),
      List.filter_cons_of_neg (by decide +kernel), List.filter_nil]
  have named : ∀ field ∈ notes.storedFields, Name.isWritable field.name = true := by decide +kernel
  rw [taken (serves_folders _ _) named rfl rfl, if_pos rfl, only] at outcome
  exact outcome

end ScopedAccess
