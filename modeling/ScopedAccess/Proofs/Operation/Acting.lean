import ScopedAccess.Proofs.Operation.Writes
/-!
# What statements act on

Between the callback that compiles the filter and the statement, callbacks change the filter of an
operation, its payload and what it knows of its actor's privileges, and nothing else (`Underway`).
The engine's among them add the scope and the mark of deletion to the filter, and hooks change the
payload and the journal or fail.

The statement acts on the rows that pass all parts of the filter as it stands by then. What a
query shows of them, what an update changes and a delete removes is `World.ActsOn`.

* `actsOn_query`, `actsOn_update`, `actsOn_delete`: what the callbacks from the statement on do.
-/

namespace ScopedAccess

set_option autoImplicit false

/-! ## Filters with further predicates -/

/-- Further predicates have to hold. -/
def CompiledFilter.pushAll (f : CompiledFilter) (ps : List Predicate) : CompiledFilter :=
  { f with fragments := f.fragments ++ ps }

theorem CompiledFilter.pushAll_nil (f : CompiledFilter) : f.pushAll [] = f := by
  rw [pushAll, List.append_nil]

theorem CompiledFilter.pushAll_append (f : CompiledFilter) (ps qs : List Predicate) :
    f.pushAll (ps ++ qs) = (f.pushAll ps).pushAll qs := by
  rw [pushAll, pushAll, pushAll, List.append_assoc]

/-- A session whose operation has to keep to further predicates. -/
def Session.narrowed (s : Session) (ps : List Predicate) : Session :=
  { s with operation := { s.operation with filter := s.operation.filter.pushAll ps } }

/-- The privileges that an operation on an entity uses, if it needs any and is given them. -/
def World.used? (w : World) (setting : Setting) (e : Entity) (actor : Actor) : Option Privileges :=
  if e.unrestricted then none else (w.privilegesOf setting actor).1.toOption

theorem World.used?_eq {w : World} {setting : Setting} {e : Entity} {actor : Actor}
    {p : Privileges} (resolved : e.unrestricted = false → (w.privilegesOf setting actor).1 = .ok p) :
    w.used? setting e actor = p.usedFor e := by
  rw [used?, Privileges.usedFor]
  cases unrestricted : e.unrestricted with
  | true => rfl
  | false =>
      rw [resolved unrestricted]
      rfl

/-- The predicate of the scope of privileges, unless they bypass checks. -/
def Operation.confines? (o : Operation) (p? : Option Privileges) : Option Predicate :=
  p?.bind fun p =>
    if p.bypass then none else some (scopePredicate o.entity (o.scope p) o.entity.table)

theorem Operation.guards_eq (o : Operation) (p? : Option Privileges) :
    o.guards p? = (o.confines? p?).toList ++ o.entity.undeleted?.toList := rfl

/-- To confine an operation adds one predicate at most. -/
theorem Operation.confined_eq (o : Operation) (p : Privileges) : o.confined p =
    { o with filter := o.filter.pushAll (o.confines? (some p)).toList } := by
  cases bypass : p.bypass <;>
    simp [confined, confines?, bypass, pushFilter, CompiledFilter.push, CompiledFilter.pushAll]

theorem Operation.withoutDeleted_eq (o : Operation) : o.withoutDeleted =
    { o with filter := o.filter.pushAll o.entity.undeleted?.toList } := by
  cases undeleted : o.entity.undeleted? <;>
    simp [withoutDeleted, undeleted, pushFilter, CompiledFilter.push, CompiledFilter.pushAll]

/-! ## Operations under way -/

section Underway

variable (setting : Setting) (w : World) (request : Request) (e : Entity) (actor : Actor)

/-- What callbacks before the statement keep of an operation: all but its filter, its payload and
whether it has asked for privileges. Of the world they keep the rows. -/
structure Underway (s : Session) : Prop where
  samePhase : s.operation.phase = request.phase
  sameEntity : s.operation.entity = e
  sameActor : s.operation.actor = actor
  samePage : s.operation.page = request.page
  fresh : s.operation.outcome = .empty
  going : s.operation.stopped = false
  sameRows : s.world.db = w.db
  privileges : (s.operation.privileges = none ∧ s.world.resolver = w.resolver) ∨
    ∃ p, s.operation.privileges = some p ∧ w.used? setting e actor = some p

variable {setting w request e actor} {s s' : Session}

/-- The session of an operation whose filter has just been compiled. -/
def Session.compiled (w : World) (request : Request) (e : Entity) (actor : Actor)
    (f : CompiledFilter) : Session :=
  ⟨{ Operation.start request e actor with filter := f }, w⟩

theorem underway_compiled {f : CompiledFilter} :
    Underway setting w request e actor (.compiled w request e actor f) :=
  ⟨rfl, rfl, rfl, rfl, rfl, rfl, rfl, .inl ⟨rfl, rfl⟩⟩

theorem Underway.narrowed (underway : Underway setting w request e actor s)
    (ps : List Predicate) : Underway setting w request e actor (s.narrowed ps) :=
  ⟨underway.samePhase, underway.sameEntity, underway.sameActor, underway.samePage, underway.fresh,
    underway.going, underway.sameRows, underway.privileges⟩

/-- Another payload and another journal leave an operation under way, with the same filter. -/
theorem Underway.changed (underway : Underway setting w request e actor s) (payload : Record)
    (journal : Journal) : Underway setting w request e actor
      ⟨{ s.operation with payload }, { s.world with journal }⟩ :=
  ⟨underway.samePhase, underway.sameEntity, underway.sameActor, underway.samePage, underway.fresh,
    underway.going, underway.sameRows, underway.privileges⟩

/-- To ask for privileges once more gives the same. -/
theorem run_privileges_underway (underway : Underway setting w request e actor s)
    (restricted : e.unrestricted = false) {p : Privileges}
    (ran : Step.privileges setting s = (.ok p, s')) :
    w.used? setting e actor = some p ∧ Underway setting w request e actor s' ∧
      s'.operation.filter = s.operation.filter ∧ s'.operation.privileges = some p := by
  rcases underway.privileges with ⟨unasked, same⟩ | ⟨q, known, used⟩
  · cases answer : w.resolver.resolve setting.resolver setting.now.seconds actor with
    | mk result r =>
        simp only [Step.privileges, Step.run_bind, Step.run_get, unasked, Step.run_read, same,
          underway.sameActor, answer, Step.run_changeWorld] at ran
        cases result with
        | error reason => cases ran
        | ok q =>
            cases ran
            have used : w.used? setting e actor = some p := by
              rw [World.used?, restricted, World.privilegesOf, answer]
              rfl
            exact ⟨used, ⟨underway.samePhase, underway.sameEntity, underway.sameActor,
              underway.samePage, underway.fresh, underway.going, underway.sameRows,
              .inr ⟨p, rfl, used⟩⟩, rfl, rfl⟩
  · simp only [Step.privileges, Step.run_bind, Step.run_get, known, Step.run_pure] at ran
    cases ran
    exact ⟨used, underway, rfl, known⟩

theorem confines?_underway (underway : Underway setting w request e actor s)
    (p? : Option Privileges) :
    s.operation.confines? p? = (Operation.start request e actor).confines? p? := by
  rw [Operation.confines?, Operation.confines?]
  simp only [Operation.scope, underway.samePhase, underway.sameEntity]
  rfl

/-- To confine rows to the scope of the actor adds its predicate, if privileges are needed. -/
theorem run_injectScope_underway (underway : Underway setting w request e actor s)
    (ran : Step.injectScope setting s = (.ok (), s')) :
    (e.unrestricted = false → ∃ p, (w.privilegesOf setting actor).1 = .ok p) ∧
      Underway setting w request e actor s' ∧ s'.operation.filter = s.operation.filter.pushAll
        ((Operation.start request e actor).confines? (w.used? setting e actor)).toList := by
  cases unrestricted : e.unrestricted with
  | true =>
      rw [Step.injectScope_unrestricted (underway.sameEntity ▸ unrestricted)] at ran
      cases ran
      refine ⟨nofun, underway, ?_⟩
      rw [World.used?, unrestricted, if_pos rfl]
      exact (CompiledFilter.pushAll_nil _).symm
  | false =>
      rcases asked : Step.privileges setting s with ⟨failure | p, s₁⟩
      · simp only [Step.injectScope, Step.run_bind, Step.run_operation, underway.sameEntity,
          unrestricted, Bool.false_eq_true, if_false, asked] at ran
        cases ran
      · obtain ⟨used, underway₁, same, known⟩ :=
          run_privileges_underway underway unrestricted asked
        have answered : ∃ p, (w.privilegesOf setting actor).1 = .ok p := by
          rw [World.used?, unrestricted, if_neg Bool.false_ne_true] at used
          cases result : (w.privilegesOf setting actor).1 with
          | error reason =>
              rw [result] at used
              cases used
          | ok q => exact ⟨q, rfl⟩
        have run : Step.injectScope setting s =
            (.ok (), { s₁ with operation := s₁.operation.confined p }) := by
          cases bypass : p.bypass <;>
            simp [Step.injectScope, underway.sameEntity, unrestricted, asked, bypass,
              Operation.confined]
        rw [run, Operation.confined_eq, confines?_underway underway₁] at ran
        cases ran
        refine ⟨fun _ => answered, underway₁.narrowed _, ?_⟩
        rw [used, ← same]

/-- The hook of an entity changes the payload and the journal, if it does not fail. -/
theorem run_beforeUpdate_underway (underway : Underway setting w request e actor s)
    (ran : Step.beforeUpdate setting s = (.ok (), s')) :
    Underway setting w request e actor s' ∧ s'.operation.filter = s.operation.filter := by
  cases hooked : setting.lifecycle.beforeUpdate s.operation.entity.name with
  | none =>
      rw [Step.beforeUpdate_none hooked] at ran
      cases ran
      exact ⟨underway, rfl⟩
  | some hook =>
      simp only [Step.beforeUpdate, Step.changePayload, Step.run_bind, Step.run_operation,
        Step.run_read, hooked, Step.run_ofHook] at ran
      rcases told : (hook s.operation.actor s.operation.payload).run s.world.journal with
        ⟨failure | payload, journal⟩
      · rw [told] at ran
        cases ran
      · rw [told] at ran
        cases ran
        exact ⟨underway.changed payload journal, rfl⟩

/-- The hook of an entity that is shown the filter of a delete changes the journal, if it does not
fail. -/
theorem run_beforeDelete_underway (underway : Underway setting w request e actor s)
    (ran : Step.beforeDelete setting s = (.ok (), s')) :
    Underway setting w request e actor s' ∧ s'.operation.filter = s.operation.filter := by
  cases hooked : setting.lifecycle.beforeDelete s.operation.entity.name with
  | none =>
      rw [Step.beforeDelete_none hooked] at ran
      cases ran
      exact ⟨underway, rfl⟩
  | some hook =>
      simp only [Step.beforeDelete, Step.run_bind, Step.run_operation, Step.run_read, hooked,
        Step.run_ofHook] at ran
      obtain ⟨-, rfl⟩ := Prod.mk.inj ran
      exact ⟨underway.changed s.operation.payload _, rfl⟩

end Underway

/-! ## The statement -/

/-- What the hook of an entity makes of a record found. -/
def Lifecycle.reveal (l : Lifecycle) (e : Entity) (actor : Actor) (r : Record) : Hook Record :=
  match l.afterFind e.name with
  | some hook => hook actor r
  | none => pure r

/-- Without a hook nothing is made of records. -/
theorem Lifecycle.reveal_of_unhooked {l : Lifecycle} {e : Entity} {actor : Actor}
    (unhooked : l.afterFind e.name = none) : l.reveal e actor = pure := by
  funext r
  rw [reveal, unhooked]

/-- A table in which the wanted rows have been changed. -/
def Table.changing (t : Table) (wanted : Row → Bool) (values : Assignments) : Table :=
  { t with
    rows := t.rows.map fun row =>
      if wanted row then changedRow (t.spread values) row else row }

/-- A table without the wanted rows. -/
def Table.removing (t : Table) (wanted : Row → Bool) : Table :=
  { t with rows := t.rows.filter fun row => !wanted row }

/-- What comes of a request whose statement acts on the wanted rows of a table: a query shows a
page of them, an update writes its changes to them, unless these stray from where the actor may
write, and a delete marks or removes them. -/
inductive World.ActsOn (w : World) (setting : Setting) (request : Request) (e : Entity)
    (actor : Actor) (changes : Record) (wanted : Table → Row → Bool) :
    Outcome → Database → Prop where
  | found {t : Table} {records : List Record} {journal journal' : Journal}
      (phase : request.phase = .query) (stored : w.db.table? e.table = some t)
      (revealed : (((((inOrderOf e.primaryKey.column (t.rows.filter (wanted t))).drop
        request.page.offset).take (setting.limits.pageLimit request.page.limit)).map
          (Store.recordOf e)).mapM (setting.lifecycle.reveal e actor)).run journal =
            (.ok records, journal')) :
      ActsOn w setting request e actor changes wanted
        ⟨records.map e.redact,
          if request.page.withTotal then some (t.rows.countP (wanted t)) else none, 0⟩ w.db
  | changed {t : Table} (phase : request.phase = .update) (stored : w.db.stored? e.table = some t) :
      ActsOn w setting request e actor changes wanted ⟨[], none, t.rows.countP (wanted t)⟩
        (w.db.set e.table (t.changing (wanted t) (Store.assignments e changes)))
  | strayed {p : Privileges} (phase : request.phase = .update)
      (used : w.used? setting e actor = some p) (mayNot : p.mayMake e changes = false) :
      ActsOn w setting request e actor changes wanted ⟨[], none, 0⟩ w.db
  | marked {t : Table} {f : Field} (phase : request.phase = .delete)
      (mark : e.tagged? .softDelete = some f) (stored : w.db.stored? e.table = some t) :
      ActsOn w setting request e actor changes wanted ⟨[], none, t.rows.countP (wanted t)⟩
        (w.db.set e.table (t.changing (wanted t) (Store.assignments e
          (changes.insert f.name (.str setting.now.text)))))
  | removed {t : Table} (phase : request.phase = .delete) (unmarked : e.tagged? .softDelete = none)
      (stored : w.db.stored? e.table = some t) :
      ActsOn w setting request e actor changes wanted ⟨[], none, t.rows.countP (wanted t)⟩
        (w.db.set e.table (t.removing (wanted t)))

/-- The statement of an operation acts on the rows that pass all parts of its filter. -/
theorem Operation.passes_parts (o : Operation) (db : Database) (name : Name) (t : Table) :
    db.passes name t o.condition =
      fun row => o.filter.parts.all fun g => g.passes db name t row := by
  funext row
  rw [condition, CompiledFilter.predicate, Predicate.passes_condition, Predicate.passes,
    Predicate.isYes_evaluate_conj]
  rfl

namespace Step

variable {setting : Setting} {s s' : Session}

theorem run_afterFind : afterFind setting s =
    match (s.operation.outcome.rows.mapM (setting.lifecycle.reveal s.operation.entity
        s.operation.actor)).run s.world.journal with
    | (.ok rows, journal) =>
      (.ok (), ⟨s.operation.withRows rows, { s.world with journal }⟩)
    | (.error failure, journal) =>
      (.error failure, { s with world := { s.world with journal } }) := by
  cases hooked : setting.lifecycle.afterFind s.operation.entity.name with
  | none =>
      rw [afterFind_none hooked, Lifecycle.reveal_of_unhooked hooked, List.mapM_pure]
      simp [Operation.withRows]
      rfl
  | some hook =>
      have same : setting.lifecycle.reveal s.operation.entity s.operation.actor =
          hook s.operation.actor := by
        funext r
        rw [Lifecycle.reveal, hooked]
      rw [same]
      simp only [afterFind, run_bind, run_operation, run_read, hooked, run_ofHook]
      rcases (s.operation.outcome.rows.mapM (hook s.operation.actor)).run s.world.journal with
        ⟨failure | rows, journal⟩ <;> rfl

/-- Of a statement that succeeds the database is as it leaves it. -/
theorem exists_of_run_write {statement : Database → Except StoreError (Nat × Database)}
    (ran : write statement setting s = (.ok (), s')) : ∃ n db,
      statement s.world.db = .ok (n, db) ∧
        s' = ⟨s.operation.withAffected n, { s.world with db }⟩ := by
  rw [run_write] at ran
  cases answer : statement s.world.db with
  | error reason =>
      rw [answer] at ran
      cases ran
  | ok written =>
      rw [answer] at ran
      cases ran
      exact ⟨_, _, rfl, rfl⟩

end Step

section Statement

variable {setting : Setting} {w : World} {request : Request} {e : Entity} {actor : Actor}
  {s s' : Session}

/-- The rows on which the statement of an operation acts, by the parts of its filter. -/
def Operation.wants (o : Operation) (db : Database) (t : Table) (row : Row) : Bool :=
  o.filter.parts.all fun g => g.passes db o.entity.table t row

theorem Operation.passes_eq_wants (o : Operation) (db : Database) (t : Table) :
    db.passes o.entity.table t o.condition = o.wants db t := o.passes_parts db _ t

/-- A query that comes to its end shows a page of the rows wanted. -/
theorem actsOn_query (phase : request.phase = .query)
    (underway : Underway setting w request e actor s)
    (ran : Session.runChain setting Callbacks.finding s = (.ok (), s')) :
    w.ActsOn setting request e actor s.operation.payload (s.operation.wants w.db)
      s'.operation.outcome s'.world.db := by
  obtain ⟨samePhase, rfl, rfl, samePage, fresh, going, sameRows, -⟩ := underway
  obtain ⟨s₁, queried, ran⟩ := exists_of_runChain_cons going ran
  cases stored : w.db.table? s.operation.entity.table with
  | none =>
      have refused : Store.select w.db s.operation.entity s.operation.condition
          s.operation.page.offset (some (setting.limits.pageLimit s.operation.page.limit)) =
            .error .engine :=
        Store.select_of_no_table stored _ _
      rw [← sameRows] at refused
      rw [Step.queryRows_error refused] at queried
      cases queried
  | some t =>
      have selects : Store.select w.db s.operation.entity s.operation.condition
          s.operation.page.offset (some (setting.limits.pageLimit s.operation.page.limit)) = _ :=
        Store.select_eq stored _ _
      cases taken : Store.takes w.db s.operation.entity t s.operation.condition
          s.operation.page.offset with
      | false =>
          rw [taken, if_neg Bool.false_ne_true, ← sameRows] at selects
          rw [Step.queryRows_error selects] at queried
          cases queried
      | true =>
          have counts := Store.count_of_takes stored taken
          rw [taken, if_pos rfl, ← sameRows] at selects
          rw [← sameRows] at counts
          rw [Step.queryRows_ok selects counts] at queried
          cases queried
          obtain ⟨s₂, revealed, ran⟩ := exists_of_runChain_cons (by exact going) ran
          rw [Step.run_afterFind] at revealed
          split at revealed
          · rename_i records journal hooked
            cases revealed
            obtain ⟨s₃, redacted, ran⟩ := exists_of_runChain_cons (by exact going) ran
            cases redacted
            obtain ⟨s₄, audited, ran⟩ := exists_of_runChain_cons (by exact going) ran
            cases audited
            cases ran
            simp only [sameRows, Operation.passes_eq_wants, samePage] at hooked
            have shows : w.ActsOn setting request s.operation.entity s.operation.actor
                s.operation.payload (s.operation.wants w.db) _ _ :=
              .found phase stored hooked
            simp only [Operation.withRows, fresh, sameRows, Operation.passes_eq_wants, samePage]
            exact shows
          · cases revealed

/-- An update that comes to its end changes the rows wanted, or none if its changes stray. -/
theorem actsOn_update (phase : request.phase = .update)
    (underway : Underway setting w request e actor s)
    (ran : Session.runChain setting
      [(Builtin.update.name, Step.updateRows), (Builtin.audit.name, Step.audit)] s = (.ok (), s')) :
    w.ActsOn setting request e actor s.operation.payload (s.operation.wants w.db)
      s'.operation.outcome s'.world.db := by
  obtain ⟨samePhase, rfl, rfl, samePage, fresh, going, sameRows, known⟩ := underway
  obtain ⟨s₁, written, ran⟩ := exists_of_runChain_cons going ran
  cases stays : s.operation.staysWritable with
  | true =>
      rw [Step.updateRows_stays stays] at written
      obtain ⟨n, db, updated, rfl⟩ := Step.exists_of_run_write written
      obtain ⟨s₂, audited, ran⟩ := exists_of_runChain_cons (by exact going) ran
      cases audited
      cases ran
      rw [sameRows] at updated
      obtain ⟨t, stored, rfl, rfl⟩ := Database.update?_eq_some (Store.update?_of_ok updated)
      have changes : w.ActsOn setting request s.operation.entity s.operation.actor
          s.operation.payload (s.operation.wants w.db) _ _ := .changed phase stored
      simp only [Operation.passes_eq_wants, Operation.withAffected, fresh]
      exact changes
  | false =>
      rw [Step.updateRows_strays stays] at written
      cases written
      obtain ⟨s₂, audited, ran⟩ := exists_of_runChain_cons (by exact going) ran
      cases audited
      cases ran
      rcases known with ⟨unasked, -⟩ | ⟨p, asked, used⟩
      · rw [Operation.staysWritable, unasked] at stays
        cases stays
      · have mayNot : p.mayMake s.operation.entity s.operation.payload = false := by
          have restricted : s.operation.entity.unrestricted = false := by
            rw [World.used?] at used
            split at used
            · cases used
            · rename_i restricted
              exact Bool.eq_false_iff.mpr restricted
          have uses : s.operation.privileges = p.usedFor s.operation.entity := by
            rw [asked, Privileges.usedFor, restricted, if_neg Bool.false_ne_true]
          exact (staysWritable_eq uses).symm.trans stays
        have strays : w.ActsOn setting request s.operation.entity s.operation.actor
            s.operation.payload (s.operation.wants w.db) _ _ := .strayed phase used mayNot
        simp only [Operation.withAffected, fresh, sameRows]
        exact strays

/-- A delete that comes to its end marks or removes the rows wanted. -/
theorem actsOn_delete (phase : request.phase = .delete)
    (underway : Underway setting w request e actor s)
    (ran : Session.runChain setting
      [(Builtin.delete.name, Step.deleteRows), (Builtin.audit.name, Step.audit)] s = (.ok (), s')) :
    w.ActsOn setting request e actor s.operation.payload (s.operation.wants w.db)
      s'.operation.outcome s'.world.db := by
  obtain ⟨samePhase, rfl, rfl, samePage, fresh, going, sameRows, -⟩ := underway
  obtain ⟨s₁, written, ran⟩ := exists_of_runChain_cons going ran
  cases mark : s.operation.entity.tagged? .softDelete with
  | some f =>
      rw [Step.deleteRows_marks mark] at written
      obtain ⟨n, db, updated, rfl⟩ := Step.exists_of_run_write written
      obtain ⟨s₂, audited, ran⟩ := exists_of_runChain_cons (by exact going) ran
      cases audited
      cases ran
      rw [sameRows] at updated
      obtain ⟨t, stored, rfl, rfl⟩ := Database.update?_eq_some (Store.update?_of_ok updated)
      have marks : w.ActsOn setting request s.operation.entity s.operation.actor
          s.operation.payload (s.operation.wants w.db) _ _ := .marked phase mark stored
      simp only [Operation.passes_eq_wants, Operation.withAffected, Operation.setField, fresh]
      exact marks
  | none =>
      rw [Step.deleteRows_removes mark] at written
      obtain ⟨n, db, deleted, rfl⟩ := Step.exists_of_run_write written
      obtain ⟨s₂, audited, ran⟩ := exists_of_runChain_cons (by exact going) ran
      cases audited
      cases ran
      rw [sameRows] at deleted
      obtain ⟨t, stored, rfl, rfl⟩ := Database.delete?_eq_some (ofEngine_eq_ok deleted)
      have removes : w.ActsOn setting request s.operation.entity s.operation.actor
          s.operation.payload (s.operation.wants w.db) _ _ := .removed phase mark stored
      simp only [Operation.passes_eq_wants, Operation.withAffected, fresh]
      exact removes

end Statement

end ScopedAccess
