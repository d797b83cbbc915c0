import ScopedAccess.Proofs.Operation.Query
import ScopedAccess.Proofs.Sql.Assignments
/-!
# What updates and deletes touch

An update and a delete touch the rows that their filter holds of, that the principal may
write and that are not marked as deleted, and no others (`World.Touches`). An update sets the
stored fields of its changes, which are signed by the actor before (`Entity.signed`); a delete
removes the rows, or marks and signs them if the entity has a mark of deletion.

An update that names an organization which the principal may not write touches nothing. It is
the signed changes that are looked at: if the field for the last modifier is the one for the
organization as well, an update would move the rows to its actor, which is no organization.

* `writes_exact`: what updates and deletes touch.
-/

namespace ScopedAccess

set_option autoImplicit false

/-! ## What is written -/

/-- Changes signed by an actor. -/
def Entity.signed (e : Entity) (actor : Actor) (changes : Record) : Record :=
  match e.tagged? .lastModifier with
  | some f => changes.insert f.name (.ofUuid actor.id)
  | none => changes

/-- What a delete writes to rows that are not to be removed: the mark of deletion, and who
made it. -/
def Entity.deletion? (e : Entity) (actor : Actor) (now : Instant) : Option Record :=
  (e.tagged? .softDelete).map fun f => (e.signed actor ∅).insert f.name (.str now.text)

/-- Whether a principal may make changes to rows that it may write: they name no organization,
or one that it may write. -/
def Privileges.mayMake (p : Privileges) (e : Entity) (changes : Record) : Bool :=
  e.unrestricted || p.bypass || e.ownerOrgField?.all fun f =>
    !changes.contains f.name ||
      (changes.uuid? f.name).any fun org => decide (org ∈ p.writableFor e.name)

/-- What comes of a request that changes the wanted rows of a table, or removes those that are
changed to nothing. It tells how many they are, and leaves all other rows and tables as they
are; if it fails, it leaves all as it is. -/
structure World.Touches (w : World) (name : Name) (wanted : Row → Bool)
    (change : Table → Row → Option Row) (run : Except OperationError Outcome × World) : Prop where
  done : ∀ outcome, run.1 = .ok outcome → ∃ t, w.db.stored? name = some t ∧
    outcome = ⟨[], none, t.rows.countP wanted⟩ ∧
    run.2.db = w.db.set name { t with
      rows := t.rows.filterMap fun row => if wanted row then change t row else some row }
  failed : ∀ reason, run.1 = .error reason → run.2.db = w.db

theorem World.Touches.told {w : World} {name : Name} {wanted : Row → Bool}
    {change : Table → Row → Option Row} {run : Except OperationError Outcome × World} {t : Table}
    {n : Nat} (touches : w.Touches name wanted change run) (stored : w.db.stored? name = some t)
    (number : t.rows.countP wanted = n) (ok : run.1.isOk = true) : run.1 = .ok ⟨[], none, n⟩ := by
  obtain ⟨outcome, told⟩ := exists_of_isOk ok
  obtain ⟨t', stored', number', -⟩ := touches.done outcome told
  rw [told, number', Option.some.inj (stored'.symm.trans stored), number]

/-! ## Statements -/

namespace Database

variable {db db' : Database} {name : Name} {cond : Condition} {n : Nat}

theorem update?_eq_some {values : Assignments}
    (updated : db.update? name values cond = some (n, db')) :
    ∃ t, db.stored? name = some t ∧ t.rows.countP (db.passes name t cond) = n ∧
      db.set name { t with
        rows := t.rows.map fun row =>
          if db.passes name t cond row then changedRow (t.spread values) row else row } = db' := by
  obtain ⟨t, found, updated⟩ := Option.bind_eq_some_iff.mp updated
  simp only at updated
  split at updated
  · obtain ⟨number, rows⟩ := Prod.mk.inj (Option.some.inj updated)
    exact ⟨t, found, number, rows⟩
  · cases updated

theorem delete?_eq_some (deleted : db.delete? name cond = some (n, db')) :
    ∃ t, db.stored? name = some t ∧ t.rows.countP (db.passes name t cond) = n ∧
      db.set name { t with rows := t.rows.filter fun row => !db.passes name t cond row } = db' := by
  obtain ⟨t, found, deleted⟩ := Option.bind_eq_some_iff.mp deleted
  simp only at deleted
  split at deleted
  · obtain ⟨number, rows⟩ := Prod.mk.inj (Option.some.inj deleted)
    exact ⟨t, found, number, rows⟩
  · cases deleted

end Database

theorem ofEngine_eq_ok {α : Type} {answer : Option α} {a : α}
    (ok : Store.ofEngine answer = .ok a) : answer = some a := by
  cases answer with
  | none => cases ok
  | some b => exact congrArg some (Except.ok.inj ok)

/-- To change some rows, or to remove them, is to map each row to what becomes of it. -/
theorem map_eq_filterMap (rows : List Row) (wanted : Row → Bool) (change : Row → Row) :
    (rows.map fun row => if wanted row then change row else row) =
      rows.filterMap fun row => if wanted row then some (change row) else some row := by
  rw [← List.filterMap_eq_map]
  congr 1
  funext row
  show some (if wanted row then change row else row) = _
  cases wanted row <;> rfl

theorem filter_eq_filterMap (rows : List Row) (wanted : Row → Bool) :
    (rows.filter fun row => !wanted row) =
      rows.filterMap fun row => if wanted row then none else some row := by
  rw [← List.filterMap_eq_filter]
  congr 1
  funext row
  cases passed : wanted row <;> simp [Option.guard, passed]

namespace Store

variable {db db' : Database} {e : Entity} {cond : Condition} {changes : Record} {n : Nat}

theorem update?_of_ok (updated : update db e changes cond = .ok (n, db')) :
    db.update? e.table (assignments e changes) cond = some (n, db') := by
  unfold update at updated
  split at updated
  · cases updated
  · exact ofEngine_eq_ok updated

/-- An update writes its changes to the rows that pass. -/
theorem update_ok (separated : ∀ t, db.stored? e.table = some t → e.SeparatedIn t)
    (updated : update db e changes cond = .ok (n, db')) :
    ∃ t, db.stored? e.table = some t ∧ t.rows.countP (db.passes e.table t cond) = n ∧
      db.set e.table { t with
        rows := t.rows.filterMap fun row =>
          if db.passes e.table t cond row then some (e.written t changes row) else some row } =
        db' := by
  obtain ⟨t, found, number, rows⟩ := Database.update?_eq_some (update?_of_ok updated)
  refine ⟨t, found, number, ?_⟩
  rw [← rows, ← map_eq_filterMap]
  simp only [changedRow_assignments (separated t found)]

/-- A delete removes the rows that pass. -/
theorem delete_ok (deleted : delete db e cond = .ok (n, db')) :
    ∃ t, db.stored? e.table = some t ∧ t.rows.countP (db.passes e.table t cond) = n ∧
      db.set e.table { t with
        rows := t.rows.filterMap fun row =>
          if db.passes e.table t cond row then none else some row } = db' := by
  obtain ⟨t, found, number, rows⟩ := Database.delete?_eq_some (ofEngine_eq_ok deleted)
  exact ⟨t, found, number, by rw [← rows, filter_eq_filterMap]⟩

end Store

/-! ## Chains that end in a statement -/

namespace Step

variable {setting : Setting} {s : Session}

theorem run_write (statement : Database → Except StoreError (Nat × Database)) :
    write statement setting s = match statement s.world.db with
      | .ok (n, db) => (.ok (), ⟨s.operation.withAffected n, { s.world with db }⟩)
      | .error reason => (.error (.operation (.store reason)), s) := by
  unfold write
  cases answer : statement s.world.db with
  | ok written => simp [answer, setDatabase]
  | error reason => simp [answer]

theorem beforeUpdate_none (unhooked : setting.lifecycle.beforeUpdate s.operation.entity.name = none) :
    beforeUpdate setting s = (.ok (), s) := by
  simp [beforeUpdate, changePayload, unhooked]

theorem beforeDelete_none (unhooked : setting.lifecycle.beforeDelete s.operation.entity.name = none) :
    beforeDelete setting s = (.ok (), s) := by
  simp [beforeDelete, unhooked]

theorem updateRows_stays (stays : s.operation.staysWritable = true) :
    updateRows setting s = write (fun db =>
      Store.update db s.operation.entity s.operation.payload s.operation.condition) setting s := by
  simp [updateRows, stays]

theorem updateRows_strays (strays : s.operation.staysWritable = false) :
    updateRows setting s = (.ok (), { s with operation := s.operation.withAffected 0 }) := by
  simp [updateRows, strays]

theorem deleteRows_marks {f : Field} (marks : s.operation.entity.tagged? .softDelete = some f) :
    deleteRows setting s = write (fun db => Store.update db s.operation.entity
        (s.operation.payload.insert f.name (.str setting.now.text)) s.operation.condition) setting
      { s with operation := s.operation.setField f.name (.str setting.now.text) } := by
  simp only [deleteRows, run_bind, run_operation, marks, run_read, run_change]
  rfl

theorem deleteRows_removes (unmarked : s.operation.entity.tagged? .softDelete = none) :
    deleteRows setting s = write (fun db =>
      Store.delete db s.operation.entity s.operation.condition) setting s := by
  simp only [deleteRows, run_bind, run_operation, unmarked]

end Step

/-- The callbacks of an update once its rows are settled. -/
def Callbacks.updating : List (String × Handler) :=
  [(Builtin.stampModifier.name, Step.stampModifier),
    (Builtin.beforeUpdate.name, Step.beforeUpdate), (Builtin.update.name, Step.updateRows),
    (Builtin.audit.name, Step.audit)]

/-- The callbacks of a delete once its rows are settled. -/
def Callbacks.deleting : List (String × Handler) :=
  [(Builtin.beforeDelete.name, Step.beforeDelete),
    (Builtin.stampModifier.name, Step.stampModifier), (Builtin.delete.name, Step.deleteRows),
    (Builtin.audit.name, Step.audit)]

theorem chain_update : Callbacks.builtin.chain .update =
    Callbacks.reaching ++ Callbacks.updating := rfl

theorem chain_delete : Callbacks.builtin.chain .delete =
    Callbacks.reaching ++ Callbacks.deleting := rfl

theorem stampModifier_eq (o : Operation) :
    o.stampModifier = { o with payload := o.entity.signed o.actor o.payload } := by
  rw [Operation.stampModifier, Entity.signed]
  cases o.entity.tagged? .lastModifier <;> rfl

/-- Changes leave rows where they may be written if the principal may make them. -/
theorem staysWritable_eq {o : Operation} {p : Privileges} (used : o.privileges = p.usedFor o.entity) :
    o.staysWritable = p.mayMake o.entity o.payload := by
  rw [Operation.staysWritable, Privileges.mayMake, used, Privileges.usedFor]
  cases unrestricted : o.entity.unrestricted with
  | true => rfl
  | false =>
      cases o.entity.ownerOrgField? with
      | none => simp
      | some f => simp [Bool.or_assoc]

section Requests

variable {w w' : World} {setting : Setting} {actor : Actor} {name label : String} {e : Entity}
  {request : Request} {p : Privileges}

/-- A request whose chain comes down to a statement that touches the wanted rows touches them. -/
theorem touches_of_write {wanted : Row → Bool} {change : Table → Row → Option Row}
    {o o' : Operation} {handler : Handler}
    {statement : Database → Except StoreError (Nat × Database)}
    (registered : setting.registry.find? name = some e)
    (run : Session.runChain setting (Callbacks.builtin.chain request.phase)
        ⟨.start request e actor, w⟩ =
      Session.runChain setting [(label, handler), (Builtin.audit.name, Step.audit)] ⟨o, w'⟩)
    (writes : handler setting ⟨o, w'⟩ = Step.write statement setting ⟨o', w'⟩)
    (going : o.stopped = false) (going' : o'.stopped = false) (fresh : o'.outcome = .empty)
    (same : w'.db = w.db)
    (touches : ∀ n db', statement w.db = .ok (n, db') → ∃ t, w.db.stored? e.table = some t ∧
      t.rows.countP wanted = n ∧ w.db.set e.table { t with
        rows := t.rows.filterMap fun row => if wanted row then change t row else some row } = db') :
    w.Touches e.table wanted change (w.perform setting .builtin actor name request) := by
  rw [Step.run_write, same] at writes
  cases answer : statement w.db with
  | error reason =>
      rw [answer] at writes
      rw [perform_of_error registered (run.trans (runChain_cons_error going writes))]
      exact ⟨fun outcome succeeded => (nomatch succeeded), fun reason failed => rfl⟩
  | ok written =>
      obtain ⟨n, db'⟩ := written
      rw [answer] at writes
      obtain ⟨t, found, number, rows⟩ := touches n db' answer
      have ends : Session.runChain setting [(label, handler), (Builtin.audit.name, Step.audit)]
          ⟨o, w'⟩ = (.ok (), _) :=
        (runChain_cons_ok going writes).trans (runChain_cons_ok going' rfl)
      rw [perform_of_ok registered (run.trans ends)]
      refine ⟨fun outcome succeeded => ?_, fun reason failed => nomatch failed⟩
      cases succeeded
      refine ⟨t, found, ?_, rows.symm⟩
      rw [number]
      simp [Operation.withAffected, fresh, Outcome.empty]

variable {filter : Json} {changes : Record} {f : CompiledFilter}

/-- The operation that writes rows once they are settled and its actor has signed. -/
def Operation.writing (request : Request) (e : Entity) (actor : Actor) (f : CompiledFilter)
    (p : Privileges) : Operation :=
  { (Operation.start request e actor).reached f (p.usedFor e) with
    payload := e.signed actor request.payload }

theorem stampModifier_reached : Step.stampModifier setting
      ⟨(Operation.start request e actor).reached f (p.usedFor e), w⟩ =
    (.ok (), ⟨.writing request e actor f p, w⟩) := by
  rw [Step.stampModifier, Step.run_change, stampModifier_eq]
  rfl

theorem runChain_update
    (compiled : compile setting.registry setting.limits.maxFilterDepth e filter = .ok f)
    (resolved : e.unrestricted = false → (w.privilegesOf setting actor).1 = .ok p)
    (unhooked : setting.lifecycle.beforeUpdate e.name = none) :
    Session.runChain setting (Callbacks.builtin.chain .update)
        ⟨.start (.update filter changes) e actor, w⟩ =
      Session.runChain setting
        [(Builtin.update.name, Step.updateRows), (Builtin.audit.name, Step.audit)]
        ⟨.writing (.update filter changes) e actor f p, w.asked setting e actor⟩ := by
  rw [chain_update]
  exact (runChain_reaching compiled resolved).trans <|
    (runChain_cons_ok rfl stampModifier_reached).trans (runChain_cons_ok rfl (Step.beforeUpdate_none unhooked))

theorem runChain_delete
    (compiled : compile setting.registry setting.limits.maxFilterDepth e filter = .ok f)
    (resolved : e.unrestricted = false → (w.privilegesOf setting actor).1 = .ok p)
    (unhooked : setting.lifecycle.beforeDelete e.name = none) :
    Session.runChain setting (Callbacks.builtin.chain .delete)
        ⟨.start (.delete filter) e actor, w⟩ =
      Session.runChain setting
        [(Builtin.delete.name, Step.deleteRows), (Builtin.audit.name, Step.audit)]
        ⟨.writing (.delete filter) e actor f p, w.asked setting e actor⟩ := by
  rw [chain_delete]
  exact (runChain_reaching compiled resolved).trans <|
    (runChain_cons_ok rfl (Step.beforeDelete_none unhooked)).trans (runChain_cons_ok rfl stampModifier_reached)

/-- The statement of a request acts on the rows that its filter holds of, that the principal may
write and that are not marked as deleted. -/
theorem passes_writing (request : Request) (writes : request.phase ≠ .query) {t : Table}
    (registered : setting.registry.find? name = some e)
    (compiled : compile setting.registry setting.limits.maxFilterDepth e filter = .ok f)
    (marked : e.StoresMark) (fits : w.db.Fits setting.registry)
    (stored : w.db.stored? e.table = some t) :
    w.db.passes e.table t (Operation.writing request e actor f p).condition = fun row =>
      Filter.holds setting.registry w.db e row filter && p.mayWrite e row && e.isLive row := by
  funext row
  have passes : w.db.passes e.table t (Operation.writing request e actor f p).condition row =
      (Filter.holds setting.registry w.db e row filter && p.mayReach request.phase e row &&
        e.isLive row) :=
    Operation.passes_reached (.start request e actor) compiled marked fits (fits _ _ registered)
      (Database.table?_of_stored? stored) row
  rw [passes, Privileges.mayReach, if_neg writes]

/-- An update that its principal may make writes the signed changes. -/
theorem update_touches (registered : setting.registry.find? name = some e)
    (marked : e.StoresMark)
    (separated : ∀ t, w.db.stored? e.table = some t → e.SeparatedIn t)
    (compiled : compile setting.registry setting.limits.maxFilterDepth e filter = .ok f)
    (resolved : e.unrestricted = false → (w.privilegesOf setting actor).1 = .ok p)
    (fits : w.db.Fits setting.registry)
    (unhooked : setting.lifecycle.beforeUpdate e.name = none)
    (mayMake : p.mayMake e (e.signed actor changes) = true) :
    w.Touches e.table
      (fun row => Filter.holds setting.registry w.db e row filter && p.mayWrite e row &&
        e.isLive row)
      (fun t row => some (e.written t (e.signed actor changes) row))
      (w.perform setting .builtin actor name (.update filter changes)) := by
  have stays : (Operation.writing (.update filter changes) e actor f p).staysWritable = true :=
    (staysWritable_eq rfl).trans mayMake
  refine touches_of_write registered (runChain_update compiled resolved unhooked)
    (Step.updateRows_stays stays) rfl rfl rfl asked_db ?_
  intro n db' updated
  obtain ⟨t, stored, number, rows⟩ := Store.update_ok separated updated
  rw [passes_writing (.update filter changes) nofun registered compiled marked fits stored]
    at number rows
  exact ⟨t, stored, number, rows⟩

/-- An update that its principal may not make touches nothing. -/
theorem update_strays (registered : setting.registry.find? name = some e)
    (compiled : compile setting.registry setting.limits.maxFilterDepth e filter = .ok f)
    (resolved : e.unrestricted = false → (w.privilegesOf setting actor).1 = .ok p)
    (unhooked : setting.lifecycle.beforeUpdate e.name = none)
    (mayNot : p.mayMake e (e.signed actor changes) = false) :
    (w.perform setting .builtin actor name (.update filter changes)).1 = .ok ⟨[], none, 0⟩ ∧
      (w.perform setting .builtin actor name (.update filter changes)).2.db = w.db := by
  have strays : (Operation.writing (.update filter changes) e actor f p).staysWritable = false :=
    (staysWritable_eq rfl).trans mayNot
  have ends : Session.runChain setting
      [(Builtin.update.name, Step.updateRows), (Builtin.audit.name, Step.audit)]
      ⟨.writing (.update filter changes) e actor f p, w.asked setting e actor⟩ = (.ok (), _) :=
    (runChain_cons_ok rfl (Step.updateRows_strays strays)).trans (runChain_cons_ok rfl rfl)
  rw [perform_of_ok registered ((runChain_update compiled resolved unhooked).trans ends)]
  exact ⟨rfl, asked_db⟩

/-- A delete removes the rows, or writes the mark of deletion. -/
theorem delete_touches (registered : setting.registry.find? name = some e)
    (marked : e.StoresMark)
    (separated : ∀ t, w.db.stored? e.table = some t → e.SeparatedIn t)
    (compiled : compile setting.registry setting.limits.maxFilterDepth e filter = .ok f)
    (resolved : e.unrestricted = false → (w.privilegesOf setting actor).1 = .ok p)
    (fits : w.db.Fits setting.registry)
    (unhooked : setting.lifecycle.beforeDelete e.name = none) :
    w.Touches e.table
      (fun row => Filter.holds setting.registry w.db e row filter && p.mayWrite e row &&
        e.isLive row)
      (fun t row => (e.deletion? actor setting.now).map fun marks => e.written t marks row)
      (w.perform setting .builtin actor name (.delete filter)) := by
  have run : Session.runChain setting (Callbacks.builtin.chain .delete)
      ⟨.start (.delete filter) e actor, w⟩ = _ := runChain_delete compiled resolved unhooked
  rw [Entity.deletion?]
  cases mark : e.tagged? .softDelete with
  | some field =>
      refine touches_of_write registered run (Step.deleteRows_marks mark) rfl rfl rfl asked_db ?_
      intro n db' updated
      obtain ⟨t, stored, number, rows⟩ := Store.update_ok separated updated
      rw [passes_writing (.delete filter) nofun registered compiled marked fits stored]
        at number rows
      exact ⟨t, stored, number, rows⟩
  | none =>
      refine touches_of_write registered run (Step.deleteRows_removes mark) rfl rfl rfl asked_db ?_
      intro n db' deleted
      obtain ⟨t, stored, number, rows⟩ : ∃ t, w.db.stored? e.table = some t ∧
        t.rows.countP (w.db.passes e.table t
          (Operation.writing (.delete filter) e actor f p).condition) = n ∧ _ :=
        Store.delete_ok deleted
      rw [passes_writing (.delete filter) nofun registered compiled marked fits stored]
        at number rows
      exact ⟨t, stored, number, rows⟩

/-- A signature leaves the other fields as they are. -/
theorem find?_signed {field : Field} (known : field ∈ e.fields)
    (apart : e.tagged? .lastModifier ≠ some field) :
    (e.signed actor changes).find? field.name = changes.find? field.name := by
  rw [Entity.signed]
  cases signature : e.tagged? .lastModifier with
  | none => rfl
  | some other =>
      have differ : field.name ≠ other.name := by
        intro same
        have one := Entity.eq_of_name known (Entity.mem_of_tagged? signature) same
        exact apart (one ▸ signature)
      rw [SortedMap.find?_insert, if_neg differ]

/-- A signature does not move rows, unless the field for it is the one for the organization. -/
theorem mayMake_signed (apart : ∀ field, e.tagged? .ownerOrg = some field →
    e.tagged? .lastModifier ≠ some field) :
    p.mayMake e (e.signed actor changes) = p.mayMake e changes := by
  rw [Privileges.mayMake, Privileges.mayMake]
  cases owner : e.ownerOrgField? with
  | none => rfl
  | some field =>
      have tagged := (Option.filter_eq_some_iff.mp owner).1
      have same : (e.signed actor changes).find? field.name = changes.find? field.name :=
        find?_signed (Entity.mem_of_tagged? tagged) (apart field tagged)
      rw [Option.all_some, Option.all_some, SortedMap.contains, SortedMap.contains, Record.uuid?,
        Record.uuid?, same]

/-- What updates and deletes touch: the rows that the filter holds of, that the principal may
write and that are not marked as deleted. An update that the principal may not make touches
nothing and tells so; a signature does not move rows, unless the field for it is the one for
the organization. -/
theorem writes_exact (w : World) (changes : Record)
    (registered : setting.registry.find? name = some e) (marked : e.StoresMark)
    (separated : ∀ t, w.db.stored? e.table = some t → e.SeparatedIn t)
    (compiled : compile setting.registry setting.limits.maxFilterDepth e filter = .ok f)
    (resolved : e.unrestricted = false → (w.privilegesOf setting actor).1 = .ok p)
    (fits : w.db.Fits setting.registry) :
    (setting.lifecycle.beforeUpdate e.name = none →
      if p.mayMake e (e.signed actor changes) then
        w.Touches e.table
          (fun row => Filter.holds setting.registry w.db e row filter && p.mayWrite e row &&
            e.isLive row)
          (fun t row => some (e.written t (e.signed actor changes) row))
          (w.perform setting .builtin actor name (.update filter changes))
      else
        (w.perform setting .builtin actor name (.update filter changes)).1 = .ok ⟨[], none, 0⟩ ∧
          (w.perform setting .builtin actor name (.update filter changes)).2.db = w.db) ∧
    (setting.lifecycle.beforeDelete e.name = none →
      w.Touches e.table
        (fun row => Filter.holds setting.registry w.db e row filter && p.mayWrite e row &&
          e.isLive row)
        (fun t row => (e.deletion? actor setting.now).map fun marks => e.written t marks row)
        (w.perform setting .builtin actor name (.delete filter))) ∧
    ((∀ field, e.tagged? .ownerOrg = some field → e.tagged? .lastModifier ≠ some field) →
      p.mayMake e (e.signed actor changes) = p.mayMake e changes) := by
  refine ⟨fun unhooked => ?_, fun unhooked => ?_, mayMake_signed⟩
  · split
    · rename_i mayMake
      exact update_touches registered marked separated compiled resolved fits unhooked mayMake
    · rename_i mayNot
      exact update_strays registered compiled resolved unhooked (Bool.eq_false_iff.mpr mayNot)
  · exact delete_touches registered marked separated compiled resolved fits unhooked

end Requests

namespace Notebook

/-- Changes the title of a note. -/
def retitled : Record := .ofList [("title", .str "Final")]

/-- Pages belong to the organization that changed them last. -/
def pages : Entity where
  name := "page"
  table := "pages"
  unrestricted := false
  fields := [⟨"id", "id", [.primaryKey], none⟩, ⟨"title", "title", [], none⟩,
    ⟨"org", "org_id", [.ownerOrg, .lastModifier], none⟩]
  wellTagged := ⟨by decide, by decide, by decide⟩

/-- Cards are signed where they are marked as deleted. -/
def cards : Entity where
  name := "card"
  table := "cards"
  unrestricted := false
  fields := [⟨"id", "id", [.primaryKey], none⟩, ⟨"org", "org_id", [.ownerOrg], none⟩,
    ⟨"gone", "gone", [.softDelete, .lastModifier], none⟩]
  wellTagged := ⟨by decide, by decide, by decide⟩

def filing : Setting :=
  { setting with registry := ⟨.ofList [("card", cards), ("page", pages)]⟩ }

/-- A page or a card of the office. -/
def sheet : Row := newRow [("id", .text "1"), ("org_id", .text office.text)]

/-- A world with one page and one card. -/
def files : World :=
  { world [] [] with
    db := { database [] [] with
      tables := fun n =>
        if n = .of "pages" then some (tableOf pages [sheet])
        else if n = .of "cards" then some (tableOf cards [sheet])
        else none } }

end Notebook

open Notebook in
/-- A note in the folder is changed and deleted, the one of another organization is not; and
the signature on the change does not move the note. -/
theorem own_note_is_written :
    ((world [folder "1" "Plans" office.text] [note "7" "Sketch" "1" office.text,
      note "8" "Draft" "1" elsewhere.text]).perform setting .builtin writer "note"
        (.update inPlans retitled)).1 = .ok ⟨[], none, 1⟩ ∧
    ((world [folder "1" "Plans" office.text] [note "7" "Sketch" "1" office.text,
      note "8" "Draft" "1" elsewhere.text]).perform setting .builtin writer "note"
        (.delete inPlans)).1 = .ok ⟨[], none, 1⟩ ∧
    writing.mayMake notes (notes.signed writer retitled) = writing.mayMake notes retitled := by
  obtain ⟨f, compiled⟩ := inPlans_compiles
  have there := stored?_notes [folder "1" "Plans" office.text]
    [note "7" "Sketch" "1" office.text, note "8" "Draft" "1" elsewhere.text]
  obtain ⟨updates, deletes, stays⟩ := writes_exact
    (world [folder "1" "Plans" office.text]
      [note "7" "Sketch" "1" office.text, note "8" "Draft" "1" elsewhere.text])
    retitled find?_note notes_storesMark
    (fun t stored => Option.some.inj (there.symm.trans stored) ▸ notes_separated _)
    compiled (fun _ => privilegesOf_writer _ _) (fits _ _)
  have touched := updates rfl
  rw [if_pos (by decide +kernel)] at touched
  have one : [note "7" "Sketch" "1" office.text, note "8" "Draft" "1" elsewhere.text].countP
      (fun row => Filter.holds registry (database [folder "1" "Plans" office.text]
        [note "7" "Sketch" "1" office.text, note "8" "Draft" "1" elsewhere.text]) notes row inPlans &&
          writing.mayWrite notes row && notes.isLive row) = 1 := by decide +kernel
  refine ⟨touched.told there one (by decide +kernel), ?_, stays ?_⟩
  · exact (deletes rfl).told there one (by decide +kernel)
  · intro field owner signature
    exact absurd (owner.trans signature.symm) (by decide)

open Notebook in
/-- Signatures in the way of other tags. The writer may write the page and its changes name no
organization, but its signature is none that it may write, so nothing is changed. The card
gets the mark of deletion and no signature. -/
theorem signatures_clash :
    (files.privilegesOf filing writer).1 = .ok writing ∧
    ((pages.fields.all Field.isStored = true ∧ (Store.columns pages).Nodup) ∧
      retitled.contains "org" = false ∧
      [sheet].countP (fun row => Filter.holds filing.registry files.db pages row .null &&
        writing.mayWrite pages row && pages.isLive row) = 1 ∧
      (files.perform filing .builtin writer "page" (.update .null retitled)).1 =
        .ok ⟨[], none, 0⟩) ∧
    (cards.fields.all Field.isStored = true ∧ (Store.columns cards).Nodup) ∧
      (cards.tagged? .lastModifier).map Field.column = some "gone" ∧
      (files.perform filing .builtin writer "card" (.delete .null)).1.isOk = true ∧
      ((files.perform filing .builtin writer "card" (.delete .null)).2.db.tables "cards").map
        (fun t => t.rows.map fun row => row "gone") = some [.text filing.now.text] ∧
      filing.now.text ≠ writer.id.text := by
  have resolved : (files.privilegesOf filing writer).1 = .ok writing := by decide +kernel
  have registered : filing.registry.find? "page" = some pages := rfl
  have strays : (files.perform filing .builtin writer "page" (.update .null retitled)).1 =
      .ok ⟨[], none, 0⟩ :=
    (update_strays registered rfl (fun _ => resolved) rfl (by decide +kernel)).1
  refine ⟨resolved, ⟨⟨rfl, ?_⟩, ?_, ?_, strays⟩, ⟨rfl, ?_⟩, rfl, ?_, ?_, ?_⟩
  all_goals decide +kernel

end ScopedAccess
