import ScopedAccess.Proofs.Operation.Acting
import ScopedAccess.Proofs.Operation.Creation
/-!
# Who owns the rows

A create makes its actor the owner of the row that it adds, whatever its record says. What
follows it need not keep to that: the changes of an update are written as they come, and if they
name the owner, the rows have another one from then on. Nobody but the client asks for that. A
delete that marks rows and the signature of their last modifier are written to fields of their
own, unless these are the owner's as well.

Rows are followed through whatever deeds are done on their table (`History`), each with where it
comes from: it was there from the start, or somebody has created it. One deed adds a row, changes
rows in place or removes some (`Deed.effect`), so that its rows can always be followed further
(`Deed.Effect.exists_follows`).

* `owners_kept`: the owner that a row names is the one that it came with, or one that a deed has
  put there.
-/

namespace ScopedAccess

set_option autoImplicit false

/-! ## Deeds -/

/-- What a client may ask to be written. -/
inductive Change where
  | create (record : Record)
  | update (filter : Json) (changes : Record)
  | delete (filter : Json)

namespace Change

def request : Change → Request
  | create record => .create record
  | update filter changes => .update filter changes
  | delete filter => .delete filter

def isCreate : Change → Bool
  | create _ => true
  | _ => false

end Change

/-- What an actor asks to be written, and in which setting. -/
structure Deed where
  setting : Setting
  actor : Actor
  change : Change

namespace Deed

/-- The world after a deed on an entity. -/
def run (d : Deed) (name : String) (w : World) : World :=
  (w.perform d.setting .builtin d.actor name d.change.request).2

/-- An entity is known under a name, and no hook of it has a say in what is written. -/
structure Unhooked (d : Deed) (name : String) (e : Entity) : Prop where
  registered : d.setting.registry.find? name = some e
  beforeCreate : d.setting.lifecycle.beforeCreate e.name = none
  beforeUpdate : d.setting.lifecycle.beforeUpdate e.name = none
  beforeDelete : d.setting.lifecycle.beforeDelete e.name = none

/-- What a deed writes to the rows that it adds or changes. -/
def values (d : Deed) (e : Entity) : Record :=
  match d.change with
  | .create record => e.stamped d.actor record
  | .update _ changes => e.signed d.actor changes
  | .delete _ => (e.deletion? d.actor d.setting.now).getD ∅

/-- What a deed may do to the table of an entity. -/
inductive Effect (d : Deed) (e : Entity) (t : Table) : Table → Prop
  | idle : Effect d e t t
  | added (creates : d.change.isCreate = true) : Effect d e t (t.adding (e.added t (d.values e)))
  | changed (wanted : Row → Bool) (alters : d.change.isCreate = false) :
      Effect d e t (t.changing wanted (Store.assignments e (d.values e)))
  | removed (wanted : Row → Bool) (alters : d.change.isCreate = false) :
      Effect d e t (t.removing wanted)

end Deed

section Effects

variable {setting : Setting} {w : World} {e : Entity} {actor : Actor} {p : Privileges}
  {s s' : Session} {f : CompiledFilter} {name : String} {d : Deed} {t t' : Table}

/-- To ask for privileges changes what is known of them. -/
theorem Step.exists_of_privileges (ran : privileges setting s = (.ok p, s')) : ∃ resolver,
    s' = ⟨{ s.operation with privileges := some p }, { s.world with resolver }⟩ := by
  cases known : s.operation.privileges with
  | some q =>
      simp only [privileges, run_bind, run_get, known, run_pure] at ran
      cases ran
      exact ⟨s.world.resolver, by rw [← known]⟩
  | none =>
      rcases answer : s.world.resolver.resolve setting.resolver setting.now.seconds
        s.operation.actor with ⟨failure | q, resolver⟩
      · simp only [privileges, run_bind, run_get, known, run_read, run_changeWorld, answer] at ran
        cases ran
      · simp only [privileges, run_bind, run_get, known, run_read, run_changeWorld, answer] at ran
        cases ran
        exact ⟨resolver, rfl⟩

/-- A create is stopped, or goes on with its record; it tells of no rows. -/
theorem Step.checkWriteScope_cases (ran : checkWriteScope setting s = (.ok (), s')) :
    s'.world.db = s.world.db ∧
      (∃ n, s'.operation.outcome = { s.operation.outcome with affected := n }) ∧
      (s'.operation.stopped = true ∨
        s'.operation.entity = s.operation.entity ∧ s'.operation.payload = s.operation.payload) := by
  cases unrestricted : s.operation.entity.unrestricted with
  | true =>
      simp only [checkWriteScope, run_bind, run_operation, unrestricted, if_true, run_pure] at ran
      cases ran
      exact ⟨rfl, ⟨_, rfl⟩, .inr ⟨rfl, rfl⟩⟩
  | false =>
      rcases asked : privileges setting s with ⟨failure | p, s₁⟩
      · simp only [checkWriteScope, run_bind, run_operation, unrestricted, Bool.false_eq_true,
          if_false, asked] at ran
        cases ran
      · obtain ⟨resolver, rfl⟩ := exists_of_privileges asked
        simp only [checkWriteScope, run_bind, run_operation, unrestricted, Bool.false_eq_true,
          if_false, asked] at ran
        split at ran
        · cases ran
          exact ⟨rfl, ⟨_, rfl⟩, .inr ⟨rfl, rfl⟩⟩
        · cases ran
          exact ⟨rfl, ⟨0, rfl⟩, .inl rfl⟩

/-- A create that comes to its end tells of no rows. It adds the row of the stamped record that its
hook has left, or it is stopped. -/
theorem exists_of_create {request : Request}
    (ran : Session.runChain setting (Callbacks.builtin.chain .create)
      ⟨.start request e actor, w⟩ = (.ok (), s')) :
    ∃ record journal,
      (setting.lifecycle.prepare e actor request.payload).run w.journal = (.ok record, journal) ∧
      (∃ n, s'.operation.outcome = ⟨[], none, n⟩) ∧
      (s'.world.db = w.db ∨ ∃ t, w.db.stored? e.table = some t ∧
        s'.world.db = w.db.set e.table (t.adding (e.added t (e.stamped actor record)))) := by
  rcases prepared : (setting.lifecycle.prepare e actor request.payload).run w.journal with
    ⟨failure | record, journal⟩
  · have fails : Session.runChain setting (Callbacks.builtin.chain .create)
        ⟨.start request e actor, w⟩ = _ :=
      runChain_cons_error rfl (Step.beforeCreate_error prepared)
    rw [fails] at ran
    cases ran
  refine ⟨record, journal, rfl, ?_⟩
  have stamps : Step.stampOwner setting
      ⟨{ Operation.start request e actor with payload := record }, { w with journal }⟩ = (.ok (),
        ⟨{ Operation.start request e actor with payload := e.stamped actor record },
          { w with journal }⟩) := by
    rw [Step.stampOwner, Step.run_change, stampOwner_eq]
    rfl
  have settles : Session.runChain setting (Callbacks.builtin.chain .create)
      ⟨.start request e actor, w⟩ = Session.runChain setting
        ((Builtin.checkWriteScope.name, Step.checkWriteScope) :: Callbacks.inserting) _ :=
    (runChain_cons_ok rfl (Step.beforeCreate_ok prepared)).trans (runChain_cons_ok rfl stamps)
  rw [settles] at ran
  obtain ⟨s₁, checked, ran⟩ := exists_of_runChain_cons rfl ran
  obtain ⟨same, ⟨n, told⟩, left⟩ := Step.checkWriteScope_cases checked
  cases going : s₁.operation.stopped with
  | true =>
      rw [runChain_stopped going] at ran
      cases ran
      exact ⟨⟨n, told⟩, .inl same⟩
  | false =>
      obtain ⟨entity, payload⟩ := left.resolve_left (by rw [going]; exact Bool.false_ne_true)
      obtain ⟨s₂, inserted, ran⟩ := exists_of_runChain_cons going ran
      rw [Step.createRow_eq, entity, payload] at inserted
      obtain ⟨n, db, inserts, rfl⟩ := Step.exists_of_run_write inserted
      rw [same] at inserts
      obtain ⟨t, stored, -, -, rfl⟩ := Store.insert_ok inserts
      obtain ⟨s₃, shown, ran⟩ := exists_of_runChain_cons (by exact going) ran
      obtain ⟨journal, calm | ⟨-, failure, fails⟩⟩ := Step.afterCreate_cases setting
        ⟨s₁.operation.withAffected n, { s₁.world with db := _ }⟩
      · rw [calm] at shown
        cases shown
        obtain ⟨s₄, audited, ran⟩ := exists_of_runChain_cons (by exact going) ran
        cases audited
        cases ran
        refine ⟨⟨n, ?_⟩, .inr ⟨t, stored, rfl⟩⟩
        rw [Operation.withAffected, told]
        rfl
      · rw [fails] at shown
        cases shown

/-- Without a hook the row that a create adds is that of its own record, stamped. -/
theorem creates_of_ok {record : Record} (unhooked : setting.lifecycle.beforeCreate e.name = none)
    (ran : Session.runChain setting (Callbacks.builtin.chain .create)
      ⟨.start (.create record) e actor, w⟩ = (.ok (), s')) :
    s'.world.db = w.db ∨ ∃ t, w.db.stored? e.table = some t ∧
      s'.world.db = w.db.set e.table (t.adding (e.added t (e.stamped actor record))) := by
  obtain ⟨record', journal, prepared, -, left⟩ := exists_of_create ran
  rw [Lifecycle.prepare, unhooked] at prepared
  cases prepared
  exact left

/-- A request that comes to its end has a filter that compiles and the privileges that it needs. -/
theorem exists_of_runChain_reaching {request : Request} {rest : List (String × Handler)}
    (ran : Session.runChain setting (Callbacks.reaching ++ rest) ⟨.start request e actor, w⟩ =
      (.ok (), s')) :
    ∃ f p, compile setting.registry setting.limits.maxFilterDepth e request.filter = .ok f ∧
      (e.unrestricted = false → (w.privilegesOf setting actor).1 = .ok p) := by
  cases compiled : compile setting.registry setting.limits.maxFilterDepth e request.filter with
  | error reason =>
      rw [runChain_uncompiled compiled] at ran
      cases ran
  | ok f =>
      rcases privilegesOf_cases w setting e actor with ⟨restricted, reason, refused⟩ | ⟨p, resolved⟩
      · rw [runChain_unresolved compiled restricted refused] at ran
        cases ran
      · exact ⟨f, p, rfl, resolved⟩

theorem underway_writing {request : Request}
    (resolved : e.unrestricted = false → (w.privilegesOf setting actor).1 = .ok p) :
    Underway setting w request e actor
      ⟨.writing request e actor f p, w.asked setting e actor⟩ := by
  refine ⟨rfl, rfl, rfl, rfl, rfl, rfl, asked_db, ?_⟩
  cases unrestricted : e.unrestricted with
  | true =>
      left
      rw [World.asked, if_pos unrestricted]
      exact ⟨if_pos unrestricted, rfl⟩
  | false =>
      right
      refine ⟨p, if_neg (by simp [unrestricted]), ?_⟩
      rw [World.used?, if_neg (by simp [unrestricted]), resolved unrestricted]
      rfl

/-- What a deed does to the table of its entity. -/
theorem Deed.effect (unhooked : d.Unhooked name e) (stored : w.db.stored? e.table = some t) :
    ∃ t', d.Effect e t t' ∧ (d.run name w).db.stored? e.table = some t' := by
  obtain ⟨setting, actor, change⟩ := d
  obtain ⟨registered, beforeCreate, beforeUpdate, beforeDelete⟩ := unhooked
  rcases told : (w.perform setting .builtin actor name change.request).1 with failure | outcome
  · have same : (Deed.run ⟨setting, actor, change⟩ name w).db = w.db :=
      perform_failed registered told
    exact ⟨t, .idle, same ▸ stored⟩
  · obtain ⟨s', ran, -, left⟩ := exists_of_perform_ok registered told
    rw [show Deed.run ⟨setting, actor, change⟩ name w = s'.world from left]
    cases change with
    | create record =>
        rcases creates_of_ok beforeCreate ran with same | ⟨t₁, stored₁, adds⟩
        · exact ⟨t, .idle, same ▸ stored⟩
        · obtain rfl := Option.some.inj (stored.symm.trans stored₁)
          exact ⟨_, .added rfl, adds ▸ Database.stored?_set stored⟩
    | update filter changes =>
        obtain ⟨f, p, compiled, resolved⟩ := exists_of_runChain_reaching ran
        have settles : Session.runChain setting (Callbacks.builtin.chain .update)
            ⟨.start (.update filter changes) e actor, w⟩ = _ :=
          runChain_update compiled resolved beforeUpdate
        have acts := actsOn_update rfl (underway_writing resolved) (settles.symm.trans ran)
        generalize s'.operation.outcome = told, s'.world.db = db at acts ⊢
        cases acts with
        | found phase => cases phase
        | changed phase stored₁ =>
            obtain rfl := Option.some.inj (stored.symm.trans stored₁)
            exact ⟨_, .changed _ rfl, Database.stored?_set stored⟩
        | strayed => exact ⟨t, .idle, stored⟩
        | marked phase => cases phase
        | removed phase => cases phase
    | delete filter =>
        obtain ⟨f, p, compiled, resolved⟩ := exists_of_runChain_reaching ran
        have settles := runChain_delete compiled resolved beforeDelete
        have acts := actsOn_delete rfl (underway_writing resolved) (settles.symm.trans ran)
        generalize s'.operation.outcome = told, s'.world.db = db at acts ⊢
        cases acts with
        | found phase => cases phase
        | changed phase => cases phase
        | strayed phase => cases phase
        | @marked t₁ field phase mark stored₁ =>
            obtain rfl := Option.some.inj (stored.symm.trans stored₁)
            have marks : Deed.values ⟨setting, actor, .delete filter⟩ e =
                (e.signed actor ∅).insert field.name (.str setting.now.text) := by
              rw [Deed.values, Entity.deletion?, mark]
              rfl
            have changes (wanted : Row → Bool) : Deed.Effect ⟨setting, actor, .delete filter⟩ e t
                (t.changing wanted (Store.assignments e
                  ((e.signed actor ∅).insert field.name (.str setting.now.text)))) :=
              marks ▸ .changed wanted rfl
            exact ⟨_, changes _, Database.stored?_set stored⟩
        | removed phase unmarked stored₁ =>
            obtain rfl := Option.some.inj (stored.symm.trans stored₁)
            exact ⟨_, .removed _ rfl, Database.stored?_set stored⟩

end Effects

/-! ## Rows and where they come from -/

/-- Where a row comes from: it was there, or somebody has created it. -/
inductive Origin where
  | there (row : Row)
  | created (creator : Uuid)

/-- The owner that a row comes with. -/
def Origin.owner (f : Field) : Origin → Datum
  | there row => row f.column
  | created creator => .text creator.text

/-- A row was in a table, or it has been created by one of some deeds. -/
def Origin.IsIn (t : Table) (deeds : List Deed) : Origin → Prop
  | there row => row ∈ t.rows
  | created creator => ∃ d ∈ deeds, d.change.isCreate = true ∧ d.actor.id = creator

/-- A row and where it comes from. -/
structure Tracked where
  origin : Origin
  row : Row

/-- How rows may be followed through a deed: it leaves them, adds one of its actor's, changes them
in place or takes some away. -/
inductive Deed.Follows (d : Deed) (rows : List Tracked) : List Tracked → Prop
  | idle : Follows d rows rows
  | added (creates : d.change.isCreate = true) (row : Row) :
      Follows d rows (rows ++ [⟨.created d.actor.id, row⟩])
  | changed (alters : d.change.isCreate = false) (alter : Row → Row) :
      Follows d rows (rows.map fun x => ⟨x.origin, alter x.row⟩)
  | removed (alters : d.change.isCreate = false) (stays : Row → Bool) :
      Follows d rows (rows.filter fun x => stays x.row)

/-- The world after some deeds on an entity one after the other, and the rows of its table with
where they come from. What decides about privileges may change from one deed to the next. -/
inductive History (name : String) (e : Entity) (begin : World) :
    List Deed → World → List Tracked → Prop
  | start {t : Table} (stored : begin.db.stored? e.table = some t) :
      History name e begin [] begin (t.rows.map fun row => ⟨.there row, row⟩)
  | deed {deeds : List Deed} {w w' : World} {rows rows' : List Tracked} {t : Table}
      (history : History name e begin deeds w rows) (same : w'.db = w.db) (d : Deed)
      (unhooked : d.Unhooked name e) (stored : (d.run name w').db.stored? e.table = some t)
      (follows : d.Follows rows rows') (shows : rows'.map Tracked.row = t.rows) :
      History name e begin (deeds ++ [d]) (d.run name w') rows'

/-- A deed writes a value to the column of a field: to the field, or to another that has the column
as well. What a create writes to the field is the stamp. -/
def Deed.Assigns (d : Deed) (e : Entity) (t : Table) (f : Field) (datum : Datum) : Prop :=
  ∃ g ∈ e.storedFields, ∃ value, t.sameColumn g.column f.column = true ∧
    (d.change.isCreate = true → g ≠ f) ∧ (d.values e).find? g.name = some value ∧
      .ofJson value = datum

/-- If a deed is an update, its changes do not name a field. -/
def Deed.Spares (d : Deed) (f : Field) : Prop :=
  ∀ filter changes, d.change = .update filter changes → changes.contains f.name = false

section Owners

variable {e : Entity} {f : Field} {d : Deed} {t t' : Table} {rows rows' : List Tracked}
  {name : String} {w w' begin : World} {deeds : List Deed} {r : Record} {c : Name}

theorem Deed.Effect.columns (effect : d.Effect e t t') : t'.columns = t.columns := by
  cases effect <;> rfl

/-- The rows of a table can be followed through what a deed does to it. -/
theorem Deed.Effect.exists_follows (effect : d.Effect e t t')
    (shows : rows.map Tracked.row = t.rows) :
    ∃ rows', d.Follows rows rows' ∧ rows'.map Tracked.row = t'.rows := by
  cases effect with
  | idle => exact ⟨rows, .idle, shows⟩
  | added creates =>
      refine ⟨_, .added creates (e.added t (d.values e)), ?_⟩
      rw [List.map_append, shows]
      rfl
  | changed wanted alters =>
      refine ⟨_, .changed alters fun row => if wanted row then
        changedRow (t.spread (Store.assignments e (d.values e))) row else row, ?_⟩
      rw [Table.changing, ← shows, List.map_map, List.map_map]
      rfl
  | removed wanted alters =>
      refine ⟨_, .removed alters fun row => !wanted row, ?_⟩
      rw [Table.removing, ← shows, List.filter_map]
      rfl

/-- Of a column that a deed writes something to, it is a field of that column that it writes. -/
theorem Deed.assigns_of_mem {datum : Datum} (alters : d.change.isCreate = false)
    (written : (Name.of f.column, datum) ∈ t.spread (Store.assignments e (d.values e))) :
    d.Assigns e t f datum := by
  obtain ⟨g, listed, value, found, stored, same⟩ := mem_spread_assignments.mp written
  refine ⟨g, listed, value, same, fun creates => ?_, found, stored⟩
  rw [alters] at creates
  cases creates

/-- A row that is created names its creator as the owner, unless another field has the column. -/
theorem Deed.owner_of_created (creates : d.change.isCreate = true)
    (owner : e.ownerField? = some f) :
    e.added t (d.values e) f.column = .text d.actor.id.text ∨
      d.Assigns e t f (e.added t (d.values e) f.column) := by
  have stamp : (d.values e).find? f.name = some (.ofUuid d.actor.id) := by
    rw [Deed.values]
    cases change : d.change with
    | create record => exact find?_stamped (Option.filter_eq_some_iff.mp owner).1
    | update => rw [change] at creates; cases creates
    | delete => rw [change] at creates; cases creates
  have same : t.sameColumn f.column f.column = true := by simp [Table.sameColumn]
  have stamped : (Name.of f.column, Datum.text d.actor.id.text) ∈
      t.spread (Store.assignments e (d.values e)) :=
    mem_spread_assignments.mpr
      ⟨f, Entity.listed_of_owns (.inr owner), _, stamp, Datum.ofJson_eq_text_iff.mpr rfl, same⟩
  obtain ⟨g, listed, value, found, stored, sameG⟩ :=
    mem_spread_assignments.mp (added_mem stamped (by simp))
  by_cases stampsIt : g = f
  · rw [stampsIt, stamp] at found
    left
    rw [← stored, ← Option.some.inj found]
    exact Datum.ofJson_eq_text_iff.mpr rfl
  · exact .inr ⟨g, listed, value, sameG, fun _ => stampsIt, found, stored⟩

/-- The owner that a row names after a deed is the one that it named before, the one that it comes
with, or one that the deed has written. -/
theorem Deed.Effect.owner (effect : d.Effect e t t') (follows : d.Follows rows rows')
    (shows : rows.map Tracked.row = t.rows) (shows' : rows'.map Tracked.row = t'.rows)
    (owner : e.ownerField? = some f) : ∀ x ∈ rows',
      (∃ y ∈ rows, y.origin = x.origin ∧ y.row f.column = x.row f.column) ∨
        x.row f.column = x.origin.owner f ∨ d.Assigns e t f (x.row f.column) := by
  intro x member
  cases follows with
  | idle => exact .inl ⟨x, member, rfl, rfl⟩
  | removed alters stays => exact .inl ⟨x, (List.mem_filter.mp member).1, rfl, rfl⟩
  | added creates row =>
      rcases List.mem_append.mp member with before | new
      · exact .inl ⟨x, before, rfl, rfl⟩
      · obtain rfl := List.mem_singleton.mp new
        rw [List.map_append, shows] at shows'
        cases effect with
        | idle => exact absurd (congrArg List.length shows') (by simp)
        | added =>
            have same : [row] = [e.added t (d.values e)] := List.append_cancel_left shows'
            rw [List.singleton_inj.mp same]
            exact .inr (Deed.owner_of_created creates owner)
        | changed wanted alters => exact absurd (creates.symm.trans alters) nofun
        | removed wanted alters => exact absurd (creates.symm.trans alters) nofun
  | changed alters alter =>
      obtain ⟨y, before, rfl⟩ := List.mem_map.mp member
      rw [List.map_map] at shows'
      have unchanged : t'.rows = t.rows → alter y.row = y.row := by
        intro same
        exact List.map_inj_left.mp (shows'.trans (same.trans shows.symm)) y before
      cases effect with
      | idle => exact .inl ⟨y, before, rfl, by rw [unchanged rfl]⟩
      | added creates => exact absurd (creates.symm.trans alters) nofun
      | removed wanted =>
          have all : (t.rows.filter fun row => !wanted row).length = t.rows.length :=
            (congrArg List.length shows').symm.trans
              (by rw [← shows, List.length_map, List.length_map])
          have stay : (t.removing wanted).rows = t.rows :=
            List.filter_eq_self.mpr (List.length_filter_eq_length_iff.mp all)
          exact .inl ⟨y, before, rfl, by rw [unchanged stay]⟩
      | changed wanted =>
          have becomes : alter y.row = if wanted y.row then
              changedRow (t.spread (Store.assignments e (d.values e))) y.row else y.row := by
            rw [Table.changing, ← shows, List.map_map] at shows'
            exact List.map_inj_left.mp shows' y before
          cases wants : wanted y.row with
          | false =>
              rw [wants, if_neg Bool.false_ne_true] at becomes
              exact .inl ⟨y, before, rfl, by rw [becomes]⟩
          | true =>
              rw [wants, if_pos rfl] at becomes
              rw [becomes]
              rcases changedRow_cases (c := f.column) _ y.row with same | written
              · exact .inl ⟨y, before, rfl, same.symm⟩
              · exact .inr (.inr (Deed.assigns_of_mem alters written))

/-! ## Runs -/

/-- Of a table only its columns count. -/
theorem Deed.Assigns.of_columns {datum : Datum} (assigns : d.Assigns e t' f datum)
    (same : t'.columns = t.columns) : d.Assigns e t f datum := by
  obtain ⟨g, listed, value, sameColumn, rest⟩ := assigns
  rw [Table.sameColumn, same] at sameColumn
  exact ⟨g, listed, value, sameColumn, rest⟩

/-- The rows followed are those of the table, which keeps its columns. -/
theorem History.table (history : History name e begin deeds w rows)
    (stored : begin.db.stored? e.table = some t) :
    ∃ t', w.db.stored? e.table = some t' ∧ rows.map Tracked.row = t'.rows ∧
      t'.columns = t.columns := by
  induction history with
  | start stored' =>
      obtain rfl := Option.some.inj (stored.symm.trans stored')
      exact ⟨t, stored, by rw [List.map_map]; exact List.map_id t.rows, rfl⟩
  | deed history same d unhooked stored₂ follows shows₂ ih =>
      obtain ⟨t₁, stored₁, shows₁, columns⟩ := ih
      obtain ⟨t₂', effect, stored₂'⟩ := Deed.effect unhooked (same ▸ stored₁)
      obtain rfl := Option.some.inj (stored₂.symm.trans stored₂')
      exact ⟨_, stored₂, shows₂, effect.columns.trans columns⟩

/-- Whatever deed comes next, the rows can be followed through it. -/
theorem History.continues (history : History name e begin deeds w rows)
    (stored : begin.db.stored? e.table = some t) (same : w'.db = w.db)
    (unhooked : d.Unhooked name e) :
    ∃ rows', History name e begin (deeds ++ [d]) (d.run name w') rows' := by
  obtain ⟨t₁, stored₁, shows, -⟩ := history.table stored
  obtain ⟨t₂, effect, stored₂⟩ := Deed.effect unhooked (same ▸ stored₁)
  obtain ⟨rows', follows, shows'⟩ := effect.exists_follows shows
  exact ⟨rows', .deed history same d unhooked stored₂ follows shows'⟩

/-- The owner that a row names is the one that it came with, or one that a deed has written. -/
theorem History.owner (history : History name e begin deeds w rows)
    (stored : begin.db.stored? e.table = some t) (owner : e.ownerField? = some f) :
    ∀ x ∈ rows, x.row f.column = x.origin.owner f ∨
      ∃ d ∈ deeds, d.Assigns e t f (x.row f.column) := by
  induction history with
  | start stored' =>
      intro x member
      obtain ⟨row, -, rfl⟩ := List.mem_map.mp member
      exact .inl rfl
  | deed history same d unhooked stored₂ follows shows₂ ih =>
      intro x member
      obtain ⟨t₁, stored₁, shows₁, columns⟩ := history.table stored
      obtain ⟨t₂', effect, stored₂'⟩ := Deed.effect unhooked (same ▸ stored₁)
      obtain rfl := Option.some.inj (stored₂.symm.trans stored₂')
      rcases effect.owner follows shows₁ shows₂ owner x member with
        ⟨y, before, origin, kept⟩ | came | assigns
      · rw [← origin, ← kept]
        exact (ih y before).imp_right fun ⟨d', earlier, assigns⟩ =>
          ⟨d', List.mem_append_left _ earlier, assigns⟩
      · exact .inl came
      · exact .inr ⟨d, List.mem_append_right _ List.mem_cons_self, assigns.of_columns columns⟩

theorem Origin.IsIn.append {origin : Origin} (known : origin.IsIn t deeds) (d : Deed) :
    origin.IsIn t (deeds ++ [d]) := by
  cases origin with
  | there row => exact known
  | created creator =>
      obtain ⟨d', earlier, created⟩ := known
      exact ⟨d', List.mem_append_left [d] earlier, created⟩

/-- Rows were there from the start, or a deed has created them. -/
theorem History.origin (history : History name e begin deeds w rows)
    (stored : begin.db.stored? e.table = some t) : ∀ x ∈ rows, x.origin.IsIn t deeds := by
  induction history with
  | start stored' =>
      obtain rfl := Option.some.inj (stored.symm.trans stored')
      intro x member
      obtain ⟨row, there, rfl⟩ := List.mem_map.mp member
      exact there
  | deed history same d unhooked stored₂ follows shows₂ ih =>
      intro x member
      cases follows with
      | idle => exact (ih x member).append d
      | removed alters stays => exact (ih x (List.mem_filter.mp member).1).append d
      | changed alters alter =>
          obtain ⟨y, before, rfl⟩ := List.mem_map.mp member
          exact (ih y before).append d
      | added creates row =>
          rcases List.mem_append.mp member with before | new
          · exact (ih x before).append d
          · obtain rfl := List.mem_singleton.mp new
            exact ⟨d, List.mem_append_right _ List.mem_cons_self, creates, rfl⟩

/-- A deed that spares the owner writes none, if the owner has a column and a field of its own. -/
theorem Deed.Spares.not_assigns {datum : Datum} (spares : d.Spares f)
    (owner : e.ownerField? = some f) (separated : e.SeparatedIn t)
    (unsigned : e.tagged? .lastModifier ≠ some f) (unmarked : e.tagged? .softDelete ≠ some f) :
    ¬ d.Assigns e t f datum := by
  rintro ⟨g, listed, value, same, other, found, -⟩
  obtain rfl : g = f := separated.eq_of_sameColumn listed (Entity.listed_of_owns (.inr owner)) same
    (by simp [Table.sameColumn])
  have known : g ∈ e.fields := (List.mem_filter.mp listed).1
  rw [Deed.values] at found
  cases change : d.change with
  | create record => exact other (by rw [change]; rfl) rfl
  | update filter changes =>
      rw [change] at found
      have named : changes.find? g.name = some value :=
        (find?_signed known unsigned).symm.trans found
      have unnamed := spares filter changes change
      rw [SortedMap.contains, named] at unnamed
      cases unnamed
  | delete filter =>
      rw [change, Entity.deletion?] at found
      cases mark : e.tagged? .softDelete with
      | none =>
          rw [mark] at found
          cases found
      | some marked =>
          have differ : g.name ≠ marked.name := by
            intro same
            have one := Entity.eq_of_name known (Entity.mem_of_tagged? mark) same
            exact unmarked (one ▸ mark)
          rw [mark, Option.map_some, Option.getD_some, SortedMap.find?_insert, if_neg differ,
            find?_signed known unsigned] at found
          cases found

/-- Whatever creates, updates and deletes of an entity follow each other, on behalf of whomever,
each row names the owner that it came with, the creator if it has been created on the way, unless
a deed has written another one: an update whose changes name the owner, or a deed that writes to a
field which has the column of the owner as well. Where the owner has a column and a field of its
own, only updates that name it give rows another owner. -/
theorem owners_kept (begin : World) (owner : e.ownerField? = some f)
    (stored : begin.db.stored? e.table = some t) :
    (∀ deeds w rows, History name e begin deeds w rows → ∀ (d : Deed) (w' : World),
      d.Unhooked name e → w'.db = w.db →
        ∃ rows', History name e begin (deeds ++ [d]) (d.run name w') rows') ∧
    ∀ deeds w rows, History name e begin deeds w rows →
      (∀ x ∈ rows, x.origin.IsIn t deeds ∧ (x.row f.column = x.origin.owner f ∨
        ∃ d ∈ deeds, d.Assigns e t f (x.row f.column))) ∧
      (e.SeparatedIn t → e.tagged? .lastModifier ≠ some f → e.tagged? .softDelete ≠ some f →
        (∀ d ∈ deeds, d.Spares f) → ∀ x ∈ rows, x.row f.column = x.origin.owner f) := by
  refine ⟨fun deeds w rows history d w' unhooked same => history.continues stored same unhooked,
    fun deeds w rows history => ⟨fun x member => ?_, ?_⟩⟩
  · exact ⟨history.origin stored x member, history.owner stored owner x member⟩
  intro separated unsigned unmarked spare x member
  rcases history.owner stored owner x member with came | ⟨d, done, assigns⟩
  · exact came
  · exact absurd assigns ((spare d done).not_assigns owner separated unsigned unmarked)

end Owners

namespace Notebook

/-- The mailbox without hooks. -/
def counter : Setting := { post with lifecycle := Lifecycle.empty }

/-- Where parcels name their senders. -/
def sender : Field := ⟨"sender", "sender_id", [.owner], none⟩

/-- The writer posts a parcel. -/
def posted : Deed := ⟨counter, writer, .create (parcel none)⟩

/-- The writer makes changes to all parcels. -/
def amended (changes : List (String × Json)) : Deed :=
  ⟨counter, writer, .update .null (.ofList changes)⟩

theorem counter_unhooked (change : Change) :
    Deed.Unhooked ⟨counter, writer, change⟩ "parcel" parcels :=
  ⟨rfl, rfl, rfl, rfl⟩

/-- Whom the parcels name as their senders. -/
def senders (w : World) : Option (List Datum) :=
  (w.db.stored? parcels.table).map fun t => t.rows.map fun row => row sender.column

theorem senders_of_history {deeds : List Deed} {w : World} {rows : List Tracked}
    (history : History "parcel" parcels mailbox deeds w rows) :
    senders w = some (rows.map fun x => x.row sender.column) := by
  obtain ⟨t, stored, shows, -⟩ := history.table stored?_parcels
  rw [senders, stored, Option.map_some, ← shows, List.map_map]
  rfl

/-- Parcels that the writer posts are its own. -/
theorem created_by_writer {origin : Origin} {changes : List (String × Json)}
    (known : origin.IsIn (tableOf parcels []) [posted, amended changes]) :
    origin = .created writer.id := by
  cases origin with
  | there row => cases known
  | created creator =>
      obtain ⟨d, done, -, rfl⟩ := known
      rcases List.mem_cons.mp done with rfl | done
      · rfl
      · rw [List.mem_singleton.mp done]
        rfl

end Notebook

open Notebook in
/-- The writer posts a parcel and makes the guest its sender. -/
theorem parcel_changes_sender : ∃ w rows,
    History "parcel" parcels mailbox [posted, amended [("sender", .ofUuid guest.id)]] w rows ∧
      writer.id ≠ counter.resolver.rootUser ∧ writer.id ≠ guest.id ∧
      ∃ x ∈ rows, x.origin = .created writer.id ∧ x.row sender.column = .text guest.id.text := by
  obtain ⟨rows₁, history₁⟩ := (History.start stored?_parcels).continues stored?_parcels rfl
    (counter_unhooked (.create (parcel none)))
  obtain ⟨rows, history⟩ := history₁.continues stored?_parcels rfl
    (counter_unhooked (.update .null (.ofList [("sender", .ofUuid guest.id)])))
  have named : senders ((amended [("sender", .ofUuid guest.id)]).run "parcel"
      (posted.run "parcel" mailbox)) = some [.text guest.id.text] := by decide +kernel
  have shown := Option.some.inj ((senders_of_history history).symm.trans named)
  obtain ⟨x, rfl, sent⟩ := List.map_eq_singleton_iff.mp shown
  have known := history.origin stored?_parcels x List.mem_cons_self
  exact ⟨_, _, history, by decide, by decide, x, List.mem_cons_self,
    created_by_writer known, sent⟩

open Notebook in
/-- A parcel that gets another number is its writer's still. -/
theorem parcel_keeps_sender : ∃ w rows,
    History "parcel" parcels mailbox [posted, amended [("id", .str "2")]] w rows ∧
      senders w = some [.text writer.id.text] := by
  have owner : parcels.ownerField? = some sender := rfl
  obtain ⟨continues, kept⟩ := owners_kept mailbox owner stored?_parcels
  obtain ⟨rows₁, history₁⟩ := continues _ _ _ (.start stored?_parcels) posted mailbox
    (counter_unhooked _) rfl
  obtain ⟨rows, history⟩ := continues _ _ _ history₁ (amended [("id", .str "2")])
    (posted.run "parcel" mailbox) (counter_unhooked _) rfl
  obtain ⟨known, spared⟩ := kept _ _ _ history
  have spare : ∀ d ∈ [posted, amended [("id", .str "2")]], d.Spares sender := by
    intro d member filter changes change
    rcases List.mem_cons.mp member with rfl | member
    · cases change
    · obtain rfl := List.mem_singleton.mp member
      obtain ⟨-, rfl⟩ := Change.update.inj change
      decide +kernel
  have mine := spared (mailbox_separates _ stored?_parcels) (by decide) (by decide) spare
  have one : (senders ((amended [("id", .str "2")]).run "parcel"
      (posted.run "parcel" mailbox))).map List.length = some 1 := by decide +kernel
  rw [senders_of_history history, Option.map_some, List.length_map] at one
  obtain ⟨x, rfl⟩ := List.length_eq_one_iff.mp (Option.some.inj one)
  have created := created_by_writer (known x List.mem_cons_self).1
  refine ⟨_, _, history, ?_⟩
  rw [senders_of_history history, List.map_singleton, mine x List.mem_cons_self, created]
  rfl

end ScopedAccess
