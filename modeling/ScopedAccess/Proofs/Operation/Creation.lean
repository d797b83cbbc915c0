import ScopedAccess.Proofs.Operation.Writes
import ScopedAccess.Proofs.Scope.Records
/-!
# What creates add

A hook of the application has its say on a record first, and only then is the record stamped
with its owner and checked. So whatever the client and the hook put into it, a row that is
added belongs to its actor, and to an organization that is open to the actor's records
(`Privileges.Confines`): one that the actor may write, or the active one if it may write none.
A record that may not be created stops the operation, and no later callback runs.

The row is in the write scope of its actor, who may change and delete it, except that
organizations are compared as text, and that an actor who may write no organization has only
rows that name their owner.

* `create_confined`: what a create adds, and what it leaves alone;
* `created_row_in_write_scope`: which of the rows added the actor may write later on.
-/

namespace ScopedAccess

set_option autoImplicit false

/-! ## Records that may be created -/

/-- What the hook of an entity makes of a record that is to be created. -/
def Lifecycle.prepare (l : Lifecycle) (e : Entity) (actor : Actor) (r : Record) : Hook Record :=
  match l.beforeCreate e.name with
  | some hook => hook actor r
  | none => pure r

/-- A record with its actor as the owner, in the active organization unless it names one. -/
def Entity.stamped (e : Entity) (actor : Actor) (r : Record) : Record :=
  let owned := match e.tagged? .owner with
    | some f => r.insert f.name (.ofUuid actor.id)
    | none => r
  match e.tagged? .ownerOrg with
  | some f => if owned.contains f.name then owned else owned.insert f.name (.ofUuid actor.activeOrg)
  | none => owned

/-- Whether an actor may create records of an organization: it may write the organization, or
it may write none and acts in this one. -/
def Privileges.opens (p : Privileges) (e : Entity) (actor : Actor) (org : Uuid) : Bool :=
  if (p.writableFor e.name).isEmpty then decide (org = actor.activeOrg)
  else decide (org ∈ p.writableFor e.name)

/-- Whether an actor may create a stamped record. -/
def Privileges.mayCreate (p : Privileges) (e : Entity) (actor : Actor) (r : Record) : Bool :=
  match e.ownerOrgField? with
  | some f => (r.uuid? f.name).any (p.opens e actor)
  | none => e.ownerField?.isSome && decide (p.user = actor.id)

/-- A row belongs to an actor and to an organization that is open to it, as far as its entity
has fields for them; it has a field for one of them. -/
structure Privileges.Confines (p : Privileges) (e : Entity) (actor : Actor) (row : Row) : Prop where
  owned : e.ownerOrgField?.isSome = true ∨ e.ownerField?.isSome = true
  owner : ∀ f, e.ownerField? = some f → row f.column = .text actor.id.text
  organization : ∀ f, e.ownerOrgField? = some f → ∃ s org, row f.column = .text s ∧
    Uuid.ofText? s = some org ∧ p.opens e actor org = true

/-- What comes of a request that adds a record of an entity. It tells of one row, which the
table of the entity gets; if it fails, it leaves all as it is. -/
structure World.Inserts (w : World) (e : Entity) (r : Record)
    (run : Except OperationError Outcome × World) : Prop where
  done : ∀ outcome, run.1 = .ok outcome → outcome = ⟨[], none, 1⟩ ∧ ∃ t,
    w.db.stored? e.table = some t ∧ t.answers ((Store.assignments e r).map Prod.fst) = true ∧
      run.2.db = w.db.set e.table (t.adding (e.added t r))
  failed : ∀ reason, run.1 = .error reason → run.2.db = w.db

section Stamps

variable {e : Entity} {actor : Actor} {p : Privileges} {r : Record} {f : Field}

theorem stampOwner_eq (o : Operation) :
    o.stampOwner = { o with payload := o.entity.stamped o.actor o.payload } := by
  rw [Operation.stampOwner, Entity.stamped]
  cases owner : o.entity.tagged? .owner <;> cases organization : o.entity.tagged? .ownerOrg <;>
    simp only [Operation.setField, organization]
  all_goals split <;> simp_all

/-- The stamp of the owner stays. -/
theorem find?_stamped (owner : e.tagged? .owner = some f) :
    (e.stamped actor r).find? f.name = some (.ofUuid actor.id) := by
  have signed : (r.insert f.name (.ofUuid actor.id)).find? f.name = some (.ofUuid actor.id) := by
    rw [SortedMap.find?_insert, if_pos rfl]
  rw [Entity.stamped, owner]
  cases e.tagged? .ownerOrg with
  | none => exact signed
  | some g =>
      simp only
      split
      · exact signed
      · rename_i unnamed
        have other : f.name ≠ g.name := by
          intro same
          rw [SortedMap.contains, ← same, signed] at unnamed
          exact unnamed rfl
        rw [SortedMap.find?_insert, if_neg other]
        exact signed

theorem mayCreate_eq {o : Operation} (restricted : o.entity.unrestricted = false)
    (checked : p.bypass = false)
    (stamped : ∀ f, o.entity.ownerField? = some f →
      o.payload.find? f.name = some (.ofUuid o.actor.id)) :
    o.mayCreate p = p.mayCreate o.entity o.actor o.payload := by
  rw [Operation.mayCreate, Privileges.mayCreate]
  cases organization : o.entity.ownerOrgField? with
  | some f => rfl
  | none =>
      simp only [Privileges.writeScope, checked, Bool.false_eq_true, if_false]
      rw [recordInScope_orgsOrOwner, organization, restricted]
      cases owner : o.entity.ownerField? with
      | none => rfl
      | some f => simp [uuid?_of_find? (stamped f owner), eq_comm]

/-- The row of a record that may be created is confined. -/
theorem confines_added {t : Table} (separated : e.SeparatedIn t)
    (mayCreate : p.mayCreate e actor (e.stamped actor r) = true) :
    p.Confines e actor (e.added t (e.stamped actor r)) := by
  refine ⟨?_, ?_, ?_⟩
  · rw [Privileges.mayCreate] at mayCreate
    cases organization : e.ownerOrgField? with
    | some f => exact .inl rfl
    | none =>
        rw [organization, Bool.and_eq_true] at mayCreate
        exact .inr mayCreate.1
  · intro f owner
    have tagged : e.tagged? .owner = some f := (Option.filter_eq_some_iff.mp owner).1
    exact (added_eq_uuid_iff separated (Entity.listed_of_owns (.inr owner))).mpr
      (find?_stamped tagged)
  · intro f organization
    rw [Privileges.mayCreate, organization, Option.any_eq_true] at mayCreate
    obtain ⟨org, named, opens⟩ := mayCreate
    obtain ⟨s, found, denotes⟩ := exists_of_uuid? named
    have held := (added_eq_text_iff separated (Entity.listed_of_owns (.inl organization))).mpr
      ⟨.str s, found, rfl⟩
    exact ⟨s, org, held, denotes, opens⟩

end Stamps

/-! ## The callbacks of a create -/

namespace Step

variable {setting : Setting} {s : Session}

theorem beforeCreate_ok {r : Record} {journal : Journal}
    (prepared : (setting.lifecycle.prepare s.operation.entity s.operation.actor
      s.operation.payload).run s.world.journal = (.ok r, journal)) :
    beforeCreate setting s = (.ok (),
      ⟨{ s.operation with payload := r }, { s.world with journal }⟩) := by
  rw [Lifecycle.prepare] at prepared
  cases hooked : setting.lifecycle.beforeCreate s.operation.entity.name with
  | none =>
      rw [hooked] at prepared
      cases prepared
      simp [beforeCreate, changePayload, hooked]
  | some hook =>
      rw [hooked] at prepared
      simp [beforeCreate, changePayload, hooked, run_ofHook, prepared]

theorem beforeCreate_error {failure : Failure} {journal : Journal}
    (refused : (setting.lifecycle.prepare s.operation.entity s.operation.actor
      s.operation.payload).run s.world.journal = (.error failure, journal)) :
    beforeCreate setting s =
      (.error failure, { s with world := { s.world with journal } }) := by
  rw [Lifecycle.prepare] at refused
  cases hooked : setting.lifecycle.beforeCreate s.operation.entity.name with
  | none =>
      rw [hooked] at refused
      cases refused
  | some hook =>
      rw [hooked] at refused
      simp [beforeCreate, changePayload, hooked, run_ofHook, refused]

theorem checkWriteScope_ok {p : Privileges} {r : ResolverWorld}
    (restricted : s.operation.entity.unrestricted = false)
    (unasked : s.operation.privileges = none)
    (resolved : s.world.privilegesOf setting s.operation.actor = (.ok p, r))
    (checked : p.bypass = false) :
    checkWriteScope setting s = (.ok (),
      ⟨if s.operation.mayCreate p then { s.operation with privileges := some p }
        else ({ s.operation with privileges := some p }.withAffected 0).stop,
        { s.world with resolver := r }⟩) := by
  rw [World.privilegesOf] at resolved
  have same : ({ s.operation with privileges := some p } : Operation).mayCreate p =
      s.operation.mayCreate p := rfl
  cases may : s.operation.mayCreate p <;>
    simp [checkWriteScope, restricted, privileges, unasked, resolved, checked, same, may]

theorem createRow_eq : createRow setting s = write (fun db =>
    Store.insert db s.operation.entity s.operation.payload) setting s := by
  simp [createRow]

/-- What comes after an insertion may write to the journal and fail; that is all. -/
theorem afterCreate_cases (setting : Setting) (s : Session) : ∃ journal,
    afterCreate setting s = (.ok (), { s with world := { s.world with journal } }) ∨
      setting.lifecycle.afterCreate s.operation.entity.name ≠ none ∧ ∃ failure,
        afterCreate setting s = (.error failure, { s with world := { s.world with journal } }) := by
  cases hooked : setting.lifecycle.afterCreate s.operation.entity.name with
  | none => exact ⟨s.world.journal, .inl (by simp [afterCreate, hooked])⟩
  | some hook =>
      by_cases created : 0 < s.operation.outcome.affected
      · have run : afterCreate setting s =
            ofHook (hook s.operation.actor s.operation.payload) setting s := by
          simp [afterCreate, hooked, created]
        rw [run, run_ofHook]
        refine ⟨((hook s.operation.actor s.operation.payload).run s.world.journal).2, ?_⟩
        cases ((hook s.operation.actor s.operation.payload).run s.world.journal).1 with
        | ok => exact .inl rfl
        | error failure => exact .inr ⟨Option.some_ne_none hook, failure, rfl⟩
      · exact ⟨s.world.journal, .inl (by simp [afterCreate, hooked, created])⟩

end Step

/-- The callbacks of a create that settle whether there is a record to insert. -/
def Callbacks.admitting : List (String × Handler) :=
  [(Builtin.beforeCreate.name, Step.beforeCreate), (Builtin.stampOwner.name, Step.stampOwner),
    (Builtin.checkWriteScope.name, Step.checkWriteScope)]

/-- The callbacks of a create once its record is settled. -/
def Callbacks.inserting : List (String × Handler) :=
  [(Builtin.create.name, Step.createRow), (Builtin.afterCreate.name, Step.afterCreate),
    (Builtin.audit.name, Step.audit)]

theorem chain_create : Callbacks.builtin.chain .create =
    Callbacks.admitting ++ Callbacks.inserting := rfl

/-- The operation that creates a settled record. -/
def Operation.creating (e : Entity) (actor : Actor) (r : Record) (p : Privileges) : Operation :=
  { Operation.start (.create r) e actor with privileges := some p }

/-- The world of a create whose record is settled. -/
def World.admitted (w : World) (setting : Setting) (actor : Actor) (journal : Journal) : World :=
  { w with resolver := (w.privilegesOf setting actor).2, journal }

section Creates

variable {setting : Setting} {w w' : World} {actor : Actor} {name : String} {e : Entity}
  {p : Privileges} {record prepared r : Record} {journal : Journal} {s : Session}

/-- A create goes on with the stamped record if its actor may create it, and else stops. -/
theorem runChain_admitting (rest : List (String × Handler)) (restricted : e.unrestricted = false)
    (resolved : (w.privilegesOf setting actor).1 = .ok p) (checked : p.bypass = false)
    (hook : (setting.lifecycle.prepare e actor record).run w.journal = (.ok prepared, journal)) :
    Session.runChain setting (Callbacks.admitting ++ rest)
        ⟨.start (.create record) e actor, w⟩ =
      if p.mayCreate e actor (e.stamped actor prepared) then
        Session.runChain setting rest
          ⟨.creating e actor (e.stamped actor prepared) p, w.admitted setting actor journal⟩
      else (.ok (), ⟨(Operation.creating e actor (e.stamped actor prepared) p).stop,
        w.admitted setting actor journal⟩) := by
  have stamps : Step.stampOwner setting ⟨.start (.create prepared) e actor, { w with journal }⟩ =
      (.ok (), ⟨.start (.create (e.stamped actor prepared)) e actor, { w with journal }⟩) := by
    rw [Step.stampOwner, Step.run_change, stampOwner_eq]
    rfl
  have answered : ({ w with journal } : World).privilegesOf setting actor =
      (.ok p, (w.privilegesOf setting actor).2) := Prod.ext resolved rfl
  have may : (Operation.start (.create (e.stamped actor prepared)) e actor).mayCreate p =
      p.mayCreate e actor (e.stamped actor prepared) := by
    refine mayCreate_eq restricted checked fun f owner => ?_
    exact find?_stamped (Option.filter_eq_some_iff.mp owner).1
  have settles : Session.runChain setting (Callbacks.admitting ++ rest)
      ⟨.start (.create record) e actor, w⟩ = Session.runChain setting rest _ :=
    (runChain_cons_ok rfl (Step.beforeCreate_ok hook)).trans <|
      (runChain_cons_ok rfl stamps).trans <|
        runChain_cons_ok rfl (Step.checkWriteScope_ok restricted rfl answered checked)
  rw [settles, may]
  split
  · rfl
  · exact runChain_stopped rfl

/-- A create of a settled record inserts it, unless the statement or a hook fails. -/
theorem inserts_of_admitted (registered : setting.registry.find? name = some e)
    (run : Session.runChain setting (Callbacks.builtin.chain .create)
        ⟨.start (.create record) e actor, w⟩ =
      Session.runChain setting Callbacks.inserting ⟨.creating e actor r p, w'⟩)
    (same : w'.db = w.db) :
    w.Inserts e r (w.perform setting .builtin actor name (.create record)) ∧
      (setting.lifecycle.afterCreate e.name = none →
        (w.perform setting .builtin actor name (.create record)).1.isOk =
          (Store.insert w.db e r).isOk) := by
  have write : Step.createRow setting ⟨.creating e actor r p, w'⟩ =
      Step.write (Store.insert · e r) setting ⟨.creating e actor r p, w'⟩ := Step.createRow_eq
  have here : (Session.mk (.creating e actor r p) w').world.db = w.db := same
  rw [Step.run_write, here] at write
  cases answer : Store.insert w.db e r with
  | error reason =>
      rw [answer] at write
      have fails : Session.runChain setting Callbacks.inserting ⟨.creating e actor r p, w'⟩ = _ :=
        runChain_cons_error rfl write
      rw [perform_of_error registered (run.trans fails)]
      refine ⟨⟨fun outcome told => ?_, fun reason told => rfl⟩, fun _ => rfl⟩
      cases told
  | ok written =>
      obtain ⟨n, db'⟩ := written
      rw [answer] at write
      obtain ⟨t, stored, answers, rfl, rows⟩ := Store.insert_ok answer
      obtain ⟨journal, calm | ⟨hooked, failure, fails⟩⟩ :=
        Step.afterCreate_cases setting
          ⟨(Operation.creating e actor r p).withAffected 1, { w' with db := db' }⟩
      · have ends : Session.runChain setting Callbacks.inserting ⟨.creating e actor r p, w'⟩ =
            (.ok (), _) :=
          (runChain_cons_ok rfl write).trans <|
            (runChain_cons_ok rfl calm).trans (runChain_cons_ok rfl rfl)
        rw [perform_of_ok registered (run.trans ends)]
        refine ⟨⟨fun outcome told => ?_, fun reason told => ?_⟩, fun _ => rfl⟩
        · cases told
          exact ⟨rfl, t, stored, answers, rows.symm⟩
        · cases told
      · have ends : Session.runChain setting Callbacks.inserting ⟨.creating e actor r p, w'⟩ = _ :=
          (runChain_cons_ok rfl write).trans (runChain_cons_error rfl fails)
        rw [perform_of_error registered (run.trans ends)]
        refine ⟨⟨fun outcome told => ?_, fun reason told => rfl⟩, fun unhooked => ?_⟩
        · cases told
        · exact absurd unhooked hooked

section Requests

variable (registered : setting.registry.find? name = some e) (restricted : e.unrestricted = false)
  (resolved : (w.privilegesOf setting actor).1 = .ok p) (checked : p.bypass = false)
  (hook : (setting.lifecycle.prepare e actor record).run w.journal = (.ok prepared, journal))

include registered restricted resolved checked hook

/-- A record that may be created is inserted. -/
theorem create_inserts (mayCreate : p.mayCreate e actor (e.stamped actor prepared) = true) :
    w.Inserts e (e.stamped actor prepared)
        (w.perform setting .builtin actor name (.create record)) ∧
      (setting.lifecycle.afterCreate e.name = none →
        (w.perform setting .builtin actor name (.create record)).1.isOk =
          (Store.insert w.db e (e.stamped actor prepared)).isOk) := by
  have run := runChain_admitting Callbacks.inserting restricted resolved checked hook
  rw [mayCreate, if_pos rfl, ← chain_create] at run
  exact inserts_of_admitted registered run rfl

/-- A record that may not be created stops the operation. -/
theorem create_stops (mayNot : p.mayCreate e actor (e.stamped actor prepared) = false) :
    w.perform setting .builtin actor name (.create record) =
        (.ok ⟨[], none, 0⟩, w.admitted setting actor journal) ∧
      ∀ rest, Session.runChain setting (Callbacks.admitting ++ rest)
          ⟨.start (.create record) e actor, w⟩ =
        (.ok (), ⟨(Operation.creating e actor (e.stamped actor prepared) p).stop,
          w.admitted setting actor journal⟩) := by
  have stops := fun rest => runChain_admitting rest restricted resolved checked hook
  simp only [mayNot, Bool.false_eq_true, if_false] at stops
  have run : Session.runChain setting (Callbacks.builtin.chain (Request.create record).phase)
      ⟨.start (.create record) e actor, w⟩ = (.ok (), _) := stops Callbacks.inserting
  exact ⟨perform_of_ok registered run, stops⟩

end Requests

/-- A record that the hook of the application refuses is not created. -/
theorem create_refused {failure : Failure} (registered : setting.registry.find? name = some e)
    (hook : (setting.lifecycle.prepare e actor record).run w.journal = (.error failure, journal)) :
    w.perform setting .builtin actor name (.create record) =
      (.error (failure.attributedTo Builtin.beforeCreate.name), { w with journal }) := by
  have fails : Session.runChain setting (Callbacks.builtin.chain (Request.create record).phase)
      ⟨.start (.create record) e actor, w⟩ = _ :=
    runChain_cons_error rfl (Step.beforeCreate_error hook)
  exact perform_of_error registered fails

/-- A create that tells of a row has added that of a record which its actor may create. -/
theorem exists_created {outcome : Outcome} (registered : setting.registry.find? name = some e)
    (restricted : e.unrestricted = false)
    (resolved : (w.privilegesOf setting actor).1 = .ok p) (checked : p.bypass = false)
    (told : (w.perform setting .builtin actor name (.create record)).1 = .ok outcome)
    (inserted : 0 < outcome.affected) :
    ∃ prepared, p.mayCreate e actor (e.stamped actor prepared) = true ∧ ∃ t,
      w.db.stored? e.table = some t ∧
      t.answers ((Store.assignments e (e.stamped actor prepared)).map Prod.fst) = true ∧
      (w.perform setting .builtin actor name (.create record)).2.db =
        w.db.set e.table (t.adding (e.added t (e.stamped actor prepared))) := by
  cases hook : (setting.lifecycle.prepare e actor record).run w.journal with
  | mk result journal =>
      cases result with
      | error failure =>
          rw [create_refused registered hook] at told
          cases told
      | ok prepared =>
          cases may : p.mayCreate e actor (e.stamped actor prepared) with
          | false =>
              have stops := (create_stops registered restricted resolved checked hook may).1
              rw [stops] at told
              cases told
              exact absurd inserted (Nat.lt_irrefl 0)
          | true =>
              have inserts := (create_inserts registered restricted resolved checked hook may).1
              exact ⟨prepared, may, (inserts.done outcome told).2⟩

/-- What a create adds. The record is what the hook makes of that of the client, stamped by its
actor; its row is confined, so that an entity without a field for owners gets none. A record
that may not be created adds nothing: the operation tells so and stops, whatever callbacks come
after. A hook that fails adds nothing either. -/
theorem create_confined (w : World) (record : Record)
    (registered : setting.registry.find? name = some e) (restricted : e.unrestricted = false)
    (separated : ∀ t, w.db.stored? e.table = some t → e.SeparatedIn t)
    (resolved : (w.privilegesOf setting actor).1 = .ok p) (checked : p.bypass = false) :
    (∀ prepared journal,
      (setting.lifecycle.prepare e actor record).run w.journal = (.ok prepared, journal) →
      if p.mayCreate e actor (e.stamped actor prepared) then
        (w.Inserts e (e.stamped actor prepared)
            (w.perform setting .builtin actor name (.create record)) ∧
          (setting.lifecycle.afterCreate e.name = none →
            (w.perform setting .builtin actor name (.create record)).1.isOk =
              (Store.insert w.db e (e.stamped actor prepared)).isOk)) ∧
        ∀ t, w.db.stored? e.table = some t →
          p.Confines e actor (e.added t (e.stamped actor prepared))
      else
        w.perform setting .builtin actor name (.create record) =
            (.ok ⟨[], none, 0⟩, w.admitted setting actor journal) ∧
          ∀ rest, Session.runChain setting (Callbacks.admitting ++ rest)
              ⟨.start (.create record) e actor, w⟩ =
            (.ok (), ⟨(Operation.creating e actor (e.stamped actor prepared) p).stop,
              w.admitted setting actor journal⟩)) ∧
    (∀ failure journal,
      (setting.lifecycle.prepare e actor record).run w.journal = (.error failure, journal) →
      w.perform setting .builtin actor name (.create record) =
        (.error (failure.attributedTo Builtin.beforeCreate.name), { w with journal })) := by
  refine ⟨fun prepared journal hook => ?_, fun failure journal hook =>
    create_refused registered hook⟩
  split
  · rename_i mayCreate
    exact ⟨create_inserts registered restricted resolved checked hook mayCreate,
      fun t stored => confines_added (separated t stored) mayCreate⟩
  · rename_i mayNot
    exact create_stops registered restricted resolved checked hook (Bool.eq_false_iff.mpr mayNot)

/-! ## Rows that the actor may write later on -/

/-- A confined row may be written by its actor if it names its owner, or if the actor may write
some organization and the row names its own in canonical form. -/
theorem mayWrite_of_confined {row : Row} (confined : p.Confines e actor row)
    (mine : e.ownerField?.isSome = true ∧ p.user = actor.id ∨
      (p.writableFor e.name).isEmpty = false ∧
        ∃ f org, e.ownerOrgField? = some f ∧ row f.column = .text (Uuid.text org)) :
    p.mayWrite e row = true := by
  have belongs : e.belongsTo (p.writableFor e.name) p.user row = true := by
    rw [Entity.belongsTo, Bool.or_eq_true]
    rcases mine with ⟨stores, same⟩ | ⟨writes, f, org, organization, text⟩
    · obtain ⟨f, owner⟩ := Option.isSome_iff_exists.mp stores
      right
      rw [owner, Option.any_some, same]
      exact decide_eq_true (confined.owner f owner)
    · obtain ⟨s, org', text', denotes, opens⟩ := confined.organization f organization
      obtain rfl : org.text = s := Datum.text.inj (text.symm.trans text')
      obtain rfl : org = org' := Option.some.inj ((Uuid.ofText?_text org).symm.trans denotes)
      rw [Privileges.opens, writes, if_neg Bool.false_ne_true] at opens
      left
      rw [organization, Option.any_some, List.any_eq_true]
      exact ⟨org, of_decide_eq_true opens, decide_eq_true text⟩
  rw [Privileges.mayWrite, belongs, Bool.or_true]

/-- A row that names no owner is not to be written by who may write no organization. -/
theorem mayWrite_of_personal {row : Row} (restricted : e.unrestricted = false)
    (checked : p.bypass = false) (personal : (p.writableFor e.name).isEmpty = true)
    (unowned : e.ownerField? = none) : p.mayWrite e row = false := by
  have none : (p.writableFor e.name).toList = [] := List.isEmpty_iff.mp personal
  rw [Privileges.mayWrite, restricted, checked, Entity.belongsTo, unowned, none]
  cases e.ownerOrgField? <;> rfl

/-- Which rows that a create adds are in the write scope of the actor: those that name their
owner, and those of an organization in canonical form if the actor may write some organization.
An actor who may write none creates in the active organization, and is not to write the row if
it names no owner. -/
theorem created_row_in_write_scope (w : World) (record : Record) {outcome : Outcome}
    (registered : setting.registry.find? name = some e) (restricted : e.unrestricted = false)
    (separated : ∀ t, w.db.stored? e.table = some t → e.SeparatedIn t)
    (resolved : (w.privilegesOf setting actor).1 = .ok p) (checked : p.bypass = false)
    (told : (w.perform setting .builtin actor name (.create record)).1 = .ok outcome)
    (inserted : 0 < outcome.affected) :
    ∃ t row, w.db.stored? e.table = some t ∧
      (w.perform setting .builtin actor name (.create record)).2.db =
        w.db.set e.table (t.adding row) ∧
      (e.ownerField?.isSome = true ∧ p.user = actor.id ∨
          (p.writableFor e.name).isEmpty = false ∧
            (∃ f org, e.ownerOrgField? = some f ∧ row f.column = .text (Uuid.text org)) →
        (scopePredicate e (p.writeScope e.name) e.table).passes
          (w.perform setting .builtin actor name (.create record)).2.db e.table (t.adding row)
            row = true) ∧
      ((p.writableFor e.name).isEmpty = true →
        (∀ f, e.ownerOrgField? = some f → ∃ s, row f.column = .text s ∧
          Uuid.ofText? s = some actor.activeOrg) ∧
        (e.ownerField? = none →
          (scopePredicate e (p.writeScope e.name) e.table).passes
            (w.perform setting .builtin actor name (.create record)).2.db e.table (t.adding row)
              row = false)) := by
  obtain ⟨prepared, mayCreate, t, stored, answers, rows⟩ :=
    exists_created registered restricted resolved checked told inserted
  have confined := confines_added (separated t stored) mayCreate
  have passes : ∀ db, (scopePredicate e (p.writeScope e.name) e.table).passes db e.table
      (t.adding (e.added t (e.stamped actor prepared))) (e.added t (e.stamped actor prepared)) =
        p.mayWrite e (e.added t (e.stamped actor prepared)) := fun db =>
    (passes_added answers _ _).trans (inScope_writeScope p)
  refine ⟨t, _, stored, rows, fun mine => ?_, fun personal => ⟨fun f organization => ?_,
    fun unowned => ?_⟩⟩
  · rw [passes]
    exact mayWrite_of_confined confined mine
  · obtain ⟨s, org, text, denotes, opens⟩ := confined.organization f organization
    rw [Privileges.opens, personal, if_pos rfl] at opens
    exact ⟨s, text, of_decide_eq_true opens ▸ denotes⟩
  · rw [passes]
    exact mayWrite_of_personal restricted checked personal unowned

end Creates

namespace Notebook

/-- Parcels belong to their senders and to organizations. -/
def parcels : Entity where
  name := "parcel"
  table := "parcels"
  unrestricted := false
  fields := [⟨"id", "id", [.primaryKey], none⟩, ⟨"org", "org_id", [.ownerOrg], none⟩,
    ⟨"sender", "sender_id", [.owner], none⟩]
  wellTagged := ⟨by decide, by decide, by decide⟩

/-- Stamps have a motto in the column of their organization. -/
def stamps : Entity where
  name := "stamp"
  table := "stamps"
  unrestricted := false
  fields := [⟨"id", "id", [.primaryKey], none⟩, ⟨"motto", "org_id", [], none⟩,
    ⟨"org", "org_id", [.ownerOrg], none⟩]
  wellTagged := ⟨by decide, by decide, by decide⟩

/-- A principal of the office, which may read and write its own rows only. -/
def guest : Actor := ⟨.ofNat 33, none, office⟩

def visiting : Privileges :=
  { writing with user := guest.id, readable := ∅, writable := ∅ }

/-- An application that makes the guest the sender of all parcels. -/
def post : Setting :=
  { setting with
    registry := ⟨.ofList [("folder", folders), ("parcel", parcels), ("stamp", stamps)]⟩
    lifecycle := { Lifecycle.empty with
      beforeCreate := Lifecycle.put Lifecycle.empty.beforeCreate "parcel" fun _ r =>
        pure (r.insert "sender" (.ofUuid guest.id)) } }

/-- A world without parcels, folders and stamps, with the writer and the guest. -/
def mailbox : World :=
  .ofDatabase
    { database [] [] with
      tables := fun n =>
        if n = .of "folders" then some (tableOf folders [])
        else if n = .of "parcels" then some (tableOf parcels [])
        else if n = .of "stamps" then some (tableOf stamps [])
        else none }
    (.ofSource { source with
      roles := source.roles ++
        [⟨.ofNat 49, "guest", "Guest", [], [⟨office, .personal, .personal, []⟩]⟩]
      assignments := source.assignments ++ [⟨guest.id, .ofNat 49, 0⟩] })

theorem stored?_parcels : mailbox.db.stored? parcels.table = some (tableOf parcels []) := by
  have free : (Name.of parcels.table).isReserved = false := by decide +kernel
  rw [Database.stored?, free, if_neg Bool.false_ne_true]
  exact (if_neg (by decide +kernel)).trans (if_pos rfl)

theorem mailbox_separates (t : Table) (stored : mailbox.db.stored? parcels.table = some t) :
    parcels.SeparatedIn t :=
  Option.some.inj (stored?_parcels.symm.trans stored) ▸ separatedIn_tableOf (by decide +kernel) _

theorem writer_resolved : (mailbox.privilegesOf post writer).1 = .ok writing := by
  decide +kernel

/-- A parcel of an organization, if it names one. -/
def parcel (org : Option Uuid) : Record :=
  .ofList (("id", .str "1") :: (org.map fun id => ("org", Json.ofUuid id)).toList)

end Notebook

open Notebook in
/-- A parcel that the application takes for the guest's is its writer's still; one for another
organization is not created. -/
theorem parcel_stays_confined :
    (∃ row, (mailbox.perform post .builtin writer "parcel" (.create (parcel none))).2.db =
        mailbox.db.set parcels.table ((tableOf parcels []).adding row) ∧
      writing.Confines parcels writer row) ∧
    (mailbox.perform post .builtin writer "parcel" (.create (parcel (some elsewhere)))).1 =
      .ok ⟨[], none, 0⟩ := by
  have registered : post.registry.find? "parcel" = some parcels := rfl
  have confined := fun r => (create_confined mailbox r registered rfl mailbox_separates
    writer_resolved rfl).1 (r.insert "sender" (.ofUuid guest.id)) [] rfl
  constructor
  · have here := confined (parcel none)
    rw [if_pos (by decide +kernel)] at here
    obtain ⟨⟨inserts, succeeds⟩, rows⟩ := here
    obtain ⟨outcome, told⟩ := exists_of_isOk ((succeeds rfl).trans (by decide +kernel))
    obtain ⟨-, t, stored, -, added⟩ := inserts.done outcome told
    obtain rfl : tableOf parcels [] = t := Option.some.inj (stored?_parcels.symm.trans stored)
    exact ⟨_, added, rows _ stored⟩
  · have there := confined (parcel (some elsewhere))
    rw [if_neg (by decide +kernel)] at there
    rw [there.1]

open Notebook in
/-- The writer may write its parcel later on. -/
theorem parcel_in_write_scope :
    ∃ row, (mailbox.perform post .builtin writer "parcel" (.create (parcel none))).2.db =
        mailbox.db.set parcels.table ((tableOf parcels []).adding row) ∧
      (scopePredicate parcels (writing.writeScope parcels.name) parcels.table).passes
        (mailbox.perform post .builtin writer "parcel" (.create (parcel none))).2.db parcels.table
          ((tableOf parcels []).adding row) row = true := by
  have registered : post.registry.find? "parcel" = some parcels := rfl
  have created : (mailbox.perform post .builtin writer "parcel"
      (.create (parcel none))).1.toOption.any (0 < ·.affected) = true := by decide +kernel
  obtain ⟨outcome, told, inserted⟩ := exists_of_any created
  obtain ⟨t, row, stored, added, mine, -⟩ := created_row_in_write_scope mailbox (parcel none)
    registered rfl mailbox_separates writer_resolved rfl told (of_decide_eq_true inserted)
  obtain rfl : tableOf parcels [] = t := Option.some.inj (stored?_parcels.symm.trans stored)
  exact ⟨row, added, mine (.inl ⟨by decide +kernel, rfl⟩)⟩

namespace Notebook

/-- How many rows a create tells of, and which rows of the table its actor may write then. -/
def writtenAfter (actor : Actor) (p : Privileges) (e : Entity) (r : Record) :
    Option (Nat × List Bool) :=
  let run := mailbox.perform post .builtin actor e.name (.create r)
  run.1.toOption.bind fun outcome => (run.2.db.stored? e.table).map fun t =>
    (outcome.affected, t.rows.map fun row =>
      (scopePredicate e (p.writeScope e.name) e.table).passes run.2.db e.table t row)

end Notebook

open Notebook in
/-- Rows that their own actor may not write: a folder of the guest, a stamp whose motto stands
in the place of its organization, and a folder whose organization is written without hyphens. -/
theorem created_rows_out_of_scope :
    ((mailbox.privilegesOf post guest).1 = .ok visiting ∧ (Store.columns folders).Nodup ∧
      writtenAfter guest visiting folders (.ofList [("id", .str "1")]) = some (1, [false])) ∧
    ((mailbox.privilegesOf post writer).1 = .ok writing ∧
      writtenAfter writer writing stamps
        (.ofList [("id", .str "1"), ("motto", .str "Post haste")]) = some (1, [false]) ∧
      writtenAfter writer writing folders (.ofList [("id", .str "1"),
        ("org", .str "00000000000000000000000000000010")]) = some (1, [false])) := by
  decide +kernel

end ScopedAccess
