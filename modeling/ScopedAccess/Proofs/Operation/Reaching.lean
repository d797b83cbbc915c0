import ScopedAccess.Operation.Chain
import ScopedAccess.Proofs.Scope.Rows
import ScopedAccess.Proofs.Sql.Acceptance
/-!
# Which rows an operation reaches

Queries, updates and deletes begin with the same three callbacks. They compile the filter
of the client, add the scope of the principal and leave out the rows that are marked as
deleted. What they make of an operation is `Operation.reached`; they read no rows.

* `runChain_reaching`: the rest of a chain runs with the reached operation;
* `isTrueAt_reached`: its filter is true of the rows that the client asks for, that the
  principal may read or write, and that are not marked as deleted.
-/

namespace ScopedAccess

set_option autoImplicit false

/-! ## Steps -/

namespace Step

variable {α β : Type} {setting : Setting} {s : Session}

@[simp] theorem run_bind (x : Step α) (next : α → Step β) :
    (x >>= next) setting s = match x setting s with
      | (.ok a, s') => next a setting s'
      | (.error failure, s') => (.error failure, s') := by
  show ExceptT.bind (x setting) (fun a => next a setting) s = _
  simp only [ExceptT.bind, ExceptT.mk, bind, StateT.bind, ExceptT.bindCont]
  rcases x setting s with ⟨_ | _, _⟩ <;> rfl

@[simp] theorem run_map (f : α → β) (x : Step α) :
    (f <$> x) setting s = match x setting s with
      | (.ok a, s') => (.ok (f a), s')
      | (.error failure, s') => (.error failure, s') := by
  show ExceptT.map f (x setting) s = _
  simp only [ExceptT.map, ExceptT.mk, bind, StateT.bind]
  rcases x setting s with ⟨_ | _, _⟩ <;> rfl

@[simp] theorem run_pure (a : α) : (pure a : Step α) setting s = (.ok a, s) := rfl

@[simp] theorem run_read : (read : Step Setting) setting s = (.ok setting, s) := rfl

@[simp] theorem run_get : (get : Step Session) setting s = (.ok s, s) := rfl

@[simp] theorem run_operation : operation setting s = (.ok s.operation, s) := rfl

@[simp] theorem run_database : database setting s = (.ok s.world.db, s) := rfl

@[simp] theorem run_change (f : Operation → Operation) :
    change f setting s = (.ok (), { s with operation := f s.operation }) := rfl

@[simp] theorem run_changeWorld (f : World → World) :
    changeWorld f setting s = (.ok (), { s with world := f s.world }) := rfl

@[simp] theorem run_fail (e : OperationError) :
    (fail e : Step α) setting s = (.error (.operation e), s) := rfl

@[simp] theorem run_ofStore_ok (a : α) : ofStore (.ok a) setting s = (.ok a, s) := rfl

@[simp] theorem run_ofStore_error (e : StoreError) :
    (ofStore (.error e) : Step α) setting s = (.error (.operation (.store e)), s) := rfl

theorem run_ofHook (hook : Hook α) : ofHook hook setting s =
    ((hook.run s.world.journal).1,
      { s with world := { s.world with journal := (hook.run s.world.journal).2 } }) := rfl

end Step

/-! ## Chains -/

section Chains

variable {setting : Setting} {name : String} {handler : Handler}
  {rest : List (String × Handler)} {s s' : Session}

theorem runChain_cons_ok (going : s.operation.stopped = false)
    (step : handler setting s = (.ok (), s')) :
    Session.runChain setting ((name, handler) :: rest) s = Session.runChain setting rest s' := by
  rw [Session.runChain, if_neg (by simp [going]), step]

theorem runChain_cons_error {failure : Failure} (going : s.operation.stopped = false)
    (step : handler setting s = (.error failure, s')) :
    Session.runChain setting ((name, handler) :: rest) s =
      (.error (failure.attributedTo name), s') := by
  rw [Session.runChain, if_neg (by simp [going]), step]

/-- Of a chain that has come to its end the first callback has too. -/
theorem exists_of_runChain_cons (going : s.operation.stopped = false)
    (ran : Session.runChain setting ((name, handler) :: rest) s = (.ok (), s')) :
    ∃ s₁, handler setting s = (.ok (), s₁) ∧ Session.runChain setting rest s₁ = (.ok (), s') := by
  rcases step : handler setting s with ⟨failure | ⟨⟩, s₁⟩
  · rw [runChain_cons_error going step] at ran
    cases ran
  · rw [runChain_cons_ok going step] at ran
    exact ⟨s₁, rfl, ran⟩

/-- Nothing runs in an operation that is stopped. -/
theorem runChain_stopped (stopped : s.operation.stopped = true) :
    Session.runChain setting rest s = (.ok (), s) := by
  cases rest with
  | nil => rfl
  | cons callback rest => rw [Session.runChain, if_pos stopped]

/-- A chain of two parts runs the second where the first has come to its end. -/
theorem runChain_append (first : List (String × Handler)) :
    Session.runChain setting (first ++ rest) s = match Session.runChain setting first s with
      | (.ok (), s') => Session.runChain setting rest s'
      | (.error failure, s') => (.error failure, s') := by
  induction first generalizing s with
  | nil => rfl
  | cons callback first ih =>
      cases stopped : s.operation.stopped with
      | true =>
          rw [runChain_stopped stopped, runChain_stopped stopped]
          exact (runChain_stopped stopped).symm
      | false =>
          rcases ran : callback.2 setting s with ⟨_ | _, s₁⟩
          · rw [List.cons_append, runChain_cons_error stopped ran, runChain_cons_error stopped ran]
          · rw [List.cons_append, runChain_cons_ok stopped ran, runChain_cons_ok stopped ran, ih]

theorem exists_of_runChain_append {first : List (String × Handler)}
    (ran : Session.runChain setting (first ++ rest) s = (.ok (), s')) :
    ∃ s₁, Session.runChain setting first s = (.ok (), s₁) ∧
      Session.runChain setting rest s₁ = (.ok (), s') := by
  rw [runChain_append] at ran
  rcases front : Session.runChain setting first s with ⟨failure | ⟨⟩, s₁⟩
  · rw [front] at ran
    cases ran
  · rw [front] at ran
    exact ⟨s₁, rfl, ran⟩

section Requests

variable {callbacks : Callbacks} {request : Request} {e : Entity} {actor : Actor} {w : World}

/-- A chain that runs to its end leaves its outcome and its world. -/
theorem perform_of_ok (registered : setting.registry.find? name = some e)
    (run : Session.runChain setting (callbacks.chain request.phase)
      ⟨.start request e actor, w⟩ = (.ok (), s')) :
    w.perform setting callbacks actor name request = (.ok s'.operation.outcome, s'.world) := by
  rw [World.perform, registered]
  simp only [run]

/-- A chain that fails leaves the rows as they were. -/
theorem perform_of_error {failure : OperationError}
    (registered : setting.registry.find? name = some e)
    (run : Session.runChain setting (callbacks.chain request.phase)
      ⟨.start request e actor, w⟩ = (.error failure, s')) :
    w.perform setting callbacks actor name request =
      (.error failure, { s'.world with db := w.db }) := by
  rw [World.perform, registered]
  simp only [run]

/-- An operation that succeeds leaves what its chain has left. -/
theorem exists_of_perform_ok {outcome : Outcome}
    (registered : setting.registry.find? name = some e)
    (told : (w.perform setting callbacks actor name request).1 = .ok outcome) :
    ∃ s', Session.runChain setting (callbacks.chain request.phase)
        ⟨.start request e actor, w⟩ = (.ok (), s') ∧ s'.operation.outcome = outcome ∧
      (w.perform setting callbacks actor name request).2 = s'.world := by
  rcases ran : Session.runChain setting (callbacks.chain request.phase)
      ⟨.start request e actor, w⟩ with ⟨failure | ⟨⟩, s'⟩
  · rw [perform_of_error registered ran] at told
    cases told
  · rw [perform_of_ok registered ran] at told ⊢
    exact ⟨s', rfl, Except.ok.inj told, rfl⟩

/-- An operation that fails leaves the rows as they were. -/
theorem perform_failed {failure : OperationError}
    (registered : setting.registry.find? name = some e)
    (told : (w.perform setting callbacks actor name request).1 = .error failure) :
    (w.perform setting callbacks actor name request).2.db = w.db := by
  rcases ran : Session.runChain setting (callbacks.chain request.phase)
      ⟨.start request e actor, w⟩ with ⟨reason | ⟨⟩, s'⟩
  · rw [perform_of_error registered ran]
  · rw [perform_of_ok registered ran] at told
    cases told

/-- What a client is told of a chain that has run. -/
def Session.told (run : Except OperationError Unit × Session) : Except OperationError Outcome :=
  run.1.map fun _ => run.2.operation.outcome

/-- A client is told what the chain of its request has come to. -/
theorem perform_fst (registered : setting.registry.find? name = some e) :
    (w.perform setting callbacks actor name request).1 =
      Session.told (Session.runChain setting (callbacks.chain request.phase)
        ⟨.start request e actor, w⟩) := by
  cases run : Session.runChain setting (callbacks.chain request.phase)
      ⟨.start request e actor, w⟩ with
  | mk result s =>
      cases result with
      | ok => rw [perform_of_ok registered run]; rfl
      | error => rw [perform_of_error registered run]; rfl

end Requests

end Chains

/-- The callbacks that settle which rows an operation reaches. -/
def Callbacks.reaching : List (String × Handler) :=
  [(Builtin.compileFilter.name, Step.compileFilter), (Builtin.injectScope.name, Step.injectScope),
    (Builtin.excludeDeleted.name, Step.excludeDeleted)]

/-! ## What the callbacks make of an operation -/

namespace Operation

/-- The operation confined to the scope of privileges, unless they bypass checks. -/
def confined (o : Operation) (p : Privileges) : Operation :=
  if p.bypass then o else o.pushFilter (scopePredicate o.entity (o.scope p) o.entity.table)

/-- The operation without the rows that are marked as deleted. -/
def withoutDeleted (o : Operation) : Operation :=
  match o.entity.undeleted? with
  | some p => o.pushFilter p
  | none => o

theorem confined_stopped (o : Operation) (p : Privileges) : (o.confined p).stopped = o.stopped := by
  unfold confined
  split <;> rfl

/-- The predicates that have to hold beside the filter of the client: that a row is in the
scope of privileges, unless they bypass checks, and that it is not marked as deleted. -/
def guards (o : Operation) (p? : Option Privileges) : List Predicate :=
  (p?.bind fun p =>
    if p.bypass then none else some (scopePredicate o.entity (o.scope p) o.entity.table)).toList ++
      o.entity.undeleted?.toList

/-- The operation with the filter of the client compiled and guarded. -/
def reached (o : Operation) (f : CompiledFilter) (p? : Option Privileges) : Operation :=
  { o with filter := { f with fragments := f.fragments ++ o.guards p? }, privileges := p? }

end Operation

/-- The privileges that an operation on an entity uses: none if the entity is unrestricted. -/
def Privileges.usedFor (p : Privileges) (e : Entity) : Option Privileges :=
  if e.unrestricted then none else some p

/-- The answer to the question for the privileges of an actor. -/
def World.privilegesOf (w : World) (setting : Setting) (actor : Actor) :
    Except ResolveError Privileges × ResolverWorld :=
  w.resolver.resolve setting.resolver setting.now.seconds actor

/-- The world after an operation on an entity has asked for the privileges of its actor. -/
def World.asked (w : World) (setting : Setting) (e : Entity) (actor : Actor) : World :=
  if e.unrestricted then w else { w with resolver := (w.privilegesOf setting actor).2 }

/-- To ask for privileges changes no rows. -/
theorem asked_db {w : World} {setting : Setting} {e : Entity} {actor : Actor} :
    (w.asked setting e actor).db = w.db := by
  unfold World.asked
  split <;> rfl

/-- The privileges of an actor are refused where they are needed, or they are known. -/
theorem privilegesOf_cases (w : World) (setting : Setting) (e : Entity) (actor : Actor) :
    (e.unrestricted = false ∧ ∃ reason, (w.privilegesOf setting actor).1 = .error reason) ∨
      ∃ p : Privileges, e.unrestricted = false → (w.privilegesOf setting actor).1 = .ok p := by
  cases answer : (w.privilegesOf setting actor).1 with
  | ok p => exact .inr ⟨p, fun _ => rfl⟩
  | error reason =>
      cases unrestricted : e.unrestricted with
      | false => exact .inl ⟨rfl, reason, rfl⟩
      | true => exact .inr ⟨default, nofun⟩

namespace Step

variable {setting : Setting} {s : Session}

theorem compileFilter_ok {f : CompiledFilter}
    (compiled : compile setting.registry setting.limits.maxFilterDepth s.operation.entity
      s.operation.filterInput = .ok f) :
    compileFilter setting s =
      (.ok (), { s with operation := { s.operation with filter := f } }) := by
  simp [compileFilter, compiled]

theorem compileFilter_error {reason : CompileError}
    (refused : compile setting.registry setting.limits.maxFilterDepth s.operation.entity
      s.operation.filterInput = .error reason) :
    compileFilter setting s = (.error (.operation (.ofCompile reason)), s) := by
  simp [compileFilter, refused]

theorem injectScope_unrestricted (unrestricted : s.operation.entity.unrestricted = true) :
    injectScope setting s = (.ok (), s) := by
  simp [injectScope, unrestricted]

theorem injectScope_ok {p : Privileges} {r : ResolverWorld}
    (restricted : s.operation.entity.unrestricted = false)
    (unasked : s.operation.privileges = none)
    (resolved : s.world.privilegesOf setting s.operation.actor = (.ok p, r)) :
    injectScope setting s = (.ok (),
      ⟨{ s.operation with privileges := some p }.confined p, { s.world with resolver := r }⟩) := by
  rw [World.privilegesOf] at resolved
  cases bypass : p.bypass <;>
    simp [injectScope, restricted, privileges, unasked, resolved, Operation.confined, bypass]

theorem injectScope_error {reason : ResolveError} {r : ResolverWorld}
    (restricted : s.operation.entity.unrestricted = false)
    (unasked : s.operation.privileges = none)
    (refused : s.world.privilegesOf setting s.operation.actor = (.error reason, r)) :
    injectScope setting s = (.error (.operation (.ofPrivilege reason.told)),
      { s with world := { s.world with resolver := r } }) := by
  rw [World.privilegesOf] at refused
  simp [injectScope, restricted, privileges, unasked, refused]

theorem excludeDeleted_ok :
    excludeDeleted setting s = (.ok (), { s with operation := s.operation.withoutDeleted }) := rfl

end Step

/-! ## The reached rows -/

section Reaching

variable {setting : Setting} {request : Request} {e : Entity} {actor : Actor} {w : World}
  {f : CompiledFilter} {p : Privileges} {rest : List (String × Handler)}

theorem withoutDeleted_eq_reached (o : Operation) (unasked : o.privileges = none) :
    { o with filter := f }.withoutDeleted = o.reached f none := by
  cases undeleted : o.entity.undeleted? <;>
    simp [Operation.withoutDeleted, Operation.reached, Operation.guards, undeleted,
      Operation.pushFilter, CompiledFilter.push, unasked]

theorem withoutDeleted_confined_eq_reached (o : Operation) :
    ({ o with filter := f, privileges := some p }.confined p).withoutDeleted =
      o.reached f (some p) := by
  cases bypass : p.bypass <;> cases undeleted : o.entity.undeleted? <;>
    simp [Operation.confined, Operation.withoutDeleted, Operation.reached, Operation.guards,
      Operation.scope, bypass, undeleted, Operation.pushFilter, CompiledFilter.push]

/-- An operation whose filter compiles and whose privileges are known, if they are needed,
goes on with the reached rows. -/
theorem runChain_reaching
    (compiled : compile setting.registry setting.limits.maxFilterDepth e request.filter = .ok f)
    (resolved : e.unrestricted = false → (w.privilegesOf setting actor).1 = .ok p) :
    Session.runChain setting (Callbacks.reaching ++ rest) ⟨.start request e actor, w⟩ =
      Session.runChain setting rest ⟨(Operation.start request e actor).reached f (p.usedFor e),
        w.asked setting e actor⟩ := by
  cases unrestricted : e.unrestricted with
  | true =>
      rw [Privileges.usedFor, World.asked, if_pos unrestricted, if_pos unrestricted,
        ← withoutDeleted_eq_reached _ rfl]
      exact (runChain_cons_ok rfl (Step.compileFilter_ok compiled)).trans <|
        (runChain_cons_ok rfl (Step.injectScope_unrestricted unrestricted)).trans <|
          runChain_cons_ok rfl Step.excludeDeleted_ok
  | false =>
      rw [Privileges.usedFor, World.asked, if_neg (by simp [unrestricted]),
        if_neg (by simp [unrestricted]), ← withoutDeleted_confined_eq_reached]
      have answered : w.privilegesOf setting actor =
          (.ok p, (w.privilegesOf setting actor).2) :=
        Prod.ext (resolved unrestricted) rfl
      exact (runChain_cons_ok rfl (Step.compileFilter_ok compiled)).trans <|
        (runChain_cons_ok rfl (Step.injectScope_ok unrestricted rfl answered)).trans <|
          runChain_cons_ok (Operation.confined_stopped _ p) Step.excludeDeleted_ok

/-- An operation whose filter does not compile goes no further. -/
theorem runChain_uncompiled {reason : CompileError}
    (refused : compile setting.registry setting.limits.maxFilterDepth e request.filter =
      .error reason) :
    Session.runChain setting (Callbacks.reaching ++ rest) ⟨.start request e actor, w⟩ =
      (.error ((Failure.operation (.ofCompile reason)).attributedTo Builtin.compileFilter.name),
        ⟨.start request e actor, w⟩) :=
  runChain_cons_error rfl (Step.compileFilter_error refused)

/-- An operation whose privileges are needed and refused goes no further. -/
theorem runChain_unresolved {reason : ResolveError}
    (compiled : compile setting.registry setting.limits.maxFilterDepth e request.filter = .ok f)
    (restricted : e.unrestricted = false)
    (refused : (w.privilegesOf setting actor).1 = .error reason) :
    Session.runChain setting (Callbacks.reaching ++ rest) ⟨.start request e actor, w⟩ =
      (.error ((Failure.operation (.ofPrivilege reason.told)).attributedTo
        Builtin.injectScope.name),
        ⟨{ Operation.start request e actor with filter := f }, w.asked setting e actor⟩) := by
  rw [World.asked, if_neg (by simp [restricted])]
  have answered : w.privilegesOf setting actor =
      (.error reason, (w.privilegesOf setting actor).2) :=
    Prod.ext refused rfl
  exact (runChain_cons_ok rfl (Step.compileFilter_ok compiled)).trans <|
    runChain_cons_error rfl (Step.injectScope_error restricted rfl answered)

end Reaching

/-- Whether a principal may reach a row: read it in a query, write it in other operations. -/
def Privileges.mayReach (p : Privileges) (phase : Phase) (e : Entity) (row : Row) : Bool :=
  if phase = .query then p.mayRead e row else p.mayWrite e row

namespace Operation

variable {o : Operation} {p : Privileges} {f : CompiledFilter} {db : Database} {row : Row}

theorem inScope_scope :
    o.entity.inScope (o.scope p) row = p.mayReach o.phase o.entity row := by
  rw [scope, Privileges.mayReach]
  split
  · exact inScope_readScope p
  · exact inScope_writeScope p

/-- The guards are true of the rows that the principal may reach and that are not marked as
deleted. -/
theorem guards_all : (o.guards (p.usedFor o.entity)).all
      (Predicate.isTrueAt db [(.of o.entity.table, row)]) =
    (p.mayReach o.phase o.entity row && o.entity.isLive row) := by
  have live : o.entity.undeleted?.toList.all
      (Predicate.isTrueAt db [(.of o.entity.table, row)]) = o.entity.isLive row := by
    rw [Entity.undeleted?, Entity.isLive]
    cases o.entity.tagged? .softDelete with
    | none => rfl
    | some field => simp [Predicate.isTrueAt_null]
  rw [guards, List.all_append, live]
  congr 1
  by_cases open_ : (o.entity.unrestricted || p.bypass) = true
  · have reaches : p.mayReach o.phase o.entity row = true := by
      simp [Privileges.mayReach, Privileges.mayRead, Privileges.mayWrite, open_]
    rw [reaches, Privileges.usedFor]
    cases unrestricted : o.entity.unrestricted with
    | true => rfl
    | false =>
        have bypass : p.bypass = true := by simpa [unrestricted] using open_
        simp [bypass]
  · have restricted : o.entity.unrestricted = false := by simp_all
    have checked : p.bypass = false := by simp_all
    rw [← inScope_scope, Privileges.usedFor, if_neg (by simp [restricted])]
    simp [checked, isTrueAt_scopePredicate]

/-- The filter of a reached operation is true of the rows that the filter of the client is
true of and the guards are. -/
theorem isTrueAt_reached :
    (o.reached f (p.usedFor o.entity)).filter.predicate.isTrueAt db [(.of o.entity.table, row)] =
      (f.predicate.isTrueAt db [(.of o.entity.table, row)] &&
        p.mayReach o.phase o.entity row && o.entity.isLive row) := by
  rw [CompiledFilter.isTrueAt_predicate, CompiledFilter.isTrueAt_predicate, reached,
    CompiledFilter.isTrueAt_mk, List.all_append, guards_all, CompiledFilter.isTrueAt,
    CompiledFilter.parts, List.all_append]
  ac_rfl

/-- A guard is the predicate of a scope, or tests that a row is not marked as deleted. -/
theorem mem_guards {p? : Option Privileges} {g : Predicate} (member : g ∈ o.guards p?) :
    (∃ scope, g = scopePredicate o.entity scope o.entity.table) ∨
      ∃ field, o.entity.tagged? .softDelete = some field ∧
        g = .null ⟨o.entity.table, field.column⟩ false := by
  rcases List.mem_append.mp member with member | member
  · obtain ⟨p, -, added⟩ := Option.bind_eq_some_iff.mp (Option.mem_toList.mp member)
    split at added
    · cases added
    · exact .inl ⟨_, (Option.some.inj added).symm⟩
  · obtain ⟨field, tagged, rfl⟩ := Option.map_eq_some_iff.mp (Option.mem_toList.mp member)
    exact .inr ⟨field, tagged, rfl⟩

/-- The guards test stored columns, if the mark of deletion is stored. -/
theorem follows_guards {registry : Registry} {tables : List String} {p? : Option Privileges}
    (marked : o.entity.StoresMark) :
    ∀ g ∈ o.guards p?, g.Follows registry tables o.entity o.entity.table := by
  intro g member
  rcases mem_guards member with ⟨scope, rfl⟩ | ⟨field, tagged, rfl⟩
  · exact follows_scopePredicate scope
  · exact .test (Entity.stores_of_tagged? tagged (marked field tagged)) rfl

/-- The filter of a reached operation leads nowhere but where that of the client does. -/
theorem follows_reached {registry : Registry} {tables : List String} {p? : Option Privileges}
    (marked : o.entity.StoresMark) (follows : f.Follows registry tables o.entity o.entity.table) :
    (o.reached f p?).filter.Follows registry tables o.entity o.entity.table := by
  obtain ⟨fragments, groups⟩ := CompiledFilter.follows_mk.mp follows
  exact CompiledFilter.follows_mk.mpr
    ⟨List.forall_mem_append.mpr ⟨fragments, follows_guards marked⟩, groups⟩

section Statement

variable {registry : Registry} {maxDepth : Nat} {filter : Json} {t : Table}

/-- The statement of a reached operation acts on the rows that the client asks for, that the
principal may reach, and that are not marked as deleted. -/
theorem passes_reached (o : Operation)
    (compiled : compile registry maxDepth o.entity filter = .ok f)
    (marked : o.entity.StoresMark) (fits : db.Fits registry) (own : o.entity.FitsIn db)
    (stored : db.table? o.entity.table = some t) (row : Row) :
    db.passes o.entity.table t (o.reached f (p.usedFor o.entity)).condition row =
      (Filter.holds registry db o.entity row filter && p.mayReach o.phase o.entity row &&
        o.entity.isLive row) := by
  have follows : (o.reached f (p.usedFor o.entity)).filter.Follows registry
      (Filter.tables registry o.entity filter) o.entity o.entity.table :=
    follows_reached marked (compile_follows compiled)
  rw [condition, Predicate.passes_condition, follows.predicate.passes fits own stored,
    isTrueAt_reached, compile_isTrueAt compiled]

/-- The statement is accepted where the tables that the filter leads to are there. -/
theorem accepts_reached (o : Operation)
    (compiled : compile registry maxDepth o.entity filter = .ok f)
    (marked : o.entity.StoresMark) (fits : db.Fits registry) (own : o.entity.FitsIn db)
    (stored : db.table? o.entity.table = some t)
    (serves : db.Serves (Filter.tables registry o.entity filter)) (p? : Option Privileges) :
    db.accepts [(.of o.entity.table, t.columns)] (o.reached f p?).condition = true :=
  (follows_reached marked (compile_follows compiled)).predicate.accepts fits own serves
    (own.answered t stored) []

end Statement

end Operation

end ScopedAccess
