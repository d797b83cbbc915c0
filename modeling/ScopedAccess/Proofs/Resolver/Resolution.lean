import ScopedAccess.Proofs.Resolver.Grants
import ScopedAccess.Resolver.World
/-!
# What resolving privileges gives

A source that fails no call keeps its data, whatever a program asks of it
(`ResolverWorld.Answers.run`). So the data alone say what a program ends with
(`SourceData.Gives`), and what resolution ends with is put together from what its parts do.

* `gives_compute`: what the roles with some ids come to;
* `resolve_exact`: when resolution succeeds without a cache, and the privileges it gives.
-/

namespace ScopedAccess

set_option autoImplicit false

namespace SourceData

variable {s : SourceData} {now : Int} {user : Uuid}

/-- The parent of every listed organization. -/
def links (s : SourceData) : ParentLinks := .ofOrganizations s.organizations

/-- Whether a user has an assignment that is active at a time. -/
def Assigned (s : SourceData) (now : Int) (user : Uuid) : Prop :=
  ∃ a ∈ s.assignments, a.user = user ∧ a.isActiveAt now = true

/-- The roles of a user's assignments that are active at a time. -/
def heldRoles (s : SourceData) (now : Int) (user : Uuid) : List Role :=
  s.roles.filter fun r => decide
    (∃ a ∈ s.assignments, (a.user = user ∧ a.isActiveAt now = true) ∧ a.role = r.id)

/-- Whether the organizations are those of a forest, and every privilege of some roles is for
one of them. -/
structure Places (s : SourceData) (roles : List Role) : Prop where
  forest : s.links.IsForest
  listed : ∀ r ∈ roles, ∀ p ∈ r.privileges, s.links.contains p.organization = true

/-- What some roles come to over the tree of the organizations. -/
def privilegesOf (s : SourceData) (roles : List Role) (user org : Uuid) :
    Except TreeError Privileges :=
  OrgIndex.build s.organizations >>= fun index =>
    (Grants.ofRoles roles).privileges index user org

end SourceData

/-! ## Programs over a source that answers -/

namespace ResolverWorld

variable {w : ResolverWorld} {s : SourceData} {α β : Type}

/-- A source has some data and fails no call. -/
structure Answers (w : ResolverWorld) (s : SourceData) : Prop where
  source : w.source = s
  answering : ∀ method, w.sourceFault method = none

theorem Answers.answerSource (answers : w.Answers s) (method : SourceMethod) (value : α) :
    (w.answerSource method value).1 = .ok value ∧ (w.answerSource method value).2.Answers s := by
  rw [ResolverWorld.answerSource, answers.answering]
  exact ⟨rfl, answers.source, answers.answering⟩

/-- A call to the cache leaves the source alone. -/
theorem Answers.answerCache (answers : w.Answers s) (method : CacheMethod) (value : α)
    (change : CacheContent → CacheContent) : (w.answerCache method value change).2.Answers s := by
  unfold ResolverWorld.answerCache
  split
  · exact answers
  · exact ⟨answers.source, answers.answering⟩

theorem Answers.answer (answers : w.Answers s) (call : Call) : (w.answer call).2.Answers s := by
  cases call with
  | assignments | roles | organizations => exact (answers.answerSource _ _).2
  | cacheGet | cacheSet | cacheDelete | cacheDeleteAll => exact answers.answerCache _ _ _

theorem Answers.run (answers : w.Answers s) (p : Program α) : (w.run p).2.Answers s := by
  induction p generalizing w with
  | done result => exact answers
  | ask call next ih => exact ih _ (answers.answer call)

theorem run_bind (p : Program α) (f : α → Program β) :
    w.run (p.bind f) = (w.run p).2.run (f (w.run p).1) := by
  induction p generalizing w with
  | done result => rfl
  | ask call next ih => exact ih _

theorem run_attempt_bind (x : Attempt α) (f : α → Attempt β) :
    w.run (x >>= f).run = (w.run x.run).2.run (ExceptT.bindCont f (w.run x.run).1) :=
  run_bind _ _

end ResolverWorld

namespace SourceData

variable {s : SourceData} {α β : Type}

/-- What a program ends with over data that are always answered with. -/
def Gives (s : SourceData) (x : Attempt α) (result : Except ResolveError α) : Prop :=
  ∀ w : ResolverWorld, w.Answers s → (w.run x.run).1 = result

theorem gives_pure (a : α) : s.Gives (pure a) (.ok a) := fun _ _ => rfl

theorem gives_throw (e : ResolveError) : s.Gives (throw e : Attempt α) (.error e) :=
  fun _ _ => rfl

/-- Calls to the source are answered from the data. -/
theorem gives_ask (call : Call) (method : SourceMethod) (f : SourceData → call.Result)
    (asks : ∀ w : ResolverWorld, w.answer call = w.answerSource method (f w.source)) :
    s.Gives call.ask (.ok (f s)) := by
  intro w answers
  have run : w.run call.ask.run = w.answer call := rfl
  rw [run, asks, answers.source]
  exact (answers.answerSource _ _).1

theorem Gives.bind {x : Attempt α} {f : α → Attempt β} {a : α} {result : Except ResolveError β}
    (first : s.Gives x (.ok a)) (rest : s.Gives (f a) result) : s.Gives (x >>= f) result := by
  intro w answers
  rw [ResolverWorld.run_attempt_bind, first w answers]
  exact rest _ (answers.run _)

theorem Gives.bind_error {x : Attempt α} {f : α → Attempt β} {e : ResolveError}
    (first : s.Gives x (.error e)) : s.Gives (x >>= f) (.error e) := by
  intro w answers
  rw [ResolverWorld.run_attempt_bind, first w answers]
  rfl

theorem Gives.bind_pure {x : Attempt α} {result : Except ResolveError α}
    (gives : s.Gives x result) : s.Gives (x >>= pure) result := by
  cases result with
  | error e => exact gives.bind_error
  | ok a => exact gives.bind (gives_pure a)

theorem gives_assignments (user : Uuid) :
    s.Gives (Call.assignments user).ask (.ok (s.assignmentsOf user)) :=
  gives_ask (.assignments user) .assignments (·.assignmentsOf user) fun _ => rfl

theorem gives_roles (ids : List Uuid) : s.Gives (Call.roles ids).ask (.ok (s.rolesOf ids)) :=
  gives_ask (.roles ids) .roles (·.rolesOf ids) fun _ => rfl

theorem gives_organizations : s.Gives Call.organizations.ask (.ok s.organizations) :=
  gives_ask .organizations .organizations (·.organizations) fun _ => rfl

end SourceData

/-! ## Active roles -/

namespace ActiveRoles

variable {now : Int} {assignments : List RoleAssignment}

theorem ofAssignments?_eq_none : ofAssignments? now assignments = none ↔
    ∀ a ∈ assignments, a.isActiveAt now = false := by
  unfold ofAssignments?
  split
  · rename_i none
    simpa using none
  · rename_i some
    simpa using some

theorem mem_ids {active : ActiveRoles} (found : ofAssignments? now assignments = some active)
    {id : Uuid} : id ∈ active.ids ↔ ∃ a ∈ assignments, a.isActiveAt now = true ∧ a.role = id := by
  unfold ofAssignments? at found
  split at found
  · cases found
  · cases found
    rw [← SortedSet.mem_iff, SortedSet.mem_ofList]
    simp [and_assoc]

end ActiveRoles

namespace Resolver

variable {s : SourceData} {now : Int} {user org : Uuid}

/-- The active assignments select roles if there is one. -/
theorem assigned_iff : s.Assigned now user ↔
    ∃ active, ActiveRoles.ofAssignments? now (s.assignmentsOf user) = some active := by
  rw [← Option.isSome_iff_exists, ← Option.ne_none_iff_isSome, Ne,
    ActiveRoles.ofAssignments?_eq_none]
  simp [SourceData.Assigned, SourceData.assignmentsOf]

/-- Without active assignments there are no roles. -/
theorem gives_activeRoles_error (unassigned : ¬ s.Assigned now user) :
    s.Gives (activeRoles now user) (.error (.noAssignments user)) := by
  refine (SourceData.gives_assignments user).bind ?_
  cases found : ActiveRoles.ofAssignments? now (s.assignmentsOf user) with
  | none => exact SourceData.gives_throw _
  | some active => exact absurd (assigned_iff.mpr ⟨active, found⟩) unassigned

/-- The ids of the active assignments are those of the roles held. -/
theorem rolesOf_eq_heldRoles {active : ActiveRoles}
    (found : ActiveRoles.ofAssignments? now (s.assignmentsOf user) = some active) :
    s.rolesOf active.ids = s.heldRoles now user := by
  refine List.filter_congr fun r _ => decide_eq_decide.mpr ?_
  rw [ActiveRoles.mem_ids found]
  simp [SourceData.assignmentsOf, and_assoc]

/-- The active assignments of a user select the roles held. -/
theorem gives_activeRoles (assigned : s.Assigned now user) : ∃ active : ActiveRoles,
    s.Gives (activeRoles now user) (.ok active) ∧ s.rolesOf active.ids = s.heldRoles now user := by
  obtain ⟨active, found⟩ := assigned_iff.mp assigned
  refine ⟨active, (SourceData.gives_assignments user).bind ?_, rolesOf_eq_heldRoles found⟩
  rw [found]
  exact SourceData.gives_pure _

/-! ## Privileges of the roles -/

variable {roles : List Role} {p : Privileges}

theorem gives_compute (user org : Uuid) (ids : List Uuid) : s.Gives (compute user org ids)
    ((s.privilegesOf (s.rolesOf ids) user org).mapError .tree) := by
  refine (SourceData.gives_roles ids).bind (SourceData.gives_organizations.bind ?_)
  rw [SourceData.privilegesOf]
  cases built : OrgIndex.build s.organizations with
  | error e => exact SourceData.gives_throw _
  | ok index =>
      change s.Gives _ (((Grants.ofRoles (s.rolesOf ids)).privileges index user org).mapError .tree)
      cases granted : (Grants.ofRoles (s.rolesOf ids)).privileges index user org with
      | error e =>
          simp only [granted]
          exact SourceData.gives_throw _
      | ok p =>
          simp only [granted]
          exact SourceData.gives_pure _

/-- Roles come to what they grant. -/
theorem privilegesOf_ok (computed : s.privilegesOf roles user org = .ok p) :
    s.Places roles ∧ p.Granted s.links roles user org := by
  obtain ⟨index, built, granted⟩ := exists_of_bind_eq_ok computed
  obtain ⟨listed, grants⟩ := Grants.privileges_ok (OrgIndex.expands_of_build built) granted
  exact ⟨⟨(OrgIndex.build_ok built).1, listed⟩, grants⟩

theorem exists_privilegesOf (places : s.Places roles) (user org : Uuid) :
    ∃ p, s.privilegesOf roles user org = .ok p := by
  obtain ⟨index, built⟩ := exists_of_isOk (OrgIndex.build_isOk_iff.mpr places.forest)
  obtain ⟨p, granted⟩ :=
    Grants.exists_privileges (OrgIndex.expands_of_build built) places.listed user org
  exact ⟨p, by rw [SourceData.privilegesOf, built]; exact granted⟩

/-! ## Resolving without a cache -/

section Uncached

variable {config : ResolverConfig} {actor : Actor} (uncached : config.cacheEnabled = false)
  (checked : actor.id ≠ config.rootUser)

include uncached checked

theorem resolve_uncached : resolve config now actor = activeRoles now actor.id >>= fun active =>
    compute actor.id actor.activeOrg active.ids >>= pure := by
  simp [resolve, resolveFresh, uncached, checked]

theorem gives_resolve_error (unassigned : ¬ s.Assigned now actor.id) :
    s.Gives (resolve config now actor) (.error (.noAssignments actor.id)) := by
  rw [resolve_uncached uncached checked]
  exact (gives_activeRoles_error unassigned).bind_error

theorem gives_resolve (assigned : s.Assigned now actor.id) :
    s.Gives (resolve config now actor)
      ((s.privilegesOf (s.heldRoles now actor.id) actor.id actor.activeOrg).mapError .tree) := by
  obtain ⟨active, gives, held⟩ := gives_activeRoles assigned
  rw [resolve_uncached uncached checked, ← held]
  exact gives.bind (gives_compute actor.id actor.activeOrg active.ids).bind_pure

end Uncached

end Resolver

/-- Resolution without a cache: a principal is unauthorized if it has no active assignment.
Else it gets privileges where the organizations are those of a forest and all privileges of the
roles held are for one of them, and those are what the roles grant. -/
theorem resolve_exact (w : ResolverWorld) (config : ResolverConfig) (now : Int) (actor : Actor)
    (answering : ∀ method, w.sourceFault method = none) (uncached : config.cacheEnabled = false)
    (checked : actor.id ≠ config.rootUser) :
    (∀ user, (∃ e, (w.resolve config now actor).1 = .error e ∧ e.told = .unauthorized user) ↔
      user = actor.id ∧ ¬ w.source.Assigned now actor.id) ∧
    (w.source.Assigned now actor.id → ((∃ p, (w.resolve config now actor).1 = .ok p) ↔
      w.source.Places (w.source.heldRoles now actor.id))) ∧
    ∀ p, (w.resolve config now actor).1 = .ok p →
      p.Granted w.source.links (w.source.heldRoles now actor.id) actor.id actor.activeOrg := by
  have answers : w.Answers w.source := ⟨rfl, answering⟩
  by_cases assigned : w.source.Assigned now actor.id
  · have result : (w.resolve config now actor).1 = _ :=
      Resolver.gives_resolve uncached checked assigned w answers
    rw [result]
    cases computed : w.source.privilegesOf (w.source.heldRoles now actor.id) actor.id
        actor.activeOrg with
    | error e =>
        have misplaced : ¬ w.source.Places (w.source.heldRoles now actor.id) := by
          intro places
          obtain ⟨p, ok⟩ := Resolver.exists_privilegesOf places actor.id actor.activeOrg
          rw [computed] at ok
          cases ok
        simp [Except.mapError, assigned, misplaced, ResolveError.told]
    | ok p =>
        obtain ⟨places, granted⟩ := Resolver.privilegesOf_ok computed
        simp [Except.mapError, assigned, places, granted]
  · have result : (w.resolve config now actor).1 = _ :=
      Resolver.gives_resolve_error uncached checked assigned w answers
    rw [result]
    simp [assigned, ResolveError.told, eq_comm]

namespace Notebook

def headOffice : Uuid := .ofNat 16

def district : Uuid := .ofNat 17

def annex : Uuid := .ofNat 18

/-- A principal that may see a district and what is below it. -/
def auditor : Actor := ⟨.ofNat 34, none, headOffice⟩

def auditing : Role :=
  ⟨.ofNat 49, "auditor", "Auditor", [],
    [⟨district, .currentFollowing, .personal, [⟨"note", some .current, none⟩]⟩]⟩

def districts : SourceData where
  organizations := [⟨annex, "annex", "Annex", some district, ""⟩,
    ⟨district, "district", "District", some headOffice, ""⟩,
    ⟨headOffice, "head", "Head office", none, ""⟩]
  roles := [⟨.ofNat 48, "clerk", "Clerk", [], [⟨headOffice, .current, .current, []⟩]⟩, auditing]
  assignments := [⟨auditor.id, .ofNat 48, 5⟩, ⟨auditor.id, .ofNat 49, 0⟩]

theorem districts_forest : districts.links.IsForest :=
  OrgIndex.build_isOk_iff.mp (by decide +kernel)

end Notebook

open Notebook in
/-- The auditor reads the annex below its district, and the head office no longer: its assignment
as a clerk there has ended. -/
theorem auditor_reads_annex :
    ∃ p, ((ResolverWorld.ofSource districts).resolve ⟨.ofNat 1, false⟩ 5 auditor).1 = .ok p ∧
      annex ∈ p.orgs .reading ∧ headOffice ∉ p.orgs .reading := by
  obtain ⟨-, resolves, grants⟩ := resolve_exact (.ofSource districts) ⟨.ofNat 1, false⟩ 5 auditor
    (fun _ => rfl) rfl (by decide +kernel)
  have assigned : districts.Assigned 5 auditor.id := ⟨⟨auditor.id, auditing.id, 0⟩, by decide +kernel⟩
  have held : districts.heldRoles 5 auditor.id = [auditing] := by decide +kernel
  have places : districts.Places (districts.heldRoles 5 auditor.id) :=
    ⟨districts_forest, by decide +kernel⟩
  obtain ⟨p, resolved⟩ := (resolves assigned).mpr places
  have reads : ∀ x, x ∈ p.orgs .reading ↔ districts.links.Under x district := by
    intro x
    rw [(grants p resolved).orgs, ResolverWorld.ofSource, held]
    simp [auditing, DataPrivilege.range, ParentLinks.Covers]
  have below : districts.links.parent? annex = some district := by decide +kernel
  refine ⟨p, resolved, (reads annex).mpr (.single below), fun reading => ?_⟩
  have top : districts.links.parent? headOffice = none := by decide +kernel
  rcases ((reads headOffice).mp reading).cases_head with same | ⟨parent, link, -⟩
  · exact absurd same (by decide +kernel)
  · rw [ParentLinks.HasParent, top] at link
    cases link

end ScopedAccess
