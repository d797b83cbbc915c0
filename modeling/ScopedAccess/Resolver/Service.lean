import ScopedAccess.Privilege.Summary
import ScopedAccess.Resolver.Cache
import ScopedAccess.Resolver.Grants
import ScopedAccess.Resolver.Program
/-!
# Resolving privileges

`Resolver.resolve` gives the privileges of a principal in an organization. The root
principal has all of them at once. For others a fresh entry of the cache is used if
there is one; else the active assignments of the user select the roles, the roles
are combined over the organization tree, and the result goes into the cache. The
pointer to the entry is written last, so a reader finds the entry or nothing.

`Resolver.invalidate` removes every entry of a user, whatever role sets it had.

The time is an argument; it is the same for all steps of one call.
-/

namespace ScopedAccess

set_option autoImplicit false

/-- The roles of a user's active assignments. -/
structure ActiveRoles where
  ids : List Uuid
  /-- The first end of an active assignment that ends. -/
  validUntil : Option Int

/-- The roles of the assignments that are active at a time; none if none is. -/
def ActiveRoles.ofAssignments? (now : Int) (assignments : List RoleAssignment) :
    Option ActiveRoles :=
  match assignments.filter (·.isActiveAt now) with
  | [] => none
  | active =>
    some {
      ids := (SortedSet.ofList (active.map RoleAssignment.role)).toList
      validUntil := ((active.map RoleAssignment.expiresAt).filter (· ≠ 0)).min? }

namespace Resolver

/-- The entry of the cache that may be used, if there is one. An entry that cannot be
read counts as missing. -/
def cached (now : Int) (user org : Uuid) : Attempt (Option Privileges) := do
  match ← (Call.cacheGet (pointerKey user)).ask with
  | none => return none
  | some roleSet =>
    match ← (Call.cacheGet (entryKey roleSet user org)).ask with
    | none => return none
    | some text =>
      match CachedPrivileges.decode? text with
      | some entry => return if entry.isFreshAt now then some entry.privileges else none
      | none => return none

/-- The roles that a user holds. -/
def activeRoles (now : Int) (user : Uuid) : Attempt ActiveRoles := do
  let assignments ← (Call.assignments user).ask
  match ActiveRoles.ofAssignments? now assignments with
  | some active => return active
  | none => throw (.noAssignments user)

/-- The privileges that roles give. -/
def compute (user org : Uuid) (roleIds : List Uuid) : Attempt Privileges := do
  let roles ← (Call.roles roleIds).ask
  let organizations ← Call.organizations.ask
  match OrgIndex.build organizations with
  | .error e => throw (.tree e)
  | .ok index =>
    match (Grants.ofRoles roles).privileges index user org with
    | .error e => throw (.tree e)
    | .ok privileges => return privileges

/-- Write an entry, the list of role sets and the pointer, in this order. -/
def store (user org : Uuid) (active : ActiveRoles) (privileges : Privileges) : Attempt Unit := do
  let roleSet := joinRoleIds active.ids
  let entry : CachedPrivileges := ⟨privileges, active.validUntil⟩
  (Call.cacheSet (entryKey roleSet user org) entry.encode).ask
  let index ← (Call.cacheGet (roleSetsKey user)).ask
  (Call.cacheSet (roleSetsKey user) (addRoleSet index roleSet)).ask
  (Call.cacheSet (pointerKey user) roleSet).ask

/-- Resolve without looking into the cache. -/
def resolveFresh (config : ResolverConfig) (now : Int) (actor : Actor) : Attempt Privileges := do
  let active ← activeRoles now actor.id
  let privileges ← compute actor.id actor.activeOrg active.ids
  if config.cacheEnabled then store actor.id actor.activeOrg active privileges
  return privileges

/-- The privileges of a principal acting in an organization. -/
def resolve (config : ResolverConfig) (now : Int) (actor : Actor) : Attempt Privileges := do
  if actor.id = config.rootUser then return .root actor.id actor.activeOrg
  if config.cacheEnabled then
    match ← cached now actor.id actor.activeOrg with
    | some privileges => return privileges
    | none => resolveFresh config now actor
  else resolveFresh config now actor

/-- Remove everything that the cache holds for a user. -/
def invalidate (config : ResolverConfig) (user : Uuid) : Attempt Unit := do
  if config.cacheEnabled then
    match ← (Call.cacheGet (roleSetsKey user)).ask with
    | some index =>
      (roleSets index).forM fun roleSet =>
        (Call.cacheDeleteAll (entriesStart roleSet user)).ask
    | none => pure ()
    (Call.cacheDelete (roleSetsKey user)).ask
    (Call.cacheDelete (pointerKey user)).ask

end Resolver

end ScopedAccess
