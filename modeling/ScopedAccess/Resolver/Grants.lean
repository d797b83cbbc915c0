import ScopedAccess.Privilege.Role
import ScopedAccess.Privilege.Summary
import ScopedAccess.Resolver.Program
/-!
# Combining roles

Roles are folded together before any organization is looked at: ranges keep their
maximum per organization, and per entity and organization where roles override
them. An override that sets no range never hides one that does.

`Grants.privileges` then expands every range over the organization tree once. For
an entity with overrides, an organization's own range stands where no override sets
that side.
-/

namespace ScopedAccess

set_option autoImplicit false

/-- The widest ranges granted in an organization. -/
structure Grant where
  readable : DataRange
  writable : DataRange
  deriving DecidableEq

/-- The widest ranges that overrides set, if any does. -/
structure OverrideGrant where
  readable : Option DataRange
  writable : Option DataRange
  deriving DecidableEq

/-- Roles folded together. -/
structure Grants where
  permissions : SortedSet String
  byOrg : SortedMap Uuid Grant
  overrides : SortedMap String (SortedMap Uuid OverrideGrant)

/-- The wider of two ranges that may not be set. -/
def widerSet : Option DataRange → Option DataRange → Option DataRange
  | some a, some b => some (a.combine b)
  | some a, none => some a
  | none, b => b

namespace Grant

def none : Grant := ⟨.personal, .personal⟩

def widen (g : Grant) (p : DataPrivilege) : Grant :=
  ⟨g.readable.combine p.readable, g.writable.combine p.writable⟩

/-- The ranges in force for an entity with overrides. -/
def overriddenBy (g : Grant) (o : Option OverrideGrant) : Grant :=
  ⟨(o.bind OverrideGrant.readable).getD g.readable, (o.bind OverrideGrant.writable).getD g.writable⟩

end Grant

namespace OverrideGrant

def none : OverrideGrant := ⟨.none, .none⟩

def widen (g : OverrideGrant) (o : EntityOverride) : OverrideGrant :=
  ⟨widerSet g.readable o.readable, widerSet g.writable o.writable⟩

end OverrideGrant

namespace Grants

def empty : Grants := ⟨∅, ∅, ∅⟩

/-- Add one override in an organization. -/
def addOverride (org : Uuid) (g : Grants) (o : EntityOverride) : Grants :=
  { g with
    overrides := g.overrides.alter o.entity fun perOrg =>
      (perOrg.getD ∅).alter org fun known => (known.getD .none).widen o }

/-- Add what a role grants in one organization. -/
def addPrivilege (g : Grants) (p : DataPrivilege) : Grants :=
  p.overrides.foldl (addOverride p.organization)
    { g with byOrg := g.byOrg.alter p.organization fun known => (known.getD .none).widen p }

def addRole (g : Grants) (r : Role) : Grants :=
  r.privileges.foldl addPrivilege
    { g with permissions := r.permissions.foldl SortedSet.insert g.permissions }

/-- Fold roles together. -/
def ofRoles (roles : List Role) : Grants := roles.foldl addRole empty

/-- All organizations that ranges cover. -/
def expandAll (index : OrgIndex) (ranges : List (Uuid × DataRange)) :
    Except TreeError (SortedSet Uuid) :=
  ranges.foldlM (fun out (org, range) => do return out.union (← index.expand org range)) ∅

/-- The organizations covered on both sides. -/
def scopeOf (index : OrgIndex) (grants : List (Uuid × Grant)) : Except TreeError EntityScope := do
  let readable ← expandAll index (grants.map fun (org, g) => (org, g.readable))
  let writable ← expandAll index (grants.map fun (org, g) => (org, g.writable))
  return ⟨readable, writable⟩

/-- The ranges in force for an entity with overrides, per organization. -/
def forEntity (g : Grants) (overrides : SortedMap Uuid OverrideGrant) : List (Uuid × Grant) :=
  g.byOrg.entries.map fun (org, grant) => (org, grant.overriddenBy (overrides.find? org))

/-- The scopes of all entities with overrides. -/
def entityScopes (index : OrgIndex) (g : Grants) :
    Except TreeError (SortedMap String EntityScope) :=
  g.overrides.entries.foldlM (fun out (entity, overrides) => do
    return out.insert entity (← scopeOf index (g.forEntity overrides))) ∅

/-- The privileges of a user acting in an organization. -/
def privileges (index : OrgIndex) (g : Grants) (user activeOrg : Uuid) :
    Except TreeError Privileges := do
  let scope ← scopeOf index g.byOrg.entries
  let entities ← entityScopes index g
  return {
    user
    permissions := g.permissions
    readable := scope.readable
    writable := scope.writable
    activeOrg
    bypass := false
    entities }

end Grants

end ScopedAccess
