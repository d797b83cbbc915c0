import ScopedAccess.Json.Fields
import ScopedAccess.Scope.Rows
/-!
# Actors and their privileges

Who performs an operation, and in which organization (`Actor`), and what it may do there,
resolved from its roles (`Privileges`): permission codes, the organizations whose rows it may
read and write, and for some entities other organizations than for the rest. The root principal
bypasses every check. The identifier with all bits zero stands for nobody.

`Privileges.readScope` and `Privileges.writeScope` give the rows of an entity that
the principal reaches: those of the organizations for that entity and its own.
-/

namespace ScopedAccess

set_option autoImplicit false

/-! ## Actors -/

/-- An authenticated principal and the organization it acts in. -/
structure Actor where
  id : Uuid
  /-- What sort of principal this is, such as a user or a service. -/
  kind : Option String
  activeOrg : Uuid
  deriving DecidableEq

namespace Actor

def anonymous : Actor := ⟨.nil, none, .nil⟩

def isAnonymous (a : Actor) : Bool := a.id = .nil

def ofJson? (m : Json.Manner) (j : Json) : Option Actor := do
  let r ← j.fields? m false ["principal_id", "principal_type", "active_org_id"]
  return {
    id := ← (r "principal_id").required (Json.readUuid? m)
    kind := ← (r "principal_type").optional Json.readText?
    activeOrg := ← (r "active_org_id").required (Json.readUuid? m) }

def toJson (a : Actor) : Json :=
  .object [("principal_id", .ofUuid a.id), ("principal_type", .ofOption .str a.kind),
    ("active_org_id", .ofUuid a.activeOrg)]

end Actor

/-! ## Privileges -/

/-- The organizations reached for one entity. -/
structure EntityScope where
  readable : SortedSet Uuid
  writable : SortedSet Uuid
  deriving DecidableEq, Inhabited

/-- The resolved privileges of a principal acting in an organization. -/
structure Privileges where
  user : Uuid
  permissions : SortedSet String
  readable : SortedSet Uuid
  writable : SortedSet Uuid
  activeOrg : Uuid
  bypass : Bool
  /-- Entities with organizations of their own. -/
  entities : SortedMap String EntityScope
  deriving DecidableEq, Inhabited

namespace EntityScope

def ofJson? (m : Json.Manner) (j : Json) : Option EntityScope := do
  let r ← j.fields? m false ["readableOrgIds", "writableOrgIds"]
  return {
    readable := ← (r "readableOrgIds").required (Json.readUuidSet? m)
    writable := ← (r "writableOrgIds").required (Json.readUuidSet? m) }

def toJson (s : EntityScope) : Json :=
  .object [("readableOrgIds", .ofUuids s.readable), ("writableOrgIds", .ofUuids s.writable)]

end EntityScope

namespace Privileges

/-- The permission code that stands for all. -/
def allPermissions : String := "*"

/-- The privileges of the root principal. -/
def root (user activeOrg : Uuid) : Privileges where
  user
  permissions := .ofList [allPermissions]
  readable := ∅
  writable := ∅
  activeOrg
  bypass := true
  entities := ∅

def hasPermission (p : Privileges) (code : String) : Bool :=
  p.bypass || decide (allPermissions ∈ p.permissions) || decide (code ∈ p.permissions)

/-- The organizations whose rows of an entity may be read. -/
def readableFor (p : Privileges) (entity : String) : SortedSet Uuid :=
  ((p.entities.find? entity).map EntityScope.readable).getD p.readable

/-- The organizations whose rows of an entity may be written. -/
def writableFor (p : Privileges) (entity : String) : SortedSet Uuid :=
  ((p.entities.find? entity).map EntityScope.writable).getD p.writable

/-- The rows of an entity that may be read. -/
def readScope (p : Privileges) (entity : String) : AccessScope :=
  if p.bypass then .everything else .orgsOrOwner (p.readableFor entity) p.user

/-- The rows of an entity that may be written. -/
def writeScope (p : Privileges) (entity : String) : AccessScope :=
  if p.bypass then .everything else .orgsOrOwner (p.writableFor entity) p.user

def ofJson? (m : Json.Manner) (j : Json) : Option Privileges := do
  let r ← j.fields? m false ["userId", "permissionCodes", "readableOrgIds", "writableOrgIds",
    "activeOrgId", "bypass", "entityScopes"]
  return {
    user := ← (r "userId").required (Json.readUuid? m)
    permissions := ← (r "permissionCodes").required Json.readTextSet?
    readable := ← (r "readableOrgIds").required (Json.readUuidSet? m)
    writable := ← (r "writableOrgIds").required (Json.readUuidSet? m)
    activeOrg := ← (r "activeOrgId").required (Json.readUuid? m)
    bypass := ← (r "bypass").orElse false Json.readBool?
    entities := ← (r "entityScopes").orElse ∅ (Json.readMap? (EntityScope.ofJson? m)) }

def toJson (p : Privileges) : Json :=
  .object [("userId", .ofUuid p.user), ("permissionCodes", .ofTexts p.permissions),
    ("readableOrgIds", .ofUuids p.readable), ("writableOrgIds", .ofUuids p.writable),
    ("activeOrgId", .ofUuid p.activeOrg), ("bypass", .bool p.bypass),
    ("entityScopes", .obj (p.entities.mapValues fun _ s => s.toJson).entries)]

end Privileges

end ScopedAccess
