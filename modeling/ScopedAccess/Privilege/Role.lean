import ScopedAccess.Json.Fields
/-!
# Ranges and roles

How far a privilege granted in one organization reaches is its range. Ranges are totally
ordered from narrow to wide, and two grants combine to the wider.

A role grants permission codes and, per organization, how far its holder may see
and modify rows; an override replaces one or both ranges for a single entity. An
assignment gives a role to a user until it expires.
-/

namespace ScopedAccess

set_option autoImplicit false

/-! ## Ranges -/

/-- The breadth of a privilege in an organization. -/
inductive DataRange where
  /-- Only rows owned by the principal. -/
  | personal
  /-- Rows of the organization. -/
  | current
  /-- Rows of the organization and of all its descendants. -/
  | currentFollowing
  deriving DecidableEq, Inhabited

namespace DataRange

/-- The place in the order from narrow to wide. -/
def width : DataRange → Nat
  | personal => 0
  | current => 1
  | currentFollowing => 2

instance : LE DataRange := ⟨fun a b => a.width ≤ b.width⟩

instance : DecidableLE DataRange := fun a b => inferInstanceAs (Decidable (a.width ≤ b.width))

instance : LT DataRange := ⟨fun a b => a.width < b.width⟩

instance : DecidableLT DataRange := fun a b => inferInstanceAs (Decidable (a.width < b.width))

/-- The wider of two ranges. -/
def combine (a b : DataRange) : DataRange := if a ≤ b then b else a

def words : List (String × DataRange) :=
  [("PERSONAL", personal), ("CURRENT", current), ("CURRENT_FOLLOWING", currentFollowing)]

def word : DataRange → String
  | personal => "PERSONAL"
  | current => "CURRENT"
  | currentFollowing => "CURRENT_FOLLOWING"

def ofJson? : Json.Manner → Json → Option DataRange := Json.readWord? words

def toJson (r : DataRange) : Json := .str r.word

end DataRange

/-! ## Roles -/

/-- Ranges of one entity that replace those of the organization. A range that is
not set leaves the organization's in force. -/
structure EntityOverride where
  entity : String
  readable : Option DataRange
  writable : Option DataRange
  deriving DecidableEq

/-- What a role may see and modify in one organization. -/
structure DataPrivilege where
  organization : Uuid
  readable : DataRange
  writable : DataRange
  overrides : List EntityOverride
  deriving DecidableEq

/-- Permission codes and data privileges under one id. -/
structure Role where
  id : Uuid
  code : String
  name : String
  permissions : List String
  privileges : List DataPrivilege
  deriving DecidableEq

/-- A role given to a user until a time in seconds; zero is for ever. -/
structure RoleAssignment where
  user : Uuid
  role : Uuid
  expiresAt : Int
  deriving DecidableEq

/-- Whether an assignment counts at a time. -/
def RoleAssignment.isActiveAt (a : RoleAssignment) (now : Int) : Bool :=
  a.expiresAt = 0 || now < a.expiresAt

namespace EntityOverride

def ofJson? (m : Json.Manner) (j : Json) : Option EntityOverride := do
  let r ← j.fields? m false ["entityName", "readableRange", "writableRange"]
  return {
    entity := ← (r "entityName").required Json.readText?
    readable := ← (r "readableRange").optionalOrNone (DataRange.ofJson? m)
    writable := ← (r "writableRange").optionalOrNone (DataRange.ofJson? m) }

def toJson (o : EntityOverride) : Json :=
  .object [("entityName", .str o.entity), ("readableRange", .ofOption DataRange.toJson o.readable),
    ("writableRange", .ofOption DataRange.toJson o.writable)]

end EntityOverride

namespace DataPrivilege

def ofJson? (m : Json.Manner) (j : Json) : Option DataPrivilege := do
  let r ← j.fields? m false
    ["organizationId", "readableRange", "writableRange", "perEntityOverrides"]
  return {
    organization := ← (r "organizationId").required (Json.readUuid? m)
    readable := ← (r "readableRange").orElse .personal (DataRange.ofJson? m)
    writable := ← (r "writableRange").orElse .personal (DataRange.ofJson? m)
    overrides := ← (r "perEntityOverrides").orElse [] (Json.readList? (EntityOverride.ofJson? m)) }

def toJson (p : DataPrivilege) : Json :=
  .object [("organizationId", .ofUuid p.organization), ("readableRange", p.readable.toJson),
    ("writableRange", p.writable.toJson),
    ("perEntityOverrides", .arr (p.overrides.map EntityOverride.toJson))]

end DataPrivilege

namespace Role

def ofJson? (m : Json.Manner) (j : Json) : Option Role := do
  let r ← j.fields? m false ["id", "code", "name", "operationPermissions", "dataPrivileges"]
  return {
    id := ← (r "id").required (Json.readUuid? m)
    code := ← (r "code").required Json.readText?
    name := ← (r "name").orElse "" Json.readText?
    permissions := ← (r "operationPermissions").orElse [] (Json.readList? Json.readText?)
    privileges := ← (r "dataPrivileges").orElse [] (Json.readList? (DataPrivilege.ofJson? m)) }

def toJson (o : Role) : Json :=
  .object [("id", .ofUuid o.id), ("code", .str o.code), ("name", .str o.name),
    ("operationPermissions", .arr (o.permissions.map .str)),
    ("dataPrivileges", .arr (o.privileges.map DataPrivilege.toJson))]

end Role

namespace RoleAssignment

def ofJson? (m : Json.Manner) (j : Json) : Option RoleAssignment := do
  let r ← j.fields? m false ["userId", "roleId", "expiresAt"]
  return {
    user := ← (r "userId").required (Json.readUuid? m)
    role := ← (r "roleId").required (Json.readUuid? m)
    expiresAt := ← (r "expiresAt").orElse 0 Json.readSigned? }

def toJson (a : RoleAssignment) : Json :=
  .object [("userId", .ofUuid a.user), ("roleId", .ofUuid a.role), ("expiresAt", .int a.expiresAt)]

end RoleAssignment

end ScopedAccess
