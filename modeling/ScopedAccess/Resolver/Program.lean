import ScopedAccess.Organization.Index
import ScopedAccess.Privilege.Role
/-!
# Programs over a source and a cache

The organizations, roles and assignments that privileges are resolved from are the data of a source
(`SourceData`).

Resolution reads a source and reads and writes a cache, one call at a time. A
`Program` is the tree of these calls with what is done with each answer, so that it
can be run against any source and cache, or interleaved with others call by call.

`ResolveError` says why privileges could not be resolved, `PrivilegeError` what
callers are told: everything that is wrong with the organization tree or the source
is a failed resolution to them. A source answers with a `PrivilegeError` of its own,
which becomes a cause again (`PrivilegeError.cause`).
-/

namespace ScopedAccess

set_option autoImplicit false

/-! ## Sources and settings -/

/-- Organizations, roles and assignments. -/
structure SourceData where
  organizations : List Organization
  roles : List Role
  assignments : List RoleAssignment
  deriving DecidableEq

namespace SourceData

def empty : SourceData := ⟨[], [], []⟩

instance : Inhabited SourceData := ⟨empty⟩

/-- All assignments of a user, expired ones included. -/
def assignmentsOf (s : SourceData) (user : Uuid) : List RoleAssignment :=
  s.assignments.filter fun a => a.user = user

/-- The roles with some of these ids; unknown ids are skipped. -/
def rolesOf (s : SourceData) (ids : List Uuid) : List Role :=
  s.roles.filter fun r => decide (r.id ∈ ids)

def ofJson? (m : Json.Manner) (j : Json) : Option SourceData := do
  let r ← j.fields? m true ["organizations", "roles", "assignments"]
  return {
    organizations := ← (r "organizations").orElse [] (Json.readList? (Organization.ofJson? m))
    roles := ← (r "roles").orElse [] (Json.readList? (Role.ofJson? m))
    assignments := ← (r "assignments").orElse [] (Json.readList? (RoleAssignment.ofJson? m)) }

def toJson (s : SourceData) : Json :=
  .object [("organizations", .arr (s.organizations.map Organization.toJson)),
    ("roles", .arr (s.roles.map Role.toJson)),
    ("assignments", .arr (s.assignments.map RoleAssignment.toJson))]

end SourceData

/-- The settings of a resolver. -/
structure ResolverConfig where
  /-- The principal that bypasses every check. -/
  rootUser : Uuid
  cacheEnabled : Bool
  deriving DecidableEq

namespace ResolverConfig

def default : ResolverConfig := ⟨.ofNat 1, true⟩

instance : Inhabited ResolverConfig := ⟨default⟩

def ofJson? (m : Json.Manner) (j : Json) : Option ResolverConfig := do
  let r ← j.fields? m true ["root_user_id", "cache_enabled"]
  return {
    rootUser := ← (r "root_user_id").orElse default.rootUser (Json.readUuid? m)
    cacheEnabled := ← (r "cache_enabled").orElse default.cacheEnabled Json.readBool? }

def toJson (c : ResolverConfig) : Json :=
  .object [("root_user_id", .ofUuid c.rootUser), ("cache_enabled", .bool c.cacheEnabled)]

end ResolverConfig

/-! ## Errors of resolution -/

/-- Why privileges could not be resolved. -/
inductive ResolveError where
  | noAssignments (user : Uuid)
  | tree (e : TreeError)
  | source (message : String)
  | internal (message : String)
  deriving DecidableEq

/-- What callers are told. -/
inductive PrivilegeError where
  | unauthorized (user : Uuid)
  | resolutionFailed (message : String)
  | internal (message : String)
  deriving DecidableEq

def unassignedMessage (user : Uuid) : String :=
  "principal " ++ user.text ++ " has no valid role assignment"

def ResolveError.message : ResolveError → String
  | noAssignments user => unassignedMessage user
  | tree e => e.message
  | source m => "privilege source failed: " ++ m
  | internal m => "internal error: " ++ m

def PrivilegeError.message : PrivilegeError → String
  | unauthorized user => unassignedMessage user
  | resolutionFailed m => "privilege resolution failed: " ++ m
  | internal m => "internal error: " ++ m

/-- What callers are told of a cause. -/
def ResolveError.told : ResolveError → PrivilegeError
  | noAssignments user => .unauthorized user
  | internal m => .internal m
  | tree e => .resolutionFailed e.message
  | source m => .resolutionFailed (ResolveError.source m).message

/-- The cause that the error of a source is. -/
def PrivilegeError.cause : PrivilegeError → ResolveError
  | unauthorized user => .noAssignments user
  | resolutionFailed m => .source m
  | internal m => .internal m

/-! ## Calls and programs -/

/-- A single call to the source or the cache. -/
inductive Call where
  | assignments (user : Uuid)
  | roles (ids : List Uuid)
  | organizations
  | cacheGet (key : String)
  | cacheSet (key value : String)
  | cacheDelete (key : String)
  /-- Delete all keys with this start. -/
  | cacheDeleteAll (start : String)

namespace Call

/-- What a successful call answers. -/
def Result : Call → Type
  | assignments _ => List RoleAssignment
  | roles _ => List Role
  | organizations => List Organization
  | cacheGet _ => Option String
  | cacheSet _ _ => Unit
  | cacheDelete _ => Unit
  | cacheDeleteAll _ => Unit

/-- What a call answers. -/
abbrev Answer (c : Call) : Type := Except ResolveError c.Result

end Call

/-- Calls, each followed by what is done with its answer, up to a result. -/
inductive Program (α : Type) where
  | done (result : α)
  | ask (call : Call) (next : call.Answer → Program α)

namespace Program

variable {α β : Type}

/-- Go on with the result of a program. -/
def bind : Program α → (α → Program β) → Program β
  | done result, f => f result
  | ask call next, f => ask call fun answer => (next answer).bind f

instance : Monad Program where
  pure := done
  bind := bind

end Program

/-- Programs that may fail. -/
abbrev Attempt : Type → Type := ExceptT ResolveError Program

/-- Make a call; its failure is the program's. -/
def Call.ask (c : Call) : Attempt c.Result := ExceptT.mk (.ask c .done)

end ScopedAccess
