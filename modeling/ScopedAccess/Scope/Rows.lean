import ScopedAccess.Filter.Predicate
import ScopedAccess.Json.Fields
import ScopedAccess.Schema.Entity
/-!
# Access scopes and the rows they reach

The rows of one entity that a principal may reach: every row, or those reached by
one of some paths. A path is a set of organizations that own a row, or the
principal that does; no path at all reaches nothing.

A path looks at the stored field with its tag: organizations at `owner_org`, a principal at
`owner`. A path whose field the entity lacks reaches nothing, and a scope without any path left
reaches no row. Unrestricted entities are reached in full.

The same rule is given as a predicate on rows (`scopePredicate`) and as a test on a
record in memory (`recordInScope`). Identifiers are stored as canonical text; the
test on a record reads any of their written forms.
-/

namespace ScopedAccess

set_option autoImplicit false

/-! ## Access scopes -/

/-- One way in which a row is reached. -/
inductive AccessPath where
  /-- The row belongs to one of these organizations. -/
  | orgs (ids : SortedSet Uuid)
  /-- The row belongs to this principal. -/
  | owner (id : Uuid)
  deriving DecidableEq

/-- The rows of an entity that a principal may reach. -/
inductive AccessScope where
  | everything
  | paths (alternatives : List AccessPath)
  deriving DecidableEq

namespace AccessPath

/-- Whether a row is reached that holds an id where the path looks. -/
def admits : AccessPath → Uuid → Bool
  | orgs ids, id => decide (id ∈ ids)
  | owner o, id => decide (o = id)

def toJson : AccessPath → Json
  | orgs ids => .object [("orgs", .ofUuids ids)]
  | owner id => .object [("owner", .ofUuid id)]

end AccessPath

namespace AccessScope

def nothing : AccessScope := .paths []

/-- Rows of some organizations or of an owner. Without organizations only the
ownership path is left. -/
def orgsOrOwner (orgs : SortedSet Uuid) (owner : Uuid) : AccessScope :=
  .paths ((if orgs.isEmpty then [] else [.orgs orgs]) ++ [.owner owner])

/-- The paths of a scope that has to choose between rows. -/
def alternatives : AccessScope → List AccessPath
  | everything => []
  | paths ps => ps

def isEverything : AccessScope → Bool
  | everything => true
  | paths _ => false

def isNothing : AccessScope → Bool
  | paths [] => true
  | _ => false

/-- The organizations of the first path that has some. -/
def orgs? (s : AccessScope) : Option (SortedSet Uuid) :=
  s.alternatives.findSome? fun
    | .orgs ids => some ids
    | .owner _ => none

/-- The principal of the first path that has one. -/
def owner? (s : AccessScope) : Option Uuid :=
  s.alternatives.findSome? fun
    | .owner id => some id
    | .orgs _ => none

/-- What is known of a scope: its paths, and the first of each kind. -/
def toJson (s : AccessScope) : Json :=
  .object [("unconstrained", .bool s.isEverything), ("deny_all", .bool s.isNothing),
    ("orgs", .ofOption .ofUuids s.orgs?), ("owner", .ofOption .ofUuid s.owner?),
    ("paths", .arr (s.alternatives.map AccessPath.toJson))]

end AccessScope

/-! ## Rows of an entity -/

/-- The stored field that holds the organization of a row. -/
def Entity.ownerOrgField? (e : Entity) : Option Field := e.storedTagged? .ownerOrg

/-- The stored field that holds the principal a row belongs to. -/
def Entity.ownerField? (e : Entity) : Option Field := e.storedTagged? .owner

/-- The field that a path looks at. -/
def AccessPath.field? (e : Entity) : AccessPath → Option Field
  | .orgs _ => e.ownerOrgField?
  | .owner _ => e.ownerField?

/-- The test of a path on a column. -/
def AccessPath.test (column : Column) : AccessPath → Predicate
  | .orgs ids =>
    if ids.isEmpty then .const false else .among column (ids.toList.map Json.ofUuid) false
  | .owner id => .compare column .eq (.ofUuid id)

/-- The predicate of a path on the table of an alias, if the entity has its field. -/
def AccessPath.predicate? (e : Entity) (label : String) (path : AccessPath) : Option Predicate :=
  (path.field? e).map fun f => path.test ⟨label, f.column⟩

/-- The predicate of the rows that a scope reaches, on the table of an alias. -/
def scopePredicate (e : Entity) (scope : AccessScope) (label : String) : Predicate :=
  if e.unrestricted || scope.isEverything then .const true
  else
    match scope.alternatives.filterMap (·.predicate? e label) with
    | [] => .const false
    | ps => .disj ps

/-- Whether a path reaches a record. -/
def AccessPath.reaches (e : Entity) (r : Record) (path : AccessPath) : Bool :=
  ((path.field? e).bind fun f => r.uuid? f.name).any path.admits

/-- Whether a scope reaches a record. -/
def recordInScope (e : Entity) (scope : AccessScope) (r : Record) : Bool :=
  e.unrestricted || scope.isEverything || scope.alternatives.any (·.reaches e r)

end ScopedAccess
