import ScopedAccess.Json.Fields
import ScopedAccess.Privilege.Role
/-!
# Organizations and their index

A node of the organization tree has a path: the ids from the root down to the organization, each
followed by a slash, after a leading slash. It is computed when a tree is indexed, and a path read
from elsewhere is not trusted.

An index finds the organizations by id and by path. Building it computes every
path by climbing the parent links to a root; a link to an organization that is not
listed and a loop of links are errors. Of two organizations with one id the later
counts.

The organizations below another are those whose path starts with its path
(`OrgIndex.subtree`), and a range covers none, one or all of them
(`OrgIndex.expand`).
-/

namespace ScopedAccess

set_option autoImplicit false

/-! ## Organizations -/

/-- A node of the organization tree. -/
structure Organization where
  id : Uuid
  code : String
  name : String
  parent : Option Uuid
  path : String
  deriving DecidableEq

namespace Organization

/-- Whether a path starts with another that is not empty. -/
def pathWithin (path ancestor : String) : Bool :=
  !ancestor.isEmpty && ancestor.toList.isPrefixOf path.toList

/-- Whether an organization is the other or lies below it, by their paths. -/
def isWithin (o ancestor : Organization) : Bool := pathWithin o.path ancestor.path

def ofJson? (m : Json.Manner) (j : Json) : Option Organization := do
  let r ← j.fields? m false ["id", "code", "name", "parentId", "fullPath"]
  return {
    id := ← (r "id").required (Json.readUuid? m)
    code := ← (r "code").required Json.readText?
    name := ← (r "name").required Json.readText?
    parent := ← (r "parentId").optionalOrNone (Json.readUuid? m)
    path := ← (r "fullPath").orElse "" Json.readText? }

def toJson (o : Organization) : Json :=
  .object [("id", .ofUuid o.id), ("code", .str o.code), ("name", .str o.name),
    ("parentId", .ofOption .ofUuid o.parent), ("fullPath", .str o.path)]

end Organization

/-! ## The index -/

/-- Why an organization tree cannot be used. -/
inductive TreeError where
  | unknownOrganization (id : Uuid)
  | danglingParent (org parent : Uuid)
  | parentCycle (id : Uuid)
  deriving DecidableEq

def TreeError.message : TreeError → String
  | unknownOrganization id => "unknown organization " ++ id.text
  | danglingParent org parent =>
    "organization " ++ org.text ++ " references missing parent " ++ parent.text
  | parentCycle id => "organization " ++ id.text ++ " is part of a parent cycle"

/-- The parent of every listed organization, if it has one. -/
abbrev ParentLinks : Type := SortedMap Uuid (Option Uuid)

def ParentLinks.ofOrganizations (orgs : List Organization) : ParentLinks :=
  .ofList (orgs.map fun o => (o.id, o.parent))

/-- Follow the parent links from an organization. The chain of those visited, the
last one first, grows by one with every step and never holds one twice, so its
length stays within the number of links. -/
def ParentLinks.climb (links : ParentLinks) :
    Nat → Uuid → List Uuid → Except TreeError (List Uuid)
  | 0, current, _ => .error (.parentCycle current)
  | fuel + 1, current, below =>
    match (links.find? current).join with
    | none => .ok (current :: below)
    | some parent =>
      if !links.contains parent then .error (.danglingParent current parent)
      else if parent ∈ current :: below then .error (.parentCycle parent)
      else climb links fuel parent (current :: below)

/-- The organizations from the root down to the one given. -/
def ParentLinks.lineage (links : ParentLinks) (id : Uuid) : Except TreeError (List Uuid) :=
  links.climb (links.size + 1) id []

/-- The path of a lineage. -/
def pathOfLineage (ids : List Uuid) : String :=
  String.ofList ('/' :: ids.flatMap fun id => id.chars ++ ['/'])

/-- Organizations by id and by path. -/
structure OrgIndex where
  orgs : SortedMap Uuid Organization
  byPath : SortedMap String Uuid

namespace OrgIndex

def empty : OrgIndex := ⟨∅, ∅⟩

/-- Add an organization under its path. -/
def add (index : OrgIndex) (o : Organization) (path : String) : OrgIndex :=
  ⟨index.orgs.insert o.id { o with path }, index.byPath.insert path o.id⟩

/-- Build the index of a list of organizations. -/
def build (orgs : List Organization) : Except TreeError OrgIndex :=
  let links := ParentLinks.ofOrganizations orgs
  orgs.foldlM (fun index o => do
    let ids ← links.lineage o.id
    return index.add o (pathOfLineage ids)) empty

def find? (index : OrgIndex) (id : Uuid) : Option Organization := index.orgs.find? id

def size (index : OrgIndex) : Nat := index.orgs.size

/-- The organizations whose path starts with another, in the order of paths. Those paths stand
together, from the other path on. -/
def below (index : OrgIndex) (path : String) : List Uuid :=
  ((index.byPath.entriesFrom path).takeWhile fun e => path.toList.isPrefixOf e.1.toList).map
    Prod.snd

/-- An organization and all below it, in the order of paths. -/
def subtree (index : OrgIndex) (id : Uuid) : Except TreeError (List Uuid) :=
  match index.find? id with
  | some o => .ok (index.below o.path)
  | none => .error (.unknownOrganization id)

/-- The organizations that a range covers from an organization. -/
def expand (index : OrgIndex) (id : Uuid) (range : DataRange) :
    Except TreeError (SortedSet Uuid) :=
  match index.find? id with
  | none => .error (.unknownOrganization id)
  | some o =>
    match range with
    | .personal => .ok ∅
    | .current => .ok (.ofList [id])
    | .currentFollowing => .ok (.ofList (index.below o.path))

end OrgIndex

end ScopedAccess
