import ScopedAccess.Json.Fields
/-!
# Entity descriptors

How an entity is declared: its fields with their storage names, tags and relations.
Descriptors are written by hand (`EntityDescriptor.withField` and friends) or read
from configuration, and are checked when they are indexed.
-/

namespace ScopedAccess

set_option autoImplicit false

/-- How the rows of two entities are linked. -/
inductive RelationKind where
  /-- The local key holds the foreign key of one target row. -/
  | ownedReference
  /-- The foreign key of target rows holds the local key. -/
  | oneToMany
  /-- Rows are linked through a join table. -/
  | manyToMany
  deriving DecidableEq

/-- The join table of a many-to-many relation. -/
structure JoinTable where
  table : String
  /-- The column that holds the local key. -/
  sourceKey : String
  /-- The column that holds the target's foreign key. -/
  targetKey : String
  deriving DecidableEq

/-- A relation to a target entity. The local key names a field of the entity that
declares the relation, the foreign key one of the target. -/
structure Relation where
  kind : RelationKind
  target : String
  localKey : String
  foreignKey : String
  join : Option JoinTable
  deriving DecidableEq

/-- What a field means to the engine. -/
inductive FieldTag where
  | primaryKey
  /-- Holds the id of the organization that owns the row. -/
  | ownerOrg
  /-- Holds the id of the principal that owns the row. -/
  | owner
  /-- Holds the id of the principal that changed the row last. -/
  | lastModifier
  /-- Left out of query results. -/
  | secret
  /-- Holds the time of deletion; a row with a value counts as deleted. -/
  | softDelete
  deriving DecidableEq

structure FieldDescriptor where
  name : String
  /-- The storage column, if it is not named as the field. -/
  storage : Option String
  tags : List FieldTag
  relation : Option Relation
  deriving DecidableEq

structure EntityDescriptor where
  name : String
  /-- The storage table, if it is not named as the entity. -/
  table : Option String
  /-- Rows of an unrestricted entity are never scoped. -/
  unrestricted : Bool
  fields : List FieldDescriptor
  deriving DecidableEq

namespace RelationKind

def words : List (String × RelationKind) :=
  [("owned_reference", ownedReference), ("one_to_many", oneToMany), ("many_to_many", manyToMany)]

def word : RelationKind → String
  | ownedReference => "owned_reference"
  | oneToMany => "one_to_many"
  | manyToMany => "many_to_many"

end RelationKind

namespace JoinTable

def ofJson? (m : Json.Manner) (j : Json) : Option JoinTable := do
  let r ← j.fields? m true ["table", "source_key", "target_key"]
  return {
    table := ← (r "table").required Json.readText?
    sourceKey := ← (r "source_key").required Json.readText?
    targetKey := ← (r "target_key").required Json.readText? }

def toJson (t : JoinTable) : Json :=
  .object [("table", .str t.table), ("source_key", .str t.sourceKey),
    ("target_key", .str t.targetKey)]

end JoinTable

namespace Relation

/-- The field that a relation joins on unless told otherwise. -/
def defaultKey : String := "id"

/-- The local key holds the id of the target row. -/
def ownedReference (target localKey : String) : Relation :=
  ⟨.ownedReference, target, localKey, defaultKey, none⟩

/-- The foreign key of target rows holds this entity's id. -/
def oneToMany (target foreignKey : String) : Relation :=
  ⟨.oneToMany, target, defaultKey, foreignKey, none⟩

def manyToMany (target table sourceKey targetKey : String) : Relation :=
  ⟨.manyToMany, target, defaultKey, defaultKey, some ⟨table, sourceKey, targetKey⟩⟩

def ofJson? (m : Json.Manner) (j : Json) : Option Relation := do
  let r ← j.fields? m true ["kind", "target", "local_key", "foreign_key", "join"]
  return {
    kind := ← (r "kind").required (Json.readWord? RelationKind.words m)
    target := ← (r "target").required Json.readText?
    localKey := ← (r "local_key").orElse defaultKey Json.readText?
    foreignKey := ← (r "foreign_key").orElse defaultKey Json.readText?
    join := ← (r "join").optionalOrNone (JoinTable.ofJson? m) }

def toJson (r : Relation) : Json :=
  .object [("kind", .str r.kind.word), ("target", .str r.target), ("local_key", .str r.localKey),
    ("foreign_key", .str r.foreignKey), ("join", .ofOption JoinTable.toJson r.join)]

end Relation

namespace FieldTag

/-- Whether at most one field of an entity may carry the tag. -/
def isSingular : FieldTag → Bool
  | secret => false
  | _ => true

def all : List FieldTag := [primaryKey, ownerOrg, owner, lastModifier, secret, softDelete]

def word : FieldTag → String
  | primaryKey => "primary_key"
  | ownerOrg => "owner_org"
  | owner => "owner"
  | lastModifier => "last_modifier"
  | secret => "secret"
  | softDelete => "soft_delete"

def words : List (String × FieldTag) := all.map fun t => (t.word, t)

/-- The name of a tag in messages. -/
def title : FieldTag → String
  | primaryKey => "PrimaryKey"
  | ownerOrg => "OwnerOrg"
  | owner => "Owner"
  | lastModifier => "LastModifier"
  | secret => "Secret"
  | softDelete => "SoftDelete"

end FieldTag

namespace FieldDescriptor

/-- A stored field without tags, in a column of its own name. -/
def named (name : String) : FieldDescriptor := ⟨name, none, [], none⟩

def withStorage (f : FieldDescriptor) (column : String) : FieldDescriptor :=
  { f with storage := some column }

/-- Attach a tag, once. -/
def withTag (f : FieldDescriptor) (tag : FieldTag) : FieldDescriptor :=
  if tag ∈ f.tags then f else { f with tags := f.tags ++ [tag] }

def withRelation (f : FieldDescriptor) (r : Relation) : FieldDescriptor :=
  { f with relation := some r }

def ofJson? (m : Json.Manner) (j : Json) : Option FieldDescriptor := do
  let r ← j.fields? m true ["name", "storage_name", "tags", "relation"]
  return {
    name := ← (r "name").required Json.readText?
    storage := ← (r "storage_name").optionalOrNone Json.readText?
    tags := ← (r "tags").orElse [] (Json.readList? (Json.readWord? FieldTag.words m))
    relation := ← (r "relation").optionalOrNone (Relation.ofJson? m) }

def toJson (f : FieldDescriptor) : Json :=
  .object [("name", .str f.name), ("storage_name", .ofOption .str f.storage),
    ("tags", .arr (f.tags.map fun t => .str t.word)),
    ("relation", .ofOption Relation.toJson f.relation)]

end FieldDescriptor

namespace EntityDescriptor

/-- A restricted entity without fields, in a table of its own name. -/
def named (name : String) : EntityDescriptor := ⟨name, none, false, []⟩

def withTable (d : EntityDescriptor) (table : String) : EntityDescriptor :=
  { d with table := some table }

def withoutRestriction (d : EntityDescriptor) : EntityDescriptor := { d with unrestricted := true }

def withField (d : EntityDescriptor) (f : FieldDescriptor) : EntityDescriptor :=
  { d with fields := d.fields ++ [f] }

def tableName (d : EntityDescriptor) : String := d.table.getD d.name

def ofJson? (m : Json.Manner) (j : Json) : Option EntityDescriptor := do
  let r ← j.fields? m true ["name", "table", "unrestricted", "fields"]
  return {
    name := ← (r "name").required Json.readText?
    table := ← (r "table").optionalOrNone Json.readText?
    unrestricted := ← (r "unrestricted").orElse false Json.readBool?
    fields := ← (r "fields").orElse [] (Json.readList? (FieldDescriptor.ofJson? m)) }

def toJson (d : EntityDescriptor) : Json :=
  .object [("name", .str d.name), ("table", .ofOption .str d.table),
    ("unrestricted", .bool d.unrestricted), ("fields", .arr (d.fields.map FieldDescriptor.toJson))]

end EntityDescriptor

end ScopedAccess
