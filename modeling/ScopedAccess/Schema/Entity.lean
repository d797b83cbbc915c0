import ScopedAccess.Json.Fields
import ScopedAccess.Schema.Descriptor
/-!
# Entities, their records and their registry

A descriptor that has been checked. No two fields of an entity have one name, no
singular tag occurs twice and some field is the primary key; an `Entity` carries
these facts, so looking up a field or a tag has one answer at most.

`Entity.ofDescriptor` reports the first fault, going through the fields in order
and looking at a field's name before its tags.

A `Record` has the values of a row by field name: what clients send and what they are shown.

A `Registry` has all known entities by name. `Registry.validate` checks what one entity alone
cannot show: that the target of every relation exists, that its keys name stored fields on
their sides and that a many-to-many relation has a join table. Faults are found in
the order of entity names, then of fields.
-/

namespace ScopedAccess

set_option autoImplicit false

/-! ## Fields and entities -/

/-- What is wrong with a schema. -/
inductive SchemaError where
  | duplicateEntity (entity : String)
  | duplicateField (entity field : String)
  | duplicateTag (entity : String) (tag : FieldTag)
  | missingPrimaryKey (entity : String)
  | unknownTarget (entity field target : String)
  | unknownKey (entity field key : String)
  | missingJoinTable (entity field : String)
  deriving DecidableEq

def SchemaError.message : SchemaError → String
  | duplicateEntity e => s!"entity '{e}' is already registered"
  | duplicateField e f => s!"entity '{e}' declares field '{f}' more than once"
  | duplicateTag e t => s!"entity '{e}' tags more than one field as {t.title}"
  | missingPrimaryKey e => s!"entity '{e}' has no primary key field"
  | unknownTarget e f t => s!"field '{e}.{f}' references unknown entity '{t}'"
  | unknownKey e f k => s!"relation '{e}.{f}' uses unknown key '{k}'"
  | missingJoinTable e f => s!"many-to-many relation '{e}.{f}' has no join table"

/-- A field of an entity. -/
structure Field where
  name : String
  /-- The storage column. -/
  column : String
  tags : List FieldTag
  relation : Option Relation
  deriving DecidableEq

namespace Field

def hasTag (f : Field) (tag : FieldTag) : Bool := decide (tag ∈ f.tags)

/-- A field has a column unless it is a relation. -/
def isStored (f : Field) : Bool := f.relation.isNone

def isSecret (f : Field) : Bool := f.hasTag .secret

def singularTags (f : Field) : List FieldTag := f.tags.filter FieldTag.isSingular

def ofDescriptor (d : FieldDescriptor) : Field :=
  ⟨d.name, d.storage.getD d.name, d.tags, d.relation⟩

end Field

/-- The facts that make the fields of an entity usable. -/
structure WellTagged (fields : List Field) : Prop where
  names_nodup : (fields.map Field.name).Nodup
  tags_nodup : (fields.flatMap Field.singularTags).Nodup
  keyed : (fields.find? (·.hasTag .primaryKey)).isSome

/-- A checked description of an entity. -/
structure Entity where
  name : String
  table : String
  unrestricted : Bool
  fields : List Field
  wellTagged : WellTagged fields

namespace Entity

/-- The first tag of a list that has been seen, or that the list repeats. -/
def repeatedTag? : List FieldTag → List FieldTag → Option FieldTag
  | _, [] => none
  | seen, t :: rest => if t ∈ seen then some t else repeatedTag? (seen ++ [t]) rest

/-- The first repeated name or tag of fields, given those seen before. -/
def firstRepeat? (entity : String) :
    List String → List FieldTag → List Field → Option SchemaError
  | _, _, [] => none
  | names, tags, f :: rest =>
    if f.name ∈ names then some (.duplicateField entity f.name)
    else
      match repeatedTag? tags f.singularTags with
      | some t => some (.duplicateTag entity t)
      | none => firstRepeat? entity (names ++ [f.name]) (tags ++ f.singularTags) rest

theorem repeatedTag?_eq_none_iff {seen ts : List FieldTag} (h : seen.Nodup) :
    repeatedTag? seen ts = none ↔ (seen ++ ts).Nodup := by
  induction ts generalizing seen with
  | nil => simpa [repeatedTag?] using h
  | cons t rest ih =>
    rw [repeatedTag?]
    split
    · rename_i ht
      simp only [reduceCtorEq, false_iff, List.nodup_append, not_and]
      exact fun _ _ hd => hd t ht t List.mem_cons_self rfl
    · rename_i ht
      have hn : (seen ++ [t]).Nodup := by
        simp only [List.nodup_append, List.mem_singleton]
        exact ⟨h, by simp, fun a ha b hb hab => ht (hb ▸ hab ▸ ha)⟩
      rw [ih hn, List.append_assoc, List.singleton_append]

theorem firstRepeat?_eq_none_iff {entity : String} {names : List String} {tags : List FieldTag}
    {fields : List Field} (hn : names.Nodup) (ht : tags.Nodup) :
    firstRepeat? entity names tags fields = none ↔
      (names ++ fields.map Field.name).Nodup ∧
        (tags ++ fields.flatMap Field.singularTags).Nodup := by
  induction fields generalizing names tags with
  | nil => simp [firstRepeat?, hn, ht]
  | cons f rest ih =>
    rw [firstRepeat?]
    split
    · rename_i hf
      simp only [reduceCtorEq, false_iff, not_and]
      intro h
      simp only [List.map_cons, List.nodup_append] at h
      exact absurd rfl (h.2.2 f.name hf f.name List.mem_cons_self)
    · rename_i hf
      have hn' : (names ++ [f.name]).Nodup := by
        simp only [List.nodup_append, List.mem_singleton]
        exact ⟨hn, by simp, fun a ha b hb hab => hf (hb ▸ hab ▸ ha)⟩
      split
      · rename_i t hr
        simp only [reduceCtorEq, false_iff, not_and]
        intro _ h
        have : repeatedTag? tags f.singularTags = none := by
          rw [repeatedTag?_eq_none_iff ht]
          rw [List.flatMap_cons, ← List.append_assoc] at h
          exact (List.nodup_append.mp h).1
        simp [this] at hr
      · rename_i hr
        rw [repeatedTag?_eq_none_iff ht] at hr
        rw [ih hn' hr]
        simp

/-- Check a descriptor. -/
def ofDescriptor (d : EntityDescriptor) : Except SchemaError Entity :=
  let fields := d.fields.map Field.ofDescriptor
  match h : firstRepeat? d.name [] [] fields with
  | some e => .error e
  | none =>
    if hk : (fields.find? (·.hasTag .primaryKey)).isSome then
      have hn := (firstRepeat?_eq_none_iff .nil .nil).mp h
      .ok ⟨d.name, d.tableName, d.unrestricted, fields, ⟨hn.1, hn.2, hk⟩⟩
    else .error (.missingPrimaryKey d.name)

def field? (e : Entity) (name : String) : Option Field := e.fields.find? (·.name = name)

/-- The field that carries a singular tag. -/
def tagged? (e : Entity) (tag : FieldTag) : Option Field :=
  if tag.isSingular then e.fields.find? (·.hasTag tag) else none

def primaryKey (e : Entity) : Field :=
  (e.fields.find? (·.hasTag .primaryKey)).get e.wellTagged.keyed

def storedFields (e : Entity) : List Field := e.fields.filter Field.isStored

def secretFields (e : Entity) : List Field := e.fields.filter Field.isSecret

/-- The storage column of a stored field. -/
def column? (e : Entity) (name : String) : Option String :=
  ((e.field? name).filter Field.isStored).map Field.column

/-- The stored field that carries a singular tag. -/
def storedTagged? (e : Entity) (tag : FieldTag) : Option Field :=
  (e.tagged? tag).filter Field.isStored

end Entity

/-! ## Records -/

/-- Values by field name. -/
abbrev Record : Type := SortedMap String Json

namespace Record

/-- The record of an object's members; of two with one key the last counts. -/
def ofJson? : Json → Option Record
  | .obj members => some (.ofList members)
  | _ => none

def toJson (r : Record) : Json := .obj r.entries

/-- The identifier that a field holds as text, in any of its written forms. -/
def uuid? (r : Record) (field : String) : Option Uuid :=
  ((r.find? field).bind Json.text?).bind Uuid.ofText?

end Record

/-! ## The registry -/

/-- Entities by name. -/
structure Registry where
  entities : SortedMap String Entity

namespace Registry

def empty : Registry := ⟨∅⟩

instance : EmptyCollection Registry := ⟨empty⟩

def find? (r : Registry) (name : String) : Option Entity := r.entities.find? name

def names (r : Registry) : List String := r.entities.keys

def size (r : Registry) : Nat := r.entities.size

/-- Check a descriptor and add its entity under a new name. -/
def register (r : Registry) (d : EntityDescriptor) : Except SchemaError (Entity × Registry) := do
  if r.entities.contains d.name then throw (.duplicateEntity d.name)
  let e ← Entity.ofDescriptor d
  return (e, ⟨r.entities.insert e.name e⟩)

/-- What is wrong with a relation field. -/
def relationFault? (r : Registry) (e : Entity) (f : Field) (rel : Relation) : Option SchemaError :=
  match r.find? rel.target with
  | none => some (.unknownTarget e.name f.name rel.target)
  | some target =>
    if (e.column? rel.localKey).isNone then some (.unknownKey e.name f.name rel.localKey)
    else if (target.column? rel.foreignKey).isNone then
      some (.unknownKey e.name f.name rel.foreignKey)
    else if rel.kind = .manyToMany ∧ rel.join = none then some (.missingJoinTable e.name f.name)
    else none

def fieldFault? (r : Registry) (e : Entity) (f : Field) : Option SchemaError :=
  f.relation.bind (r.relationFault? e f)

/-- The first fault of a relation. -/
def fault? (r : Registry) : Option SchemaError :=
  r.entities.values.findSome? fun e => e.fields.findSome? (r.fieldFault? e)

/-- Check the relations of all entities. -/
def validate (r : Registry) : Except SchemaError Unit :=
  match r.fault? with
  | some e => .error e
  | none => .ok ()

end Registry

end ScopedAccess
