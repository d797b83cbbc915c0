import ScopedAccess.Filter.Operators
import ScopedAccess.Filter.Compiled
import ScopedAccess.Json.Text
import ScopedAccess.Schema.Entity
import ScopedAccess.Basic
/-!
# Compiling filters

A filter is an object whose members all have to hold: `$and` and `$or` combine
objects, a field of the entity is tested by its value, and an object given to a
relation is a filter on the related rows, compiled to a subquery. Members with
unknown names mean nothing. Every subquery gets an alias of its own, the table's
name and a running number, so a column is never mistaken for one of an enclosing
query.

* `$and` is flattened into the object that holds it;
* an `$or` becomes one disjunction, kept apart; one with a branch that always holds
  is dropped;
* objects may nest up to a limit.

`compile` and `compileText` fail on a filter that is no object and on one that
nests too deep, `compileText` on malformed text as well.
-/

namespace ScopedAccess

set_option autoImplicit false

/-- Why a filter cannot be compiled. -/
inductive CompileError where
  | notAnObject
  | tooDeep (limit : Nat)
  | malformed
  /-- Refused for a reason given elsewhere. -/
  | refused (reason : String)
  deriving DecidableEq

namespace CompileError

def reason : CompileError → String
  | notAnObject => "filter must be a JSON object"
  | tooDeep limit => s!"filter nesting exceeds {limit} levels"
  | malformed => "malformed JSON"
  | refused reason => reason

def message (e : CompileError) : String := "filter compilation failed: " ++ e.reason

end CompileError

/-- Whether an object given to a relation holds operators for its key, not a filter
on related rows. -/
def holdsOperators (members : List (String × Json)) : Bool :=
  !members.isEmpty &&
    members.all fun m => "$".toList.isPrefixOf m.1.toList && m.1 != "$and" && m.1 != "$or"

/-- What an object of a filter is about: an entity, the alias of its table and how
deep the object is nested. -/
structure Level where
  entity : Entity
  label : String
  depth : Nat

/-- What compilation may use throughout: all entities and the limit on nesting. -/
structure CompileContext where
  registry : Registry
  maxDepth : Nat

/-- A relation whose keys are known on both sides. -/
structure ResolvedRelation where
  target : Entity
  /-- The column of the relation's local key. -/
  column : Column
  foreignColumn : String
  relation : Relation

/-- The relation of a field, with its target and keys looked up. -/
def resolveRelation? (registry : Registry) (level : Level) (relation : Relation) :
    Option ResolvedRelation := do
  let target ← registry.find? relation.target
  let localColumn ← level.entity.column? relation.localKey
  let foreignColumn ← target.column? relation.foreignKey
  return ⟨target, ⟨level.label, localColumn⟩, foreignColumn, relation⟩

/-- What a field of an entity is to a filter. -/
inductive FieldRole where
  | unknown
  | stored (column : Column)
  | relation (resolved : ResolvedRelation)

/-- Look up the field that a member of a filter names. -/
def fieldRole (registry : Registry) (level : Level) (name : String) : FieldRole :=
  match level.entity.field? name with
  | none => .unknown
  | some field =>
    match field.relation with
    | none => .stored ⟨level.label, field.column⟩
    | some relation =>
      match resolveRelation? registry level relation with
      | some resolved => .relation resolved
      | none => .unknown

/-- What a member of a filter is. -/
inductive MemberRole where
  | conjunction
  | disjunction
  | ignored
  | field (role : FieldRole)

def memberRole (registry : Registry) (level : Level) (key : String) : MemberRole :=
  if key = "$and" then .conjunction
  else if key = "$or" then .disjunction
  else if "$".toList.isPrefixOf key.toList then .ignored
  else .field (fieldRole registry level key)

/-- The aliases that a filter on related rows needs: of the join table, if there is
one, and of the target. Subqueries are numbered from one. -/
structure RelationAliases where
  join : Option (JoinTable × String)
  target : String
  /-- How many subqueries there are so far. -/
  count : Nat

/-- Name the subqueries of a relation; none for a many-to-many relation without a
join table. -/
def ResolvedRelation.aliases? (r : ResolvedRelation) (count : Nat) : Option RelationAliases :=
  let numbered (table : String) (n : Nat) := table ++ "_" ++ toString n
  match r.relation.kind, r.relation.join with
  | .manyToMany, some join =>
    some ⟨some (join, numbered join.table (count + 1)), numbered r.target.table (count + 2),
      count + 2⟩
  | .manyToMany, none => none
  | .ownedReference, _ | .oneToMany, _ =>
    some ⟨none, numbered r.target.table (count + 1), count + 1⟩

/-- The subquery for related rows that pass a filter. -/
def ResolvedRelation.subquery (r : ResolvedRelation) (aliases : RelationAliases)
    (filter : Predicate) : Predicate :=
  let target : Selection := ⟨r.target.table, aliases.target, r.foreignColumn⟩
  match aliases.join with
  | none => .subquery r.column target filter
  | some (join, label) =>
    .subquery r.column ⟨join.table, label, join.sourceKey⟩
      (.subquery ⟨label, join.targetKey⟩ target filter)

/-- The disjunction of the branches of an `$or`: none if there is no branch or one
that always holds. -/
def orGroup (branches : List CompiledFilter) : List Predicate :=
  let ps := branches.map CompiledFilter.predicate
  if ps.isEmpty || ps.any Predicate.isTrivial then [] else [.disj ps]

/-- A whole object: bounds on one column become ranges. -/
def CompiledFilter.merged (f : CompiledFilter) : CompiledFilter :=
  { f with fragments := mergeBounds f.fragments }

/-- Refuse an object that is nested too deep. -/
def CompileContext.checkDepth (cx : CompileContext) (depth : Nat) : Except CompileError Unit :=
  if cx.maxDepth < depth then .error (.tooDeep cx.maxDepth) else .ok ()

mutual

/-- Compile a member of an object, named by its role. The count of subqueries is
threaded through. -/
def compileMember (cx : CompileContext) (level : Level) (count : Nat) :
    MemberRole → Json → Except CompileError (CompiledFilter × Nat)
  | .conjunction, .arr items => do
    let (filters, count) ← compileItems cx { level with depth := level.depth + 1 } count items
    return (filters.foldl (· ++ ·) ∅, count)
  | .disjunction, .arr items => do
    let (filters, count) ← compileItems cx { level with depth := level.depth + 1 } count items
    return (⟨[], orGroup filters⟩, count)
  | .field (.stored column), value => return (⟨Predicate.ofValue column value, []⟩, count)
  | .field (.relation r), .obj members =>
    if holdsOperators members then
      if r.relation.kind = .ownedReference then
        return (⟨Predicate.ofOperators r.column members, []⟩, count)
      else return (∅, count)
    else
      match r.aliases? count with
      | none => return (∅, count)
      | some aliases => do
        let inner : Level := ⟨r.target, aliases.target, level.depth + 1⟩
        cx.checkDepth inner.depth
        let (filter, count) ← compileMembers cx inner aliases.count members
        return (⟨[r.subquery aliases filter.merged.predicate], []⟩, count)
  | .field (.relation r), value =>
    if r.relation.kind = .ownedReference then return (⟨Predicate.ofValue r.column value, []⟩, count)
    else return (∅, count)
  | _, _ => return (∅, count)

/-- Compile the members of an object in order. -/
def compileMembers (cx : CompileContext) (level : Level) (count : Nat) :
    List (String × Json) → Except CompileError (CompiledFilter × Nat)
  | [] => return (∅, count)
  | (key, value) :: rest => do
    let (first, count) ← compileMember cx level count (memberRole cx.registry level key) value
    let (others, count) ← compileMembers cx level count rest
    return (first ++ others, count)

/-- Compile the objects of an array in order; other items mean nothing. -/
def compileItems (cx : CompileContext) (level : Level) (count : Nat) :
    List Json → Except CompileError (List CompiledFilter × Nat)
  | [] => return ([], count)
  | .obj members :: rest => do
    cx.checkDepth level.depth
    let (filter, count) ← compileMembers cx level count members
    let (filters, count) ← compileItems cx level count rest
    return (filter.merged :: filters, count)
  | _ :: rest => compileItems cx level count rest

end

/-- The limit on nesting unless another is given. -/
def defaultMaxDepth : Nat := 8

/-- Compile a filter on an entity. Null is the filter without conditions. -/
def compile (registry : Registry) (maxDepth : Nat) (e : Entity) :
    Json → Except CompileError CompiledFilter
  | .obj members =>
    (compileMembers ⟨registry, maxDepth⟩ ⟨e, e.table, 0⟩ 0 members).map fun r => r.1.merged
  | .null => .ok ∅
  | _ => .error .notAnObject

/-- Read and compile a filter. Blank text is the filter without conditions. -/
def compileText (registry : Registry) (maxDepth : Nat) (e : Entity) (s : String) :
    Except CompileError CompiledFilter :=
  if isBlankText s then .ok ∅
  else
    match Json.parse? s with
    | some filter => compile registry maxDepth e filter
    | none => .error .malformed

end ScopedAccess
