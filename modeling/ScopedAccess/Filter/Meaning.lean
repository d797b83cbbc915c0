import ScopedAccess.Filter.Operators
import ScopedAccess.Schema.Entity
import ScopedAccess.Sql.Database
/-!
# What filters mean

A filter read as it is written, row by row. An object holds of a row if all its
members do. `$and` needs all of its objects and `$or` one of them, if there is any; a
stored field is tested by its value; an object given to a relation needs a related
row that it holds of in turn. Whatever has no meaning asks for nothing.

`Filter.holds` is the reading that compiled filters are measured by, and
`Filter.depth` the nesting that the limit is about. `Predicate.evaluate` is a reading of
predicates that does not lower them to conditions.
-/

namespace ScopedAccess

set_option autoImplicit false

/-! ## The truth of predicates

Values are compared as they would be stored, a subquery looks for its column among the rows of
its table that pass the filter, and conjunctions and disjunctions are those of three truth
values. A row passes where the value is true. -/

namespace Predicate

mutual

/-- The truth value of a predicate on the rows in view. -/
def evaluate (db : Database) (view : List BoundRow) : Predicate → Truth
  | .compare c op value => (Database.valueOf view c).test op (.ofJson value)
  | .among c values negated =>
    ((Database.valueOf view c).isAmong (values.map .ofJson)).negateIf negated
  | .null c negated => .ofBool ((Database.valueOf view c = .null) != negated)
  | .like c pattern => (Database.valueOf view c).matchesPattern pattern
  | .between c lower upper =>
    let d := Database.valueOf view c
    (d.test lower.lowerComparison (.ofJson lower.value)).and
      (d.test upper.upperComparison (.ofJson upper.value))
  | .subquery c s filter =>
    (Database.valueOf view c).isAmong
      (((db.rowsOf view s).filter fun v => (filter.evaluate db v).isYes).map fun v =>
        Database.valueOf v ⟨s.label, s.column⟩)
  | .all parts => .all (evaluateEach db view parts)
  | .any parts => .any (evaluateEach db view parts)
  | .const b => .ofBool b

def evaluateEach (db : Database) (view : List BoundRow) : List Predicate → List Truth
  | [] => []
  | p :: rest => p.evaluate db view :: evaluateEach db view rest

end

/-- Whether a row of a table passes a predicate on it. -/
def passes (db : Database) (table : Name) (t : Table) (p : Predicate) (row : Row) : Bool :=
  (p.evaluate db [⟨table, t.columns, row⟩]).isYes

end Predicate

/-! ## Values -/

/-- The rows of a table; none if there is no table of the name. -/
def Database.rows (db : Database) (name : Name) : List Row :=
  ((db.table? name).map Table.rows).getD []

namespace Datum

/-- Whether two values are equal, neither of them null. -/
def equals (a b : Datum) : Bool := (a.test .eq b).isYes

/-- Whether a value is one of those that an operand lists. -/
def isListed (d : Datum) : Json → Truth
  | .arr operands => d.isAmong (operands.map .ofJson)
  | operand => d.isAmong [.ofJson operand]

/-- Whether a value is the operand; null is itself. Lists and objects say nothing. -/
def isOperand (d : Datum) : Json → Bool
  | .null => decide (d = .null)
  | .arr _ | .obj _ => true
  | operand => d.equals (.ofJson operand)

/-- Whether a value differs from the operand; only null does not differ from null.
Lists and objects say nothing. -/
def isNotOperand (d : Datum) : Json → Bool
  | .null => decide (d ≠ .null)
  | .arr _ | .obj _ => true
  | operand => (d.test .ne (.ofJson operand)).isYes

/-- Whether a value matches the operand; what is no text says nothing. -/
def matchesOperand (d : Datum) : Json → Bool
  | .str s => (d.matchesPattern (Pattern.like s)).isYes
  | _ => true

/-- Whether a value passes an operator that is not a bound. -/
def passesOperator (d : Datum) (op : String) (operand : Json) : Bool :=
  if op = "$eq" then d.isOperand operand
  else if op = "$ne" then d.isNotOperand operand
  else if op = "$in" then (d.isListed operand).isYes
  else if op = "$nin" then (d.isListed operand).not.isYes
  else if op = "$exists" then decide (d ≠ .null) == operand.isTruthy
  else if op = "$regex" then d.matchesOperand operand
  else true

/-- Whether a value lies within a bound, of whose two forms the inclusive one
counts. -/
def passesBound (d : Datum) (ops : List (String × Json)) (strict inclusive : String)
    (strictly inclusively : Comparison) : Bool :=
  match ops.lookup inclusive with
  | some operand => (d.test inclusively (.ofJson operand)).isYes
  | none => (ops.lookup strict).all fun operand => (d.test strictly (.ofJson operand)).isYes

/-- Whether a value passes what a filter gives for its field. -/
def passesValue (d : Datum) : Json → Bool
  | .obj ops =>
    ops.all (fun (op, operand) => d.passesOperator op operand) &&
      d.passesBound ops "$gt" "$gte" .gt .ge && d.passesBound ops "$lt" "$lte" .lt .le
  | value => d.isOperand value

end Datum

namespace Filter

/-! ## Fields and related rows -/

/-- A relation whose target is known, with the columns of its keys on both sides. -/
structure Link where
  target : Entity
  localColumn : String
  foreignColumn : String
  relation : Relation

/-- The link of a relation; none if its target or one of its keys is unknown. -/
def link? (registry : Registry) (e : Entity) (r : Relation) : Option Link := do
  let target ← registry.find? r.target
  return ⟨target, ← e.column? r.localKey, ← target.column? r.foreignKey, r⟩

/-- When a row is related to a row of the target; none for a many-to-many relation
without a join table. -/
def Link.relates? (db : Database) (l : Link) : Option (Row → Row → Bool) :=
  match l.relation.kind, l.relation.join with
  | .manyToMany, none => none
  | .manyToMany, some join =>
    some fun row other => (db.rows join.table).any fun joined =>
      (row l.localColumn).equals (joined join.sourceKey) &&
        (joined join.targetKey).equals (other l.foreignColumn)
  | .ownedReference, _ | .oneToMany, _ =>
    some fun row other => (row l.localColumn).equals (other l.foreignColumn)

/-- Whether an object given to a relation holds operators: it is not empty and all its
keys start with a dollar sign, `$and` and `$or` apart. -/
def addressesKey (members : List (String × Json)) : Bool :=
  members ≠ [] && members.all fun (key, _) =>
    "$".toList.isPrefixOf key.toList && key ≠ "$and" && key ≠ "$or"

/-- The field that a key of a filter names; none starts with a dollar sign. -/
def namedField? (e : Entity) (key : String) : Option Field :=
  if "$".toList.isPrefixOf key.toList then none else e.field? key

/-- The link of the relation that a key of a filter names. -/
def namedLink? (registry : Registry) (e : Entity) (key : String) : Option Link :=
  (namedField? e key).bind fun f => f.relation.bind (link? registry e)

/-- The column that a plain value given to a key is about: that of a stored field, or
the local key of an owned reference. -/
def valueColumn? (registry : Registry) (e : Entity) (key : String) : Option String :=
  (namedField? e key).bind fun f =>
    match f.relation with
    | none => some f.column
    | some r =>
      if r.kind = .ownedReference then (link? registry e r).map Link.localColumn else none

/-- Whether a row passes a plain value given to a key. -/
def passesPlain (registry : Registry) (e : Entity) (row : Row) (key : String) (value : Json) :
    Bool :=
  (valueColumn? registry e key).all fun c => (row c).passesValue value

/-! ## Objects -/

mutual

/-- Whether all members of an object hold of a row. -/
def holdsMembers (registry : Registry) (db : Database) (e : Entity) (row : Row) :
    List (String × Json) → Bool
  | [] => true
  | (key, value) :: rest =>
    holdsMember registry db e row key value && holdsMembers registry db e row rest

/-- Whether a member of an object holds of a row. -/
def holdsMember (registry : Registry) (db : Database) (e : Entity) (row : Row) (key : String) :
    Json → Bool
  | .arr items =>
    if key = "$and" then holdsAll registry db e row items
    else if key = "$or" then !items.any Json.isObject || holdsAny registry db e row items
    else true
  | .obj members =>
    match namedLink? registry e key with
    | none => passesPlain registry e row key (.obj members)
    | some link =>
      if addressesKey members then passesPlain registry e row key (.obj members)
      else
        match link.relates? db with
        | none => true
        | some relates => (db.rows link.target.table).any fun other =>
          relates row other && holdsMembers registry db link.target other members
  | value => passesPlain registry e row key value

/-- Whether all objects among some items hold of a row. -/
def holdsAll (registry : Registry) (db : Database) (e : Entity) (row : Row) : List Json → Bool
  | [] => true
  | .obj members :: rest =>
    holdsMembers registry db e row members && holdsAll registry db e row rest
  | _ :: rest => holdsAll registry db e row rest

/-- Whether an object among some items holds of a row. -/
def holdsAny (registry : Registry) (db : Database) (e : Entity) (row : Row) : List Json → Bool
  | [] => false
  | .obj members :: rest =>
    holdsMembers registry db e row members || holdsAny registry db e row rest
  | _ :: rest => holdsAny registry db e row rest

end

/-- Whether a filter holds of a row; what is no object asks for nothing. -/
def holds (registry : Registry) (db : Database) (e : Entity) (row : Row) : Json → Bool
  | .obj members => holdsMembers registry db e row members
  | _ => true

/-! ## Depth -/

/-- Whether an object given to a key is read as a filter on related rows, and of which
entity. -/
def traversed? (registry : Registry) (e : Entity) (key : String)
    (members : List (String × Json)) : Option Entity :=
  if addressesKey members then none
  else
    (namedLink? registry e key).bind fun l =>
      if l.relation.kind = .manyToMany ∧ l.relation.join = none then none else some l.target

mutual

/-- How deep objects are nested in the members of an object, counting those only that
are read as filters. -/
def depthOfMembers (registry : Registry) (e : Entity) : List (String × Json) → Nat
  | [] => 0
  | (key, value) :: rest =>
    max (depthOfMember registry e key value) (depthOfMembers registry e rest)

def depthOfMember (registry : Registry) (e : Entity) (key : String) : Json → Nat
  | .arr items => if key = "$and" ∨ key = "$or" then depthOfItems registry e items else 0
  | .obj members =>
    match traversed? registry e key members with
    | some target => depthOfMembers registry target members + 1
    | none => 0
  | _ => 0

def depthOfItems (registry : Registry) (e : Entity) : List Json → Nat
  | [] => 0
  | .obj members :: rest =>
    max (depthOfMembers registry e members + 1) (depthOfItems registry e rest)
  | _ :: rest => depthOfItems registry e rest

end

/-- How deep objects are nested in a filter. -/
def depth (registry : Registry) (e : Entity) : Json → Nat
  | .obj members => depthOfMembers registry e members
  | _ => 0

end Filter

end ScopedAccess
