import ScopedAccess.Filter.Predicate
/-!
# Tests on one column

What a value given to a plain field means: a scalar is an equality, null a test for
null, and an object holds operators. The operators come in the order of their
names, the bounds last; of `$gt` and `$gte` given together the inclusive one
counts, and so with `$lt` and `$lte`. Operators with other names, and operands that
an operator cannot use, mean nothing.

In a list of predicates that are all to hold, a lower and an upper bound on one column say the
same as one range. `mergeBounds` puts a range in the place of the first of the two, for every
column that has exactly one bound of each kind; columns with several bounds of a kind keep them
as they are.
-/

namespace ScopedAccess

set_option autoImplicit false

/-! ## Patterns

The patterns that filters search texts with: a body that the text has to equal,
start with, end with or contain, as anchors at its ends say. `Pattern.like` writes
a pattern for the `LIKE` operator with the backslash as escape. -/

/-- A text to look for, with anchors at its ends. -/
structure Pattern where
  fromStart : Bool
  body : List Char
  toEnd : Bool
  deriving DecidableEq

namespace Pattern

/-- The pattern without its anchor at the end. -/
def ofRest (fromStart : Bool) (cs : List Char) : Pattern :=
  if cs.getLast? = some '$' then ⟨fromStart, cs.dropLast, true⟩ else ⟨fromStart, cs, false⟩

/-- Read a pattern: `^` at the start and `$` at the end of what remains are anchors. -/
def ofChars : List Char → Pattern
  | '^' :: rest => ofRest true rest
  | cs => ofRest false cs

/-- Whether `LIKE` reads more into a character than itself. -/
def isSpecial (c : Char) : Bool := c = '%' || c = '_' || c = '\\'

def escape (c : Char) : List Char := if isSpecial c then ['\\', c] else [c]

/-- The characters of the pattern for `LIKE`. -/
def likeChars (p : Pattern) : List Char :=
  (if p.fromStart then [] else ['%']) ++ p.body.flatMap escape ++ (if p.toEnd then [] else ['%'])

/-- The pattern for `LIKE` that searches as a text says. -/
def like (s : String) : String := String.ofList (ofChars s.toList).likeChars

end Pattern

/-! ## Operators -/

/-- Whether a value counts as true: neither null, false, zero nor empty text. -/
def Json.isTruthy : Json → Bool
  | .null => false
  | .bool b => b
  | .int n => n ≠ 0
  | .float _ => true
  | .str s => !s.isEmpty
  | .arr _ => true
  | .obj _ => true

namespace Predicate

/-- The column is (not) a value; null is tested for as such. -/
def equals (c : Column) (negated : Bool) : Json → Predicate
  | .null => .null c negated
  | value => .compare c (if negated then .ne else .eq) value

/-- The predicate of an operator that is not a bound. -/
def ofOperator (c : Column) : String → Json → List Predicate
  | "$eq", .arr _ => []
  | "$eq", .obj _ => []
  | "$eq", value => [equals c false value]
  | "$ne", .arr _ => []
  | "$ne", .obj _ => []
  | "$ne", value => [equals c true value]
  | "$in", .arr [] => [.const false]
  | "$in", .arr values => [.among c values false]
  | "$in", value => [.among c [value] false]
  | "$nin", .arr [] => []
  | "$nin", .arr values => [.among c values true]
  | "$nin", value => [.among c [value] true]
  | "$exists", value => [.null c value.isTruthy]
  | "$regex", .str s => [.like c (Pattern.like s)]
  | _, _ => []

/-- The bound that operators give, of a strict name and an inclusive one. -/
def boundOf? (strict inclusive : String) (ops : List (String × Json)) : Option Bound :=
  match ops.lookup inclusive, ops.lookup strict with
  | some value, _ => some ⟨value, true⟩
  | none, some value => some ⟨value, false⟩
  | none, none => none

/-- The bounds among operators, as one predicate if there are two. -/
def ofBounds (c : Column) (ops : List (String × Json)) : List Predicate :=
  match boundOf? "$gt" "$gte" ops, boundOf? "$lt" "$lte" ops with
  | some lower, some upper => [.between c lower upper]
  | some lower, none => [.compare c lower.lowerComparison lower.value]
  | none, some upper => [.compare c upper.upperComparison upper.value]
  | none, none => []

/-- The predicates of an object of operators. -/
def ofOperators (c : Column) (ops : List (String × Json)) : List Predicate :=
  ops.flatMap (fun (op, value) => ofOperator c op value) ++ ofBounds c ops

/-- The predicates of a value given to a column. -/
def ofValue (c : Column) : Json → List Predicate
  | .obj ops => ofOperators c ops
  | .arr _ => []
  | value => [equals c false value]

end Predicate

/-! ## Merging bounds -/

namespace Predicate

/-- The bound from below that a predicate is, on a column. -/
def lowerOn? (column : Column) : Predicate → Option Bound
  | .compare c op value =>
    if c = column ∧ op.isLower then some ⟨value, op.isInclusive⟩ else none
  | _ => none

/-- The bound from above that a predicate is, on a column. -/
def upperOn? (column : Column) : Predicate → Option Bound
  | .compare c op value =>
    if c = column ∧ op.isUpper then some ⟨value, op.isInclusive⟩ else none
  | _ => none

/-- The column that a predicate bounds on one side. -/
def boundColumn? : Predicate → Option Column
  | .compare c op _ => if op.isLower || op.isUpper then some c else none
  | _ => none

end Predicate

/-- The bounds of a column that has exactly one of each kind. -/
def rangeOn? (ps : List Predicate) (column : Column) : Option (Bound × Bound) :=
  match ps.filterMap (·.lowerOn? column), ps.filterMap (·.upperOn? column) with
  | [lower], [upper] => some (lower, upper)
  | _, _ => none

/-- Merge the bounds of a list, given the ranges there are and the columns whose
range has been put out. -/
def mergeFrom (range? : Column → Option (Bound × Bound)) :
    List Column → List Predicate → List Predicate
  | _, [] => []
  | done, p :: rest =>
    match p.boundColumn?.bind fun c => (range? c).map fun r => (c, r) with
    | none => p :: mergeFrom range? done rest
    | some (c, lower, upper) =>
      if c ∈ done then mergeFrom range? done rest
      else .between c lower upper :: mergeFrom range? (c :: done) rest

/-- Put a range in the place of two bounds on one column. -/
def mergeBounds (ps : List Predicate) : List Predicate := mergeFrom (rangeOn? ps) [] ps

end ScopedAccess
