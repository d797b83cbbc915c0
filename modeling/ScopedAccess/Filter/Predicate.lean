import ScopedAccess.Json.Basic
/-!
# Predicates

The tests on a row that filters and scopes are compiled to, before any database is
involved. `Predicate.isTrivial` recognises the predicates that hold of every row by
their shape.

Predicates share some words with the conditions that they are lowered to: a column qualified by
the alias of its table, the comparisons between a column and a value, and the column of another
table that a subquery selects.
-/

namespace ScopedAccess

set_option autoImplicit false

/-! ## Columns and comparisons -/

/-- A column of a table. -/
structure Column where
  /-- The alias of the table. -/
  label : String
  name : String
  deriving DecidableEq

/-- How a column is compared to a value. -/
inductive Comparison where
  | eq
  | ne
  | gt
  | ge
  | lt
  | le
  deriving DecidableEq

namespace Comparison

def sql : Comparison → String
  | eq => "="
  | ne => "<>"
  | gt => ">"
  | ge => ">="
  | lt => "<"
  | le => "<="

/-- Whether the comparison holds of two values in this order. -/
def holds : Comparison → Ordering → Bool
  | eq, o => o.isEq
  | ne, o => o.isNe
  | gt, o => o.isGT
  | ge, o => o.isGE
  | lt, o => o.isLT
  | le, o => o.isLE

def isLower : Comparison → Bool
  | gt | ge => true
  | _ => false

def isUpper : Comparison → Bool
  | lt | le => true
  | _ => false

/-- Whether a bound given by the comparison includes its value. -/
def isInclusive : Comparison → Bool
  | ge | le => true
  | _ => false

end Comparison

/-- The column of a table that a subquery selects. -/
structure Selection where
  table : String
  /-- The alias that the subquery gives the table. -/
  label : String
  column : String
  deriving DecidableEq

/-! ## Predicates -/

/-- One side of a range. -/
structure Bound where
  value : Json
  inclusive : Bool

namespace Bound

def lowerComparison (b : Bound) : Comparison := if b.inclusive then .ge else .gt

def upperComparison (b : Bound) : Comparison := if b.inclusive then .le else .lt

end Bound

/-- A test on a row. -/
inductive Predicate where
  | compare (column : Column) (op : Comparison) (value : Json)
  /-- The column is (not) one of some values. -/
  | among (column : Column) (values : List Json) (negated : Bool)
  /-- The column is (not) null. -/
  | null (column : Column) (negated : Bool)
  /-- The column matches a pattern with the backslash as escape. -/
  | like (column : Column) (pattern : String)
  | between (column : Column) (lower upper : Bound)
  /-- The column is a value that the selection has in a row that passes the filter. -/
  | subquery (column : Column) (selection : Selection) (filter : Predicate)
  | all (parts : List Predicate)
  | any (parts : List Predicate)
  | const (b : Bool)

namespace Predicate

instance : Inhabited Predicate := ⟨.const false⟩

/-- The conjunction of predicates; one alone stands for itself. -/
def conj : List Predicate → Predicate
  | [p] => p
  | ps => .all ps

/-- The disjunction of predicates; one alone stands for itself. -/
def disj : List Predicate → Predicate
  | [p] => p
  | ps => .any ps

mutual

/-- Whether a predicate is true, or a conjunction of such. -/
def isTrivial : Predicate → Bool
  | .const b => b
  | .all parts => areTrivial parts
  | .compare .. | .among .. | .null .. | .like .. | .between .. | .subquery .. | .any _ => false

def areTrivial : List Predicate → Bool
  | [] => true
  | p :: rest => p.isTrivial && areTrivial rest

end

end Predicate

end ScopedAccess
