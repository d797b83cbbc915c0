import ScopedAccess.Filter.Predicate
/-!
# Conditions

The conditions that a statement is run with. Their values are bound parameters of a
database type (`Param.ofJson`), and they are built by adding to a conjunction or a
disjunction, where a condition of one part adds just that part (`Condition.add`).

`Predicate.condition` lowers a predicate: false and the empty disjunction become a
bound false, true and the empty conjunction a conjunction of nothing.
-/

namespace ScopedAccess

set_option autoImplicit false

/-! ## Parameters and conditions -/

/-- A value bound to a place in a statement. -/
inductive Param where
  | bool (b : Bool)
  /-- An integer of 64 bits. -/
  | bigInt (n : Int)
  | double (x : Double)
  | string (s : String)
  /-- The missing text, which stands for null. -/
  | null
  | json (value : Json)
  /-- A small integer of the statement itself. -/
  | int (n : Int)

/-- The parameter that a value is bound as. An integer beyond 64 bits with a sign is
bound as the nearest floating-point number. -/
def Param.ofJson : Json → Param
  | .null => .null
  | .bool b => .bool b
  | .int n =>
    if Json.fitsSigned n then .bigInt n
    else .double (((Double.ofQuotient? n.natAbs 1).getD default).withSign (n < 0))
  | .float x => .double x
  | .str s => .string s
  | .arr items => .json (.arr items)
  | .obj members => .json (.obj members)

/-- A parameter as its type and value. -/
def Param.toJson : Param → Json
  | .bool b => .arr [.str "Bool", .bool b]
  | .bigInt n => .arr [.str "BigInt", .int n]
  | .double x => .arr [.str "Double", .float x]
  | .string s => .arr [.str "String", .str s]
  | .null => .arr [.str "String", .null]
  | .json value => .arr [.str "Json", value]
  | .int n => .arr [.str "Int", .int n]

/-- A condition of a statement. -/
inductive Condition where
  | compare (column : Column) (op : Comparison) (value : Param)
  | among (column : Column) (values : List Param) (negated : Bool)
  | null (column : Column) (negated : Bool)
  | like (column : Column) (pattern : String)
  /-- The column is one of all values of the selection. -/
  | selected (column : Column) (selection : Selection)
  /-- The column is a value of the selection in a row that passes the filter. -/
  | subquery (column : Column) (selection : Selection) (filter : Condition)
  /-- A truth value, bound like any other value. -/
  | truth (b : Bool)
  | all (parts : List Condition)
  | any (parts : List Condition)

namespace Condition

instance : Inhabited Condition := ⟨.all []⟩

/-- What a condition contributes when it is added to others. -/
def element : Condition → Condition
  | .all [c] => c
  | .any [c] => c
  | c => c

/-- The condition that nothing passes. -/
def denied : Condition := .all [.truth false]

mutual

/-- The patterns that a condition matches values with. -/
def patterns : Condition → List String
  | .like _ pattern => [pattern]
  | .subquery _ _ filter => filter.patterns
  | .all parts => patternsOf parts
  | .any parts => patternsOf parts
  | _ => []

def patternsOf : List Condition → List String
  | [] => []
  | c :: rest => c.patterns ++ patternsOf rest

end

end Condition

mutual

/-- Lower a predicate. -/
def Predicate.condition : Predicate → Condition
  | .compare c op value => .all [.compare c op (.ofJson value)]
  | .among c values negated => .all [.among c (values.map .ofJson) negated]
  | .null c negated => .all [.null c negated]
  | .like c pattern => .all [.like c pattern]
  | .between c lower upper =>
    .all [.compare c lower.lowerComparison (.ofJson lower.value),
      .compare c upper.upperComparison (.ofJson upper.value)]
  | .subquery c s filter =>
    .all [if filter.isTrivial then .selected c s else .subquery c s filter.condition]
  | .all parts => .all (Predicate.conditionElements parts)
  | .any [] => .denied
  | .any (p :: rest) => .any (p.condition.element :: Predicate.conditionElements rest)
  | .const true => .all []
  | .const false => .denied

/-- The parts that lowered predicates contribute. -/
def Predicate.conditionElements : List Predicate → List Condition
  | [] => []
  | p :: rest => p.condition.element :: Predicate.conditionElements rest

end

/-! ## Height

How high the tree of an expression is that a condition is written as. A column is a tree of
height two, a value one of height one; the parts of a conjunction or disjunction are joined
from the left, so that many parts make a high tree. A subquery counts with its own condition,
and while that condition is read, the one around it is still open (`Condition.reach`). -/

namespace Condition

/-- The height of trees joined from the left. -/
def joinedHeight : List Nat → Nat
  | [] => 1
  | h :: rest => rest.foldl (fun joined h => max joined h + 1) h

mutual

/-- The height of the tree of a condition. -/
def height : Condition → Nat
  | .compare .. => 3
  | .among _ [] _ => 2
  | .among _ (_ :: _) negated => if negated then 4 else 3
  | .null .. => 3
  | .like .. => 3
  | .selected .. => 3
  | .subquery _ _ filter => max 2 filter.height + 1
  | .truth _ => 1
  | .all parts => joinedHeight (heights parts)
  | .any parts => joinedHeight (heights parts)

def heights : List Condition → List Nat
  | [] => []
  | c :: rest => c.height :: heights rest

end

mutual

/-- The most that the heights of open conditions come to inside a condition. -/
def innerReach : Condition → Nat
  | .selected .. => 2
  | .subquery _ _ filter => max 2 (filter.height + filter.innerReach)
  | .all parts => innerReachOf parts
  | .any parts => innerReachOf parts
  | _ => 0

def innerReachOf : List Condition → Nat
  | [] => 0
  | c :: rest => max c.innerReach (innerReachOf rest)

end

/-- The most that the heights of open conditions come to while a condition is read. -/
def reach (c : Condition) : Nat := c.height + c.innerReach

end Condition

end ScopedAccess
