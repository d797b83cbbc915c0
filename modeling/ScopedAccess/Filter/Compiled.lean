import ScopedAccess.Filter.Predicate
/-!
# Compiled filters and their text

A filter after compilation: predicates that all have to hold, with the
disjunctions kept apart from the rest. A predicate pushed later, such as a scope,
stands beside all of them, so no disjunction can undo it.

A predicate is written as a condition with `?` for every value, beside the list of
these values in order (`Predicate.sql`, `Predicate.params`). The parts of an
empty conjunction or disjunction are written as a comparison of constants; parts
are in parentheses where there is more than one. As a structured value it is an object for each
of its nodes, tagged with the kind of the node (`Predicate.toJson`).
-/

namespace ScopedAccess

set_option autoImplicit false

/-! ## The text of predicates -/

def Column.sql (c : Column) : String := c.label ++ "." ++ c.name

namespace Predicate

def trueText : String := "1 = 1"

def falseText : String := "1 = 0"

/-- The texts of parts joined by a connective. -/
def joined (connective unit : String) : List String → String
  | [] => unit
  | [s] => s
  | texts => "(" ++ String.intercalate connective texts ++ ")"

mutual

/-- The text of a predicate. -/
def sql : Predicate → String
  | .compare c op _ => c.sql ++ " " ++ op.sql ++ " ?"
  | .among c values negated =>
    c.sql ++ (if negated then " NOT IN (" else " IN (")
      ++ String.intercalate ", " (values.map fun _ => "?") ++ ")"
  | .null c negated => c.sql ++ (if negated then " IS NOT NULL" else " IS NULL")
  | .like c _ => c.sql ++ " LIKE ? ESCAPE '\\'"
  | .between c lower upper =>
    if lower.inclusive && upper.inclusive then c.sql ++ " BETWEEN ? AND ?"
    else
      "(" ++ c.sql ++ " " ++ lower.lowerComparison.sql ++ " ? AND "
        ++ c.sql ++ " " ++ upper.upperComparison.sql ++ " ?)"
  | .subquery c s filter =>
    c.sql ++ " IN (SELECT " ++ s.label ++ "." ++ s.column ++ " FROM " ++ s.table ++ " " ++ s.label
      ++ (if filter.isTrivial then "" else " WHERE " ++ filter.sql) ++ ")"
  | .all parts => joined " AND " trueText (sqls parts)
  | .any parts => joined " OR " falseText (sqls parts)
  | .const true => trueText
  | .const false => falseText

def sqls : List Predicate → List String
  | [] => []
  | p :: rest => p.sql :: sqls rest

end

mutual

/-- The values of a predicate, in the order of their places in its text. -/
def params : Predicate → List Json
  | .compare _ _ value => [value]
  | .among _ values _ => values
  | .null _ _ => []
  | .like _ pattern => [.str pattern]
  | .between _ lower upper => [lower.value, upper.value]
  | .subquery _ _ filter => if filter.isTrivial then [] else filter.params
  | .all parts => paramsList parts
  | .any parts => paramsList parts
  | .const _ => []

def paramsList : List Predicate → List Json
  | [] => []
  | p :: rest => p.params ++ paramsList rest

end

end Predicate

/-! ## Predicates as structured values -/

def Column.toJson (c : Column) : Json := .arr [.str c.label, .str c.name]

def Bound.toJson (b : Bound) : Json := .object [("v", b.value), ("inc", .bool b.inclusive)]

namespace Predicate

/-- A node of a kind with its members. -/
def node (kind : String) (members : List (String × Json)) : Json :=
  .object (("t", .str kind) :: members)

mutual

/-- A predicate as a tree of objects. -/
def toJson : Predicate → Json
  | .compare c op value => node "cmp" [("col", c.toJson), ("op", .str op.sql), ("v", value)]
  | .among c values negated =>
    node "in" [("col", c.toJson), ("vs", .arr values), ("neg", .bool negated)]
  | .null c negated => node "null" [("col", c.toJson), ("neg", .bool negated)]
  | .like c pattern => node "like" [("col", c.toJson), ("p", .str pattern)]
  | .between c lower upper =>
    node "between" [("col", c.toJson), ("lo", lower.toJson), ("hi", upper.toJson)]
  | .subquery c s filter =>
    node "sub" [("col", c.toJson), ("table", .str s.table), ("alias", .str s.label),
      ("select", .str s.column), ("where", filter.toJson)]
  | .all parts => node "and" [("of", .arr (toJsons parts))]
  | .any parts => node "or" [("of", .arr (toJsons parts))]
  | .const b => node "const" [("v", .bool b)]

def toJsons : List Predicate → List Json
  | [] => []
  | p :: rest => p.toJson :: toJsons rest

end

/-- The text of a predicate with its values. -/
def rendered (p : Predicate) : Json := .object [("sql", .str p.sql), ("params", .arr p.params)]

end Predicate

/-! ## Compiled filters -/

/-- Predicates that all have to hold. -/
structure CompiledFilter where
  fragments : List Predicate
  /-- The disjunctions of the filter. -/
  groups : List Predicate

namespace CompiledFilter

def empty : CompiledFilter := ⟨[], []⟩

instance : EmptyCollection CompiledFilter := ⟨empty⟩

instance : Inhabited CompiledFilter := ⟨empty⟩

/-- Both filters have to hold. -/
def append (f g : CompiledFilter) : CompiledFilter :=
  ⟨f.fragments ++ g.fragments, f.groups ++ g.groups⟩

instance : Append CompiledFilter := ⟨append⟩

/-- One more predicate has to hold. -/
def push (f : CompiledFilter) (p : Predicate) : CompiledFilter :=
  { f with fragments := f.fragments ++ [p] }

/-- Everything that has to hold. -/
def parts (f : CompiledFilter) : List Predicate := f.fragments ++ f.groups

def isEmpty (f : CompiledFilter) : Bool := f.parts.isEmpty

/-- The filter as one predicate. -/
def predicate (f : CompiledFilter) : Predicate := .conj f.parts

/-- The text of the filter. -/
def sql (f : CompiledFilter) : String := String.intercalate " AND " (f.parts.map Predicate.sql)

/-- The values of the filter, in the order of their places in its text. -/
def params (f : CompiledFilter) : List Json := f.parts.flatMap Predicate.params

/-- The text of the filter with its values. -/
def rendered (f : CompiledFilter) : Json :=
  .object [("sql", .str f.sql), ("params", .arr f.params)]

end CompiledFilter

end ScopedAccess
