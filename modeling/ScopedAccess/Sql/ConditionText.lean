import ScopedAccess.Sql.Condition
/-!
# The text of conditions

A condition is written with quoted names and `?` for every value
(`Condition.whereText`), beside the parameters in order (`Condition.params`). The
parts of a conjunction or disjunction are joined from the left; a part on the left
is in parentheses if it is joined by the other connective, one on the right if it
is joined at all. A test for membership in no values compares two constants.
-/

namespace ScopedAccess

set_option autoImplicit false

/-- A name between double quotes, with those inside doubled. -/
def quoteName (s : String) : String :=
  String.ofList ('"' :: s.toList.flatMap (fun c => if c = '"' then ['"', '"'] else [c]) ++ ['"'])

def Column.quoted (c : Column) : String := quoteName c.label ++ "." ++ quoteName c.name

/-- What joins the parts of an expression. -/
inductive Connective where
  | and
  | or
  deriving DecidableEq

def Connective.sql : Connective → String
  | and => "AND"
  | or => "OR"

/-- The text of an expression, with the connective at its top if there is one. -/
structure ExpressionText where
  top : Option Connective
  text : String

namespace ExpressionText

def atom (text : String) : ExpressionText := ⟨none, text⟩

def inParentheses (e : ExpressionText) : String := "(" ++ e.text ++ ")"

/-- The text on the left of a connective. -/
def left (e : ExpressionText) (op : Connective) : String :=
  if e.top.isSome && e.top ≠ some op then e.inParentheses else e.text

/-- The text on the right of a connective. -/
def right (e : ExpressionText) : String := if e.top.isSome then e.inParentheses else e.text

def join (op : Connective) (l r : ExpressionText) : ExpressionText :=
  ⟨some op, l.left op ++ " " ++ op.sql ++ " " ++ r.right⟩

/-- Expressions joined from the left. -/
def joinAll (op : Connective) (unit : String) : List ExpressionText → ExpressionText
  | [] => atom unit
  | e :: rest => rest.foldl (join op) e

end ExpressionText

/-- The start of a subquery. -/
def Selection.quoted (s : Selection) : String :=
  "SELECT " ++ quoteName s.label ++ "." ++ quoteName s.column ++ " FROM " ++ quoteName s.table
    ++ " AS " ++ quoteName s.label

namespace Condition

mutual

/-- The text of a condition. -/
def expression : Condition → ExpressionText
  | .compare c op _ => .atom (c.quoted ++ " " ++ op.sql ++ " ?")
  | .among _ [] _ => .atom "? = ?"
  | .among c (v :: vs) negated =>
    .atom (c.quoted ++ (if negated then " NOT IN (" else " IN (")
      ++ String.intercalate ", " ((v :: vs).map fun _ => "?") ++ ")")
  | .null c negated => .atom (c.quoted ++ (if negated then " IS NOT NULL" else " IS NULL"))
  | .like c _ => .atom (c.quoted ++ " LIKE ? ESCAPE '\\'")
  | .selected c s => .atom (c.quoted ++ " IN (" ++ s.quoted ++ ")")
  | .subquery c s filter =>
    .atom (c.quoted ++ " IN (" ++ s.quoted ++ " WHERE " ++ filter.expression.text ++ ")")
  | .truth _ => .atom "?"
  | .all parts => .joinAll .and "TRUE" (expressions parts)
  | .any parts => .joinAll .or "FALSE" (expressions parts)

def expressions : List Condition → List ExpressionText
  | [] => []
  | c :: rest => c.expression :: expressions rest

end

mutual

/-- The parameters of a condition, in the order of their places in its text. -/
def params : Condition → List Param
  | .compare _ _ v => [v]
  | .among _ [] negated => [.int 1, .int (if negated then 1 else 2)]
  | .among _ (v :: vs) _ => v :: vs
  | .null _ _ => []
  | .like _ pattern => [.string pattern]
  | .selected _ _ => []
  | .subquery _ _ filter => filter.params
  | .truth b => [.bool b]
  | .all parts => paramsList parts
  | .any parts => paramsList parts

def paramsList : List Condition → List Param
  | [] => []
  | c :: rest => c.params ++ paramsList rest

end

/-- The restriction of a statement to the rows that pass. -/
def whereText (c : Condition) : String := "WHERE " ++ c.expression.text

end Condition

end ScopedAccess
