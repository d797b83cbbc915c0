import ScopedAccess.Basic
import ScopedAccess.Json.Text
import ScopedAccess.Filter.Predicate
import ScopedAccess.Sql.Condition
import ScopedAccess.Sql.Like
/-!
# Stored values and their truth

What a database keeps in a column: null, an integer, a floating-point number or a
text. Numbers compare by their exact values and are less than any text; texts compare
by code points. A comparison with null is unknown.

A test on a row is true, false, or unknown where a null is involved (`Truth`). A statement
acts on the rows whose test is true.
-/

namespace ScopedAccess

set_option autoImplicit false

/-! ## Three truth values -/

inductive Truth where
  | yes
  | no
  | unknown
  deriving DecidableEq

namespace Truth

def ofBool : Bool → Truth
  | true => yes
  | false => no

def isYes : Truth → Bool
  | yes => true
  | _ => false

def not : Truth → Truth
  | yes => no
  | no => yes
  | unknown => unknown

/-- False if one side is, else unknown if one side is. -/
def and : Truth → Truth → Truth
  | no, _ | _, no => no
  | unknown, _ | _, unknown => unknown
  | yes, yes => yes

/-- True if one side is, else unknown if one side is. -/
def or : Truth → Truth → Truth
  | yes, _ | _, yes => yes
  | unknown, _ | _, unknown => unknown
  | no, no => no

def all (ts : List Truth) : Truth := ts.foldr and yes

def any (ts : List Truth) : Truth := ts.foldr or no

/-- The negation of a truth value, if asked for. -/
def negateIf (negated : Bool) (t : Truth) : Truth := if negated then t.not else t

@[simp] theorem isYes_ofBool (b : Bool) : (ofBool b).isYes = b := by cases b <;> rfl

@[simp] theorem isYes_and (a b : Truth) : (a.and b).isYes = (a.isYes && b.isYes) := by
  cases a <;> cases b <;> rfl

@[simp] theorem isYes_or (a b : Truth) : (a.or b).isYes = (a.isYes || b.isYes) := by
  cases a <;> cases b <;> rfl

@[simp] theorem isYes_all (ts : List Truth) : (all ts).isYes = ts.all isYes := by
  induction ts with
  | nil => rfl
  | cons t rest ih => simp only [all, List.foldr_cons, isYes_and, List.all_cons] at *; rw [ih]

@[simp] theorem isYes_any (ts : List Truth) : (any ts).isYes = ts.any isYes := by
  induction ts with
  | nil => rfl
  | cons t rest ih => simp only [any, List.foldr_cons, isYes_or, List.any_cons] at *; rw [ih]

end Truth

/-! ## Values -/

/-- A value in a column. -/
inductive Datum where
  | null
  | int (n : Int)
  | real (x : Double)
  | text (s : String)
  deriving DecidableEq

namespace Datum

instance : Inhabited Datum := ⟨null⟩

/-- The order of two texts. -/
def compareText (a b : String) : Ordering := if a < b then .lt else if b < a then .gt else .eq

/-- The order of two values that are not null. -/
def compare? : Datum → Datum → Option Ordering
  | null, _ | _, null => none
  | text a, text b => some (compareText a b)
  | text _, _ => some .gt
  | _, text _ => some .lt
  | int a, int b => some (Ord.compare a b)
  | int a, real b => some (Ord.compare (Double.scaledInt a) b.scaled)
  | real a, int b => some (Ord.compare a.scaled (Double.scaledInt b))
  | real a, real b => some (Ord.compare a.scaled b.scaled)

/-- Whether a value comes no later than another in a sorted result; null comes
first. -/
def sortsBefore (a b : Datum) : Bool :=
  match a.compare? b with
  | some o => o.isLE
  | none => a = null

/-- Whether a comparison holds of two values. -/
def test (op : Comparison) (a b : Datum) : Truth :=
  match a.compare? b with
  | some o => .ofBool (op.holds o)
  | none => .unknown

/-- Whether a value is one of others. -/
def isAmong (d : Datum) (others : List Datum) : Truth := .any (others.map (d.test .eq))

/-- The text that patterns are matched with, which ends at a null character; that of numbers
is how they are written. -/
def matchedText? : Datum → Option String
  | null => none
  | int n => some (toString n)
  | real x => some x.text
  | text s => some (upToNull s)

/-- Whether a value matches a pattern, which ends at a null character as well. -/
def matchesPattern (pattern : String) (d : Datum) : Truth :=
  match d.matchedText? with
  | none => .unknown
  | some s => .ofBool (matchesLike sameLetter (upToNull pattern) s)

/-- The value that a parameter is stored as: truth values as one and zero, structured
values as their texts. -/
def ofParam : Param → Datum
  | .bool b => int (if b then 1 else 0)
  | .bigInt n => int n
  | .double x => real x
  | .string s => text s
  | .null => null
  | .json j => text j.print
  | .int n => int n

/-- The value that a record's is stored as. -/
def ofJson (j : Json) : Datum := ofParam (.ofJson j)

def toJson : Datum → Json
  | null => .null
  | int n => .int n
  | real x => .float x
  | text s => .str s

end Datum

end ScopedAccess
