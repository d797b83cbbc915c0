import ScopedAccess.Sql.Statement
/-!
# The order of results

Values are sorted with null first, then numbers by their exact values, then texts. Two
values of different kinds may come in either place, an integer beside a floating-point
number, so the order is on values and not on their kinds; it is transitive and total, and
a sorted result is in order.

* `inOrderOf_perm`, `inOrderOf_pairwise`: the rows in the order of a column are the same
  rows, and in order.
-/

namespace ScopedAccess

set_option autoImplicit false

namespace Datum

theorem scaledInt_le_iff (a b : Int) : Double.scaledInt a ≤ Double.scaledInt b ↔ a ≤ b := by
  have positive : (0 : Int) < 2 ^ 1074 := Int.pow_pos (by decide)
  exact Int.mul_le_mul_right positive

theorem isLE_compareText (a b : String) : (compareText a b).isLE = decide (a ≤ b) := by
  unfold compareText
  by_cases below : a < b
  · have le : a ≤ b := String.not_lt.mp (String.lt_asymm below)
    simp [below, le]
  · by_cases above : b < a
    · simp [below, above]
    · simp [below, above, String.not_lt.mp above]

/-- Numbers are sorted by their exact values, whichever their kinds. -/
theorem sortsBefore_eq (a b : Datum) : a.sortsBefore b =
    match a, b with
    | null, _ => true
    | _, null => false
    | text s, text s' => decide (s ≤ s')
    | text _, _ => false
    | _, text _ => true
    | int n, int m => decide (Double.scaledInt n ≤ Double.scaledInt m)
    | int n, real y => decide (Double.scaledInt n ≤ y.scaled)
    | real x, int m => decide (x.scaled ≤ Double.scaledInt m)
    | real x, real y => decide (x.scaled ≤ y.scaled) := by
  have isLE (n m : Int) : (Ord.compare n m).isLE = decide (n ≤ m) := by
    rw [Bool.eq_iff_iff, decide_eq_true_iff]
    exact Int.isLE_compare
  cases a <;> cases b <;> simp [sortsBefore, compare?, isLE, isLE_compareText, scaledInt_le_iff]

theorem sortsBefore_total (a b : Datum) : (a.sortsBefore b || b.sortsBefore a) = true := by
  rw [sortsBefore_eq, sortsBefore_eq, Bool.or_eq_true]
  cases a <;> cases b <;> simp only [decide_eq_true_eq, true_or, or_true]
  case text.text a b => exact String.le_total a b
  all_goals omega

theorem sortsBefore_trans (a b c : Datum) (first : a.sortsBefore b = true)
    (second : b.sortsBefore c = true) : a.sortsBefore c = true := by
  rw [sortsBefore_eq] at first second ⊢
  cases a <;> cases b <;> cases c <;>
    simp only [decide_eq_true_eq, Bool.false_eq_true] at first second ⊢
  case text.text.text a b c => exact String.le_trans first second
  all_goals omega

end Datum

/-- Rows in the order of a column. -/
def inOrderOf (column : Name) (rows : List Row) : List Row :=
  rows.mergeSort fun a b => (a column).sortsBefore (b column)

theorem inOrderOf_perm (column : Name) (rows : List Row) : (inOrderOf column rows).Perm rows :=
  List.mergeSort_perm _ _

theorem inOrderOf_pairwise (column : Name) (rows : List Row) :
    (inOrderOf column rows).Pairwise fun a b => (a column).sortsBefore (b column) = true := by
  refine List.pairwise_mergeSort ?_ ?_ rows
  · exact fun a b c => Datum.sortsBefore_trans (a column) (b column) (c column)
  · exact fun a b => Datum.sortsBefore_total (a column) (b column)

end ScopedAccess
