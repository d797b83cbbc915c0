import ScopedAccess.Json.Text
import Mathlib.Data.List.TakeWhile
import Mathlib.Tactic.IntervalCases
/-!
# Integers as number literals

The text of an integer is a literal without point and exponent (`NumberLiteral.ofChars?_toString`).
It denotes the integer, or, if that does not fit a word, a floating-point number or nothing
(`NumberLiteral.value?_ofInt`), but never another integer.
-/

namespace ScopedAccess

set_option autoImplicit false

namespace NumberLiteral

variable {n : Nat} {cs : List Char}

/-! ## Digits -/

theorem digitValue_digitChar (small : n < 10) : digitValue (Nat.digitChar n) = n := by
  interval_cases n <;> rfl

/-- A positive number does not start with a zero. -/
theorem digits_eq_cons (positive : 0 < n) :
    ∃ d ds, Nat.toDigits 10 n = d :: ds ∧ digitValue d ≠ 0 := by
  induction n using Nat.strong_induction_on with
  | h n ih =>
      rcases Nat.lt_or_ge n 10 with small | large
      · refine ⟨Nat.digitChar n, [], Nat.toDigits_of_lt_base small, ?_⟩
        rw [digitValue_digitChar small]
        exact Nat.ne_of_gt positive
      · obtain ⟨d, ds, first, nonzero⟩ := ih (n / 10) (by omega) (by omega)
        refine ⟨d, ds ++ [Nat.digitChar (n % 10)], ?_, nonzero⟩
        rw [Nat.toDigits_of_base_le (by decide) large, first, List.cons_append]

theorem isDigit_of_mem_toDigits {c : Char} (member : c ∈ Nat.toDigits 10 n) : c.isDigit = true :=
  Nat.isDigit_of_mem_toDigits (by decide) (by decide) member

/-- Digits denote the number that they are the digits of. -/
theorem natOfDigits_toDigits (n : Nat) :
    natOfDigits ((Nat.toDigits 10 n).map digitValue) = n := by
  rw [natOfDigits, List.foldl_map]
  refine Eq.trans ?_ (Nat.ofDigitChars_ten_toDigits (n := n))
  rw [Nat.ofDigitChars_eq_foldl]
  simp only [digitValue, Nat.mul_comm 10]

theorem digitsOf?_of_all (all : ∀ c ∈ cs, c.isDigit = true) (some_ : cs ≠ []) :
    digitsOf? cs = some (cs.map digitValue, []) := by
  have taken : cs.takeWhile Char.isDigit = cs := List.takeWhile_eq_self_iff.mpr all
  have dropped : cs.dropWhile Char.isDigit = [] := List.dropWhile_eq_nil_iff.mpr all
  rw [digitsOf?, taken, dropped]
  cases cs with
  | nil => exact absurd rfl some_
  | cons c rest => rfl

/-! ## The literal of an integer -/

/-- The parts of the text of an integer. -/
def ofInt (n : Int) : NumberLiteral :=
  ⟨decide (n < 0), (Nat.toDigits 10 n.natAbs).map digitValue, none, none⟩

theorem toList_toString (n : Int) : (toString n).toList =
    if n < 0 then '-' :: Nat.toDigits 10 n.natAbs else Nat.toDigits 10 n.natAbs := by
  rw [Int.toString_eq_repr, Int.repr_eq_if]
  split
  · rename_i nonnegative
    have size : n.toNat = n.natAbs := by omega
    rw [if_neg (by omega), Nat.toList_repr, size]
  · rename_i negative
    have size : (-n).toNat = n.natAbs := by omega
    rw [if_pos (by omega), String.toList_append, Nat.toList_repr, size]
    rfl

/-- Digits of a number are a whole part. -/
theorem whole_toDigits (n : Nat) :
    ((Nat.toDigits 10 n).map digitValue).head? = some 0 →
      (Nat.toDigits 10 n).map digitValue = [0] := by
  intro first
  rcases Nat.eq_zero_or_pos n with rfl | positive
  · rfl
  · obtain ⟨d, ds, split, nonzero⟩ := digits_eq_cons positive
    rw [split, List.map_cons, List.head?_cons] at first
    exact absurd (Option.some.inj first) nonzero

/-- The text of an integer is read as its parts. -/
theorem ofChars?_toString (n : Int) : ofChars? (toString n).toList = some (ofInt n) := by
  have digits : digitsOf? (Nat.toDigits 10 n.natAbs) =
      some ((Nat.toDigits 10 n.natAbs).map digitValue, []) :=
    digitsOf?_of_all (fun c => isDigit_of_mem_toDigits) Nat.toDigits_ne_nil
  have whole : ¬ (((Nat.toDigits 10 n.natAbs).map digitValue).head? = some 0 ∧
      (Nat.toDigits 10 n.natAbs).map digitValue ≠ [0]) :=
    fun zero => zero.2 (whole_toDigits n.natAbs zero.1)
  rw [toList_toString, ofInt]
  split
  · rename_i negative
    simp only [ofChars?, digits, Option.bind_eq_bind, Option.bind_some, if_neg whole, negative]
    rfl
  · rename_i nonnegative
    have unsigned : ∀ r, Nat.toDigits 10 n.natAbs ≠ '-' :: r := by
      intro r split
      have digit : '-'.isDigit = true :=
        isDigit_of_mem_toDigits (n := n.natAbs) (split ▸ List.mem_cons_self)
      cases digit
    rw [ofChars?]
    · simp only [digits, Option.bind_eq_bind, Option.bind_some, if_neg whole, nonnegative]
      rfl
    · exact unsigned

/-! ## What the literal denotes -/

/-- Once a digit has been left out, all are. -/
theorem foldl_absorbDigit_skipped (ds : List Nat) {absorbed : Nat × Nat}
    (some_ : absorbed.2 ≠ 0) : (ds.foldl absorbDigit absorbed).2 ≠ 0 := by
  induction ds generalizing absorbed with
  | nil => exact some_
  | cons d ds ih =>
      refine ih ?_
      rw [absorbDigit, if_neg fun both => some_ both.1]
      exact Nat.succ_ne_zero _

theorem le_foldl_digits (ds : List Nat) (m : Nat) : m ≤ ds.foldl (fun n d => n * 10 + d) m := by
  induction ds generalizing m with
  | nil => exact Nat.le_refl m
  | cons d ds ih => exact Nat.le_trans (by omega) (ih (m * 10 + d))

/-- Digits are all taken if the number fits, and then the significand is the number. -/
theorem foldl_absorbDigit (ds : List Nat) (m : Nat) :
    (ds.foldl (fun n d => n * 10 + d) m < wordBound → (ds.foldl absorbDigit (m, 0)).2 = 0) ∧
      ((ds.foldl absorbDigit (m, 0)).2 = 0 →
        (ds.foldl absorbDigit (m, 0)).1 = ds.foldl (fun n d => n * 10 + d) m) := by
  induction ds generalizing m with
  | nil => exact ⟨fun _ => rfl, fun _ => rfl⟩
  | cons d ds ih =>
      rw [List.foldl_cons, List.foldl_cons]
      by_cases fits : m * 10 + d < wordBound
      · rw [absorbDigit, if_pos ⟨rfl, fits⟩]
        exact ih (m * 10 + d)
      · have skipped : (ds.foldl absorbDigit (absorbDigit (m, 0) d)).2 ≠ 0 := by
          refine foldl_absorbDigit_skipped ds ?_
          rw [absorbDigit, if_neg fun both => fits both.2]
          exact Nat.succ_ne_zero 0
        refine ⟨fun small => ?_, fun none => absurd none skipped⟩
        exact absurd (Nat.lt_of_le_of_lt (le_foldl_digits ds (m * 10 + d)) small) fits

theorem absorbWhole_toDigits (n : Nat) :
    (n < wordBound → absorbWhole ((Nat.toDigits 10 n).map digitValue) = (n, 0)) ∧
      ((absorbWhole ((Nat.toDigits 10 n).map digitValue)).2 = 0 →
        (absorbWhole ((Nat.toDigits 10 n).map digitValue)).1 = n) := by
  have absorbed := foldl_absorbDigit ((Nat.toDigits 10 n).map digitValue) 0
  rw [← natOfDigits, natOfDigits_toDigits] at absorbed
  refine ⟨fun fits => ?_, absorbed.2⟩
  exact Prod.ext (absorbed.2 (absorbed.1 fits)) (absorbed.1 fits)

/-- The literal of an integer denotes nothing, or the integer, or a floating-point number. -/
theorem value?_ofInt {n : Int} {j : Json} (denoted : value? (ofInt n) = some j) :
    j = .int n ∨ ∃ x, j = .float x := by
  obtain ⟨-, whole⟩ := absorbWhole_toDigits n.natAbs
  rw [value?, ofInt] at denoted
  split at denoted
  rename_i m skipped absorbed
  rw [absorbed] at whole
  split at denoted
  · obtain rfl : m = n.natAbs := whole rfl
    split at denoted
    · rename_i nonnegative
      have sign : (n.natAbs : Int) = n := by
        have : ¬ n < 0 := by simpa using nonnegative
        omega
      rw [sign] at denoted
      exact .inl (Option.some.inj denoted).symm
    · rename_i negative
      split at denoted
      · have sign : -(n.natAbs : Int) = n := by
          have : n < 0 := by simpa using negative
          omega
        rw [sign] at denoted
        exact .inl (Option.some.inj denoted).symm
      · obtain ⟨x, -, rfl⟩ := Option.map_eq_some_iff.mp denoted
        exact .inr ⟨_, rfl⟩
  · obtain ⟨x, -, rfl⟩ := Option.map_eq_some_iff.mp denoted
    exact .inr ⟨_, rfl⟩

/-- An integer that fits a word is denoted by its literal. -/
theorem value?_ofInt_of_fits {n : Int} (fits : Json.fitsSigned n = true) :
    value? (ofInt n) = some (.int n) := by
  rw [Json.fitsSigned, Bool.and_eq_true, decide_eq_true_eq, decide_eq_true_eq] at fits
  have small : n.natAbs < wordBound := by
    rw [wordBound]
    omega
  rw [value?, ofInt]
  simp only [(absorbWhole_toDigits n.natAbs).1 small]
  split
  · rename_i nonnegative
    have sign : (n.natAbs : Int) = n := by
      have : ¬ n < 0 := by simpa using nonnegative
      omega
    rw [sign]
  · rename_i negative
    have sign : n < 0 := by simpa using negative
    rw [if_pos (by omega)]
    have size : -(n.natAbs : Int) = n := by omega
    rw [size]

end NumberLiteral

end ScopedAccess
