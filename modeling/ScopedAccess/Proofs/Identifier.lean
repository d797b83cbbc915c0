import ScopedAccess.Uuid
import Mathlib.Tactic.IntervalCases
/-!
# The canonical text of an identifier

An identifier has several written forms and one canonical text. Reading the canonical text
gives the identifier back (`Uuid.ofText?_text`), so no two identifiers share one. All
canonical texts have 36 characters, of which the first is a digit; that keeps them apart from
the texts that structured values are stored as, and lets paths of identifiers be cut at fixed
places.
-/

namespace ScopedAccess

set_option autoImplicit false

/-! ## Digits -/

theorem hexValue?_hexDigit {n : Nat} (small : n < 16) : hexValue? (hexDigit n) = some n := by
  interval_cases n <;> decide

theorem hexNumber?_append_digit {ds : List Char} {m n : Nat} (read : hexNumber? ds = some m)
    (small : n < 16) : hexNumber? (ds ++ [hexDigit n]) = some (16 * m + n) := by
  unfold hexNumber? at read ⊢
  rw [List.foldlM_append, read]
  simp [hexValue?_hexDigit small]

namespace Uuid

theorem digits_length (count n : Nat) : (digits count n).length = count := by
  induction count generalizing n with
  | zero => rfl
  | succ count ih => rw [digits, List.length_append, ih, List.length_singleton]

/-- Digits are read as the number that they are the last digits of, up to higher digits. -/
theorem hexNumber?_digits (count n : Nat) : hexNumber? (digits count n) = some (n % 16 ^ count) := by
  induction count generalizing n with
  | zero => simp [digits, hexNumber?, Nat.mod_one]
  | succ count ih =>
      have split : n % 16 ^ (count + 1) = 16 * (n / 16 % 16 ^ count) + n % 16 := by
        rw [Nat.pow_succ', Nat.mod_mul, Nat.add_comm]
      rw [digits, hexNumber?_append_digit (ih (n / 16)) (Nat.mod_lt n (by decide)), split]

/-- There is a first digit. -/
theorem digits_eq_cons (count n : Nat) :
    ∃ d < 16, ∃ rest, digits (count + 1) n = hexDigit d :: rest := by
  induction count generalizing n with
  | zero => exact ⟨n % 16, Nat.mod_lt n (by decide), [], rfl⟩
  | succ count ih =>
      obtain ⟨d, small, rest, first⟩ := ih (n / 16)
      refine ⟨d, small, rest ++ [hexDigit (n % 16)], ?_⟩
      rw [digits, first, List.cons_append]

/-! ## Groups -/

theorem hyphenate_length (ns : List Nat) (ds : List Char) (whole : ds.length = ns.sum)
    (some_ : ns ≠ []) : (hyphenate ns ds).length = ns.sum + (ns.length - 1) := by
  induction ns generalizing ds with
  | nil => exact absurd rfl some_
  | cons n rest ih =>
      rw [List.sum_cons] at whole
      cases rest with
      | nil => simp [hyphenate, whole]
      | cons m rest =>
          have first : (ds.take n).length = n := by simp [whole]
          have later := ih (ds.drop n) (by simp [whole]) (List.cons_ne_nil m rest)
          show (ds.take n ++ '-' :: hyphenate (m :: rest) (ds.drop n)).length = _
          rw [List.length_append, List.length_cons, first, later, List.sum_cons (a := n)]
          simp only [List.length_cons]
          omega

/-- Digits that were cut into groups are put together again. -/
theorem ungroup?_hyphenate (ns : List Nat) (ds : List Char) (whole : ds.length = ns.sum)
    (some_ : ns ≠ []) : ungroup? ns (hyphenate ns ds) = some ds := by
  induction ns generalizing ds with
  | nil => exact absurd rfl some_
  | cons n rest ih =>
      rw [List.sum_cons] at whole
      have first : (ds.take n).length = n := by simp [whole]
      cases rest with
      | nil =>
          have all : ds.take n = ds := List.take_of_length_le (by simp [whole])
          rw [hyphenate, ungroup?, if_pos first, all]
      | cons m rest =>
          have later := ih (ds.drop n) (by simp [whole]) (List.cons_ne_nil m rest)
          have cut : hyphenate (n :: m :: rest) ds =
              ds.take n ++ '-' :: hyphenate (m :: rest) (ds.drop n) := rfl
          have behind : (hyphenate (n :: m :: rest) ds).drop n =
              '-' :: hyphenate (m :: rest) (ds.drop n) := by
            rw [cut, List.drop_left' first]
          have before : (hyphenate (n :: m :: rest) ds).take n = ds.take n := by
            rw [cut, List.take_left' first]
          simp only [ungroup?, behind, before, later, Option.map_some, List.take_append_drop]

/-! ## The canonical text -/

theorem chars_length (u : Uuid) : u.chars.length = 36 :=
  hyphenate_length groups (digits 32 u.toNat) (digits_length 32 _) (by decide)

/-- The canonical text starts with a digit. -/
theorem chars_eq_cons (u : Uuid) : ∃ d < 16, ∃ rest, u.chars = hexDigit d :: rest := by
  obtain ⟨d, small, rest, first⟩ := digits_eq_cons 31 u.toNat
  exact ⟨d, small, _, by rw [chars, first]; rfl⟩

theorem ofHyphenated?_chars (u : Uuid) : ofHyphenated? u.chars = some u := by
  have whole : u.toNat % 16 ^ 32 = u.toNat := Nat.mod_eq_of_lt u.bits.isLt
  rw [ofHyphenated?, chars, ungroup?_hyphenate groups _ (digits_length 32 _) (by decide),
    Option.bind_some, ofDigits?, if_pos (digits_length 32 _), hexNumber?_digits, whole]
  exact congrArg some (ext_bits (by simp [ofNat, toNat]))

/-- The canonical text of an identifier denotes it. -/
theorem ofText?_text (u : Uuid) : ofText? u.text = some u := by
  obtain ⟨d, small, rest, first⟩ := chars_eq_cons u
  have noBrace : hexDigit d ≠ '\x7b' := by interval_cases d <;> decide
  have noWord : (hexDigit d).toLower ≠ 'u' := by interval_cases d <;> decide
  have long : (hexDigit d :: rest).length ≠ 32 := by rw [← first, chars_length]; decide
  have other : ((hexDigit d :: rest).take urnWord.length).map Char.toLower ≠ urnWord := by
    intro same
    exact noWord (List.cons.inj same).1
  have read := ofHyphenated?_chars u
  rw [first] at read
  rw [ofText?, text, String.toList_ofList, first]
  unfold ofChars?
  split
  · rename_i brace
    exact absurd (List.cons.inj brace).1 noBrace
  · rw [if_neg long, if_neg other, read]

/-- No two identifiers have one canonical text. -/
theorem text_inj {a b : Uuid} : a.text = b.text ↔ a = b := by
  constructor
  · intro same
    have read := ofText?_text a
    rw [same, ofText?_text] at read
    exact (Option.some.inj read).symm
  · exact congrArg text

theorem chars_inj {a b : Uuid} : a.chars = b.chars ↔ a = b := by
  constructor
  · intro same
    exact text_inj.mp (congrArg String.ofList same)
  · exact congrArg chars

end Uuid

end ScopedAccess
