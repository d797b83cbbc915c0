import ScopedAccess.Basic
/-!
# Punycode

How the name of a host is written in ASCII alone. The characters of ASCII come first, up to
the last hyphen; numbers of digits in base 36 follow, one for each other character. A number
says how many steps to go on, through all places of the text and then through the next code
point, until the character is put in.
-/

namespace ScopedAccess

set_option autoImplicit false

namespace Punycode

/-- The value of a digit: the letters, in either case, come before the figures. -/
def digit? (c : Char) : Option Nat :=
  if 'a' ≤ c ∧ c ≤ 'z' then some (c.toNat - 'a'.toNat)
  else if 'A' ≤ c ∧ c ≤ 'Z' then some (c.toNat - 'A'.toNat)
  else if '0' ≤ c ∧ c ≤ '9' then some (c.toNat - '0'.toNat + 26)
  else none

/-- The digit from which on a number goes on, at the place that `k` counts in steps of 36. -/
def threshold (bias k : Nat) : Nat := if k ≤ bias then 1 else min 26 (k - bias)

/-- The greatest number that is read. -/
def bound : Nat := 2 ^ 32

/-- Read a number, the least significant digit first, and add it to `sum`. -/
def number? (bias : Nat) (k weight sum : Nat) : List Char → Option (Nat × List Char)
  | [] => none
  | c :: rest => do
    let d ← digit? c
    let sum := sum + d * weight
    if bound ≤ sum then none
    else if d < threshold bias k then some (sum, rest)
    else
      let weight := weight * (36 - threshold bias k)
      if bound ≤ weight then none else number? bias (k + 36) weight sum rest

theorem number?_length {bias k weight sum : Nat} {cs : List Char} {r : Nat × List Char}
    (h : number? bias k weight sum cs = some r) : r.2.length < cs.length := by
  induction cs generalizing k weight sum with
  | nil => simp [number?] at h
  | cons c rest ih =>
    rw [number?] at h
    obtain ⟨d, -, h⟩ := Option.bind_eq_some_iff.1 h
    dsimp only at h
    split at h
    · cases h
    · split at h
      · cases h
        simp
      · split at h
        · cases h
        · exact Nat.lt_succ_of_lt (ih h)

/-- How far a step was, in digits that are not the last. -/
def stepDigits (delta k : Nat) : Nat :=
  if h : 455 < delta then stepDigits (delta / 35) (k + 36) else k + 36 * delta / (delta + 38)
termination_by delta
decreasing_by exact Nat.div_lt_self (by omega) (by omega)

/-- The bias after a number of steps, in a text of some length; the first number is taken for
much less than it is. -/
def nextBias (delta length : Nat) (isFirst : Bool) : Nat :=
  let delta := if isFirst then delta / 700 else delta / 2
  stepDigits (delta + delta / length) 0

/-- Put characters into a text: from the code point and the place to go on from. -/
def insertAll? (bias code place : Nat) (text : List Char) : List Char → Option (List Char)
  | [] => some text
  | c :: rest =>
    match _ : number? bias 36 1 place (c :: rest) with
    | none => none
    | some (steps, rest') =>
      let length := text.length + 1
      let code := code + steps / length
      if Nat.isValidChar code then
        insertAll? (nextBias (steps - place) length (place = 0)) code (steps % length + 1)
          (text.insertIdx (steps % length) (.ofNat code)) rest'
      else none
termination_by cs => cs.length
decreasing_by exact number?_length ‹_›

/-- The text that is written. -/
def decode? (cs : List Char) : Option (List Char) :=
  let digits := (cs.reverse.takeWhile (· ≠ '-')).reverse
  let plain := cs.take (cs.length - digits.length - 1)
  insertAll? 72 128 0 plain (if plain = [] then cs else digits)

end Punycode

end ScopedAccess
