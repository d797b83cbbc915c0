import ScopedAccess.Json.Basic
/-!
# Number literals

The number that a literal denotes. A literal without point and exponent is an
integer if it fits 64 bits, signed or unsigned; `-0` is the floating-point zero
with a sign. Every other literal is a floating-point number: as many of its digits
as fit 64 bits make a significand, which is rounded and then multiplied or divided
by a rounded power of ten. This loses at most a few units in the last place, and
a reader that follows it gets the same bits. A literal too large is no number.
-/

namespace ScopedAccess

set_option autoImplicit false

/-- The parts of a number literal. -/
structure NumberLiteral where
  negative : Bool
  whole : List Nat
  /-- The digits after the point, if there is one. -/
  fraction : Option (List Nat)
  /-- The sign and the digits of the exponent, if there is one. -/
  exponent : Option (Bool × List Nat)

namespace NumberLiteral

def digitValue (c : Char) : Nat := c.toNat - '0'.toNat

/-- The digits at the start of a text, at least one, and the rest. -/
def digitsOf? (cs : List Char) : Option (List Nat × List Char) :=
  match cs.takeWhile Char.isDigit with
  | [] => none
  | ds => some (ds.map digitValue, cs.dropWhile Char.isDigit)

def exponentOf? : List Char → Option (Option (Bool × List Nat))
  | [] => some none
  | mark :: rest =>
    if mark = 'e' ∨ mark = 'E' then
      let (negative, rest) := match rest with
        | '-' :: r => (true, r)
        | '+' :: r => (false, r)
        | r => (false, r)
      match digitsOf? rest with
      | some (ds, []) => some (some (negative, ds))
      | _ => none
    else none

/-- Read a literal; a whole part of several digits does not start with zero. -/
def ofChars? (cs : List Char) : Option NumberLiteral := do
  let (negative, cs) := match cs with
    | '-' :: r => (true, r)
    | r => (false, r)
  let (whole, cs) ← digitsOf? cs
  if whole.head? = some 0 ∧ whole ≠ [0] then none
  else
    match cs with
    | '.' :: r =>
      let (fraction, r) ← digitsOf? r
      let exponent ← exponentOf? r
      return ⟨negative, whole, some fraction, exponent⟩
    | r =>
      let exponent ← exponentOf? r
      return ⟨negative, whole, none, exponent⟩

/-- The numbers below this bound fit an unsigned word. -/
def wordBound : Nat := 2 ^ 64

/-- Append a digit to a significand, with the count of digits left out, unless it does
not fit or another before it did not. -/
def absorbDigit (absorbed : Nat × Nat) (d : Nat) : Nat × Nat :=
  if absorbed.2 = 0 ∧ absorbed.1 * 10 + d < wordBound then (absorbed.1 * 10 + d, 0)
  else (absorbed.1, absorbed.2 + 1)

/-- The whole digits that fit a word as a significand, and how many do not: from
the first that does not fit, all are left out. -/
def absorbWhole (ds : List Nat) : Nat × Nat := ds.foldl absorbDigit (0, 0)

/-- Append fraction digits to a significand until one does not fit; the count of
those taken. -/
def absorbFraction (m : Nat) : List Nat → Nat × Nat
  | [] => (m, 0)
  | d :: ds =>
    if m * 10 + d < wordBound then
      let (m', taken) := absorbFraction (m * 10 + d) ds
      (m', taken + 1)
    else (m, 0)

def natOfDigits (ds : List Nat) : Nat := ds.foldl (fun n d => n * 10 + d) 0

/-- The largest power of ten that a factor may have. -/
def maxPower : Nat := 308

def powerOfTen? (k : Nat) : Option Double := Double.ofQuotient? (10 ^ k) 1

/-- Divide by a power of ten, in steps of the largest factor. -/
def divideTen? (x : Double) (k : Nat) : Option Double :=
  if x.isZero then some x
  else if _h : maxPower < k then do divideTen? (← x.div? (← powerOfTen? maxPower)) (k - maxPower)
  else do x.div? (← powerOfTen? k)
termination_by k
decreasing_by exact Nat.sub_lt (Nat.lt_trans (by decide) _h) (by decide)

/-- The significand times a power of ten. -/
def scale? (m : Nat) (k : Int) : Option Double := do
  let x ← Double.ofQuotient? m 1
  if x.isZero then return x
  else if k < 0 then divideTen? x (-k).toNat
  else if k ≤ maxPower then x.mul? (← powerOfTen? k.toNat)
  else none

/-- Exponents beyond a signed word of 32 bits are not computed with. -/
def maxExponent : Nat := 2 ^ 31 - 1

/-- The number of a literal, if it is not too large. -/
def value? (l : NumberLiteral) : Option Json :=
  let (m, skipped) := absorbWhole l.whole
  match l.fraction, l.exponent, skipped with
  | none, none, 0 =>
    if !l.negative then some (.int m)
    else if 0 < m ∧ m ≤ 2 ^ 63 then some (.int (-(m : Int)))
    else (Double.ofQuotient? m 1).map fun x => .float (x.withSign true)
  | _, _, _ =>
    let (m, taken) := absorbFraction m (l.fraction.getD [])
    let start : Int := (skipped : Int) - taken
    let x? := match l.exponent with
      | none => scale? m start
      | some (negative, ds) =>
        let e := natOfDigits ds
        if maxExponent < e then (if negative ∨ m = 0 then some ⟨0⟩ else none)
        else scale? m (if negative then start - e else start + e)
    x?.map fun x => .float (x.withSign l.negative)

end NumberLiteral

end ScopedAccess
