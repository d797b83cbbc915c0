import ScopedAccess.Basic
/-!
# Binary floating point, exactly

A 64-bit floating-point number is kept as its bits. Reading and arithmetic go
through exact integers: a finite number is its sign, an integral significand and
a power of two, and `Double.ofQuotient?` rounds a quotient of naturals to the
nearest number, a half to the even significand. Two finite numbers, or a number
and an integer, are compared by their exact multiples of the smallest positive
number (`Double.scaled`).

`Double.shortest` gives the fewest decimal digits that read back, and among those
the nearest to the number.
-/

namespace ScopedAccess

set_option autoImplicit false

/-- A floating-point number of 64 bits: sign, 11 bits of exponent, 52 of fraction. -/
structure Double where
  bits : UInt64
  deriving DecidableEq

namespace Double

instance : Inhabited Double := ⟨⟨0⟩⟩

/-- The bits of what is no number. No text denotes it. -/
def notANumber : Double := ⟨0x7FF8000000000000⟩

/-- The bits of what exceeds every number. No text of a value denotes it. -/
def infinite : Double := ⟨0x7FF0000000000000⟩

def isNegative (x : Double) : Bool := 2 ^ 63 ≤ x.bits.toNat

/-- The bits without the sign. -/
def magnitude (x : Double) : Nat := x.bits.toNat % 2 ^ 63

/-- The significand and the power of two whose product is the magnitude. -/
def parts (x : Double) : Nat × Int :=
  let biased : Nat := x.magnitude / 2 ^ 52
  let fraction : Nat := x.magnitude % 2 ^ 52
  if biased = 0 then (fraction, -1074) else (fraction + 2 ^ 52, (biased : Int) - 1075)

/-- The number as a multiple of the smallest positive one, `2 ^ -1074`. -/
def scaled (x : Double) : Int :=
  let (m, e) := x.parts
  let v : Int := m * 2 ^ (e + 1074).toNat
  if x.isNegative then -v else v

/-- An integer as a multiple of `2 ^ -1074`. -/
def scaledInt (n : Int) : Int := n * 2 ^ 1074

def isZero (x : Double) : Bool := x.magnitude = 0

/-- The same number with the sign given. -/
def withSign (negative : Bool) (x : Double) : Double :=
  ⟨.ofNat ((if negative then 2 ^ 63 else 0) + x.magnitude)⟩

/-- The quotient rounded to a natural, a half to the even neighbour. -/
def roundHalfEven (num den : Nat) : Nat :=
  let q := num / den
  let r := num % den
  if den < 2 * r ∨ (2 * r = den ∧ q % 2 = 1) then q + 1 else q

/-- The exponent at which a positive quotient has a significand of 53 bits, or the
least exponent there is. -/
def exponentOf (num den : Nat) : Int :=
  let guess : Int := (num.log2 : Int) - (den.log2 : Int) - 52
  let low := if num * 2 ^ (-guess).toNat < 2 ^ 52 * den * 2 ^ guess.toNat then guess - 1 else guess
  max low (-1074)

/-- The non-negative number nearest to a quotient; none when it is too large. -/
def ofQuotient? (num den : Nat) : Option Double :=
  if num = 0 then some ⟨0⟩
  else
    let e := exponentOf num den
    let q := roundHalfEven (num * 2 ^ (-e).toNat) (den * 2 ^ e.toNat)
    let (q, e) := if q = 2 ^ 53 then (2 ^ 52, e + 1) else (q, e)
    if 971 < e then none
    else if q < 2 ^ 52 then some ⟨.ofNat q⟩
    else some ⟨.ofNat ((e + 1075).toNat * 2 ^ 52 + (q - 2 ^ 52))⟩

/-- The magnitude as a quotient of naturals. -/
def quotient (x : Double) : Nat × Nat :=
  let (m, e) := x.parts
  (m * 2 ^ e.toNat, 2 ^ (-e).toNat)

/-- The product of two magnitudes, rounded. -/
def mul? (x y : Double) : Option Double :=
  ofQuotient? (x.quotient.1 * y.quotient.1) (x.quotient.2 * y.quotient.2)

/-- The quotient of two magnitudes, rounded; the divisor is not zero. -/
def div? (x y : Double) : Option Double :=
  ofQuotient? (x.quotient.1 * y.quotient.2) (x.quotient.2 * y.quotient.1)

/-! ## The shortest decimal -/

/-- The number of decimal digits of a natural. -/
def decimalLength (n : Nat) : Nat := (Nat.toDigits 10 n).length

/-- The power of ten of the first digit of a positive quotient. -/
def decimalExponent (num den : Nat) : Int :=
  if den ≤ num then (decimalLength (num / den) : Int) - 1
  else -(decimalLength ((den + num - 1) / num - 1) : Int)

/-- The quotient `num / (den * 10 ^ k)` as a numerator and a denominator. -/
def scaleTen (num den : Nat) (k : Int) : Nat × Nat :=
  (num * 10 ^ (-k).toNat, den * 10 ^ k.toNat)

/-- Whether a decimal `d * 10 ^ k` rounds to the number with this significand and
exponent: it lies between the midpoints to both neighbours, which belong to the
number exactly when its significand is even. -/
def roundsTo (m : Nat) (e : Int) (d : Nat) (k : Int) : Bool :=
  let below := if m = 2 ^ 52 ∧ -1074 < e then 4 * m - 1 else 4 * m - 2
  let above := 4 * m + 2
  -- both sides as naturals over the common factor 2 ^ (e - 2) * 10 ^ k
  let left (b : Nat) := b * 2 ^ (e - 2).toNat * 10 ^ (-k).toNat
  let mid := d * 10 ^ k.toNat * 2 ^ (2 - e).toNat
  if m % 2 = 0 then left below ≤ mid ∧ mid ≤ left above
  else left below < mid ∧ mid < left above

/-- The nearest decimal of `n` digits that reads back, if there is one. -/
def decimalOfLength? (m : Nat) (e : Int) (n : Nat) : Option (Nat × Int) :=
  let num := m * 2 ^ e.toNat
  let den := 2 ^ (-e).toNat
  let k := decimalExponent num den - (n : Int) + 1
  let (a, b) := scaleTen num den k
  let low := a / b
  let high := low + 1
  match roundsTo m e low k, roundsTo m e high k with
  | true, true =>
    let r := a % b
    if 2 * r < b ∨ (2 * r = b ∧ low % 2 = 0) then some (low, k) else some (high, k)
  | true, false => some (low, k)
  | false, true => some (high, k)
  | false, false => none

/-- Take the factors of ten out of a positive number, into the exponent. -/
def stripZeros (d : Nat) (k : Int) : Nat → Nat × Int
  | 0 => (d, k)
  | fuel + 1 => if d ≠ 0 ∧ d % 10 = 0 then stripZeros (d / 10) (k + 1) fuel else (d, k)

/-- The fewest digits that read back as a positive number, with the power of ten
that they are multiplied by. -/
def shortest (x : Double) : Nat × Int :=
  let (m, e) := x.parts
  match (List.range' 1 17).findSome? (decimalOfLength? m e) with
  | some (d, k) => stripZeros d k 20
  | none => (m, e)

/-- The text of an exponent, with its sign. -/
def exponentChars (e : Int) : List Char :=
  'e' :: (if e < 0 then '-' else '+') :: Nat.toDigits 10 e.natAbs

/-- The text of a finite number: positional from `1e-5` below `1e16`, always with a
point; else one digit before the point and an exponent. -/
def text (x : Double) : String :=
  let sign := if x.isNegative then "-" else ""
  if x.isZero then sign ++ "0.0"
  else
    let (d, k) := x.shortest
    let ds := Nat.toDigits 10 d
    let point : Int := ds.length + k
    let body : List Char :=
      if 0 ≤ k ∧ point ≤ 16 then ds ++ List.replicate k.toNat '0' ++ ['.', '0']
      else if 0 < point ∧ point ≤ 16 then ds.take point.toNat ++ '.' :: ds.drop point.toNat
      else if -5 < point ∧ point ≤ 0 then
        ['0', '.'] ++ List.replicate (-point).toNat '0' ++ ds
      else
        let mantissa := if ds.length = 1 then ds else ds.take 1 ++ '.' :: ds.drop 1
        mantissa ++ exponentChars (point - 1)
    sign ++ String.ofList body

end Double

end ScopedAccess
