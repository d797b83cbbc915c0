/-!
# Texts, characters and instances

What the rest of the library builds on: the instances of basic types that its definitions use,
classes of characters, and texts that are blank, that have a null character or that denote a
number in hexadecimal digits. A class of characters is given by the ranges of the code points in
it.
-/

namespace ScopedAccess

set_option autoImplicit false

/-! ## Instances

Some classes have several instances for one basic type, and which of them is found depends on
what else has been imported. Those that the definitions of this library use are fixed here. -/

@[default_instance 20000]
instance (priority := 2000) natPower : Pow Nat Nat := instPowNat

@[default_instance 20000]
instance (priority := 2000) intPower : Pow Int Nat := instPowNat

/-- Two texts of which neither is below the other are the same. -/
instance (priority := 2000) textTrichotomous : Std.Trichotomous (α := String) (· < ·) :=
  ⟨fun _ _ below above => String.le_antisymm above below⟩

instance (priority := 2000) textTrans : Trans (α := String) (β := String) (γ := String)
    (· < ·) (· < ·) (· < ·) := ⟨String.lt_trans⟩

/-! ## Ranges of characters -/

/-- Whether a character lies in one of some ranges of code points, ends included. -/
def inRanges (ranges : List (Nat × Nat)) (c : Char) : Bool :=
  ranges.any fun r => r.1 ≤ c.toNat && c.toNat ≤ r.2

/-! ## Blank text

White space in the sense of the Unicode property `White_Space`, and the texts
made of it alone. The byte order mark does not have the property. -/

/-- The ranges of code points with the property `White_Space`, ends included. -/
def blankRanges : List (Nat × Nat) :=
  [(0x09, 0x0D), (0x20, 0x20), (0x85, 0x85), (0xA0, 0xA0), (0x1680, 0x1680), (0x2000, 0x200A),
    (0x2028, 0x2029), (0x202F, 0x202F), (0x205F, 0x205F), (0x3000, 0x3000)]

/-- Whether a character is white space. -/
def isBlankChar (c : Char) : Bool := inRanges blankRanges c

/-- Whether a text is empty or holds white space alone. -/
def isBlankText (s : String) : Bool := s.toList.all isBlankChar

/-- A text without the white space at both ends. -/
def trimText (s : String) : String :=
  String.ofList (((s.toList.dropWhile isBlankChar).reverse.dropWhile isBlankChar).reverse)

/-! ## Null characters

A null character ends a text where a database reads it as part of a statement, a pattern or
a path. -/

/-- Whether a text has a null character. -/
def hasNull (s : String) : Bool := s.toList.contains '\x00'

/-- A text up to its first null character. -/
def upToNull (s : String) : String := .ofList (s.toList.takeWhile (· ≠ '\x00'))

/-! ## Hexadecimal digits

Digits are written in lower case and read in either case. -/

/-- The digit of a number below 16. -/
def hexDigit (n : Nat) : Char :=
  Char.ofNat (if n < 10 then '0'.toNat + n else 'a'.toNat + (n - 10))

/-- The value of a digit. -/
def hexValue? (c : Char) : Option Nat :=
  if '0' ≤ c ∧ c ≤ '9' then some (c.toNat - '0'.toNat)
  else if 'a' ≤ c ∧ c ≤ 'f' then some (c.toNat - 'a'.toNat + 10)
  else if 'A' ≤ c ∧ c ≤ 'F' then some (c.toNat - 'A'.toNat + 10)
  else none

/-- The number that digits denote. -/
def hexNumber? (ds : List Char) : Option Nat :=
  ds.foldlM (fun n c => (hexValue? c).map (16 * n + ·)) 0

end ScopedAccess
