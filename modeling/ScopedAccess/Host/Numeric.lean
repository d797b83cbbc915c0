import ScopedAccess.Basic
/-!
# Numeric hosts

Hosts that are the number of an address: of 32 bits as numbers between points, where the
last number stands for all bytes that are left (`isShortAddress`), or of 128 bits as groups
of 16 between colons (`isLongAddress`).
-/

namespace ScopedAccess

set_option autoImplicit false

namespace Host

/-! ## Addresses of 32 bits -/

/-- The number that digits of a base denote. -/
def numberIn? (base : Nat) (cs : List Char) : Option Nat :=
  cs.foldlM (fun n c => ((hexValue? c).filter (· < base)).map (base * n + ·)) 0

/-- A number: hexadecimal after `0x`, octal after another zero, else decimal. The zero may be
followed by nothing. -/
def number? : List Char → Option Nat
  | [] => none
  | '0' :: 'x' :: cs | '0' :: 'X' :: cs => numberIn? 16 cs
  | '0' :: cs => numberIn? 8 cs
  | cs => numberIn? 10 cs

/-- The parts between points, without an empty one at the end. -/
def pointParts (cs : List Char) : List (List Char) :=
  let parts := cs.splitOn '.'
  if parts.getLast? = some [] then parts.dropLast else parts

/-- Whether a host is meant to be a number: its last part is one, or digits at least. -/
def endsInNumber (cs : List Char) : Bool :=
  (pointParts cs).getLast?.any fun part =>
    part ≠ [] && (part.all Char.isDigit || (number? part).isSome)

/-- Whether a host is an address of 32 bits. -/
def isShortAddress (cs : List Char) : Bool :=
  match (pointParts cs).mapM number? with
  | none => false
  | some numbers =>
    numbers.length ≤ 4 && numbers.dropLast.all (· < 256) &&
      numbers.getLast?.any fun n => n < 256 ^ (5 - numbers.length)

/-! ## Addresses of 128 bits -/

/-- Whether digits are those of a byte, in the shortest form. -/
def isByte (cs : List Char) : Bool :=
  cs.length ≤ 3 && (cs.head? ≠ some '0' || cs = ['0']) && cs ≠ [] &&
    (numberIn? 10 cs).any fun n => n < 256

/-- How many groups of 16 bits a part between colons stands for: one for hexadecimal digits,
and two for four bytes in decimal, where bytes may stand. -/
def groupsOf? (mayBeBytes : Bool) (part : List Char) : Option Nat :=
  if part ≠ [] ∧ part.length ≤ 4 ∧ (hexNumber? part).isSome then some 1
  else if mayBeBytes ∧ (part.splitOn '.').length = 4 ∧ (part.splitOn '.').all isByte then some 2
  else none

/-- The sum of the groups of parts, of which the last may be bytes or may not. -/
def groupsOfParts? (mayEndInBytes : Bool) : List (List Char) → Option Nat
  | [] => some 0
  | part :: rest => do
    return (← groupsOf? (mayEndInBytes && rest.isEmpty) part) +
      (← groupsOfParts? mayEndInBytes rest)

/-- The groups of parts with colons between them. -/
def groupsIn? (mayEndInBytes : Bool) (cs : List Char) : Option Nat :=
  groupsOfParts? mayEndInBytes (if cs = [] then [] else cs.splitOn ':')

/-- What stands before two colons in a row and what after them. -/
def splitGap : List Char → Option (List Char × List Char)
  | ':' :: ':' :: rest => some ([], rest)
  | c :: rest => (splitGap rest).map fun (front, back) => (c :: front, back)
  | [] => none

/-- Whether a host is an address of 128 bits. Groups of zeros may be left out between two
colons. -/
def isLongAddress (cs : List Char) : Bool :=
  match splitGap cs with
  | none => groupsIn? true cs = some 8
  | some (front, back) =>
    match groupsIn? false front, groupsIn? true back with
    | some m, some n => m + n ≤ 7
    | _, _ => false

end Host

end ScopedAccess
