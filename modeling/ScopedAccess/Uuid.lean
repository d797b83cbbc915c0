import ScopedAccess.Sorted.Map
import ScopedAccess.Basic
/-!
# Identifiers

A 128-bit identifier, its canonical text (`Uuid.text`: lower-case digits in
groups of 8, 4, 4, 4 and 12) and the texts that denote one (`Uuid.ofText?`):
hyphenated, plain digits, hyphenated in braces, or hyphenated after `urn:uuid:`.
Digits and the word `urn:uuid:` are read in either case. Identifiers are ordered
as numbers, which is also the order of their canonical texts.
-/

namespace ScopedAccess

set_option autoImplicit false

/-- A 128-bit identifier. -/
structure Uuid where
  bits : BitVec 128
  deriving DecidableEq

namespace Uuid

def ofNat (n : Nat) : Uuid := ⟨.ofNat 128 n⟩

def toNat (u : Uuid) : Nat := u.bits.toNat

/-- The identifier of bytes, the most significant first. -/
def ofBytes (bytes : List Nat) : Uuid := ofNat (bytes.foldl (fun n b => 256 * n + b) 0)

/-- The identifier with all bits zero. -/
def nil : Uuid := ofNat 0

instance : Inhabited Uuid := ⟨nil⟩

instance : LT Uuid := ⟨fun a b => a.bits < b.bits⟩

instance : DecidableLT Uuid := fun a b => inferInstanceAs (Decidable (a.bits < b.bits))

theorem ext_bits {a b : Uuid} (h : a.bits = b.bits) : a = b := by
  cases a; cases b; cases h; rfl

instance : Std.Irrefl (α := Uuid) (· < ·) := ⟨fun a => Std.Irrefl.irrefl (r := (· < ·)) a.bits⟩

instance : Std.Asymm (α := Uuid) (· < ·) :=
  ⟨fun a b => Std.Asymm.asymm (r := (· < ·)) a.bits b.bits⟩

instance : Trans (α := Uuid) (β := Uuid) (γ := Uuid) (· < ·) (· < ·) (· < ·) :=
  ⟨fun {a b c} (hab : a.bits < b.bits) (hbc : b.bits < c.bits) =>
    (Std.lt_trans hab hbc : a.bits < c.bits)⟩

instance : Std.Trichotomous (α := Uuid) (· < ·) where
  trichotomous a b hab hba :=
    ext_bits ((Std.lt_trichotomy a.bits b.bits).elim (absurd · hab) (·.elim id (absurd · hba)))

/-- The last `count` digits of a number, most significant first. -/
def digits : Nat → Nat → List Char
  | 0, _ => []
  | count + 1, n => digits count (n / 16) ++ [hexDigit (n % 16)]

/-- Lengths of the hyphen-separated groups of digits. -/
def groups : List Nat := [8, 4, 4, 4, 12]

/-- Cut digits into groups with a hyphen between two. -/
def hyphenate : List Nat → List Char → List Char
  | [], _ => []
  | [n], ds => ds.take n
  | n :: ns, ds => ds.take n ++ '-' :: hyphenate ns (ds.drop n)

def chars (u : Uuid) : List Char := hyphenate groups (digits 32 u.toNat)

/-- The canonical text. -/
def text (u : Uuid) : String := String.ofList u.chars

/-- The digits of a text cut into groups by hyphens, and nothing else. -/
def ungroup? : List Nat → List Char → Option (List Char)
  | [], _ => none
  | [n], cs => if cs.length = n then some cs else none
  | n :: ns, cs =>
    match cs.drop n with
    | '-' :: rest => (ungroup? ns rest).map (cs.take n ++ ·)
    | _ => none

def ofDigits? (ds : List Char) : Option Uuid :=
  if ds.length = 32 then (hexNumber? ds).map ofNat else none

def ofHyphenated? (cs : List Char) : Option Uuid := (ungroup? groups cs).bind ofDigits?

/-- The word that introduces an identifier written as a resource name. -/
def urnWord : List Char := "urn:uuid:".toList

/-- The identifier that characters denote. -/
def ofChars? (cs : List Char) : Option Uuid :=
  match cs with
  | '\x7b' :: rest =>
    if rest.getLast? = some '\x7d' then ofHyphenated? rest.dropLast else none
  | _ =>
    if cs.length = 32 then ofDigits? cs
    else if (cs.take urnWord.length).map Char.toLower = urnWord then
      ofHyphenated? (cs.drop urnWord.length)
    else ofHyphenated? cs

/-- The identifier that a text denotes. -/
def ofText? (s : String) : Option Uuid := ofChars? s.toList

end Uuid

end ScopedAccess
