import ScopedAccess.Basic
/-!
# Texts as bytes

Bytes that need not be those of characters. They fall into characters and faults
(`Utf8.parts`): a fault is a byte that cannot start a character, or the start of a character
that the next byte does not continue. Bytes are read as a text if they have no fault
(`Utf8.read`), or with a replacement for each one (`Utf8.replaced`).

In a text that is percent encoded, `%` and two hexadecimal digits stand for a byte
(`percentBytes`).
-/

namespace ScopedAccess

set_option autoImplicit false

namespace Utf8

/-- What the first byte of a character says: how many bytes follow, the bounds of the first of
them, and what is to be taken off the first byte to get its share of the code point. -/
structure Lead where
  more : Nat
  low : UInt8
  high : UInt8
  marker : Nat

/-- The least byte that continues a character. -/
def low : UInt8 := 0x80

/-- The greatest byte that continues a character. -/
def high : UInt8 := 0xBF

/-- What a byte says as the first one of a character. No character has two forms, is a
surrogate or lies beyond the code points. -/
def lead? (b : UInt8) : Option Lead :=
  if b < 0x80 then some ⟨0, low, high, 0⟩
  else if b < 0xC2 then none
  else if b < 0xE0 then some ⟨1, low, high, 0xC0⟩
  else if b = 0xE0 then some ⟨2, 0xA0, high, 0xE0⟩
  else if b = 0xED then some ⟨2, low, 0x9F, 0xE0⟩
  else if b < 0xF0 then some ⟨2, low, high, 0xE0⟩
  else if b = 0xF0 then some ⟨3, 0x90, high, 0xF0⟩
  else if b < 0xF4 then some ⟨3, low, high, 0xF0⟩
  else if b = 0xF4 then some ⟨3, low, 0x8F, 0xF0⟩
  else none

/-- How many bytes continue a character that has so many to come, the first of them within
bounds of its own. -/
def continuing (first last : UInt8) : Nat → List UInt8 → Nat
  | n + 1, b :: rest => if first ≤ b ∧ b ≤ last then continuing low high n rest + 1 else 0
  | _, _ => 0

/-- What bytes start with. -/
inductive Part where
  | char (c : Char)
  /-- Bytes of no character; the character may be cut off by the end of the bytes. -/
  | fault (isCut : Bool)

/-- What bytes start with, and how many of the other bytes belong to it. -/
def first (b : UInt8) (rest : List UInt8) : Part × Nat :=
  match lead? b with
  | none => (.fault false, 0)
  | some l =>
    let n := continuing l.low l.high l.more rest
    if n = l.more then
      let share := b.toNat - l.marker
      (.char (.ofNat ((rest.take n).foldl (fun c b => 64 * c + (b.toNat - low.toNat)) share)), n)
    else (.fault (n = rest.length), n)

/-- Bytes as characters and faults, each with its number of bytes. -/
def parts : List UInt8 → List (Part × Nat)
  | [] => []
  | b :: rest =>
    let (part, n) := first b rest
    (part, n + 1) :: parts (rest.drop n)
termination_by bytes => bytes.length
decreasing_by simp only [List.length_cons, List.length_drop]; omega

/-- The first fault of bytes. -/
structure Fault where
  /-- The number of bytes before it. -/
  index : Nat
  size : Nat
  isCut : Bool

def Fault.message (f : Fault) : String :=
  if f.isCut then s!"incomplete utf-8 byte sequence from index {f.index}"
  else s!"invalid utf-8 sequence of {f.size} bytes from index {f.index}"

/-- The characters of parts without a fault, of which the first has an index. -/
def readParts (index : Nat) : List (Part × Nat) → Except Fault (List Char)
  | [] => .ok []
  | (.char c, n) :: rest => (c :: ·) <$> readParts (index + n) rest
  | (.fault isCut, n) :: _ => .error ⟨index, n, isCut⟩

/-- The text of bytes without a fault. -/
def read (bytes : List UInt8) : Except Fault String := .ofList <$> readParts 0 (parts bytes)

/-- What stands for a fault. -/
def replacement : Char := '\uFFFD'

/-- The text of bytes with every fault replaced. -/
def replaced (bytes : List UInt8) : String :=
  .ofList <| (parts bytes).map fun p =>
    match p.1 with
    | .char c => c
    | .fault _ => replacement

end Utf8

/-! ## Percent encoding -/

/-- The bytes of characters, with every encoded byte decoded. -/
def percentBytes : List Char → List UInt8
  | '%' :: a :: b :: rest =>
    match hexValue? a, hexValue? b with
    | some high, some low => .ofNat (16 * high + low) :: percentBytes rest
    | _, _ => .ofNat '%'.toNat :: percentBytes (a :: b :: rest)
  | c :: rest => (String.singleton c).toUTF8.toList ++ percentBytes rest
  | [] => []

end ScopedAccess
