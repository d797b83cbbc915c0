import ScopedAccess.Json.Text
import ScopedAccess.Uuid
/-!
# Typed reading

How values of a type are read from a structured value. A record type reads from
an object, by field names, or from an array, by position (`Json.fields?`). In an
object no field may be given twice, and a strict type refuses names it does not
know. A field left out is an error unless the type states a default for it, or,
in an object, unless it is optional; a null is accepted by optional fields only.

Data is read exactly, and settings are read loosely (`Json.Manner`).
-/

namespace ScopedAccess

set_option autoImplicit false

namespace Json

/-- How a value is read as one of a type. -/
inductive Manner where
  | exact
  /-- An array may go on past the fields, a word may be the first of several keys, and an
  identifier may be a list of its bytes. -/
  | loose
  deriving DecidableEq

/-- What was given for a field. -/
inductive FieldValue where
  | given (value : Json)
  /-- Not named in an object. -/
  | unnamed
  /-- Past the end of an array. -/
  | pastEnd

/-- What was given for each field of a record type. -/
def Fields : Type := String → FieldValue

/-- No name of the list is the key of two members. -/
def namesOnce (names : List String) (members : List (String × Json)) : Bool :=
  names.all fun name => members.countP (fun m => m.1 = name) ≤ 1

/-- The fields given for a record type with these field names, in order; a strict type
knows no others. -/
def fields? (m : Manner) (strict : Bool) (names : List String) : Json → Option Fields
  | .obj members =>
    if namesOnce names members && (!strict || members.all fun m => names.contains m.1) then
      some fun name =>
        match members.lookup name with
        | some value => .given value
        | none => .unnamed
    else none
  | .arr items =>
    if m = .loose || items.length ≤ names.length then
      some fun name =>
        match (names.zip items).lookup name with
        | some value => .given value
        | none => .pastEnd
    else none
  | _ => none

namespace FieldValue

variable {α : Type}

/-- A field that must be given. -/
def required (read : Json → Option α) : FieldValue → Option α
  | .given value => read value
  | .unnamed | .pastEnd => none

/-- A field with a default. -/
def orElse (default : α) (read : Json → Option α) : FieldValue → Option α
  | .given value => read value
  | .unnamed | .pastEnd => some default

/-- Read a value, or none from null. -/
def nullable (read : Json → Option α) : Json → Option (Option α)
  | .null => some none
  | value => (read value).map some

/-- An optional field with no default: an array has to reach it. -/
def optional (read : Json → Option α) : FieldValue → Option (Option α)
  | .given value => nullable read value
  | .unnamed => some none
  | .pastEnd => none

/-- An optional field, none by default. -/
def optionalOrNone (read : Json → Option α) : FieldValue → Option (Option α) :=
  orElse none (nullable read)

end FieldValue

/-! ## Readers of plain types -/

def readText? : Json → Option String
  | .str s => some s
  | _ => none

def readBool? : Json → Option Bool
  | .bool b => some b
  | _ => none

/-- A signed integer of 64 bits. -/
def readSigned? : Json → Option Int
  | .int n => if fitsSigned n then some n else none
  | _ => none

/-- A natural below `2 ^ width`. -/
def readNat? (width : Nat) : Json → Option Nat
  | .int (.ofNat n) => if n < 2 ^ width then some n else none
  | _ => none

/-- An identifier from its text or, read loosely, from its bytes. -/
def readUuid? (m : Manner) : Json → Option Uuid
  | .str s => Uuid.ofText? s
  | .arr bytes =>
    if m = .loose && 16 ≤ bytes.length then
      ((bytes.take 16).mapM (readNat? 8)).map Uuid.ofBytes
    else none
  | _ => none

def readList? {α : Type} (read : Json → Option α) : Json → Option (List α)
  | .arr items => items.mapM read
  | _ => none

def readUuidSet? (m : Manner) (j : Json) : Option (SortedSet Uuid) :=
  (readList? (readUuid? m) j).map SortedSet.ofList

def readTextSet? (j : Json) : Option (SortedSet String) :=
  (readList? readText? j).map SortedSet.ofList

/-- A map from texts, read from an object; of two members with one key the last
wins. -/
def readMap? {α : Type} (read : Json → Option α) : Json → Option (SortedMap String α)
  | .obj members =>
    (members.mapM fun m => (read m.2).map fun a => (m.1, a)).map SortedMap.ofList
  | _ => none

/-- One of a list of words, also given as the key of an object, with null. -/
def readWord? {α : Type} (words : List (String × α)) (m : Manner) : Json → Option α
  | .str s => words.lookup s
  | .obj ((s, .null) :: others) => if m = .loose || others.isEmpty then words.lookup s else none
  | _ => none

/-! ## Writers of plain types -/

def ofUuid (u : Uuid) : Json := .str u.text

def ofNat (n : Nat) : Json := .int n

def ofUuids (s : SortedSet Uuid) : Json := .arr (s.toList.map ofUuid)

def ofTexts (s : SortedSet String) : Json := .arr (s.toList.map .str)

end Json

end ScopedAccess
