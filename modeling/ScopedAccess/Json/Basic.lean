import ScopedAccess.Double
import ScopedAccess.Sorted.Map
/-!
# Structured values

The values that filters, records and cached entries are made of. Integers and
floating-point numbers are different values (`1` is not `1.0`). An object is its
list of members; a *canonical* value has them in increasing order of their keys,
each key once (`Json.canonical`, where the last of two members with one key
wins).
-/

namespace ScopedAccess

set_option autoImplicit false

/-- A structured value. -/
inductive Json where
  | null
  | bool (b : Bool)
  | int (n : Int)
  | float (x : Double)
  | str (s : String)
  | arr (items : List Json)
  | obj (members : List (String × Json))
  deriving Inhabited, BEq

namespace Json

/-- Stands for a part of a text that is well formed and denotes no value, such as a
number too large. No value has it within, and no reader of a type takes it. -/
def noValue : Json := .float .notANumber

/-- The text of a text value. -/
def text? : Json → Option String
  | .str s => some s
  | _ => none

/-- The items of an array, none of them for any other value. -/
def items : Json → List Json
  | .arr items => items
  | _ => []

/-- The member of an object under a key. -/
def member? (key : String) : Json → Option Json
  | .obj members => members.lookup key
  | _ => none

def isObject : Json → Bool
  | .obj _ => true
  | _ => false

def isNull : Json → Bool
  | .null => true
  | _ => false

/-- The integers that fit a signed word of 64 bits. -/
def fitsSigned (n : Int) : Bool := -2 ^ 63 ≤ n && n < 2 ^ 63

/-- A value that is null where there is none. -/
def ofOption {α : Type} (f : α → Json) : Option α → Json
  | some a => f a
  | none => .null

/-- An object of the members given, put into canonical order. -/
def object (members : List (String × Json)) : Json := .obj (SortedMap.ofList members).entries

mutual

/-- The same value with the members of every object in order and each key once. -/
def canonical : Json → Json
  | .arr items => .arr (canonicalItems items)
  | .obj members => .obj (canonicalMembers members)
  | .null => .null
  | .bool b => .bool b
  | .int n => .int n
  | .float x => .float x
  | .str s => .str s

def canonicalItems : List Json → List Json
  | [] => []
  | j :: rest => canonical j :: canonicalItems rest

def canonicalMembers : List (String × Json) → List (String × Json)
  | [] => []
  | (k, j) :: rest =>
    let later := canonicalMembers rest
    if (later.lookup k).isSome then later else insertEntry k (canonical j) later

end

end Json

end ScopedAccess
