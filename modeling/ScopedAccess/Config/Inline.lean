import ScopedAccess.Json.Token
import ScopedAccess.Basic
/-!
# Values written in one line

A setting in one line of text. The text is a truth value, a number, a text in quotes, a
list in brackets or an object in braces, whose members are keys and values with an equals
sign between them; a single character may stand in single quotes. Plain text goes up to the
next comma, bracket or brace and needs no quotes.

A text that does not read as one value to its end is a text as it stands
(`Json.ofInline`).
-/

namespace ScopedAccess

set_option autoImplicit false

namespace Inline

/-- White space between the parts of a value. -/
def isSpace (c : Char) : Bool := c = ' ' || c = '\t' || c = '\n' || c = '\x0c' || c = '\r'

def skipSpaces (cs : List Char) : List Char := cs.dropWhile isSpace

/-- What ends a plain text. -/
def isSeparator (c : Char) : Bool :=
  c = ',' || c = '[' || c = ']' || c = '\x7b' || c = '\x7d'

/-- What a key without quotes is made of. -/
def isKeyChar (c : Char) : Bool := c.isAlphanum || c = '_' || c = '-'

/-! ## Numbers -/

/-- The natural of decimal digits. -/
def natural? (cs : List Char) : Option Nat :=
  match NumberLiteral.digitsOf? cs with
  | some (ds, []) => some (NumberLiteral.natOfDigits ds)
  | _ => none

/-- Whether a text starts with a minus sign, and what follows its sign. -/
def signOf : List Char → Bool × List Char
  | '-' :: cs => (true, cs)
  | '+' :: cs => (false, cs)
  | cs => (false, cs)

/-- An integer of 64 bits. -/
def integer? (cs : List Char) : Option Int :=
  let (negative, cs) := signOf cs
  (natural? cs).bind fun n =>
    if negative then (if n ≤ 2 ^ 63 then some (-(n : Int)) else none)
    else if n < 2 ^ 64 then some (n : Int) else none

/-- A number with a point, with digits before the point or after it. -/
def decimal? (cs : List Char) : Option Json :=
  let (negative, cs) := signOf cs
  let whole := (cs.takeWhile Char.isDigit).map NumberLiteral.digitValue
  match cs.dropWhile Char.isDigit with
  | '.' :: rest =>
    let fraction := (rest.takeWhile Char.isDigit).map NumberLiteral.digitValue
    if whole = [] ∧ fraction = [] then none
    else
      (NumberLiteral.exponentOf? (rest.dropWhile Char.isDigit)).map fun exponent =>
        (NumberLiteral.value? ⟨negative, whole, some fraction, exponent⟩).getD (.float .infinite)
  | _ => none

/-- The value of a plain text. -/
def ofPlain (cs : List Char) : Json :=
  let text := trimText (.ofList cs)
  match decimal? text.toList, integer? text.toList with
  | some x, _ => x
  | none, some n => .int n
  | none, none => .str text

/-- The value of the plain text or truth value at the start, and the rest. -/
def plain (cs : List Char) : Json × List Char :=
  if "true".toList.isPrefixOf cs then (.bool true, cs.drop 4)
  else if "false".toList.isPrefixOf cs then (.bool false, cs.drop 5)
  else (ofPlain (cs.takeWhile (!isSeparator ·)), cs.dropWhile (!isSeparator ·))

/-! ## Texts in quotes -/

/-- The character of hexadecimal digits, as many as given. -/
def ofHex? (count : Nat) (cs : List Char) : Option Char :=
  if cs.length = count then
    (hexNumber? cs).bind fun n => if n.isValidChar then some (Char.ofNat n) else none
  else none

/-- A control character that may not stand in quotes. -/
def isRefused (c : Char) : Bool := (c.toNat < 0x20 && c ≠ '\t') || c.toNat = 0x7f

/-- The characters up to the next quote, escapes undone, and the rest after it. -/
def quoted? (cs : List Char) : Option (List Char × List Char) :=
  match cs with
  | [] => none
  | '"' :: rest => some ([], rest)
  | '\\' :: 'u' :: rest => do
    let c ← ofHex? 4 (rest.take 4)
    let (cs, rest) ← quoted? (rest.drop 4)
    return (c :: cs, rest)
  | '\\' :: 'U' :: rest => do
    let c ← ofHex? 8 (rest.take 8)
    let (cs, rest) ← quoted? (rest.drop 8)
    return (c :: cs, rest)
  | '\\' :: e :: rest => do
    let c ← if e = '/' then none else Token.escaped? e
    let (cs, rest) ← quoted? rest
    return (c :: cs, rest)
  | c :: rest => do
    if isRefused c then none
    let (cs, rest) ← quoted? rest
    return (c :: cs, rest)
termination_by cs.length
decreasing_by all_goals simp only [List.length_cons, List.length_drop]; omega

/-- The key at the start, with the white space around it, and the rest. -/
def key? (cs : List Char) : Option (String × List Char) := do
  let (key, rest) ← match skipSpaces cs with
    | '"' :: rest => quoted? rest
    | cs =>
      match cs.takeWhile isKeyChar with
      | [] => none
      | key => some (key, cs.dropWhile isKeyChar)
  return (.ofList key, skipSpaces rest)

/-! ## Values -/

mutual

/-- The value at the start, with the white space around it, and the rest. -/
def value? : Nat → List Char → Option (Json × List Char)
  | 0, _ => none
  | fuel + 1, cs => do
    let (value, rest) ← match skipSpaces cs with
      | '[' :: rest => (items? fuel rest).map fun (items, rest) => (.arr items, rest)
      | '\x7b' :: rest => (members? fuel rest).map fun (members, rest) => (.object members, rest)
      | '"' :: rest => (quoted? rest).map fun (cs, rest) => (.str (.ofList cs), rest)
      | '\x27' :: c :: '\x27' :: rest => some (.str (.ofList [c]), rest)
      | '\x27' :: _ => none
      | cs => some (plain cs)
    return (value, skipSpaces rest)

/-- The items up to the end of a list, and the rest after it. -/
def items? : Nat → List Char → Option (List Json × List Char)
  | 0, _ => none
  | _ + 1, ']' :: rest => some ([], rest)
  | fuel + 1, cs => do
    let (value, rest) ← value? fuel cs
    match rest with
    | ',' :: rest => (items? fuel rest).map fun (items, rest) => (value :: items, rest)
    | ']' :: rest => some ([value], rest)
    | _ => none

/-- The members up to the end of an object, and the rest after it. -/
def members? : Nat → List Char → Option (List (String × Json) × List Char)
  | 0, _ => none
  | _ + 1, '\x7d' :: rest => some ([], rest)
  | fuel + 1, cs => do
    let (key, rest) ← key? cs
    let '=' :: rest := rest | none
    let (value, rest) ← value? fuel rest
    match rest with
    | ',' :: rest => (members? fuel rest).map fun (members, rest) => ((key, value) :: members, rest)
    | '\x7d' :: rest => some ([(key, value)], rest)
    | _ => none

end

end Inline

/-- The value that a line of text stands for. A value takes at most two steps for each
character, by which the reading is bounded. -/
def Json.ofInline (text : String) : Json :=
  let cs := text.toList
  match Inline.value? (2 * cs.length + 2) cs with
  | some (value, []) => value
  | _ => .str text

end ScopedAccess
