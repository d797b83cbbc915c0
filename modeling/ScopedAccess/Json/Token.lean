import ScopedAccess.Json.Number
import ScopedAccess.Basic
/-!
# Tokens

A text is cut into tokens by one pass over its characters (`Token.scan?`): the
state says which token the pass is inside of, and each character either extends
that token or ends it. White space is blank, tab, line feed and carriage return. In
a quoted text control characters are refused.

Two kinds of token are well formed and yet denote nothing: a number too large, and a
quoted text in which an escaped surrogate lacks its partner (`Token.denotes`).
-/

namespace ScopedAccess

set_option autoImplicit false

/-- The smallest pieces of the text of a value. -/
inductive Token where
  | openArray
  | closeArray
  | openObject
  | closeObject
  | comma
  | colon
  /-- A null, a truth value or a number; none for a number too large. -/
  | scalar (value : Option Json)
  /-- A quoted text, with its escapes undone; none with half a surrogate pair. -/
  | text (s : Option String)

namespace Token

/-- Whether the token denotes what its kind denotes. -/
def denotes : Token → Bool
  | .scalar value => value.isSome
  | .text s => s.isSome
  | _ => true

/-- What the pass is inside of. Characters read are kept last first; those of a
quoted text as code points, among them escaped surrogates. -/
inductive Scan where
  | between
  | word (read : List Char)
  | number (read : List Char)
  | quoted (read : List Nat)
  | escape (read : List Nat)
  /-- Inside an escape by code unit, `left` digits before its end. -/
  | unit (read : List Nat) (left value : Nat)

def isSpace (c : Char) : Bool := c = ' ' || c = '\t' || c = '\n' || c = '\r'

def isNumberChar (c : Char) : Bool :=
  c.isDigit || c = '-' || c = '+' || c = '.' || c = 'e' || c = 'E'

/-- The token of a word, last character first. -/
def ofWord? (read : List Char) : Option Token :=
  match String.ofList read.reverse with
  | "null" => some (.scalar (some .null))
  | "true" => some (.scalar (some (.bool true)))
  | "false" => some (.scalar (some (.bool false)))
  | _ => none

def ofNumber? (read : List Char) : Option Token :=
  (NumberLiteral.ofChars? read.reverse).map fun l => .scalar l.value?

def isHighSurrogate (n : Nat) : Bool := 0xD800 ≤ n && n < 0xDC00

def isLowSurrogate (n : Nat) : Bool := 0xDC00 ≤ n && n < 0xE000

/-- The character of a surrogate pair. -/
def joinSurrogates (high low : Nat) : Char :=
  Char.ofNat (0x10000 + (high - 0xD800) * 0x400 + (low - 0xDC00))

/-- The characters of code points, if every surrogate has its partner. -/
def charsOfUnits? : List Nat → Option (List Char)
  | [] => some []
  | u :: rest =>
    if isLowSurrogate u then none
    else if isHighSurrogate u then
      match rest with
      | v :: rest =>
        if isLowSurrogate v then (charsOfUnits? rest).map (joinSurrogates u v :: ·) else none
      | [] => none
    else (charsOfUnits? rest).map (Char.ofNat u :: ·)

/-- The token of a quoted text, last code point first. -/
def ofQuoted (read : List Nat) : Token := .text ((charsOfUnits? read.reverse).map String.ofList)

/-- The character that an escape of one character stands for. -/
def escaped? : Char → Option Char
  | '"' => some '"'
  | '\\' => some '\\'
  | '/' => some '/'
  | 'b' => some '\x08'
  | 'f' => some '\x0c'
  | 'n' => some '\n'
  | 'r' => some '\r'
  | 't' => some '\t'
  | _ => none

/-- The step from between two tokens. -/
def start? (c : Char) : Option (Scan × List Token) :=
  if isSpace c then some (.between, [])
  else if c = '"' then some (.quoted [], [])
  else if c.isLower then some (.word [c], [])
  else if c.isDigit || c = '-' then some (.number [c], [])
  else
    match c with
    | '[' => some (.between, [.openArray])
    | ']' => some (.between, [.closeArray])
    | '\x7b' => some (.between, [.openObject])
    | '\x7d' => some (.between, [.closeObject])
    | ',' => some (.between, [.comma])
    | ':' => some (.between, [.colon])
    | _ => none

/-- The step of one character: the next state and the tokens that it ends. -/
def step? : Scan → Char → Option (Scan × List Token)
  | .between, c => start? c
  | .word read, c =>
    if c.isLower then some (.word (c :: read), [])
    else do
      let token ← ofWord? read
      let (next, tokens) ← start? c
      return (next, token :: tokens)
  | .number read, c =>
    if isNumberChar c then some (.number (c :: read), [])
    else do
      let token ← ofNumber? read
      let (next, tokens) ← start? c
      return (next, token :: tokens)
  | .quoted read, c =>
    if c = '"' then some (.between, [ofQuoted read])
    else if c = '\\' then some (.escape read, [])
    else if c.toNat < 0x20 then none
    else some (.quoted (c.toNat :: read), [])
  | .escape read, c =>
    if c = 'u' then some (.unit read 4 0, [])
    else (escaped? c).map fun e => (.quoted (e.toNat :: read), [])
  | .unit read left value, c => do
    let value := 16 * value + (← hexValue? c)
    return (if left ≤ 1 then .quoted (value :: read) else .unit read (left - 1) value, [])

/-- The tokens that the end of the text ends. -/
def finish? : Scan → Option (List Token)
  | .between => some []
  | .word read => (ofWord? read).map fun t => [t]
  | .number read => (ofNumber? read).map fun t => [t]
  | _ => none

/-- The tokens of characters, from a state on. -/
def scanFrom? : Scan → List Char → Option (List Token)
  | state, [] => finish? state
  | state, c :: rest => do
    let (next, tokens) ← step? state c
    return tokens ++ (← scanFrom? next rest)

/-- The tokens of a text. -/
def scan? (s : String) : Option (List Token) := scanFrom? .between s.toList

end Token

end ScopedAccess
