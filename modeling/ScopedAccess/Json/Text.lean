import ScopedAccess.Json.Token
/-!
# The text of values

A value is read from tokens by a machine with a stack of open containers
(`Json.Reader`): the state says what may come next. `Json.parse?` reads the value of
a text, which is in canonical form; every token has to denote something, and fewer
than 128 containers may be open at a time.

`Json.parseLoosely?` is for readers of types, who pass over what they do not look
for. It keeps the members of objects as they were written, repeated keys included,
asks nothing of the depth, and leaves `Json.noValue` where a part denotes nothing.

`Json.print` writes a value without white space. Quoted texts escape the quote, the
backslash and control characters, by a letter where one is reserved.
-/

namespace ScopedAccess

set_option autoImplicit false

/-! ## Reading -/

namespace Json

/-- The members of an object as read, last first; a key is none where its text
denotes nothing. -/
abbrev ReadMembers : Type := List (Option String × Json)

/-- The object of members read. -/
def ofReadMembers (members : ReadMembers) : Json :=
  match members.mapM fun m => m.1.map fun key => (key, m.2) with
  | some members => .obj members.reverse
  | none => noValue

/-- An open container, with what it holds so far, last first. -/
inductive Frame where
  | array (items : List Json)
  | object (members : ReadMembers) (key : Option String)

/-- What may come next. -/
inductive Expects where
  | value
  | firstItem
  | firstKey (members : ReadMembers)
  | key (members : ReadMembers)
  | colon (members : ReadMembers) (key : Option String)
  | separator
  | nothing (result : Json)

/-- A reader: what may come next, inside which containers. -/
structure Reader where
  expects : Expects
  stack : List Frame

namespace Reader

/-- A value is complete: it goes into the innermost container. -/
def complete (value : Json) : List Frame → Reader
  | [] => ⟨.nothing value, []⟩
  | .array items :: rest => ⟨.separator, .array (value :: items) :: rest⟩
  | .object members key :: rest => ⟨.separator, .object ((key, value) :: members) key :: rest⟩

/-- The step where a value may come. -/
def value? (stack : List Frame) : Token → Option Reader
  | .scalar value => some (complete (value.getD noValue) stack)
  | .text s => some (complete ((s.map Json.str).getD noValue) stack)
  | .openArray => some ⟨.firstItem, .array [] :: stack⟩
  | .openObject => some ⟨.firstKey [], stack⟩
  | _ => none

/-- The step of one token. -/
def step? (r : Reader) (t : Token) : Option Reader :=
  match r.expects, r.stack, t with
  | .value, stack, t => value? stack t
  | .firstItem, .array _ :: rest, .closeArray => some (complete (.arr []) rest)
  | .firstItem, stack, t => value? stack t
  | .firstKey _, stack, .closeObject => some (complete (.obj []) stack)
  | .firstKey members, stack, .text key => some ⟨.colon members key, stack⟩
  | .key members, stack, .text key => some ⟨.colon members key, stack⟩
  | .colon members key, stack, .colon => some ⟨.value, .object members key :: stack⟩
  | .separator, .array items :: rest, .comma => some ⟨.value, .array items :: rest⟩
  | .separator, .array items :: rest, .closeArray =>
    some (complete (.arr items.reverse) rest)
  | .separator, .object members _ :: rest, .comma => some ⟨.key members, rest⟩
  | .separator, .object members _ :: rest, .closeObject =>
    some (complete (ofReadMembers members) rest)
  | _, _, _ => none

end Reader

/-- The value that tokens make up. -/
def ofTokens? (tokens : List Token) : Option Json :=
  match tokens.foldlM Reader.step? ⟨.value, []⟩ with
  | some ⟨.nothing j, _⟩ => some j
  | _ => none

/-- Containers that may not be open at once. -/
def depthLimit : Nat := 128

/-- Whether fewer than the limit of containers are open after every token, `depth` of
them before the first. -/
def isShallow : Nat → List Token → Bool
  | _, [] => true
  | depth, t :: rest =>
    match t with
    | .openArray | .openObject => depth + 1 < depthLimit && isShallow (depth + 1) rest
    | .closeArray | .closeObject => isShallow (depth - 1) rest
    | _ => isShallow depth rest

/-- Read a value, passing over what denotes nothing. -/
def parseLoosely? (s : String) : Option Json := (Token.scan? s).bind ofTokens?

/-- Read a value. -/
def parse? (s : String) : Option Json := do
  let tokens ← Token.scan? s
  if tokens.all Token.denotes && isShallow 0 tokens then (ofTokens? tokens).map canonical
  else none

end Json

/-! ## Writing -/

namespace Json

/-- A character inside quotes. -/
def quotedChar (c : Char) : List Char :=
  match c with
  | '"' => ['\\', '"']
  | '\\' => ['\\', '\\']
  | '\x08' => ['\\', 'b']
  | '\x0c' => ['\\', 'f']
  | '\n' => ['\\', 'n']
  | '\r' => ['\\', 'r']
  | '\t' => ['\\', 't']
  | c =>
    if c.toNat < 0x20 then
      ['\\', 'u', '0', '0', hexDigit (c.toNat / 16), hexDigit (c.toNat % 16)]
    else [c]

/-- A text inside quotes. -/
def quote (s : String) : String := String.ofList ('"' :: s.toList.flatMap quotedChar ++ ['"'])

mutual

/-- The text of a value. -/
def print : Json → String
  | .null => "null"
  | .bool true => "true"
  | .bool false => "false"
  | .int n => toString n
  | .float x => x.text
  | .str s => quote s
  | .arr items => "[" ++ String.intercalate "," (printItems items) ++ "]"
  | .obj members => "\x7b" ++ String.intercalate "," (printMembers members) ++ "\x7d"

def printItems : List Json → List String
  | [] => []
  | j :: rest => print j :: printItems rest

def printMembers : List (String × Json) → List String
  | [] => []
  | (k, j) :: rest => (quote k ++ ":" ++ print j) :: printMembers rest

end

end Json

end ScopedAccess
