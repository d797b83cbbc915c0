import ScopedAccess.Filter.Predicate
import Mathlib.Data.List.SplitBy
/-!
# A reader of conditions

Reads the text of a condition, with the values for its places, back to a predicate. A text is cut
into words, which are the longest runs of characters of one kind, and single marks; the places are
given their values in order (`bound?`). What the words mean goes by where they stand, so a column
may be called like a keyword. `OR` binds weaker than `AND`, which binds weaker than a test:

    condition ::= conjunction { OR conjunction }
    conjunction ::= part { AND part }
    part ::= ( condition ) | 1 = 1 | 1 = 0 | column test
    column ::= word . word
    test ::= sign ? | [NOT] IN ( [ ? { , ? } ] )
      | IN ( SELECT column FROM word word [WHERE condition] )
      | IS [NOT] NULL | LIKE ? ESCAPE '\' | BETWEEN ? AND ?

Blank text is the condition that is always true.
-/

namespace ScopedAccess

set_option autoImplicit false

namespace Reader

/-! ## Words -/

/-- The kinds of characters that words are made of. -/
inductive Kind where
  | name
  | sign
  | quote
  deriving DecidableEq

/-- The kind of a character; a character without one stands alone. -/
def kind? (c : Char) : Option Kind :=
  if c.isAlphanum || c = '_' || 0x80 ≤ c.toNat then some .name
  else if c = '<' || c = '=' || c = '>' then some .sign
  else if c = '\'' || c = '\\' then some .quote
  else none

/-- Whether a word goes on from one character to the next. -/
def runsOn (c d : Char) : Bool := (kind? c).isSome && kind? c == kind? d

/-- The words and marks of a text. -/
def words (text : List Char) : List String :=
  ((text.splitBy runsOn).filter fun w => !w.all Char.isWhitespace).map String.ofList

/-! ## Tokens -/

/-- A word, or a place with the value that is bound to it. -/
inductive Token where
  | word (w : String)
  | value (v : Json)

/-- How a predicate is read off tokens: it comes with the tokens that are left. -/
abbrev Reading : Type := List Token → Option (Predicate × List Token)

/-- Give the places among words their values in order. There have to be as many of both. -/
def bound? : List String → List Json → Option (List Token)
  | [], [] => some []
  | [], _ :: _ => none
  | w :: ws, vs =>
    if w = "?" then vs.head?.bind fun v => (bound? ws vs.tail).map (.value v :: ·)
    else (bound? ws vs).map (.word w :: ·)

/-- What is left behind a word that has to come first. -/
def expect? (w : String) : List Token → Option (List Token)
  | .word w' :: rest => if w' = w then some rest else none
  | _ => none

/-! ## Tests -/

/-- The comparison that a sign stands for. -/
def comparison? (sign : String) : Option Comparison :=
  [Comparison.eq, .ne, .gt, .ge, .lt, .le].find? fun op => op.sql = sign

/-- Values up to the end of their list, at least one. -/
def someValues? : List Token → Option (List Json × List Token)
  | .value v :: .word ")" :: rest => some ([v], rest)
  | .value v :: .word "," :: rest => (someValues? rest).map fun r => (v :: r.1, r.2)
  | _ => none

/-- Values up to the end of their list. -/
def values? : List Token → Option (List Json × List Token)
  | .word ")" :: rest => some ([], rest)
  | ts => someValues? ts

/-- What a column is looked for in: the rest of a subquery, given how its filter is read. -/
def subquery? (nested : Reading) (c : Column) : Reading
  | .word label :: .word "." :: .word column :: .word "FROM" :: .word table :: .word label' ::
      rest =>
    if label' = label then
      match rest with
      | .word ")" :: rest => some (.subquery c ⟨table, label, column⟩ (.const true), rest)
      | .word "WHERE" :: rest => do
        let (filter, rest) ← nested rest
        let rest ← expect? ")" rest
        return (.subquery c ⟨table, label, column⟩ filter, rest)
      | _ => none
    else none
  | _ => none

/-- What is asked of a column. -/
def test? (nested : Reading) (c : Column) : Reading
  | .word "IN" :: .word "(" :: .word "SELECT" :: rest => subquery? nested c rest
  | .word "IN" :: .word "(" :: rest => (values? rest).map fun r => (.among c r.1 false, r.2)
  | .word "NOT" :: .word "IN" :: .word "(" :: rest =>
    (values? rest).map fun r => (.among c r.1 true, r.2)
  | .word "IS" :: .word "NULL" :: rest => some (.null c false, rest)
  | .word "IS" :: .word "NOT" :: .word "NULL" :: rest => some (.null c true, rest)
  | .word "LIKE" :: .value (.str pattern) :: .word "ESCAPE" :: .word "'\\'" :: rest =>
    some (.like c pattern, rest)
  | .word "BETWEEN" :: .value lower :: .word "AND" :: .value upper :: rest =>
    some (.between c ⟨lower, true⟩ ⟨upper, true⟩, rest)
  | .word sign :: .value v :: rest => (comparison? sign).map fun op => (.compare c op v, rest)
  | _ => none

/-! ## Conditions -/

/-- A part of a conjunction, given how a condition in parentheses is read. -/
def part? (nested : Reading) : Reading
  | .word "(" :: rest => do
    let (p, rest) ← nested rest
    let rest ← expect? ")" rest
    return (p, rest)
  | .word "1" :: .word "=" :: .word "1" :: rest => some (.const true, rest)
  | .word "1" :: .word "=" :: .word "0" :: rest => some (.const false, rest)
  | .word label :: .word "." :: .word name :: rest => test? nested ⟨label, name⟩ rest
  | _ => none

/-- Items with a word between them, a bounded number. -/
def chain? (between : String) (item? : Reading) :
    Nat → List Token → Option (List Predicate × List Token)
  | 0, _ => none
  | n + 1, ts => do
    let (p, rest) ← item? ts
    match expect? between rest with
    | none => return ([p], rest)
    | some rest => do
      let (ps, rest) ← chain? between item? n rest
      return (p :: ps, rest)

/-- Items with a word between them; there are not more of them than tokens. -/
def items? (between : String) (item? : Reading) (ts : List Token) :
    Option (List Predicate × List Token) :=
  chain? between item? (ts.length + 1) ts

def conjunction? (nested : Reading) : Reading := fun ts =>
  (items? "AND" (part? nested) ts).map fun r => (.conj r.1, r.2)

/-- A condition whose parentheses are nested up to a depth. -/
def condition? : Nat → Reading
  | 0, _ => none
  | depth + 1, ts =>
    (items? "OR" (conjunction? (condition? depth)) ts).map fun r => (.disj r.1, r.2)

/-- Read a text with the values for its places as a condition, all of it. -/
def read? (text : String) (values : List Json) : Option Predicate := do
  let tokens ← bound? (words text.toList) values
  if tokens.isEmpty then return .const true
  let (p, rest) ← condition? (tokens.length + 1) tokens
  if rest.isEmpty then return p else none

example : read? "a.x = ? OR a.AND < ? AND a.z IS NULL" [.int 1, .int 2] =
    some (.any [.compare ⟨"a", "x"⟩ .eq (.int 1),
      .all [.compare ⟨"a", "AND"⟩ .lt (.int 2), .null ⟨"a", "z"⟩ false]]) := rfl

end Reader

end ScopedAccess
