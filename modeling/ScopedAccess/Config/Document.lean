import ScopedAccess.Json.Text
/-!
# Configuration documents

A configuration is a document whose texts stand in quotes and may go over several lines.
Three characters end a line there: the next line (`U+0085`) and the separators of lines and
of paragraphs (`U+2028`, `U+2029`). A line end is folded together with the spaces around it
(`Document.foldRun`); a line feed that is escaped is no line end.

A document is refused as a whole if it holds a character that is not printable, a line that
marks the border of a document, or a key that is too long or does not end on its line.
-/

namespace ScopedAccess

set_option autoImplicit false

namespace Document

def nextLine : Char := '\u0085'

/-- Whether a character ends a line. -/
def isBreak (c : Char) : Bool := c = nextLine || c = '\u2028' || c = '\u2029'

/-- Whether a character is folded away at the end of a line. -/
def isFolded (c : Char) : Bool := c = ' ' || isBreak c

/-- Whether a character may stand in a document, escaped if it is below the space. -/
def isPrintable (c : Char) : Bool :=
  !(0x7F ≤ c.toNat && c.toNat < 0xA0 && c ≠ nextLine) && c.toNat ≠ 0xFFFE && c.toNat ≠ 0xFFFF

/-- What spaces and line ends between two words stand for. Without a line end they stand for
themselves. Of several line ends the first is left out, and one alone is a space; a separator
of lines or paragraphs is kept all the same. -/
def foldRun (run : List Char) : List Char :=
  let kept (c : Char) := if c = nextLine then '\n' else c
  match run.filter isBreak with
  | [] => run
  | first :: more =>
    if first ≠ nextLine then first :: more.map kept
    else if more = [] then [' ']
    else more.map kept

/-- The words of a text and, between them, what is folded. -/
def runs (cs : List Char) : List (List Char) := cs.splitBy fun a b => isFolded a == isFolded b

/-- Whether a line starts with the mark of a border between documents. -/
def hasBorder : List (List Char) → Bool
  | gap :: word :: next :: rest =>
    (gap.getLast?.any isBreak && (word = "---".toList || word = "...".toList)) ||
      hasBorder (word :: next :: rest)
  | _ => false

/-- The text that is read where a text was written. -/
def textOf? (s : String) : Option String :=
  let rs := runs s.toList
  if s.toList.all isPrintable && !hasBorder rs then some (.ofList (rs.flatMap foldRun)) else none

/-- The most bytes that a key may take, its quotes and escapes included. -/
def maxKeySize : Nat := 1024

/-- Whether a key may stand in a document. -/
def acceptsKey (key : String) : Bool :=
  key.toList.all (fun c => isPrintable c && !isBreak c) &&
    (Json.quote key).utf8ByteSize ≤ maxKeySize

mutual

/-- The value that is read where a value was written. -/
def read? : Json → Option Json
  | .str s => (textOf? s).map .str
  | .arr items => (readItems? items).map .arr
  | .obj members => (readMembers? members).map .obj
  | .null => some .null
  | .bool b => some (.bool b)
  | .int n => some (.int n)
  | .float x => some (.float x)

def readItems? : List Json → Option (List Json)
  | [] => some []
  | value :: rest => do return (← read? value) :: (← readItems? rest)

def readMembers? : List (String × Json) → Option (List (String × Json))
  | [] => some []
  | (key, value) :: rest =>
    if acceptsKey key then do return (key, ← read? value) :: (← readMembers? rest) else none

end

end Document

end ScopedAccess
