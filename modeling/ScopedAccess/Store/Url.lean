import ScopedAccess.Host.Domain
/-!
# Resource locators

Whether a text is a well-formed locator, and with which scheme (`Url.scheme?`). What follows
the scheme is free unless it starts with two slashes. Then a host comes first, with a user
before it and a port after it or without them; it ends at a slash, a question mark or a
number sign. The schemes of the web need a host, and backslashes are slashes there. Files
have a host alone or none, and the letter of a drive is none.
-/

namespace ScopedAccess

set_option autoImplicit false

namespace Url

/-- The characters of a text that count: none of those up to the space at the ends, and
neither tabs nor line ends. -/
def formOf (s : String) : List Char :=
  let isOuter (c : Char) : Bool := c.toNat ≤ ' '.toNat
  let inner := ((s.toList.dropWhile isOuter).reverse.dropWhile isOuter).reverse
  inner.filter fun c => c ≠ '\t' && c ≠ '\n' && c ≠ '\r'

/-! ## Hosts -/

/-- Characters that a host may not hold in any locator. -/
def forbiddenInHost : List Char :=
  ['\x00', ' ', '#', '/', ':', '<', '>', '?', '@', '[', '\\', ']', '^', '|']

/-- Whether characters are a host. With a scheme that is known a host is a domain, with
another one any name. -/
def isHost (isKnown : Bool) : List Char → Bool
  | '[' :: rest => rest.getLast? = some ']' && Host.isLongAddress rest.dropLast
  | cs => if isKnown then Host.isDomain cs else !cs.any forbiddenInHost.contains

/-- A host and what follows it; a colon in brackets belongs to the host. -/
def splitHost (inBrackets : Bool) : List Char → List Char × List Char
  | [] => ([], [])
  | c :: cs =>
    if c = ':' && !inBrackets then ([], c :: cs)
    else
      let (host, rest) := splitHost (c = '[' || (inBrackets && c ≠ ']')) cs
      (c :: host, rest)

/-- Whether characters are a port. -/
def isPort (cs : List Char) : Bool :=
  let digits := cs.takeWhile Char.isDigit
  (digits.length = cs.length || cs[digits.length]? = some '\\') &&
    ((String.ofList digits).toNat?.all fun n => n < 2 ^ 16)

/-- The user before a host, none without the sign between them, and the host and what follows
it. -/
def splitUser (cs : List Char) : Option (List Char) × List Char :=
  let parts := cs.splitOn '@'
  (if parts.length = 1 then none else some (['@'].intercalate parts.dropLast), parts.getLastD [])

/-- Whether characters are a host of the web with a user and a port or without them. -/
def isWebAuthority (cs : List Char) : Bool :=
  let (host, port) := splitHost false (splitUser cs).2
  host ≠ [] && isHost true host && isPort (port.drop 1)

/-- Whether characters are a host with a user and a port or without them; `isWhole` is set if
they are followed by nothing. A host may be empty, but not with a user or a port. -/
def isAuthority (isWhole : Bool) (cs : List Char) : Bool :=
  let (user, place) := splitUser cs
  let (host, port) := splitHost false place
  let isBare := user = none || user = some [':'] || (user = some [] && (isWhole || place ≠ []))
  isHost false host && (host ≠ [] || (isBare && port = [])) && isPort (port.drop 1)

/-- Whether characters are the letter of a drive. -/
def isDrive : List Char → Bool
  | [letter, mark] => letter.isAlpha && (mark = ':' || mark = '|')
  | _ => false

/-! ## Schemes -/

def isSchemeChar (c : Char) : Bool := c.isAlphanum || c = '+' || c = '-' || c = '.'

/-- The schemes of the web. -/
def webSchemes : List String := ["http", "https", "ws", "wss", "ftp"]

def isSlash (c : Char) : Bool := c = '/' || c = '\\'

/-- Whether a character ends a host. -/
def isEnd (c : Char) : Bool := c = '/' || c = '?' || c = '#'

/-- Whether what follows a scheme and its colon is well formed. -/
def isBody (scheme : String) (cs : List Char) : Bool :=
  if webSchemes.contains scheme then
    isWebAuthority ((cs.dropWhile isSlash).takeWhile fun c => !isEnd c && !isSlash c)
  else if scheme = "file" then
    let host := (cs.drop 2).takeWhile fun c => !isEnd c && !isSlash c
    !((cs.take 2).length = 2 && (cs.take 2).all isSlash) || host = [] || isDrive host ||
      isHost true host
  else
    match cs with
    | '/' :: '/' :: rest =>
      let authority := rest.takeWhile (!isEnd ·)
      isAuthority (authority.length = rest.length) authority
    | _ => true

/-- The scheme of a locator in lower case, if it is well formed. -/
def scheme? (s : String) : Option String :=
  let cs := formOf s
  let scheme := cs.takeWhile isSchemeChar
  let name := (String.ofList scheme).toLower
  match scheme, cs.dropWhile isSchemeChar with
  | first :: _, ':' :: rest => if first.isAlpha && isBody name rest then some name else none
  | _, _ => none

end Url

end ScopedAccess
