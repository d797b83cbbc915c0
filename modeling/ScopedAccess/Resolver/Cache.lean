import ScopedAccess.Privilege.Summary
import ScopedAccess.Uuid
/-!
# Cached privileges

The cache holds texts under three families of keys:

* the entry of a role set, a user and an organization (`entryKey`);
* the role set that a user held last (`pointerKey`), the only way to entries;
* all role sets that have entries for a user (`roleSetsKey`), so that they can be
  removed together (`entriesStart`).

An entry is the text of privileges with the time at which they have to be resolved again because
an assignment they rest on ends. A role set is written as its ids in increasing order, separated
by commas, and a list of role sets with semicolons between them.
-/

namespace ScopedAccess

set_option autoImplicit false

/-! ## Keys -/

/-- What every key starts with. -/
def keyStart : String := "privileges_"

/-- The text of the set of some role ids. -/
def joinRoleIds (ids : List Uuid) : String :=
  String.intercalate "," ((SortedSet.ofList ids).toList.map Uuid.text)

/-- What the keys of all entries of a user for one role set start with. -/
def entriesStart (roleSet : String) (user : Uuid) : String :=
  keyStart ++ roleSet ++ "_" ++ user.text ++ "_"

/-- The key of the entry for a role set, a user and an organization. -/
def entryKey (roleSet : String) (user org : Uuid) : String :=
  entriesStart roleSet user ++ org.text

/-- The key of the role set that a user held last. -/
def pointerKey (user : Uuid) : String := keyStart ++ "roles_" ++ user.text

/-- The key of the role sets that have entries for a user. -/
def roleSetsKey (user : Uuid) : String := keyStart ++ "sets_" ++ user.text

/-- The pieces of characters between separators. -/
def splitChars (separator : Char) (cs : List Char) : List (List Char) :=
  cs.foldr (fun c pieces =>
    if c = separator then [] :: pieces
    else
      match pieces with
      | piece :: rest => (c :: piece) :: rest
      | [] => [[c]]) [[]]

/-- The role sets in a list of them. -/
def roleSets (index : String) : List String :=
  ((splitChars ';' index.toList).filter fun cs => !cs.isEmpty).map String.ofList

/-- A list of role sets with one more, once. -/
def addRoleSet (index : Option String) (roleSet : String) : String :=
  let known := roleSets (index.getD "")
  String.intercalate ";" (if roleSet ∈ known then known else known ++ [roleSet])

/-! ## Entries -/

/-- Privileges and the second at which the first of their assignments ends. -/
structure CachedPrivileges where
  privileges : Privileges
  validUntil : Option Int
  deriving DecidableEq

namespace CachedPrivileges

/-- Whether an entry may still be used. -/
def isFreshAt (c : CachedPrivileges) (now : Int) : Bool :=
  c.validUntil.all fun ending => now < ending

def ofJson? (m : Json.Manner) (j : Json) : Option CachedPrivileges := do
  let r ← j.fields? m false ["privileges", "validUntil"]
  return {
    privileges := ← (r "privileges").required (Privileges.ofJson? m)
    validUntil := ← (r "validUntil").optionalOrNone Json.readSigned? }

def toJson (c : CachedPrivileges) : Json :=
  .object [("privileges", c.privileges.toJson), ("validUntil", .ofOption .int c.validUntil)]

/-- The text of an entry. -/
def encode (c : CachedPrivileges) : String := c.toJson.print

/-- Read the text of an entry. -/
def decode? (s : String) : Option CachedPrivileges :=
  (Json.parseLoosely? s).bind (ofJson? .exact)

end CachedPrivileges

end ScopedAccess
