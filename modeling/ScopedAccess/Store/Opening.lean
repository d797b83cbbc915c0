import ScopedAccess.Basic
import ScopedAccess.Sql.Database
import ScopedAccess.Store.Error
import ScopedAccess.Text.Bytes
/-!
# Opening databases

What the engine is asked to open (`Opening`), which the options of a locator change, and
what it finds. The databases that it finds are in memory, or temporary, or new files in the
directory at hand; each is empty at first.

A locator names a file: `file:`, perhaps a host after two slashes, a path, options after a
question mark, and a fragment after a number sign, which says nothing. Everything but the host is
percent encoded, and each part ends at an encoded null character.
-/

namespace ScopedAccess

set_option autoImplicit false

/-! ## Locators of files -/

/-- What stands before the first of some characters, and what after it. -/
def cutAt (isEnd : Char → Bool) (cs : List Char) : List Char × List Char :=
  (cs.takeWhile (!isEnd ·), (cs.dropWhile (!isEnd ·)).drop 1)

/-- The file that a locator leads to, and how it is to be opened. -/
structure FileLocator where
  path : String
  options : List (String × String)

namespace FileLocator

/-- The text of a part. -/
def partText (cs : List Char) : String :=
  Utf8.replaced ((percentBytes cs).takeWhile (· ≠ 0))

/-- The options in order. Without an equals sign the value is empty, and without a name there
is no option. -/
def optionsOf (cs : List Char) : List (String × String) :=
  ((cs.splitOn '&').map fun part =>
    let (name, value) := cutAt (· = '=') part
    (partText name, partText value)).filter fun (name, _) => name ≠ ""

/-- What follows the host. -/
def ofPlace (cs : List Char) : FileLocator :=
  let (path, options) := cutAt (· = '?') (cutAt (· = '#') cs).1
  ⟨partText path, optionsOf options⟩

/-- Read what follows `file:`. The host goes up to the next slash, and it is this one or not
given; another host is an error. -/
def ofChars : List Char → Except String FileLocator
  | '/' :: '/' :: rest =>
    let host := rest.takeWhile (· ≠ '/')
    if host = [] || host = "localhost".toList then .ok (ofPlace (rest.dropWhile (· ≠ '/')))
    else .error (String.ofList host)
  | cs => .ok (ofPlace cs)

end FileLocator

/-! ## Openings -/

/-- What a database is opened for. -/
inductive Access where
  | read
  | write
  /-- To write, and to be created if there is no file. -/
  | create
  deriving DecidableEq

/-- What the engine is asked to open. -/
structure Opening where
  path : String
  access : Access
  inMemory : Bool
  /-- What is to access the files, if it is not the usual one. -/
  fileSystem : Option String

namespace Opening

/-- How much a way of access allows. -/
def rank : Access → Nat
  | .read => 0
  | .write => 1
  | .create => 2

def accessWords : List (String × Access) := [("ro", .read), ("rw", .write), ("rwc", .create)]

/-- The same opening for another way of access, which allows no more, or which follows one in
memory. -/
def withMode (o : Opening) (mode : String) : Except ConnectionError Opening :=
  if mode = "memory" then .ok { o with access := .write, inMemory := true }
  else
    match accessWords.lookup mode with
    | none => .error (.notOpened 1 ("no such access mode: " ++ mode))
    | some access =>
      if o.inMemory || rank access ≤ rank o.access then .ok { o with access, inMemory := false }
      else .error (.notOpened 3 ("access mode not allowed: " ++ mode))

/-- The same opening with an option of a locator heeded. -/
def withOption (o : Opening) : String × String → Except ConnectionError Opening
  | ("mode", value) => o.withMode value
  | ("cache", value) =>
    if ["shared", "private"].contains value then .ok o
    else .error (.notOpened 1 ("no such cache mode: " ++ value))
  | ("vfs", value) => .ok { o with fileSystem := some value }
  | _ => .ok o

/-- The opening that a path stands for: the path may be a locator of a file. -/
def located (o : Opening) : Except ConnectionError Opening :=
  if "file:".toList.isPrefixOf o.path.toList then
    match FileLocator.ofChars (o.path.toList.drop 5) with
    | .error host => .error (.notOpened 1 ("invalid uri authority: " ++ host))
    | .ok l => l.options.foldlM withOption { o with path := l.path }
  else .ok o

/-- What can access files. -/
def fileSystems : List String := ["unix", "unix-none", "unix-dotfile", "unix-excl", "memdb"]

/-- The path of a database in memory. -/
def memoryPath : String := ":memory:"

/-- The limits that a database has when it is opened. -/
def limits : Limits := ⟨1000, 32766, 2000, 50000⟩

/-- Whether there is a database, or one can be created. -/
def isFound (o : Opening) : Bool :=
  o.inMemory || o.path = "" || o.path = memoryPath || o.fileSystem = some "memdb" ||
    (o.access = .create && !o.path.toList.contains '/')

/-- Open a database. -/
def database (o : Opening) : Except ConnectionError Database :=
  match o.fileSystem.filter fun name => !fileSystems.contains name with
  | some name => .error (.notOpened 1 ("no such vfs: " ++ name))
  | none =>
    if o.isFound then
      .ok { Database.empty with readOnly := o.access = .read, limits := some limits }
    else .error (.notOpened 14 "unable to open database file")

end Opening

end ScopedAccess
