import ScopedAccess.Store.Opening
import ScopedAccess.Store.Url
import ScopedAccess.Basic
import ScopedAccess.Text.Unprintable
/-!
# Database addresses

A database is opened by its address: the scheme `sqlite`, a path and parameters after a
question mark. The address has to be a well-formed locator (`Url.scheme?`), and the
parameters have to be known, each with one of its values (`Address.withParameter`).
-/

namespace ScopedAccess

set_option autoImplicit false

/-- What an address asks for. -/
structure Address where
  path : String
  inMemory : Bool
  readOnly : Bool
  mayCreate : Bool
  /-- Whether nobody else changes the files. -/
  immutable : Bool
  /-- What is to access the files. -/
  fileSystem : Option String

namespace Address

/-- A text without the starts that it has, repeatedly. -/
def dropStarts (start cs : List Char) : List Char :=
  if start.isPrefixOf cs ∧ start ≠ [] ∧ cs ≠ [] then dropStarts start (cs.drop start.length)
  else cs
termination_by cs.length
decreasing_by
  rename_i h
  have := List.length_pos_iff.2 h.2.1
  have := List.length_pos_iff.2 h.2.2
  simp only [List.length_drop]
  omega

/-- What follows the scheme, which is read in lower case only. -/
def afterScheme (url : String) : List Char :=
  dropStarts "sqlite:".toList (dropStarts "sqlite://".toList url.toList)

/-- A key or a value of the parameters, where a plus sign stands for a space. -/
def decoded (cs : List Char) : String :=
  Utf8.replaced (percentBytes (cs.map fun c => if c = '+' then ' ' else c))

/-- The parameters in order, each with its value; without an equals sign the value is
empty. -/
def parametersOf (cs : List Char) : List (String × String) :=
  ((cs.splitOn '&').filter (· ≠ [])).map fun p =>
    let (key, value) := cutAt (· = '=') p
    (decoded key, decoded value)

/-- The address of a path, which is percent encoded. -/
def ofPath (cs : List Char) : Except ConnectionError Address :=
  if cs = Opening.memoryPath.toList then .ok ⟨Opening.memoryPath, true, false, false, false, none⟩
  else
    match Utf8.read (percentBytes cs) with
    | .ok path => .ok ⟨path, false, false, false, false, none⟩
    | .error fault => .error (.parameter fault.message)

/-- The same address with a parameter heeded. -/
def withParameter (a : Address) : String × String → Except ConnectionError Address
  | ("mode", "ro") => .ok { a with readOnly := true }
  | ("mode", "rw") => .ok a
  | ("mode", "rwc") => .ok { a with mayCreate := true }
  | ("mode", "memory") => .ok { a with inMemory := true }
  | ("cache", "private") | ("cache", "shared") => .ok a
  | ("immutable", "true") | ("immutable", "1") => .ok { a with immutable := true }
  | ("immutable", "false") | ("immutable", "0") => .ok { a with immutable := false }
  | ("vfs", value) => .ok { a with fileSystem := some value }
  | (key, value) =>
    if ["mode", "cache", "immutable"].contains key then
      .error (.parameter ("unknown value " ++ quoted value ++ " for \x60" ++ key ++ "\x60"))
    else
      .error (.parameter
        ("unknown query parameter \x60" ++ key ++ "\x60 while parsing connection URL"))

/-- Read an address. -/
def ofUrl (url : String) : Except ConnectionError Address := do
  let (path, parameters) := cutAt (· = '?') (afterScheme url)
  (parametersOf parameters).foldlM withParameter (← ofPath path)

/-- Whether the path is handed on encoded, so that it is no locator and ends at a null
character. -/
def isEncoded (a : Address) : Bool := a.immutable || a.fileSystem.isSome

/-- What the engine is to open. The name of what accesses files is handed on with plus signs
for spaces. -/
def opening (a : Address) : Except ConnectionError Opening :=
  let access := if a.readOnly then .read else if a.mayCreate then .create else .write
  if a.isEncoded then
    let spelled (name : String) := upToNull (name.map fun c => if c = ' ' then '+' else c)
    .ok ⟨upToNull a.path, access, a.inMemory, a.fileSystem.map spelled⟩
  else if hasNull a.path then .error .cutPath
  else Opening.located ⟨a.path, access, a.inMemory, none⟩

end Address

/-- The settings that a connection is opened with. -/
structure ConnectOptions where
  maxConnections : Option Nat
  minConnections : Option Nat
  acquireTimeoutMillis : Option Nat
  logStatements : Bool
  deriving DecidableEq

/-- Whether no connection can be had: there may be none, or it may take no time. -/
def ConnectOptions.isIdle (o : ConnectOptions) : Bool :=
  o.maxConnections = some 0 || o.acquireTimeoutMillis = some 0

namespace Store

/-- Open a database by its address. -/
def connect (url : String) (options : ConnectOptions) : Except StoreError Database :=
  if isBlankText url then .error (.unsupportedUrl url)
  else
    match Url.scheme? url with
    | none => .error (.connection (.malformed url))
    | some "sqlite" =>
      Except.mapError .connection do
        let a ← Address.ofUrl url
        if options.isIdle then throw .timedOut else (← a.opening).database
    | some _ => .error (.connection (.unknownDriver url))

end Store

end ScopedAccess
