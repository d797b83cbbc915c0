/-!
# Errors of the store

Why a database could not be opened (`ConnectionError`), and why a statement on rows
failed: the database refused it, or the record has nothing to store.
-/

namespace ScopedAccess

set_option autoImplicit false

/-- Why a database could not be opened. -/
inductive ConnectionError where
  /-- The address is not well formed. -/
  | malformed (url : String)
  /-- The address is that of another kind of database. -/
  | unknownDriver (url : String)
  /-- A parameter of the address is refused. -/
  | parameter (reason : String)
  /-- The path has the character within that ends it. -/
  | cutPath
  /-- The database engine cannot open what the address leads to. -/
  | notOpened (code : Nat) (reason : String)
  /-- No connection was there in time. -/
  | timedOut
  deriving DecidableEq

namespace ConnectionError

def reason : ConnectionError → String
  | malformed url => s!"The connection string '{url}' cannot be parsed."
  | unknownDriver url => s!"The connection string '{url}' has no supporting driver."
  | parameter reason => "error with configuration: " ++ reason
  | cutPath =>
    "error communicating with database: filename passed to SQLite must not contain nul bytes"
  | timedOut => "pool timed out while waiting for an open connection"
  | notOpened code reason => s!"error returned from database: (code: {code}) {reason}"

def message (e : ConnectionError) : String := "Connection Error: " ++ e.reason

/-- Whether the reason is one that the database engine gives. -/
def isOfEngine : ConnectionError → Bool
  | malformed _ | unknownDriver _ => false
  | parameter _ | cutPath | notOpened .. | timedOut => true

end ConnectionError

/-- Why the store failed. -/
inductive StoreError where
  /-- The database engine refused a statement. -/
  | engine
  | invalidRecord (reason : String)
  | unsupportedUrl (url : String)
  | connection (e : ConnectionError)
  deriving DecidableEq

def StoreError.message : StoreError → String
  | engine => "the database refused the statement"
  | invalidRecord reason => "invalid record: " ++ reason
  | unsupportedUrl url => "unsupported database url: " ++ url
  | connection e => e.message

end ScopedAccess
