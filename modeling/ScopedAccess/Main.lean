import ScopedAccess.Command.Arguments
import Std.Time.Format
/-!
# The command line

Reads the configuration, carries out one command and prints what it gives. The
configuration is a document, over which the variables with the prefix `ADMINKIT__`
are laid.
-/

namespace ScopedAccess

set_option autoImplicit false

namespace CommandLine

/-- The settings that variables are looked up for. -/
def variableNames : List String :=
  ["DATABASE__URL", "DATABASE__MAX_CONNS", "DATABASE__MIN_CONNS", "DATABASE__ACQUIRE_TIMEOUT_SECS",
    "DATABASE__SQLX_LOGGING", "PRIVILEGE_RESOLVER__ROOT_USER_ID",
    "PRIVILEGE_RESOLVER__CACHE_ENABLED", "PIPELINE__MAX_FILTER_DEPTH",
    "PIPELINE__DEFAULT_PAGE_LIMIT", "PIPELINE__MAX_PAGE_LIMIT", "LOGGING__LEVEL", "LOGGING__JSON"]

def readEnvironment : IO (List Variable) :=
  variableNames.filterMapM fun name => do
    return (← IO.getEnv ("ADMINKIT__" ++ name)).map (Variable.mk name)

/-- The text of a file, if it can be read. -/
def readFile? (path : String) : IO (Option String) := do
  try return some (← IO.FS.readFile path)
  catch _ => return none

/-- The document of a configuration; without a path it has no settings. -/
def readDocument : Option String → IO (Except CommandError Json)
  | none => return .ok (.obj [])
  | some path => do
    match ← readFile? path with
    | none => return .error (.configurationMissing path)
    | some text =>
      match Json.parse? text with
      | some document => return .ok document
      | none => return .error .configurationInvalid

def currentInstant : IO Instant := do
  let time ← Std.Time.Timestamp.now
  return ⟨time.toSecondsSinceUnixEpoch.val,
    (Std.Time.DateTime.ofTimestamp time .UTC).toISO8601String⟩

def wording : ForeignCause → String
  | .filterText => "malformed text"
  | .configuration => "unknown or unsuitable settings"
  | .engine => StoreError.engine.message

def run (a : Arguments) : IO Report := do
  let environment ← readEnvironment
  match ← readDocument a.configuration with
  | .error e => return .error e
  | .ok document =>
    match AppConfig.load? document environment with
    | none => return .error .configurationInvalid
    | some c => return a.invocation.report c (← currentInstant)

end CommandLine

end ScopedAccess

open ScopedAccess in
def main (words : List String) : IO UInt32 := do
  match Arguments.ofWords? words with
  | none =>
    IO.eprintln "error: unknown command line"
    return 2
  | some a =>
    match ← CommandLine.run a with
    | .ok json =>
      IO.println json.print
      return 0
    | .error e =>
      IO.eprintln ("error: " ++ String.intercalate ": " (e.chain CommandLine.wording))
      return 1
