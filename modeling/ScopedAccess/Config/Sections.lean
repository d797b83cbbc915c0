import ScopedAccess.Filter.Compilation
import ScopedAccess.Store.Address
/-!
# Settings

The sections of the configuration that concern the database, operations and logging.
Every setting has a default, and a section refuses settings that it does not know.
-/

namespace ScopedAccess

set_option autoImplicit false

/-- Where rows are stored and how many connections may be open. -/
structure DatabaseConfig where
  url : String
  maxConnections : Option Nat
  minConnections : Option Nat
  acquireTimeoutSeconds : Option Nat
  logStatements : Bool
  deriving DecidableEq

/-- Limits on filters and pages. -/
structure OperationLimits where
  maxFilterDepth : Nat
  /-- The size of a page when none is asked for. -/
  defaultPageLimit : Nat
  maxPageLimit : Nat
  deriving DecidableEq

structure LoggingConfig where
  level : String
  asJson : Bool
  deriving DecidableEq

namespace DatabaseConfig

def default : DatabaseConfig := ⟨"sqlite::memory:", none, none, none, false⟩

instance : Inhabited DatabaseConfig := ⟨default⟩

def connectOptions (c : DatabaseConfig) : ConnectOptions :=
  ⟨c.maxConnections, c.minConnections, c.acquireTimeoutSeconds.map (· * 1000), c.logStatements⟩

def ofJson? (m : Json.Manner) (j : Json) : Option DatabaseConfig := do
  let r ← j.fields? m true
    ["url", "max_conns", "min_conns", "acquire_timeout_secs", "sqlx_logging"]
  return {
    url := ← (r "url").orElse default.url Json.readText?
    maxConnections := ← (r "max_conns").optionalOrNone (Json.readNat? 32)
    minConnections := ← (r "min_conns").optionalOrNone (Json.readNat? 32)
    acquireTimeoutSeconds := ← (r "acquire_timeout_secs").optionalOrNone (Json.readNat? 64)
    logStatements := ← (r "sqlx_logging").orElse default.logStatements Json.readBool? }

def toJson (c : DatabaseConfig) : Json :=
  .object [("url", .str c.url), ("max_conns", .ofOption .ofNat c.maxConnections),
    ("min_conns", .ofOption .ofNat c.minConnections),
    ("acquire_timeout_secs", .ofOption .ofNat c.acquireTimeoutSeconds),
    ("sqlx_logging", .bool c.logStatements)]

end DatabaseConfig

namespace OperationLimits

def default : OperationLimits := ⟨defaultMaxDepth, 50, 1000⟩

instance : Inhabited OperationLimits := ⟨default⟩

/-- The size of a page: what is asked for or the default, up to the maximum. -/
def pageLimit (c : OperationLimits) (requested : Option Nat) : Nat :=
  min (requested.getD c.defaultPageLimit) c.maxPageLimit

def ofJson? (m : Json.Manner) (j : Json) : Option OperationLimits := do
  let r ← j.fields? m true ["max_filter_depth", "default_page_limit", "max_page_limit"]
  return {
    maxFilterDepth := ← (r "max_filter_depth").orElse default.maxFilterDepth (Json.readNat? 64)
    defaultPageLimit := ←
      (r "default_page_limit").orElse default.defaultPageLimit (Json.readNat? 64)
    maxPageLimit := ← (r "max_page_limit").orElse default.maxPageLimit (Json.readNat? 64) }

def toJson (c : OperationLimits) : Json :=
  .object [("max_filter_depth", .ofNat c.maxFilterDepth),
    ("default_page_limit", .ofNat c.defaultPageLimit), ("max_page_limit", .ofNat c.maxPageLimit)]

end OperationLimits

namespace LoggingConfig

def default : LoggingConfig := ⟨"info", false⟩

instance : Inhabited LoggingConfig := ⟨default⟩

def ofJson? (m : Json.Manner) (j : Json) : Option LoggingConfig := do
  let r ← j.fields? m true ["level", "json"]
  return {
    level := ← (r "level").orElse default.level Json.readText?
    asJson := ← (r "json").orElse default.asJson Json.readBool? }

def toJson (c : LoggingConfig) : Json :=
  .object [("level", .str c.level), ("json", .bool c.asJson)]

end LoggingConfig

end ScopedAccess
