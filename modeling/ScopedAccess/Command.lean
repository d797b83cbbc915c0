import ScopedAccess.Config.App
import ScopedAccess.Operation.Chain
/-!
# Commands

What an operator asks of a configuration: the entities it describes, the condition
that a filter compiles to, the privileges of a principal, and the rows that a
principal finds. Each command gives a structured value or a `CommandError`.

An error is reported as a chain of messages from the outermost inwards. Some causes
are not worded here (`ForeignCause`): what is wrong with a document, or what the
database engine says.
-/

namespace ScopedAccess

set_option autoImplicit false

/-- A cause that is worded by whoever reports it. -/
inductive ForeignCause where
  | filterText
  | configuration
  | engine
  deriving DecidableEq

/-- Why a command failed. -/
inductive CommandError where
  | configurationMissing (path : String)
  | configurationInvalid
  /-- An entity is refused. -/
  | entity (name : String) (e : SchemaError)
  | schema (e : SchemaError)
  | filterInvalid
  | unknownEntity (name : String)
  | compilation (e : CompileError)
  | privileges (e : PrivilegeError)
  | store (e : StoreError)
  | operation (e : OperationError)

namespace CommandError

variable (wording : ForeignCause → String)

def storeChain : StoreError → List String
  | .engine => [wording .engine]
  | .connection e => [e.message, e.reason] ++ if e.isOfEngine then [wording .engine] else []
  | e => [e.message]

/-- The messages of an error, from the outermost inwards. -/
def chain : CommandError → List String
  | configurationMissing path => ["config file not found: " ++ path]
  | configurationInvalid => ["invalid configuration", wording .configuration]
  | entity name e => [s!"entity '{name}'", e.message]
  | schema e => [e.message]
  | filterInvalid => ["filter is not valid JSON", wording .filterText]
  | unknownEntity name => [s!"unknown entity '{name}'"]
  | compilation e => [e.message]
  | privileges e => [e.message]
  | store e => storeChain wording e
  | operation (.store e) => storeChain wording e
  | operation e => [e.message]

end CommandError

/-- What a command gives. -/
abbrev Report : Type := Except CommandError Json

namespace AppConfig

/-- The registry of the entities described. -/
def registry (c : AppConfig) : Except CommandError Registry := do
  let r ← c.entities.foldlM (fun r d =>
    ((r.register d).map Prod.snd).mapError (.entity d.name)) (∅ : Registry)
  r.validate.mapError .schema
  return r

end AppConfig

namespace Command

def readFilter (text : String) : Except CommandError Json :=
  match Json.parse? text with
  | some filter => .ok filter
  | none => .error .filterInvalid

/-- The entities by name, with their tables and fields. -/
def entities (c : AppConfig) : Report := do
  let r ← c.registry
  return .arr (r.entities.values.map fun e =>
    .object [("name", .str e.name), ("table", .str e.table), ("unrestricted", .bool e.unrestricted),
      ("fields", .arr (e.fields.map fun f => .str f.name))])

/-- The text and the values that a filter compiles to, together and part by part. -/
def compile (c : AppConfig) (entity filter : String) : Report := do
  let r ← c.registry
  let some e := r.find? entity | throw (.unknownEntity entity)
  let filter ← readFilter filter
  let compiled ←
    (ScopedAccess.compile r c.limits.maxFilterDepth e filter).mapError .compilation
  return .object [("sql", .str compiled.sql), ("params", .arr compiled.params),
    ("fragments", .arr (compiled.parts.map Predicate.rendered))]

/-- The privileges of a principal acting in an organization. -/
def resolve (c : AppConfig) (now : Instant) (actor : Actor) : Report :=
  match ((ResolverWorld.ofSource c.privileges).resolve c.resolver now.seconds actor).1 with
  | .ok p => .ok p.toJson
  | .error e => .error (.privileges e.told)

/-- The rows that a principal finds in the database at the configured address. -/
def query (c : AppConfig)
    (connect : String → ConnectOptions → Except StoreError Database) (now : Instant)
    (actor : Actor) (entity filter : String) (page : Page) : Report := do
  let registry ← c.registry
  let db ← (connect c.database.url c.database.connectOptions).mapError .store
  let filter ← readFilter filter
  let setting : Setting := ⟨registry, c.resolver, c.limits, .empty, now⟩
  let world := World.ofDatabase db (.ofSource c.privileges)
  let (result, _) := world.perform setting .builtin actor entity (.query filter page)
  return (← result.mapError .operation).toJson

end Command

end ScopedAccess
