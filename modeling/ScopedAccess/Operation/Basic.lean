import ScopedAccess.Callback.Registry
import ScopedAccess.Filter.Compilation
import ScopedAccess.Filter.Compiled
import ScopedAccess.Json.Fields
import ScopedAccess.Privilege.Summary
import ScopedAccess.Resolver.Program
import ScopedAccess.Schema.Entity
import ScopedAccess.Store.Error
/-!
# Operations

What a client asks for (`Request`) and which part of a result it wants (`Page`), what it is told
in the end (`Outcome`) and the state in between (`Operation`), which callbacks read and change.
Nothing of the state outlives the operation.

`OperationError` says why an operation failed. Rows that a principal may not reach are no error:
they are missing from the result. `OperationError.isClientError` tells the errors that the
caller is to blame for.
-/

namespace ScopedAccess

set_option autoImplicit false

/-! ## Pages -/

/-- Part of a result: what to skip, how many rows at most, and whether to count all. -/
structure Page where
  offset : Nat
  /-- None for the configured default. -/
  limit : Option Nat
  withTotal : Bool
  deriving DecidableEq

namespace Page

def default : Page := ⟨0, none, false⟩

instance : Inhabited Page := ⟨default⟩

def ofJson? (m : Json.Manner) (j : Json) : Option Page := do
  let r ← j.fields? m false ["offset", "limit", "withTotal"]
  return {
    offset := ← (r "offset").orElse 0 (Json.readNat? 64)
    limit := ← (r "limit").optionalOrNone (Json.readNat? 64)
    withTotal := ← (r "withTotal").orElse false Json.readBool? }

def toJson (p : Page) : Json :=
  .object [("offset", .ofNat p.offset), ("limit", .ofOption .ofNat p.limit),
    ("withTotal", .bool p.withTotal)]

end Page

/-! ## Requests, outcomes and states -/

/-- What a client asks for. -/
structure Request where
  phase : Phase
  filter : Json
  /-- The record to create, or the changes to make. -/
  payload : Record
  page : Page

/-- What an operation has done. -/
structure Outcome where
  /-- The rows found. -/
  rows : List Record
  /-- The number of rows before paging, if it was asked for. -/
  total : Option Nat
  /-- The number of rows written. -/
  affected : Nat

/-- The state of an operation. -/
structure Operation where
  phase : Phase
  entity : Entity
  actor : Actor
  /-- The filter as the client sent it. -/
  filterInput : Json
  filter : CompiledFilter
  payload : Record
  page : Page
  /-- The privileges of the actor, once they are needed. -/
  privileges : Option Privileges
  outcome : Outcome
  /-- Whether the rest of the callbacks is skipped. -/
  stopped : Bool

namespace Request

/-- Find the rows that pass a filter. -/
def query (filter : Json) (page : Page) : Request := ⟨.query, filter, ∅, page⟩

/-- Add a record. -/
def create (record : Record) : Request := ⟨.create, .null, record, .default⟩

/-- Change the rows that pass a filter. -/
def update (filter : Json) (changes : Record) : Request := ⟨.update, filter, changes, .default⟩

/-- Delete the rows that pass a filter. -/
def delete (filter : Json) : Request := ⟨.delete, filter, ∅, .default⟩

end Request

namespace Outcome

def empty : Outcome := ⟨[], none, 0⟩

instance : Inhabited Outcome := ⟨empty⟩

def toJson (o : Outcome) : Json :=
  .object ([("rows", .arr (o.rows.map Record.toJson)), ("affected", .ofNat o.affected)] ++
    (o.total.map fun n => ("total", Json.ofNat n)).toList)

end Outcome

namespace Operation

/-- The operation that a request starts. -/
def start (request : Request) (entity : Entity) (actor : Actor) : Operation where
  phase := request.phase
  entity
  actor
  filterInput := request.filter
  filter := ∅
  payload := request.payload
  page := request.page
  privileges := none
  outcome := .empty
  stopped := false

/-- One more predicate has to hold of the rows. -/
def pushFilter (o : Operation) (p : Predicate) : Operation := { o with filter := o.filter.push p }

/-- Set a field of the payload. -/
def setField (o : Operation) (name : String) (value : Json) : Operation :=
  { o with payload := o.payload.insert name value }

def withRows (o : Operation) (rows : List Record) : Operation :=
  { o with outcome := { o.outcome with rows } }

def withAffected (o : Operation) (affected : Nat) : Operation :=
  { o with outcome := { o.outcome with affected } }

/-- Skip the rest of the callbacks. -/
def stop (o : Operation) : Operation := { o with stopped := true }

/-- The number of rows that the operation concerned: those found by a query, those
written by others. -/
def rowCount (o : Operation) : Nat :=
  if o.phase = .query then o.outcome.rows.length else o.outcome.affected

end Operation

/-! ## Errors -/

/-- Why an operation failed. -/
inductive OperationError where
  | unauthorized (reason : String)
  | resolutionFailed (reason : String)
  | compilationFailed (reason : String)
  /-- A callback failed. -/
  | hook (name message : String)
  | unknownEntity (name : String)
  | store (e : StoreError)
  deriving DecidableEq

namespace OperationError

def message : OperationError → String
  | unauthorized reason => "unauthorized: " ++ reason
  | resolutionFailed reason => "privilege resolution failed: " ++ reason
  | compilationFailed reason => "filter compilation failed: " ++ reason
  | hook name message => s!"callback '{name}' failed: {message}"
  | unknownEntity name => s!"unknown entity '{name}'"
  | store e => e.message

/-- Whether the caller is to blame. -/
def isClientError : OperationError → Bool
  | unauthorized _ | compilationFailed _ | unknownEntity _ => true
  | resolutionFailed _ | hook _ _ | store _ => false

def ofCompile (e : CompileError) : OperationError := .compilationFailed e.reason

def ofPrivilege : PrivilegeError → OperationError
  | .unauthorized user => .unauthorized (PrivilegeError.unauthorized user).message
  | .resolutionFailed m => .resolutionFailed m
  | .internal m => .resolutionFailed m

end OperationError

end ScopedAccess
