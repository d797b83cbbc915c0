import ScopedAccess.Filter.Compiled
import ScopedAccess.Operation.Basic
/-!
# Lifecycle hooks

What an application does with the records of an entity at certain points of an
operation. A hook sees one record, or the filter of a delete, and may change the
record, refuse it and write to the journal. An entity without a hook for a point
passes it untouched.
-/

namespace ScopedAccess

set_option autoImplicit false

/-- Why a callback or a hook failed. -/
inductive Failure where
  | operation (e : OperationError)
  /-- A failure of the application: its messages from the outermost inwards. -/
  | other (messages : List String)

/-- The error that the failure of a callback is. The application's own failures are
attributed to the callback. -/
def Failure.attributedTo (callback : String) : Failure → OperationError
  | operation e => e
  | other messages => .hook callback (String.intercalate ": " messages)

/-- The points of an operation at which an entity may have a hook. -/
inductive LifecyclePoint where
  | beforeCreate
  | afterCreate
  | beforeUpdate
  | beforeDelete
  | afterFind
  deriving DecidableEq

namespace LifecyclePoint

def all : List LifecyclePoint := [beforeCreate, afterCreate, beforeUpdate, beforeDelete, afterFind]

def word : LifecyclePoint → String
  | beforeCreate => "before_create"
  | afterCreate => "after_create"
  | beforeUpdate => "before_update"
  | beforeDelete => "before_delete"
  | afterFind => "after_find"

def ofWord? (s : String) : Option LifecyclePoint := all.find? fun p => p.word = s

end LifecyclePoint

/-- A line of the journal. -/
inductive Note where
  /-- The state of an operation as a callback saw it, with the number of known
  entities. -/
  | operation (callback : String) (entities : Nat) (state : Operation)
  /-- A record as a hook saw it. -/
  | record (point : LifecyclePoint) (r : Record)
  /-- A filter as a hook saw it. -/
  | filter (point : LifecyclePoint) (f : CompiledFilter)

namespace Note

/-- The state of an operation as a structured value. -/
def ofOperation (callback : String) (entities : Nat) (o : Operation) : Json :=
  .object [("callback", .str callback), ("phase", .str o.phase.word),
    ("entity", .str o.entity.name), ("user", .ofUuid o.actor.id), ("entities", .ofNat entities),
    ("page", o.page.toJson), ("filter_input", o.filterInput), ("filter", o.filter.rendered),
    ("payload", o.payload.toJson), ("privileges", .ofOption Privileges.toJson o.privileges),
    ("rows", .arr (o.outcome.rows.map Record.toJson)),
    ("total", .ofOption .ofNat o.outcome.total), ("affected", .ofNat o.outcome.affected),
    ("stopped", .bool o.stopped)]

def toJson : Note → Json
  | operation callback entities state => ofOperation callback entities state
  | record point r => .object [("lifecycle", .str point.word), ("sees", r.toJson)]
  | filter point f => .object [("lifecycle", .str point.word), ("sees", f.rendered)]

end Note

/-- What callbacks and hooks have noted. It is kept when an operation fails. -/
abbrev Journal : Type := List Note

/-- What hooks do: they may write to the journal, and they may fail. -/
abbrev Hook : Type → Type := ExceptT Failure (StateM Journal)

/-- The hooks of an application by entity. -/
structure Lifecycle where
  beforeCreate : String → Option (Actor → Record → Hook Record)
  afterCreate : String → Option (Actor → Record → Hook Unit)
  beforeUpdate : String → Option (Actor → Record → Hook Record)
  beforeDelete : String → Option (Actor → CompiledFilter → Hook Unit)
  afterFind : String → Option (Actor → Record → Hook Record)

namespace Lifecycle

/-- No hooks. -/
def empty : Lifecycle :=
  ⟨fun _ => none, fun _ => none, fun _ => none, fun _ => none, fun _ => none⟩

instance : Inhabited Lifecycle := ⟨empty⟩

/-- The hooks of one point with the one of an entity set. -/
def put {α : Type} (hooks : String → Option α) (entity : String) (hook : α) : String → Option α :=
  fun e => if e = entity then some hook else hooks e

end Lifecycle

end ScopedAccess
