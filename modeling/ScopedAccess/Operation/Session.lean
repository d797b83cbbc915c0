import ScopedAccess.Callback.Registry
import ScopedAccess.Config.Sections
import ScopedAccess.Operation.Lifecycle
import ScopedAccess.Resolver.World
import ScopedAccess.Schema.Entity
import ScopedAccess.Store.Rows
/-!
# Sessions

What operations run against: the rows, the source and cache of privileges, the audit
trail and the journal (`World`), and what stays the same from one operation to the
next (`Setting`). A `Session` is a world with an operation under way.

Callbacks are steps on a session (`Step`). A step that fails still leaves a session:
what it has cached, audited and noted is kept, though its changes to rows are not.
-/

namespace ScopedAccess

set_option autoImplicit false

/-- A moment, in seconds and as text. -/
structure Instant where
  seconds : Int
  text : String

/-- An operation that was carried through. -/
structure AuditEvent where
  phase : Phase
  entity : String
  principal : Uuid
  activeOrg : Uuid
  /-- The number of rows that it concerned. -/
  rows : Nat

/-- What operations run against. -/
structure World where
  db : Database
  resolver : ResolverWorld
  audit : List AuditEvent
  journal : Journal

/-- What operations depend on and do not change. -/
structure Setting where
  registry : Registry
  resolver : ResolverConfig
  limits : OperationLimits
  lifecycle : Lifecycle
  now : Instant

/-- A world with an operation under way. -/
structure Session where
  operation : Operation
  world : World

/-- What callbacks do. -/
abbrev Step : Type → Type := ReaderT Setting (ExceptT Failure (StateM Session))

/-- A callback. -/
abbrev Handler : Type := Step Unit

/-- The callbacks of all phases. -/
abbrev Callbacks : Type := CallbackRegistry Handler

namespace AuditEvent

def ofOperation (o : Operation) : AuditEvent :=
  ⟨o.phase, o.entity.name, o.actor.id, o.actor.activeOrg, o.rowCount⟩

def toJson (e : AuditEvent) : Json :=
  .object [("phase", .str e.phase.word), ("entity", .str e.entity),
    ("principalId", .ofUuid e.principal), ("activeOrgId", .ofUuid e.activeOrg),
    ("rows", .ofNat e.rows)]

end AuditEvent

namespace World

/-- A world with some rows and a source of privileges. -/
def ofDatabase (db : Database) (resolver : ResolverWorld) : World := ⟨db, resolver, [], []⟩

end World

namespace Step

def operation : Step Operation := return (← get).operation

def database : Step Database := return (← get).world.db

/-- Change the operation. -/
def change (f : Operation → Operation) : Handler :=
  modify fun s => { s with operation := f s.operation }

def changeWorld (f : World → World) : Handler := modify fun s => { s with world := f s.world }

def setDatabase (db : Database) : Handler := changeWorld fun w => { w with db }

def note (n : Note) : Handler := changeWorld fun w => { w with journal := w.journal ++ [n] }

def fail {α : Type} (e : OperationError) : Step α := throw (.operation e)

/-- What the store answers; its errors are the operation's. -/
def ofStore {α : Type} : Except StoreError α → Step α
  | .ok a => pure a
  | .error e => fail (.store e)

/-- What a hook does. -/
def ofHook {α : Type} (hook : Hook α) : Step α := fun _ s =>
  let (result, journal) := hook.run s.world.journal
  (result, { s with world := { s.world with journal } })

/-- The privileges of the actor, resolved at most once in an operation. -/
def privileges : Step Privileges := do
  let s ← get
  match s.operation.privileges with
  | some p => return p
  | none =>
    let setting ← read
    let (answer, resolver) :=
      s.world.resolver.resolve setting.resolver setting.now.seconds s.operation.actor
    changeWorld fun w => { w with resolver }
    match answer with
    | .ok p =>
      change fun o => { o with privileges := some p }
      return p
    | .error e => fail (.ofPrivilege e.told)

end Step

end ScopedAccess
