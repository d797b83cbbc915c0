import ScopedAccess.Callback.Builtin
import ScopedAccess.Operation.Session
import ScopedAccess.Scope.Rows
/-!
# Carrying out operations

The callbacks of the engine are steps on a session: those that settle which rows an operation
reaches, those that say whose they are, those that read or write them, and those that hand them to
the hooks of the application. An operation runs the callbacks of its phase in order until one fails
or has stopped it. If one fails, the rows are what they were before; what was cached, audited and
noted on the way is kept.

A record may be created in an organization that the actor may write
(`Operation.mayCreate`), and changes may only move rows into such an organization
(`Operation.staysWritable`). The actor owns every record it creates, so ownership by
itself permits nothing where rows belong to organizations.
-/

namespace ScopedAccess

set_option autoImplicit false

/-! ## Reached rows

An operation reaches the rows that pass the filter of the client, lie in the scope of the actor
and are not marked as deleted. Each step adds a predicate that has to hold as well, so none of them
can be undone by another. -/

/-- The rows of the entity that an actor may reach: those it may read in a query,
those it may write in other operations. -/
def Operation.scope (o : Operation) (p : Privileges) : AccessScope :=
  if o.phase = .query then p.readScope o.entity.name else p.writeScope o.entity.name

/-- The predicate of the rows that are not marked as deleted, if rows of the entity
can be marked. -/
def Entity.undeleted? (e : Entity) : Option Predicate :=
  (e.tagged? .softDelete).map fun f => .null ⟨e.table, f.column⟩ false

namespace Step

/-- Compile the filter of the client. -/
def compileFilter : Handler := do
  let setting ← read
  let o ← operation
  match compile setting.registry setting.limits.maxFilterDepth o.entity o.filterInput with
  | .ok filter => change fun o => { o with filter }
  | .error e => fail (.ofCompile e)

/-- Confine the rows to the scope of the actor, unless the entity is unrestricted or
the actor bypasses checks. -/
def injectScope : Handler := do
  let o ← operation
  if o.entity.unrestricted then return
  let p ← privileges
  if p.bypass then return
  change fun o => o.pushFilter (scopePredicate o.entity (o.scope p) o.entity.table)

/-- Leave out the rows that are marked as deleted. -/
def excludeDeleted : Handler :=
  change fun o =>
    match o.entity.undeleted? with
    | some p => o.pushFilter p
    | none => o

end Step

/-! ## Ownership

A new row belongs to the actor, and to the active organization unless the record names another;
changes are signed with the actor as last modifier. -/

namespace Operation

/-- Make the actor the owner, and set the organization if there is none. -/
def stampOwner (o : Operation) : Operation :=
  let o := match o.entity.tagged? .owner with
    | some f => o.setField f.name (.ofUuid o.actor.id)
    | none => o
  match o.entity.tagged? .ownerOrg with
  | some f => if o.payload.contains f.name then o else o.setField f.name (.ofUuid o.actor.activeOrg)
  | none => o

/-- Make the actor the last modifier. -/
def stampModifier (o : Operation) : Operation :=
  match o.entity.tagged? .lastModifier with
  | some f => o.setField f.name (.ofUuid o.actor.id)
  | none => o

/-- Whether the payload may be created. Who may write no organization at all may
create in the active one. -/
def mayCreate (o : Operation) (p : Privileges) : Bool :=
  match o.entity.ownerOrgField? with
  | none => recordInScope o.entity (p.writeScope o.entity.name) o.payload
  | some f =>
    (o.payload.uuid? f.name).any fun org =>
      let writable := p.writableFor o.entity.name
      if writable.isEmpty then decide (org = o.actor.activeOrg) else decide (org ∈ writable)

/-- Whether the changes leave rows in organizations that may be written. Changes that
do not name the organization do. -/
def staysWritable (o : Operation) : Bool :=
  match o.privileges, o.entity.ownerOrgField? with
  | some p, some f =>
    p.bypass || o.entity.unrestricted || !o.payload.contains f.name ||
      (o.payload.uuid? f.name).any fun org => decide (org ∈ p.writableFor o.entity.name)
  | _, _ => true

end Operation

namespace Step

def stampOwner : Handler := change Operation.stampOwner

def stampModifier : Handler := change Operation.stampModifier

/-- Stop a create that the actor may not make; no row is affected. -/
def checkWriteScope : Handler := do
  if (← operation).entity.unrestricted then return
  let p ← privileges
  if p.bypass || (← operation).mayCreate p then return
  change fun o => (o.withAffected 0).stop

end Step

/-! ## Statements

The step of each phase that reads or writes rows: those that pass the filter as it
stands by then. -/

/-- The condition of the rows that an operation reaches. -/
def Operation.condition (o : Operation) : Condition := o.filter.predicate.condition

namespace Step

/-- Carry out a statement that writes rows. -/
def write (statement : Database → Except StoreError (Nat × Database)) : Handler := do
  let (affected, db) ← ofStore (statement (← database))
  setDatabase db
  change fun o => o.withAffected affected

/-- Find a page of rows, and count all of them if asked to. -/
def queryRows : Handler := do
  let o ← operation
  let db ← database
  let limit := (← read).limits.pageLimit o.page.limit
  let rows ← ofStore (Store.select db o.entity o.condition o.page.offset (some limit))
  let total ←
    if o.page.withTotal then some <$> ofStore (Store.count db o.entity o.condition)
    else pure none
  change fun o => { o with outcome := { o.outcome with rows, total } }

/-- Insert the payload. -/
def createRow : Handler := do
  let o ← operation
  write fun db => Store.insert db o.entity o.payload

/-- Apply the payload to the rows; to none, if that moved them out of the
organizations that may be written. -/
def updateRows : Handler := do
  let o ← operation
  if o.staysWritable then write fun db => Store.update db o.entity o.payload o.condition
  else change fun o => o.withAffected 0

/-- Delete the rows, or mark them as deleted if the entity has a field for it. -/
def deleteRows : Handler := do
  match (← operation).entity.tagged? .softDelete with
  | some f =>
    let now := (← read).now
    change fun o => o.setField f.name (.str now.text)
    let o ← operation
    write fun db => Store.update db o.entity o.payload o.condition
  | none =>
    let o ← operation
    write fun db => Store.delete db o.entity o.condition

end Step

/-! ## Hooks and the end of an operation

Records are handed to the hooks of the application. In the end secrets are taken out of the rows,
and the audit trail gets its entry. -/

namespace Step

/-- Let a hook of the entity change the payload. -/
def changePayload (hook : Lifecycle → String → Option (Actor → Record → Hook Record)) :
    Handler := do
  let o ← operation
  match hook (← read).lifecycle o.entity.name with
  | some h =>
    let payload ← ofHook (h o.actor o.payload)
    change fun o => { o with payload }
  | none => return

def beforeCreate : Handler := changePayload Lifecycle.beforeCreate

def beforeUpdate : Handler := changePayload Lifecycle.beforeUpdate

/-- Show the record to the hook, if it was created. -/
def afterCreate : Handler := do
  let o ← operation
  match (← read).lifecycle.afterCreate o.entity.name with
  | some h => if 0 < o.outcome.affected then ofHook (h o.actor o.payload)
  | none => return

/-- Show the filter to the hook. -/
def beforeDelete : Handler := do
  let o ← operation
  match (← read).lifecycle.beforeDelete o.entity.name with
  | some h => ofHook (h o.actor o.filter)
  | none => return

/-- Let the hook change every row found. -/
def afterFind : Handler := do
  let o ← operation
  match (← read).lifecycle.afterFind o.entity.name with
  | some h =>
    let rows ← ofHook (o.outcome.rows.mapM (h o.actor))
    change fun o => o.withRows rows
  | none => return

end Step

/-- A record without the secret fields of an entity. -/
def Entity.redact (e : Entity) (r : Record) : Record :=
  e.secretFields.foldl (fun r f => r.erase f.name) r

namespace Step

/-- Take the secrets out of the rows found. -/
def redactSecrets : Handler :=
  change fun o => o.withRows (o.outcome.rows.map o.entity.redact)

/-- Enter the operation into the audit trail. -/
def audit : Handler := do
  let o ← operation
  changeWorld fun w => { w with audit := w.audit ++ [.ofOperation o] }

end Step

/-! ## The chain -/

/-- What a callback of the engine does. -/
def Builtin.handler : Builtin → Handler
  | compileFilter => Step.compileFilter
  | injectScope => Step.injectScope
  | excludeDeleted => Step.excludeDeleted
  | query => Step.queryRows
  | afterFind => Step.afterFind
  | redactSecrets => Step.redactSecrets
  | beforeCreate => Step.beforeCreate
  | stampOwner => Step.stampOwner
  | checkWriteScope => Step.checkWriteScope
  | create => Step.createRow
  | afterCreate => Step.afterCreate
  | stampModifier => Step.stampModifier
  | beforeUpdate => Step.beforeUpdate
  | update => Step.updateRows
  | beforeDelete => Step.beforeDelete
  | delete => Step.deleteRows
  | audit => Step.audit

/-- The callbacks of the engine alone. -/
def Callbacks.builtin : Callbacks := .withBuiltins Builtin.handler

/-- Run callbacks until one fails or has stopped the operation. -/
def Session.runChain (setting : Setting) :
    List (String × Handler) → Session → Except OperationError Unit × Session
  | [], s => (.ok (), s)
  | (name, handler) :: rest, s =>
    if s.operation.stopped then (.ok (), s)
    else
      match handler setting s with
      | (.ok (), s) => runChain setting rest s
      | (.error failure, s) => (.error (failure.attributedTo name), s)

namespace World

/-- Carry out a request on an entity on behalf of an actor. -/
def perform (w : World) (setting : Setting) (callbacks : Callbacks) (actor : Actor)
    (entity : String) (request : Request) : Except OperationError Outcome × World :=
  match setting.registry.find? entity with
  | none => (.error (.unknownEntity entity), w)
  | some e =>
    match Session.runChain setting (callbacks.chain request.phase) ⟨.start request e actor, w⟩ with
    | (.ok (), s) => (.ok s.operation.outcome, s.world)
    | (.error error, s) => (.error error, { s.world with db := w.db })

end World

end ScopedAccess
