import ScopedAccess.Operation.Session
/-!
# Scripts

Callbacks and hooks of an application, written down as lists of instructions. In a
callback the instructions on records concern the payload. A hook that sees a record
only, or a filter only, passes over the instructions that would change it.
-/

namespace ScopedAccess

set_option autoImplicit false

/-- An instruction of a callback or hook. -/
inductive Instruction where
  | set (key : String) (value : Json)
  | unset (key : String)
  /-- Set a field to the actor. -/
  | stamp (key : String)
  /-- Fail unless a field is there. -/
  | require (key : String)
  | push (p : Predicate)
  | setAffected (n : Nat)
  | fail (failure : Failure)
  | skipRest
  | clearFilter
  | clearRows
  /-- Resolve the privileges of the actor. -/
  | resolve
  | note

/-- Instructions, in the order they are followed. -/
abbrev Script : Type := List Instruction

namespace Instruction

/-- What an instruction makes of a record. -/
def onRecord (actor : Actor) (r : Record) : Instruction → Except Failure Record
  | set key value => .ok (r.insert key value)
  | unset key => .ok (r.erase key)
  | stamp key => .ok (r.insert key (.ofUuid actor.id))
  | require key => if r.contains key then .ok r else .error (.other [key ++ " is required"])
  | fail failure => .error failure
  | push _ | setAffected _ | skipRest | clearFilter | clearRows | resolve | note => .ok r

/-- Whether an instruction leaves records as they are. -/
def keepsRecord : Instruction → Bool
  | set _ _ | unset _ | stamp _ => false
  | _ => true

/-- What an instruction does in a callback. -/
def step (callback : String) : Instruction → Handler
  | push p => Step.change fun o => o.pushFilter p
  | setAffected n => Step.change fun o => o.withAffected n
  | skipRest => Step.change Operation.stop
  | clearFilter => Step.change fun o => { o with filter := ∅ }
  | clearRows => Step.change fun o => o.withRows []
  | resolve => discard Step.privileges
  | note => do Step.note (.operation callback (← read).registry.size (← Step.operation))
  | i => do
    let o ← Step.operation
    match i.onRecord o.actor o.payload with
    | .ok payload => Step.change fun o => { o with payload }
    | .error failure => throw failure

end Instruction

namespace Script

/-- The callback that follows a script. -/
def handler (script : Script) (callback : String) : Handler := script.forM (·.step callback)

/-- Write to the journal. -/
def write (n : Note) : Hook Unit := modify (· ++ [n])

/-- The hook that follows a script and may change a record. -/
def recordHook (script : Script) (point : LifecyclePoint) (actor : Actor) (r : Record) :
    Hook Record :=
  script.foldlM (fun r i => do
    if let .note := i then write (.record point r)
    i.onRecord actor r) r

/-- The hook that follows a script and only looks at a record. -/
def inspectHook (script : Script) (point : LifecyclePoint) (actor : Actor) (r : Record) :
    Hook Unit :=
  discard (recordHook (script.filter Instruction.keepsRecord) point actor r)

/-- The hook that follows a script and looks at a filter. -/
def filterHook (script : Script) (point : LifecyclePoint) (_ : Actor) (f : CompiledFilter) :
    Hook Unit :=
  script.forM fun
    | .note => write (.filter point f)
    | .fail failure => throw failure
    | _ => pure ()

end Script

/-- Let an entity follow a script at some point. -/
def Lifecycle.withScript (l : Lifecycle) (point : LifecyclePoint) (entity : String)
    (script : Script) : Lifecycle :=
  match point with
  | .beforeCreate => { l with beforeCreate := put l.beforeCreate entity (script.recordHook point) }
  | .afterCreate => { l with afterCreate := put l.afterCreate entity (script.inspectHook point) }
  | .beforeUpdate => { l with beforeUpdate := put l.beforeUpdate entity (script.recordHook point) }
  | .beforeDelete => { l with beforeDelete := put l.beforeDelete entity (script.filterHook point) }
  | .afterFind => { l with afterFind := put l.afterFind entity (script.recordHook point) }

end ScopedAccess
