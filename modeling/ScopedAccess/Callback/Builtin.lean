import ScopedAccess.Callback.Registry
/-!
# The callbacks of the engine

The callbacks that every operation runs unless told otherwise, in their order per
phase. Their names start with `adminkit:`, and applications anchor their own
callbacks on them. They have no wishes themselves, so the order in which they are
registered is the one they run in.
-/

namespace ScopedAccess

set_option autoImplicit false

/-- The callbacks of the engine. -/
inductive Builtin where
  | compileFilter
  | injectScope
  | excludeDeleted
  | query
  | afterFind
  | redactSecrets
  | beforeCreate
  | stampOwner
  | checkWriteScope
  | create
  | afterCreate
  | stampModifier
  | beforeUpdate
  | update
  | beforeDelete
  | delete
  | audit
  deriving DecidableEq

namespace Builtin

def name : Builtin → String
  | compileFilter => "adminkit:compile_filter"
  | injectScope => "adminkit:inject_scope"
  | excludeDeleted => "adminkit:exclude_deleted"
  | query => "adminkit:query"
  | afterFind => "adminkit:after_find"
  | redactSecrets => "adminkit:redact_secrets"
  | beforeCreate => "adminkit:before_create"
  | stampOwner => "adminkit:stamp_owner"
  | checkWriteScope => "adminkit:check_write_scope"
  | create => "adminkit:create"
  | afterCreate => "adminkit:after_create"
  | stampModifier => "adminkit:stamp_modifier"
  | beforeUpdate => "adminkit:before_update"
  | update => "adminkit:update"
  | beforeDelete => "adminkit:before_delete"
  | delete => "adminkit:delete"
  | audit => "adminkit:audit"

/-- The callbacks of a phase, in the order they run in. -/
def ofPhase : Phase → List Builtin
  | .query =>
    [compileFilter, injectScope, excludeDeleted, query, afterFind, redactSecrets, audit]
  | .create => [beforeCreate, stampOwner, checkWriteScope, create, afterCreate, audit]
  | .update =>
    [compileFilter, injectScope, excludeDeleted, stampModifier, beforeUpdate, update, audit]
  | .delete =>
    [compileFilter, injectScope, excludeDeleted, beforeDelete, stampModifier, delete, audit]

end Builtin

namespace PhaseCallbacks

variable {H : Type}

/-- The engine's callbacks of a phase. -/
def ofBuiltins (handler : Builtin → H) (phase : Phase) : PhaseCallbacks H :=
  let builtins := Builtin.ofPhase phase
  { entries := builtins.map fun b => ⟨⟨b.name, none, none⟩, handler b, false⟩
    chain := builtins.map fun b => (b.name, handler b)
    duplicates := ∅ }

end PhaseCallbacks

/-- The engine's callbacks. -/
def CallbackRegistry.withBuiltins {H : Type} (handler : Builtin → H) : CallbackRegistry H :=
  ⟨.ofBuiltins handler⟩

end ScopedAccess
