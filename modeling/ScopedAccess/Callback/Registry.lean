import ScopedAccess.Basic
import ScopedAccess.Callback.Ordering
import ScopedAccess.Sorted.Set
/-!
# The registry of callbacks

Named handlers per phase, which is the kind of an operation, and for each phase the chain of
those that run, in order. Every change orders the phase anew; a change that would close a cycle
is refused and leaves everything as it was.

A name registered again takes the place of the earlier handler and wishes, and is
noted as a duplicate. A removed callback no longer runs but still anchors others.
-/

namespace ScopedAccess

set_option autoImplicit false

/-! ## Phases -/

/-- The kind of an operation. -/
inductive Phase where
  | create
  | update
  | delete
  | query
  deriving DecidableEq

namespace Phase

def all : List Phase := [create, update, delete, query]

def word : Phase → String
  | create => "create"
  | update => "update"
  | delete => "delete"
  | query => "query"

def ofWord? (s : String) : Option Phase := all.find? fun p => p.word = s

end Phase

/-! ## Callbacks of a phase and of all phases -/

/-- Why a change was refused. -/
inductive RegistryError where
  | cycle (phase : Phase) (names : List String)
  | emptyName
  deriving DecidableEq

def RegistryError.message : RegistryError → String
  | cycle phase names =>
    "callback ordering cycle in " ++ phase.word ++ " phase among: " ++ String.intercalate ", " names
  | emptyName => "callback name must not be empty"

/-- A callback as registered. -/
structure CallbackEntry (H : Type) where
  station : Station
  handler : H
  removed : Bool

/-- The callbacks of one phase. -/
structure PhaseCallbacks (H : Type) where
  /-- In the order of registration. -/
  entries : List (CallbackEntry H)
  /-- Those that run, in order. -/
  chain : List (String × H)
  /-- Names registered more than once. -/
  duplicates : SortedSet String

/-- The callbacks of all phases. -/
structure CallbackRegistry (H : Type) where
  phase : Phase → PhaseCallbacks H

namespace CallbackEntry

variable {H : Type}

def name (e : CallbackEntry H) : String := e.station.name

end CallbackEntry

namespace PhaseCallbacks

variable {H : Type}

def empty : PhaseCallbacks H := ⟨[], [], ∅⟩

/-- The handlers of an order of names, without the removed ones. -/
def chainOf (entries : List (CallbackEntry H)) (order : List String) : List (String × H) :=
  order.filterMap fun name =>
    (entries.find? fun e => e.name = name).bind fun e =>
      if e.removed then none else some (name, e.handler)

/-- Change the entries and order them anew; the names of a cycle if there is one. -/
def withEntries (p : PhaseCallbacks H) (entries : List (CallbackEntry H)) :
    Except (List String) (PhaseCallbacks H) :=
  (orderStations (entries.map CallbackEntry.station)).map fun order =>
    { p with entries, chain := chainOf entries order }

def isKnown (p : PhaseCallbacks H) (name : String) : Bool := p.entries.any fun e => e.name = name

/-- Change the entry of a name. -/
def mapEntry (p : PhaseCallbacks H) (name : String)
    (f : CallbackEntry H → CallbackEntry H) : List (CallbackEntry H) :=
  p.entries.map fun e => if e.name = name then f e else e

/-- Add a callback, or put it in the place of an earlier one of its name. -/
def register (p : PhaseCallbacks H) (s : Station) (handler : H) :
    Except (List String) (PhaseCallbacks H) :=
  let entry : CallbackEntry H := ⟨s, handler, false⟩
  if p.isKnown s.name then
    (p.withEntries (p.mapEntry s.name fun _ => entry)).map fun p =>
      { p with duplicates := p.duplicates.insert s.name }
  else p.withEntries (p.entries ++ [entry])

/-- Give a name another handler; a new name is added without wishes. -/
def replace (p : PhaseCallbacks H) (name : String) (handler : H) :
    Except (List String) (PhaseCallbacks H) :=
  if p.isKnown name then
    p.withEntries (p.mapEntry name fun e => { e with handler, removed := false })
  else p.withEntries (p.entries ++ [⟨⟨name, none, none⟩, handler, false⟩])

/-- Keep a callback from running. -/
def remove (p : PhaseCallbacks H) (name : String) : Except (List String) (PhaseCallbacks H) :=
  p.withEntries (p.mapEntry name fun e => { e with removed := true })

end PhaseCallbacks

namespace CallbackRegistry

variable {H : Type}

def empty : CallbackRegistry H := ⟨fun _ => .empty⟩

def set (r : CallbackRegistry H) (phase : Phase) (p : PhaseCallbacks H) : CallbackRegistry H :=
  ⟨fun q => if q = phase then p else r.phase q⟩

/-- Change the callbacks of a phase. -/
def change (r : CallbackRegistry H) (phase : Phase)
    (f : PhaseCallbacks H → Except (List String) (PhaseCallbacks H)) :
    Except RegistryError (CallbackRegistry H) :=
  match f (r.phase phase) with
  | .ok p => .ok (r.set phase p)
  | .error names => .error (.cycle phase names)

/-- Add a callback to a phase. -/
def register (r : CallbackRegistry H) (phase : Phase) (s : Station) (handler : H) :
    Except RegistryError (CallbackRegistry H) :=
  if isBlankText s.name then .error .emptyName else r.change phase (·.register s handler)

/-- Give a name of a phase another handler. -/
def replace (r : CallbackRegistry H) (phase : Phase) (name : String) (handler : H) :
    Except RegistryError (CallbackRegistry H) :=
  if isBlankText name then .error .emptyName else r.change phase (·.replace name handler)

/-- Keep a callback of a phase from running. -/
def remove (r : CallbackRegistry H) (phase : Phase) (name : String) :
    Except RegistryError (CallbackRegistry H) :=
  r.change phase (·.remove name)

def chain (r : CallbackRegistry H) (phase : Phase) : List (String × H) := (r.phase phase).chain

/-- The names of the callbacks that run in a phase, in order. -/
def names (r : CallbackRegistry H) (phase : Phase) : List String := (r.chain phase).map Prod.fst

/-- The names registered more than once, phase by phase. -/
def duplicates (r : CallbackRegistry H) : List (Phase × String) :=
  Phase.all.flatMap fun phase => (r.phase phase).duplicates.toList.map fun name => (phase, name)

end CallbackRegistry

end ScopedAccess
