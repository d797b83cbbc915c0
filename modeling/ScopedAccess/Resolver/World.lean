import ScopedAccess.Resolver.Service
/-!
# Sources and caches at work

What programs run against (`ResolverWorld`): the data of a source, the texts in a
cache, and the failures that calls to them end with. Calls to the source are
counted, failing ones too.

`ResolverWorld.run` answers the calls of a program one after the other.
-/

namespace ScopedAccess

set_option autoImplicit false

/-- The calls that a source answers. -/
inductive SourceMethod where
  | assignments
  | roles
  | organizations
  deriving DecidableEq

/-- The calls that a cache answers. -/
inductive CacheMethod where
  | get
  | set
  | delete
  | deleteAll
  deriving DecidableEq

/-- The texts in a cache. -/
abbrev CacheContent : Type := SortedMap String String

/-- A source and a cache. -/
structure ResolverWorld where
  source : SourceData
  /-- The methods of the source that fail, and how. -/
  sourceFault : SourceMethod → Option PrivilegeError
  /-- How often each method of the source has been called. -/
  calls : SourceMethod → Nat
  cache : CacheContent
  /-- The methods of the cache that fail, and how. -/
  cacheFault : CacheMethod → Option ResolveError

namespace ResolverWorld

/-- A source that answers, with an empty cache. -/
def ofSource (source : SourceData) : ResolverWorld :=
  ⟨source, fun _ => none, fun _ => 0, ∅, fun _ => none⟩

/-- Answer a call to the source. -/
def answerSource {α : Type} (w : ResolverWorld) (method : SourceMethod) (value : α) :
    Except ResolveError α × ResolverWorld :=
  let w := { w with calls := fun m => if m = method then w.calls m + 1 else w.calls m }
  match w.sourceFault method with
  | some e => (.error e.cause, w)
  | none => (.ok value, w)

/-- Answer a call to the cache, which may change it. -/
def answerCache {α : Type} (w : ResolverWorld) (method : CacheMethod) (value : α)
    (change : CacheContent → CacheContent) : Except ResolveError α × ResolverWorld :=
  match w.cacheFault method with
  | some e => (.error e, w)
  | none => (.ok value, { w with cache := change w.cache })

/-- The content of a cache without the keys that have a start. -/
def withoutStart (start : String) (cache : CacheContent) : CacheContent :=
  cache.filter fun key _ => !start.toList.isPrefixOf key.toList

/-- Answer a call. -/
def answer (w : ResolverWorld) : (c : Call) → c.Answer × ResolverWorld
  | .assignments user => w.answerSource .assignments (w.source.assignmentsOf user)
  | .roles ids => w.answerSource .roles (w.source.rolesOf ids)
  | .organizations => w.answerSource .organizations w.source.organizations
  | .cacheGet key => w.answerCache .get (w.cache.find? key) id
  | .cacheSet key value => w.answerCache .set () (·.insert key value)
  | .cacheDelete key => w.answerCache .delete () (·.erase key)
  | .cacheDeleteAll start => w.answerCache .deleteAll () (withoutStart start)

/-- Run a program to its result. -/
def run {α : Type} (w : ResolverWorld) : Program α → α × ResolverWorld
  | .done result => (result, w)
  | .ask call next =>
    let (answer, w) := w.answer call
    w.run (next answer)

/-- Resolve the privileges of a principal. -/
def resolve (w : ResolverWorld) (config : ResolverConfig) (now : Int) (actor : Actor) :
    Except ResolveError Privileges × ResolverWorld :=
  w.run (Resolver.resolve config now actor).run

/-- Remove everything that the cache holds for a user. -/
def invalidate (w : ResolverWorld) (config : ResolverConfig) (user : Uuid) :
    Except ResolveError Unit × ResolverWorld :=
  w.run (Resolver.invalidate config user).run

end ResolverWorld

end ScopedAccess
