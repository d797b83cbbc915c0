import ScopedAccess.Proofs.Resolver.Resolution
/-!
# What the service does to a cache

Over a source and a cache that fail no call, what a program ends with and the cache that it leaves
follow from the data and the cache that it starts with (`SourceData.Leads`). A program that asks
the source only leaves the cache as it is, so that what is known of its end carries over
(`SourceData.Gives.leads`). One that calls the cache only ends the same way whatever becomes of
the source (`CacheContent.Turns`).

* `Resolver.leads_resolve_uncached`, `Resolver.leads_resolve`, `Resolver.leads_invalidate`: what
  the calls of the service lead to.
-/

namespace ScopedAccess

set_option autoImplicit false

variable {α β : Type} {s : SourceData} {c c' c'' : CacheContent}

/-- A source with some data and a cache with some content, which fail no call. -/
structure ResolverWorld.Works (w : ResolverWorld) (s : SourceData) (c : CacheContent) : Prop where
  answers : w.Answers s
  working : ∀ method, w.cacheFault method = none
  content : w.cache = c

theorem ResolverWorld.works_ofSource (s : SourceData) : (ResolverWorld.ofSource s).Works s ∅ :=
  ⟨⟨rfl, fun _ => rfl⟩, fun _ => rfl, rfl⟩

/-- Programs that leave the cache as it is. -/
def Program.KeepsCache (x : Program α) : Prop :=
  ∀ w : ResolverWorld, (w.run x).2.cache = w.cache ∧ (w.run x).2.cacheFault = w.cacheFault

namespace SourceData

/-! ## Ends of programs -/

/-- What a program ends with over a source and a cache that answer every call, and the cache that
it leaves. -/
def Leads (s : SourceData) (c : CacheContent) (x : Attempt α) (result : Except ResolveError α)
    (c' : CacheContent) : Prop :=
  ∀ w : ResolverWorld, w.Works s c → (w.run x.run).1 = result ∧ (w.run x.run).2.Works s c'

theorem leads_pure (a : α) : s.Leads c (pure a) (.ok a) c := fun _ works => ⟨rfl, works⟩

theorem Leads.bind {x : Attempt α} {f : α → Attempt β} {a : α} {result : Except ResolveError β}
    (first : s.Leads c x (.ok a) c') (rest : s.Leads c' (f a) result c'') :
    s.Leads c (x >>= f) result c'' := by
  intro w works
  obtain ⟨ends, works'⟩ := first w works
  rw [ResolverWorld.run_attempt_bind, ends]
  exact rest _ works'

theorem Leads.bind_error {x : Attempt α} {f : α → Attempt β} {e : ResolveError}
    (first : s.Leads c x (.error e) c') : s.Leads c (x >>= f) (.error e) c' := by
  intro w works
  obtain ⟨ends, works'⟩ := first w works
  rw [ResolverWorld.run_attempt_bind, ends]
  exact ⟨rfl, works'⟩

theorem Leads.bind_pure {x : Attempt α} {result : Except ResolveError α}
    (leads : s.Leads c x result c') : s.Leads c (x >>= pure) result c' := by
  cases result with
  | error e => exact leads.bind_error
  | ok a => exact leads.bind (leads_pure a)

end SourceData

/-! ## Programs that call the cache only -/

namespace CacheContent

/-- What a program that calls the cache only ends with, and the content that it leaves. The cache
fails no call, and the source is left alone. -/
def Turns (c : CacheContent) (x : Attempt α) (result : Except ResolveError α)
    (c' : CacheContent) : Prop :=
  ∀ w : ResolverWorld, (∀ method, w.cacheFault method = none) → w.cache = c →
    w.run x.run = (result, { w with cache := c' })

theorem Turns.leads {x : Attempt α} {result : Except ResolveError α}
    (turns : c.Turns x result c') : s.Leads c x result c' := by
  intro w works
  rw [turns w works.working works.content]
  exact ⟨rfl, ⟨works.answers.source, works.answers.answering⟩, works.working, rfl⟩

theorem turns_pure (a : α) : c.Turns (pure a) (.ok a) c := by
  rintro w - rfl
  rfl

theorem Turns.bind {x : Attempt α} {f : α → Attempt β} {a : α} {result : Except ResolveError β}
    (first : c.Turns x (.ok a) c') (rest : c'.Turns (f a) result c'') :
    c.Turns (x >>= f) result c'' := by
  intro w working content
  rw [ResolverWorld.run_attempt_bind, first w working content]
  exact rest _ working rfl

/-- Calls to the cache are answered from it. -/
theorem turns_ask (call : Call) (method : CacheMethod) (value : CacheContent → call.Result)
    (change : CacheContent → CacheContent)
    (asks : ∀ w : ResolverWorld, w.answer call = w.answerCache method (value w.cache) change) :
    c.Turns call.ask (.ok (value c)) (change c) := by
  rintro w working rfl
  have run : w.run call.ask.run = w.answerCache method (value w.cache) change := asks w
  rw [run, ResolverWorld.answerCache, working]

theorem turns_cacheGet (key : String) : c.Turns (Call.cacheGet key).ask (.ok (c.find? key)) c :=
  turns_ask (.cacheGet key) .get (·.find? key) id fun _ => rfl

theorem turns_cacheSet (key value : String) :
    c.Turns (Call.cacheSet key value).ask (.ok ()) (c.insert key value) :=
  turns_ask (.cacheSet key value) .set (fun _ => ()) (·.insert key value) fun _ => rfl

theorem turns_cacheDelete (key : String) :
    c.Turns (Call.cacheDelete key).ask (.ok ()) (c.erase key) :=
  turns_ask (.cacheDelete key) .delete (fun _ => ()) (·.erase key) fun _ => rfl

theorem turns_cacheDeleteAll (start : String) :
    c.Turns (Call.cacheDeleteAll start).ask (.ok ()) (ResolverWorld.withoutStart start c) :=
  turns_ask (.cacheDeleteAll start) .deleteAll (fun _ => ()) _ fun _ => rfl

/-- Deleting by several starts, one after the other. -/
theorem turns_forM (starts : List String) (start : String → String) :
    c.Turns (starts.forM fun r => (Call.cacheDeleteAll (start r)).ask) (.ok ())
      (starts.foldl (fun c r => ResolverWorld.withoutStart (start r) c) c) := by
  induction starts generalizing c with
  | nil => exact turns_pure ()
  | cons r rest ih => exact (turns_cacheDeleteAll (start r)).bind ih

end CacheContent

namespace SourceData

/-! ## Programs that ask the source only -/

theorem keepsCache_pure (a : α) : (pure a : Attempt α).run.KeepsCache := fun _ => ⟨rfl, rfl⟩

theorem keepsCache_throw (e : ResolveError) : (throw e : Attempt α).run.KeepsCache :=
  fun _ => ⟨rfl, rfl⟩

theorem keepsCache_ask (call : Call) (method : SourceMethod)
    (value : ResolverWorld → call.Result)
    (asks : ∀ w : ResolverWorld, w.answer call = w.answerSource method (value w)) :
    call.ask.run.KeepsCache := by
  intro w
  have run : w.run call.ask.run = w.answer call := rfl
  rw [run, asks, ResolverWorld.answerSource]
  split <;> exact ⟨rfl, rfl⟩

theorem keepsCache_bind {x : Attempt α} {f : α → Attempt β} (first : x.run.KeepsCache)
    (rest : ∀ a, (f a).run.KeepsCache) : (x >>= f).run.KeepsCache := by
  intro w
  obtain ⟨cache, faults⟩ := first w
  rw [ResolverWorld.run_attempt_bind]
  cases (w.run x.run).1 with
  | error e => exact ⟨cache, faults⟩
  | ok a =>
      obtain ⟨cache', faults'⟩ := rest a (w.run x.run).2
      exact ⟨cache'.trans cache, faults'.trans faults⟩

theorem Gives.leads {x : Attempt α} {result : Except ResolveError α} (gives : s.Gives x result)
    (keeps : x.run.KeepsCache) : s.Leads c x result c := by
  intro w works
  obtain ⟨cache, faults⟩ := keeps w
  refine ⟨gives w works.answers, works.answers.run _, fun method => ?_, cache.trans works.content⟩
  rw [faults]
  exact works.working method

end SourceData

namespace SourceData

/-- What the data say of a user in an organization at a time. -/
def computed (s : SourceData) (now : Int) (user org : Uuid) : Except ResolveError Privileges :=
  match ActiveRoles.ofAssignments? now (s.assignmentsOf user) with
  | none => .error (.noAssignments user)
  | some active => (s.privilegesOf (s.rolesOf active.ids) user org).mapError .tree

end SourceData

/-! ## The content of the cache -/

namespace CacheContent

/-- The privileges of an entry that may be used. -/
def usable? (c : CacheContent) (now : Int) (user org : Uuid) : Option Privileges := do
  let roleSet ← c.find? (pointerKey user)
  let text ← c.find? (entryKey roleSet user org)
  let entry ← CachedPrivileges.decode? text
  if entry.isFreshAt now then some entry.privileges else none

/-- The content with an entry more. -/
def stored (c : CacheContent) (user org : Uuid) (active : ActiveRoles) (p : Privileges) :
    CacheContent :=
  let roleSet := joinRoleIds active.ids
  let entry : CachedPrivileges := ⟨p, active.validUntil⟩
  let c := c.insert (entryKey roleSet user org) entry.encode
  (c.insert (roleSetsKey user) (addRoleSet (c.find? (roleSetsKey user)) roleSet)).insert
    (pointerKey user) roleSet

/-- The content after resolving anew: with an entry more if that gave privileges. -/
def refreshed (c : CacheContent) (s : SourceData) (now : Int) (user org : Uuid) : CacheContent :=
  match ActiveRoles.ofAssignments? now (s.assignmentsOf user) with
  | none => c
  | some active =>
    match s.privilegesOf (s.rolesOf active.ids) user org with
    | .error _ => c
    | .ok p => c.stored user org active p

/-- The content without the entries of a user. -/
def withoutUser (c : CacheContent) (user : Uuid) : CacheContent :=
  let starts := ((c.find? (roleSetsKey user)).map roleSets).getD []
  ((starts.foldl (fun c r => ResolverWorld.withoutStart (entriesStart r user) c) c).erase
    (roleSetsKey user)).erase (pointerKey user)

end CacheContent

namespace Resolver

open SourceData CacheContent

variable {config : ResolverConfig} {now : Int} {user org : Uuid} {actor : Actor}
  {active : ActiveRoles} {p : Privileges}

theorem keepsCache_activeRoles (now : Int) (user : Uuid) : (activeRoles now user).run.KeepsCache := by
  refine keepsCache_bind (keepsCache_ask (.assignments user) .assignments _ fun _ => rfl)
    fun assignments => ?_
  split
  · exact keepsCache_pure _
  · exact keepsCache_throw _

theorem keepsCache_compute (user org : Uuid) (ids : List Uuid) :
    (compute user org ids).run.KeepsCache := by
  refine keepsCache_bind (keepsCache_ask (.roles ids) .roles _ fun _ => rfl) fun roles =>
    keepsCache_bind (keepsCache_ask .organizations .organizations _ fun _ => rfl)
      fun organizations => ?_
  split
  · exact keepsCache_throw _
  · split
    · exact keepsCache_throw _
    · exact keepsCache_pure _

theorem leads_activeRoles : s.Leads c (activeRoles now user)
    (match ActiveRoles.ofAssignments? now (s.assignmentsOf user) with
      | some active => .ok active
      | none => .error (.noAssignments user)) c := by
  refine Gives.leads ((gives_assignments user).bind ?_) (keepsCache_activeRoles now user)
  cases ActiveRoles.ofAssignments? now (s.assignmentsOf user) with
  | none => exact gives_throw _
  | some active => exact gives_pure _

theorem leads_compute (user org : Uuid) (ids : List Uuid) : s.Leads c (compute user org ids)
    ((s.privilegesOf (s.rolesOf ids) user org).mapError .tree) c :=
  (gives_compute user org ids).leads (keepsCache_compute user org ids)

theorem turns_cached : c.Turns (cached now user org) (.ok (c.usable? now user org)) c := by
  refine (turns_cacheGet (pointerKey user)).bind ?_
  rw [CacheContent.usable?]
  cases c.find? (pointerKey user) with
  | none => exact turns_pure none
  | some roleSet =>
      refine (turns_cacheGet (entryKey roleSet user org)).bind ?_
      simp only [Option.bind_eq_bind, Option.bind_some]
      cases c.find? (entryKey roleSet user org) with
      | none => exact turns_pure none
      | some text =>
          simp only [Option.bind_some]
          cases CachedPrivileges.decode? text with
          | none => exact turns_pure none
          | some entry => exact turns_pure _

theorem turns_store : c.Turns (store user org active p) (.ok ()) (c.stored user org active p) :=
  (turns_cacheSet _ _).bind ((turns_cacheGet _).bind ((turns_cacheSet _ _).bind
    (turns_cacheSet _ _)))

/-- Removing the entries of a user. -/
theorem turns_invalidate (enabled : config.cacheEnabled = true) :
    c.Turns (invalidate config user) (.ok ()) (c.withoutUser user) := by
  simp only [invalidate, enabled, if_true]
  refine (turns_cacheGet (roleSetsKey user)).bind ?_
  have rest : ∀ c' : CacheContent, c'.Turns ((Call.cacheDelete (roleSetsKey user)).ask >>= fun _ =>
      (Call.cacheDelete (pointerKey user)).ask) (.ok ())
        ((c'.erase (roleSetsKey user)).erase (pointerKey user)) :=
    fun c' => (turns_cacheDelete _).bind (turns_cacheDelete _)
  rw [CacheContent.withoutUser]
  cases c.find? (roleSetsKey user) with
  | none => exact rest c
  | some index => exact (turns_forM (roleSets index) fun r => entriesStart r user).bind (rest _)

theorem turns_invalidate_uncached (uncached : config.cacheEnabled = false) :
    c.Turns (invalidate config user) (.ok ()) c := by
  simp only [invalidate, uncached, Bool.false_eq_true, if_false]
  exact turns_pure ()

/-! ## The calls of the service -/

/-- The root principal is answered at once. -/
theorem leads_resolve_root (root : actor.id = config.rootUser) :
    s.Leads c (resolve config now actor) (.ok (.root actor.id actor.activeOrg)) c := by
  simp only [resolve, root, if_true]
  exact leads_pure _

/-- Resolving without a cache ends with what the data say. -/
theorem leads_resolve_uncached (uncached : config.cacheEnabled = false)
    (checked : actor.id ≠ config.rootUser) :
    s.Leads c (resolve config now actor) (s.computed now actor.id actor.activeOrg) c := by
  have first : s.Leads c (activeRoles now actor.id) _ c := leads_activeRoles
  rw [resolve_uncached uncached checked, SourceData.computed]
  cases found : ActiveRoles.ofAssignments? now (s.assignmentsOf actor.id) with
  | none =>
      rw [found] at first
      exact first.bind_error
  | some active =>
      rw [found] at first
      exact first.bind (leads_compute actor.id actor.activeOrg active.ids).bind_pure

theorem leads_resolveFresh (enabled : config.cacheEnabled = true) :
    s.Leads c (resolveFresh config now actor) (s.computed now actor.id actor.activeOrg)
      (c.refreshed s now actor.id actor.activeOrg) := by
  have first : s.Leads c (activeRoles now actor.id) _ c := leads_activeRoles
  rw [resolveFresh, SourceData.computed, CacheContent.refreshed]
  simp only [enabled, if_true]
  cases found : ActiveRoles.ofAssignments? now (s.assignmentsOf actor.id) with
  | none =>
      rw [found] at first
      exact first.bind_error
  | some active =>
      rw [found] at first
      refine first.bind ?_
      dsimp only
      have second : s.Leads c (compute actor.id actor.activeOrg active.ids) _ c :=
        leads_compute actor.id actor.activeOrg active.ids
      cases computed : s.privilegesOf (s.rolesOf active.ids) actor.id actor.activeOrg with
      | error e =>
          rw [computed] at second
          exact second.bind_error
      | ok p =>
          rw [computed] at second
          exact second.bind (turns_store.leads.bind (leads_pure p))

/-- Resolving with a cache uses an entry if one may be used, and resolves anew if not. -/
theorem leads_resolve (enabled : config.cacheEnabled = true)
    (checked : actor.id ≠ config.rootUser) :
    (∀ p, c.usable? now actor.id actor.activeOrg = some p →
      s.Leads c (resolve config now actor) (.ok p) c) ∧
    (c.usable? now actor.id actor.activeOrg = none →
      s.Leads c (resolve config now actor) (s.computed now actor.id actor.activeOrg)
        (c.refreshed s now actor.id actor.activeOrg)) := by
  have first : s.Leads c (cached now actor.id actor.activeOrg) _ c := turns_cached.leads
  simp only [resolve, enabled, checked, if_false, if_true]
  refine ⟨fun p found => ?_, fun none => ?_⟩
  · rw [found] at first
    exact first.bind (leads_pure p)
  · rw [none] at first
    exact first.bind (leads_resolveFresh enabled)

theorem leads_invalidate (enabled : config.cacheEnabled = true) :
    s.Leads c (invalidate config user) (.ok ()) (c.withoutUser user) :=
  (turns_invalidate enabled).leads

theorem leads_invalidate_uncached (uncached : config.cacheEnabled = false) :
    s.Leads c (invalidate config user) (.ok ()) c :=
  (turns_invalidate_uncached uncached).leads

end Resolver

end ScopedAccess
