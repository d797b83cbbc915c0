import ScopedAccess.Proofs.Resolver.Caching
/-!
# What invalidating a user removes

Everything that the cache holds for a user, and nothing else. An index that misses no entry is not
enough for that: entries are removed by how their keys start, so the role sets in the index must
not reach into the keys of others. `CacheContent.Tidy` is what both need. Storing an entry and
removing a user keep it (`Tidy.stored`, `Tidy.withoutUser`), and these are the only ways in which
calls change the cache (`Resolver.resolve_leaves`), whatever the source fails with.

* `invalidation_complete`: invalidating in any state that calls lead to.
-/

namespace ScopedAccess

set_option autoImplicit false

variable {key : String} {user user' org : Uuid}

/-! ## Keys of a user -/

/-- The keys that are written for a user. -/
inductive KeyOf (user : Uuid) : String → Prop where
  | entry (roleSet : String) (org : Uuid) : KeyOf user (entryKey roleSet user org)
  | pointer : KeyOf user (pointerKey user)
  | roleSets : KeyOf user (roleSetsKey user)

/-- No key is written for two users. -/
theorem KeyOf.unique (first : KeyOf user key) (second : KeyOf user' key) : user = user' := by
  generalize same : key = key' at second
  cases first with
  | entry r org =>
      cases second with
      | entry r' org' => exact (entryKey_inj.mp same).2.1
      | pointer => exact absurd same entryKey_ne_pointerKey
      | roleSets => exact absurd same entryKey_ne_roleSetsKey
  | pointer =>
      cases second with
      | entry r' org' => exact absurd same.symm entryKey_ne_pointerKey
      | pointer => exact pointerKey_inj.mp same
      | roleSets => exact absurd same pointerKey_ne_roleSetsKey
  | roleSets =>
      cases second with
      | entry r' org' => exact absurd same.symm entryKey_ne_roleSetsKey
      | pointer => exact absurd same.symm pointerKey_ne_roleSetsKey
      | roleSets => exact roleSetsKey_inj.mp same

/-! ## Tidy caches -/

namespace CacheContent

variable {c : CacheContent} {active : ActiveRoles} {p : Privileges}

/-- A cache in which every key is some user's, every entry is listed, and no listed role set has
an underscore. -/
structure Tidy (c : CacheContent) : Prop where
  keyed : ∀ {key text}, c.find? key = some text → ∃ user, KeyOf user key
  lists : ∀ user, c.Lists user
  plain : ∀ {user index r}, c.find? (roleSetsKey user) = some index → r ∈ roleSets index →
    '_' ∉ r.toList

theorem tidy_empty : Tidy ∅ where
  keyed found := by cases found
  lists _ _ _ _ found := by cases found
  plain found := by cases found

theorem Tidy.stored (tidy : c.Tidy) (some_ : active.ids ≠ []) :
    (c.stored user org active p).Tidy where
  keyed := by
    intro key text found
    rw [find?_stored] at found
    split at found
    · rename_i pointer
      exact ⟨user, pointer ▸ .pointer⟩
    · split at found
      · rename_i list
        exact ⟨user, list ▸ .roleSets⟩
      · split at found
        · rename_i entry
          exact ⟨user, entry ▸ .entry _ _⟩
        · exact tidy.keyed found
  lists _ := (tidy.lists _).stored some_
  plain := by
    intro user' index r found member
    by_cases same : user' = user
    · subst same
      rw [find?_stored_roleSetsKey] at found
      cases found
      rcases (mem_roleSets_addRoleSet (listable_joinRoleIds some_)).mp member with earlier | rfl
      · cases known : c.find? (roleSetsKey user') with
        | none =>
            rw [known] at earlier
            cases earlier
        | some index =>
            rw [known] at earlier
            exact tidy.plain known earlier
      · exact underscore_not_mem_joinRoleIds active.ids
    · rw [find?_stored_roleSetsKey_of_ne same] at found
      exact tidy.plain found member

theorem Tidy.withoutUser (tidy : c.Tidy) : (c.withoutUser user).Tidy where
  keyed found := tidy.keyed (find?_of_withoutUser found)
  lists _ := (tidy.lists _).withoutUser
  plain found := tidy.plain (find?_of_withoutUser found)

/-- No key of the user is left. -/
theorem Tidy.find?_withoutUser (tidy : c.Tidy) (own : KeyOf user key) :
    (c.withoutUser user).find? key = none := by
  cases own with
  | entry r org =>
      cases found : c.find? (entryKey r user org) with
      | none =>
          by_contra left
          obtain ⟨text, left⟩ := Option.ne_none_iff_exists'.mp left
          rw [find?_of_withoutUser left] at found
          cases found
      | some text =>
          obtain ⟨index, known, member⟩ := tidy.lists user found
          exact find?_withoutUser_entryKey known member
  | pointer => rw [CacheContent.withoutUser, SortedMap.find?_erase, if_pos rfl]
  | roleSets =>
      rw [CacheContent.withoutUser, SortedMap.find?_erase, SortedMap.find?_erase, if_pos rfl,
        ite_self]

/-- An entry of another user has none of the starts by which the user's entries are removed. -/
theorem Tidy.not_begins {index r : String} (tidy : c.Tidy)
    (known : c.find? (roleSetsKey user) = some index) (member : r ∈ roleSets index)
    {text : String} (found : c.find? key = some text) (foreign : ¬ KeyOf user key) :
    ¬ (entriesStart r user).toList <+: key.toList := by
  obtain ⟨other, own⟩ := tidy.keyed found
  cases own with
  | entry r' org =>
      obtain ⟨index', known', member'⟩ := tidy.lists other found
      intro begins
      obtain ⟨-, rfl⟩ :=
        (begins_entryKey_iff (tidy.plain known member) (tidy.plain known' member')).mp begins
      exact foreign (.entry r' org)
  | pointer => exact pointerKey_not_begins
  | roleSets => exact roleSetsKey_not_begins

/-- The keys of others stay, with what they hold. -/
theorem Tidy.find?_withoutUser_of_not (tidy : c.Tidy) (foreign : ¬ KeyOf user key) :
    (c.withoutUser user).find? key = c.find? key := by
  have notPointer : key ≠ pointerKey user := fun same => foreign (same ▸ .pointer)
  have notRoleSets : key ≠ roleSetsKey user := fun same => foreign (same ▸ .roleSets)
  rw [CacheContent.withoutUser, SortedMap.find?_erase, if_neg notPointer, SortedMap.find?_erase,
    if_neg notRoleSets, find?_foldl_withoutStart]
  split
  · rename_i removed
    obtain ⟨r, member, begins⟩ := List.any_eq_true.mp removed
    cases known : c.find? (roleSetsKey user) with
    | none =>
        rw [known] at member
        cases member
    | some index =>
        rw [known] at member
        cases found : c.find? key with
        | none => rfl
        | some text =>
            exact absurd (List.isPrefixOf_iff_prefix.mp begins)
              (tidy.not_begins known member found foreign)
  · rfl

end CacheContent

/-! ## What resolving leaves -/

namespace Resolver

variable {w : ResolverWorld} {config : ResolverConfig} {now : Int} {actor : Actor}

/-- The roles that a user is found to hold are never none. -/
theorem activeRoles_ids_ne_nil {active : ActiveRoles}
    (found : (w.run (activeRoles now user).run).1 = .ok active) : active.ids ≠ [] := by
  rw [activeRoles, ResolverWorld.run_attempt_bind] at found
  cases answered : (w.run (Call.assignments user).ask.run).1 with
  | error e =>
      rw [answered] at found
      cases found
  | ok assignments =>
      rw [answered] at found
      cases held : ActiveRoles.ofAssignments? now assignments with
      | none =>
          simp only [ExceptT.bindCont, held] at found
          cases found
      | some active' =>
          simp only [ExceptT.bindCont, held] at found
          cases found
          exact CacheContent.ids_ne_nil held

/-- What resolving leaves of a cache that fails no call, whatever the source fails with: the cache
as it was, or one with an entry for the privileges found. -/
structure Leaves (config : ResolverConfig) (actor : Actor) (w : ResolverWorld)
    (after : Except ResolveError Privileges × ResolverWorld) : Prop where
  working : ∀ method, after.2.cacheFault method = none
  cases : after.2.cache = w.cache ∨ ∃ active p, config.cacheEnabled = true ∧ active.ids ≠ [] ∧
    after.1 = .ok p ∧ after.2.cache = w.cache.stored actor.id actor.activeOrg active p

variable (working : ∀ method, w.cacheFault method = none)

include working

theorem resolveFresh_leaves :
    Leaves config actor w (w.run (resolveFresh config now actor).run) := by
  rw [resolveFresh, ResolverWorld.run_attempt_bind]
  obtain ⟨cache, faults⟩ := keepsCache_activeRoles now actor.id w
  cases found : (w.run (activeRoles now actor.id).run).1 with
  | error e => exact ⟨fun method => (congrFun faults method).trans (working method), .inl cache⟩
  | ok active =>
      have held : active.ids ≠ [] := activeRoles_ids_ne_nil found
      simp only [ExceptT.bindCont]
      generalize (w.run (activeRoles now actor.id).run).2 = w₁ at cache faults ⊢
      change Leaves config actor w (w₁.run (compute actor.id actor.activeOrg active.ids >>= _).run)
      rw [ResolverWorld.run_attempt_bind]
      obtain ⟨cache', faults'⟩ := keepsCache_compute actor.id actor.activeOrg active.ids w₁
      have working₂ : ∀ method,
          (w₁.run (compute actor.id actor.activeOrg active.ids).run).2.cacheFault method = none :=
        fun method => by rw [faults', faults, working]
      have cache₂ := cache'.trans cache
      generalize w₁.run (compute actor.id actor.activeOrg active.ids).run = computed at *
      obtain ⟨result, w₂⟩ := computed
      cases result with
      | error e => exact ⟨working₂, .inl cache₂⟩
      | ok p =>
          simp only [ExceptT.bindCont]
          cases enabled : config.cacheEnabled with
          | false => exact ⟨working₂, .inl cache₂⟩
          | true =>
              have turns : CacheContent.Turns w₂.cache
                  (store actor.id actor.activeOrg active p >>= fun _ => pure p) (.ok p) _ :=
                turns_store.bind (CacheContent.turns_pure p)
              have ran := turns w₂ working₂ rfl
              simp only [if_true]
              change Leaves config actor w (w₂.run
                (store actor.id actor.activeOrg active p >>= fun _ => pure p).run)
              rw [ran]
              exact ⟨working₂, .inr ⟨active, p, enabled, held, rfl, by rw [cache₂]⟩⟩

theorem resolve_leaves : Leaves config actor w (w.resolve config now actor) := by
  rw [ResolverWorld.resolve, resolve]
  by_cases root : actor.id = config.rootUser
  · rw [if_pos root]
    exact ⟨working, .inl rfl⟩
  · rw [if_neg root]
    cases enabled : config.cacheEnabled with
    | false => exact resolveFresh_leaves working
    | true =>
        simp only [if_true]
        rw [ResolverWorld.run_attempt_bind, turns_cached w working rfl]
        cases w.cache.usable? now actor.id actor.activeOrg with
        | none => exact resolveFresh_leaves working
        | some p => exact ⟨working, .inl rfl⟩

end Resolver

/-! ## Reached states -/

namespace ResolverWorld

/-- The states that calls lead to from an empty cache. In between the source may change, and fail
or answer as it likes. -/
inductive Reached (config : ResolverConfig) : ResolverWorld → Prop where
  | start (source : SourceData) : Reached config (.ofSource source)
  | changed {w : ResolverWorld} (reached : Reached config w) (source : SourceData)
      (sourceFault : SourceMethod → Option PrivilegeError) :
      Reached config { w with source, sourceFault }
  | resolved {w : ResolverWorld} (reached : Reached config w) (now : Int) (actor : Actor) :
      Reached config (w.resolve config now actor).2
  | invalidated {w : ResolverWorld} (reached : Reached config w) (user : Uuid) :
      Reached config (w.invalidate config user).2

/-- What holds of the cache in reached states. -/
structure Orderly (config : ResolverConfig) (w : ResolverWorld) : Prop where
  working : ∀ method, w.cacheFault method = none
  tidy : w.cache.Tidy
  unused : config.cacheEnabled = false → w.cache = ∅

variable {config : ResolverConfig} {w : ResolverWorld}

theorem Orderly.resolved (orderly : w.Orderly config) (now : Int) (actor : Actor) :
    (w.resolve config now actor).2.Orderly config := by
  obtain ⟨working, cases⟩ : Resolver.Leaves config actor w (w.resolve config now actor) :=
    Resolver.resolve_leaves orderly.working
  rcases cases with same | ⟨active, p, enabled, held, -, stored⟩
  · exact ⟨working, same ▸ orderly.tidy, fun disabled => same.trans (orderly.unused disabled)⟩
  · refine ⟨working, stored ▸ orderly.tidy.stored held, fun disabled => ?_⟩
    rw [enabled] at disabled
    cases disabled

/-- What invalidating does in a state that calls lead to. -/
theorem Orderly.invalidate (orderly : w.Orderly config) (user : Uuid) :
    w.invalidate config user = (.ok (), { w with cache := w.cache.withoutUser user }) := by
  cases enabled : config.cacheEnabled with
  | true => exact Resolver.turns_invalidate enabled w orderly.working rfl
  | false =>
      have empty := orderly.unused enabled
      have same : w.cache.withoutUser user = w.cache := by
        rw [empty]
        rfl
      rw [same]
      exact Resolver.turns_invalidate_uncached enabled w orderly.working rfl

theorem Reached.orderly (reached : w.Reached config) : w.Orderly config := by
  induction reached with
  | start source => exact ⟨fun _ => rfl, CacheContent.tidy_empty, fun _ => rfl⟩
  | changed reached source sourceFault ih => exact ⟨ih.working, ih.tidy, ih.unused⟩
  | resolved reached now actor ih => exact ih.resolved now actor
  | invalidated reached user ih =>
      rw [ih.invalidate user]
      refine ⟨ih.working, ih.tidy.withoutUser, fun disabled => ?_⟩
      rw [ih.unused disabled]
      rfl

end ResolverWorld

/-- Invalidating is complete and confined. In every state that calls lead to, each key of the
cache is some user's, and each entry is listed with its user's role sets. Invalidating a user
leaves no key of that user and changes no key of another one, and what fails to resolve changes no
key at all. -/
theorem invalidation_complete (config : ResolverConfig) (w : ResolverWorld)
    (reached : w.Reached config) :
    (∀ key text, w.cache.find? key = some text → ∃ user, KeyOf user key) ∧
    (∀ roleSet user org text, w.cache.find? (entryKey roleSet user org) = some text →
      ∃ index, w.cache.find? (roleSetsKey user) = some index ∧ roleSet ∈ roleSets index) ∧
    (∀ user, (w.invalidate config user).1 = .ok () ∧
      (∀ key, KeyOf user key → (w.invalidate config user).2.cache.find? key = none) ∧
      ∀ other key, other ≠ user → KeyOf other key →
        (w.invalidate config user).2.cache.find? key = w.cache.find? key) ∧
    ∀ now actor e, (w.resolve config now actor).1 = .error e →
      (w.resolve config now actor).2.cache = w.cache := by
  have orderly := reached.orderly
  refine ⟨fun _ _ found => orderly.tidy.keyed found,
    fun _ user _ _ found => orderly.tidy.lists user found, fun user => ?_,
    fun now actor e failed => ?_⟩
  · rw [orderly.invalidate user]
    refine ⟨rfl, fun key own => orderly.tidy.find?_withoutUser own, fun other key differs own => ?_⟩
    exact orderly.tidy.find?_withoutUser_of_not fun shared => differs (own.unique shared)
  · rcases (Resolver.resolve_leaves orderly.working).cases with same | ⟨active, p, -, -, ok, -⟩
    · exact same
    · rw [failed] at ok
      cases ok

namespace Notebook

def clerk : Actor := ⟨.ofNat 35, none, headOffice⟩

/-- The districts with a clerk for good. -/
def staffed : SourceData :=
  { districts with assignments := ⟨clerk.id, .ofNat 48, 0⟩ :: districts.assignments }

/-- The clerk has been resolved, and then all data are lost. -/
def afterLoss : ResolverWorld :=
  { ((ResolverWorld.ofSource staffed).resolve .default 1 clerk).2 with source := .empty }

theorem afterLoss_reached : afterLoss.Reached .default := by
  have start : (ResolverWorld.ofSource staffed).Reached .default := .start staffed
  exact (start.resolved 1 clerk).changed .empty _

end Notebook

open Notebook in
/-- The cache goes on to know the clerk when the auditor is invalidated and when the auditor is not
resolved, and no longer when the clerk is invalidated. -/
theorem clerk_forgotten :
    afterLoss.cache.find? (pointerKey clerk.id) = some (joinRoleIds [.ofNat 48]) ∧
      (afterLoss.invalidate .default clerk.id).2.cache.find? (pointerKey clerk.id) = none ∧
      (afterLoss.invalidate .default auditor.id).2.cache.find? (pointerKey clerk.id) =
        some (joinRoleIds [.ofNat 48]) ∧
      (afterLoss.resolve .default 1 auditor).2.cache = afterLoss.cache := by
  obtain ⟨-, -, removes, fails⟩ := invalidation_complete .default afterLoss afterLoss_reached
  obtain ⟨known, unresolved⟩ :
      afterLoss.cache.find? (pointerKey clerk.id) = some (joinRoleIds [.ofNat 48]) ∧
        (afterLoss.resolve .default 1 auditor).1 = .error (.noAssignments auditor.id) := by
    decide +kernel
  have gone := (removes clerk.id).2.1 _ .pointer
  have stays := (removes auditor.id).2.2 clerk.id _ (by decide +kernel) .pointer
  exact ⟨known, gone, stays.trans known, fails 1 auditor _ unresolved⟩

end ScopedAccess
