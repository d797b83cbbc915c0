import ScopedAccess.Proofs.Resolver.Interleaving
/-!
# Stale entries

A call that is under way while the source changes goes on with what it has read before. So its
entry may come into the cache after the change, and it is stale: the data that the source has now
have not given it (`SourceData.Gave`). What invalidating a user relies on is that the stale entries
of the user are listed (`Moment.Accounted`).

`Program.Upholds` says of a program that it keeps them listed, adds none and ends as a condition
says, if all that happens between its calls does so too. In this sense it can be said of each call
of the service by itself what it does among others:

* `Resolver.upholds_resolve`: to resolve gives what the data say if there are no stale entries;
* `Resolver.upholds_invalidate`: to invalidate a user leaves no stale entries.
-/

namespace ScopedAccess

set_option autoImplicit false

variable {α β : Type}

/-! ## Stale entries -/

/-- A cache at a time. -/
structure Moment where
  cache : CacheContent
  clock : Int

/-- The text of an entry that some data give at a time which has come. -/
def SourceData.Gave (s : SourceData) (clock : Int) (user org : Uuid) (text : String) : Prop :=
  ∃ now active p, now ≤ clock ∧
    ActiveRoles.ofAssignments? now (s.assignmentsOf user) = some active ∧
      s.computed now user org = .ok p ∧ text = CachedPrivileges.encode ⟨p, active.validUntil⟩

section Stale

variable (s : SourceData) (user : Uuid)

/-- The entries of a user that the data have not given are of some role sets. -/
def Moment.StaleIn (m : Moment) (roleSets : List String) : Prop :=
  ∀ ⦃r org text⦄, m.cache.find? (entryKey r user org) = some text →
    s.Gave m.clock user org text ∨ r ∈ roleSets

/-- The entries of a user that the data have not given are listed. -/
def Moment.Accounted (m : Moment) : Prop := m.StaleIn s user (m.cache.listed user)

/-- What comes later, without further entries of a user but those that the data have given. -/
structure Moment.Onward (m m' : Moment) : Prop where
  passed : m.clock ≤ m'.clock
  entries : ∀ ⦃r org text⦄, m'.cache.find? (entryKey r user org) = some text →
    s.Gave m'.clock user org text ∨ m.cache.find? (entryKey r user org) = some text

end Stale

variable {s : SourceData} {user org : Uuid} {m m' m'' : Moment} {rs : List String}
  {c' : CacheContent} {text r : String}

theorem SourceData.Gave.later {clock clock' : Int} (gave : s.Gave clock user org text)
    (passed : clock ≤ clock') : s.Gave clock' user org text := by
  obtain ⟨now, active, p, earlier, rest⟩ := gave
  exact ⟨now, active, p, Int.le_trans earlier passed, rest⟩

/-- An entry that may be used at a time says what the data say, then or at a later time that has
come. -/
theorem SourceData.Gave.usable {clock now : Int} {entry : CachedPrivileges}
    (gave : s.Gave clock user org text) (read : CachedPrivileges.decode? text = some entry)
    (fresh : entry.isFreshAt now = true) (come : now ≤ clock) :
    ∃ t, now ≤ t ∧ t ≤ clock ∧ s.computed t user org = .ok entry.privileges := by
  obtain ⟨made, active, p, passed, found, computed, rfl⟩ := gave
  rw [CachedPrivileges.decode?_encode] at read
  split at read
  · cases read
    rcases Int.le_total made now with before | behind
    · exact ⟨now, Int.le_refl now, come,
        (computed_of_fresh found before fresh).trans computed⟩
    · exact ⟨made, behind, passed, computed⟩
  · cases read

namespace Moment

theorem Onward.refl (m : Moment) : m.Onward s user m :=
  ⟨Int.le_refl _, fun _ _ _ found => .inr found⟩

theorem Onward.trans (first : m.Onward s user m') (second : m'.Onward s user m'') :
    m.Onward s user m'' where
  passed := Int.le_trans first.passed second.passed
  entries := by
    intro r org text found
    rcases second.entries found with gave | earlier
    · exact .inl gave
    · exact (first.entries earlier).imp_left fun gave => gave.later second.passed

theorem StaleIn.onward (stale : m.StaleIn s user rs) (onward : m.Onward s user m') :
    m'.StaleIn s user rs := by
  intro r org text found
  rcases onward.entries found with gave | earlier
  · exact .inl gave
  · exact (stale earlier).imp_left fun gave => gave.later onward.passed

theorem StaleIn.mono {rs' : List String} (stale : m.StaleIn s user rs) (more : rs ⊆ rs') :
    m.StaleIn s user rs' := fun _ _ _ found => (stale found).imp_right fun member => more member

/-- If no entries come and the list of role sets stays, the entries stay accounted for. -/
theorem Accounted.onward (accounted : m.Accounted s user) (onward : m.Onward s user m')
    (same : m'.cache.find? (roleSetsKey user) = m.cache.find? (roleSetsKey user)) :
    m'.Accounted s user := by
  rw [Accounted, CacheContent.listed, same]
  exact StaleIn.onward accounted onward

/-- Entries that are there were there before. -/
theorem onward_of_entries (kept : ∀ ⦃r org text⦄, c'.find? (entryKey r user org) = some text →
    m.cache.find? (entryKey r user org) = some text) : m.Onward s user ⟨c', m.clock⟩ :=
  ⟨Int.le_refl _, fun _ _ _ found => .inr (kept found)⟩

end Moment

/-! ## What a program upholds -/

/-- A program upholds that stale entries are accounted for, whatever the others do between its
calls, and its result meets a condition. They may do what keeps stale entries accounted for and
brings no more of them. -/
def Program.Upholds (s : SourceData) (user : Uuid) (post : α → Moment → Prop) :
    Program α → Moment → Prop
  | .done a, m => ∀ m', m.Onward s user m' → post a m'
  | .ask call next, m => ∀ m' (w : ResolverWorld), m.Onward s user m' → m'.Accounted s user →
      w.Works s m'.cache →
        ∃ c', (w.answer call).2.Works s c' ∧ m'.Onward s user ⟨c', m'.clock⟩ ∧
          (Moment.mk c' m'.clock).Accounted s user ∧
            (next (w.answer call).1).Upholds s user post ⟨c', m'.clock⟩

namespace Program

variable {post : α → Moment → Prop} {x : Program α}

theorem Upholds.onward (upholds : x.Upholds s user post m) (onward : m.Onward s user m') :
    x.Upholds s user post m' := by
  cases x with
  | done a => exact fun m'' further => upholds m'' (onward.trans further)
  | ask call next => exact fun m'' w further => upholds m'' w (onward.trans further)

theorem Upholds.mono {post' : α → Moment → Prop} (upholds : x.Upholds s user post m)
    (weaker : ∀ a m', m.Onward s user m' → post a m' → post' a m') :
    x.Upholds s user post' m := by
  induction x generalizing m with
  | done a => exact fun m' onward => weaker a m' onward (upholds m' onward)
  | ask call next ih =>
      intro m' w onward accounted works
      obtain ⟨c', works', further, accounted', rest⟩ := upholds m' w onward accounted works
      exact ⟨c', works', further, accounted', ih _ rest fun a m'' later =>
        weaker a m'' ((onward.trans further).trans later)⟩

theorem Upholds.bind {f : α → Program β} {post : β → Moment → Prop}
    (upholds : x.Upholds s user (fun a m => (f a).Upholds s user post m) m) :
    (x.bind f).Upholds s user post m := by
  induction x generalizing m with
  | done a => exact upholds m (.refl m)
  | ask call next ih =>
      intro m' w onward accounted works
      obtain ⟨c', works', further, accounted', rest⟩ := upholds m' w onward accounted works
      exact ⟨c', works', further, accounted', ih _ rest⟩

/-- What a program that may fail upholds if the rest goes on from its result. -/
theorem Upholds.attempt_bind {x : Attempt α} {f : α → Attempt β}
    {post : Except ResolveError β → Moment → Prop}
    (upholds : x.run.Upholds s user (fun result m => match result with
      | .ok a => (f a).run.Upholds s user post m
      | .error e => ∀ m', m.Onward s user m' → post (.error e) m') m) :
    (x >>= f).run.Upholds s user post m := by
  refine Upholds.bind (upholds.mono fun result m' onward holds => ?_)
  cases result with
  | ok a => exact holds
  | error e => exact holds

theorem upholds_pure {post : Except ResolveError α → Moment → Prop} {a : α}
    (holds : ∀ m', m.Onward s user m' → post (.ok a) m') :
    (pure a : Attempt α).run.Upholds s user post m := holds

theorem upholds_throw {post : Except ResolveError α → Moment → Prop} {e : ResolveError}
    (holds : ∀ m', m.Onward s user m' → post (.error e) m') :
    (throw e : Attempt α).run.Upholds s user post m := holds

/-- A call to the source leaves the cache as it is. -/
theorem upholds_source {call : Call} {post : Except ResolveError call.Result → Moment → Prop}
    (method : SourceMethod) (value : SourceData → call.Result)
    (asks : ∀ w : ResolverWorld, w.answer call = w.answerSource method (value w.source))
    (holds : ∀ m', m.Onward s user m' → post (.ok (value s)) m') :
    call.ask.run.Upholds s user post m := by
  intro m' w onward accounted works
  obtain ⟨answered, answers⟩ := works.answers.answerSource method (value w.source)
  have kept : (w.answerSource method (value w.source)).2.Works s m'.cache := by
    refine ⟨answers, ?_, ?_⟩
    all_goals rw [ResolverWorld.answerSource, works.answers.answering]
    · exact works.working
    · exact works.content
  rw [asks]
  refine ⟨m'.cache, kept, .refl m', accounted, ?_⟩
  rw [answered, works.answers.source]
  exact fun m'' further => holds m'' (onward.trans further)

/-- A call to the cache is answered from it and may change it. -/
theorem upholds_cache {call : Call} {post : Except ResolveError call.Result → Moment → Prop}
    (method : CacheMethod) (value : CacheContent → call.Result)
    (change : CacheContent → CacheContent)
    (asks : ∀ w : ResolverWorld, w.answer call = w.answerCache method (value w.cache) change)
    (holds : ∀ m', m.Onward s user m' → m'.Accounted s user →
      m'.Onward s user ⟨change m'.cache, m'.clock⟩ ∧
        (Moment.mk (change m'.cache) m'.clock).Accounted s user ∧
          ∀ m'', Moment.Onward s user ⟨change m'.cache, m'.clock⟩ m'' →
            post (.ok (value m'.cache)) m'') :
    call.ask.run.Upholds s user post m := by
  intro m' w onward accounted works
  obtain ⟨further, accounted', rest⟩ := holds m' onward accounted
  have ran : w.answer call =
      (.ok (value m'.cache), { w with cache := change m'.cache }) := by
    rw [asks, ResolverWorld.answerCache, works.working, works.content]
  rw [ran]
  exact ⟨_, ⟨⟨works.answers.source, works.answers.answering⟩, works.working, rfl⟩, further,
    accounted', rest⟩

theorem upholds_get (key : String) {post : Except ResolveError (Option String) → Moment → Prop}
    (holds : ∀ m', m.Onward s user m' → m'.Accounted s user →
      ∀ m'', m'.Onward s user m'' → post (.ok (m'.cache.find? key)) m'') :
    (Call.cacheGet key).ask.run.Upholds s user post m :=
  upholds_cache .get (·.find? key) id (fun _ => rfl) fun m' onward accounted =>
    ⟨.refl m', accounted, holds m' onward accounted⟩

end Program

/-- Whether a change of the cache leaves the list of a user's role sets as it is and adds no entry
of the user. -/
def CacheContent.Spares (user : Uuid) (change : CacheContent → CacheContent) : Prop :=
  ∀ c : CacheContent, (change c).find? (roleSetsKey user) = c.find? (roleSetsKey user) ∧
    ∀ ⦃r org text⦄, (change c).find? (entryKey r user org) = some text →
      c.find? (entryKey r user org) = some text

namespace CacheContent

variable {key start : String}

theorem spares_insert {value : String} (foreign : ¬ KeyOf user key) :
    Spares user (·.insert key value) := by
  refine fun c => ⟨?_, fun r org text found => ?_⟩
  · rw [SortedMap.find?_insert, if_neg]
    rintro rfl
    exact foreign .roleSets
  · rwa [SortedMap.find?_insert, if_neg] at found
    rintro rfl
    exact foreign (.entry r org)

theorem spares_erase (foreign : key ≠ roleSetsKey user) : Spares user (·.erase key) := by
  refine fun c => ⟨?_, fun r org text found => ?_⟩
  · rw [SortedMap.find?_erase, if_neg foreign.symm]
  · rw [SortedMap.find?_erase] at found
    split at found
    · cases found
    · exact found

theorem spares_withoutStart (plain : ¬ start.toList <+: (roleSetsKey user).toList) :
    Spares user (ResolverWorld.withoutStart start) := by
  refine fun c => ⟨?_, fun r org text found => ?_⟩
  · rw [find?_withoutStart, if_neg]
    exact fun begins => plain (List.isPrefixOf_iff_prefix.mp begins)
  · rw [find?_withoutStart] at found
    split at found
    · cases found
    · exact found

end CacheContent

namespace Moment

theorem Accounted.spared {change : CacheContent → CacheContent} (accounted : m.Accounted s user)
    (spares : CacheContent.Spares user change) : m.Onward s user ⟨change m.cache, m.clock⟩ ∧
      (Moment.mk (change m.cache) m.clock).Accounted s user := by
  have onward : m.Onward s user ⟨change m.cache, m.clock⟩ :=
    onward_of_entries (spares m.cache).2
  exact ⟨onward, accounted.onward onward (spares m.cache).1⟩

end Moment

/-! ## What the service upholds -/

namespace Program

variable {post : Except ResolveError Unit → Moment → Prop}

/-- A call that spares a user may be made at any time. -/
theorem upholds_spared {call : Call} {post : Except ResolveError call.Result → Moment → Prop}
    (method : CacheMethod) (value : CacheContent → call.Result)
    (change : CacheContent → CacheContent)
    (asks : ∀ w : ResolverWorld, w.answer call = w.answerCache method (value w.cache) change)
    (spares : CacheContent.Spares user change)
    (holds : ∀ a m', m.Onward s user m' → post (.ok a) m') :
    call.ask.run.Upholds s user post m := by
  refine upholds_cache method value change asks fun m' onward accounted => ?_
  obtain ⟨further, accounted'⟩ := accounted.spared spares
  exact ⟨further, accounted', fun m'' later => holds _ m'' ((onward.trans further).trans later)⟩

/-- Calls for other users may be made at any time. -/
theorem upholds_ask_other {user' : Uuid} (other : user' ≠ user) {call : Call}
    (made : call.For user') : call.ask.run.Upholds s user (fun _ _ => True) m := by
  cases made with
  | assignments user'' =>
      exact upholds_source .assignments (·.assignmentsOf user'') (fun _ => rfl) fun _ _ => trivial
  | roles ids => exact upholds_source .roles (·.rolesOf ids) (fun _ => rfl) fun _ _ => trivial
  | organizations =>
      exact upholds_source .organizations SourceData.organizations (fun _ => rfl) fun _ _ => trivial
  | get key => exact upholds_get key fun _ _ _ _ _ => trivial
  | set own value =>
      refine upholds_spared .set (fun _ => ()) _ (fun _ => rfl)
        (CacheContent.spares_insert fun shared => ?_) fun _ _ _ => trivial
      exact other (own.unique shared)
  | delete own =>
      refine upholds_spared .delete (fun _ => ()) _ (fun _ => rfl)
        (CacheContent.spares_erase fun shared => ?_) fun _ _ _ => trivial
      exact other (own.unique (shared ▸ .roleSets))
  | deleteAll roleSet =>
      exact upholds_spared .deleteAll (fun _ => ()) _ (fun _ => rfl)
        (CacheContent.spares_withoutStart roleSetsKey_not_begins) fun _ _ _ => trivial

/-- Programs for other users uphold what is said of a user. -/
theorem upholds_other {user' : Uuid} (other : user' ≠ user) {x : Program α}
    (all : x.All (Call.For user')) : x.Upholds s user (fun _ _ => True) m := by
  induction x generalizing m with
  | done a => exact fun _ _ => trivial
  | ask call next ih =>
      intro m' w onward accounted works
      obtain ⟨c', works', further, accounted', -⟩ :=
        upholds_ask_other other all.1 m' w onward accounted works
      exact ⟨c', works', further, accounted', ih _ (all.2 _)⟩

/-- An entry that the data have given may be stored. -/
theorem upholds_set_entry (gave : s.Gave m.clock user org text)
    (holds : ∀ m', m.Onward s user m' → post (.ok ()) m') :
    (Call.cacheSet (entryKey r user org) text).ask.run.Upholds s user post m := by
  refine upholds_cache .set (fun _ => ()) (·.insert (entryKey r user org) text) (fun _ => rfl)
    fun m' onward accounted => ?_
  have further : m'.Onward s user ⟨m'.cache.insert (entryKey r user org) text, m'.clock⟩ := by
    refine ⟨Int.le_refl _, fun r' org' text' found => ?_⟩
    rw [SortedMap.find?_insert] at found
    split at found
    · rename_i same
      obtain ⟨-, -, rfl⟩ := entryKey_inj.mp same
      cases found
      exact .inl (gave.later onward.passed)
    · exact .inr found
  refine ⟨further, accounted.onward further ?_, fun m'' later =>
    holds m'' ((onward.trans further).trans later)⟩
  rw [SortedMap.find?_insert, if_neg entryKey_ne_roleSetsKey.symm]

/-- A role set may be added to a list that has all stale ones. -/
theorem upholds_set_list {index : Option String}
    (stale : m.StaleIn s user (roleSets (index.getD ""))) (listable : Listable r)
    (holds : ∀ m', m.Onward s user m' → post (.ok ()) m') :
    (Call.cacheSet (roleSetsKey user) (addRoleSet index r)).ask.run.Upholds s user post m := by
  refine upholds_cache .set (fun _ => ()) (·.insert (roleSetsKey user) (addRoleSet index r))
    (fun _ => rfl) fun m' onward accounted => ?_
  have further : m'.Onward s user
      ⟨m'.cache.insert (roleSetsKey user) (addRoleSet index r), m'.clock⟩ := by
    refine Moment.onward_of_entries fun r' org' text' found => ?_
    rwa [SortedMap.find?_insert, if_neg entryKey_ne_roleSetsKey] at found
  have listed : CacheContent.listed
      (m'.cache.insert (roleSetsKey user) (addRoleSet index r)) user =
        roleSets (addRoleSet index r) := by
    rw [CacheContent.listed, SortedMap.find?_insert, if_pos rfl]
    rfl
  refine ⟨further, ?_, fun m'' later => holds m'' ((onward.trans further).trans later)⟩
  rw [Moment.Accounted, listed]
  refine ((stale.onward onward).onward further).mono fun r' member => ?_
  exact (mem_roleSets_addRoleSet listable).mpr (.inl member)

theorem upholds_set_pointer {value : String}
    (holds : ∀ m', m.Onward s user m' → post (.ok ()) m') :
    (Call.cacheSet (pointerKey user) value).ask.run.Upholds s user post m := by
  refine upholds_spared .set (fun _ => ()) (·.insert (pointerKey user) value) (fun _ => rfl) ?_
    fun _ => holds
  refine fun c => ⟨?_, fun r org text found => ?_⟩
  · rw [SortedMap.find?_insert, if_neg pointerKey_ne_roleSetsKey.symm]
  · rwa [SortedMap.find?_insert, if_neg entryKey_ne_pointerKey] at found

theorem upholds_delete_pointer (holds : ∀ m', m.Onward s user m' → post (.ok ()) m') :
    (Call.cacheDelete (pointerKey user)).ask.run.Upholds s user post m :=
  upholds_spared .delete (fun _ => ()) _ (fun _ => rfl)
    (CacheContent.spares_erase pointerKey_ne_roleSetsKey) fun _ => holds

/-- The list may be deleted once there are no stale entries. -/
theorem upholds_delete_list (clean : m.StaleIn s user [])
    (holds : ∀ m', m.Onward s user m' → post (.ok ()) m') :
    (Call.cacheDelete (roleSetsKey user)).ask.run.Upholds s user post m := by
  refine upholds_cache .delete (fun _ => ()) _ (fun _ => rfl) fun m' onward accounted => ?_
  have further : m'.Onward s user ⟨m'.cache.erase (roleSetsKey user), m'.clock⟩ := by
    refine Moment.onward_of_entries fun r' org' text' found => ?_
    rwa [SortedMap.find?_erase, if_neg entryKey_ne_roleSetsKey] at found
  refine ⟨further, ?_, fun m'' later => holds m'' ((onward.trans further).trans later)⟩
  exact ((clean.onward onward).onward further).mono (List.nil_subset _)

/-- Deleting the entries of a role set leaves no stale ones of it. -/
theorem upholds_delete_entries (stale : m.StaleIn s user (r :: rs))
    (holds : ∀ m', m.Onward s user m' → m'.StaleIn s user rs → post (.ok ()) m') :
    (Call.cacheDeleteAll (entriesStart r user)).ask.run.Upholds s user post m := by
  refine upholds_cache .deleteAll (fun _ => ()) _ (fun _ => rfl) fun m' onward accounted => ?_
  have plain : ¬ (entriesStart r user).toList <+: (roleSetsKey user).toList :=
    roleSetsKey_not_begins
  obtain ⟨further, accounted'⟩ := accounted.spared (CacheContent.spares_withoutStart plain)
  refine ⟨further, accounted', fun m'' later =>
    holds m'' ((onward.trans further).trans later) (Moment.StaleIn.onward ?_ later)⟩
  intro r' org text found
  rcases (stale.onward onward).onward further found with gave | member
  · exact .inl gave
  · rcases List.mem_cons.mp member with rfl | member
    · rw [CacheContent.find?_withoutStart, if_pos] at found
      · cases found
      · exact List.isPrefixOf_iff_prefix.mpr entryKey_begins
    · exact .inr member

end Program

namespace Resolver

open Program

variable {config : ResolverConfig} {now : Int} {actor : Actor} {active : ActiveRoles}
  {p : Privileges}

/-- An entry that is used is what the data give, if there are no stale ones. -/
theorem upholds_cached {post : Except ResolveError (Option Privileges) → Moment → Prop}
    (come : now ≤ m.clock) (miss : ∀ m', m.Onward s user m' → post (.ok none) m')
    (hit : ∀ m' p, m.Onward s user m' → (m.StaleIn s user [] →
      ∃ t, now ≤ t ∧ t ≤ m'.clock ∧ s.computed t user org = .ok p) → post (.ok (some p)) m') :
    (cached now user org).run.Upholds s user post m := by
  refine .attempt_bind (upholds_get _ fun m₁ on₁ _ m₂ on₂ => ?_)
  cases m₁.cache.find? (pointerKey user) with
  | none => exact upholds_pure fun m' on' => miss m' ((on₁.trans on₂).trans on')
  | some roleSet =>
      refine .attempt_bind (upholds_get _ fun m₃ on₃ _ m₄ on₄ => ?_)
      have reached : m.Onward s user m₃ := (on₁.trans on₂).trans on₃
      cases found : m₃.cache.find? (entryKey roleSet user org) with
      | none => exact upholds_pure fun m' on' => miss m' ((reached.trans on₄).trans on')
      | some text =>
          cases read : CachedPrivileges.decode? text with
          | none =>
              simp only [read]
              exact upholds_pure fun m' on' => miss m' ((reached.trans on₄).trans on')
          | some entry =>
              simp only [read]
              refine upholds_pure fun m' on' => ?_
              have later : m.Onward s user m' := (reached.trans on₄).trans on'
              cases fresh : entry.isFreshAt now with
              | false => exact miss m' later
              | true =>
                  refine hit m' entry.privileges later fun clean => ?_
                  rcases clean.onward reached found with gave | member
                  · obtain ⟨t, after, before, computed⟩ :=
                      gave.usable read fresh (Int.le_trans come reached.passed)
                    exact ⟨t, after, Int.le_trans before (on₄.trans on').passed, computed⟩
                  · cases member

theorem upholds_activeRoles {post : Except ResolveError ActiveRoles → Moment → Prop}
    (holds : ∀ m', m.Onward s user m' →
      post (match ActiveRoles.ofAssignments? now (s.assignmentsOf user) with
        | some active => .ok active
        | none => .error (.noAssignments user)) m') :
    (activeRoles now user).run.Upholds s user post m := by
  refine .attempt_bind (upholds_source .assignments (·.assignmentsOf user) (fun _ => rfl)
    fun m₁ on₁ => ?_)
  dsimp only
  cases found : ActiveRoles.ofAssignments? now (s.assignmentsOf user) with
  | none =>
      rw [found] at holds
      exact upholds_throw fun m' on' => holds m' (on₁.trans on')
  | some active =>
      rw [found] at holds
      exact upholds_pure fun m' on' => holds m' (on₁.trans on')

theorem upholds_compute {ids : List Uuid} {post : Except ResolveError Privileges → Moment → Prop}
    (holds : ∀ m', m.Onward s user m' →
      post ((s.privilegesOf (s.rolesOf ids) user org).mapError .tree) m') :
    (compute user org ids).run.Upholds s user post m := by
  refine .attempt_bind (upholds_source .roles (·.rolesOf ids) (fun _ => rfl) fun m₁ on₁ =>
    .attempt_bind (upholds_source .organizations SourceData.organizations (fun _ => rfl)
      fun m₂ on₂ => ?_))
  dsimp only
  cases built : OrgIndex.build s.organizations with
  | error e =>
      have refused : s.privilegesOf (s.rolesOf ids) user org = .error e := by
        rw [SourceData.privilegesOf, built]
        rfl
      rw [refused] at holds
      exact upholds_throw fun m' on' => holds m' ((on₁.trans on₂).trans on')
  | ok index =>
      have same : s.privilegesOf (s.rolesOf ids) user org =
          (Grants.ofRoles (s.rolesOf ids)).privileges index user org := by
        rw [SourceData.privilegesOf, built]
        rfl
      rw [same] at holds
      dsimp only
      cases granted : (Grants.ofRoles (s.rolesOf ids)).privileges index user org with
      | error e =>
          rw [granted] at holds
          exact upholds_throw fun m' on' => holds m' ((on₁.trans on₂).trans on')
      | ok p =>
          rw [granted] at holds
          exact upholds_pure fun m' on' => holds m' ((on₁.trans on₂).trans on')

/-- What the data have given is stored, and its role set is listed with those that were. -/
theorem upholds_store {post : Except ResolveError Unit → Moment → Prop} (come : now ≤ m.clock)
    (found : ActiveRoles.ofAssignments? now (s.assignmentsOf user) = some active)
    (computed : s.computed now user org = .ok p)
    (holds : ∀ m', m.Onward s user m' → post (.ok ()) m') :
    (store user org active p).run.Upholds s user post m := by
  have gave : s.Gave m.clock user org (CachedPrivileges.encode ⟨p, active.validUntil⟩) :=
    ⟨now, active, p, come, found, computed, rfl⟩
  refine .attempt_bind (upholds_set_entry gave fun m₁ on₁ =>
    .attempt_bind (upholds_get _ fun m₂ on₂ accounted m₃ on₃ => ?_))
  have stale : m₃.StaleIn s user (roleSets ((m₂.cache.find? (roleSetsKey user)).getD "")) :=
    Moment.StaleIn.onward accounted on₃
  have listable : Listable (joinRoleIds active.ids) :=
    listable_joinRoleIds (CacheContent.ids_ne_nil found)
  refine .attempt_bind (upholds_set_list stale listable fun m₄ on₄ =>
    upholds_set_pointer fun m' on' => holds m' ?_)
  exact (((on₁.trans on₂).trans on₃).trans on₄).trans on'

/-- To resolve anew gives what the data say. -/
theorem upholds_resolveFresh {post : Except ResolveError Privileges → Moment → Prop}
    (come : now ≤ m.clock)
    (holds : ∀ m', m.Onward s actor.id m' → post (s.computed now actor.id actor.activeOrg) m') :
    (resolveFresh config now actor).run.Upholds s actor.id post m := by
  refine .attempt_bind (upholds_activeRoles fun m₁ on₁ => ?_)
  cases found : ActiveRoles.ofAssignments? now (s.assignmentsOf actor.id) with
  | none =>
      rw [SourceData.computed, found] at holds
      exact fun m' on' => holds m' (on₁.trans on')
  | some active =>
      refine .attempt_bind (upholds_compute fun m₂ on₂ => ?_)
      have computed : s.computed now actor.id actor.activeOrg =
          (s.privilegesOf (s.rolesOf active.ids) actor.id actor.activeOrg).mapError .tree := by
        rw [SourceData.computed, found]
      have reached : m.Onward s actor.id m₂ := on₁.trans on₂
      cases granted : s.privilegesOf (s.rolesOf active.ids) actor.id actor.activeOrg with
      | error e =>
          rw [computed, granted] at holds
          exact fun m' on' => holds m' (reached.trans on')
      | ok p =>
          rw [granted] at computed
          rw [computed] at holds
          dsimp only [Except.mapError]
          split
          · refine .attempt_bind (upholds_store (Int.le_trans come reached.passed) found computed
              fun m₃ on₃ => ?_)
            exact upholds_pure fun m' on' => holds m' ((reached.trans on₃).trans on')
          · exact upholds_pure fun m' on' => holds m' (reached.trans on')

/-- To resolve gives what the data say at a time that has come meanwhile, if there are no stale
entries as it begins. -/
theorem upholds_resolve (come : now ≤ m.clock) :
    (resolve config now actor).run.Upholds s actor.id (fun result m' =>
      (config.cacheEnabled = true → m.StaleIn s actor.id []) →
        ∃ t, now ≤ t ∧ t ≤ m'.clock ∧ result = s.resolved config.rootUser t actor) m := by
  have atOnce : ∀ m', m.Onward s actor.id m' → now ≤ m'.clock :=
    fun m' on' => Int.le_trans come on'.passed
  rw [resolve]
  by_cases root : actor.id = config.rootUser
  · rw [if_pos root]
    refine upholds_pure fun m' on' _ => ⟨now, Int.le_refl now, atOnce m' on', ?_⟩
    rw [SourceData.resolved, if_pos root]
  · have resolved : ∀ t, s.resolved config.rootUser t actor =
        s.computed t actor.id actor.activeOrg := fun t => if_neg root
    simp only [resolved]
    rw [if_neg root]
    cases enabled : config.cacheEnabled with
    | false =>
        rw [if_neg Bool.false_ne_true]
        exact upholds_resolveFresh come fun m' on' _ => ⟨now, Int.le_refl now, atOnce m' on', rfl⟩
    | true =>
        rw [if_pos rfl]
        refine .attempt_bind (upholds_cached come (fun m₁ on₁ => ?_) fun m₁ p on₁ right => ?_)
        · refine upholds_resolveFresh (Int.le_trans come on₁.passed) fun m' on' _ => ?_
          exact ⟨now, Int.le_refl now, atOnce m' (on₁.trans on'), rfl⟩
        · refine upholds_pure fun m' on' clean => ?_
          obtain ⟨t, after, before, computed⟩ := right (clean rfl)
          exact ⟨t, after, Int.le_trans before on'.passed, computed.symm⟩

/-- Invalidating deletes all stale entries before it deletes the list. -/
theorem upholds_invalidate : (invalidate config user).run.Upholds s user (fun _ m' =>
    config.cacheEnabled = true → m'.StaleIn s user []) m := by
  rw [invalidate]
  cases enabled : config.cacheEnabled with
  | false =>
      rw [if_neg Bool.false_ne_true]
      exact upholds_pure fun m' _ disabled => absurd disabled Bool.false_ne_true
  | true =>
      rw [if_pos rfl]
      have rest : ∀ m₁ : Moment, m₁.StaleIn s user [] →
          ((Call.cacheDelete (roleSetsKey user)).ask >>= fun _ =>
            (Call.cacheDelete (pointerKey user)).ask).run.Upholds s user
              (fun _ m' => true = true → m'.StaleIn s user []) m₁ := by
        intro m₁ clean
        refine .attempt_bind (upholds_delete_list clean fun m₂ on₂ =>
          upholds_delete_pointer fun m' on' _ => ?_)
        exact clean.onward (on₂.trans on')
      refine .attempt_bind (upholds_get _ fun m₁ on₁ accounted m₂ on₂ => ?_)
      have stale := Moment.StaleIn.onward accounted on₂
      rw [CacheContent.listed] at stale
      cases known : m₁.cache.find? (roleSetsKey user) with
      | none =>
          rw [known] at stale
          exact rest m₂ stale
      | some index =>
          rw [known, Option.getD_some] at stale
          refine .attempt_bind ?_
          generalize roleSets index = rs at stale ⊢
          induction rs generalizing m₂ with
          | nil => exact upholds_pure fun m' on' => rest m' (stale.onward on')
          | cons r rs ih =>
              refine .attempt_bind (upholds_delete_entries stale fun m' on' less => ?_)
              exact ih m' (on₂.trans on') less

end Resolver

end ScopedAccess
