import ScopedAccess.Proofs.Resolver.Caching
/-!
# Histories of the service

A history is a list of calls with their times, among them changes of the source. What each is
answered with follows from the data at that point (`SourceData.reply`); without a cache that is so
whatever has been called before, and with a cache as long as every user that is resolved is
settled (`ResolverWorld.handle_cached`).

* `cache_transparent`: a cache shows in no history in which users are invalidated when the source
  has changed.
-/

namespace ScopedAccess

set_option autoImplicit false

/-- A call to the service, or a change of what it reads. -/
inductive ServiceEvent where
  | resolve (actor : Actor)
  | invalidate (user : Uuid)
  | replace (source : SourceData)

/-- What an event is answered with. -/
inductive ServiceReply where
  | resolved (result : Except ResolveError Privileges)
  | invalidated (result : Except ResolveError Unit)
  | replaced

/-- The answer to an event at a time. -/
def ResolverWorld.handle (w : ResolverWorld) (config : ResolverConfig) (now : Int) :
    ServiceEvent → ServiceReply × ResolverWorld
  | .resolve actor =>
    let (result, w) := w.resolve config now actor
    (.resolved result, w)
  | .invalidate user =>
    let (result, w) := w.invalidate config user
    (.invalidated result, w)
  | .replace source => (.replaced, { w with source })

/-- The answers to events, one after the other. -/
def ResolverWorld.replies (w : ResolverWorld) (config : ResolverConfig) :
    List (Int × ServiceEvent) → List ServiceReply
  | [] => []
  | (now, event) :: rest =>
    let (reply, w) := w.handle config now event
    reply :: w.replies config rest

/-! ## Users in order -/

/-- Whether a user has been invalidated after every change of the source. -/
def Settled (past : List ServiceEvent) (user : Uuid) : Prop :=
  ∀ before source after, past = before ++ .replace source :: after → .invalidate user ∈ after

/-- Whether users are resolved only when they are settled. -/
def Renewed (events : List ServiceEvent) : Prop :=
  ∀ past actor future, events = past ++ .resolve actor :: future → Settled past actor.id

variable {past : List ServiceEvent} {event : ServiceEvent} {user user' : Uuid}

theorem not_settled_replace (source : SourceData) : ¬ Settled (past ++ [.replace source]) user :=
  fun settled => List.not_mem_nil (settled past source [] rfl)

/-- What else than the last event invalidates a user, or changes the source, came before it. -/
theorem Settled.of_concat (settled : Settled (past ++ [event]) user)
    (other : event ≠ .invalidate user) : Settled past user := by
  rintro before source after rfl
  have member := settled before source (after ++ [event]) (by simp)
  rcases List.mem_append.mp member with earlier | last
  · exact earlier
  · exact absurd (List.mem_singleton.mp last).symm other

/-! ## What the data say -/

namespace SourceData

variable {s : SourceData}

/-- The data after an event. -/
def after (s : SourceData) : ServiceEvent → SourceData
  | .replace source => source
  | _ => s

/-- What the data say of a principal at a time. -/
def resolved (s : SourceData) (root : Uuid) (now : Int) (actor : Actor) :
    Except ResolveError Privileges :=
  if actor.id = root then .ok (.root actor.id actor.activeOrg)
  else s.computed now actor.id actor.activeOrg

/-- The answer that the data give to an event. -/
def reply (s : SourceData) (root : Uuid) (now : Int) : ServiceEvent → ServiceReply
  | .resolve actor => .resolved (s.resolved root now actor)
  | .invalidate _ => .invalidated (.ok ())
  | .replace _ => .replaced

/-- The answers that the data give to events, one after the other. -/
def replies (s : SourceData) (root : Uuid) : List (Int × ServiceEvent) → List ServiceReply
  | [] => []
  | (now, event) :: rest => s.reply root now event :: (s.after event).replies root rest

/-- The answer to one event of a history is that of the data at that point. -/
theorem getElem?_replies (root : Uuid) (earlier : List (Int × ServiceEvent)) (now : Int)
    (event : ServiceEvent) (rest : List (Int × ServiceEvent)) :
    (s.replies root (earlier ++ (now, event) :: rest))[earlier.length]? =
      some (((earlier.map Prod.snd).foldl after s).reply root now event) := by
  induction earlier generalizing s with
  | nil => rfl
  | cons e earlier ih => exact ih

/-- The privileges that the data give are what the roles held grant. -/
theorem granted_of_computed {now : Int} {user org : Uuid} {p : Privileges}
    (computed : s.computed now user org = .ok p) :
    p.Granted s.links (s.heldRoles now user) user org := by
  rw [SourceData.computed] at computed
  split at computed
  · cases computed
  · rename_i active found
    rw [Resolver.rolesOf_eq_heldRoles found] at computed
    cases granted : s.privilegesOf (s.heldRoles now user) user org with
    | error e =>
        rw [granted] at computed
        cases computed
    | ok p' =>
        rw [granted] at computed
        cases computed
        exact (Resolver.privilegesOf_ok granted).2

end SourceData

/-! ## One event -/

namespace ResolverWorld

open CacheContent (Kept)

variable {w : ResolverWorld} {s : SourceData} {c : CacheContent} {root : Uuid} {now later : Int}

theorem Works.replaced (works : w.Works s c) (source : SourceData) :
    { w with source }.Works source c :=
  ⟨⟨rfl, works.answers.answering⟩, works.working, works.content⟩

/-- Without a cache an event is answered as the data say. -/
theorem handle_uncached (root : Uuid) (now : Int) (event : ServiceEvent) (works : w.Works s c) :
    (w.handle ⟨root, false⟩ now event).1 = s.reply root now event ∧
      (w.handle ⟨root, false⟩ now event).2.Works (s.after event) c := by
  cases event with
  | resolve actor =>
      have leads : s.Leads c (Resolver.resolve ⟨root, false⟩ now actor)
          (s.resolved root now actor) c := by
        rw [SourceData.resolved]
        split
        · rename_i checked
          exact Resolver.leads_resolve_root checked
        · rename_i checked
          exact Resolver.leads_resolve_uncached rfl checked
      obtain ⟨ends, works'⟩ := leads w works
      exact ⟨congrArg ServiceReply.resolved ends, works'⟩
  | invalidate user =>
      have leads : s.Leads c (Resolver.invalidate ⟨root, false⟩ user) (.ok ()) c :=
        Resolver.leads_invalidate_uncached rfl
      obtain ⟨ends, works'⟩ := leads w works
      exact ⟨congrArg ServiceReply.invalidated ends, works'⟩
  | replace source => exact ⟨rfl, works.replaced source⟩

/-- With a cache an event is answered as the data say if who is resolved is settled, and the cache
goes on to hold what it should. -/
theorem handle_cached (works : w.Works s c) (kept : Kept s now (Settled past) c)
    (passed : now ≤ later) (ready : ∀ actor, event = .resolve actor → Settled past actor.id) :
    (w.handle ⟨root, true⟩ later event).1 = s.reply root later event ∧
      ∃ c', (w.handle ⟨root, true⟩ later event).2.Works (s.after event) c' ∧
        Kept (s.after event) later (Settled (past ++ [event])) c' := by
  have keptLater : Kept s later (Settled past) c := kept.mono passed fun _ => id
  cases event with
  | resolve actor =>
      have settled : Settled past actor.id := ready actor rfl
      have fewer : ∀ user, Settled (past ++ [.resolve actor]) user → Settled past user :=
        fun user settled => settled.of_concat nofun
      have leads : ∃ c', s.Leads c (Resolver.resolve ⟨root, true⟩ later actor)
          (s.resolved root later actor) c' ∧ Kept s later (Settled past) c' := by
        rw [SourceData.resolved]
        split
        · rename_i checked
          exact ⟨c, Resolver.leads_resolve_root checked, keptLater⟩
        · rename_i checked
          have enabled : (⟨root, true⟩ : ResolverConfig).cacheEnabled = true := rfl
          obtain ⟨hit, miss⟩ := Resolver.leads_resolve enabled checked
          cases found : c.usable? later actor.id actor.activeOrg with
          | none => exact ⟨_, miss found, keptLater.refreshed⟩
          | some p =>
              rw [keptLater.usable settled found]
              exact ⟨c, hit p found, keptLater⟩
      obtain ⟨c', leads, kept'⟩ := leads
      obtain ⟨ends, works'⟩ := leads w works
      exact ⟨congrArg ServiceReply.resolved ends, c', works', kept'.mono (Int.le_refl _) fewer⟩
  | invalidate user =>
      have leads : s.Leads c (Resolver.invalidate ⟨root, true⟩ user) (.ok ())
          (c.withoutUser user) := Resolver.leads_invalidate rfl
      obtain ⟨ends, works'⟩ := leads w works
      refine ⟨congrArg ServiceReply.invalidated ends, _, works',
        (keptLater.withoutUser user).mono (Int.le_refl _) fun user' settled => ?_⟩
      by_cases same : user' = user
      · exact .inl same
      · exact .inr (settled.of_concat fun equal => same (by cases equal; rfl))
  | replace source =>
      exact ⟨rfl, c, works.replaced source,
        (keptLater.replaced source).mono (Int.le_refl _) fun _ => not_settled_replace source⟩

/-! ## Histories -/

/-- Without a cache all events are answered as the data say. -/
theorem replies_uncached (root : Uuid) (works : w.Works s c)
    (history : List (Int × ServiceEvent)) :
    w.replies ⟨root, false⟩ history = s.replies root history := by
  induction history generalizing w s with
  | nil => rfl
  | cons e rest ih =>
      obtain ⟨now, event⟩ := e
      obtain ⟨same, works'⟩ := handle_uncached root now event works
      rw [replies, SourceData.replies]
      exact congrArg₂ List.cons same (ih works')

/-- With a cache all events are answered as the data say if nobody is resolved who is not
settled. -/
theorem replies_cached (works : w.Works s c) (kept : Kept s now (Settled past) c)
    (history : List (Int × ServiceEvent)) (later : ∀ e ∈ history, now ≤ e.1)
    (ordered : (history.map Prod.fst).Pairwise (· ≤ ·))
    (renewed : Renewed (past ++ history.map Prod.snd)) :
    w.replies ⟨root, true⟩ history = s.replies root history := by
  induction history generalizing w s c now past with
  | nil => rfl
  | cons e rest ih =>
      obtain ⟨at_, event⟩ := e
      obtain ⟨first, later⟩ := List.forall_mem_cons.mp later
      obtain ⟨early, ordered⟩ := List.pairwise_cons.mp ordered
      have ready : ∀ actor, event = .resolve actor → Settled past actor.id := by
        rintro actor rfl
        exact renewed past actor _ rfl
      obtain ⟨same, c', works', kept'⟩ := handle_cached works kept first ready
      rw [replies, SourceData.replies]
      refine congrArg₂ List.cons same (ih works' kept' ?_ ordered ?_)
      · exact fun e member => early e.1 (List.mem_map_of_mem member)
      · rwa [List.append_assoc]

end ResolverWorld

/-- The cache is transparent. In a history whose times do not go back and in which every user is
invalidated after a change of the source before it is resolved again, the service answers all
events as it does without its cache. So the privileges that it answers with are what the roles
grant that the principal's assignments give at that time. -/
theorem cache_transparent (source : SourceData) (root : Uuid)
    (history : List (Int × ServiceEvent))
    (ordered : (history.map Prod.fst).Pairwise (· ≤ ·))
    (renewed : Renewed (history.map Prod.snd)) :
    (ResolverWorld.ofSource source).replies ⟨root, true⟩ history =
      (ResolverWorld.ofSource source).replies ⟨root, false⟩ history ∧
    ∀ earlier now actor rest p, history = earlier ++ (now, .resolve actor) :: rest →
      ((ResolverWorld.ofSource source).replies ⟨root, true⟩ history)[earlier.length]? =
        some (.resolved (.ok p)) → actor.id ≠ root →
      let current := (earlier.map Prod.snd).foldl SourceData.after source
      p.Granted current.links (current.heldRoles now actor.id) actor.id actor.activeOrg := by
  have works := ResolverWorld.works_ofSource source
  have uncached := ResolverWorld.replies_uncached root works history
  have cached : (ResolverWorld.ofSource source).replies ⟨root, true⟩ history =
      source.replies root history := by
    cases history with
    | nil => rfl
    | cons e rest =>
        have kept := CacheContent.kept_empty source e.1 (Settled [])
        obtain ⟨early, -⟩ := List.pairwise_cons.mp ordered
        refine ResolverWorld.replies_cached works kept (e :: rest) ?_ ordered renewed
        exact List.forall_mem_cons.mpr
          ⟨Int.le_refl _, fun e' member => early e'.1 (List.mem_map_of_mem member)⟩
  refine ⟨cached.trans uncached.symm, fun earlier now actor rest p split answered checked => ?_⟩
  rw [cached, split, SourceData.getElem?_replies, SourceData.reply, SourceData.resolved,
    if_neg checked] at answered
  exact SourceData.granted_of_computed (by simpa using answered)

namespace Notebook

/-- A year in which the auditor's assignments end one by one. -/
def audits : List (Int × ServiceEvent) :=
  [(1, .resolve auditor), (4, .resolve auditor), (6, .resolve auditor), (7, .replace .empty),
    (8, .invalidate auditor.id), (9, .resolve auditor)]

theorem audits_renewed : Renewed (audits.map Prod.snd) := by
  rintro past actor future split before source after rfl
  rcases before with _ | ⟨_, _ | ⟨_, _ | ⟨_, _ | ⟨_, _ | ⟨_, before⟩⟩⟩⟩⟩
  all_goals simp only [audits, List.map_cons, List.map_nil, List.nil_append, List.cons_append,
    List.append_assoc, List.cons.injEq, reduceCtorEq, false_and, and_false,
    ServiceEvent.replace.injEq] at split
  · obtain ⟨-, -, -, -, split⟩ := split
    rcases after with _ | ⟨event, _ | ⟨_, after⟩⟩
    · cases split
    · cases split
      exact List.mem_cons_self
    · simp at split
  · obtain ⟨-, -, -, -, -, split⟩ := split
    rcases before with _ | ⟨_, before⟩ <;> simp at split

end Notebook

open Notebook in
/-- Nobody can tell from the answers of that year whether there was a cache. -/
theorem audits_alike :
    (ResolverWorld.ofSource districts).replies ⟨.ofNat 1, true⟩ audits =
      (ResolverWorld.ofSource districts).replies ⟨.ofNat 1, false⟩ audits :=
  (cache_transparent districts (.ofNat 1) audits (by decide) audits_renewed).1

end ScopedAccess
