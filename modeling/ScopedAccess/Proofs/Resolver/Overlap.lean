import ScopedAccess.Proofs.Resolver.Staleness
/-!
# Invalidating while others resolve

Invalidating a user wins over what goes on meanwhile if, at some time since the source has changed,
no call for the user was under way and the entries of the user were listed: from then on stale
entries stay listed until they are deleted, and no more of them come (`Traffic.Calm`).

It does not win over a call that has read earlier, which nothing keeps from storing what it has
read (`Traffic.Regular.reply_late`), nor does it find an entry that is not listed, which the next
resolution of its user leads to again (`Traffic.Regular.reply_elsewhere`).

* `resolved_after_invalidating`: to resolve a user that has been invalidated since is answered as
  the changed source says;
* `earlier_reading_outlasts`: it is not if one of the two conditions is dropped.
-/

namespace ScopedAccess

set_option autoImplicit false

variable {α : Type} {s : SourceData} {user : Uuid} {m : Moment}

/-! ## Traffic without stale entries that are not listed -/

section Traffic

open Program

variable {config : ResolverConfig} {t : Traffic} {i : Nat} {post : ServiceReply → Moment → Prop}

/-- To resolve is answered as the data say at a time that has come meanwhile, if there are no stale
entries as it begins. -/
theorem ServiceEvent.upholds_resolve {now : Int} {actor : Actor} (come : now ≤ m.clock) :
    ((ServiceEvent.resolve actor).program config now).Upholds s actor.id (fun reply m' =>
      (config.cacheEnabled = true → m.StaleIn s actor.id []) → ∃ t, now ≤ t ∧ t ≤ m'.clock ∧
        reply = s.reply config.rootUser t (.resolve actor)) m := by
  refine .bind ((Resolver.upholds_resolve come).mono fun result m₁ on₁ holds m' on' clean => ?_)
  obtain ⟨t, after, before, rfl⟩ := holds clean
  exact ⟨t, after, Int.le_trans before on'.passed, rfl⟩

/-- Invalidating leaves no stale entries. -/
theorem ServiceEvent.upholds_invalidate {now : Int} :
    ((ServiceEvent.invalidate user).program config now).Upholds s user (fun _ m' =>
      config.cacheEnabled = true → m'.StaleIn s user []) m := by
  refine .bind (Resolver.upholds_invalidate.mono fun result m₁ on₁ holds m' on' enabled => ?_)
  exact (holds enabled).onward on'

theorem ServiceEvent.upholds_other {event : ServiceEvent} (other : event.isFor user = false)
    {x : Program α} (all : x.All event.Makes) : x.Upholds s user (fun _ _ => True) m := by
  cases event with
  | resolve actor => exact Program.upholds_other (of_decide_eq_false other) all
  | invalidate user' => exact Program.upholds_other (of_decide_eq_false other) all
  | replace source =>
      cases x with
      | done a => exact fun _ _ => trivial
      | ask call next => exact all.1.elim

theorem ServiceEvent.upholds_program {now : Int} (come : now ≤ m.clock) (event : ServiceEvent) :
    (event.program config now).Upholds s user (fun _ _ => True) m := by
  cases own : event.isFor user with
  | false => exact ServiceEvent.upholds_other own (event.all_program config now)
  | true =>
      cases event with
      | resolve actor =>
          obtain rfl : actor.id = user := of_decide_eq_true own
          exact (ServiceEvent.upholds_resolve come).mono fun _ _ _ _ => trivial
      | invalidate user' =>
          obtain rfl : user' = user := of_decide_eq_true own
          exact ServiceEvent.upholds_invalidate.mono fun _ _ _ _ => trivial
      | replace source => cases own

/-- What the next call of a program does to a world. -/
theorem Program.Upholds.advance {x : Program α} {post : α → Moment → Prop} {w : ResolverWorld}
    {clock : Int} (upholds : x.Upholds s user post ⟨w.cache, clock⟩) (works : w.Works s w.cache)
    (accounted : (Moment.mk w.cache clock).Accounted s user) :
    (w.advance x).2.Works s (w.advance x).2.cache ∧
      (Moment.mk w.cache clock).Onward s user ⟨(w.advance x).2.cache, clock⟩ ∧
      (Moment.mk (w.advance x).2.cache clock).Accounted s user ∧
      (w.advance x).1.Upholds s user post ⟨(w.advance x).2.cache, clock⟩ := by
  cases x with
  | done a => exact ⟨works, .refl _, accounted, upholds⟩
  | ask call next =>
      obtain ⟨c', works', onward, accounted', rest⟩ := upholds _ w (.refl _) accounted works
      obtain rfl := works'.content
      exact ⟨works', onward, accounted', rest⟩

/-- The cache of a service at its time. -/
def Traffic.moment (t : Traffic) : Moment := ⟨t.world.cache, t.clock⟩

variable (s user) in
/-- The source has some data, the stale entries of a user are listed, and all that is under way
upholds that. -/
structure Traffic.Calm (t : Traffic) : Prop where
  works : t.world.Works s t.world.cache
  accounted : t.moment.Accounted s user
  upheld : ∀ a ∈ t.begun, a.rest.Upholds s user (fun _ _ => True) t.moment

variable (s user) in
/-- The reply to the event of some number will meet a condition. -/
def Traffic.Promises (t : Traffic) (i : Nat) (post : ServiceReply → Moment → Prop) : Prop :=
  ∃ a, t.begun[i]? = some a ∧ a.rest.Upholds s user post t.moment

theorem Traffic.Promises.reply (promises : t.Promises s user i post) {reply : ServiceReply}
    (replied : t.reply? i = some reply) : post reply t.moment := by
  obtain ⟨⟨event, rest⟩, found, upholds⟩ := promises
  rw [reply?, found] at replied
  cases rest with
  | ask call next => cases replied
  | done result =>
      cases replied
      exact upholds t.moment (.refl _)

/-- What has just begun promises what its program upholds. -/
theorem Traffic.promises_begin {event : ServiceEvent}
    (upholds : (event.program config t.clock).Upholds s user post t.moment) :
    (t.after config (.begin event)).Promises s user t.begun.length post :=
  ⟨⟨event, _⟩, List.getElem?_concat_length, upholds⟩

/-- Every move but a change of the source keeps what is promised. -/
theorem Traffic.Calm.after (calm : t.Calm s user) {move : Move}
    (steady : ∀ source, move ≠ .begin (.replace source)) : (t.after config move).Calm s user ∧
      ∀ i post, t.Promises s user i post → (t.after config move).Promises s user i post := by
  cases move with
  | begin event =>
      have same : t.world.source.after event = t.world.source := by
        cases event with
        | resolve | invalidate => rfl
        | replace source => exact absurd rfl (steady source)
      have works : (t.after config (.begin event)).world.Works s t.world.cache :=
        ⟨⟨same.trans calm.works.answers.source, calm.works.answers.answering⟩,
          calm.works.working, rfl⟩
      refine ⟨⟨works, calm.accounted, fun a member => ?_⟩, fun i post => ?_⟩
      · rcases List.mem_append.mp member with earlier | new
        · exact calm.upheld a earlier
        · rw [List.mem_singleton.mp new]
          exact event.upholds_program (Int.le_refl t.clock)
      · rintro ⟨a, found, upholds⟩
        have there : i < t.begun.length := (List.getElem?_eq_some_iff.mp found).1
        exact ⟨a, (List.getElem?_append_left there).trans found, upholds⟩
  | pass seconds =>
      have onward : t.moment.Onward s user (t.after config (.pass seconds)).moment :=
        ⟨Int.le_add_of_nonneg_right (Int.natCast_nonneg seconds), fun _ _ _ found => .inr found⟩
      refine ⟨⟨calm.works, calm.accounted.onward onward rfl, fun a member => ?_⟩, fun i post => ?_⟩
      · exact (calm.upheld a member).onward onward
      · rintro ⟨a, found, upholds⟩
        exact ⟨a, found, upholds.onward onward⟩
  | proceed i =>
      cases found : t.begun[i]? with
      | none =>
          rw [Traffic.after, found]
          exact ⟨calm, fun _ _ promises => promises⟩
      | some a =>
          rw [after_proceed found]
          obtain ⟨works, onward, accounted, rest⟩ :=
            (calm.upheld a (List.mem_of_getElem? found)).advance calm.works calm.accounted
          refine ⟨⟨works, accounted, fun b member => ?_⟩, fun j post => ?_⟩
          · rcases List.mem_or_eq_of_mem_set member with earlier | rfl
            · exact (calm.upheld b earlier).onward onward
            · exact rest
          · rintro ⟨b, found', upholds⟩
            by_cases same : i = j
            · subst same
              obtain rfl := Option.some.inj (found.symm.trans found')
              have there : i < t.begun.length := (List.getElem?_eq_some_iff.mp found).1
              exact ⟨_, List.getElem?_set_self there,
                (upholds.advance calm.works calm.accounted).2.2.2⟩
            · exact ⟨b, (List.getElem?_set_ne same).trans found', upholds.onward onward⟩

theorem Traffic.Calm.run (calm : t.Calm s user) {moves : List Move}
    (steady : ∀ source, Move.begin (.replace source) ∉ moves) : (t.run config moves).Calm s user ∧
      ∀ i post, t.Promises s user i post → (t.run config moves).Promises s user i post := by
  induction moves generalizing t with
  | nil => exact ⟨calm, fun _ _ promises => promises⟩
  | cons move moves ih =>
      have first : ∀ source, move ≠ .begin (.replace source) :=
        fun source same => steady source (same ▸ List.mem_cons_self)
      have rest : ∀ source, Move.begin (.replace source) ∉ moves :=
        fun source later => steady source (List.mem_cons_of_mem _ later)
      obtain ⟨calm₁, kept₁⟩ : (t.after config move).Calm s user ∧ _ := calm.after first
      obtain ⟨calm₂, kept₂⟩ := ih calm₁ rest
      exact ⟨calm₂, fun i post promises => kept₂ i post (kept₁ i post promises)⟩

/-- While nothing is under way for a user whose entries are listed, all is calm. -/
theorem Traffic.Regular.calm (regular : t.Regular) (idle : t.Idle user)
    (lists : t.world.cache.Lists user) : t.Calm t.world.source user where
  works := regular.works
  accounted := by
    intro r org text found
    obtain ⟨index, known, member⟩ := lists found
    right
    rw [CacheContent.listed, show t.moment.cache = t.world.cache from rfl, known]
    exact member
  upheld := by
    intro a member
    cases own : a.event.isFor user with
    | false => exact ServiceEvent.upholds_other own (regular.asks a member)
    | true =>
        have ended := idle a member own
        cases rest : a.rest with
        | done reply => exact fun _ _ => trivial
        | ask call next =>
            rw [rest] at ended
            cases ended

end Traffic

/-- Invalidating wins over what is under way if nothing of that began too early. Say that the
source has changed for the last time, that there was a time after that at which no call for a user
was under way and every entry of the user was listed, and that invalidating the user has begun
later and has come to its end. Then whatever calls of this and other users interleave with it and
go on afterwards, to resolve the user from then on is answered as the changed source says at a time
between its beginning and its end, after nine questions at most. -/
theorem resolved_after_invalidating (config : ResolverConfig) (source s : SourceData) (clock : Int)
    (before between waiting during after : List Move) (actor : Actor) {t₁ t₂ t₃ t₄ : Traffic}
    (changed : (Traffic.ofSource source clock).run config
      (before ++ .begin (.replace s) :: between) = t₁)
    (waits : t₁.run config waiting = t₂)
    (invalidates : t₂.run config (.begin (.invalidate actor.id) :: during) = t₃)
    (resolves : t₃.run config (.begin (.resolve actor) :: after) = t₄)
    (steady : ∀ source', Move.begin (.replace source') ∉ between ++ waiting ++ during ++ after)
    (idle : t₁.Idle actor.id) (lists : t₁.world.cache.Lists actor.id)
    (invalidated : (t₃.reply? t₂.begun.length).isSome = true) :
    (∀ reply, t₄.reply? t₃.begun.length = some reply → ∃ now, t₃.clock ≤ now ∧ now ≤ t₄.clock ∧
      reply = s.reply config.rootUser now (.resolve actor)) ∧
    (9 ≤ after.countP (Move.proceeds t₃.begun.length) →
      (t₄.reply? t₃.begun.length).isSome = true) := by
  simp only [List.mem_append, not_or, forall_and] at steady
  obtain ⟨⟨⟨steadyBetween, steadyWaiting⟩, steadyDuring⟩, steadyAfter⟩ := steady
  have current : t₁.world.source = s := by
    rw [← changed, Traffic.run_append]
    exact Traffic.run_source steadyBetween
  have regular : t₁.Regular := changed ▸ (Traffic.regular_ofSource source clock).run _
  have calm₁ : t₁.Calm s actor.id := current ▸ regular.calm idle lists
  obtain ⟨calm₂, -⟩ : t₂.Calm s actor.id ∧ _ := waits ▸ calm₁.run steadyWaiting
  -- Invalidating leaves no stale entries, and from then on none come.
  obtain ⟨begins, -⟩ : (t₂.after config (.begin (.invalidate actor.id))).Calm s actor.id ∧ _ :=
    calm₂.after nofun
  obtain ⟨calm₃, kept⟩ : t₃.Calm s actor.id ∧ _ := invalidates ▸ begins.run steadyDuring
  have cleans := kept _ _ (Traffic.promises_begin ServiceEvent.upholds_invalidate)
  obtain ⟨done, replied⟩ := Option.isSome_iff_exists.mp invalidated
  have clean : config.cacheEnabled = true → t₃.moment.StaleIn s actor.id [] := cleans.reply replied
  -- So what is resolved afterwards rests on the data alone.
  obtain ⟨begins', -⟩ : (t₃.after config (.begin (.resolve actor))).Calm s actor.id ∧ _ :=
    calm₃.after nofun
  obtain ⟨-, kept'⟩ : t₄.Calm s actor.id ∧ _ := resolves ▸ begins'.run steadyAfter
  have answers := kept' _ _
    (Traffic.promises_begin (ServiceEvent.upholds_resolve (Int.le_refl t₃.clock)))
  refine ⟨fun reply replied' => answers.reply replied' clean, fun enough => ?_⟩
  rw [← resolves]
  exact Traffic.reply_within (t := t₃.after config (.begin (.resolve actor)))
    List.getElem?_concat_length ServiceEvent.within_resolve enough

namespace Notebook

/-- An office with a clerk. -/
def manned : SourceData where
  organizations := [⟨headOffice, "head", "Head office", none, ""⟩]
  roles := [⟨.ofNat 48, "clerk", "Clerk", [], [⟨headOffice, .current, .personal, []⟩]⟩]
  assignments := [⟨clerk.id, .ofNat 48, 0⟩]

/-- The office when its clerk may see nothing any more. -/
def closed : SourceData := { manned with roles := [⟨.ofNat 48, "clerk", "Clerk", [], []⟩] }

def clerkElsewhere : Actor := ⟨clerk.id, none, annex⟩

/-- What the clerk may see at first. -/
def seeing : Privileges := ⟨clerk.id, ∅, .ofList [headOffice], ∅, headOffice, false, ∅⟩

def unseeing : Privileges := ⟨clerk.id, ∅, ∅, ∅, headOffice, false, ∅⟩

theorem closed_clerk (now : Int) :
    closed.resolved ResolverConfig.default.rootUser now clerk = .ok unseeing := rfl

/-- The clerk was resolved, and then the source changed. -/
def outdated : Traffic :=
  (Traffic.ofSource manned 1).run .default
    (.begin (.resolve clerk) :: List.replicate 9 (.proceed 0) ++ [.begin (.replace closed)])

theorem outdated_cache : outdated.world.cache =
    CacheContent.stored ∅ clerk.id headOffice ⟨[.ofNat 48], none⟩ seeing := rfl

theorem outdated_idle : outdated.Idle clerk.id := by decide +kernel

theorem outdated_lists : outdated.world.cache.Lists clerk.id := by
  rw [outdated_cache]
  exact CacheContent.Lists.stored nofun (by decide)

/-- The clerk begins to be resolved in another organization. -/
def crowded : Traffic := outdated.run .default [.begin (.resolve clerkElsewhere), .proceed 2]

theorem crowded_regular : crowded.Regular :=
  ((Traffic.regular_ofSource manned 1).run _).run _

theorem crowded_listed : (crowded.world.cache.listed clerk.id).length = 1 := by
  have cache : crowded.world.cache = outdated.world.cache := rfl
  rw [cache, outdated_cache, CacheContent.listed, CacheContent.find?_stored_roleSetsKey]
  decide +kernel

theorem crowded_begun : crowded.begun.length = 3 := by decide +kernel

/-- The clerk is invalidated. -/
def renewed : Traffic :=
  crowded.run .default (.begin (.invalidate clerk.id) :: List.replicate 4 (.proceed 3))

theorem renewed_handles : crowded.Handles (.invalidate clerk.id) (.invalidated (.ok ()))
    (crowded.world.cache.withoutUser clerk.id) renewed := by
  rw [renewed, ← crowded_begun]
  exact crowded_regular.handles_invalidate rfl crowded_listed

/-- Two calls for the clerk in turn. -/
def turns : List Move := (List.replicate 9 [Move.proceed 4, .proceed 2]).flatten

end Notebook

open Notebook in
/-- The clerk is seen to see nothing any more, though another call for the clerk goes on. -/
theorem clerk_sees_nothing :
    (renewed.run .default (.begin (.resolve clerk) :: turns)).reply? 4 =
      some (.resolved (.ok unseeing)) := by
  have changed : (Traffic.ofSource manned 1).run .default
      ((.begin (.resolve clerk) :: List.replicate 9 (.proceed 0)) ++ [.begin (.replace closed)]) =
        outdated := rfl
  have waits : outdated.run .default [.begin (.resolve clerkElsewhere), .proceed 2] = crowded := rfl
  have invalidates : crowded.run .default
      (.begin (.invalidate clerk.id) :: List.replicate 4 (.proceed 3)) = renewed := rfl
  have invalidated : (renewed.reply? crowded.begun.length).isSome = true := by
    rw [renewed_handles.reply?]
    rfl
  obtain ⟨right, ends⟩ := resolved_after_invalidating .default manned closed 1 _ _ _ _ turns
    clerk changed waits invalidates rfl (by simp [turns]) outdated_idle outdated_lists invalidated
  have begun : renewed.begun.length = 4 := by
    rw [renewed_handles.begun, List.length_append, crowded_begun]
    rfl
  rw [begun] at right ends
  obtain ⟨reply, answered⟩ := Option.isSome_iff_exists.mp (ends (by decide))
  obtain ⟨now, -, -, rfl⟩ := right reply answered
  rw [answered, SourceData.reply, closed_clerk]

/-! ## What outlasts invalidating -/

/-- What is left of resolving once everything has been read. -/
def Resolver.storing (user org : Uuid) (active : ActiveRoles) (p : Privileges) :
    Program ServiceReply :=
  (store user org active p >>= fun _ => (pure p : Attempt Privileges)).run.bind fun r =>
    .done (.resolved r)

namespace Traffic

variable {config : ResolverConfig} {t : Traffic} {actor elsewhere : Actor} {p q : Privileges}

/-- A user who has an entry that may be used is answered from it. -/
theorem Regular.reply_usable (regular : t.Regular) (enabled : config.cacheEnabled = true)
    (checked : actor.id ≠ config.rootUser)
    (found : t.world.cache.usable? t.clock actor.id actor.activeOrg = some p) :
    (t.run config (.begin (.resolve actor) ::
      List.replicate 9 (.proceed t.begun.length))).reply? t.begun.length =
        some (.resolved (.ok p)) :=
  (regular.handles_resolve ((Resolver.leads_resolve enabled checked).1 p found)).reply?

/-- What a call has read is stored whenever it makes its last four calls, and to resolve is
answered from that, whatever has happened meanwhile. -/
theorem Regular.reply_late {i : Nat} {ids : List Uuid} (regular : t.Regular)
    (enabled : config.cacheEnabled = true) (checked : actor.id ≠ config.rootUser)
    (found : t.begun[i]? = some ⟨.resolve actor,
      Resolver.storing actor.id actor.activeOrg ⟨ids, none⟩ p⟩) :
    (t.run config (List.replicate 4 (.proceed i) ++
      .begin (.resolve actor) :: List.replicate 9 (.proceed t.begun.length))).reply?
        t.begun.length = some (.resolved (.ok p)) := by
  have within : (Resolver.storing actor.id actor.activeOrg ⟨ids, none⟩ p).Within
      (Call.For actor.id) 4 :=
    .bind (m := 0) (.attempt_bind (m := 0) Resolver.within_store fun _ => Program.within_pure p)
      fun _ => trivial
  have stores : t.world.source.Leads t.world.cache
      (Resolver.store actor.id actor.activeOrg ⟨ids, none⟩ p >>= fun _ => pure p) (.ok p) _ :=
    Resolver.turns_store.leads.bind (SourceData.leads_pure p)
  have content := (stores _ regular.works).2.content
  have ran : t.run config (List.replicate 4 (.proceed i)) = _ :=
    run_alone found (ResolverWorld.questions_le within)
  rw [Resolver.storing, ResolverWorld.run_bind] at ran
  have regular' : (t.run config (List.replicate 4 (.proceed i))).Regular := regular.run _
  rw [run_append]
  generalize t.run config (List.replicate 4 (.proceed i)) = t' at ran regular' ⊢
  have stored : t'.world.cache = t.world.cache.stored actor.id actor.activeOrg ⟨ids, none⟩ p := by
    rw [ran]
    exact content
  have begun : t'.begun.length = t.begun.length := by
    rw [ran]
    exact List.length_set
  have usable : t'.world.cache.usable? t'.clock actor.id actor.activeOrg = some p := by
    rw [stored]
    exact CacheContent.usable?_stored
  rw [← begun]
  exact regular'.reply_usable enabled checked usable

/-- To resolve a user without a pointer sets it, and in another organization it may lead to an
entry that has been there before. -/
theorem Regular.reply_elsewhere {active : ActiveRoles} (regular : t.Regular)
    (enabled : config.cacheEnabled = true) (checked : actor.id ≠ config.rootUser)
    (same : elsewhere.id = actor.id) (other : elsewhere.activeOrg ≠ actor.activeOrg)
    (found : ActiveRoles.ofAssignments? t.clock (t.world.source.assignmentsOf actor.id) =
      some active)
    (granted : t.world.source.privilegesOf (t.world.source.rolesOf active.ids) actor.id
      elsewhere.activeOrg = .ok q)
    (pointer : t.world.cache.find? (pointerKey actor.id) = none)
    (entry : t.world.cache.find? (entryKey (joinRoleIds active.ids) actor.id actor.activeOrg) =
      some (CachedPrivileges.encode ⟨p, none⟩)) :
    (t.run config (.begin (.resolve elsewhere) :: List.replicate 9 (.proceed t.begun.length) ++
      .begin (.resolve actor) :: List.replicate 9 (.proceed (t.begun.length + 1)))).reply?
        (t.begun.length + 1) = some (.resolved (.ok p)) := by
  have unknown : t.world.cache.usable? t.clock elsewhere.id elsewhere.activeOrg = none := by
    rw [same, CacheContent.usable?, pointer]
    rfl
  have handles := regular.handles_resolve
    ((Resolver.leads_resolve enabled (same ▸ checked)).2 unknown)
  rw [run_append]
  generalize t.run config _ = t' at handles ⊢
  have begun : t'.begun.length = t.begun.length + 1 := by
    rw [handles.begun, List.length_append]
    rfl
  have stored : t'.world.cache =
      t.world.cache.stored actor.id elsewhere.activeOrg active q := by
    rw [handles.cache, same, CacheContent.refreshed, found]
    dsimp only
    rw [granted]
  have usable : t'.world.cache.usable? t'.clock actor.id actor.activeOrg = some p := by
    rw [stored]
    exact CacheContent.usable?_stored_elsewhere other entry
  rw [← begun]
  exact handles.regular.reply_usable enabled checked usable

end Traffic

namespace Notebook

/-- While the clerk is being resolved, the source changes and the clerk is invalidated. -/
def overtaken : Traffic :=
  (Traffic.ofSource manned 1).run .default (.begin (.resolve clerk) ::
    List.replicate 4 (.proceed 0) ++ .begin (.replace closed) ::
      .begin (.invalidate clerk.id) :: List.replicate 3 (.proceed 2))

theorem overtaken_regular : overtaken.Regular := (Traffic.regular_ofSource manned 1).run _

theorem overtaken_storing : overtaken.begun[0]? = some ⟨.resolve clerk,
    Resolver.storing clerk.id clerk.activeOrg ⟨[.ofNat 48], none⟩ seeing⟩ := rfl

/-- The clerk was resolved while being invalidated, and then the source changed. -/
def crossed : Traffic :=
  (Traffic.ofSource manned 1).run .default (.begin (.invalidate clerk.id) :: .proceed 0 ::
    .begin (.resolve clerk) :: List.replicate 8 (.proceed 1) ++
      [.proceed 0, .proceed 0, .begin (.replace closed)])

theorem crossed_regular : crossed.Regular := (Traffic.regular_ofSource manned 1).run _

theorem crossed_idle : crossed.Idle clerk.id := by decide +kernel

theorem crossed_cache : crossed.world.cache =
    ((CacheContent.stored ∅ clerk.id headOffice ⟨[.ofNat 48], none⟩ seeing).erase
      (roleSetsKey clerk.id)).erase (pointerKey clerk.id) := rfl

theorem crossed_unlisted : crossed.world.cache.find? (roleSetsKey clerk.id) = none := by
  rw [crossed_cache, SortedMap.find?_erase, if_neg pointerKey_ne_roleSetsKey.symm,
    SortedMap.find?_erase, if_pos rfl]

theorem crossed_entry : crossed.world.cache.find?
    (entryKey (joinRoleIds [.ofNat 48]) clerk.id headOffice) =
      some (CachedPrivileges.encode ⟨seeing, none⟩) := by
  rw [crossed_cache, SortedMap.find?_erase, if_neg entryKey_ne_pointerKey,
    SortedMap.find?_erase, if_neg entryKey_ne_roleSetsKey, CacheContent.find?_stored,
    if_neg entryKey_ne_pointerKey, if_neg entryKey_ne_roleSetsKey, if_pos rfl]

/-- The clerk is invalidated again. -/
def missed : Traffic :=
  crossed.run .default (.begin (.invalidate clerk.id) :: List.replicate 3 (.proceed 3))

theorem crossed_begun : crossed.begun.length = 3 := by decide +kernel

theorem missed_handles : crossed.Handles (.invalidate clerk.id) (.invalidated (.ok ()))
    (crossed.world.cache.withoutUser clerk.id) missed := by
  have listed : (crossed.world.cache.listed clerk.id).length = 0 := by
    rw [CacheContent.listed, crossed_unlisted]
    rfl
  rw [missed, ← crossed_begun]
  exact crossed_regular.handles_invalidate rfl listed

theorem missed_reply : (missed.run .default (.begin (.resolve clerkElsewhere) ::
    List.replicate 9 (.proceed 4) ++ .begin (.resolve clerk) ::
      List.replicate 9 (.proceed (4 + 1)))).reply? (4 + 1) = some (.resolved (.ok seeing)) := by
  have found : ActiveRoles.ofAssignments? missed.clock
      (missed.world.source.assignmentsOf clerk.id) = some ⟨[.ofNat 48], none⟩ := by
    rw [missed_handles.source]
    rfl
  have granted : missed.world.source.privilegesOf (missed.world.source.rolesOf [.ofNat 48])
      clerk.id clerkElsewhere.activeOrg = .ok ⟨clerk.id, ∅, ∅, ∅, annex, false, ∅⟩ := by
    rw [missed_handles.source]
    decide +kernel
  have pointer : missed.world.cache.find? (pointerKey clerk.id) = none := by
    rw [missed_handles.cache, CacheContent.withoutUser, SortedMap.find?_erase, if_pos rfl]
  have entry : missed.world.cache.find?
      (entryKey (joinRoleIds [.ofNat 48]) clerk.id headOffice) =
        some (CachedPrivileges.encode ⟨seeing, none⟩) := by
    rw [missed_handles.cache, CacheContent.find?_withoutUser_unlisted crossed_unlisted]
    exact crossed_entry
  have begun : missed.begun.length = 4 := by
    rw [missed_handles.begun, List.length_append, crossed_begun]
    rfl
  have enabled : ResolverConfig.default.cacheEnabled = true := rfl
  have checked : clerk.id ≠ ResolverConfig.default.rootUser := by decide +kernel
  have same : clerkElsewhere.id = clerk.id := rfl
  have other : clerkElsewhere.activeOrg ≠ clerk.activeOrg := by decide +kernel
  rw [← begun]
  exact missed_handles.regular.reply_elsewhere enabled checked same other found granted pointer
    entry

end Notebook

open Notebook in
/-- Though the clerk has been invalidated since the source has changed, the clerk is answered as the
source said before: in the one case a call was under way that had read earlier, in the other no
call was, but an entry was left that is not listed. -/
theorem earlier_reading_outlasts :
    (∀ now, closed.resolved ResolverConfig.default.rootUser now clerk ≠ .ok seeing) ∧
    ((overtaken.reply? 2).isSome = true ∧
      (overtaken.run .default (List.replicate 4 (.proceed 0) ++
        .begin (.resolve clerk) :: List.replicate 9 (.proceed 3))).reply? 3 =
          some (.resolved (.ok seeing))) ∧
    (crossed.Idle clerk.id ∧ (missed.reply? 3).isSome = true ∧
      (missed.run .default (.begin (.resolve clerkElsewhere) :: List.replicate 9 (.proceed 4) ++
        .begin (.resolve clerk) :: List.replicate 9 (.proceed 5))).reply? 5 =
          some (.resolved (.ok seeing))) := by
  refine ⟨fun now => ?_, ⟨by decide +kernel, ?_⟩, crossed_idle, ?_, missed_reply⟩
  · rw [closed_clerk]
    decide +kernel
  · exact overtaken_regular.reply_late rfl (by decide +kernel) overtaken_storing
  · have invalidated := missed_handles.reply?
    rw [crossed_begun] at invalidated
    rw [invalidated]
    rfl

end ScopedAccess
