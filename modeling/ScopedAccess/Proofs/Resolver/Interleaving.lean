import ScopedAccess.Proofs.Resolver.History
import ScopedAccess.Proofs.Resolver.Invalidation
/-!
# Calls that interleave

A call to the service asks the source and the cache one question after the other, and whatever
else is going on happens between two of them. `Traffic` is a service with the calls that have
begun, each with what is left of its program, and a `Move` is one question of one of them, the
beginning of another call, a change of the source or time that passes. Every order of moves is
possible.

What calls ask is known from their programs: those of a user write keys of that user only
(`ServiceEvent.all_program`), and to resolve takes nine questions at most
(`ServiceEvent.within_resolve`).

* `Traffic.reply_within`: nothing keeps a call that goes on from its end;
* `Traffic.run_handle`: a call on which no other one intrudes is handled as when it is carried out
  at once, as in a history.
-/

namespace ScopedAccess

set_option autoImplicit false

variable {α β : Type}

/-! ## Programs question by question -/

namespace Program

variable {p : Call → Prop} {n m : Nat}

/-- The result of a program that has come to its end. -/
def result? : Program α → Option α
  | done result => some result
  | ask _ _ => none

/-- Whether all calls that a program may make have a property. -/
def All (p : Call → Prop) : Program α → Prop
  | done _ => True
  | ask call next => p call ∧ ∀ answer, (next answer).All p

/-- Whether a program makes a number of calls at most, and only such as have a property. -/
def Within (p : Call → Prop) : Program α → Nat → Prop
  | done _, _ => True
  | ask _ _, 0 => False
  | ask call next, n + 1 => p call ∧ ∀ answer, (next answer).Within p n

theorem All.bind {x : Program α} {f : α → Program β} (first : x.All p)
    (rest : ∀ a, (f a).All p) : (x.bind f).All p := by
  induction x with
  | done result => exact rest result
  | ask call next ih => exact ⟨first.1, fun answer => ih answer (first.2 answer)⟩

theorem Within.all {x : Program α} (within : x.Within p n) : x.All p := by
  induction x generalizing n with
  | done result => trivial
  | ask call next ih =>
      cases n with
      | zero => exact within.elim
      | succ n => exact ⟨within.1, fun answer => ih answer (within.2 answer)⟩

theorem Within.mono {x : Program α} (within : x.Within p n) (more : n ≤ m) : x.Within p m := by
  induction x generalizing n m with
  | done result => trivial
  | ask call next ih =>
      cases n with
      | zero => exact within.elim
      | succ n =>
          cases m with
          | zero => exact absurd more (Nat.not_succ_le_zero n)
          | succ m =>
              exact ⟨within.1, fun answer =>
                ih answer (within.2 answer) (Nat.le_of_succ_le_succ more)⟩

theorem Within.bind {x : Program α} {f : α → Program β} (first : x.Within p n)
    (rest : ∀ a, (f a).Within p m) : (x.bind f).Within p (n + m) := by
  induction x generalizing n with
  | done result => exact (rest result).mono (Nat.le_add_left m n)
  | ask call next ih =>
      cases n with
      | zero => exact first.elim
      | succ n =>
          rw [Nat.succ_add]
          exact ⟨first.1, fun answer => ih answer (first.2 answer)⟩

/-- A program that may make no call has come to its end. -/
theorem Within.ended {x : Program α} (within : x.Within p 0) : x.result?.isSome = true := by
  cases x with
  | done result => rfl
  | ask call next => exact within.elim

theorem All.attempt_bind {x : Attempt α} {f : α → Attempt β} (first : x.run.All p)
    (rest : ∀ a, (f a).run.All p) : (x >>= f).run.All p := by
  refine All.bind first fun answer => ?_
  cases answer with
  | ok a => exact rest a
  | error e => trivial

theorem Within.attempt_bind {x : Attempt α} {f : α → Attempt β} (first : x.run.Within p n)
    (rest : ∀ a, (f a).run.Within p m) : (x >>= f).run.Within p (n + m) := by
  refine Within.bind first fun answer => ?_
  cases answer with
  | ok a => exact rest a
  | error e => trivial

theorem within_pure (a : α) : (pure a : Attempt α).run.Within p n := trivial

theorem within_throw (e : ResolveError) : (throw e : Attempt α).run.Within p n := trivial

theorem within_ask {call : Call} (has : p call) : call.ask.run.Within p 1 :=
  ⟨has, fun _ => trivial⟩

end Program

/-! ## What the service asks -/

/-- The calls that the service makes for a user. Any key may be read. -/
inductive Call.For (user : Uuid) : Call → Prop where
  | assignments (user' : Uuid) : For user (.assignments user')
  | roles (ids : List Uuid) : For user (.roles ids)
  | organizations : For user .organizations
  | get (key : String) : For user (.cacheGet key)
  | set {key : String} (own : KeyOf user key) (value : String) : For user (.cacheSet key value)
  | delete {key : String} (own : KeyOf user key) : For user (.cacheDelete key)
  | deleteAll (roleSet : String) : For user (.cacheDeleteAll (entriesStart roleSet user))

namespace Resolver

open Program

variable {config : ResolverConfig} {now : Int} {user org : Uuid} {actor : Actor}
  {active : ActiveRoles} {p : Privileges}

theorem within_cached : (cached now user org).run.Within (Call.For user) 2 := by
  refine .attempt_bind (m := 1) (within_ask (.get _)) fun pointer => ?_
  cases pointer with
  | none => exact within_pure none
  | some roleSet =>
      refine .attempt_bind (m := 0) (within_ask (.get _)) fun text => ?_
      cases text with
      | none => exact within_pure none
      | some text =>
          dsimp only
          split
          · exact within_pure _
          · exact within_pure none

theorem within_activeRoles : (activeRoles now user).run.Within (Call.For user) 1 := by
  refine .attempt_bind (m := 0) (within_ask (.assignments user)) fun assignments => ?_
  split
  · exact within_pure _
  · exact within_throw _

theorem within_compute (ids : List Uuid) :
    (compute user org ids).run.Within (Call.For user) 2 := by
  refine .attempt_bind (m := 1) (within_ask (.roles ids)) fun roles =>
    .attempt_bind (m := 0) (within_ask .organizations) fun organizations => ?_
  split
  · exact within_throw _
  · split
    · exact within_throw _
    · exact within_pure _

theorem within_store : (store user org active p).run.Within (Call.For user) 4 :=
  .attempt_bind (m := 3) (within_ask (.set (.entry _ _) _)) fun _ =>
    .attempt_bind (m := 2) (within_ask (.get _)) fun _ =>
      .attempt_bind (m := 1) (within_ask (.set .roleSets _)) fun _ =>
        within_ask (.set .pointer _)

theorem within_resolveFresh :
    (resolveFresh config now actor).run.Within (Call.For actor.id) 7 := by
  refine .attempt_bind (m := 6) within_activeRoles fun active =>
    .attempt_bind (m := 4) (within_compute _) fun p => ?_
  dsimp only
  split
  · exact .attempt_bind (m := 0) within_store fun _ => within_pure p
  · exact within_pure p

theorem within_resolve : (resolve config now actor).run.Within (Call.For actor.id) 9 := by
  rw [resolve]
  split
  · exact within_pure _
  · split
    · refine .attempt_bind (m := 7) within_cached fun found => ?_
      cases found with
      | none => exact within_resolveFresh
      | some p => exact within_pure p
    · exact within_resolveFresh.mono (by decide)

/-- Deleting the list of a user's role sets and the pointer. -/
theorem within_forget : ((Call.cacheDelete (roleSetsKey user)).ask >>= fun _ =>
    (Call.cacheDelete (pointerKey user)).ask).run.Within (Call.For user) 2 :=
  .attempt_bind (m := 1) (within_ask (.delete .roleSets)) fun _ => within_ask (.delete .pointer)

/-- Deleting the entries of role sets. -/
theorem within_deleteAll (roleSets : List String) : (roleSets.forM fun r =>
    (Call.cacheDeleteAll (entriesStart r user)).ask).run.Within (Call.For user)
      roleSets.length := by
  induction roleSets with
  | nil => exact within_pure ()
  | cons r others ih =>
      rw [List.length_cons, Nat.add_comm]
      exact .attempt_bind (within_ask (.deleteAll r)) fun _ => ih

theorem all_invalidate : (invalidate config user).run.All (Call.For user) := by
  rw [invalidate]
  split
  · refine .attempt_bind (within_ask (.get _)).all fun index => ?_
    cases index with
    | none => exact within_forget.all
    | some index =>
        exact .attempt_bind (within_deleteAll (roleSets index)).all fun _ => within_forget.all
  · exact (within_pure (n := 0) ()).all

end Resolver

/-! ## Calls under way -/

/-- Make the next call of a program, if there is one. -/
def ResolverWorld.advance (w : ResolverWorld) : Program α → Program α × ResolverWorld
  | .done result => (.done result, w)
  | .ask call next => (next (w.answer call).1, (w.answer call).2)

namespace ResolverWorld

/-- How many calls a program makes when it alone goes on. -/
def questions (w : ResolverWorld) : Program α → Nat
  | .done _ => 0
  | .ask call next => (w.answer call).2.questions (next (w.answer call).1) + 1

variable {w : ResolverWorld}

theorem questions_le {p : Call → Prop} {n : Nat} {x : Program α} (within : x.Within p n) :
    w.questions x ≤ n := by
  induction x generalizing w n with
  | done result => exact Nat.zero_le n
  | ask call next ih =>
      cases n with
      | zero => exact within.elim
      | succ n => exact Nat.succ_le_succ (ih _ (within.2 _))

/-- A call leaves the data of the source and the faults as they are. -/
theorem answer_frame (call : Call) : (w.answer call).2.source = w.source ∧
    (w.answer call).2.sourceFault = w.sourceFault ∧
      (w.answer call).2.cacheFault = w.cacheFault := by
  cases call with
  | assignments | roles | organizations =>
      simp only [answer, answerSource]
      split <;> exact ⟨rfl, rfl, rfl⟩
  | cacheGet | cacheSet | cacheDelete | cacheDeleteAll =>
      simp only [answer, answerCache]
      split <;> exact ⟨rfl, rfl, rfl⟩

theorem advance_frame (x : Program α) : (w.advance x).2.source = w.source ∧
    (w.advance x).2.sourceFault = w.sourceFault ∧ (w.advance x).2.cacheFault = w.cacheFault := by
  cases x with
  | done result => exact ⟨rfl, rfl, rfl⟩
  | ask call next => exact answer_frame call

/-- What is left of a program makes the calls that the program may make. -/
theorem all_advance {p : Call → Prop} {x : Program α} (all : x.All p) :
    (w.advance x).1.All p := by
  cases x with
  | done result => exact all
  | ask call next => exact all.2 _

theorem within_advance {p : Call → Prop} {n : Nat} {x : Program α} (within : x.Within p n) :
    (w.advance x).1.Within p (n - 1) := by
  cases x with
  | done result => trivial
  | ask call next =>
      cases n with
      | zero => exact within.elim
      | succ n => exact within.2 _

end ResolverWorld

/-- What carries out an event. -/
def ServiceEvent.program (config : ResolverConfig) (now : Int) :
    ServiceEvent → Program ServiceReply
  | .resolve actor => (Resolver.resolve config now actor).run.bind fun r => .done (.resolved r)
  | .invalidate user => (Resolver.invalidate config user).run.bind fun r => .done (.invalidated r)
  | .replace _ => .done .replaced

/-- Whether an event is a call for a user. -/
def ServiceEvent.isFor (user : Uuid) : ServiceEvent → Bool
  | .resolve actor => actor.id = user
  | .invalidate user' => user' = user
  | .replace _ => false

/-- An event that has begun, with what is left of it. -/
structure Activity where
  event : ServiceEvent
  rest : Program ServiceReply

/-- A service at a time, with all events that have begun. -/
structure Traffic where
  world : ResolverWorld
  clock : Int
  begun : List Activity

/-- What may happen next. -/
inductive Move where
  | begin (event : ServiceEvent)
  /-- One of the events that have begun makes its next call. -/
  | proceed (i : Nat)
  | pass (seconds : Nat)

/-- Whether an event of some number makes its next call. -/
def Move.proceeds (i : Nat) : Move → Bool
  | .proceed j => j = i
  | _ => false

/-- The calls that an event makes. -/
def ServiceEvent.Makes : ServiceEvent → Call → Prop
  | .resolve actor => Call.For actor.id
  | .invalidate user => Call.For user
  | .replace _ => fun _ => False

theorem ServiceEvent.within_resolve {config : ResolverConfig} {now : Int} {actor : Actor} :
    ((ServiceEvent.resolve actor).program config now).Within (Call.For actor.id) 9 :=
  .bind (m := 0) Resolver.within_resolve fun _ => trivial

theorem ServiceEvent.all_program (config : ResolverConfig) (now : Int) (event : ServiceEvent) :
    (event.program config now).All event.Makes := by
  cases event with
  | resolve actor => exact ServiceEvent.within_resolve.all
  | invalidate user => exact Resolver.all_invalidate.bind fun _ => trivial
  | replace source => trivial

/-- The role sets that are listed for a user. -/
def CacheContent.listed (c : CacheContent) (user : Uuid) : List String :=
  roleSets ((c.find? (roleSetsKey user)).getD "")

/-- To invalidate a user takes three questions, and one for each role set that is listed. -/
theorem ServiceEvent.questions_invalidate {w : ResolverWorld} {config : ResolverConfig} {now : Int}
    {user : Uuid} (working : ∀ method, w.cacheFault method = none) :
    w.questions ((ServiceEvent.invalidate user).program config now) ≤
      (w.cache.listed user).length + 3 := by
  rw [ServiceEvent.program, Resolver.invalidate]
  cases config.cacheEnabled with
  | false => exact Nat.zero_le _
  | true =>
      have asked : w.answer (.cacheGet (roleSetsKey user)) =
          (.ok (w.cache.find? (roleSetsKey user)), w) := by
        show w.answerCache .get (w.cache.find? (roleSetsKey user)) id = _
        rw [ResolverWorld.answerCache, working]
        rfl
      refine Nat.succ_le_succ ?_
      rw [asked, CacheContent.listed]
      refine ResolverWorld.questions_le (p := Call.For user) (.bind (m := 0) ?_ fun _ => trivial)
      cases w.cache.find? (roleSetsKey user) with
      | none => exact Resolver.within_forget.mono (Nat.le_add_left 2 _)
      | some index =>
          exact .attempt_bind (Resolver.within_deleteAll (roleSets index)) fun _ =>
            Resolver.within_forget

/-- An event that is carried out at once is handled by its program. -/
theorem ResolverWorld.handle_eq_run (w : ResolverWorld) (config : ResolverConfig) (now : Int)
    (event : ServiceEvent) : w.handle config now event =
      { w with source := w.source.after event }.run (event.program config now) := by
  cases event with
  | resolve actor =>
      rw [handle, resolve, ServiceEvent.program, run_bind]
      rfl
  | invalidate user =>
      rw [handle, invalidate, ServiceEvent.program, run_bind]
      rfl
  | replace source => rfl

namespace Traffic

/-- A service that has not been called, with an empty cache. -/
def ofSource (source : SourceData) (clock : Int) : Traffic := ⟨.ofSource source, clock, []⟩

/-- The service after a move. A change of the source is done as it begins. -/
def after (config : ResolverConfig) (t : Traffic) : Move → Traffic
  | .begin event =>
    { t with
      world := { t.world with source := t.world.source.after event }
      begun := t.begun ++ [⟨event, event.program config t.clock⟩] }
  | .proceed i =>
    match t.begun[i]? with
    | some a =>
      let (rest, world) := t.world.advance a.rest
      { t with world, begun := t.begun.set i { a with rest } }
    | none => t
  | .pass seconds => { t with clock := t.clock + seconds }

def run (config : ResolverConfig) (t : Traffic) (moves : List Move) : Traffic :=
  moves.foldl (after config) t

/-- The answer to the event of some number, once it has come to its end. -/
def reply? (t : Traffic) (i : Nat) : Option ServiceReply :=
  t.begun[i]?.bind fun a => a.rest.result?

/-- Whether no call for a user is under way. -/
def Idle (t : Traffic) (user : Uuid) : Prop :=
  ∀ a ∈ t.begun, a.event.isFor user = true → a.rest.result?.isSome = true

instance (t : Traffic) (user : Uuid) : Decidable (t.Idle user) :=
  inferInstanceAs (Decidable
    (∀ a ∈ t.begun, a.event.isFor user = true → a.rest.result?.isSome = true))

variable {config : ResolverConfig} {t : Traffic} {i : Nat} {a : Activity}

theorem run_append (moves moves' : List Move) :
    t.run config (moves ++ moves') = (t.run config moves).run config moves' :=
  List.foldl_append

theorem after_proceed (found : t.begun[i]? = some a) : t.after config (.proceed i) =
    { t with
      world := (t.world.advance a.rest).2
      begun := t.begun.set i { a with rest := (t.world.advance a.rest).1 } } := by
  rw [after, found]

/-- Without faults, and every event makes only the calls that it may make. -/
structure Regular (t : Traffic) : Prop where
  answering : ∀ method, t.world.sourceFault method = none
  working : ∀ method, t.world.cacheFault method = none
  asks : ∀ a ∈ t.begun, a.rest.All a.event.Makes

theorem Regular.after (regular : t.Regular) (move : Move) : (t.after config move).Regular := by
  cases move with
  | pass seconds => exact ⟨regular.answering, regular.working, regular.asks⟩
  | begin event =>
      refine ⟨regular.answering, regular.working, fun a member => ?_⟩
      rcases List.mem_append.mp member with earlier | new
      · exact regular.asks a earlier
      · rw [List.mem_singleton.mp new]
        exact event.all_program config t.clock
  | proceed i =>
      cases found : t.begun[i]? with
      | none =>
          rw [Traffic.after, found]
          exact regular
      | some a =>
          rw [after_proceed found]
          obtain ⟨-, answering, working⟩ := t.world.advance_frame a.rest
          refine ⟨fun method => ?_, fun method => ?_, fun a' member => ?_⟩
          · exact (congrFun answering method).trans (regular.answering method)
          · exact (congrFun working method).trans (regular.working method)
          · rcases List.mem_or_eq_of_mem_set member with earlier | rfl
            · exact regular.asks a' earlier
            · exact ResolverWorld.all_advance (regular.asks a (List.mem_of_getElem? found))

theorem Regular.run (regular : t.Regular) (moves : List Move) : (t.run config moves).Regular := by
  induction moves generalizing t with
  | nil => exact regular
  | cons move moves ih => exact ih (regular.after move)

theorem regular_ofSource (source : SourceData) (clock : Int) : (ofSource source clock).Regular :=
  ⟨fun _ => rfl, fun _ => rfl, nofun⟩

theorem after_source {move : Move} (steady : ∀ source, move ≠ .begin (.replace source)) :
    (t.after config move).world.source = t.world.source := by
  cases move with
  | pass seconds => rfl
  | begin event =>
      cases event with
      | resolve | invalidate => rfl
      | replace source => exact absurd rfl (steady source)
  | proceed i =>
      cases found : t.begun[i]? with
      | none => rw [after, found]
      | some a =>
          rw [after_proceed found]
          exact (t.world.advance_frame a.rest).1

theorem run_source {moves : List Move}
    (steady : ∀ source, Move.begin (.replace source) ∉ moves) :
    (t.run config moves).world.source = t.world.source := by
  induction moves generalizing t with
  | nil => rfl
  | cons move moves ih =>
      have first : ∀ source, move ≠ .begin (.replace source) :=
        fun source same => steady source (same ▸ List.mem_cons_self)
      exact (ih fun source later => steady source (List.mem_cons_of_mem _ later)).trans
        (after_source first)

/-- With each of its own calls an event gets nearer to its end, and nothing else keeps it. -/
theorem run_within {p : Call → Prop} {n : Nat} (moves : List Move)
    (found : t.begun[i]? = some a) (within : a.rest.Within p n) :
    ∃ a', (t.run config moves).begun[i]? = some a' ∧
      a'.rest.Within p (n - moves.countP (Move.proceeds i)) := by
  induction moves generalizing t a n with
  | nil => exact ⟨a, found, within⟩
  | cons move moves ih =>
      have there : i < t.begun.length := (List.getElem?_eq_some_iff.mp found).1
      have passes : move.proceeds i = false → ∀ {t' : Traffic}, t.after config move = t' →
          t'.begun[i]? = some a → ∃ a', (t.run config (move :: moves)).begun[i]? = some a' ∧
            a'.rest.Within p (n - (move :: moves).countP (Move.proceeds i)) := by
        rintro other _ rfl found'
        rw [List.countP_cons_of_neg (by simp [other])]
        exact ih found' within
      cases move with
      | pass seconds => exact passes rfl rfl found
      | begin event =>
          exact passes rfl rfl ((List.getElem?_append_left there).trans found)
      | proceed j =>
          by_cases same : j = i
          · subst same
            obtain ⟨a', found', within'⟩ := ih (t := t.after config (.proceed j))
              (by rw [after_proceed found]; exact List.getElem?_set_self there)
              (ResolverWorld.within_advance within)
            refine ⟨a', found', ?_⟩
            rw [List.countP_cons_of_pos (by simp [Move.proceeds]), Nat.add_comm, Nat.sub_add_eq]
            exact within'
          · refine passes (by simp [Move.proceeds, same]) rfl ?_
            cases found' : t.begun[j]? with
            | none =>
                rw [after, found']
                exact found
            | some b =>
                rw [after_proceed found']
                exact (List.getElem?_set_ne same).trans found

/-- An event that has made all the calls that it may make is answered. -/
theorem reply_within {p : Call → Prop} {n : Nat} {moves : List Move}
    (found : t.begun[i]? = some a) (within : a.rest.Within p n)
    (enough : n ≤ moves.countP (Move.proceeds i)) : ((t.run config moves).reply? i).isSome = true := by
  obtain ⟨a', found', within'⟩ : ∃ a', (t.run config moves).begun[i]? = some a' ∧ _ :=
    run_within moves found within
  rw [Nat.sub_eq_zero_of_le enough] at within'
  rw [reply?, found']
  exact within'.ended

/-! ## Calls on which no other one intrudes -/

/-- An event that alone goes on ends as its program does. -/
theorem run_alone {n : Nat} (found : t.begun[i]? = some a) (enough : t.world.questions a.rest ≤ n) :
    t.run config (List.replicate n (.proceed i)) =
      { t with
        world := (t.world.run a.rest).2
        begun := t.begun.set i { a with rest := .done (t.world.run a.rest).1 } } := by
  induction n generalizing t a with
  | zero =>
      obtain ⟨event, rest⟩ := a
      cases rest with
      | ask call next => exact absurd enough (Nat.not_succ_le_zero _)
      | done result =>
          obtain ⟨there, here⟩ := List.getElem?_eq_some_iff.mp found
          show t = { t with begun := t.begun.set i ⟨event, .done result⟩ }
          rw [← here, List.set_getElem_self there]
  | succ n ih =>
      obtain ⟨event, rest⟩ := a
      have there : i < t.begun.length := (List.getElem?_eq_some_iff.mp found).1
      have next : (t.begun.set i ⟨event, (t.world.advance rest).1⟩)[i]? =
          some ⟨event, (t.world.advance rest).1⟩ := List.getElem?_set_self there
      have less : (t.world.advance rest).2.questions (t.world.advance rest).1 ≤ n := by
        cases rest with
        | done result => exact Nat.zero_le n
        | ask call next => exact Nat.le_of_succ_le_succ enough
      have ends : (t.world.advance rest).2.run (t.world.advance rest).1 = t.world.run rest := by
        cases rest <;> rfl
      rw [List.replicate_succ]
      show (t.after config (.proceed i)).run config _ = _
      rw [after_proceed found]
      refine (ih next less).trans ?_
      simp only [ends, List.set_set]

/-- An event that begins and goes on alone is handled as when it is carried out at once. -/
theorem run_handle {n : Nat} {event : ServiceEvent}
    (enough : { t.world with source := t.world.source.after event }.questions
      (event.program config t.clock) ≤ n) :
    t.run config (.begin event :: List.replicate n (.proceed t.begun.length)) =
      { t with
        world := (t.world.handle config t.clock event).2
        begun := t.begun ++ [⟨event, .done (t.world.handle config t.clock event).1⟩] } := by
  have alone : (t.after config (.begin event)).run config _ = _ :=
    run_alone List.getElem?_concat_length enough
  rw [t.world.handle_eq_run]
  refine alone.trans ?_
  show Traffic.mk _ _ (List.set (t.begun ++ [_]) t.begun.length _) = _
  rw [List.set_append_right _ _ (Nat.le_refl _), Nat.sub_self]
  rfl

/-- What becomes of a service by an event on which no other one intrudes. -/
structure Handles (t : Traffic) (event : ServiceEvent) (reply : ServiceReply) (c : CacheContent)
    (t' : Traffic) : Prop where
  regular : t'.Regular
  source : t'.world.source = t.world.source
  cache : t'.world.cache = c
  clock : t'.clock = t.clock
  begun : t'.begun = t.begun ++ [⟨event, .done reply⟩]

theorem Handles.reply? {event : ServiceEvent} {reply : ServiceReply} {c : CacheContent}
    {t' : Traffic} (handles : t.Handles event reply c t') :
    t'.reply? t.begun.length = some reply := by
  rw [Traffic.reply?, handles.begun, List.getElem?_concat_length]
  rfl

theorem Regular.works (regular : t.Regular) : t.world.Works t.world.source t.world.cache :=
  ⟨⟨rfl, regular.answering⟩, regular.working, rfl⟩

theorem Regular.handles_resolve (regular : t.Regular) {actor : Actor}
    {result : Except ResolveError Privileges} {c : CacheContent}
    (leads : t.world.source.Leads t.world.cache (Resolver.resolve config t.clock actor) result c) :
    t.Handles (.resolve actor) (.resolved result) c (t.run config (.begin (.resolve actor) ::
      List.replicate 9 (.proceed t.begun.length))) := by
  obtain ⟨ends, works⟩ := leads _ regular.works
  refine ⟨regular.run _, ?_, ?_, ?_, ?_⟩
  all_goals rw [run_handle (ResolverWorld.questions_le ServiceEvent.within_resolve)]
  · exact works.answers.source
  · exact works.content
  · rw [← ends]
    rfl

theorem Regular.handles_invalidate (regular : t.Regular) (enabled : config.cacheEnabled = true)
    {user : Uuid} {n : Nat} (listed : (t.world.cache.listed user).length = n) :
    t.Handles (.invalidate user) (.invalidated (.ok ())) (t.world.cache.withoutUser user)
      (t.run config (.begin (.invalidate user) ::
        List.replicate (n + 3) (.proceed t.begun.length))) := by
  obtain ⟨ends, works⟩ := Resolver.leads_invalidate enabled _ regular.works
  refine ⟨regular.run _, ?_, ?_, ?_, ?_⟩
  all_goals rw [run_handle (listed ▸ ServiceEvent.questions_invalidate regular.working)]
  · exact works.answers.source
  · exact works.content
  · rw [← ends]
    rfl

end Traffic

end ScopedAccess
