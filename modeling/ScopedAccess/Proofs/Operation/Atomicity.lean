import ScopedAccess.Proofs.Operation.Creation
import ScopedAccess.Proofs.Operation.Noninterference
/-!
# All or nothing

Of the callbacks of a phase those at the front of the chain are executed, up to the first that
fails or stops the operation (`Session.Settles`). Nothing is asked of what callbacks do: each may
change the operation and the world as it likes, before it fails or stops the operation as well as
before it does neither. If one fails, the rows are what they were before the operation, and else
what the executed callbacks have made of them.

The engine settles what its principal may do before it looks at any row. So if it cannot, for want
of the privileges or of a filter that compiles, the operation has one end in front of all rows.

* `operations_atomic`: which callbacks are executed, what is told and what is left of the rows, and
  that the engine fails closed.
-/

namespace ScopedAccess

set_option autoImplicit false

/-! ## The callbacks executed -/

namespace Session

/-- Callbacks have run one after the other, without failing. None of them has been run once the
operation was stopped. -/
inductive Ran (setting : Setting) : List (String × Handler) → Session → Session → Prop
  | nil {s : Session} : Ran setting [] s s
  | cons {name : String} {handler : Handler} {rest : List (String × Handler)} {s s₁ s' : Session}
      (going : s.operation.stopped = false) (step : handler setting s = (.ok (), s₁))
      (others : Ran setting rest s₁ s') : Ran setting ((name, handler) :: rest) s s'

/-- What comes of a chain whose callbacks at the front are executed, and the rest is not. The last
of those executed has stopped the operation, if it is not the last of all, or has failed. An error
of the engine is told as it is, another failure as that of the callback. -/
inductive Settles (setting : Setting) (s : Session) :
    List (String × Handler) → List (String × Handler) → Except OperationError Unit → Session → Prop
  | ended {executed rest : List (String × Handler)} {s' : Session}
      (ran : Ran setting executed s s') (finished : s'.operation.stopped = true ∨ rest = []) :
      Settles setting s executed rest (.ok ()) s'
  | failed {before rest : List (String × Handler)} {name : String} {handler : Handler}
      {failure : Failure} {error : OperationError} {s₁ s' : Session}
      (ran : Ran setting before s s₁) (going : s₁.operation.stopped = false)
      (step : handler setting s₁ = (.error failure, s'))
      (told : error = match failure with
        | .operation reason => reason
        | .other messages => .hook name (String.intercalate ": " messages)) :
      Settles setting s (before ++ [(name, handler)]) rest (.error error) s'

variable {setting : Setting} {s s₁ s' : Session} {name : String} {handler : Handler}
  {chain executed executed' rest rest' : List (String × Handler)}
  {result : Except OperationError Unit}

/-- A callback that has not failed is executed before those behind it. -/
theorem Settles.cons (going : s.operation.stopped = false)
    (step : handler setting s = (.ok (), s₁))
    (settles : Settles setting s₁ executed rest result s') :
    Settles setting s ((name, handler) :: executed) rest result s' := by
  cases settles with
  | ended ran finished => exact .ended (.cons going step ran) finished
  | failed ran still fails told =>
      rw [← List.cons_append]
      exact .failed (.cons going step ran) still fails told

/-- Every chain has callbacks at its front that are executed. -/
theorem exists_settles (setting : Setting) (chain : List (String × Handler)) (s : Session) :
    ∃ executed rest, chain = executed ++ rest ∧
      Settles setting s executed rest (runChain setting chain s).1
        (runChain setting chain s).2 := by
  induction chain generalizing s with
  | nil => exact ⟨[], [], rfl, .ended .nil (.inr rfl)⟩
  | cons callback others ih =>
      obtain ⟨name, handler⟩ := callback
      cases stopped : s.operation.stopped with
      | true =>
          rw [runChain_stopped stopped]
          exact ⟨[], _, rfl, .ended .nil (.inl stopped)⟩
      | false =>
          rcases step : handler setting s with ⟨failure | ⟨⟩, s₁⟩
          · rw [runChain_cons_error stopped step]
            have none : Ran setting [] s s := .nil
            refine ⟨[(name, handler)], others, rfl, .failed none stopped step ?_⟩
            cases failure <;> rfl
          · rw [runChain_cons_ok stopped step]
            obtain ⟨executed, rest, rfl, settles⟩ := ih s₁
            exact ⟨(name, handler) :: executed, rest, rfl, settles.cons stopped step⟩

/-- What can be executed of an operation that is stopped: nothing. -/
theorem Settles.nil_of_stopped (settles : Settles setting s executed rest result s')
    (stopped : s.operation.stopped = true) : executed = [] := by
  cases settles with
  | ended ran finished =>
      cases ran with
      | nil => rfl
      | cons going step others => exact absurd stopped (by simp [going])
  | failed ran still fails told =>
      cases ran with
      | nil => exact absurd stopped (by simp [still])
      | cons going step others => exact absurd stopped (by simp [going])

/-- The first callback of a chain is executed in an operation that goes on; those behind it are
where it has not failed. -/
theorem Settles.head (settles : Settles setting s executed rest result s')
    (going : s.operation.stopped = false) (split : (name, handler) :: chain = executed ++ rest) :
    (∃ failure, handler setting s = (.error failure, s') ∧ executed = [(name, handler)]) ∨
      ∃ s₁ others, handler setting s = (.ok (), s₁) ∧ executed = (name, handler) :: others ∧
        chain = others ++ rest ∧ Settles setting s₁ others rest result s' := by
  cases settles with
  | ended ran finished =>
      cases ran with
      | nil =>
          rcases finished with stopped | rfl
          · exact absurd stopped (by simp [going])
          · cases split
      | cons going' step others =>
          cases split
          exact .inr ⟨_, _, step, rfl, rfl, .ended others finished⟩
  | failed ran still fails told =>
      cases ran with
      | nil =>
          cases split
          exact .inl ⟨_, fails, rfl⟩
      | cons going' step others =>
          cases split
          exact .inr ⟨_, _, step, rfl, rfl, .failed others still fails told⟩

/-- A chain has one front that is executed. -/
theorem Settles.unique {result' : Except OperationError Unit} {s'' : Session}
    (settles : Settles setting s executed rest result s') (split : chain = executed ++ rest)
    (settles' : Settles setting s executed' rest' result' s'')
    (split' : chain = executed' ++ rest') : executed = executed' := by
  induction chain generalizing s executed executed' with
  | nil =>
      obtain ⟨rfl, -⟩ := List.append_eq_nil_iff.mp split.symm
      obtain ⟨rfl, -⟩ := List.append_eq_nil_iff.mp split'.symm
      rfl
  | cons callback others ih =>
      cases stopped : s.operation.stopped with
      | true => rw [settles.nil_of_stopped stopped, settles'.nil_of_stopped stopped]
      | false =>
          rcases settles.head stopped split with
            ⟨failure, fails, rfl⟩ | ⟨s₁, after, step, rfl, split₁, settles₁⟩
          · rcases settles'.head stopped split' with ⟨-, -, rfl⟩ | ⟨s₁, -, step, -⟩
            · rfl
            · rw [fails] at step
              cases step
          · rcases settles'.head stopped split' with
              ⟨failure, fails, -⟩ | ⟨s₂, after', step', rfl, split₂, settles₂⟩
            · rw [fails] at step
              cases step
            · rw [step] at step'
              cases step'
              rw [ih settles₁ split₁ settles₂ split₂]

/-- Callbacks that have run leave the session to those behind them. -/
theorem Ran.runChain (ran : Ran setting executed s s') :
    Session.runChain setting (executed ++ rest) s = Session.runChain setting rest s' := by
  induction ran with
  | nil => rfl
  | cons going step others ih => rw [List.cons_append, runChain_cons_ok going step, ih]

/-- What a chain comes to is settled by its front. -/
theorem Settles.runChain (settles : Settles setting s executed rest result s') :
    Session.runChain setting (executed ++ rest) s = (result, s') := by
  cases settles with
  | ended ran finished =>
      rw [ran.runChain]
      rcases finished with stopped | rfl
      · exact runChain_stopped stopped
      · rfl
  | @failed _ _ _ _ failure _ _ _ ran going step told =>
      rw [List.append_assoc, ran.runChain]
      refine (runChain_cons_error going step).trans ?_
      rw [told]
      cases failure <;> rfl

/-- Callbacks that are not executed may be others, or more or fewer of them. -/
theorem Settles.change (settles : Settles setting s executed rest result s') (left : rest ≠ [])
    (rest' : List (String × Handler)) : Settles setting s executed rest' result s' := by
  cases settles with
  | ended ran finished => exact .ended ran (.inl (finished.resolve_right left))
  | failed ran going step told => exact .failed ran going step told

/-- A chain that fails has a front that fails, whatever is behind it. -/
theorem exists_settles_of_error {front : List (String × Handler)} {error : OperationError}
    (fails : Session.runChain setting front s = (.error error, s'))
    (behind : List (String × Handler)) :
    ∃ executed rest, executed <+: front ∧ front ++ behind = executed ++ rest ∧
      Settles setting s executed rest (.error error) s' := by
  obtain ⟨executed, rest, rfl, settles⟩ := exists_settles setting front s
  rw [fails] at settles
  refine ⟨executed, rest ++ behind, List.prefix_append _ _, List.append_assoc _ _ _, ?_⟩
  cases settles with
  | failed ran going step told => exact .failed ran going step told

end Session

/-! ## What the engine settles before it looks at rows -/

/-- The callbacks of the engine that settle what an operation may do. -/
def Callbacks.settling (phase : Phase) : List (String × Handler) :=
  if phase = .create then admitting else reaching

/-- The callbacks of the engine that read, write or audit rows. -/
def Builtin.ofRows : List Builtin := [query, create, update, delete, audit]

theorem settling_prefix_chain (phase : Phase) :
    Callbacks.settling phase <+: Callbacks.builtin.chain phase := by
  cases phase with
  | create => exact ⟨_, chain_create.symm⟩
  | query => exact ⟨_, chain_query.symm⟩
  | update => exact ⟨_, chain_update.symm⟩
  | delete => exact ⟨_, chain_delete.symm⟩

theorem not_ofRows_of_settling {phase : Phase} {callback : String × Handler}
    (member : callback ∈ Callbacks.settling phase) :
    callback.1 ∉ Builtin.ofRows.map Builtin.name := by
  have names : ∀ n ∈ (Callbacks.settling phase).map Prod.fst,
      n ∉ Builtin.ofRows.map Builtin.name := by
    cases phase <;> decide
  exact names _ (List.mem_map_of_mem member)

/-- An operation cannot be settled: its filter does not compile, where it has one, or the
privileges of its actor are needed and refused. -/
def World.Unsettled (w : World) (setting : Setting) (actor : Actor) (e : Entity)
    (request : Request) : Prop :=
  (request.phase ≠ .create ∧ ∃ reason,
    compile setting.registry setting.limits.maxFilterDepth e request.filter = .error reason) ∨
  e.unrestricted = false ∧ ∃ reason, (w.privilegesOf setting actor).1 = .error reason

section Closing

variable {setting : Setting} {s : Session} {w : World} {request : Request} {e : Entity}
  {actor : Actor} {reason : ResolveError}

theorem Step.checkWriteScope_error {r : ResolverWorld}
    (restricted : s.operation.entity.unrestricted = false)
    (unasked : s.operation.privileges = none)
    (refused : s.world.privilegesOf setting s.operation.actor = (.error reason, r)) :
    checkWriteScope setting s = (.error (.operation (.ofPrivilege reason.told)),
      { s with world := { s.world with resolver := r } }) := by
  rw [World.privilegesOf] at refused
  simp [checkWriteScope, restricted, privileges, unasked, refused]

/-- A create whose privileges are needed and refused goes no further than the check, in front of
all rows alike. -/
theorem runChain_unadmitted (restricted : e.unrestricted = false)
    (refused : (w.privilegesOf setting actor).1 = .error reason) :
    ∃ (error : OperationError) (o : Operation) (w' : World), w'.audit = w.audit ∧ ∀ rest db,
      Session.runChain setting (Callbacks.admitting ++ rest)
        ⟨.start request e actor, { w with db }⟩ = (.error error, ⟨o, { w' with db }⟩) := by
  cases hook : (setting.lifecycle.prepare e actor request.payload).run w.journal with
  | mk result journal =>
      cases result with
      | error failure =>
          exact ⟨_, _, { w with journal }, rfl, fun rest db =>
            runChain_cons_error rfl (Step.beforeCreate_error hook)⟩
      | ok prepared =>
          have answered : ∀ db, ({ w with db, journal } : World).privilegesOf setting actor =
              (.error reason, (w.privilegesOf setting actor).2) := fun db => Prod.ext refused rfl
          have stamps : ∀ db, Step.stampOwner setting
              ⟨{ Operation.start request e actor with payload := prepared },
                { w with db, journal }⟩ = (.ok (), ⟨{ Operation.start request e actor with
                  payload := e.stamped actor prepared }, { w with db, journal }⟩) := by
            intro db
            rw [Step.stampOwner, Step.run_change, stampOwner_eq]
            rfl
          exact ⟨_, _, w.admitted setting actor journal, rfl, fun rest db =>
            (runChain_cons_ok rfl (Step.beforeCreate_ok hook)).trans <|
              (runChain_cons_ok rfl (stamps db)).trans <|
                runChain_cons_error rfl (Step.checkWriteScope_error restricted rfl (answered db))⟩

/-- An operation that cannot be settled fails before it has looked at a row, in front of all rows
alike, and is not audited. -/
theorem runChain_unsettled (unsettled : w.Unsettled setting actor e request) :
    ∃ (error : OperationError) (o : Operation) (w' : World), w'.audit = w.audit ∧ ∀ rest db,
      Session.runChain setting (Callbacks.settling request.phase ++ rest)
        ⟨.start request e actor, { w with db }⟩ = (.error error, ⟨o, { w' with db }⟩) := by
  by_cases creates : request.phase = .create
  · rw [Callbacks.settling, if_pos creates]
    rcases unsettled with ⟨other, -⟩ | ⟨restricted, reason, refused⟩
    · exact absurd creates other
    · exact runChain_unadmitted restricted refused
  · rw [Callbacks.settling, if_neg creates]
    cases compiled : compile setting.registry setting.limits.maxFilterDepth e request.filter with
    | error reason => exact ⟨_, _, w, rfl, fun rest db => runChain_uncompiled compiled⟩
    | ok f =>
        rcases unsettled with ⟨-, reason, refused⟩ | ⟨restricted, reason, refused⟩
        · rw [compiled] at refused
          cases refused
        · have same : (w.asked setting e actor).audit = w.audit := by
            rw [World.asked, if_neg (by simp [restricted])]
          have run : ∀ rest db, Session.runChain setting (Callbacks.reaching ++ rest)
              ⟨.start request e actor, { w with db }⟩ =
                (.error (.ofPrivilege reason.told),
                  ⟨{ Operation.start request e actor with filter := f },
                    { w.asked setting e actor with db }⟩) := by
            intro rest db
            have refused' : ({ w with db }.privilegesOf setting actor).1 = .error reason := refused
            rw [runChain_unresolved compiled restricted refused', asked_over]
            rfl
          exact ⟨_, _, w.asked setting e actor, same, run⟩

end Closing

/-! ## Operations as a whole -/

section Operations

variable {setting : Setting} {name : String} {e : Entity}

/-- What is told and left of an operation whose chain has come to its end. -/
def World.concluded (w : World) (result : Except OperationError Unit) (s : Session) :
    Except OperationError Outcome × World :=
  match result with
  | .ok () => (.ok s.operation.outcome, s.world)
  | .error error => (.error error, { s.world with db := w.db })

/-- What comes of an operation is what its chain is settled by. -/
theorem perform_of_settles {w : World} {callbacks : Callbacks} {actor : Actor} {request : Request}
    {executed rest : List (String × Handler)} {result : Except OperationError Unit} {s' : Session}
    (registered : setting.registry.find? name = some e)
    (split : callbacks.chain request.phase = executed ++ rest)
    (settles : Session.Settles setting ⟨.start request e actor, w⟩ executed rest result s') :
    w.perform setting callbacks actor name request = w.concluded result s' := by
  have run := settles.runChain
  rw [← split] at run
  cases result with
  | ok => exact perform_of_ok registered run
  | error error => exact perform_of_error registered run

/-- Operations are all or nothing. The callbacks executed are those at the front of the chain up to
the first that fails or stops the operation, and no others have a part in what comes of it. If one
fails its error is told and the rows are as they were; else the outcome and the rows are as the
callbacks executed have left them. With the callbacks of the engine, an operation that cannot be
settled fails alike in front of all rows, which it leaves as they are; none of the callbacks that
read, write or audit rows is executed. -/
theorem operations_atomic (w : World) (actor : Actor) (request : Request)
    (registered : setting.registry.find? name = some e) :
    (∀ callbacks : Callbacks, ∃! executed, ∃ rest result s',
      callbacks.chain request.phase = executed ++ rest ∧
      Session.Settles setting ⟨.start request e actor, w⟩ executed rest result s' ∧
      w.perform setting callbacks actor name request = w.concluded result s' ∧
      (rest ≠ [] → ∀ (others : Callbacks) (rest' : List (String × Handler)),
        others.chain request.phase = executed ++ rest' →
        w.perform setting others actor name request =
          w.perform setting callbacks actor name request)) ∧
    (w.Unsettled setting actor e request → ∃ (error : OperationError) (w' : World),
      w'.audit = w.audit ∧
      (∀ db, World.perform { w with db } setting .builtin actor name request =
        (.error error, { w' with db })) ∧
      ∃ executed rest s', Callbacks.builtin.chain request.phase = executed ++ rest ∧
        Session.Settles setting ⟨.start request e actor, w⟩ executed rest (.error error) s' ∧
        ∀ callback ∈ executed, callback.1 ∉ Builtin.ofRows.map Builtin.name) := by
  constructor
  · intro callbacks
    obtain ⟨executed, rest, split, settles⟩ := Session.exists_settles setting
      (callbacks.chain request.phase) ⟨.start request e actor, w⟩
    have told := perform_of_settles registered split settles
    refine ⟨executed, ⟨rest, _, _, split, settles, told, ?_⟩, ?_⟩
    · intro left others rest' split'
      rw [told]
      exact perform_of_settles registered split' (settles.change left rest')
    · rintro executed' ⟨rest', result', s', split', settles', -⟩
      exact settles'.unique split' settles split
  · intro unsettled
    obtain ⟨error, o, w', same, run⟩ := runChain_unsettled unsettled
    obtain ⟨behind, whole⟩ := settling_prefix_chain request.phase
    refine ⟨error, w', same, fun db => ?_, ?_⟩
    · have fails := run behind db
      rw [whole] at fails
      exact perform_of_error registered fails
    · have fails := run [] w.db
      rw [List.append_nil] at fails
      obtain ⟨executed, rest, front, split, settles⟩ :=
        Session.exists_settles_of_error fails behind
      exact ⟨executed, rest, _, whole ▸ split, settles,
        fun callback member => not_ofRows_of_settling (front.subset member)⟩

end Operations

namespace Notebook

/-- A callback that fails. -/
def exceeded : Handler := throw (.other ["quota exceeded"])

/-- The callbacks of the engine, with one behind them that fails. -/
def quota : Callbacks where
  phase phase :=
    let builtins := Callbacks.builtin.phase phase
    { builtins with chain := builtins.chain ++ [("app:quota", exceeded)] }

/-- A principal without a role. -/
def stranger : Actor := ⟨.ofNat 34, none, office⟩

/-- What a client is told of an operation that fails. -/
def failureOf : Except OperationError Outcome → Option OperationError
  | .ok _ => none
  | .error error => some error

end Notebook

open Notebook in
/-- A parcel that is refused once it has been inserted is not kept, and a stranger who asks for
parcels is told the same whichever there are. -/
theorem refused_parcel_not_kept :
    post.registry.find? "parcel" = some parcels ∧
    mailbox.perform post quota writer "parcel" (.create (parcel none)) =
      (.error (.hook "app:quota" "quota exceeded"),
        { (mailbox.perform post quota writer "parcel" (.create (parcel none))).2 with
          db := mailbox.db }) ∧
    mailbox.Unsettled post stranger parcels (.query .null .default) ∧
    ∃ error : OperationError, ∃ w' : World, w'.audit = [] ∧ ∀ db,
      World.perform { mailbox with db } post .builtin stranger "parcel" (.query .null .default) =
        (.error error, { w' with db }) := by
  have registered : post.registry.find? "parcel" = some parcels := rfl
  have refused : mailbox.Unsettled post stranger parcels (.query .null .default) :=
    .inr ⟨rfl, .noAssignments stranger.id, by decide +kernel⟩
  have fails : failureOf (mailbox.perform post quota writer "parcel" (.create (parcel none))).1 =
      some (.hook "app:quota" "quota exceeded") := by decide +kernel
  refine ⟨registered, ?_, refused, ?_⟩
  · obtain ⟨executed, ⟨rest, result, s', -, -, told, -⟩, -⟩ :=
      (operations_atomic mailbox writer (.create (parcel none)) registered).1 quota
    rw [told] at fails ⊢
    cases result with
    | ok => cases fails
    | error error =>
        cases fails
        rfl
  · obtain ⟨error, w', same, closed, -⟩ :=
      (operations_atomic mailbox stranger (.query .null .default) registered).2 refused
    exact ⟨error, w', same, closed⟩

end ScopedAccess
