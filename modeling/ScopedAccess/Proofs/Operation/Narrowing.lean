import ScopedAccess.Proofs.Operation.Acting
/-!
# Callbacks that narrow

An application may hook callbacks between the engine's that do nothing but add predicates to the
filter of an operation. What they add behind the callback that compiles the filter of the client is
there when the statement runs: no later callback takes a predicate away, whatever the hooks of the
entity do (`Link.step`), so that every row that the statement acts on passes all of them.

What they add before is lost. Compiling puts the filter of the client in the place of the one that
has been narrowed so far, and the operation goes on as if they had not run
(`runChain_compiling`).

* `narrowing_exact`: what comes of an operation with such callbacks.
-/

namespace ScopedAccess

set_option autoImplicit false

/-! ## Chains with callbacks that narrow -/

/-- Add the predicates that something makes of what it sees. -/
def Step.pushing (make : Setting → Session → List Predicate) : Handler := do
  let setting ← read
  let s ← get
  (make setting s).forM fun p => change fun o => o.pushFilter p

/-- A callback of the engine, or one that only adds predicates. -/
inductive Link where
  | engine (b : Builtin)
  | pushing (name : String) (make : Setting → Session → List Predicate)

namespace Link

def callback : Link → String × Handler
  | engine b => (b.name, b.handler)
  | pushing name make => (name, Step.pushing make)

def builtin? : Link → Option Builtin
  | engine b => some b
  | pushing _ _ => none

def isPushing (l : Link) : Bool := l.builtin?.isNone

end Link

namespace Builtin

/-- Whether a callback carries out a statement. -/
def isStatement : Builtin → Bool
  | query | create | update | delete => true
  | _ => false

/-- The engine's callbacks of a phase before its statement. -/
def leading (phase : Phase) : List Builtin := (ofPhase phase).takeWhile fun b => !b.isStatement

/-- The statement of a phase and what the engine runs behind it. -/
def closing (phase : Phase) : List Builtin := (ofPhase phase).dropWhile fun b => !b.isStatement

end Builtin

/-- A callback has added a predicate behind the one that compiles the filter: the callbacks before
it have run to their end, and it made the predicate of what they left. -/
def PushedBehind (setting : Setting) (front : List Link) (s : Session) (g : Predicate) : Prop :=
  ∃ before name make after s', front = before ++ .pushing name make :: after ∧
    .engine .compileFilter ∈ before ∧
    Session.runChain setting (before.map Link.callback) s = (.ok (), s') ∧ g ∈ make setting s'

/-! ## Before the filter is compiled -/

section Compiling

variable {setting : Setting} {s : Session} {front late : List Link}
  {rest : List (String × Handler)} {b : Builtin} {bs : List Builtin}

theorem run_forM_pushFilter (ps : List Predicate) :
    (ps.forM fun p => Step.change fun o => o.pushFilter p : Handler) setting s =
      (.ok (), s.narrowed ps) := by
  induction ps generalizing s with
  | nil =>
      rw [Session.narrowed, CompiledFilter.pushAll_nil]
      rfl
  | cons p ps ih =>
      have first : (p :: ps).forM (fun p => Step.change fun o => o.pushFilter p) =
          (Step.change (fun o => o.pushFilter p) >>= fun _ =>
            ps.forM fun p => Step.change fun o => o.pushFilter p) := rfl
      rw [first, Step.run_bind, Step.run_change]
      simp only
      rw [ih, Session.narrowed, Session.narrowed, ← List.singleton_append,
        CompiledFilter.pushAll_append]
      rfl

theorem Step.run_pushing (make : Setting → Session → List Predicate) :
    pushing make setting s = (.ok (), s.narrowed (make setting s)) := by
  rw [pushing, run_bind, run_read]
  simp only
  rw [run_bind, run_get]
  exact run_forM_pushFilter (make setting s)

/-- A chain starts with callbacks that push, up to the first of the engine's. -/
theorem exists_first_engine (ordered : front.filterMap Link.builtin? = b :: bs) :
    ∃ early late, front = early ++ .engine b :: late ∧ (∀ l ∈ early, l.isPushing = true) ∧
      late.filterMap Link.builtin? = bs ∧
        front.dropWhile Link.isPushing = .engine b :: late := by
  induction front with
  | nil => cases ordered
  | cons l front ih =>
      cases l with
      | engine b' =>
          obtain ⟨rfl, rest⟩ := List.cons.inj ordered
          exact ⟨[], front, rfl, List.forall_mem_nil _, rest, rfl⟩
      | pushing name make =>
          obtain ⟨early, late, rfl, pushes, rest, dropped⟩ := ih ordered
          exact ⟨.pushing name make :: early, late, rfl,
            List.forall_mem_cons.mpr ⟨rfl, pushes⟩, rest, dropped⟩

/-- What callbacks push before the filter is compiled is lost. -/
theorem runChain_compiling {early : List Link} (pushes : ∀ l ∈ early, l.isPushing = true)
    (going : s.operation.stopped = false) {f : CompiledFilter}
    (compiled : compile setting.registry setting.limits.maxFilterDepth s.operation.entity
      s.operation.filterInput = .ok f) :
    Session.runChain setting
        ((early ++ .engine .compileFilter :: late).map Link.callback ++ rest) s =
      Session.runChain setting (late.map Link.callback ++ rest)
        { s with operation := { s.operation with filter := f } } := by
  induction early generalizing s with
  | nil => exact runChain_cons_ok going (Step.compileFilter_ok compiled)
  | cons l early ih =>
      obtain ⟨first, others⟩ := List.forall_mem_cons.mp pushes
      cases l with
      | engine b => cases first
      | pushing name make =>
          exact (runChain_cons_ok going (Step.run_pushing make)).trans
            (ih (s := s.narrowed (make setting s)) others going compiled)

/-- Where the filter does not compile the operation fails, with nothing changed in the world. -/
theorem runChain_not_compiling {early : List Link} (pushes : ∀ l ∈ early, l.isPushing = true)
    (going : s.operation.stopped = false) {reason : CompileError}
    (refused : compile setting.registry setting.limits.maxFilterDepth s.operation.entity
      s.operation.filterInput = .error reason) :
    ∃ o, Session.runChain setting
        ((early ++ .engine .compileFilter :: late).map Link.callback ++ rest) s =
      (.error (.ofCompile reason), ⟨o, s.world⟩) := by
  induction early generalizing s with
  | nil => exact ⟨_, runChain_cons_error going (Step.compileFilter_error refused)⟩
  | cons l early ih =>
      obtain ⟨first, others⟩ := List.forall_mem_cons.mp pushes
      cases l with
      | engine b => cases first
      | pushing name make =>
          have narrowed : (s.narrowed (make setting s)).operation.stopped = false := going
          obtain ⟨o, failed⟩ := ih others narrowed refused
          exact ⟨o, (runChain_cons_ok going (Step.run_pushing make)).trans failed⟩

end Compiling

/-! ## Between the filter and the statement -/

section Underway

variable (setting : Setting) (w : World) (request : Request) (e : Entity) (actor : Actor)

/-- The predicates that a callback before the statement adds to the filter. -/
def Link.adds (s : Session) : Link → List Predicate
  | pushing _ make => make setting s
  | engine .injectScope =>
    ((Operation.start request e actor).confines? (w.used? setting e actor)).toList
  | engine .excludeDeleted => e.undeleted?.toList
  | engine _ => []

/-- Whether a callback of the engine may stand between the filter and the statement. -/
def Builtin.isBetween : Builtin → Bool
  | injectScope | excludeDeleted | stampModifier | beforeUpdate | beforeDelete => true
  | _ => false

variable {setting w request e actor} {s s' : Session}

/-- A callback before the statement adds its predicates to the filter, and takes none away. -/
theorem Link.step {l : Link} (between : ∀ b, l.builtin? = some b → b.isBetween = true)
    (underway : Underway setting w request e actor s)
    (ran : l.callback.2 setting s = (.ok (), s')) :
    Underway setting w request e actor s' ∧
      s'.operation.filter = s.operation.filter.pushAll (l.adds setting w request e actor s) := by
  cases l with
  | pushing name make =>
      have run : Step.pushing make setting s = (.ok (), s') := ran
      rw [Step.run_pushing] at run
      cases run
      exact ⟨underway.narrowed _, rfl⟩
  | engine b =>
      have kept : s.operation.filter = s.operation.filter.pushAll [] :=
        (CompiledFilter.pushAll_nil _).symm
      cases b with
      | injectScope => exact (run_injectScope_underway underway ran).2
      | excludeDeleted =>
          have run : Step.excludeDeleted setting s = (.ok (), s') := ran
          rw [Step.excludeDeleted_ok, Operation.withoutDeleted_eq] at run
          cases run
          refine ⟨underway.narrowed _, ?_⟩
          rw [Link.adds, ← underway.sameEntity]
      | stampModifier =>
          have run : Step.stampModifier setting s = (.ok (), s') := ran
          rw [Step.stampModifier, Step.run_change, stampModifier_eq] at run
          cases run
          exact ⟨underway.changed _ s.world.journal, kept⟩
      | beforeUpdate =>
          obtain ⟨underway', same⟩ := run_beforeUpdate_underway underway ran
          exact ⟨underway', same.trans kept⟩
      | beforeDelete =>
          obtain ⟨underway', same⟩ := run_beforeDelete_underway underway ran
          exact ⟨underway', same.trans kept⟩
      | _ => cases between _ rfl

/-- Callbacks before the statement add their predicates, each those that it makes of what the
callbacks before it have left. -/
theorem Link.run {late : List Link}
    (between : ∀ l ∈ late, ∀ b, l.builtin? = some b → b.isBetween = true)
    (underway : Underway setting w request e actor s)
    (ran : Session.runChain setting (late.map Link.callback) s = (.ok (), s')) :
    Underway setting w request e actor s' ∧ ∃ added,
      s'.operation.filter = s.operation.filter.pushAll added ∧
        ∀ g, g ∈ added ↔ ∃ before l after s₁, late = before ++ l :: after ∧
          Session.runChain setting (before.map Link.callback) s = (.ok (), s₁) ∧
            g ∈ l.adds setting w request e actor s₁ := by
  induction late generalizing s with
  | nil =>
      cases ran
      refine ⟨underway, [], (CompiledFilter.pushAll_nil _).symm, fun g => ⟨nofun, ?_⟩⟩
      rintro ⟨before, l, after, s₁, split, -⟩
      exact absurd split.symm (by simp)
  | cons l late ih =>
      obtain ⟨here, between⟩ := List.forall_mem_cons.mp between
      obtain ⟨s₁, step, ran⟩ : ∃ s₁, l.callback.2 setting s = (.ok (), s₁) ∧
          Session.runChain setting (late.map Link.callback) s₁ = (.ok (), s') :=
        exists_of_runChain_cons underway.going ran
      have first : ∀ links : List Link, Session.runChain setting
          ((l :: links).map Link.callback) s =
            Session.runChain setting (links.map Link.callback) s₁ :=
        fun links => runChain_cons_ok underway.going step
      obtain ⟨underway₁, added₁⟩ := Link.step here underway step
      obtain ⟨underway', added, rest, members⟩ := ih between underway₁ ran
      refine ⟨underway', l.adds setting w request e actor s ++ added, ?_, fun g => ?_⟩
      · rw [rest, added₁, CompiledFilter.pushAll_append]
      · rw [List.mem_append, members]
        constructor
        · rintro (member | ⟨before, l', after, s₂, rfl, ran', member⟩)
          · exact ⟨[], l, late, s, rfl, rfl, member⟩
          · exact ⟨l :: before, l', after, s₂, rfl, (first before).trans ran', member⟩
        · rintro ⟨before, l', after, s₂, split, ran', member⟩
          cases before with
          | nil =>
              obtain ⟨rfl, rfl⟩ := List.cons.inj split
              cases ran'
              exact .inl member
          | cons l'' before =>
              obtain ⟨rfl, rfl⟩ := List.cons.inj split
              rw [first] at ran'
              exact .inr ⟨before, l', after, s₂, rfl, ran', member⟩

end Underway

/-! ## Operations with callbacks that narrow -/

/-- The engine's callbacks from the statement of a phase on. -/
def Callbacks.closing (phase : Phase) : List (String × Handler) :=
  (Builtin.closing phase).map fun b => (b.name, b.handler)

/-- All phases but one begin with the filter, and put the scope and the mark of deletion between
it and the statement. -/
theorem leading_eq {phase : Phase} (reaches : phase ≠ .create) : ∃ bs,
    Builtin.leading phase = .compileFilter :: bs ∧ (∀ b ∈ bs, b.isBetween = true) ∧
      .injectScope ∈ bs ∧ .excludeDeleted ∈ bs := by
  cases phase with
  | create => exact absurd rfl reaches
  | query => exact ⟨[.injectScope, .excludeDeleted], rfl, by decide, by decide, by decide⟩
  | update =>
      exact ⟨[.injectScope, .excludeDeleted, .stampModifier, .beforeUpdate], rfl, by decide,
        by decide, by decide⟩
  | delete =>
      exact ⟨[.injectScope, .excludeDeleted, .beforeDelete, .stampModifier], rfl, by decide,
        by decide, by decide⟩

section Narrowing

variable {setting : Setting} {w : World} {request : Request} {e : Entity} {actor : Actor}
  {s s' : Session} {early late : List Link} {f : CompiledFilter} {name : String}

theorem actsOn_closing (reaches : request.phase ≠ .create)
    (underway : Underway setting w request e actor s)
    (ran : Session.runChain setting (Callbacks.closing request.phase) s = (.ok (), s')) :
    w.ActsOn setting request e actor s.operation.payload (s.operation.wants w.db)
      s'.operation.outcome s'.world.db := by
  cases phase : request.phase with
  | create => exact absurd phase reaches
  | query =>
      rw [phase] at ran
      exact actsOn_query phase underway ran
  | update =>
      rw [phase] at ran
      exact actsOn_update phase underway ran
  | delete =>
      rw [phase] at ran
      exact actsOn_delete phase underway ran

/-- An engine's callback that has run among others ran from a session under way. -/
theorem exists_of_mem_late {l : Link}
    (between : ∀ l ∈ late, ∀ b, l.builtin? = some b → b.isBetween = true)
    (underway : Underway setting w request e actor s)
    (ran : Session.runChain setting (late.map Link.callback) s = (.ok (), s')) (member : l ∈ late) :
    ∃ before after s₁ s₂, late = before ++ l :: after ∧
      Session.runChain setting (before.map Link.callback) s = (.ok (), s₁) ∧
        Underway setting w request e actor s₁ ∧ l.callback.2 setting s₁ = (.ok (), s₂) := by
  obtain ⟨before, after, rfl⟩ := List.append_of_mem member
  rw [List.map_append] at ran
  obtain ⟨s₁, front, ran⟩ := exists_of_runChain_append ran
  have underway₁ := (Link.run (fun l member => between l (List.mem_append_left _ member))
    underway front).1
  obtain ⟨s₂, step, -⟩ : ∃ s₂, l.callback.2 setting s₁ = (.ok (), s₂) ∧ _ :=
    exists_of_runChain_cons underway₁.going ran
  exact ⟨before, after, s₁, s₂, rfl, front, underway₁, step⟩

/-- What stands behind the filter in a chain, stands behind it among the later callbacks. -/
theorem split_behind {before after : List Link} {l : Link} {b : Builtin}
    (pushes : ∀ l ∈ early, l.isPushing = true)
    (split : early ++ .engine b :: late = before ++ l :: after)
    (behind : .engine b ∈ before) :
    ∃ before', before = early ++ .engine b :: before' ∧ late = before' ++ l :: after := by
  have fresh : Link.engine b ∉ early := fun member => nomatch pushes _ member
  rcases List.append_eq_append_iff.mp split with ⟨more, rfl, rest⟩ | ⟨more, rfl, rest⟩
  · cases more with
    | nil =>
        rw [List.append_nil] at behind
        exact absurd behind fresh
    | cons first before' =>
        obtain ⟨rfl, tails⟩ := List.cons.inj rest
        exact ⟨before', rfl, tails⟩
  · exact absurd (List.mem_append_left _ behind) fresh

/-- A chain that starts with compiling the filter goes on from it. -/
theorem runChain_behind (pushes : ∀ l ∈ early, l.isPushing = true)
    (compiled : compile setting.registry setting.limits.maxFilterDepth e request.filter = .ok f) :
    Session.runChain setting ((early ++ .engine .compileFilter :: late).map Link.callback)
      ⟨.start request e actor, w⟩ =
        Session.runChain setting (late.map Link.callback) (.compiled w request e actor f) := by
  have ran : Session.runChain setting
      ((early ++ .engine .compileFilter :: late).map Link.callback ++ [])
        ⟨.start request e actor, w⟩ = Session.runChain setting (late.map Link.callback ++ []) _ :=
    runChain_compiling pushes rfl compiled
  rwa [List.append_nil, List.append_nil] at ran

/-- The predicates that callbacks between the filter and the statement have added are the guards
and those that have been pushed behind the filter. -/
theorem mem_added_iff {added : List Predicate} {g : Predicate}
    (pushes : ∀ l ∈ early, l.isPushing = true)
    (between : ∀ l ∈ late, ∀ b, l.builtin? = some b → b.isBetween = true)
    (confines : .engine .injectScope ∈ late) (hides : .engine .excludeDeleted ∈ late)
    (compiled : compile setting.registry setting.limits.maxFilterDepth e request.filter = .ok f)
    (ran : Session.runChain setting (late.map Link.callback) (.compiled w request e actor f) =
      (.ok (), s'))
    (members : ∀ g, g ∈ added ↔ ∃ before l after s₁, late = before ++ l :: after ∧
      Session.runChain setting (before.map Link.callback) (.compiled w request e actor f) =
        (.ok (), s₁) ∧ g ∈ l.adds setting w request e actor s₁) :
    g ∈ added ↔ g ∈ (Operation.start request e actor).guards (w.used? setting e actor) ∨
      PushedBehind setting (early ++ .engine .compileFilter :: late)
        ⟨.start request e actor, w⟩ g := by
  rw [members, Operation.guards_eq, List.mem_append]
  constructor
  · rintro ⟨before, l, after, s₁, rfl, ran₁, member⟩
    cases l with
    | pushing name make =>
        refine .inr ⟨early ++ .engine .compileFilter :: before, name, make, after, s₁, ?_, ?_,
          (runChain_behind pushes compiled).trans ran₁, member⟩
        · rw [List.append_assoc, List.cons_append]
        · exact List.mem_append_right _ List.mem_cons_self
    | engine b =>
        cases b with
        | injectScope => exact .inl (.inl member)
        | excludeDeleted => exact .inl (.inr member)
        | _ => cases member
  · rintro ((member | member) | ⟨before, name, make, after, s₁, split, behind, ran₁, member⟩)
    · obtain ⟨before, after, s₁, -, split, ran₁, -⟩ :=
        exists_of_mem_late between underway_compiled ran confines
      exact ⟨before, _, after, s₁, split, ran₁, member⟩
    · obtain ⟨before, after, s₁, -, split, ran₁, -⟩ :=
        exists_of_mem_late between underway_compiled ran hides
      exact ⟨before, _, after, s₁, split, ran₁, member⟩
    · obtain ⟨before', rfl, rfl⟩ := split_behind pushes split behind
      exact ⟨before', _, after, s₁, rfl, (runChain_behind pushes compiled).symm.trans ran₁,
        member⟩

/-- What callbacks push before the filter is compiled makes no difference. -/
theorem perform_compiling {callbacks callbacks' : Callbacks}
    (registered : setting.registry.find? name = some e)
    (pushes : ∀ l ∈ early, l.isPushing = true) {rest : List (String × Handler)}
    (chain : callbacks.chain request.phase =
      (early ++ .engine .compileFilter :: late).map Link.callback ++ rest)
    (chain' : callbacks'.chain request.phase =
      (.engine .compileFilter :: late : List Link).map Link.callback ++ rest) :
    w.perform setting callbacks actor name request =
      w.perform setting callbacks' actor name request := by
  rw [World.perform, World.perform, registered]
  simp only [chain, chain']
  cases compiled : compile setting.registry setting.limits.maxFilterDepth e request.filter with
  | ok f =>
      have long : Session.runChain setting
          ((early ++ .engine .compileFilter :: late).map Link.callback ++ rest)
            ⟨.start request e actor, w⟩ =
              Session.runChain setting (late.map Link.callback ++ rest) _ :=
        runChain_compiling pushes rfl compiled
      have short : Session.runChain setting
          ((.engine .compileFilter :: late : List Link).map Link.callback ++ rest)
            ⟨.start request e actor, w⟩ =
              Session.runChain setting (late.map Link.callback ++ rest) _ :=
        runChain_cons_ok rfl (Step.compileFilter_ok compiled)
      rw [long, short]
  | error reason =>
      obtain ⟨o, long⟩ : ∃ o, Session.runChain setting
          ((early ++ .engine .compileFilter :: late).map Link.callback ++ rest)
            ⟨.start request e actor, w⟩ = (.error (.ofCompile reason), ⟨o, w⟩) :=
        runChain_not_compiling pushes rfl compiled
      have short : Session.runChain setting
          ((.engine .compileFilter :: late : List Link).map Link.callback ++ rest)
            ⟨.start request e actor, w⟩ = _ :=
        runChain_cons_error rfl (Step.compileFilter_error compiled)
      rw [long, short]
      rfl

/-- The statement of an operation that comes to its end acts on the rows that pass the filter of
the client, the guards and what has been pushed behind the filter. -/
theorem exists_actsOn {callbacks : Callbacks} {outcome : Outcome} {front : List Link}
    (registered : setting.registry.find? name = some e) (reaches : request.phase ≠ .create)
    (ordered : front.filterMap Link.builtin? = Builtin.leading request.phase)
    (chain : callbacks.chain request.phase =
      front.map Link.callback ++ Callbacks.closing request.phase)
    (told : (w.perform setting callbacks actor name request).1 = .ok outcome) :
    ∃ f s wanted,
      compile setting.registry setting.limits.maxFilterDepth e request.filter = .ok f ∧
      (e.unrestricted = false → ∃ p, (w.privilegesOf setting actor).1 = .ok p) ∧
      Session.runChain setting (front.map Link.callback) ⟨.start request e actor, w⟩ =
        (.ok (), s) ∧
      (∀ t row, wanted t row = true ↔
        (∀ g ∈ f.parts, g.passes w.db e.table t row = true) ∧
        (∀ g ∈ (Operation.start request e actor).guards (w.used? setting e actor),
          g.passes w.db e.table t row = true) ∧
        ∀ g, PushedBehind setting front ⟨.start request e actor, w⟩ g →
          g.passes w.db e.table t row = true) ∧
      w.ActsOn setting request e actor s.operation.payload wanted outcome
        (w.perform setting callbacks actor name request).2.db := by
  obtain ⟨bs, leading, allBetween, scopes, hides⟩ := leading_eq reaches
  rw [leading] at ordered
  obtain ⟨early, late, rfl, pushes, rest, -⟩ := exists_first_engine ordered
  have between : ∀ l ∈ late, ∀ b, l.builtin? = some b → b.isBetween = true := by
    intro l member b builtin
    exact allBetween b (rest ▸ List.mem_filterMap.mpr ⟨l, member, builtin⟩)
  have mem_late : ∀ b ∈ bs, Link.engine b ∈ late := by
    intro b member
    rw [← rest] at member
    obtain ⟨l, member, builtin⟩ := List.mem_filterMap.mp member
    cases l with
    | engine b' => exact Option.some.inj builtin ▸ member
    | pushing => cases builtin
  obtain ⟨s', ran, rfl, left⟩ := exists_of_perform_ok registered told
  rw [chain] at ran
  obtain ⟨s, front, closing⟩ := exists_of_runChain_append ran
  cases compiled : compile setting.registry setting.limits.maxFilterDepth e request.filter with
  | error reason =>
      obtain ⟨o, fails⟩ : ∃ o, Session.runChain setting
          ((early ++ .engine .compileFilter :: late).map Link.callback ++ [])
            ⟨.start request e actor, w⟩ = (.error (.ofCompile reason), ⟨o, w⟩) :=
        runChain_not_compiling pushes rfl compiled
      rw [List.append_nil, front] at fails
      cases fails
  | ok f =>
      have behind : Session.runChain setting (late.map Link.callback)
          (.compiled w request e actor f) = (.ok (), s) :=
        (runChain_behind pushes compiled).symm.trans front
      obtain ⟨underway, added, filter, members⟩ := Link.run between underway_compiled behind
      have asked : e.unrestricted = false → ∃ p, (w.privilegesOf setting actor).1 = .ok p := by
        obtain ⟨-, -, s₁, s₂, -, -, underway₁, injected⟩ :=
          exists_of_mem_late between underway_compiled behind (mem_late _ scopes)
        exact (run_injectScope_underway underway₁ injected).1
      refine ⟨f, s, s.operation.wants w.db, rfl, asked, front, fun t row => ?_, ?_⟩
      · have parts : ∀ g, g ∈ s.operation.filter.parts ↔ g ∈ f.parts ∨ g ∈ added := by
          intro g
          rw [filter]
          simp only [Session.compiled, CompiledFilter.parts, CompiledFilter.pushAll,
            List.mem_append]
          tauto
        have which := fun g => mem_added_iff (g := g) pushes between (mem_late _ scopes)
          (mem_late _ hides) compiled behind members
        rw [Operation.wants, List.all_eq_true, underway.sameEntity]
        simp only [parts, which, or_imp, forall_and]
      · rw [left]
        exact actsOn_closing reaches underway closing

/-- What comes of an operation among whose callbacks are some that only add predicates, at any
places before the statement. Those in front of the callback that compiles the filter make no
difference: what they add is lost. The statement acts on the rows that pass the filter of the
client, the guards of scope and deletion and every predicate that has been pushed behind the
filter, and on no others. An operation that fails changes no rows. -/
theorem narrowing_exact (w : World) (callbacks : Callbacks) (actor : Actor) (request : Request)
    (front : List Link) (registered : setting.registry.find? name = some e)
    (reaches : request.phase ≠ .create)
    (ordered : front.filterMap Link.builtin? = Builtin.leading request.phase)
    (chain : callbacks.chain request.phase =
      front.map Link.callback ++ Callbacks.closing request.phase) :
    (∀ callbacks' : Callbacks, callbacks'.chain request.phase =
        (front.dropWhile Link.isPushing).map Link.callback ++ Callbacks.closing request.phase →
      w.perform setting callbacks actor name request =
        w.perform setting callbacks' actor name request) ∧
    (∀ reason, (w.perform setting callbacks actor name request).1 = .error reason →
      (w.perform setting callbacks actor name request).2.db = w.db) ∧
    ∀ outcome, (w.perform setting callbacks actor name request).1 = .ok outcome →
      ∃ f s wanted,
        compile setting.registry setting.limits.maxFilterDepth e request.filter = .ok f ∧
        (e.unrestricted = false → ∃ p, (w.privilegesOf setting actor).1 = .ok p) ∧
        Session.runChain setting (front.map Link.callback) ⟨.start request e actor, w⟩ =
          (.ok (), s) ∧
        (∀ t row, wanted t row = true ↔
          (∀ g ∈ f.parts, g.passes w.db e.table t row = true) ∧
          (∀ g ∈ (Operation.start request e actor).guards (w.used? setting e actor),
            g.passes w.db e.table t row = true) ∧
          ∀ g, PushedBehind setting front ⟨.start request e actor, w⟩ g →
            g.passes w.db e.table t row = true) ∧
        w.ActsOn setting request e actor s.operation.payload wanted outcome
          (w.perform setting callbacks actor name request).2.db := by
  refine ⟨fun callbacks' chain' => ?_, fun reason => perform_failed registered,
    fun outcome => exists_actsOn registered reaches ordered chain⟩
  obtain ⟨bs, leading, -⟩ := leading_eq reaches
  rw [leading] at ordered
  obtain ⟨early, late, rfl, pushes, -, dropped⟩ := exists_first_engine ordered
  rw [dropped] at chain'
  exact perform_compiling registered pushes chain chain'

end Narrowing

namespace Notebook

/-- Only sketches. -/
def sketched : Predicate := .compare ⟨"notes", "title"⟩ .eq (.str "Sketch")

/-- The engine's callbacks with one that confines queries of notes to sketches. -/
def sketching (before after : Option String) : Callbacks :=
  ((Callbacks.builtin.register .query ⟨"app:sketches", before, after⟩
    (Step.pushing fun _ _ => [sketched])).toOption).getD Callbacks.builtin

def draft : Row := note "8" "Draft" "1" office.text

/-- The page from the start, with the number of all rows. -/
def everything : Page := ⟨0, none, true⟩

/-- The callbacks of a query before its statement, one that pushes among them. -/
def sketchesFirst : List Link :=
  .pushing "app:sketches" (fun _ _ => [sketched]) :: (Builtin.leading .query).map .engine

def sketchesAfterScope : List Link :=
  [.engine .compileFilter, .engine .injectScope] ++
    .pushing "app:sketches" (fun _ _ => [sketched]) :: [.engine .excludeDeleted]

end Notebook

open Notebook in
/-- A callback asks to run in front of the engine's, and it does. The draft comes back, although it
does not pass what the callback has pushed. -/
theorem early_predicate_lost :
    (sketching (some Builtin.compileFilter.name) none).chain .query =
      sketchesFirst.map Link.callback ++ Callbacks.closing .query ∧
    ((world [] [draft]).perform setting (sketching (some Builtin.compileFilter.name) none) writer
      "note" (.query .null everything)).1 = .ok ⟨[notes.shown draft], some 1, 0⟩ ∧
    sketched.passes (world [] [draft]).db notes.table (tableOf notes [draft]) draft = false := by
  have pushes : ∀ l ∈ [Link.pushing "app:sketches" fun _ _ => [sketched]],
      l.isPushing = true := by
    intro l member
    rw [List.mem_singleton.mp member]
    rfl
  have chain : (sketching (some Builtin.compileFilter.name) none).chain .query =
      ([Link.pushing "app:sketches" fun _ _ => [sketched]] ++ Link.engine .compileFilter ::
        [Link.engine .injectScope, Link.engine .excludeDeleted]).map Link.callback ++
          Callbacks.closing .query := rfl
  have same : (world [] [draft]).perform setting (sketching (some Builtin.compileFilter.name) none)
        writer "note" (.query .null everything) =
      (world [] [draft]).perform setting .builtin writer "note" (.query .null everything) :=
    perform_compiling find?_note pushes chain rfl
  have compiled : compile setting.registry setting.limits.maxFilterDepth notes .null = .ok ∅ := rfl
  have found : inOrderOf notes.primaryKey.column ([draft].filter fun row =>
      Filter.holds setting.registry (world [] [draft]).db notes row .null &&
        writing.mayRead notes row && notes.isLive row) = [draft] := by
    rw [List.filter_cons_of_pos (by decide +kernel), List.filter_nil]
    exact List.mergeSort_singleton draft
  have shows := perform_query (world [] [draft]) everything find?_note notes_storesMark rfl compiled
    (fun _ => privilegesOf_writer _ _) (fits _ _) (table?_notes _ _) found
  refine ⟨rfl, ?_, by decide +kernel⟩
  rw [same, shows, if_pos (by decide +kernel)]
  rfl

open Notebook in
/-- A callback that runs behind the scope keeps the draft away. -/
theorem late_predicate_narrows :
    ((world [] [draft]).perform setting (sketching none (some Builtin.injectScope.name)) writer
      "note" (.query .null everything)).1 = .ok ⟨[], some 0, 0⟩ := by
  obtain ⟨outcome, told⟩ : ∃ outcome, ((world [] [draft]).perform setting
      (sketching none (some Builtin.injectScope.name)) writer "note"
        (.query .null everything)).1 = .ok outcome :=
    exists_of_isOk (by decide +kernel)
  obtain ⟨-, -, succeeds⟩ := narrowing_exact (world [] [draft])
    (sketching none (some Builtin.injectScope.name)) writer (.query .null everything)
    sketchesAfterScope find?_note (by decide) rfl rfl
  obtain ⟨f, s, wanted, -, -, front, which, acts⟩ := succeeds outcome told
  have pushed : PushedBehind setting sketchesAfterScope
      ⟨.start (.query .null everything) notes writer, world [] [draft]⟩ sketched := by
    rw [sketchesAfterScope, List.map_append] at front
    obtain ⟨s₁, before, -⟩ := exists_of_runChain_append front
    exact ⟨_, _, _, _, s₁, rfl, List.mem_cons_self, before, List.mem_singleton.mpr rfl⟩
  have away : wanted (tableOf notes [draft]) draft = false := by
    refine Bool.eq_false_iff.mpr fun stays => ?_
    have passes := ((which _ _).mp stays).2.2 sketched pushed
    revert passes
    decide +kernel
  rw [told]
  generalize ((world [] [draft]).perform setting (sketching none (some Builtin.injectScope.name))
    writer "note" (.query .null everything)).2.db = db at acts
  cases acts with
  | @found t records journal journal' phase stored revealed =>
      obtain rfl := Option.some.inj ((table?_notes [] [draft]).symm.trans stored)
      have none : (tableOf notes [draft]).rows.filter (wanted (tableOf notes [draft])) = [] :=
        List.filter_cons_of_neg (Bool.eq_false_iff.mp away)
      have empty : inOrderOf notes.primaryKey.column [] = [] := List.mergeSort_nil
      rw [none, empty] at revealed
      cases revealed
      rw [List.countP_eq_length_filter, none]
      rfl
  | changed phase => cases phase
  | strayed phase => cases phase
  | marked phase => cases phase
  | removed phase => cases phase

end ScopedAccess
