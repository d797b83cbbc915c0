import ScopedAccess.Proofs.Operation.Query
import ScopedAccess.Proofs.Sql.Agreement
import ScopedAccess.Store.Opening
import Mathlib.Data.String.Basic
/-!
# What a query lets its principal infer

Rows of the queried entity that the principal may not read, and rows that are marked as
deleted, have no influence on a query. Rows of other entities have, if the filter leads to
their tables: a subquery is neither confined to a scope nor free of deleted rows.

So a query has one outcome in two databases that agree on the rows of the entity that its
principal may read, and on the tables that the filter leads to (`Database.AgreeFor`). This
goes for every hook that is run on the rows found, since no step but the statement itself
looks at the database (`Step.Unaware`).

* `query_eq_of_agreeFor`: the outcome of a query in two such databases.
-/

namespace ScopedAccess

set_option autoImplicit false

/-! ## Steps that look at no rows -/

/-- A session in front of another database. -/
def Session.over (s : Session) (db : Database) : Session :=
  { s with world := { s.world with db } }

namespace Step

variable {α β : Type} {setting : Setting} {db : Database}

/-- A step does in a session what it does in front of another database. -/
def Unaware (db : Database) (setting : Setting) (s : Session) (x : Step α) : Prop :=
  x setting (s.over db) = ((x setting s).1, (x setting s).2.over db)

theorem Unaware.bind {s : Session} {x : Step α} {next : α → Step β} (first : Unaware db setting s x)
    (then_ : ∀ a s, Unaware db setting s (next a)) : Unaware db setting s (x >>= next) := by
  unfold Unaware at first ⊢
  rw [run_bind, run_bind, first]
  rcases x setting s with ⟨_ | a, s'⟩
  · rfl
  · exact then_ a s'

theorem unaware_change {s : Session} (f : Operation → Operation) :
    Unaware db setting s (change f) := rfl

theorem unaware_ofHook {s : Session} (hook : Hook α) : Unaware db setting s (ofHook hook) := rfl

theorem unaware_afterFind (s : Session) : Unaware db setting s afterFind := by
  refine Unaware.bind rfl fun o s => Unaware.bind rfl fun used s => ?_
  cases used.lifecycle.afterFind o.entity.name with
  | none => rfl
  | some hook => exact (unaware_ofHook _).bind fun rows s => unaware_change _

theorem unaware_redactSecrets (s : Session) : Unaware db setting s redactSecrets :=
  unaware_change _

theorem unaware_audit (s : Session) : Unaware db setting s audit :=
  Unaware.bind rfl fun _ _ => rfl

/-- A query looks at rows by its statements only, and counts those that it could select. -/
theorem unaware_queryRows {s : Session}
    (selects : Store.select db s.operation.entity s.operation.condition s.operation.page.offset
        (some (setting.limits.pageLimit s.operation.page.limit)) =
      Store.select s.world.db s.operation.entity s.operation.condition s.operation.page.offset
        (some (setting.limits.pageLimit s.operation.page.limit)))
    (counts : ∀ rows, Store.select s.world.db s.operation.entity s.operation.condition
        s.operation.page.offset (some (setting.limits.pageLimit s.operation.page.limit)) =
          .ok rows →
      Store.count db s.operation.entity s.operation.condition =
        Store.count s.world.db s.operation.entity s.operation.condition) :
    Unaware db setting s queryRows := by
  unfold Unaware
  cases selected : Store.select s.world.db s.operation.entity s.operation.condition
      s.operation.page.offset (some (setting.limits.pageLimit s.operation.page.limit)) with
  | error reason =>
      have refused : queryRows setting (s.over db) = _ :=
        queryRows_error (selects.trans selected)
      rw [refused, queryRows_error selected]
  | ok rows =>
      have same := counts rows selected
      have selected' := selects.trans selected
      cases asked : s.operation.page.withTotal with
      | false => simp [queryRows, Session.over, selected, selected', asked]
      | true =>
          cases counted : Store.count s.world.db s.operation.entity s.operation.condition <;>
            simp [queryRows, Session.over, selected, selected', asked, same, counted]

end Step

section Chains

variable {setting : Setting} {db : Database} {name : String} {handler : Handler}
  {rest : List (String × Handler)}

theorem runChain_cons_over {s : Session} (first : Step.Unaware db setting s handler)
    (others : ∀ s, Session.runChain setting rest (s.over db) =
      ((Session.runChain setting rest s).1, (Session.runChain setting rest s).2.over db)) :
    Session.runChain setting ((name, handler) :: rest) (s.over db) =
      ((Session.runChain setting ((name, handler) :: rest) s).1,
        (Session.runChain setting ((name, handler) :: rest) s).2.over db) := by
  rw [Session.runChain, Session.runChain, first]
  cases stopped : s.operation.stopped with
  | true =>
      have same : (s.over db).operation.stopped = true := stopped
      rw [if_pos rfl, if_pos same]
  | false =>
      have same : (s.over db).operation.stopped = false := stopped
      rw [if_neg Bool.false_ne_true, if_neg (by rw [same]; exact Bool.false_ne_true)]
      rcases handler setting s with ⟨_ | _, s'⟩
      · rfl
      · exact others s'

/-- A chain of steps that look at no rows looks at none. -/
theorem runChain_over {chain : List (String × Handler)}
    (unaware : ∀ step ∈ chain, ∀ s, Step.Unaware db setting s step.2) (s : Session) :
    Session.runChain setting chain (s.over db) =
      ((Session.runChain setting chain s).1, (Session.runChain setting chain s).2.over db) := by
  induction chain generalizing s with
  | nil => rfl
  | cons step rest ih =>
      obtain ⟨first, others⟩ := List.forall_mem_cons.mp unaware
      exact runChain_cons_over (first s) (ih others)

end Chains

/-- The callbacks after the statement of a query look at no rows. -/
theorem Callbacks.unaware_showing {setting : Setting} {db : Database} :
    ∀ step ∈ Callbacks.finding.tail, ∀ s, Step.Unaware db setting s step.2 := by
  intro step member s
  simp only [finding, List.tail_cons, List.mem_cons, List.not_mem_nil, or_false] at member
  rcases member with rfl | rfl | rfl
  · exact Step.unaware_afterFind s
  · exact Step.unaware_redactSecrets s
  · exact Step.unaware_audit s

/-! ## The statement of a query -/

theorem answers_of_seesColumn {label column : String} {columns : List Name}
    (sees : Database.seesColumn [(.of label, columns)] ⟨label, column⟩ = true) :
    Database.View.Answers [(.of label, columns)] ⟨label, column⟩ := by
  have answered : Name.isAnsweredBy columns column = true := by
    simpa [Database.seesColumn] using sees
  exact Database.View.answers_cons answered

/-- The predicate of a scope matches no patterns. -/
theorem patterns_scopePredicate {e : Entity} {label : String} (scope : AccessScope) :
    (scopePredicate e scope label).condition.patterns = [] := by
  have paths : ∀ q ∈ scope.alternatives.filterMap (·.predicate? e label),
      q.condition.patterns = [] := by
    intro q member
    obtain ⟨path, -, lowered⟩ := List.mem_filterMap.mp member
    obtain ⟨field, -, rfl⟩ := Option.map_eq_some_iff.mp lowered
    cases path with
    | orgs ids =>
        rw [AccessPath.test]
        split <;> rfl
    | owner id => rfl
  rw [scopePredicate]
  split
  · rfl
  · split
    · rfl
    · rw [Predicate.patterns_disj]
      exact List.flatMap_eq_nil_iff.mpr paths

namespace Operation

variable {o : Operation} {p : Privileges} {p? : Option Privileges} {f : CompiledFilter}
  {db db' : Database}

theorem indifferent_guards : ∀ g ∈ o.guards p?, g.Indifferent db db' := by
  intro g member
  rcases mem_guards member with ⟨scope, rfl⟩ | ⟨field, -, rfl⟩
  · have follows : (scopePredicate o.entity scope o.entity.table).Follows ∅ [] o.entity
        o.entity.table := follows_scopePredicate scope
    exact follows.indifferent fun _ member => nomatch member
  · have tests : (Predicate.null ⟨o.entity.table, field.column⟩ false).Tests
      ⟨o.entity.table, field.column⟩ := rfl
    exact tests.indifferent

/-- The statement of a reached operation looks at the tables that its filter leads to. -/
theorem indifferent_reached {registry : Registry} {maxDepth : Nat} {filter : Json}
    (compiled : compile registry maxDepth o.entity filter = .ok f)
    (agree : db.AgreeOn db' (Filter.tables registry o.entity filter)) :
    (o.reached f p?).filter.predicate.Indifferent db db' := by
  obtain ⟨fragments, groups⟩ := CompiledFilter.follows_mk.mp (compile_follows compiled)
  refine Predicate.indifferent_conj (List.forall_mem_append.mpr ⟨?_, ?_⟩)
  · refine List.forall_mem_append.mpr ⟨?_, indifferent_guards⟩
    exact fun q member => (fragments q member).indifferent agree
  · exact fun q member => (groups q member).indifferent agree

/-- The columns of the guards are those of the table, if the database accepts the guards. -/
theorem resolves_guards {columns : List Name} (answered : o.entity.AnsweredBy columns)
    (accepted : ∀ g ∈ o.guards p?,
      db.accepts [(.of o.entity.table, columns)] g.condition = true) :
    ∀ g ∈ o.guards p?, g.Resolves db [(.of o.entity.table, columns)] := by
  intro g member
  have sees := accepted g member
  rcases mem_guards member with ⟨scope, rfl⟩ | ⟨field, -, rfl⟩
  · have follows : (scopePredicate o.entity scope o.entity.table).Follows ∅ [] o.entity
        o.entity.table := follows_scopePredicate scope
    exact follows.resolves_local rfl answered []
  · rw [Predicate.Resolves]
    refine answers_of_seesColumn ?_
    simpa [Predicate.condition, Database.accepts] using sees

/-- A statement that is accepted acts on rows that the principal may reach only. -/
theorem reaches_of_passes (o : Operation) {t : Table} {row : Row} (answered : o.entity.AnsweredBy t.columns)
    (accepted : db.accepts [(.of o.entity.table, t.columns)]
      (o.reached f (p.usedFor o.entity)).condition = true)
    (passes : db.passes o.entity.table t (o.reached f (p.usedFor o.entity)).condition row = true) :
    (p.mayReach o.phase o.entity row && o.entity.isLive row) = true := by
  have within : ∀ g ∈ o.guards (p.usedFor o.entity),
      g ∈ (o.reached f (p.usedFor o.entity)).filter.parts := fun g member =>
    List.mem_append_left _ (List.mem_append_right _ member)
  rw [condition, CompiledFilter.predicate, Predicate.accepts_conj, List.all_eq_true] at accepted
  rw [condition, CompiledFilter.predicate, Predicate.passes_condition, Predicate.passes,
    Predicate.isYes_evaluate_conj, List.all_eq_true] at passes
  rw [← guards_all, List.all_eq_true]
  intro g member
  have resolves : g.Resolves db (tablesOf [⟨.of o.entity.table, t.columns, row⟩]) :=
    resolves_guards answered (fun g member => accepted g (within g member)) g member
  have yes := passes g (within g member)
  rw [Predicate.evaluate_eq_truth resolves] at yes
  exact yes

/-- The guards match no patterns. -/
theorem patterns_reached : (o.reached f p?).condition.patterns = f.predicate.condition.patterns := by
  have none : (o.guards p?).flatMap (fun g => g.condition.patterns) = [] := by
    refine List.flatMap_eq_nil_iff.mpr fun g member => ?_
    rcases mem_guards member with ⟨scope, rfl⟩ | ⟨field, -, rfl⟩
    · exact patterns_scopePredicate scope
    · rfl
  rw [condition, CompiledFilter.predicate, CompiledFilter.predicate, Predicate.patterns_conj,
    Predicate.patterns_conj, reached, CompiledFilter.parts, CompiledFilter.parts,
    List.flatMap_append, List.flatMap_append, List.flatMap_append, none, List.append_nil]

end Operation

/-! ## Two databases -/

/-- Whether an actor may read a row of an entity that is not marked as deleted. -/
def World.mayRead (w : World) (setting : Setting) (actor : Actor) (e : Entity) (row : Row) : Bool :=
  e.isLive row && (e.unrestricted ||
    match (w.privilegesOf setting actor).1 with
    | .ok p => p.mayRead e row
    | .error _ => false)

/-- Two databases agree on the readable rows of an entity, and on the tables that a filter
leads to. -/
structure Database.AgreeFor (db db' : Database) (registry : Registry) (e : Entity) (filter : Json)
    (readable : Row → Bool) : Prop where
  limits : db.limits = db'.limits
  tables : db.AgreeOn db' (Filter.tables registry e filter)
  columns : (db.table? e.table).map Table.columns = (db'.table? e.table).map Table.columns
  rows : (db.rows e.table).filter readable = (db'.rows e.table).filter readable

/-- The patterns of a filter are within the limits of a database. -/
def Database.TakesPatterns (db : Database) (f : CompiledFilter) : Prop :=
  ∀ l, db.limits = some l → ∀ pattern ∈ f.predicate.condition.patterns,
    pattern.utf8ByteSize ≤ l.pattern

section Agreement

variable {db db' : Database} {e : Entity} {t t' : Table}

theorem passes_congr {p : Predicate} {name : Name} (same : p.Indifferent db db')
    (columns : t.columns = t'.columns) (row : Row) :
    db.passes name t p.condition row = db'.passes name t' p.condition row := by
  rw [Predicate.passes_condition, Predicate.passes_condition, Predicate.passes, Predicate.passes,
    columns, same.evaluate]

theorem reads_congr {cond : Condition} {others : Nat} (limits : db.limits = db'.limits)
    (modest : t.rows.isEmpty = t'.rows.isEmpty ∨ ∀ l, db.limits = some l →
      ∀ pattern ∈ cond.patterns, pattern.utf8ByteSize ≤ l.pattern) :
    db.reads t cond others = db'.reads t' cond others := by
  unfold Database.reads
  rw [← limits]
  cases bounds : db.limits with
  | none => rfl
  | some l =>
      simp only [Option.all_some]
      rcases modest with same | small
      · rw [same]
      · have all : (cond.patterns.all fun pattern => pattern.utf8ByteSize ≤ l.pattern) = true := by
          apply List.all_eq_true.mpr
          intro pattern member
          exact decide_eq_true (small l bounds pattern member)
        rw [all, Bool.or_true, Bool.or_true]

theorem takes_congr {cond : Condition} {offset : Nat} (limits : db.limits = db'.limits)
    (columns : t.columns = t'.columns)
    (accepts : ∀ view, db.accepts view cond = db'.accepts view cond)
    (reads : ∀ others, db.reads t cond others = db'.reads t' cond others) :
    Store.takes db e t cond offset = Store.takes db' e t' cond offset := by
  have answers : ∀ names, t.answers names = t'.answers names := by
    intro names
    rw [Table.answers, Table.answers, columns]
  rw [Store.takes, Store.takes, Database.admits, Database.admits, limits, columns, accepts, reads,
    answers]

theorem accepts_of_takes {cond : Condition} {offset : Nat}
    (taken : Store.takes db e t cond offset = true) :
    db.accepts [(.of e.table, t.columns)] cond = true := by
  obtain ⟨-, admitted, -, -⟩ := Store.takes_iff.mp taken
  exact (Store.admits_iff.mp admitted).1

/-- A statement that is taken has no pattern that is too long, if there are rows. -/
theorem patterns_of_takes {cond : Condition} {offset : Nat} {l : Limits}
    (taken : Store.takes db e t cond offset = true) (limits : db.limits = some l)
    (some_ : t.rows.isEmpty = false) :
    ∀ pattern ∈ cond.patterns, pattern.utf8ByteSize ≤ l.pattern := by
  obtain ⟨-, admitted, -, -⟩ := Store.takes_iff.mp taken
  have within := (Store.admits_iff.mp admitted).2
  unfold Database.reads at within
  rw [limits, Option.all_some, some_, Bool.false_or, Bool.and_eq_true] at within
  intro pattern member
  have small := List.all_eq_true.mp within.2 pattern member
  exact of_decide_eq_true small

/-- A statement that is taken names all columns of its entity. -/
theorem answeredBy_of_takes {cond : Condition} {offset : Nat}
    (taken : Store.takes db e t cond offset = true) : e.AnsweredBy t.columns := by
  obtain ⟨-, -, there, -⟩ := Store.takes_iff.mp taken
  have answers := (Bool.and_eq_true_iff.mp there).2
  rintro column ⟨field, member, stored, rfl⟩
  have listed : Name.of field.column ∈ Store.columns e :=
    List.mem_map_of_mem (List.mem_filter.mpr ⟨member, stored⟩)
  exact List.all_eq_true.mp answers _ (List.mem_cons_of_mem _ listed)

/-- Rows that pass only if they are readable are the same where the readable rows are. -/
theorem filter_congr_of_readable {rows rows' : List Row} {readable passes passes' : Row → Bool}
    (agree : rows.filter readable = rows'.filter readable) (same : ∀ row, passes row = passes' row)
    (covered : ∀ row, passes row = true → readable row = true) :
    rows.filter passes = rows'.filter passes' := by
  have both : (fun row => passes row && readable row) = passes := by
    funext row
    cases passed : passes row with
    | false => rfl
    | true => rw [covered row passed, Bool.true_and]
  have one : passes' = passes := funext fun row => (same row).symm
  calc rows.filter passes
      = (rows.filter readable).filter passes := by rw [List.filter_filter, both]
    _ = (rows'.filter readable).filter passes := by rw [agree]
    _ = rows'.filter passes' := by rw [List.filter_filter, both, one]

/-- Two databases give one answer to a statement if both take it or neither does, and, if they
take it, the rows that pass are the same. -/
theorem Store.answers_congr {cond : Condition} {offset limit : Nat}
    (columns : (db.table? e.table).map Table.columns = (db'.table? e.table).map Table.columns)
    (taking : ∀ t t', db.table? e.table = some t → db'.table? e.table = some t' →
      t.columns = t'.columns → takes db e t cond offset = takes db' e t' cond offset)
    (passing : ∀ t t', db.table? e.table = some t → db'.table? e.table = some t' →
      t.columns = t'.columns → takes db e t cond offset = true →
        t.rows.filter (db.passes e.table t cond) = t'.rows.filter (db'.passes e.table t' cond)) :
    select db' e cond offset (some limit) = select db e cond offset (some limit) ∧
      ∀ rows, select db e cond offset (some limit) = .ok rows →
        count db' e cond = count db e cond := by
  cases found : db.table? e.table with
  | none =>
      rw [found] at columns
      have missing : db'.table? e.table = none := Option.map_eq_none_iff.mp columns.symm
      rw [select_of_no_table found, select_of_no_table missing]
      exact ⟨rfl, fun rows selected => nomatch selected⟩
  | some t =>
      rw [found] at columns
      obtain ⟨t', found', same⟩ := Option.map_eq_some_iff.mp columns.symm
      have both := taking t t' found found' same.symm
      rw [select_eq found, select_eq found', ← both]
      cases taken : takes db e t cond offset with
      | false => exact ⟨rfl, fun rows selected => nomatch selected⟩
      | true =>
          have rows := passing t t' found found' same.symm taken
          have number := congrArg List.length rows
          rw [← List.countP_eq_length_filter, ← List.countP_eq_length_filter] at number
          refine ⟨by rw [rows], fun _ _ => ?_⟩
          rw [count_of_takes found taken, count_of_takes found' (both.symm.trans taken), number]

end Agreement

section Outcome

variable {w : World} {db' : Database} {setting : Setting} {actor : Actor} {name : String}
  {e : Entity} {filter : Json} {page : Page} {f : CompiledFilter} {p : Privileges}

/-- Databases that agree give one answer to the statements of a query. -/
theorem statements_agree {db : Database} {readable : Row → Bool} (actor : Actor) (page : Page)
    (compiled : compile setting.registry setting.limits.maxFilterDepth e filter = .ok f)
    (agree : db.AgreeFor db' setting.registry e filter readable)
    (reads : ∀ row, (p.mayRead e row && e.isLive row) = true → readable row = true)
    (modest : (db.rows e.table).isEmpty = (db'.rows e.table).isEmpty ∨ db.TakesPatterns f)
    (offset limit : Nat) {o : Operation} (querying : Operation.querying e actor filter page f p = o) :
    Store.select db' e o.condition offset (some limit) =
        Store.select db e o.condition offset (some limit) ∧
      ∀ rows, Store.select db e o.condition offset (some limit) = .ok rows →
        Store.count db' e o.condition = Store.count db e o.condition := by
  subst querying
  have same : (Operation.querying e actor filter page f p).filter.predicate.Indifferent db db' :=
    Operation.indifferent_reached compiled agree.tables
  have rows : ∀ db : Database, ∀ t, db.table? e.table = some t → db.rows e.table = t.rows := by
    intro db t found
    rw [Database.rows, found]
    rfl
  apply Store.answers_congr agree.columns
  · intro t t' found found' columns
    apply takes_congr agree.limits columns same.accepts
    intro others
    apply reads_congr agree.limits
    have patterns : (Operation.querying e actor filter page f p).condition.patterns =
        f.predicate.condition.patterns := Operation.patterns_reached
    rw [Operation.condition] at patterns
    rw [patterns, ← rows db t found, ← rows db' t' found']
    exact modest
  · intro t t' found found' columns taken
    have agreeing := agree.rows
    rw [rows db t found, rows db' t' found'] at agreeing
    apply filter_congr_of_readable agreeing
    · intro row
      exact passes_congr same columns row
    · intro row passed
      apply reads row
      exact Operation.reaches_of_passes (.start (.query filter page) e actor)
        (answeredBy_of_takes taken) (accepts_of_takes taken) passed

theorem mayRead_of_resolved (resolved : e.unrestricted = false →
    (w.privilegesOf setting actor).1 = .ok p) (row : Row)
    (reads : (p.mayRead e row && e.isLive row) = true) : w.mayRead setting actor e row = true := by
  rw [Bool.and_eq_true] at reads
  obtain ⟨readable, live⟩ := reads
  rw [World.mayRead, live, Bool.true_and]
  cases unrestricted : e.unrestricted with
  | true => rfl
  | false =>
      rw [resolved unrestricted]
      exact readable

theorem asked_over : { w with db := db' }.asked setting e actor =
    { w.asked setting e actor with db := db' } := by
  unfold World.asked
  split <;> rfl

/-- The callbacks of a query do in a database that agrees what they do in the other. -/
theorem runChain_query_over
    (agree : w.db.AgreeFor db' setting.registry e filter (w.mayRead setting actor e))
    (modest : (w.db.rows e.table).isEmpty = (db'.rows e.table).isEmpty ∨
      ∀ f, compile setting.registry setting.limits.maxFilterDepth e filter = .ok f →
        w.db.TakesPatterns f) {s : Session}
    (starting : ⟨.start (.query filter page) e actor, w⟩ = s) :
    Session.runChain setting (Callbacks.builtin.chain .query) (s.over db') =
      ((Session.runChain setting (Callbacks.builtin.chain .query) s).1,
        (Session.runChain setting (Callbacks.builtin.chain .query) s).2.over db') := by
  rw [chain_query, ← starting]
  show Session.runChain setting (Callbacks.reaching ++ Callbacks.finding)
    ⟨.start (.query filter page) e actor, { w with db := db' }⟩ = _
  cases compiled : compile setting.registry setting.limits.maxFilterDepth e filter with
  | error reason =>
      rw [runChain_uncompiled compiled, runChain_uncompiled compiled]
      rfl
  | ok f =>
      rcases privilegesOf_cases w setting e actor with ⟨restricted, reason, refused⟩ | ⟨p, resolved⟩
      · have refused' : ({ w with db := db' }.privilegesOf setting actor).1 = .error reason :=
          refused
        rw [runChain_unresolved compiled restricted refused,
          runChain_unresolved compiled restricted refused', asked_over]
        rfl
      · have resolved' : e.unrestricted = false →
            ({ w with db := db' }.privilegesOf setting actor).1 = .ok p := resolved
        rw [runChain_reaching compiled resolved, runChain_reaching compiled resolved', asked_over]
        have agree' : (w.asked setting e actor).db.AgreeFor db' setting.registry e filter
            (w.mayRead setting actor e) := by rwa [asked_db]
        have modest' : ((w.asked setting e actor).db.rows e.table).isEmpty =
              (db'.rows e.table).isEmpty ∨
            (w.asked setting e actor).db.TakesPatterns f := by
          rw [asked_db]
          exact modest.imp_right fun small => small f compiled
        obtain ⟨selects, counts⟩ := statements_agree actor page compiled agree'
          (mayRead_of_resolved resolved) modest' page.offset
          (setting.limits.pageLimit page.limit) rfl
        have finds : Step.Unaware db' setting
            ⟨.querying e actor filter page f p, w.asked setting e actor⟩ Step.queryRows :=
          Step.unaware_queryRows selects counts
        exact runChain_cons_over finds (runChain_over Callbacks.unaware_showing)

/-- A query has one outcome in databases that agree on the rows of its entity that its actor may
read and on the tables that its filter leads to. Patterns that are too long are an exception,
since a database refuses them only where there are rows to match. -/
theorem query_eq_of_agreeFor (w : World) (db' : Database) (page : Page)
    (registered : setting.registry.find? name = some e)
    (agree : w.db.AgreeFor db' setting.registry e filter (w.mayRead setting actor e))
    (modest : (w.db.rows e.table).isEmpty = (db'.rows e.table).isEmpty ∨
      ∀ f, compile setting.registry setting.limits.maxFilterDepth e filter = .ok f →
        w.db.TakesPatterns f) :
    ({ w with db := db' }.perform setting .builtin actor name (.query filter page)).1 =
      (w.perform setting .builtin actor name (.query filter page)).1 := by
  have run : Session.runChain setting (Callbacks.builtin.chain .query)
      (Session.over ⟨.start (.query filter page) e actor, w⟩ db') = _ :=
    runChain_query_over agree modest rfl
  rw [perform_fst registered, perform_fst registered]
  exact (congrArg Session.told run).trans rfl

end Outcome

namespace Notebook

/-- A world with the limits that a database has when it is opened. -/
def opened (inFolders inNotes : List Row) : World :=
  { world inFolders inNotes with
    db := { database inFolders inNotes with limits := some Opening.limits } }

theorem opened_table?_folders (inFolders inNotes : List Row) :
    (opened inFolders inNotes).db.table? folders.table = some (tableOf folders inFolders) :=
  table?_folders inFolders inNotes

theorem opened_table?_notes (inFolders inNotes : List Row) :
    (opened inFolders inNotes).db.table? notes.table = some (tableOf notes inNotes) :=
  table?_notes inFolders inNotes

theorem opened_privilegesOf (inFolders inNotes : List Row) :
    ((opened inFolders inNotes).privilegesOf setting writer).1 = .ok writing :=
  privilegesOf_writer inFolders inNotes

theorem opened_mayRead (inFolders inNotes : List Row) (row : Row) :
    (opened inFolders inNotes).mayRead setting writer notes row =
      (notes.isLive row && writing.mayRead notes row) := by
  rw [World.mayRead, opened_privilegesOf]
  rfl

end Notebook

open Notebook in
/-- A note of another organization does not show, though its folder can be asked for. -/
theorem hidden_note_does_not_show :
    ((opened [folder "1" "Plans" elsewhere.text]
        [note "7" "Sketch" "1" office.text]).perform setting .builtin writer "note"
          (.query inPlans ⟨0, none, true⟩)).1 =
      ((opened [folder "1" "Plans" elsewhere.text] [note "7" "Sketch" "1" office.text,
        note "8" "Draft" "1" elsewhere.text]).perform setting .builtin writer "note"
          (.query inPlans ⟨0, none, true⟩)).1 := by
  have before := opened_table?_notes [folder "1" "Plans" elsewhere.text]
    [note "7" "Sketch" "1" office.text, note "8" "Draft" "1" elsewhere.text]
  have after := opened_table?_notes [folder "1" "Plans" elsewhere.text]
    [note "7" "Sketch" "1" office.text]
  refine query_eq_of_agreeFor (opened [folder "1" "Plans" elsewhere.text]
      [note "7" "Sketch" "1" office.text, note "8" "Draft" "1" elsewhere.text])
    (opened [folder "1" "Plans" elsewhere.text] [note "7" "Sketch" "1" office.text]).db
    ⟨0, none, true⟩ find?_note ⟨rfl, ?_, ?_, ?_⟩ (.inl ?_)
  · have one : Filter.tables setting.registry notes inPlans = [folders.table] := by decide +kernel
    intro table member
    rw [one] at member
    rw [List.mem_singleton.mp member, opened_table?_folders, opened_table?_folders]
  · rw [before, after]
    rfl
  · rw [Database.rows, Database.rows, before, after]
    rw [funext (opened_mayRead _ _)]
    show List.filter _ [note "7" "Sketch" "1" office.text, note "8" "Draft" "1" elsewhere.text] =
      List.filter _ [note "7" "Sketch" "1" office.text]
    rw [List.filter_cons_of_pos (by decide +kernel), List.filter_cons_of_neg (by decide +kernel),
      List.filter_cons_of_pos (by decide +kernel)]
  · rw [Database.rows, Database.rows, before, after]
    rfl

/-! ## Rows that show -/

/-- Two databases agree on the join tables of a registry, and on the rows of every entity that
are readable. -/
structure Database.LooksLike (db db' : Database) (registry : Registry)
    (readable : Entity → Row → Bool) : Prop where
  joins : ∀ name e join, registry.find? name = some e → e.Joins join →
    db.table? join.table = db'.table? join.table
  rows : ∀ name e, registry.find? name = some e →
    (db.rows e.table).filter (readable e) = (db'.rows e.table).filter (readable e)

namespace Notebook

/-- Asks for the notes with a text in their titles. -/
def titled (s : String) : Json := .obj [("title", .obj [("$regex", .str s)])]

/-- A text that is too long to be searched for. -/
def tooLong : String := String.ofList (List.replicate 50001 'a')

theorem opened_fits (inFolders inNotes : List Row) :
    (opened inFolders inNotes).db.Fits registry := by
  intro name e found
  have own := fits inFolders inNotes name e found
  exact ⟨own.answered, own.joined⟩

/-- Databases in which the writer may read the same folders and notes look alike. -/
theorem looksLike {inFolders inFolders' inNotes inNotes' : List Row}
    (sameFolders : inFolders.filter (fun row => writing.mayRead folders row && folders.isLive row) =
      inFolders'.filter fun row => writing.mayRead folders row && folders.isLive row)
    (sameNotes : inNotes.filter (fun row => writing.mayRead notes row && notes.isLive row) =
      inNotes'.filter fun row => writing.mayRead notes row && notes.isLive row) :
    (opened inFolders inNotes).db.LooksLike (opened inFolders' inNotes').db setting.registry
      fun e row => writing.mayRead e row && e.isLive row := by
  refine ⟨fun name e join found joins => ?_, fun name e found => ?_⟩
  · exact absurd joins (unjoined (entity_of_find? found) join)
  · rcases entity_of_find? found with rfl | rfl
    · rw [Database.rows, Database.rows, opened_table?_folders, opened_table?_folders]
      exact sameFolders
    · rw [Database.rows, Database.rows, opened_table?_notes, opened_table?_notes]
      exact sameNotes

/-- How many notes the writer finds with a filter. -/
theorem total_of_notes {filter : Json} {f : CompiledFilter}
    (compiled : compile registry defaultMaxDepth notes filter = .ok f)
    (inFolders inNotes : List Row) :
    ((opened inFolders inNotes).perform setting .builtin writer "note"
        (.query filter ⟨0, none, true⟩)).1.map Outcome.total =
      if Store.takes (opened inFolders inNotes).db notes (tableOf notes inNotes)
          (Operation.querying notes writer filter ⟨0, none, true⟩ f writing).condition 0 then
        .ok (some (inNotes.countP fun row =>
          Filter.holds registry (opened inFolders inNotes).db notes row filter &&
            writing.mayRead notes row && notes.isLive row))
      else .error (.store .engine) := by
  rw [perform_query (opened inFolders inNotes) ⟨0, none, true⟩ find?_note notes_storesMark rfl
    compiled (fun _ => opened_privilegesOf _ _) (opened_fits _ _) (opened_table?_notes _ _) rfl,
    List.countP_eq_length_filter]
  split
  · exact congrArg (fun n => Except.ok (some n)) (inOrderOf_perm _ _).length_eq
  · rfl

theorem inPlans_compiled : compile registry defaultMaxDepth notes inPlans =
    .ok ⟨[.subquery ⟨"notes", "folder_id"⟩ ⟨"folders", "folders_1", "id"⟩
      (.compare ⟨"folders_1", "label"⟩ .eq (.str "Plans"))], []⟩ := rfl

theorem titled_compiled (s : String) : compile registry defaultMaxDepth notes (titled s) =
    .ok ⟨[.like ⟨"notes", "title"⟩ (Pattern.like s)], []⟩ := rfl

/-- The pattern for a text of one letter is the text between two signs. -/
theorem utf8ByteSize_like_replicate (n : Nat) :
    (Pattern.like (String.ofList (List.replicate (n + 1) 'a'))).utf8ByteSize = n + 3 := by
  have last : (List.replicate (n + 1) 'a').getLast? ≠ some '$' := by
    simp [List.getLast?_replicate]
  have plain : (List.replicate (n + 1) 'a').flatMap Pattern.escape =
      List.replicate (n + 1) 'a' := by
    rw [List.flatMap_replicate]
    simp [Pattern.escape, Pattern.isSpecial]
  have chars : (Pattern.ofChars (List.replicate (n + 1) 'a')).likeChars =
      '%' :: (List.replicate (n + 1) 'a' ++ ['%']) := by
    show (Pattern.ofRest false (List.replicate (n + 1) 'a')).likeChars = _
    rw [Pattern.ofRest, if_neg last, Pattern.likeChars, plain]
    rfl
  have bytes : ∀ n, String.utf8Len (List.replicate n 'a' ++ ['%']) = n + 1 := by
    intro n
    induction n with
    | zero => rfl
    | succ n ih =>
        rw [List.replicate_succ, List.cons_append, String.utf8Len_cons, ih]
        rfl
  rw [Pattern.like, String.toList_ofList, chars, String.utf8ByteSize_ofList, String.utf8Len_cons,
    bytes]
  rfl

theorem not_takes_titled : ¬ Store.takes (opened [] [note "8" "Draft" "1" elsewhere.text]).db notes
    (tableOf notes [note "8" "Draft" "1" elsewhere.text])
    (Operation.querying notes writer (titled tooLong) ⟨0, none, true⟩
      ⟨[.like ⟨"notes", "title"⟩ (Pattern.like tooLong)], []⟩ writing).condition 0 = true := by
  intro taken
  have small := patterns_of_takes taken rfl rfl
  have patterns : (Operation.querying notes writer (titled tooLong) ⟨0, none, true⟩
      ⟨[.like ⟨"notes", "title"⟩ (Pattern.like tooLong)], []⟩ writing).condition.patterns =
        [Pattern.like tooLong] := Operation.patterns_reached
  rw [patterns] at small
  have size : (Pattern.like tooLong).utf8ByteSize = 50000 + 3 := utf8ByteSize_like_replicate 50000
  have fits := small _ (.head _)
  rw [size] at fits
  exact absurd fits (by decide)

end Notebook

open Notebook in
/-- Unreadable rows show. The writer may read none of the folders, and of the notes at most
those of the office, but a query tells apart whether a folder that its filter asks for is
there. With a text that is too long it tells apart whether there are any notes. -/
theorem hidden_rows_show :
    (∀ inFolders inNotes,
      ((opened inFolders inNotes).privilegesOf setting writer).1 = .ok writing) ∧
    writing.bypass = false ∧
    ((opened [folder "1" "Plans" elsewhere.text]
        [note "7" "Sketch" "1" office.text]).db.LooksLike
      (opened [] [note "7" "Sketch" "1" office.text]).db setting.registry
        (fun e row => writing.mayRead e row && e.isLive row) ∧
      ((opened [folder "1" "Plans" elsewhere.text]
          [note "7" "Sketch" "1" office.text]).perform setting .builtin writer "note"
            (.query inPlans ⟨0, none, true⟩)).1 ≠
        ((opened [] [note "7" "Sketch" "1" office.text]).perform setting .builtin writer "note"
          (.query inPlans ⟨0, none, true⟩)).1) ∧
    ((opened [] [note "8" "Draft" "1" elsewhere.text]).db.LooksLike
      (opened [] []).db setting.registry (fun e row => writing.mayRead e row && e.isLive row) ∧
      ((opened [] [note "8" "Draft" "1" elsewhere.text]).perform setting .builtin writer "note"
          (.query (titled tooLong) ⟨0, none, true⟩)).1 ≠
        ((opened [] []).perform setting .builtin writer "note"
          (.query (titled tooLong) ⟨0, none, true⟩)).1) := by
  refine ⟨opened_privilegesOf, rfl, ⟨?_, fun same => ?_⟩, ?_, fun same => ?_⟩
  · apply looksLike
    · exact List.filter_cons_of_neg (by decide +kernel)
    · rfl
  · have totals := congrArg (Except.map Outcome.total) same
    rw [total_of_notes inPlans_compiled, total_of_notes inPlans_compiled,
      if_pos (by decide +kernel), if_pos (by decide +kernel)] at totals
    revert totals
    simp only [Except.ok.injEq, Option.some.injEq]
    decide +kernel
  · apply looksLike
    · rfl
    · exact List.filter_cons_of_neg (by decide +kernel)
  · have totals := congrArg (Except.map Outcome.total) same
    rw [total_of_notes (titled_compiled tooLong), total_of_notes (titled_compiled tooLong),
      if_neg not_takes_titled, if_pos (by decide +kernel)] at totals
    cases totals

end ScopedAccess
