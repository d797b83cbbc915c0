import ScopedAccess.Proofs.Operation.Acting
import ScopedAccess.Proofs.Sql.Insertion
/-!
# What operations keep of the rows

Callbacks change rows by statements of the store only, so that whatever statements keep of a
database (`Store.Maintains`), every step of the engine keeps (`Builtin.keeps`), and with it a whole
operation, whether it comes to its end or fails.

The key of a table is of this kind: a statement that would break it is refused.

* `perform_keeps`: operations keep what statements keep;
* `maintains_key`: statements keep the key of a table.
-/

namespace ScopedAccess

set_option autoImplicit false

/-- Statements on rows keep something of a database. -/
structure Store.Maintains (P : Database → Prop) : Prop where
  insert : ∀ {db db' e record n}, P db → Store.insert db e record = .ok (n, db') → P db'
  update : ∀ {db db' e changes cond n}, P db →
    Store.update db e changes cond = .ok (n, db') → P db'
  delete : ∀ {db db' e cond n}, P db → Store.delete db e cond = .ok (n, db') → P db'

/-! ## Steps -/

namespace Step

variable {α β : Type} {P : Database → Prop}

/-- A step keeps something of the database, in whatever it ends. -/
def Keeps (P : Database → Prop) (x : Step α) : Prop :=
  ∀ setting s, P s.world.db → P (x setting s).2.world.db

theorem Keeps.bind {x : Step α} {next : α → Step β} (first : Keeps P x)
    (then_ : ∀ a, Keeps P (next a)) : Keeps P (x >>= next) := by
  intro setting s kept
  have kept₁ := first setting s kept
  rw [run_bind]
  rcases ran : x setting s with ⟨_ | a, s'⟩
  · rw [ran] at kept₁
    exact kept₁
  · rw [ran] at kept₁
    exact then_ a setting s' kept₁

theorem keeps_map {f : α → β} {x : Step α} (keeps : Keeps P x) : Keeps P (f <$> x) :=
  keeps.bind fun _ _ _ kept => kept

theorem keeps_pure (a : α) : Keeps P (pure a) := fun _ _ kept => kept

theorem keeps_read : Keeps P read := fun _ _ kept => kept

theorem keeps_get : Keeps P get := fun _ _ kept => kept

theorem keeps_operation : Keeps P operation := fun _ _ kept => kept

theorem keeps_database : Keeps P database := fun _ _ kept => kept

theorem keeps_change (f : Operation → Operation) : Keeps P (change f) := fun _ _ kept => kept

theorem keeps_fail (e : OperationError) : Keeps P (fail e : Step α) := fun _ _ kept => kept

theorem keeps_ofHook (hook : Hook α) : Keeps P (ofHook hook) := fun _ _ kept => kept

theorem keeps_ofStore (answer : Except StoreError α) : Keeps P (ofStore answer) := by
  cases answer with
  | ok a => exact keeps_pure a
  | error e => exact keeps_fail _

/-- To change the world but for its rows keeps them. -/
theorem keeps_changeWorld {f : World → World} (same : ∀ w, (f w).db = w.db) :
    Keeps P (changeWorld f) := fun _ s kept => (same s.world).symm ▸ kept

theorem keeps_privileges : Keeps P privileges := by
  refine keeps_get.bind fun s => ?_
  cases s.operation.privileges with
  | some p => exact keeps_pure p
  | none =>
      refine keeps_read.bind fun setting => ?_
      rcases s.world.resolver.resolve setting.resolver setting.now.seconds s.operation.actor with
        ⟨answer, resolver⟩
      refine Keeps.bind (keeps_changeWorld fun _ => rfl) fun _ => ?_
      cases answer with
      | ok p => exact (keeps_change _).bind fun _ => keeps_pure p
      | error reason => exact keeps_fail _

theorem keeps_changePayload
    (hook : Lifecycle → String → Option (Actor → Record → Hook Record)) :
    Keeps P (changePayload hook) := by
  refine keeps_operation.bind fun o => keeps_read.bind fun setting => ?_
  cases hook setting.lifecycle o.entity.name with
  | none => exact keeps_pure ()
  | some h => exact (keeps_ofHook _).bind fun _ => keeps_change _

/-- A statement that keeps something is a step that keeps it. -/
theorem keeps_write {statement : Database → Except StoreError (Nat × Database)}
    (keeps : ∀ db n db', P db → statement db = .ok (n, db') → P db') :
    Keeps P (write statement) := by
  intro setting s kept
  rw [run_write]
  cases answer : statement s.world.db with
  | error reason => exact kept
  | ok written => exact keeps s.world.db written.1 written.2 kept answer

theorem keeps_queryRows : Keeps P queryRows := by
  refine keeps_operation.bind fun o => keeps_database.bind fun db =>
    keeps_read.bind fun setting => (keeps_ofStore _).bind fun rows => ?_
  cases o.page.withTotal with
  | false => exact (keeps_pure none).bind fun total => keeps_change _
  | true => exact (keeps_map (keeps_ofStore _)).bind fun total => keeps_change _

variable (maintains : Store.Maintains P)
include maintains

theorem keeps_createRow : Keeps P createRow :=
  keeps_operation.bind fun _ => keeps_write fun _ _ _ => maintains.insert

theorem keeps_updateRows : Keeps P updateRows := by
  refine keeps_operation.bind fun o => ?_
  split
  · exact keeps_write fun _ _ _ => maintains.update
  · exact keeps_change _

theorem keeps_deleteRows : Keeps P deleteRows := by
  refine keeps_operation.bind fun o => ?_
  cases o.entity.tagged? .softDelete with
  | some f =>
      exact keeps_read.bind fun setting => (keeps_change _).bind fun _ =>
        keeps_operation.bind fun _ => keeps_write fun _ _ _ => maintains.update
  | none => exact keeps_operation.bind fun _ => keeps_write fun _ _ _ => maintains.delete

end Step

section Operations

variable {P : Database → Prop} {w : World} {setting : Setting} {actor : Actor} {name : String}
  {request : Request}

/-- The engine's callbacks keep what statements keep. -/
theorem Builtin.keeps (maintains : Store.Maintains P) (b : Builtin) : Step.Keeps P b.handler := by
  open Step in
  cases b with
  | compileFilter =>
      refine keeps_read.bind fun setting => keeps_operation.bind fun o => ?_
      split
      · exact keeps_change _
      · exact keeps_fail _
  | injectScope =>
      refine keeps_operation.bind fun o => ?_
      split
      · exact keeps_pure ()
      · refine keeps_privileges.bind fun p => ?_
        split
        · exact keeps_pure ()
        · exact keeps_change _
  | checkWriteScope =>
      refine keeps_operation.bind fun o => ?_
      split
      · exact keeps_pure ()
      · refine keeps_privileges.bind fun p => keeps_operation.bind fun o => ?_
        split
        · exact keeps_pure ()
        · exact keeps_change _
  | excludeDeleted | redactSecrets | stampOwner | stampModifier => exact keeps_change _
  | beforeCreate | beforeUpdate => exact keeps_changePayload _
  | afterCreate =>
      refine keeps_operation.bind fun o => keeps_read.bind fun setting => ?_
      cases setting.lifecycle.afterCreate o.entity.name with
      | none => exact keeps_pure ()
      | some hook =>
          simp only
          split
          · exact keeps_ofHook _
          · exact keeps_pure ()
  | beforeDelete =>
      refine keeps_operation.bind fun o => keeps_read.bind fun setting => ?_
      cases setting.lifecycle.beforeDelete o.entity.name with
      | none => exact keeps_pure ()
      | some hook => exact keeps_ofHook _
  | afterFind =>
      refine keeps_operation.bind fun o => keeps_read.bind fun setting => ?_
      cases setting.lifecycle.afterFind o.entity.name with
      | none => exact keeps_pure ()
      | some hook => exact (keeps_ofHook _).bind fun _ => keeps_change _
  | query => exact keeps_queryRows
  | create => exact keeps_createRow maintains
  | update => exact keeps_updateRows maintains
  | delete => exact keeps_deleteRows maintains
  | audit => exact keeps_operation.bind fun _ => keeps_changeWorld fun _ => rfl

/-- A chain of callbacks that keep something keeps it. -/
theorem runChain_keeps {chain : List (String × Handler)} {s : Session}
    (keeps : ∀ callback ∈ chain, Step.Keeps P callback.2) (kept : P s.world.db) :
    P (Session.runChain setting chain s).2.world.db := by
  induction chain generalizing s with
  | nil => exact kept
  | cons callback rest ih =>
      obtain ⟨first, others⟩ := List.forall_mem_cons.mp keeps
      have kept₁ := first setting s kept
      cases stopped : s.operation.stopped with
      | true =>
          rw [runChain_stopped stopped]
          exact kept
      | false =>
          rcases ran : callback.2 setting s with ⟨failure | ⟨⟩, s'⟩
          · rw [ran] at kept₁
            rw [runChain_cons_error stopped ran]
            exact kept₁
          · rw [ran] at kept₁
            rw [runChain_cons_ok stopped ran]
            exact ih others kept₁

theorem chain_builtin (phase : Phase) : Callbacks.builtin.chain phase =
    (Builtin.ofPhase phase).map fun b => (b.name, b.handler) := by
  cases phase <;> rfl

/-- An operation keeps what statements keep, whether it comes to its end or fails. -/
theorem perform_keeps (maintains : Store.Maintains P) (kept : P w.db) :
    P (w.perform setting .builtin actor name request).2.db := by
  cases registered : setting.registry.find? name with
  | none =>
      rw [World.perform, registered]
      exact kept
  | some e =>
      have keeps : ∀ callback ∈ Callbacks.builtin.chain request.phase,
          Step.Keeps P callback.2 := by
        rw [chain_builtin]
        intro callback member
        obtain ⟨b, -, rfl⟩ := List.mem_map.mp member
        exact b.keeps maintains
      have kept' : P (Session.runChain setting (Callbacks.builtin.chain request.phase)
          ⟨.start request e actor, w⟩).2.world.db := runChain_keeps keeps kept
      rcases ran : Session.runChain setting (Callbacks.builtin.chain request.phase)
        ⟨.start request e actor, w⟩ with ⟨failure | ⟨⟩, s'⟩
      · rw [perform_of_error registered ran]
        exact kept
      · rw [ran] at kept'
        rw [perform_of_ok registered ran]
        exact kept'

end Operations

/-! ## Keys -/

namespace Database

variable {db : Database} {name name' : Name} {t : Table}

/-- A table keeps its key, if it is there. -/
def KeepsKey (db : Database) (name : Name) : Prop :=
  ∀ t, db.stored? name = some t → t.keepsKey t.rows = true

theorem KeepsKey.set (keeps : db.KeepsKey name)
    (kept : name = name' → t.keepsKey t.rows = true) : (db.set name' t).KeepsKey name := by
  intro t' stored
  by_cases same : name = name'
  · subst same
    obtain ⟨-, found⟩ := Option.ite_none_left_eq_some.mp stored
    obtain rfl := Option.some.inj ((if_pos rfl).symm.trans found)
    exact kept rfl
  · rw [stored?_set_of_ne same] at stored
    exact keeps t' stored

end Database

theorem isUnique_sublist {rows rows' : List Row} {column : Name} (some_ : rows'.Sublist rows)
    (unique : Table.isUnique rows column = true) : Table.isUnique rows' column = true := by
  simp only [Table.isUnique, Bool.and_eq_true, List.all_eq_true, decide_eq_true_eq] at unique ⊢
  have values := some_.map fun row => row column
  exact ⟨fun d member => unique.1 d (values.subset member), unique.2.sublist values⟩

/-- Statements keep the key of a table. -/
theorem maintains_key (name : Name) : Store.Maintains (Database.KeepsKey · name) where
  insert := by
    intro db db' e record n keeps inserted
    obtain ⟨-, inserted⟩ := Store.insert?_of_ok inserted
    obtain ⟨t, -, inserted⟩ := Option.bind_eq_some_iff.mp inserted
    obtain ⟨⟨-, kept, -⟩, same⟩ := Option.ite_none_right_eq_some.mp inserted
    cases same
    exact keeps.set fun _ => kept
  update := by
    intro db db' e changes cond n keeps updated
    obtain ⟨t, -, updated⟩ := Option.bind_eq_some_iff.mp (Store.update?_of_ok updated)
    obtain ⟨⟨-, -, kept, -⟩, same⟩ := Option.ite_none_right_eq_some.mp updated
    cases same
    exact keeps.set fun _ => kept
  delete := by
    intro db db' e cond n keeps deleted
    obtain ⟨t, stored, -, rfl⟩ := Database.delete?_eq_some (ofEngine_eq_ok deleted)
    refine keeps.set fun same => ?_
    subst same
    have unique := keeps t stored
    unfold Table.keepsKey at unique ⊢
    cases key : t.key with
    | none => rfl
    | some column =>
        rw [key] at unique
        exact isUnique_sublist List.filter_sublist unique

end ScopedAccess
