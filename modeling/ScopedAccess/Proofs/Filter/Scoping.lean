import ScopedAccess.Proofs.Filter.Links
import Mathlib.Data.List.Nodup
import Mathlib.Data.List.Perm.Subperm
/-!
# The names in compiled filters

A compiled filter is well scoped (`Predicate.WellScoped`): a test is of a stored column of the
entity at hand, under the alias that its table has there, and a subquery is that of a link which
the entity declares. Each subquery has an alias of its own. Aliases end in a number, which
compilation counts up from one, and what stands before the last underscore of a name does not
matter for the number behind it; so tables may be named like aliases and links may come back to
tables that they started from.

Whatever is named is named by the entities, then, and nothing by the filter
(`Registry.Mentions`).

* `compile_scoped`: the columns, tables and aliases of a compiled filter.
-/

namespace ScopedAccess

set_option autoImplicit false

open ScopedAccess.Filter

/-! ## Scopes -/

namespace Predicate

/-- A predicate is well scoped where the table of an entity has an alias. It tests stored columns
of the entity under the alias. A subquery follows a declared link to the table of the target, where
its filter is well scoped in turn, and a link of many to many goes over the join table: a subquery
selects the source key there, and its filter is another one for the target key. -/
inductive WellScoped (registry : Registry) : Entity → String → Predicate → Prop
  | test {e : Entity} {label column : String} {p : Predicate} :
      e.Stores column → p.Tests ⟨label, column⟩ → WellScoped registry e label p
  | const {e : Entity} {label : String} {b : Bool} : WellScoped registry e label (.const b)
  | all {e : Entity} {label : String} {ps : List Predicate} :
      (∀ p ∈ ps, WellScoped registry e label p) → WellScoped registry e label (.all ps)
  | any {e : Entity} {label : String} {ps : List Predicate} :
      (∀ p ∈ ps, WellScoped registry e label p) → WellScoped registry e label (.any ps)
  | direct {e : Entity} {label : String} {link : Link} {n : Nat} {p : Predicate} :
      link.IsDeclared registry e → link.relation.kind ≠ .manyToMany →
      WellScoped registry link.target (numberedAlias link.target.table n) p →
      WellScoped registry e label (.subquery ⟨label, link.localColumn⟩
        ⟨link.target.table, numberedAlias link.target.table n, link.foreignColumn⟩ p)
  | joined {e : Entity} {label : String} {link : Link} {join : JoinTable} {m n : Nat}
      {p : Predicate} :
      link.IsDeclared registry e → link.relation.kind = .manyToMany →
      link.relation.join = some join →
      WellScoped registry link.target (numberedAlias link.target.table n) p →
      WellScoped registry e label (.subquery ⟨label, link.localColumn⟩
        ⟨join.table, numberedAlias join.table m, join.sourceKey⟩
        (.subquery ⟨numberedAlias join.table m, join.targetKey⟩
          ⟨link.target.table, numberedAlias link.target.table n, link.foreignColumn⟩ p))

variable {registry : Registry} {e : Entity} {label : String}

theorem inherited_wellScoped : Inherited (WellScoped registry e label) where
  all := .all
  any := .any
  between bound := by
    cases bound with
    | test stores tests => exact .test stores tests

end Predicate

section Rules

variable {registry : Registry}

theorem wellScoped_plainFilter {e : Entity} {label key : String} {value : Json} :
    (plainFilter registry e label key value).Shares (Predicate.WellScoped registry e label) := by
  unfold plainFilter
  cases named : valueColumn? registry e key with
  | none => exact CompiledFilter.shares_empty
  | some column =>
      refine CompiledFilter.shares_mk.mpr ⟨?_, by simp⟩
      intro p member
      exact .test (stores_of_valueColumn? named) (Predicate.tests_of_mem_ofValue member)

mutual

/-- The members of an object compile to predicates that are well scoped. -/
theorem MembersCompile.wellScoped : ∀ {e : Entity} {label : String}
    {members : List (String × Json)} {f : CompiledFilter},
    MembersCompile registry e label members f →
      f.Shares (Predicate.WellScoped registry e label)
  | _, _, _, _, .nil => CompiledFilter.shares_empty
  | _, _, _, _, .cons first others => first.wellScoped.append others.wellScoped

theorem MemberCompiles.wellScoped : ∀ {e : Entity} {label key : String} {value : Json}
    {f : CompiledFilter}, MemberCompiles registry e label key value f →
      f.Shares (Predicate.WellScoped registry e label)
  | _, _, _, _, _, .conjunction items => CompiledFilter.shares_empty.foldl items.wellScoped
  | _, _, _, _, _, .disjunction items => Predicate.inherited_wellScoped.orGroup items.wellScoped
  | _, _, _, _, _, .plain _ => wellScoped_plainFilter
  | _, _, _, _, _, .unjoined _ _ _ => CompiledFilter.shares_empty
  | _, _, _, _, _, .direct traverses kind inner => by
      have settled := Predicate.inherited_wellScoped.merged inner.wellScoped
      exact CompiledFilter.shares_singleton (.direct (isDeclared_of_namedLink? traverses.1) kind
        (Predicate.inherited_wellScoped.predicate settled))
  | _, _, _, _, _, .joined traverses kind join inner => by
      have settled := Predicate.inherited_wellScoped.merged inner.wellScoped
      exact CompiledFilter.shares_singleton (.joined (isDeclared_of_namedLink? traverses.1) kind
        join (Predicate.inherited_wellScoped.predicate settled))

theorem ItemsCompile.wellScoped : ∀ {e : Entity} {label : String} {items : List Json}
    {fs : List CompiledFilter}, ItemsCompile registry e label items fs →
      ∀ f ∈ fs, f.Shares (Predicate.WellScoped registry e label)
  | _, _, _, _, .nil => fun _ member => nomatch member
  | _, _, _, _, .object first others => List.forall_mem_cons.mpr
      ⟨Predicate.inherited_wellScoped.merged first.wellScoped, others.wellScoped⟩
  | _, _, _, _, .other _ others => others.wellScoped

end

end Rules

/-! ## Aliases -/

namespace Predicate

mutual

/-- The aliases of the subqueries of a predicate. -/
def aliases : Predicate → List String
  | .subquery _ s filter => s.label :: filter.aliases
  | .all parts => aliasesOf parts
  | .any parts => aliasesOf parts
  | .compare .. | .among .. | .null .. | .like .. | .between .. | .const _ => []

def aliasesOf : List Predicate → List String
  | [] => []
  | p :: rest => p.aliases ++ aliasesOf rest

end

theorem aliasesOf_eq_flatMap (ps : List Predicate) : aliasesOf ps = ps.flatMap aliases := by
  induction ps with
  | nil => rfl
  | cons p rest ih => rw [aliasesOf, ih, List.flatMap_cons]

theorem aliases_conj (ps : List Predicate) : (conj ps).aliases = ps.flatMap aliases := by
  unfold conj
  split
  · simp
  · rw [aliases, aliasesOf_eq_flatMap]

theorem aliases_disj (ps : List Predicate) : (disj ps).aliases = ps.flatMap aliases := by
  unfold disj
  split
  · simp
  · rw [aliases, aliasesOf_eq_flatMap]

/-- A test has no subquery. -/
theorem Tests.aliases_eq {c : Column} {p : Predicate} (tests : p.Tests c) : p.aliases = [] := by
  cases p with
  | subquery | all | any => cases tests
  | _ => rfl

end Predicate

/-! ## Numbers -/

theorem toLower_of_isDigit {c : Char} (digit : c.isDigit = true) : c.toLower = c := by
  simp only [Char.isDigit, Bool.and_eq_true, decide_eq_true_eq] at digit
  unfold Char.toLower
  split
  · rename_i upper
    have low : 65 ≤ c.val.toNat := upper.1
    have high : c.val.toNat ≤ 57 := digit.2
    omega
  · rfl

/-- A numbered alias ends in an underscore and the digits of its number, also as a name. -/
theorem folded_numberedAlias (table : String) (n : Nat) :
    (Name.of (numberedAlias table n)).folded.toList =
      table.toList.map Char.toLower ++ '_' :: Nat.toDigits 10 n := by
  have digits : ∀ c ∈ Nat.toDigits 10 n, c.toLower = c := fun c member =>
    toLower_of_isDigit (Nat.isDigit_of_mem_toDigits (by decide) (by decide) member)
  have spelled : (numberedAlias table n).toList = table.toList ++ '_' :: Nat.toDigits 10 n := by
    simp [numberedAlias]
  calc (Name.of (numberedAlias table n)).folded.toList
      = (numberedAlias table n).toList.map Char.toLower := String.toList_map
    _ = table.toList.map Char.toLower ++ '_' :: (Nat.toDigits 10 n).map Char.toLower := by
        rw [spelled, List.map_append, List.map_cons]
        rfl
    _ = table.toList.map Char.toLower ++ '_' :: Nat.toDigits 10 n := by
        rw [List.map_congr_left digits, List.map_id']

/-- The number of an alias stands behind its last underscore, whatever the tables are called. -/
theorem eq_of_numberedAlias_eq {table other : String} {m n : Nat}
    (same : Name.of (numberedAlias table m) = Name.of (numberedAlias other n)) : m = n := by
  have number : ∀ (table : String) (n : Nat),
      (Name.of (numberedAlias table n)).folded.toList.reverse.takeWhile (· != '_') =
        (Nat.toDigits 10 n).reverse := by
    intro table n
    have digits : ∀ c ∈ (Nat.toDigits 10 n).reverse, (c != '_') = true := by
      intro c member
      have digit := Nat.isDigit_of_mem_toDigits (by decide) (by decide) (List.mem_reverse.mp member)
      refine bne_iff_ne.mpr ?_
      rintro rfl
      exact absurd digit (by decide)
    rw [folded_numberedAlias, List.reverse_append, List.reverse_cons, List.append_assoc,
      List.takeWhile_append_of_pos digits]
    simp
  have digits : Nat.toDigits 10 m = Nat.toDigits 10 n :=
    List.reverse_injective (by rw [← number table m, same, number other n])
  calc m = Nat.ofDigitChars 10 (Nat.toDigits 10 m) 0 := Nat.ofDigitChars_ten_toDigits.symm
    _ = n := by rw [digits, Nat.ofDigitChars_ten_toDigits]

/-- Aliases with different numbers between two counts, the first excluded. -/
structure Numbered (m n : Nat) (labels : List String) : Prop where
  le : m ≤ n
  distinct : (labels.map Name.of).Nodup
  numbered : ∀ label ∈ labels, ∃ table k, m < k ∧ k ≤ n ∧ label = numberedAlias table k

namespace Numbered

variable {m k n : Nat} {labels others : List String}

theorem nil (le : m ≤ n) : Numbered m n [] := ⟨le, List.nodup_nil, by simp⟩

/-- What is numbered by two counts after one another has different numbers throughout. -/
theorem append (first : Numbered m k labels) (second : Numbered k n others) :
    Numbered m n (labels ++ others) where
  le := Nat.le_trans first.le second.le
  distinct := by
    rw [List.map_append, List.nodup_append]
    refine ⟨first.distinct, second.distinct, ?_⟩
    intro name left name' right same
    subst same
    obtain ⟨label, member, rfl⟩ := List.mem_map.mp left
    obtain ⟨label', member', same⟩ := List.mem_map.mp right
    obtain ⟨table, i, -, upTo, rfl⟩ := first.numbered label member
    obtain ⟨table', j, after, -, rfl⟩ := second.numbered label' member'
    have : j = i := eq_of_numberedAlias_eq same
    omega
  numbered label member := by
    rcases List.mem_append.mp member with left | right
    · obtain ⟨table, i, after, upTo, rfl⟩ := first.numbered label left
      exact ⟨table, i, after, Nat.le_trans upTo second.le, rfl⟩
    · obtain ⟨table, i, after, upTo, rfl⟩ := second.numbered label right
      exact ⟨table, i, Nat.lt_of_le_of_lt first.le after, upTo, rfl⟩

theorem cons {table : String} (rest : Numbered (m + 1) n labels) :
    Numbered m n (numberedAlias table (m + 1) :: labels) := by
  have first : Numbered m (m + 1) [numberedAlias table (m + 1)] :=
    ⟨m.le_succ, List.nodup_singleton _, fun label member =>
      ⟨table, m + 1, m.lt_succ_self, Nat.le_refl _, List.mem_singleton.mp member⟩⟩
  exact first.append rest

/-- Aliases may be dropped and come in another order. -/
theorem of_subperm (numbered : Numbered m n others) (within : labels.Subperm others) :
    Numbered m n labels where
  le := numbered.le
  distinct := by
    obtain ⟨chosen, reordered, kept⟩ := within
    exact (reordered.map _).nodup_iff.mp (numbered.distinct.sublist (kept.map _))
  numbered label member := numbered.numbered label (within.subset member)

end Numbered

namespace CompiledFilter

/-- The aliases of the subqueries of a filter. -/
def aliases (f : CompiledFilter) : List String := f.parts.flatMap Predicate.aliases

theorem aliases_singleton (p : Predicate) : aliases ⟨[p], []⟩ = p.aliases := List.append_nil _

theorem aliases_append_perm (f g : CompiledFilter) :
    (f ++ g).aliases.Perm (f.aliases ++ g.aliases) := by
  have parts : (f ++ g).parts.Perm (f.parts ++ g.parts) := by
    change (f.fragments ++ g.fragments ++ (f.groups ++ g.groups)).Perm
      (f.fragments ++ f.groups ++ (g.fragments ++ g.groups))
    simp only [List.append_assoc]
    exact List.Perm.append_left _ (by
      rw [← List.append_assoc, ← List.append_assoc]
      exact List.Perm.append_right _ List.perm_append_comm)
  rw [aliases, aliases, aliases, ← List.flatMap_append]
  exact parts.flatMap_right _

theorem aliases_predicate (f : CompiledFilter) : f.predicate.aliases = f.aliases :=
  Predicate.aliases_conj f.parts

theorem aliases_merged (f : CompiledFilter) : f.merged.aliases = f.aliases := by
  have kept : (mergeBounds f.fragments).flatMap Predicate.aliases =
      f.fragments.flatMap Predicate.aliases :=
    mergeBounds_flatMap (fun _ _ _ => rfl) fun _ _ _ => rfl
  simp only [aliases, parts, merged, List.flatMap_append, kept]

theorem aliases_foldl_perm (fs : List CompiledFilter) (f : CompiledFilter) :
    (fs.foldl (· ++ ·) f).aliases.Perm (f.aliases ++ fs.flatMap aliases) := by
  induction fs generalizing f with
  | nil => simp
  | cons g rest ih =>
      rw [List.foldl_cons, List.flatMap_cons, ← List.append_assoc]
      exact (ih (f ++ g)).trans ((aliases_append_perm f g).append_right _)

/-- A disjunction that is dropped has no aliases. -/
theorem aliases_orGroup (fs : List CompiledFilter) :
    (aliases ⟨[], orGroup fs⟩).Sublist (fs.flatMap aliases) := by
  unfold orGroup
  dsimp only
  split
  · exact List.nil_sublist _
  · have kept := calc aliases ⟨[], [Predicate.disj (fs.map predicate)]⟩
        = (Predicate.disj (fs.map predicate)).aliases := aliases_singleton _
      _ = (fs.map predicate).flatMap Predicate.aliases := Predicate.aliases_disj _
      _ = fs.flatMap aliases := by simp only [List.flatMap_map, aliases_predicate]
    exact kept ▸ List.Sublist.refl _

theorem aliases_plain (c : Column) (value : Json) :
    aliases ⟨Predicate.ofValue c value, []⟩ = [] := by
  refine List.flatMap_eq_nil_iff.mpr fun p member => ?_
  rw [parts, List.append_nil] at member
  exact (Predicate.tests_of_mem_ofValue member).aliases_eq

end CompiledFilter

section Counting

variable {cx : CompileContext} {level : Level} {count m n : Nat} {f : CompiledFilter}

/-- A subquery is named before the subqueries inside of it. -/
theorem Numbered.subquery {r : ResolvedRelation} {aliases : RelationAliases} {p : Predicate}
    (named : r.aliases? count = some aliases) (inner : Numbered aliases.count n p.aliases) :
    Numbered count n (r.subquery aliases p).aliases := by
  unfold ResolvedRelation.aliases? at named
  split at named
  · obtain rfl := Option.some.inj named
    exact inner.cons.cons
  · cases named
  all_goals
    obtain rfl := Option.some.inj named
    exact inner.cons

theorem Numbered.of_bare {g : CompiledFilter} (bare : g.aliases = [])
    (compiled : (pure (g, count) : Except CompileError (CompiledFilter × Nat)) = .ok (f, n)) :
    Numbered count n f.aliases := by
  obtain ⟨rfl, rfl⟩ := Prod.mk.inj (Except.ok.inj compiled)
  exact bare ▸ .nil (Nat.le_refl _)

/-- A value given to a key has no subquery. -/
theorem Numbered.of_value {r : ResolvedRelation} (value : Json)
    (compiled : (if r.relation.kind = .ownedReference then
        pure (⟨Predicate.ofValue r.column value, []⟩, count)
      else pure (∅, count) : Except CompileError (CompiledFilter × Nat)) = .ok (f, n)) :
    Numbered count n f.aliases := by
  split at compiled
  · exact .of_bare (CompiledFilter.aliases_plain _ _) compiled
  · exact .of_bare rfl compiled

/-- A value other than an object makes no subquery, unless it is a list of objects. -/
theorem Numbered.of_flat {role : MemberRole} {value : Json}
    (compiled : compileMember cx level count role value = .ok (f, n))
    (flat : value.isObject = false)
    (unlisted : ∀ items, value = .arr items → role ≠ .conjunction ∧ role ≠ .disjunction) :
    Numbered count n f.aliases := by
  cases role with
  | conjunction =>
      cases value with
      | arr items => exact absurd rfl (unlisted items rfl).1
      | _ => exact .of_bare rfl compiled
  | disjunction =>
      cases value with
      | arr items => exact absurd rfl (unlisted items rfl).2
      | _ => exact .of_bare rfl compiled
  | ignored => cases value <;> exact .of_bare rfl compiled
  | field role =>
      cases role with
      | unknown => cases value <;> exact .of_bare rfl compiled
      | stored c => cases value <;> exact .of_bare (CompiledFilter.aliases_plain _ _) compiled
      | relation r =>
          cases value with
          | obj members => cases flat
          | _ => exact .of_value _ compiled

mutual

/-- Compilation numbers the subqueries of a member by its count. -/
theorem member_numbered : ∀ (value : Json) {level : Level} {count n : Nat} {role : MemberRole}
    {f : CompiledFilter}, compileMember cx level count role value = .ok (f, n) →
      Numbered count n f.aliases
  | .arr items, level, count, n, role, f, compiled => by
      cases role with
      | conjunction =>
          obtain ⟨⟨fs, m⟩, compiledItems, compiled⟩ := exists_of_bind_eq_ok compiled
          obtain ⟨rfl, rfl⟩ := Prod.mk.inj (Except.ok.inj compiled)
          exact (items_numbered items compiledItems).of_subperm
            (CompiledFilter.aliases_foldl_perm fs ∅).subperm
      | disjunction =>
          obtain ⟨⟨fs, m⟩, compiledItems, compiled⟩ := exists_of_bind_eq_ok compiled
          obtain ⟨rfl, rfl⟩ := Prod.mk.inj (Except.ok.inj compiled)
          exact (items_numbered items compiledItems).of_subperm
            (CompiledFilter.aliases_orGroup fs).subperm
      | ignored | field => exact .of_flat compiled rfl fun _ _ => ⟨nofun, nofun⟩
  | .obj members, level, count, n, role, f, compiled => by
      cases role with
      | conjunction | disjunction | ignored => exact .of_bare rfl compiled
      | field role =>
          cases role with
          | unknown => exact .of_bare rfl compiled
          | stored c => exact .of_bare (CompiledFilter.aliases_plain _ _) compiled
          | relation r =>
              simp only [compileMember] at compiled
              split at compiled
              · exact .of_value (.obj members) compiled
              split at compiled
              · exact .of_bare rfl compiled
              rename_i aliases named
              obtain ⟨-, -, compiled⟩ := exists_of_bind_eq_ok compiled
              obtain ⟨⟨g, m⟩, compiledMembers, compiled⟩ := exists_of_bind_eq_ok compiled
              obtain ⟨rfl, rfl⟩ := Prod.mk.inj (Except.ok.inj compiled)
              have inner := members_numbered members compiledMembers
              rw [← CompiledFilter.aliases_merged, ← CompiledFilter.aliases_predicate] at inner
              rw [CompiledFilter.aliases_singleton]
              exact .subquery named inner
  | .null, _, _, _, _, _, compiled => .of_flat compiled rfl nofun
  | .bool _, _, _, _, _, _, compiled => .of_flat compiled rfl nofun
  | .int _, _, _, _, _, _, compiled => .of_flat compiled rfl nofun
  | .float _, _, _, _, _, _, compiled => .of_flat compiled rfl nofun
  | .str _, _, _, _, _, _, compiled => .of_flat compiled rfl nofun

theorem members_numbered : ∀ (members : List (String × Json)) {level : Level} {count n : Nat}
    {f : CompiledFilter}, compileMembers cx level count members = .ok (f, n) →
      Numbered count n f.aliases
  | [], level, count, n, f, compiled => by
      obtain ⟨rfl, rfl⟩ := Prod.mk.inj (Except.ok.inj compiled)
      exact .nil (Nat.le_refl _)
  | (key, value) :: rest, level, count, n, f, compiled => by
      obtain ⟨⟨first, m⟩, compiledFirst, compiled⟩ := exists_of_bind_eq_ok compiled
      obtain ⟨⟨others, k⟩, compiledOthers, compiled⟩ := exists_of_bind_eq_ok compiled
      obtain ⟨rfl, rfl⟩ := Prod.mk.inj (Except.ok.inj compiled)
      have both := (member_numbered value compiledFirst).append
        (members_numbered rest compiledOthers)
      exact both.of_subperm (CompiledFilter.aliases_append_perm first others).subperm

theorem items_numbered : ∀ (items : List Json) {level : Level} {count n : Nat}
    {fs : List CompiledFilter}, compileItems cx level count items = .ok (fs, n) →
      Numbered count n (fs.flatMap CompiledFilter.aliases)
  | [], level, count, n, fs, compiled => by
      obtain ⟨rfl, rfl⟩ := Prod.mk.inj (Except.ok.inj compiled)
      exact .nil (Nat.le_refl _)
  | .obj members :: rest, level, count, n, fs, compiled => by
      obtain ⟨-, -, compiled⟩ := exists_of_bind_eq_ok compiled
      obtain ⟨⟨g, m⟩, compiledMembers, compiled⟩ := exists_of_bind_eq_ok compiled
      obtain ⟨⟨gs, k⟩, compiledRest, compiled⟩ := exists_of_bind_eq_ok compiled
      obtain ⟨rfl, rfl⟩ := Prod.mk.inj (Except.ok.inj compiled)
      rw [List.flatMap_cons, CompiledFilter.aliases_merged]
      exact (members_numbered members compiledMembers).append (items_numbered rest compiledRest)
  | .arr _ :: rest, _, _, _, _, compiled => items_numbered rest compiled
  | .null :: rest, _, _, _, _, compiled => items_numbered rest compiled
  | .bool _ :: rest, _, _, _, _, compiled => items_numbered rest compiled
  | .int _ :: rest, _, _, _, _, compiled => items_numbered rest compiled
  | .float _ :: rest, _, _, _, _, compiled => items_numbered rest compiled
  | .str _ :: rest, _, _, _, _, compiled => items_numbered rest compiled

end

end Counting

/-! ## Identifiers -/

/-- An entity is the one at hand or a registered one. -/
def Registry.Covers (registry : Registry) (e e' : Entity) : Prop :=
  e' = e ∨ ∃ name, registry.find? name = some e'

/-- The tables of the entities and of their joins. -/
inductive Registry.HasTable (registry : Registry) (e : Entity) : String → Prop
  | own {e' : Entity} : registry.Covers e e' → HasTable registry e e'.table
  | join {e' : Entity} {join : JoinTable} :
      registry.Covers e e' → e'.Joins join → HasTable registry e join.table

/-- The names of tables and of stored columns, and aliases made of a table and a number. -/
inductive Registry.Mentions (registry : Registry) (e : Entity) : String → Prop
  | table {table : String} : registry.HasTable e table → Mentions registry e table
  | label {table : String} {n : Nat} :
      registry.HasTable e table → Mentions registry e (numberedAlias table n)
  | column {e' : Entity} {column : String} :
      registry.Covers e e' → e'.Stores column → Mentions registry e column
  | sourceKey {e' : Entity} {join : JoinTable} :
      registry.Covers e e' → e'.Joins join → Mentions registry e join.sourceKey
  | targetKey {e' : Entity} {join : JoinTable} :
      registry.Covers e e' → e'.Joins join → Mentions registry e join.targetKey

namespace Predicate

mutual

/-- Everything in a predicate that is written as an identifier. -/
def identifiers : Predicate → List String
  | .compare c _ _ | .among c _ _ | .null c _ | .like c _ | .between c _ _ => [c.label, c.name]
  | .subquery c s filter =>
    c.label :: c.name :: s.table :: s.label :: s.column :: filter.identifiers
  | .all parts | .any parts => identifiersOf parts
  | .const _ => []

def identifiersOf : List Predicate → List String
  | [] => []
  | p :: rest => p.identifiers ++ identifiersOf rest

end

theorem mem_identifiersOf {ps : List Predicate} {name : String} :
    name ∈ identifiersOf ps ↔ ∃ p ∈ ps, name ∈ p.identifiers := by
  induction ps with
  | nil => simp [identifiersOf]
  | cons p rest ih => simp [identifiersOf, ih]

theorem Tests.identifiers_subset {c : Column} {p : Predicate} (tests : p.Tests c) :
    p.identifiers ⊆ [c.label, c.name] := by
  cases p with
  | compare | among | null | like | between => exact tests ▸ List.Subset.refl _
  | const => exact List.nil_subset _
  | subquery | all | any => cases tests

variable {registry : Registry} {e e' : Entity} {label : String} {p : Predicate}

/-- The identifiers of a predicate that is well scoped come from the entities. -/
theorem WellScoped.mentions (within : p.WellScoped registry e' label)
    (covers : registry.Covers e e') (named : registry.Mentions e label) :
    ∀ name ∈ p.identifiers, registry.Mentions e name := by
  induction within with
  | test stores tests =>
      intro name member
      rcases List.mem_pair.mp (tests.identifiers_subset member) with rfl | rfl
      · exact named
      · exact .column covers stores
  | const => simp [identifiers]
  | all _ ih | any _ ih =>
      intro name member
      rw [identifiers, mem_identifiersOf] at member
      obtain ⟨p, part, inside⟩ := member
      exact ih p part covers named name inside
  | direct link _ _ ih =>
      have target : registry.Covers e _ := .inr ⟨_, link.target⟩
      obtain ⟨-, -, localColumn, foreignColumn⟩ := link.isLinkOf
      simp only [identifiers, List.forall_mem_cons]
      exact ⟨named, .column covers localColumn, .table (.own target), .label (.own target),
        .column target foreignColumn, ih target (.label (.own target))⟩
  | joined link _ join _ ih =>
      have target : registry.Covers e _ := .inr ⟨_, link.target⟩
      obtain ⟨-, -, localColumn, foreignColumn⟩ := link.isLinkOf
      obtain ⟨f, member, related⟩ := link.relation
      have joins : Entity.Joins _ _ := ⟨f, member, _, related, join⟩
      simp only [identifiers, List.forall_mem_cons]
      exact ⟨named, .column covers localColumn, .table (.join covers joins),
        .label (.join covers joins), .sourceKey covers joins, .label (.join covers joins),
        .targetKey covers joins, .table (.own target), .label (.own target),
        .column target foreignColumn, ih target (.label (.own target))⟩

end Predicate

/-! ## Compiled filters -/

section Compilation

variable {registry : Registry} {maxDepth : Nat} {e : Entity} {filter : Json} {f : CompiledFilter}

theorem compile_wellScoped (compiled : compile registry maxDepth e filter = .ok f) :
    f.Shares (Predicate.WellScoped registry e e.table) := by
  rcases compile_derivation compiled with ⟨rfl, rfl⟩ | ⟨members, g, rfl, rfl, derived⟩
  · exact CompiledFilter.shares_empty
  · exact Predicate.inherited_wellScoped.merged derived.wellScoped

/-- The subqueries of a compiled filter are numbered from one. -/
theorem compile_numbered (compiled : compile registry maxDepth e filter = .ok f) :
    ∃ n, Numbered 0 n f.aliases := by
  cases filter with
  | null =>
      obtain rfl := Except.ok.inj compiled
      exact ⟨0, .nil (Nat.le_refl _)⟩
  | obj members =>
      simp only [compile] at compiled
      cases made : compileMembers ⟨registry, maxDepth⟩ ⟨e, e.table, 0⟩ 0 members with
      | error reason => simp [made, Except.map] at compiled
      | ok result =>
          simp only [made, Except.map, Except.ok.injEq] at compiled
          refine ⟨result.2, ?_⟩
          rw [← compiled, CompiledFilter.aliases_merged]
          exact members_numbered members made
  | _ => cases compiled

/-- A compiled filter is well scoped from the table of its entity, its subqueries have different
aliases, also where the case of letters does not count, and the filter that it was compiled from
has given it no identifier. -/
theorem compile_scoped (compiled : compile registry maxDepth e filter = .ok f) :
    (∀ p ∈ f.parts, p.WellScoped registry e e.table) ∧
      (f.aliases.map Name.of).Nodup ∧
      ∀ p ∈ f.parts, ∀ name ∈ p.identifiers, registry.Mentions e name := by
  have wellScoped := compile_wellScoped compiled
  obtain ⟨n, numbered⟩ := compile_numbered compiled
  refine ⟨wellScoped, numbered.distinct, fun p part => ?_⟩
  exact (wellScoped p part).mentions (.inl rfl) (.table (.own (.inl rfl)))

end Compilation

/-! ## People and their managers -/

namespace Staff

/-- People have managers and take turns on rotas. Their table is called as an alias would be. -/
def people : Entity where
  name := "person"
  table := "staff_1"
  unrestricted := false
  fields := [⟨"id", "id", [.primaryKey], none⟩, ⟨"name", "full_name", [], none⟩,
    ⟨"boss_id", "boss", [], none⟩,
    ⟨"manager", "manager", [], some (.ownedReference "person" "boss_id")⟩,
    ⟨"reliefs", "reliefs", [], some (.manyToMany "person" "Rota" "on_duty" "relief")⟩]
  wellTagged := ⟨by decide, by decide, by decide⟩

def registry : Registry := ⟨.ofList [("person", people)]⟩

/-- Asks for the people who can be relieved by someone, and whose manager has a manager. -/
def question : Json :=
  .obj [("reliefs", .obj [("name", .str "staff_1_2.boss")]),
    ("manager", .obj [("manager", .obj [("name", .str "Ada")])])]

end Staff

open Staff in
/-- Every way back to the same table has its own alias. -/
theorem ways_back_scoped : ∃ f,
    compile registry defaultMaxDepth people question = .ok f ∧
      f.aliases = ["Rota_1", "staff_1_2", "staff_1_3", "staff_1_4"] ∧
      (∀ p ∈ f.parts, p.WellScoped registry people "staff_1") ∧
      (f.aliases.map Name.of).Nodup ∧
      ∀ p ∈ f.parts, ∀ name ∈ p.identifiers, registry.Mentions people name := by
  obtain ⟨f, compiled, aliases⟩ : ∃ f, compile registry defaultMaxDepth people question = .ok f ∧
      decide (f.aliases = ["Rota_1", "staff_1_2", "staff_1_3", "staff_1_4"]) = true := by
    apply exists_of_any
    decide +kernel
  exact ⟨f, compiled, of_decide_eq_true aliases, compile_scoped compiled⟩

end ScopedAccess
