import ScopedAccess.Proofs.Filter.Bounds
import ScopedAccess.Proofs.Filter.Derivation
import Mathlib.Data.List.Nodup
/-!
# The links that compiled filters follow

Which columns and tables a compiled filter can be about. A test is of a stored column of
the entity at hand, and a subquery follows a link of it, over the join table if the link
has one, to the table of the target (`Predicate.Follows`). The tables that a filter leads
to can be read off the filter (`Filter.tables`).

* `compile_follows`: a compiled filter follows links to these tables and is about nothing
  else.
-/

namespace ScopedAccess

set_option autoImplicit false

open ScopedAccess.Filter

/-! ## Columns and links of entities -/

/-- An entity has a stored field of a column. -/
def Entity.Stores (e : Entity) (column : String) : Prop :=
  ∃ f ∈ e.fields, f.isStored = true ∧ f.column = column

/-- A relation of an entity goes over a join table. -/
def Entity.Joins (e : Entity) (join : JoinTable) : Prop :=
  ∃ f ∈ e.fields, ∃ r, f.relation = some r ∧ r.join = some join

/-- A link goes from an entity as one of its relations says: to the target of the relation, from
the column of its local key to that of its foreign key. -/
structure Filter.Link.IsDeclared (registry : Registry) (e : Entity) (link : Link) : Prop where
  relation : ∃ f ∈ e.fields, f.relation = some link.relation
  target : registry.find? link.relation.target = some link.target
  localColumn : e.column? link.relation.localKey = some link.localColumn
  foreignColumn : link.target.column? link.relation.foreignKey = some link.foreignColumn

/-- Where a link comes from: a relation of its entity, looked up in a registry. -/
structure Filter.IsLinkOf (registry : Registry) (e : Entity) (link : Link) : Prop where
  relation : ∃ f ∈ e.fields, f.relation = some link.relation
  target : registry.find? link.relation.target = some link.target
  localColumn : e.Stores link.localColumn
  foreignColumn : link.target.Stores link.foreignColumn

section Naming

variable {registry : Registry} {e : Entity} {name key column : String} {link : Link} {f : Field}

/-- Fields of an entity that have one name are one field. -/
theorem Entity.eq_of_name {f g : Field} (hf : f ∈ e.fields) (hg : g ∈ e.fields)
    (same : f.name = g.name) : f = g :=
  List.inj_on_of_nodup_map e.wellTagged.names_nodup hf hg same

theorem Entity.mem_of_field? (named : e.field? name = some f) : f ∈ e.fields :=
  List.mem_of_find?_eq_some named

/-- A name is looked up as that of the one field that has it. -/
theorem Entity.field?_eq_some_iff : e.field? name = some f ↔ f ∈ e.fields ∧ f.name = name := by
  constructor
  · intro found
    exact ⟨mem_of_field? found, by simpa using List.find?_some found⟩
  · rintro ⟨member, rfl⟩
    cases found : e.field? f.name with
    | none => simpa using List.find?_eq_none.mp found f member
    | some g =>
        have same : g.name = f.name := by simpa using List.find?_some found
        rw [eq_of_name (mem_of_field? found) member same]

theorem Entity.stores_of_column? (named : e.column? name = some column) : e.Stores column := by
  obtain ⟨f, stored, rfl⟩ := Option.map_eq_some_iff.mp named
  obtain ⟨found, stored⟩ := Option.filter_eq_some_iff.mp stored
  exact ⟨f, mem_of_field? found, stored, rfl⟩

theorem mem_of_namedField? (named : namedField? e key = some f) : f ∈ e.fields := by
  unfold namedField? at named
  split at named
  · cases named
  · exact Entity.mem_of_field? named

theorem isDeclared_of_link? {r : Relation} (member : f ∈ e.fields) (related : f.relation = some r)
    (found : link? registry e r = some link) : link.IsDeclared registry e := by
  have same : link.relation = r := relation_of_link? found
  simp only [link?, Option.bind_eq_bind, Option.bind_eq_some_iff, Option.pure_def,
    Option.some.injEq] at found
  obtain ⟨target, foundTarget, localColumn, foundLocal, foreignColumn, foundForeign, rfl⟩ := found
  exact ⟨⟨f, member, related⟩, foundTarget, foundLocal, foundForeign⟩

theorem isDeclared_of_namedLink? (named : namedLink? registry e key = some link) :
    link.IsDeclared registry e := by
  obtain ⟨f, foundField, named⟩ := Option.bind_eq_some_iff.mp named
  obtain ⟨r, related, found⟩ := Option.bind_eq_some_iff.mp named
  exact isDeclared_of_link? (mem_of_namedField? foundField) related found

theorem Filter.Link.IsDeclared.isLinkOf (declared : link.IsDeclared registry e) :
    IsLinkOf registry e link :=
  ⟨declared.relation, declared.target, Entity.stores_of_column? declared.localColumn,
    Entity.stores_of_column? declared.foreignColumn⟩

theorem isLinkOf_of_namedLink? (named : namedLink? registry e key = some link) :
    IsLinkOf registry e link :=
  (isDeclared_of_namedLink? named).isLinkOf

/-- The column that a plain value is about is that of a stored field. -/
theorem stores_of_valueColumn? (named : valueColumn? registry e key = some column) :
    e.Stores column := by
  obtain ⟨f, foundField, named⟩ := Option.bind_eq_some_iff.mp named
  have member : f ∈ e.fields := mem_of_namedField? foundField
  cases related : f.relation with
  | none =>
      simp only [related, Option.some.injEq] at named
      exact ⟨f, member, by simp [Field.isStored, related], named⟩
  | some r =>
      simp only [related, Option.ite_none_right_eq_some, Option.map_eq_some_iff] at named
      obtain ⟨-, link, found, rfl⟩ := named
      exact (isDeclared_of_link? member related found).isLinkOf.localColumn

end Naming

/-! ## The tables that a filter leads to -/

namespace Filter

/-- The tables of the subqueries that a link is followed by; none without a join table
that it needs. -/
def Link.tables (l : Link) : List String :=
  match l.relation.kind, l.relation.join with
  | .manyToMany, none => []
  | .manyToMany, some join => [join.table, l.target.table]
  | .ownedReference, _ | .oneToMany, _ => [l.target.table]

mutual

/-- The tables that the members of an object lead to. -/
def tablesOfMembers (registry : Registry) (e : Entity) : List (String × Json) → List String
  | [] => []
  | (key, value) :: rest => tablesOfMember registry e key value ++ tablesOfMembers registry e rest

def tablesOfMember (registry : Registry) (e : Entity) (key : String) : Json → List String
  | .arr items => if key = "$and" ∨ key = "$or" then tablesOfItems registry e items else []
  | .obj members =>
    if addressesKey members then []
    else
      match namedLink? registry e key with
      | none => []
      | some link =>
        if link.tables = [] then [] else link.tables ++ tablesOfMembers registry link.target members
  | _ => []

def tablesOfItems (registry : Registry) (e : Entity) : List Json → List String
  | [] => []
  | .obj members :: rest => tablesOfMembers registry e members ++ tablesOfItems registry e rest
  | _ :: rest => tablesOfItems registry e rest

end

/-- The tables that a filter leads to from that of its entity. -/
def tables (registry : Registry) (e : Entity) : Json → List String
  | .obj members => tablesOfMembers registry e members
  | _ => []

end Filter

/-! ## What the parts of a filter have in common -/

namespace Predicate

/-- What conjunctions and disjunctions have if all of their parts do, and ranges if a bound does. -/
structure Inherited (shared : Predicate → Prop) : Prop where
  all : ∀ {ps : List Predicate}, (∀ p ∈ ps, shared p) → shared (.all ps)
  any : ∀ {ps : List Predicate}, (∀ p ∈ ps, shared p) → shared (.any ps)
  between : ∀ {c : Column} {op : Comparison} {value : Json} {lower upper : Bound},
    shared (.compare c op value) → shared (.between c lower upper)

end Predicate

namespace CompiledFilter

/-- Everything in a compiled filter has something. -/
def Shares (shared : Predicate → Prop) (f : CompiledFilter) : Prop := ∀ p ∈ f.parts, shared p

variable {shared : Predicate → Prop} {f g : CompiledFilter}

theorem shares_mk {fragments groups : List Predicate} :
    Shares shared ⟨fragments, groups⟩ ↔ (∀ p ∈ fragments, shared p) ∧ ∀ p ∈ groups, shared p :=
  List.forall_mem_append

theorem shares_empty : Shares shared ∅ := by
  intro p member
  cases member

theorem shares_singleton {p : Predicate} (has : shared p) : Shares shared ⟨[p], []⟩ :=
  shares_mk.mpr ⟨List.forall_mem_singleton.mpr has, by simp⟩

theorem Shares.append (first : f.Shares shared) (second : g.Shares shared) :
    (f ++ g).Shares shared := by
  obtain ⟨fragments, groups⟩ := shares_mk.mp first
  obtain ⟨fragments', groups'⟩ := shares_mk.mp second
  exact shares_mk.mpr ⟨List.forall_mem_append.mpr ⟨fragments, fragments'⟩,
    List.forall_mem_append.mpr ⟨groups, groups'⟩⟩

theorem Shares.foldl {fs : List CompiledFilter} (first : f.Shares shared)
    (each : ∀ g ∈ fs, g.Shares shared) : (fs.foldl (· ++ ·) f).Shares shared := by
  induction fs generalizing f with
  | nil => exact first
  | cons g rest ih =>
      obtain ⟨next, others⟩ := List.forall_mem_cons.mp each
      exact ih (first.append next) others

end CompiledFilter

namespace Predicate.Inherited

variable {shared : Predicate → Prop} {f : CompiledFilter}

theorem conj {ps : List Predicate} (inherited : Inherited shared) (each : ∀ p ∈ ps, shared p) :
    shared (conj ps) := by
  unfold Predicate.conj
  split
  · exact each _ (.head _)
  · exact inherited.all each

theorem disj {ps : List Predicate} (inherited : Inherited shared) (each : ∀ p ∈ ps, shared p) :
    shared (disj ps) := by
  unfold Predicate.disj
  split
  · exact each _ (.head _)
  · exact inherited.any each

theorem merged (inherited : Inherited shared) (shares : f.Shares shared) :
    f.merged.Shares shared := by
  obtain ⟨fragments, groups⟩ := CompiledFilter.shares_mk.mp shares
  exact CompiledFilter.shares_mk.mpr
    ⟨mergeBounds_forall (fun _ _ _ => inherited.between) fragments, groups⟩

theorem predicate (inherited : Inherited shared) (shares : f.Shares shared) :
    shared f.predicate :=
  inherited.conj shares

theorem orGroup {fs : List CompiledFilter} (inherited : Inherited shared)
    (each : ∀ f ∈ fs, f.Shares shared) : CompiledFilter.Shares shared ⟨[], orGroup fs⟩ := by
  refine CompiledFilter.shares_mk.mpr ⟨by simp, ?_⟩
  simp only [ScopedAccess.orGroup]
  split
  · simp
  · refine List.forall_mem_singleton.mpr (inherited.disj ?_)
    intro p member
    obtain ⟨f, branch, rfl⟩ := List.mem_map.mp member
    exact inherited.predicate (each f branch)

end Predicate.Inherited

/-! ## Predicates that follow links -/

namespace Predicate

/-- A predicate tests no other column than one. -/
def Tests (c : Column) : Predicate → Prop
  | .compare c' _ _ | .among c' _ _ | .null c' _ | .like c' _ | .between c' _ _ => c' = c
  | .const _ => True
  | .subquery _ _ _ | .all _ | .any _ => False

theorem tests_equals (c : Column) (negated : Bool) (value : Json) :
    (equals c negated value).Tests c := by
  cases value <;> exact rfl

theorem tests_of_mem_ofOperator {c : Column} {op : String} {operand : Json} {p : Predicate}
    (member : p ∈ ofOperator c op operand) : p.Tests c := by
  unfold ofOperator at member
  split at member
  all_goals simp only [List.mem_singleton, List.not_mem_nil] at member
  all_goals subst member
  case h_3 | h_6 => exact tests_equals _ _ _
  case h_7 => exact trivial
  all_goals exact rfl

theorem tests_of_mem_ofBounds {c : Column} {ops : List (String × Json)} {p : Predicate}
    (member : p ∈ ofBounds c ops) : p.Tests c := by
  unfold ofBounds at member
  split at member
  all_goals simp only [List.mem_singleton, List.not_mem_nil] at member
  all_goals exact member ▸ rfl

theorem tests_of_mem_ofValue {c : Column} {value : Json} {p : Predicate}
    (member : p ∈ ofValue c value) : p.Tests c := by
  cases value with
  | obj ops =>
      simp only [ofValue, ofOperators, List.mem_append, List.mem_flatMap] at member
      obtain ⟨operator, -, made⟩ | made := member
      · exact tests_of_mem_ofOperator made
      · exact tests_of_mem_ofBounds made
  | arr items => simp [ofValue] at member
  | _ => exact List.mem_singleton.mp member ▸ tests_equals _ _ _

/-- A predicate on the table of an entity tests its stored columns and follows links to
tables of a list. -/
inductive Follows (registry : Registry) (tables : List String) :
    Entity → String → Predicate → Prop
  | test {e : Entity} {label column : String} {p : Predicate} :
      e.Stores column → p.Tests ⟨label, column⟩ → Follows registry tables e label p
  | const {e : Entity} {label : String} {b : Bool} : Follows registry tables e label (.const b)
  | all {e : Entity} {label : String} {ps : List Predicate} :
      (∀ p ∈ ps, Follows registry tables e label p) → Follows registry tables e label (.all ps)
  | any {e : Entity} {label : String} {ps : List Predicate} :
      (∀ p ∈ ps, Follows registry tables e label p) → Follows registry tables e label (.any ps)
  | direct {e : Entity} {label : String} {link : Link} {n : Nat} {p : Predicate} :
      IsLinkOf registry e link → link.target.table ∈ tables →
      Follows registry tables link.target (numberedAlias link.target.table n) p →
      Follows registry tables e label (.subquery ⟨label, link.localColumn⟩
        ⟨link.target.table, numberedAlias link.target.table n, link.foreignColumn⟩ p)
  | joined {e : Entity} {label : String} {link : Link} {join : JoinTable} {m n : Nat}
      {p : Predicate} :
      IsLinkOf registry e link → link.relation.join = some join →
      join.table ∈ tables → link.target.table ∈ tables →
      Follows registry tables link.target (numberedAlias link.target.table n) p →
      Follows registry tables e label (.subquery ⟨label, link.localColumn⟩
        ⟨join.table, numberedAlias join.table m, join.sourceKey⟩
        (.subquery ⟨numberedAlias join.table m, join.targetKey⟩
          ⟨link.target.table, numberedAlias link.target.table n, link.foreignColumn⟩ p))

variable {registry : Registry} {tables : List String} {e : Entity} {label : String}

theorem inherited_follows : Inherited (Follows registry tables e label) where
  all := .all
  any := .any
  between bound := by
    cases bound with
    | test stores tests => exact .test stores tests

end Predicate

namespace CompiledFilter

/-- Everything in a compiled filter on the table of an entity follows links. -/
def Follows (registry : Registry) (tables : List String) (e : Entity) (label : String)
    (f : CompiledFilter) : Prop :=
  ∀ p ∈ f.parts, p.Follows registry tables e label

variable {registry : Registry} {tables : List String} {e : Entity} {label : String}

theorem follows_mk {fragments groups : List Predicate} :
    Follows registry tables e label ⟨fragments, groups⟩ ↔
      (∀ p ∈ fragments, p.Follows registry tables e label) ∧
        ∀ p ∈ groups, p.Follows registry tables e label :=
  List.forall_mem_append

theorem Follows.predicate {f : CompiledFilter} (follows : f.Follows registry tables e label) :
    f.predicate.Follows registry tables e label :=
  Predicate.inherited_follows.predicate follows

theorem follows_plainFilter {key : String} {value : Json} :
    (plainFilter registry e label key value).Follows registry tables e label := by
  unfold plainFilter
  cases named : valueColumn? registry e key with
  | none => exact shares_empty
  | some column =>
      refine follows_mk.mpr ⟨?_, by simp⟩
      intro p member
      exact .test (stores_of_valueColumn? named) (Predicate.tests_of_mem_ofValue member)

end CompiledFilter

/-! ## The rules follow links -/

theorem tables_of_direct {link : Link} (direct : link.relation.kind ≠ .manyToMany) :
    link.tables = [link.target.table] := by
  unfold Link.tables
  cases kind : link.relation.kind with
  | manyToMany => exact absurd kind direct
  | _ => rfl

theorem tables_of_joined {link : Link} {join : JoinTable}
    (kind : link.relation.kind = .manyToMany) (joined : link.relation.join = some join) :
    link.tables = [join.table, link.target.table] := by
  unfold Link.tables
  rw [kind, joined]

section Rules

variable {registry : Registry} {tables : List String} {e : Entity} {label key : String}

theorem tablesOfMember_of_traverses {members : List (String × Json)} {link : Link}
    (traverses : Traverses registry e key members link) (joined : link.tables ≠ []) :
    tablesOfMember registry e key (.obj members) =
      link.tables ++ tablesOfMembers registry link.target members := by
  rw [tablesOfMember, traverses.1]
  simp [traverses.2, joined]

theorem tablesOfItems_subset {item : Json} {items : List Json} :
    tablesOfItems registry e items ⊆ tablesOfItems registry e (item :: items) := by
  cases item with
  | obj members =>
      rw [tablesOfItems]
      exact List.subset_append_right _ _
  | _ =>
      rw [tablesOfItems]
      · exact List.Subset.refl _
      · exact fun _ h => nomatch h

mutual

/-- The members of an object compile to predicates that follow links. -/
theorem MembersCompile.follows : ∀ {e : Entity} {label : String} {members : List (String × Json)}
    {f : CompiledFilter}, MembersCompile registry e label members f →
      tablesOfMembers registry e members ⊆ tables → f.Follows registry tables e label
  | _, _, _, _, .nil, _ => CompiledFilter.shares_empty
  | _, _, _, _, .cons first others, within => by
      rw [tablesOfMembers, List.append_subset] at within
      exact CompiledFilter.Shares.append (first.follows within.1) (others.follows within.2)

theorem MemberCompiles.follows : ∀ {e : Entity} {label key : String} {value : Json}
    {f : CompiledFilter}, MemberCompiles registry e label key value f →
      tablesOfMember registry e key value ⊆ tables → f.Follows registry tables e label
  | _, _, _, _, _, .conjunction items, within => by
      rw [tablesOfMember, if_pos (.inl rfl)] at within
      exact CompiledFilter.shares_empty.foldl (items.follows within)
  | _, _, _, _, _, .disjunction items, within => by
      rw [tablesOfMember, if_pos (.inr rfl)] at within
      exact Predicate.inherited_follows.orGroup (items.follows within)
  | _, _, _, _, _, .plain _, _ => CompiledFilter.follows_plainFilter
  | _, _, _, _, _, .unjoined _ _ _, _ => CompiledFilter.shares_empty
  | _, _, _, _, _, .direct traverses kind inner, within => by
      have reached := tables_of_direct kind
      rw [tablesOfMember_of_traverses traverses (by simp [reached]), reached,
        List.append_subset] at within
      exact CompiledFilter.shares_singleton (.direct (isLinkOf_of_namedLink? traverses.1)
        (within.1 (.head _)) (Predicate.inherited_follows.predicate
          (Predicate.inherited_follows.merged (inner.follows within.2))))
  | _, _, _, _, _, .joined traverses kind join inner, within => by
      have reached := tables_of_joined kind join
      rw [tablesOfMember_of_traverses traverses (by simp [reached]), reached,
        List.append_subset] at within
      exact CompiledFilter.shares_singleton (.joined (isLinkOf_of_namedLink? traverses.1) join
        (within.1 (.head _)) (within.1 (.tail _ (.head _)))
        (Predicate.inherited_follows.predicate
          (Predicate.inherited_follows.merged (inner.follows within.2))))

theorem ItemsCompile.follows : ∀ {e : Entity} {label : String} {items : List Json}
    {fs : List CompiledFilter}, ItemsCompile registry e label items fs →
      tablesOfItems registry e items ⊆ tables → ∀ f ∈ fs, f.Follows registry tables e label
  | _, _, _, _, .nil, _ => fun _ member => nomatch member
  | _, _, _, _, .object first others, within => by
      rw [tablesOfItems, List.append_subset] at within
      exact List.forall_mem_cons.mpr ⟨Predicate.inherited_follows.merged (first.follows within.1),
        others.follows within.2⟩
  | _, _, _, _, .other _ others, within =>
      others.follows (List.Subset.trans tablesOfItems_subset within)

end

/-- A compiled filter follows links to the tables that the filter leads to. -/
theorem compile_follows {maxDepth : Nat} {filter : Json} {f : CompiledFilter}
    (compiled : compile registry maxDepth e filter = .ok f) :
    f.Follows registry (Filter.tables registry e filter) e e.table := by
  rcases compile_derivation compiled with ⟨rfl, rfl⟩ | ⟨members, g, rfl, rfl, derived⟩
  · exact CompiledFilter.shares_empty
  · exact Predicate.inherited_follows.merged (derived.follows (List.Subset.refl _))

end Rules

end ScopedAccess
