import ScopedAccess.Filter.Compilation
import ScopedAccess.Filter.Meaning
import ScopedAccess.Proofs.Fallible
/-!
# How filters compile

What compilation makes of a filter, without its limit on nesting, its numbering of
subqueries and its errors: `MembersCompile registry e label members f` says that the
members of an object on an entity compile to `f` where the table of the entity has an
alias. There is one rule for each way that a member can be read; the numbers of
subqueries are left open.

* `compile_derivation`: whatever `compile` accepts has been made by these rules.

What later modules say of compiled filters they say by induction on the rules.
-/

namespace ScopedAccess

set_option autoImplicit false

open ScopedAccess.Filter

/-- The alias of the subquery of a number. -/
def numberedAlias (table : String) (n : Nat) : String := table ++ "_" ++ toString n

/-- The predicates of a plain value given to a key; none if it is about no column. -/
def plainFilter (registry : Registry) (e : Entity) (label key : String) (value : Json) :
    CompiledFilter :=
  match valueColumn? registry e key with
  | some column => ⟨Predicate.ofValue ⟨label, column⟩ value, []⟩
  | none => ∅

/-- A value given to a key is read as a plain value: neither as a list of objects nor as a
filter on related rows. -/
def IsPlain (registry : Registry) (e : Entity) (key : String) : Json → Prop
  | .arr _ => key ≠ "$and" ∧ key ≠ "$or"
  | .obj members => namedLink? registry e key = none ∨ addressesKey members = true
  | _ => True

/-- An object given to a key is read as a filter on the rows of a link. -/
def Traverses (registry : Registry) (e : Entity) (key : String) (members : List (String × Json))
    (link : Link) : Prop :=
  namedLink? registry e key = some link ∧ addressesKey members = false

mutual

/-- What the members of an object compile to. -/
inductive MembersCompile (registry : Registry) :
    Entity → String → List (String × Json) → CompiledFilter → Prop
  | nil {e : Entity} {label : String} : MembersCompile registry e label [] ∅
  | cons {e : Entity} {label key : String} {value : Json} {rest : List (String × Json)}
      {first others : CompiledFilter} :
      MemberCompiles registry e label key value first →
      MembersCompile registry e label rest others →
      MembersCompile registry e label ((key, value) :: rest) (first ++ others)

/-- What a member of an object compiles to. -/
inductive MemberCompiles (registry : Registry) :
    Entity → String → String → Json → CompiledFilter → Prop
  | conjunction {e : Entity} {label : String} {items : List Json} {fs : List CompiledFilter} :
      ItemsCompile registry e label items fs →
      MemberCompiles registry e label "$and" (.arr items) (fs.foldl (· ++ ·) ∅)
  | disjunction {e : Entity} {label : String} {items : List Json} {fs : List CompiledFilter} :
      ItemsCompile registry e label items fs →
      MemberCompiles registry e label "$or" (.arr items) ⟨[], orGroup fs⟩
  | plain {e : Entity} {label key : String} {value : Json} :
      IsPlain registry e key value →
      MemberCompiles registry e label key value (plainFilter registry e label key value)
  /-- A many-to-many relation without a join table. -/
  | unjoined {e : Entity} {label key : String} {members : List (String × Json)} {link : Link} :
      Traverses registry e key members link → link.relation.kind = .manyToMany →
      link.relation.join = none → MemberCompiles registry e label key (.obj members) ∅
  | direct {e : Entity} {label key : String} {members : List (String × Json)} {link : Link}
      {n : Nat} {f : CompiledFilter} :
      Traverses registry e key members link → link.relation.kind ≠ .manyToMany →
      MembersCompile registry link.target (numberedAlias link.target.table n) members f →
      MemberCompiles registry e label key (.obj members)
        ⟨[.subquery ⟨label, link.localColumn⟩
          ⟨link.target.table, numberedAlias link.target.table n, link.foreignColumn⟩
          f.merged.predicate], []⟩
  | joined {e : Entity} {label key : String} {members : List (String × Json)} {link : Link}
      {join : JoinTable} {m n : Nat} {f : CompiledFilter} :
      Traverses registry e key members link → link.relation.kind = .manyToMany →
      link.relation.join = some join →
      MembersCompile registry link.target (numberedAlias link.target.table n) members f →
      MemberCompiles registry e label key (.obj members)
        ⟨[.subquery ⟨label, link.localColumn⟩
          ⟨join.table, numberedAlias join.table m, join.sourceKey⟩
          (.subquery ⟨numberedAlias join.table m, join.targetKey⟩
            ⟨link.target.table, numberedAlias link.target.table n, link.foreignColumn⟩
            f.merged.predicate)], []⟩

/-- What the objects among some items compile to. -/
inductive ItemsCompile (registry : Registry) :
    Entity → String → List Json → List CompiledFilter → Prop
  | nil {e : Entity} {label : String} : ItemsCompile registry e label [] []
  | object {e : Entity} {label : String} {members : List (String × Json)} {rest : List Json}
      {f : CompiledFilter} {fs : List CompiledFilter} :
      MembersCompile registry e label members f → ItemsCompile registry e label rest fs →
      ItemsCompile registry e label (.obj members :: rest) (f.merged :: fs)
  | other {e : Entity} {label : String} {item : Json} {rest : List Json}
      {fs : List CompiledFilter} :
      item.isObject = false → ItemsCompile registry e label rest fs →
      ItemsCompile registry e label (item :: rest) fs

end

/-! ## Roles -/

/-- A link as compilation resolves it where its entity has an alias. -/
def Filter.Link.resolved (l : Link) (label : String) : ResolvedRelation :=
  ⟨l.target, ⟨label, l.localColumn⟩, l.foreignColumn, l.relation⟩

/-- What the role of a key says about the column and the link that the key names. -/
def RoleDescribes (registry : Registry) (level : Level) (key : String) : MemberRole → Prop
  | .conjunction => key = "$and" ∧ namedLink? registry level.entity key = none ∧
      valueColumn? registry level.entity key = none
  | .disjunction => key = "$or" ∧ namedLink? registry level.entity key = none ∧
      valueColumn? registry level.entity key = none
  | .ignored | .field .unknown => (key ≠ "$and" ∧ key ≠ "$or") ∧
      namedLink? registry level.entity key = none ∧ valueColumn? registry level.entity key = none
  | .field (.stored c) => (key ≠ "$and" ∧ key ≠ "$or") ∧
      namedLink? registry level.entity key = none ∧
      ∃ column, c = ⟨level.label, column⟩ ∧
        valueColumn? registry level.entity key = some column
  | .field (.relation r) => (key ≠ "$and" ∧ key ≠ "$or") ∧
      ∃ link : Link, r = link.resolved level.label ∧
        namedLink? registry level.entity key = some link ∧
        valueColumn? registry level.entity key =
          if link.relation.kind = .ownedReference then some link.localColumn else none

section Roles

variable {registry : Registry} {level : Level} {key : String}

theorem resolveRelation?_eq (r : Relation) :
    resolveRelation? registry level r =
      (link? registry level.entity r).map fun l => l.resolved level.label := by
  unfold resolveRelation? link? Filter.Link.resolved
  cases registry.find? r.target with
  | none => rfl
  | some target =>
      cases level.entity.column? r.localKey with
      | none => rfl
      | some localColumn =>
          cases foreign : target.column? r.foreignKey with
          | none => simp [foreign]
          | some foreignColumn => simp [foreign]

/-- The relation that a link was looked up for. -/
theorem relation_of_link? {e : Entity} {r : Relation} {link : Link}
    (found : link? registry e r = some link) : link.relation = r := by
  simp only [link?, Option.bind_eq_bind, Option.bind_eq_some_iff, Option.pure_def,
    Option.some.injEq] at found
  obtain ⟨target, -, localColumn, -, foreignColumn, -, rfl⟩ := found
  rfl

theorem namedField?_of_dollar {e : Entity} (dollar : "$".toList.isPrefixOf key.toList = true) :
    namedField? e key = none := by
  rw [namedField?, if_pos dollar]

theorem namedLink?_of_dollar {e : Entity} (dollar : "$".toList.isPrefixOf key.toList = true) :
    namedLink? registry e key = none := by
  rw [namedLink?, namedField?_of_dollar dollar]
  rfl

theorem valueColumn?_of_dollar {e : Entity} (dollar : "$".toList.isPrefixOf key.toList = true) :
    valueColumn? registry e key = none := by
  rw [valueColumn?, namedField?_of_dollar dollar]
  rfl

theorem memberRole_describes : RoleDescribes registry level key (memberRole registry level key) := by
  unfold memberRole
  by_cases and : key = "$and"
  · subst and
    exact ⟨rfl, namedLink?_of_dollar (by decide), valueColumn?_of_dollar (by decide)⟩
  by_cases or : key = "$or"
  · subst or
    exact ⟨rfl, namedLink?_of_dollar (by decide), valueColumn?_of_dollar (by decide)⟩
  rw [if_neg and, if_neg or]
  by_cases dollar : "$".toList.isPrefixOf key.toList = true
  · rw [if_pos dollar]
    exact ⟨⟨and, or⟩, namedLink?_of_dollar dollar, valueColumn?_of_dollar dollar⟩
  rw [if_neg dollar]
  have named : namedField? level.entity key = level.entity.field? key := by
    rw [namedField?, if_neg dollar]
  unfold fieldRole
  cases field : level.entity.field? key with
  | none =>
      refine ⟨⟨and, or⟩, ?_, ?_⟩
      · simp [namedLink?, named, field]
      · simp [valueColumn?, named, field]
  | some f =>
      cases relation : f.relation with
      | none =>
          simp only [relation]
          refine ⟨⟨and, or⟩, ?_, f.column, rfl, ?_⟩
          · simp [namedLink?, named, field, relation]
          · simp [valueColumn?, named, field, relation]
      | some r =>
          simp only [relation, resolveRelation?_eq]
          cases found : link? registry level.entity r with
          | none =>
              refine ⟨⟨and, or⟩, ?_, ?_⟩
              · simp [namedLink?, named, field, relation, found]
              · simp [valueColumn?, named, field, relation, found]
          | some link =>
              refine ⟨⟨and, or⟩, link, rfl, ?_, ?_⟩
              · simp [namedLink?, named, field, relation, found]
              · simp [valueColumn?, named, field, relation, found, relation_of_link? found]

end Roles

/-! ## Compilation follows the rules -/

/-- The test of compilation for operators on a key is that of the reading. -/
theorem holdsOperators_eq (members : List (String × Json)) :
    holdsOperators members = addressesKey members := by
  cases members <;> simp [holdsOperators, addressesKey, bne, Bool.beq_eq_decide_eq]

variable {cx : CompileContext} {level : Level} {count n : Nat} {key : String} {f : CompiledFilter}

/-- A value that is read as a plain one compiles to its predicates. -/
theorem plain_of_role {role : MemberRole} {value : Json}
    (compiled : compileMember cx level count role value = .ok (f, n))
    (describes : RoleDescribes cx.registry level key role)
    (plain : IsPlain cx.registry level.entity key value) :
    f = plainFilter cx.registry level.entity level.label key value := by
  have silent : valueColumn? cx.registry level.entity key = none → f = ∅ →
      f = plainFilter cx.registry level.entity level.label key value := by
    intro none empty
    rw [empty, plainFilter, none]
  cases role with
  | conjunction =>
      obtain ⟨rfl, -, unnamed⟩ := describes
      refine silent unnamed ?_
      cases value with
      | arr items => exact absurd rfl plain.1
      | _ => simp_all [compileMember, pure, Except.pure]
  | disjunction =>
      obtain ⟨rfl, -, unnamed⟩ := describes
      refine silent unnamed ?_
      cases value with
      | arr items => exact absurd rfl plain.2
      | _ => simp_all [compileMember, pure, Except.pure]
  | ignored =>
      refine silent describes.2.2 ?_
      simp_all [compileMember, pure, Except.pure]
  | field role =>
      cases role with
      | unknown =>
          refine silent describes.2.2 ?_
          simp_all [compileMember, pure, Except.pure]
      | stored c =>
          obtain ⟨-, -, column, rfl, named⟩ := describes
          simp_all [compileMember, pure, Except.pure, plainFilter]
      | relation r =>
          obtain ⟨-, link, rfl, linked, named⟩ := describes
          have reads : compileMember cx level count (.field (.relation (link.resolved level.label)))
              value = if link.relation.kind = .ownedReference then
                pure (⟨Predicate.ofValue ⟨level.label, link.localColumn⟩ value, []⟩, count)
              else pure (∅, count) := by
            cases value with
            | obj members =>
                have operators : addressesKey members = true :=
                  plain.resolve_left (by simp [linked])
                simp only [compileMember, holdsOperators_eq, operators, if_true]
                rfl
            | _ => simp only [compileMember]; rfl
          by_cases owned : link.relation.kind = .ownedReference
          · simp_all [pure, Except.pure, plainFilter]
          · refine silent (by simp [named, owned]) ?_
            simp_all [pure, Except.pure]

/-- What a value read as an object on related rows compiles to. -/
theorem traversal_derivation {members : List (String × Json)} {link : Link}
    (traverses : Traverses cx.registry level.entity key members link)
    (inner : ∀ {label : String} {count n : Nat} {f : CompiledFilter},
      compileMembers cx ⟨link.target, label, level.depth + 1⟩ count members = .ok (f, n) →
        MembersCompile cx.registry link.target label members f)
    (compiled : compileMember cx level count (.field (.relation (link.resolved level.label)))
      (.obj members) = .ok (f, n)) :
    MemberCompiles cx.registry level.entity level.label key (.obj members) f := by
  obtain ⟨linked, traversed⟩ := traverses
  simp only [compileMember, holdsOperators_eq, traversed, Bool.false_eq_true, if_false,
    ResolvedRelation.aliases?, Filter.Link.resolved] at compiled
  cases kind : link.relation.kind with
  | manyToMany =>
      cases join : link.relation.join with
      | none =>
          simp only [kind, join] at compiled
          obtain rfl := fst_eq_of_pure_eq_ok compiled
          exact .unjoined ⟨linked, traversed⟩ kind join
      | some table =>
          simp only [kind, join] at compiled
          obtain ⟨-, -, compiled⟩ := exists_of_bind_eq_ok compiled
          obtain ⟨⟨g, m⟩, compiledMembers, compiled⟩ := exists_of_bind_eq_ok compiled
          obtain rfl := fst_eq_of_pure_eq_ok compiled
          exact .joined ⟨linked, traversed⟩ kind join (inner compiledMembers)
  | ownedReference | oneToMany =>
      simp only [kind] at compiled
      obtain ⟨-, -, compiled⟩ := exists_of_bind_eq_ok compiled
      obtain ⟨⟨g, m⟩, compiledMembers, compiled⟩ := exists_of_bind_eq_ok compiled
      obtain rfl := fst_eq_of_pure_eq_ok compiled
      exact .direct ⟨linked, traversed⟩ (by simp [kind]) (inner compiledMembers)

mutual

/-- A compiled member has been made by the rules. -/
theorem member_derivation : ∀ (value : Json) {level : Level} {count n : Nat} {key : String}
    {f : CompiledFilter},
    compileMember cx level count (memberRole cx.registry level key) value = .ok (f, n) →
      MemberCompiles cx.registry level.entity level.label key value f
  | .arr items, level, count, n, key, f, compiled => by
      have describes : RoleDescribes cx.registry level key (memberRole cx.registry level key) :=
        memberRole_describes
      generalize memberRole cx.registry level key = role at compiled describes
      have plain : (key ≠ "$and" ∧ key ≠ "$or") →
          MemberCompiles cx.registry level.entity level.label key (.arr items) f := by
        intro other
        exact plain_of_role compiled describes other ▸ .plain other
      cases role with
      | conjunction =>
          obtain ⟨⟨fs, m⟩, compiledItems, compiled⟩ := exists_of_bind_eq_ok compiled
          obtain rfl := fst_eq_of_pure_eq_ok compiled
          obtain ⟨rfl, -⟩ := describes
          have inner := items_derivation items compiledItems
          exact .conjunction inner
      | disjunction =>
          obtain ⟨⟨fs, m⟩, compiledItems, compiled⟩ := exists_of_bind_eq_ok compiled
          obtain rfl := fst_eq_of_pure_eq_ok compiled
          obtain ⟨rfl, -⟩ := describes
          have inner := items_derivation items compiledItems
          exact .disjunction inner
      | ignored => exact plain describes.1
      | field role => cases role <;> exact plain describes.1
  | .obj members, level, count, n, key, f, compiled => by
      have describes : RoleDescribes cx.registry level key (memberRole cx.registry level key) :=
        memberRole_describes
      generalize memberRole cx.registry level key = role at compiled describes
      have plain : IsPlain cx.registry level.entity key (.obj members) →
          MemberCompiles cx.registry level.entity level.label key (.obj members) f := by
        intro read
        exact plain_of_role compiled describes read ▸ .plain read
      cases role with
      | conjunction | disjunction | ignored => exact plain (.inl describes.2.1)
      | field role =>
          cases role with
          | unknown | stored => exact plain (.inl describes.2.1)
          | relation r =>
              obtain ⟨-, link, rfl, linked, -⟩ := describes
              cases operators : addressesKey members with
              | true => exact plain (.inr operators)
              | false =>
                  exact traversal_derivation ⟨linked, operators⟩
                    (fun compiledMembers => members_derivation members compiledMembers) compiled
  | .null, _, _, _, _, _, compiled =>
      plain_of_role compiled memberRole_describes trivial ▸ .plain trivial
  | .bool _, _, _, _, _, _, compiled =>
      plain_of_role compiled memberRole_describes trivial ▸ .plain trivial
  | .int _, _, _, _, _, _, compiled =>
      plain_of_role compiled memberRole_describes trivial ▸ .plain trivial
  | .float _, _, _, _, _, _, compiled =>
      plain_of_role compiled memberRole_describes trivial ▸ .plain trivial
  | .str _, _, _, _, _, _, compiled =>
      plain_of_role compiled memberRole_describes trivial ▸ .plain trivial

theorem members_derivation : ∀ (members : List (String × Json)) {level : Level} {count n : Nat}
    {f : CompiledFilter}, compileMembers cx level count members = .ok (f, n) →
      MembersCompile cx.registry level.entity level.label members f
  | [], level, count, n, f, compiled => by
      obtain rfl := fst_eq_of_pure_eq_ok compiled
      exact .nil
  | (key, value) :: rest, level, count, n, f, compiled => by
      obtain ⟨⟨first, m⟩, compiledFirst, compiled⟩ := exists_of_bind_eq_ok compiled
      obtain ⟨⟨others, k⟩, compiledOthers, compiled⟩ := exists_of_bind_eq_ok compiled
      obtain rfl := fst_eq_of_pure_eq_ok compiled
      exact .cons (member_derivation value compiledFirst) (members_derivation rest compiledOthers)

theorem items_derivation : ∀ (items : List Json) {level : Level} {count n : Nat}
    {fs : List CompiledFilter}, compileItems cx level count items = .ok (fs, n) →
      ItemsCompile cx.registry level.entity level.label items fs
  | [], level, count, n, fs, compiled => by
      obtain rfl := fst_eq_of_pure_eq_ok compiled
      exact .nil
  | .obj members :: rest, level, count, n, fs, compiled => by
      obtain ⟨-, -, compiled⟩ := exists_of_bind_eq_ok compiled
      obtain ⟨⟨g, m⟩, compiledMembers, compiled⟩ := exists_of_bind_eq_ok compiled
      obtain ⟨⟨gs, k⟩, compiledRest, compiled⟩ := exists_of_bind_eq_ok compiled
      obtain rfl := fst_eq_of_pure_eq_ok compiled
      exact .object (members_derivation members compiledMembers)
        (items_derivation rest compiledRest)
  | .arr _ :: rest, level, count, n, fs, compiled => .other rfl (items_derivation rest compiled)
  | .null :: rest, level, count, n, fs, compiled => .other rfl (items_derivation rest compiled)
  | .bool _ :: rest, level, count, n, fs, compiled => .other rfl (items_derivation rest compiled)
  | .int _ :: rest, level, count, n, fs, compiled => .other rfl (items_derivation rest compiled)
  | .float _ :: rest, level, count, n, fs, compiled => .other rfl (items_derivation rest compiled)
  | .str _ :: rest, level, count, n, fs, compiled => .other rfl (items_derivation rest compiled)

end

/-- What compilation accepts has been made by the rules, as the members of an object or,
of null, as no members at all. -/
theorem compile_derivation {registry : Registry} {maxDepth : Nat} {e : Entity} {filter : Json}
    (compiled : compile registry maxDepth e filter = .ok f) :
    (filter = .null ∧ f = ∅) ∨
      ∃ members g, filter = .obj members ∧ f = g.merged ∧
        MembersCompile registry e e.table members g := by
  cases filter with
  | null =>
      simp only [compile, Except.ok.injEq] at compiled
      exact .inl ⟨rfl, compiled.symm⟩
  | obj members =>
      simp only [compile] at compiled
      cases compiledMembers : compileMembers ⟨registry, maxDepth⟩ ⟨e, e.table, 0⟩ 0 members with
      | error reason => simp [compiledMembers, Except.map] at compiled
      | ok r =>
          simp only [compiledMembers, Except.map, Except.ok.injEq] at compiled
          exact .inr ⟨members, r.1, rfl, compiled.symm, members_derivation members compiledMembers⟩
  | _ => simp [compile] at compiled

end ScopedAccess
