import ScopedAccess.Proofs.Filter.Nesting
/-!
# Relations of validated registries

What a relation names is looked up twice: when a registry is validated, and when an object given
to the relation is compiled. Both want the same (`Registry.Connects`), so compilation drops nothing
that validation has let pass, and what stops validation is dropped.

An object given to a relation is an inquiry about related rows (`Inquiry`). Those of a filter on an
entity are read off its members and the objects of its `$and`, in order; the subqueries of what the
filter compiles to answer them one by one (`Inquiry.AnsweredBy`).

* `Registry.validate_eq_ok_iff`: what a registry is validated for.
* `MembersCompile.answers`: the inquiries of an object and their answers.
* `validate_keeps_relations`: validated registries lose no inquiry, and others do.
-/

namespace ScopedAccess

set_option autoImplicit false

open ScopedAccess.Filter

/-! ## Validation -/

/-- What a relation of an entity names is known: its target, the keys on both sides and the join
table if it needs one. -/
def Registry.Connects (registry : Registry) (e : Entity) (r : Relation) : Prop :=
  ∃ link, link? registry e r = some link ∧ (r.kind = .manyToMany → r.join ≠ none)

namespace Registry

variable {registry : Registry} {e : Entity} {f : Field} {r : Relation}

theorem relationFault?_eq_none_iff :
    registry.relationFault? e f r = none ↔ registry.Connects e r := by
  unfold relationFault? Connects link?
  cases registry.find? r.target with
  | none => simp
  | some target =>
      cases e.column? r.localKey with
      | none => simp
      | some localColumn =>
          cases foreign : target.column? r.foreignKey <;> simp [foreign]

/-- A registry is validated if all relations of its entities are connected. -/
theorem validate_eq_ok_iff : registry.validate = .ok () ↔
    ∀ name e, registry.find? name = some e → ∀ f ∈ e.fields, ∀ r, f.relation = some r →
      registry.Connects e r := by
  have faultless : registry.validate = .ok () ↔ registry.fault? = none := by
    unfold validate
    cases registry.fault? <;> simp
  have sound : ∀ e : Entity, e.fields.findSome? (registry.fieldFault? e) = none ↔
      ∀ f ∈ e.fields, ∀ r, f.relation = some r → registry.Connects e r := by
    intro e
    simp only [List.findSome?_eq_none_iff, fieldFault?, Option.bind_eq_none_iff,
      relationFault?_eq_none_iff]
  have listed : ∀ e, e ∈ registry.entities.values ↔ ∃ name, registry.find? name = some e := by
    intro e
    simp [SortedMap.values, find?, SortedMap.find?_eq_some_iff]
  rw [faultless, fault?, List.findSome?_eq_none_iff]
  simp only [sound, listed]
  constructor
  · intro all name e found
    exact all e ⟨name, found⟩
  · rintro all e ⟨name, found⟩
    exact all name e found

end Registry

/-! ## Inquiries -/

/-- A predicate is a subquery. -/
def Predicate.isSubquery : Predicate → Bool
  | .subquery .. => true
  | _ => false

/-- The subqueries that have to hold beside everything else, disjunctions aside. -/
def CompiledFilter.subqueries (f : CompiledFilter) : List Predicate :=
  f.fragments.filter Predicate.isSubquery

namespace Filter

/-- An object that a filter gives to a relation field. -/
structure Inquiry where
  field : Field
  relation : Relation
  members : List (String × Json)

/-- What an object given to a key inquires; none if the key names no relation or the object holds
operators. -/
def inquiry? (e : Entity) (key : String) (members : List (String × Json)) : Option Inquiry :=
  if addressesKey members then none
  else (namedField? e key).bind fun f => f.relation.map fun r => ⟨f, r, members⟩

mutual

/-- The inquiries of the members of an object. The objects of an `$and` belong to the object. -/
def inquiriesOfMembers (e : Entity) : List (String × Json) → List Inquiry
  | [] => []
  | (key, value) :: rest => inquiriesOfMember e key value ++ inquiriesOfMembers e rest

def inquiriesOfMember (e : Entity) (key : String) : Json → List Inquiry
  | .arr items => if key = "$and" then inquiriesOfItems e items else []
  | .obj members => (inquiry? e key members).toList
  | _ => []

def inquiriesOfItems (e : Entity) : List Json → List Inquiry
  | [] => []
  | .obj members :: rest => inquiriesOfMembers e members ++ inquiriesOfItems e rest
  | _ :: rest => inquiriesOfItems e rest

end

/-- A predicate is a subquery on the local key of the relation of an inquiry, and is all that the
inquiry compiles to. -/
structure Inquiry.AnsweredBy (registry : Registry) (e : Entity) (label : String) (q : Inquiry)
    (p : Predicate) : Prop where
  subquery : ∃ column selection filter, e.column? q.relation.localKey = some column ∧
    p = .subquery ⟨label, column⟩ selection filter
  compiles : MemberCompiles registry e label q.field.name (.obj q.members) ⟨[p], []⟩

end Filter

/-! ## Subqueries -/

namespace CompiledFilter

theorem subqueries_append (f g : CompiledFilter) :
    (f ++ g).subqueries = f.subqueries ++ g.subqueries :=
  List.filter_append ..

theorem subqueries_foldl (fs : List CompiledFilter) (f : CompiledFilter) :
    (fs.foldl (· ++ ·) f).subqueries = f.subqueries ++ fs.flatMap subqueries := by
  induction fs generalizing f with
  | nil => simp
  | cons g rest ih => rw [List.foldl_cons, ih, subqueries_append, List.flatMap_cons,
      List.append_assoc]

/-- Merging bounds leaves subqueries alone. -/
theorem subqueries_merged (f : CompiledFilter) : f.merged.subqueries = f.subqueries := by
  have filtered : ∀ ps : List Predicate, ps.filter Predicate.isSubquery =
      ps.flatMap fun p => if p.isSubquery then [p] else [] := by
    intro ps
    induction ps with
    | nil => rfl
    | cons p rest ih => cases sub : p.isSubquery <;> simp [sub, ih]
  unfold subqueries merged
  rw [filtered, filtered]
  exact mergeBounds_flatMap (fun _ _ _ => rfl) fun _ _ _ => rfl

theorem subqueries_plainFilter {registry : Registry} {e : Entity} {label key : String}
    {value : Json} : (plainFilter registry e label key value).subqueries = [] := by
  unfold plainFilter
  cases valueColumn? registry e key with
  | none => rfl
  | some column =>
      refine List.filter_eq_nil_iff.mpr fun p member => ?_
      have tests := Predicate.tests_of_mem_ofValue member
      cases p with
      | subquery => cases tests
      | _ => simp [Predicate.isSubquery]

end CompiledFilter

/-! ## Answers -/

section Answers

variable {registry : Registry} {e : Entity} {label key : String}

/-- What validation assures of an entity: all of its relations are connected. -/
def Entity.IsConnected (registry : Registry) (e : Entity) : Prop :=
  ∀ f ∈ e.fields, ∀ r, f.relation = some r → registry.Connects e r

/-- A value that is read as a plain one is no inquiry. -/
theorem inquiriesOfMember_plain {value : Json} (connected : e.IsConnected registry)
    (plain : IsPlain registry e key value) : inquiriesOfMember e key value = [] := by
  cases value with
  | arr items => rw [inquiriesOfMember, if_neg plain.1]
  | obj members =>
      rw [inquiriesOfMember, Option.toList_eq_nil_iff, inquiry?]
      rcases plain with unlinked | operators
      · rw [ite_eq_left_iff]
        intro _
        cases named : namedField? e key with
        | none => rfl
        | some f =>
            cases related : f.relation with
            | none => simp [related]
            | some r =>
                obtain ⟨link, found, -⟩ := connected f (mem_of_namedField? named) r related
                simp [namedLink?, named, related, found] at unlinked
      · exact if_pos operators
  | _ => rfl

/-- An object that is followed over a link is one inquiry. -/
theorem inquiriesOfMember_traverses {members : List (String × Json)} {link : Link}
    (traverses : Traverses registry e key members link) : ∃ f, f.name = key ∧
      inquiriesOfMember e key (.obj members) = [⟨f, link.relation, members⟩] := by
  obtain ⟨linked, read⟩ := traverses
  obtain ⟨f, named, linked⟩ := Option.bind_eq_some_iff.mp linked
  obtain ⟨r, related, found⟩ := Option.bind_eq_some_iff.mp linked
  refine ⟨f, ?_, ?_⟩
  · unfold namedField? at named
    split at named
    · cases named
    · simpa using List.find?_some named
  · simp [inquiriesOfMember, inquiry?, read, named, related, relation_of_link? found]

/-- A link that is not lost answers the inquiry that it is followed for. -/
theorem answers_traversal {members : List (String × Json)} {link : Link} {selection : Selection}
    {filter : Predicate} (traverses : Traverses registry e key members link)
    (compiles : MemberCompiles registry e label key (.obj members)
      ⟨[.subquery ⟨label, link.localColumn⟩ selection filter], []⟩) :
    List.Forall₂ (Inquiry.AnsweredBy registry e label) (inquiriesOfMember e key (.obj members))
      [.subquery ⟨label, link.localColumn⟩ selection filter] := by
  obtain ⟨f, rfl, inquired⟩ := inquiriesOfMember_traverses traverses
  have declared := isDeclared_of_namedLink? traverses.1
  rw [inquired]
  exact .cons ⟨⟨_, _, _, declared.localColumn, rfl⟩, compiles⟩ .nil

mutual

/-- Where all relations are connected, each inquiry of an object has its answer. -/
theorem MembersCompile.answers (connected : e.IsConnected registry) :
    ∀ {members : List (String × Json)} {f : CompiledFilter},
      MembersCompile registry e label members f →
        List.Forall₂ (Inquiry.AnsweredBy registry e label) (inquiriesOfMembers e members)
          f.subqueries
  | _, _, .nil => .nil
  | _, _, .cons first others => by
      rw [inquiriesOfMembers, CompiledFilter.subqueries_append]
      exact List.rel_append (first.answers connected) (others.answers connected)

theorem MemberCompiles.answers (connected : e.IsConnected registry) :
    ∀ {key : String} {value : Json} {f : CompiledFilter},
      MemberCompiles registry e label key value f →
        List.Forall₂ (Inquiry.AnsweredBy registry e label) (inquiriesOfMember e key value)
          f.subqueries
  | _, _, _, .conjunction items => by
      rw [inquiriesOfMember, if_pos rfl, CompiledFilter.subqueries_foldl]
      exact items.answers connected
  | _, _, _, .disjunction _ => by
      rw [inquiriesOfMember, if_neg (by decide)]
      exact .nil
  | _, _, _, .plain plain => by
      rw [inquiriesOfMember_plain connected plain, CompiledFilter.subqueries_plainFilter]
      exact .nil
  | _, _, _, .unjoined traverses kind unjoined => by
      obtain ⟨f, member, related⟩ := (isDeclared_of_namedLink? traverses.1).relation
      obtain ⟨-, -, joined⟩ := connected f member _ related
      exact absurd unjoined (joined kind)
  | _, _, _, .direct traverses kind inner =>
      answers_traversal traverses (.direct traverses kind inner)
  | _, _, _, .joined traverses kind join inner =>
      answers_traversal traverses (.joined traverses kind join inner)

theorem ItemsCompile.answers (connected : e.IsConnected registry) :
    ∀ {items : List Json} {fs : List CompiledFilter}, ItemsCompile registry e label items fs →
      List.Forall₂ (Inquiry.AnsweredBy registry e label) (inquiriesOfItems e items)
        (fs.flatMap CompiledFilter.subqueries)
  | _, _, .nil => .nil
  | _, _, .object first others => by
      rw [inquiriesOfItems, List.flatMap_cons, CompiledFilter.subqueries_merged]
      exact List.rel_append (first.answers connected) (others.answers connected)
  | item :: _, _, .other flat others => by
      cases item with
      | obj members => cases flat
      | _ => exact others.answers connected

end

end Answers

/-! ## What becomes of relations -/

namespace Registry

/-- Compilation loses no relation of an entity: it finds whatever a relation names, an object given
to one is an inquiry, and a filter that nests within the limit compiles to a subquery for each of
its inquiries, at the outermost level as at any other. -/
structure KeepsRelations (registry : Registry) (e : Entity) : Prop where
  resolves : ∀ f ∈ e.fields, ∀ r, f.relation = some r → ∀ (level : Level) (count : Nat),
    level.entity = e → ∃ resolved aliases, resolveRelation? registry level r = some resolved ∧
      registry.find? r.target = some resolved.target ∧ resolved.aliases? count = some aliases
  inquires : ∀ f ∈ e.fields, ∀ r, f.relation = some r →
    "$".toList.isPrefixOf f.name.toList = false → ∀ members, addressesKey members = false →
      inquiriesOfMember e f.name (.obj members) = [⟨f, r, members⟩]
  answers : ∀ (level : Level) (count limit : Nat) (members : List (String × Json)),
    level.entity = e → level.depth + depthOfMembers registry e members ≤ limit →
      ∃ f n, compileMembers ⟨registry, limit⟩ level count members = .ok (f, n) ∧
        List.Forall₂ (Inquiry.AnsweredBy registry e level.label) (inquiriesOfMembers e members)
          f.merged.subqueries
  compiles : ∀ (limit : Nat) (members : List (String × Json)),
    depthOfMembers registry e members ≤ limit →
      ∃ f, compile registry limit e (.obj members) = .ok f ∧
        List.Forall₂ (Inquiry.AnsweredBy registry e e.table) (inquiriesOfMembers e members)
          f.subqueries

/-- Compilation drops every object given to a field, unless it holds operators. -/
def Loses (registry : Registry) (e : Entity) (f : Field) : Prop :=
  ∀ (level : Level) (count limit : Nat) (members : List (String × Json)), level.entity = e →
    addressesKey members = false →
      compileMember ⟨registry, limit⟩ level count (memberRole registry level f.name)
        (.obj members) = .ok (∅, count)

variable {registry : Registry} {e : Entity} {f : Field} {r : Relation}

theorem Connects.resolves {level : Level} (connects : registry.Connects level.entity r)
    (member : f ∈ level.entity.fields) (related : f.relation = some r) (count : Nat) :
    ∃ resolved aliases, resolveRelation? registry level r = some resolved ∧
      registry.find? r.target = some resolved.target ∧
        resolved.aliases? count = some aliases := by
  obtain ⟨link, found, joined⟩ := connects
  have same : link.relation = r := relation_of_link? found
  have target : registry.find? link.relation.target = some link.target :=
    (isDeclared_of_link? member related found).target
  rw [same] at target
  cases named : (link.resolved level.label).aliases? count with
  | none =>
      obtain ⟨kind, unjoined⟩ := Link.aliases?_eq_none_iff.mp named
      rw [same] at kind unjoined
      exact absurd unjoined (joined kind)
  | some aliases =>
      have resolved : resolveRelation? registry level r = some (link.resolved level.label) := by
        rw [resolveRelation?_eq, found, Option.map_some]
      exact ⟨link.resolved level.label, aliases, resolved, target, named⟩

theorem namedField?_of_mem (member : f ∈ e.fields)
    (plain : "$".toList.isPrefixOf f.name.toList = false) : namedField? e f.name = some f := by
  rw [namedField?, plain, if_neg Bool.false_ne_true]
  exact Entity.field?_eq_some_iff.mpr ⟨member, rfl⟩

/-- Compilation loses no relation of an entity all of whose relations are connected. -/
theorem keepsRelations_of_isConnected (connected : e.IsConnected registry) :
    registry.KeepsRelations e where
  resolves f member r related level count here := by
    subst here
    exact (connected f member r related).resolves member related count
  inquires f member r related plain members read := by
    simp [inquiriesOfMember, inquiry?, read, namedField?_of_mem member plain, related]
  answers level count limit members here fits := by
    subst here
    have within : level.depth ≤ limit := Nat.le_of_add_right_le fits
    obtain ⟨⟨f, n⟩, compiled, -⟩ :=
      (members_limited (Nat.le_refl limit) members within).within fits
    refine ⟨f, n, compiled, ?_⟩
    rw [CompiledFilter.subqueries_merged]
    exact (members_derivation members compiled).answers connected
  compiles limit members fits := by
    obtain ⟨f, compiled, -⟩ := (object_limited (Nat.le_refl limit) e members).within fits
    refine ⟨f, compiled, ?_⟩
    rcases compile_derivation compiled with ⟨null, -⟩ | ⟨_, g, object, rfl, derived⟩
    · cases null
    · obtain rfl := Json.obj.inj object
      rw [CompiledFilter.subqueries_merged]
      exact derived.answers connected

/-- Compilation drops what a relation that is not connected is given. -/
theorem loses_of_not_connects (member : f ∈ e.fields) (related : f.relation = some r)
    (lost : ¬ registry.Connects e r) : registry.Loses e f := by
  intro level count limit members here read
  subst here
  have named : level.entity.field? f.name = some f := Entity.field?_eq_some_iff.mpr ⟨member, rfl⟩
  unfold memberRole
  split
  · rfl
  split
  · rfl
  split
  · rfl
  rw [fieldRole, named]
  simp only [related, resolveRelation?_eq]
  cases found : link? registry level.entity r with
  | none => rfl
  | some link =>
      have same : link.relation = r := relation_of_link? found
      have unnamed : (link.resolved level.label).aliases? count = none := by
        rw [Link.aliases?_eq_none_iff, same]
        by_contra joined
        exact lost ⟨link, found, fun kind unjoined => joined ⟨kind, unjoined⟩⟩
      simp only [Option.map_some, compileMember, holdsOperators_eq, read, unnamed]
      rfl

/-- If a registry is validated, compilation loses no relation of its entities: each object that a
filter gives to one has its own subquery beside whatever else the filter asks for. If it is not,
then compilation drops whatever objects a relation of one of its entities is given. -/
theorem validation_keeps_relations :
    (registry.validate = .ok () → ∀ name e, registry.find? name = some e →
      registry.KeepsRelations e) ∧
    ∀ fault, registry.validate = .error fault → ∃ name e f r, registry.find? name = some e ∧
      f ∈ e.fields ∧ f.relation = some r ∧ registry.Loses e f := by
  constructor
  · intro valid name e found
    exact keepsRelations_of_isConnected (validate_eq_ok_iff.mp valid name e found)
  · intro fault refused
    by_contra kept
    have valid : registry.validate = .ok () := by
      refine validate_eq_ok_iff.mpr fun name e found f member r related => ?_
      by_contra lost
      exact kept ⟨name, e, f, r, found, member, related,
        loses_of_not_connects member related lost⟩
    rw [valid] at refused
    cases refused

end Registry

namespace Staff

/-- People with deputies as well, whose key would be the manager; but no column holds that. -/
def deputized : Entity where
  name := "person"
  table := "staff_1"
  unrestricted := false
  fields := people.fields ++
    [⟨"deputy", "deputy", [], some (.ownedReference "person" "manager")⟩]
  wellTagged := ⟨by decide, by decide, by decide⟩

def strays : Registry := ⟨.ofList [("person", deputized)]⟩

end Staff

open Staff in
/-- Both ways back to the same table are kept, and the way over a key without a column is lost. -/
theorem ways_back_kept : registry.validate = .ok () ∧ registry.KeepsRelations people ∧
    strays.validate = .error (.unknownKey "person" "deputy" "manager") ∧
    ∃ name e f r, strays.find? name = some e ∧ f ∈ e.fields ∧ f.relation = some r ∧
      strays.Loses e f := by
  have valid : registry.validate = .ok () := rfl
  have refused : strays.validate = .error (.unknownKey "person" "deputy" "manager") := rfl
  exact ⟨valid, Registry.validation_keeps_relations.1 valid "person" people rfl, refused,
    Registry.validation_keeps_relations.2 _ refused⟩

end ScopedAccess
