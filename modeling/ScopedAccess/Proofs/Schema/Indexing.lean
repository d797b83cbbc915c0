import ScopedAccess.Proofs.Filter.Links
import Mathlib.Data.List.Nodup
import Mathlib.Data.List.Pairwise
/-!
# Which descriptors describe entities

A descriptor is refused for one of four faults (`EntityDescriptor.Faulty`): two fields have one
name, two fields share a singular tag, a field repeats one, or no field is the primary key. The
third is no fault of the description, which says nothing that it would not say without the
repetition; but it is reported as if the tag were on more than one field
(`repeated_tag_refused`).

* `Faulty.of_error`: a descriptor is refused for a fault that it has.
* `ofDescriptor_exact`: which descriptors are accepted, and how their fields are found.
-/

namespace ScopedAccess

set_option autoImplicit false

/-! ## Faults -/

namespace EntityDescriptor

/-- Two different fields carry a tag. -/
def Shares (d : EntityDescriptor) (tag : FieldTag) : Prop :=
  ∃ f g, [f, g].Sublist d.fields ∧ tag ∈ f.tags ∧ tag ∈ g.tags

/-- A field lists a tag more than once. -/
def Repeats (d : EntityDescriptor) (tag : FieldTag) : Prop :=
  ∃ f ∈ d.fields, 1 < f.tags.count tag

/-- What a descriptor can be refused for. -/
inductive Faulty (d : EntityDescriptor) : SchemaError → Prop
  | named {f g : FieldDescriptor} : [f, g].Sublist d.fields → f.name = g.name →
      Faulty d (.duplicateField d.name g.name)
  | shared {tag : FieldTag} : tag.isSingular = true → d.Shares tag →
      Faulty d (.duplicateTag d.name tag)
  | repeated {tag : FieldTag} : tag.isSingular = true → d.Repeats tag →
      Faulty d (.duplicateTag d.name tag)
  | unkeyed : (∀ f ∈ d.fields, .primaryKey ∉ f.tags) → Faulty d (.missingPrimaryKey d.name)

end EntityDescriptor

section Lists

variable {α : Type} {a : α} {before rest l : List α}

/-- What is in the first of two lists comes before what the second starts with. -/
theorem pair_sublist_of_mem {b : α} (member : a ∈ before) (all : before ++ b :: rest = l) :
    [a, b].Sublist l := by
  have first : [a].Sublist before := List.singleton_sublist.mpr member
  exact all ▸ first.append (List.sublist_append_left [b] rest)

end Lists

/-- A tag that is found repeated has been seen, or is in the list more than once. -/
theorem Entity.mem_of_repeatedTag? {seen tags : List FieldTag} {tag : FieldTag}
    (found : repeatedTag? seen tags = some tag) :
    tag ∈ tags ∧ (tag ∈ seen ∨ 1 < tags.count tag) := by
  induction tags generalizing seen with
  | nil => cases found
  | cons first rest ih =>
      rw [repeatedTag?] at found
      split at found
      · obtain rfl := Option.some.inj found
        rename_i before
        exact ⟨.head _, .inl before⟩
      · obtain ⟨later, before | more⟩ := ih found
        · refine ⟨.tail _ later, ?_⟩
          rcases List.mem_append.mp before with before | same
          · exact .inl before
          · obtain rfl := List.mem_singleton.mp same
            have again : 0 < rest.count tag := List.count_pos_iff.mpr later
            exact .inr (by rw [List.count_cons_self]; omega)
        · exact ⟨.tail _ later, .inr (Nat.lt_of_lt_of_le more List.count_le_count_cons)⟩

namespace EntityDescriptor.Faulty

variable {d : EntityDescriptor} {reason : SchemaError}

/-- What is found when some fields have been gone through is a fault. -/
theorem of_firstRepeat? {before rest : List FieldDescriptor} (all : before ++ rest = d.fields)
    (found : Entity.firstRepeat? d.name ((before.map Field.ofDescriptor).map Field.name)
      ((before.map Field.ofDescriptor).flatMap Field.singularTags)
      (rest.map Field.ofDescriptor) = some reason) : d.Faulty reason := by
  induction rest generalizing before with
  | nil => cases found
  | cons g rest ih =>
      have listed : g ∈ d.fields := all ▸ List.mem_append_right before (.head rest)
      rw [List.map_cons, Entity.firstRepeat?] at found
      split at found
      · rename_i named
        obtain rfl := Option.some.inj found
        simp only [List.map_map, List.mem_map, Function.comp_apply] at named
        obtain ⟨f, member, same⟩ := named
        exact .named (pair_sublist_of_mem member all) same
      split at found
      · rename_i tag again
        obtain rfl := Option.some.inj found
        obtain ⟨tagged, seen⟩ := Entity.mem_of_repeatedTag? again
        obtain ⟨tagged, singular⟩ := List.mem_filter.mp tagged
        rcases seen with seen | more
        · simp only [List.mem_flatMap, List.mem_map] at seen
          obtain ⟨_, ⟨f, member, rfl⟩, first⟩ := seen
          exact .shared singular ⟨f, g, pair_sublist_of_mem member all,
            (List.mem_filter.mp first).1, tagged⟩
        · rw [Field.singularTags, List.count_filter singular] at more
          exact .repeated singular ⟨g, listed, more⟩
      · have all : (before ++ [g]) ++ rest = d.fields := by simp [all]
        refine ih all ?_
        simpa using found

/-- A descriptor is refused for a fault that it has. -/
theorem of_error (refused : Entity.ofDescriptor d = .error reason) : d.Faulty reason := by
  unfold Entity.ofDescriptor at refused
  dsimp only at refused
  split at refused
  · rename_i found
    obtain rfl := Except.error.inj refused
    have all : [] ++ d.fields = d.fields := rfl
    exact of_firstRepeat? all found
  split at refused
  · cases refused
  · rename_i unkeyed
    obtain rfl := Except.error.inj refused
    refine .unkeyed fun f member tagged => unkeyed ?_
    rw [List.find?_isSome]
    exact ⟨_, List.mem_map_of_mem member, decide_eq_true tagged⟩

end EntityDescriptor.Faulty

/-! ## Entities of descriptors -/

namespace Entity

variable {d : EntityDescriptor} {e : Entity} {f g : Field} {tag : FieldTag}

/-- An entity has the fields that it is described to have. -/
theorem fields_of_ofDescriptor (made : ofDescriptor d = .ok e) :
    e.fields = d.fields.map Field.ofDescriptor := by
  unfold ofDescriptor at made
  dsimp only at made
  split at made
  · cases made
  split at made
  · obtain rfl := Except.ok.inj made
    rfl
  · cases made

theorem mem_singularTags (singular : tag.isSingular = true) : tag ∈ f.singularTags ↔ tag ∈ f.tags := by
  rw [Field.singularTags, List.mem_filter, and_iff_left singular]

/-- A singular tag is on one field at most. -/
theorem eq_of_tag (singular : tag.isSingular = true) (hf : f ∈ e.fields) (hg : g ∈ e.fields)
    (onF : tag ∈ f.tags) (onG : tag ∈ g.tags) : f = g := by
  by_contra different
  have apart := (List.nodup_flatMap.mp e.wellTagged.tags_nodup).2
  have : Std.Symm (Function.onFun List.Disjoint Field.singularTags) :=
    ⟨fun _ _ apart => List.disjoint_symm apart⟩
  have disjoint : f.singularTags.Disjoint g.singularTags := apart.forall hf hg different
  exact disjoint ((mem_singularTags singular).mpr onF) ((mem_singularTags singular).mpr onG)

/-- A singular tag is looked up as that of the one field that carries it. -/
theorem tagged?_eq_some_iff (singular : tag.isSingular = true) :
    e.tagged? tag = some f ↔ f ∈ e.fields ∧ tag ∈ f.tags := by
  rw [tagged?, if_pos singular]
  constructor
  · intro found
    exact ⟨List.mem_of_find?_eq_some found, by simpa [Field.hasTag] using List.find?_some found⟩
  · rintro ⟨member, tagged⟩
    cases found : e.fields.find? (·.hasTag tag) with
    | none => simpa [Field.hasTag, tagged] using List.find?_eq_none.mp found f member
    | some g =>
        have other : tag ∈ g.tags := by simpa [Field.hasTag] using List.find?_some found
        rw [eq_of_tag singular (List.mem_of_find?_eq_some found) member other tagged]

/-- An entity is described without a fault in its tags. -/
theorem not_shares_of_ofDescriptor (made : ofDescriptor d = .ok e)
    (singular : tag.isSingular = true) : ¬ d.Shares tag ∧ ¬ d.Repeats tag := by
  have distinct := e.wellTagged.tags_nodup
  rw [fields_of_ofDescriptor made, List.nodup_flatMap, List.forall_mem_map, List.pairwise_map]
    at distinct
  obtain ⟨each, apart⟩ := distinct
  constructor
  · rintro ⟨f, g, among, onF, onG⟩
    have disjoint := List.pairwise_iff_forall_sublist.mp apart among
    exact disjoint ((mem_singularTags singular).mpr onF) ((mem_singularTags singular).mpr onG)
  · rintro ⟨f, member, more⟩
    have once := List.nodup_iff_count_le_one.mp (each f member) tag
    rw [Field.singularTags, List.count_filter singular] at once
    exact absurd more (Nat.not_lt_of_le once)

/-- A descriptor is accepted if its fields have different names, none shares a singular tag with
another one or repeats one, and one is the primary key. A tag is reported as a duplicate only if
two fields share it or one repeats it. Names and singular tags are looked up as those of the
fields that have them. -/
theorem ofDescriptor_exact (d : EntityDescriptor) :
    ((∃ e, ofDescriptor d = .ok e) ↔ (d.fields.map FieldDescriptor.name).Nodup ∧
      (∀ tag : FieldTag, tag.isSingular = true → ¬ d.Shares tag ∧ ¬ d.Repeats tag) ∧
      ∃ f ∈ d.fields, .primaryKey ∈ f.tags) ∧
    (∀ name tag, ofDescriptor d = .error (.duplicateTag name tag) →
      name = d.name ∧ tag.isSingular = true ∧ (d.Shares tag ∨ d.Repeats tag)) ∧
    ∀ e, ofDescriptor d = .ok e →
      (∀ name f, e.field? name = some f ↔
        f ∈ d.fields.map Field.ofDescriptor ∧ f.name = name) ∧
      ∀ tag : FieldTag, tag.isSingular = true → ∀ f, e.tagged? tag = some f ↔
        f ∈ d.fields.map Field.ofDescriptor ∧ tag ∈ f.tags := by
  refine ⟨⟨?_, ?_⟩, ?_, ?_⟩
  · rintro ⟨e, made⟩
    have fields := fields_of_ofDescriptor made
    have names := e.wellTagged.names_nodup
    have keyed := e.wellTagged.keyed
    rw [fields] at names keyed
    rw [List.map_map] at names
    obtain ⟨_, described, tagged⟩ := List.find?_isSome.mp keyed
    obtain ⟨f, member, rfl⟩ := List.mem_map.mp described
    exact ⟨names, fun tag singular => not_shares_of_ofDescriptor made singular, f, member,
      of_decide_eq_true tagged⟩
  · rintro ⟨names, tags, f, member, keyed⟩
    cases made : ofDescriptor d with
    | ok e => exact ⟨e, rfl⟩
    | error reason =>
        exfalso
        cases EntityDescriptor.Faulty.of_error made with
        | named among same =>
            exact List.pairwise_iff_forall_sublist.mp (List.pairwise_map.mp names) among same
        | shared singular shares => exact (tags _ singular).1 shares
        | repeated singular repeats => exact (tags _ singular).2 repeats
        | unkeyed unkeyed => exact unkeyed f member keyed
  · intro name tag refused
    cases EntityDescriptor.Faulty.of_error refused with
    | shared singular shares => exact ⟨rfl, singular, .inl shares⟩
    | repeated singular repeats => exact ⟨rfl, singular, .inr repeats⟩
  · intro e made
    rw [← fields_of_ofDescriptor made]
    exact ⟨fun name f => field?_eq_some_iff, fun tag singular f => tagged?_eq_some_iff singular⟩

end Entity

/-! ## Letters -/

namespace Letters

/-- Letters have two secrets, and one of them says so twice. -/
def letter : EntityDescriptor where
  name := "letter"
  table := some "letters"
  unrestricted := false
  fields := [⟨"id", none, [.primaryKey], none⟩, ⟨"org", some "org_id", [.ownerOrg], none⟩,
    ⟨"body", none, [.secret, .secret], none⟩, ⟨"seal", none, [.secret], none⟩,
    ⟨"writer", some "writer_id", [.owner, .lastModifier], none⟩]

/-- Both its writer and its reader own a copy. -/
def copy : EntityDescriptor where
  name := "copy"
  table := none
  unrestricted := false
  fields := [⟨"id", none, [.primaryKey], none⟩, ⟨"writer", none, [.owner], none⟩,
    ⟨"reader", none, [.secret, .owner], none⟩]

/-- The only field of a stamp is the primary key, and says so twice. -/
def stamp : EntityDescriptor where
  name := "stamp"
  table := none
  unrestricted := false
  fields := [⟨"id", none, [.primaryKey, .primaryKey], none⟩]

end Letters

open Letters in
/-- Letters are accepted and have one writer, and copies are refused for having two owners. -/
theorem letters_accepted :
    (∃ e, Entity.ofDescriptor letter = .ok e ∧ ∀ f, e.tagged? .owner = some f ↔
      f ∈ letter.fields.map Field.ofDescriptor ∧ .owner ∈ f.tags) ∧
    Entity.ofDescriptor copy = .error (.duplicateTag "copy" .owner) ∧
      (copy.Shares .owner ∨ copy.Repeats .owner) := by
  obtain ⟨e, made⟩ : ∃ e, Entity.ofDescriptor letter = .ok e := ⟨_, rfl⟩
  have found := ((Entity.ofDescriptor_exact letter).2.2 e made).2 .owner rfl
  have refused : Entity.ofDescriptor copy = .error (.duplicateTag "copy" .owner) := rfl
  exact ⟨⟨e, made, found⟩, refused, ((Entity.ofDescriptor_exact copy).2.1 _ _ refused).2.2⟩

open Letters in
/-- No two fields of a stamp share a tag, but it is refused for a tag on more than one field. -/
theorem repeated_tag_refused : (stamp.fields.map FieldDescriptor.name).Nodup ∧
    (∀ tag, ¬ stamp.Shares tag) ∧ (∃ f ∈ stamp.fields, .primaryKey ∈ f.tags) ∧
    Entity.ofDescriptor stamp = .error (.duplicateTag "stamp" .primaryKey) ∧
    (SchemaError.duplicateTag "stamp" .primaryKey).message =
      "entity 'stamp' tags more than one field as PrimaryKey" := by
  refine ⟨by decide, ?_, ⟨_, .head _, .head _⟩, rfl, by decide⟩
  rintro tag ⟨f, g, among, -⟩
  have few : 2 ≤ 1 := among.length_le
  omega

end ScopedAccess
