import ScopedAccess.Organization.Index
import Mathlib.Data.List.Perm.Subperm
import Mathlib.Logic.Relation
/-!
# Trees of organizations

Parent links make a forest if every link leads to a listed organization and no organization is
above itself (`ParentLinks.IsForest`). In a forest each listed organization has a lineage, the
organizations from a root down to it, and climbing finds it: the organizations visited are
listed and pairwise different, so that there are steps enough for all of them.

* `climb_sound`: climbing gives the lineage, or an error that tells what is wrong;
* `isForest_iff`: the links are those of a forest if all listed organizations have a lineage.
-/

namespace ScopedAccess

set_option autoImplicit false

namespace ParentLinks

variable {links : ParentLinks}

/-- The parent of a listed organization. -/
def parent? (links : ParentLinks) (id : Uuid) : Option Uuid := (links.find? id).join

/-- An organization has another for its parent. -/
def HasParent (links : ParentLinks) (id parent : Uuid) : Prop := links.parent? id = some parent

/-- An organization is another or lies below it. -/
def Under (links : ParentLinks) : Uuid → Uuid → Prop := Relation.ReflTransGen links.HasParent

/-- An organization lies below another. -/
def Below (links : ParentLinks) : Uuid → Uuid → Prop := Relation.TransGen links.HasParent

/-- Every link leads to a listed organization, and no organization lies below itself. -/
structure IsForest (links : ParentLinks) : Prop where
  closed : ∀ id parent, links.HasParent id parent → links.contains parent = true
  acyclic : ∀ id, ¬ links.Below id id

/-- The organizations from a root down to one. -/
inductive Lineage (links : ParentLinks) : Uuid → List Uuid → Prop
  | root {id : Uuid} (top : links.parent? id = none) : Lineage links id [id]
  | child {id parent : Uuid} {ids : List Uuid} (link : links.HasParent id parent)
      (above : Lineage links parent ids) : Lineage links id (ids ++ [id])

/-- What an error says of the links. -/
def Explains (links : ParentLinks) : TreeError → Prop
  | .unknownOrganization _ => False
  | .danglingParent id parent => links.HasParent id parent ∧ links.contains parent = false
  | .parentCycle id => links.Below id id

theorem contains_of_hasParent {id parent : Uuid} (link : links.HasParent id parent) :
    links.contains id = true := by
  rw [HasParent, parent?, Option.join_eq_some_iff] at link
  rw [SortedMap.contains, link]
  rfl

theorem mem_keys_iff {id : Uuid} : id ∈ links.keys ↔ links.contains id = true := by
  rw [SortedMap.contains, Option.isSome_iff_exists, SortedMap.keys, List.mem_map]
  constructor
  · rintro ⟨⟨_, parent⟩, entry, rfl⟩
    exact ⟨parent, SortedMap.find?_eq_some_iff.mpr entry⟩
  · rintro ⟨parent, found⟩
    exact ⟨(id, parent), SortedMap.find?_eq_some_iff.mp found, rfl⟩

/-! ## Climbing -/

/-- Where a climb stands: the organizations visited are listed and pairwise different, and lie
below the current one; the steps left and those taken are more than there are links. -/
structure Climbing (links : ParentLinks) (fuel : Nat) (current : Uuid) (below : List Uuid) :
    Prop where
  listed : ∀ id ∈ current :: below, links.contains id = true
  nodup : (current :: below).Nodup
  chain : ∀ id ∈ below, links.Below id current
  enough : links.size < fuel + below.length

theorem Climbing.start {id : Uuid} (listed : links.contains id = true) :
    links.Climbing (links.size + 1) id [] where
  listed := by simpa using listed
  nodup := List.pairwise_singleton _ id
  chain := nofun
  enough := Nat.lt_succ_self _

/-- Steps are left as long as a climb goes on. -/
theorem Climbing.fuel_pos {fuel : Nat} {current : Uuid} {below : List Uuid}
    (climbing : links.Climbing fuel current below) : 0 < fuel := by
  have within : current :: below ⊆ links.keys :=
    fun id member => mem_keys_iff.mpr (climbing.listed id member)
  have few : (current :: below).length ≤ links.keys.length :=
    (List.subperm_of_subset climbing.nodup within).length_le
  have size : links.keys.length = links.size := List.length_map _
  have enough := climbing.enough
  rw [List.length_cons] at few
  omega

/-- A step to a listed parent that is not visited yet. -/
theorem Climbing.step {fuel : Nat} {current parent : Uuid} {below : List Uuid}
    (climbing : links.Climbing (fuel + 1) current below) (link : links.HasParent current parent)
    (listed : links.contains parent = true) (fresh : parent ∉ current :: below) :
    links.Climbing fuel parent (current :: below) where
  listed := List.forall_mem_cons.mpr ⟨listed, climbing.listed⟩
  nodup := List.nodup_cons.mpr ⟨fresh, climbing.nodup⟩
  chain := List.forall_mem_cons.mpr ⟨.single link, fun id member =>
    (climbing.chain id member).tail link⟩
  enough := by
    have enough := climbing.enough
    rw [List.length_cons]
    omega

section Steps

variable {fuel : Nat} {current parent : Uuid} {below : List Uuid}

theorem climb_of_top (top : links.parent? current = none) :
    links.climb (fuel + 1) current below = .ok (current :: below) := by
  rw [parent?] at top
  rw [climb, top]

theorem climb_of_unlisted (link : links.HasParent current parent)
    (unlisted : links.contains parent = false) :
    links.climb (fuel + 1) current below = .error (.danglingParent current parent) := by
  rw [HasParent, parent?] at link
  simp [climb, link, unlisted]

theorem climb_of_visited (link : links.HasParent current parent)
    (listed : links.contains parent = true) (visited : parent ∈ current :: below) :
    links.climb (fuel + 1) current below = .error (.parentCycle parent) := by
  rw [HasParent, parent?] at link
  rw [climb, link]
  simp only [listed, visited, Bool.not_true, Bool.false_eq_true, if_false, if_true]

theorem climb_of_fresh (link : links.HasParent current parent)
    (listed : links.contains parent = true) (fresh : parent ∉ current :: below) :
    links.climb (fuel + 1) current below = links.climb fuel parent (current :: below) := by
  rw [HasParent, parent?] at link
  rw [climb, link]
  simp only [listed, fresh, Bool.not_true, Bool.false_eq_true, if_false]

end Steps

/-- A climb gives the lineage of the current organization in front of those visited, or tells
what is wrong with the links. -/
theorem climb_sound {fuel : Nat} {current : Uuid} {below : List Uuid}
    (climbing : links.Climbing fuel current below) :
    match links.climb fuel current below with
    | .ok ids => ∃ above, links.Lineage current above ∧ ids = above ++ below
    | .error e => links.Explains e := by
  induction fuel generalizing current below with
  | zero => exact absurd climbing.fuel_pos (Nat.lt_irrefl 0)
  | succ fuel ih =>
      cases link : links.parent? current with
      | none =>
          rw [climb_of_top link]
          exact ⟨[current], .root link, rfl⟩
      | some parent =>
          cases listed : links.contains parent with
          | false =>
              rw [climb_of_unlisted link listed]
              exact ⟨link, listed⟩
          | true =>
              by_cases visited : parent ∈ current :: below
              · rw [climb_of_visited link listed visited]
                rcases List.mem_cons.mp visited with rfl | visited
                · exact .single link
                · exact (climbing.chain parent visited).tail link
              · rw [climb_of_fresh link listed visited]
                have climbed := ih (climbing.step link listed visited)
                split at climbed
                · obtain ⟨above, lineage, rfl⟩ := climbed
                  exact ⟨above ++ [current], .child link lineage, by simp⟩
                · exact climbed

/-- What climbing from a listed organization finds is its lineage. -/
theorem lineage_sound {id : Uuid} {ids : List Uuid} (listed : links.contains id = true)
    (climbed : links.lineage id = .ok ids) : links.Lineage id ids := by
  have sound := climb_sound (Climbing.start listed)
  rw [lineage] at climbed
  rw [climbed] at sound
  obtain ⟨above, lineage, rfl⟩ := sound
  rwa [List.append_nil]

/-- An error of climbing tells what is wrong with the links. -/
theorem explains_of_lineage_error {id : Uuid} {e : TreeError} (listed : links.contains id = true)
    (failed : links.lineage id = .error e) : links.Explains e := by
  have sound := climb_sound (Climbing.start listed)
  rw [lineage] at failed
  rwa [failed] at sound

/-! ## Forests -/

/-- Nothing is wrong with the links of a forest. -/
theorem IsForest.not_explains (forest : links.IsForest) (e : TreeError) : ¬ links.Explains e := by
  cases e with
  | unknownOrganization => exact id
  | danglingParent id parent =>
      rintro ⟨link, unlisted⟩
      rw [forest.closed id parent link] at unlisted
      cases unlisted
  | parentCycle id => exact forest.acyclic id

/-- A listed organization of a forest has a lineage, which climbing finds. -/
theorem IsForest.lineage_ok (forest : links.IsForest) {id : Uuid}
    (listed : links.contains id = true) :
    ∃ ids, links.lineage id = .ok ids ∧ links.Lineage id ids := by
  cases climbed : links.lineage id with
  | ok ids => exact ⟨ids, rfl, lineage_sound listed climbed⟩
  | error e => exact absurd (explains_of_lineage_error listed climbed) (forest.not_explains e)

/-- An organization has one lineage at most. -/
theorem Lineage.unique {id : Uuid} {ids ids' : List Uuid} (lineage : links.Lineage id ids)
    (lineage' : links.Lineage id ids') : ids = ids' := by
  induction lineage generalizing ids' with
  | root top =>
      cases lineage' with
      | root => rfl
      | child link => exact absurd (top.symm.trans link) (Option.some_ne_none _).symm
  | child link _ ih =>
      cases lineage' with
      | root top => exact absurd (top.symm.trans link) (Option.some_ne_none _).symm
      | child link' above' =>
          obtain rfl := Option.some.inj (link.symm.trans link')
          rw [ih above']

/-- The lineage of an organization starts with that of any other above it. -/
theorem Lineage.prefix_of_under {id ancestor : Uuid} {ids : List Uuid}
    (lineage : links.Lineage id ids) (under : links.Under id ancestor) :
    ∃ above, links.Lineage ancestor above ∧ above <+: ids := by
  induction under using Relation.ReflTransGen.head_induction_on generalizing ids with
  | refl => exact ⟨ids, lineage, List.prefix_rfl⟩
  | head link _ ih =>
      cases lineage with
      | root top => exact absurd (top.symm.trans link) (Option.some_ne_none _).symm
      | child link' above =>
          obtain rfl := Option.some.inj (link.symm.trans link')
          obtain ⟨first, lineage, start⟩ := ih above
          exact ⟨first, lineage, start.trans (List.prefix_append _ _)⟩

/-- A lineage ends with its organization. -/
theorem Lineage.getLast? {id : Uuid} {ids : List Uuid} (lineage : links.Lineage id ids) :
    ids.getLast? = some id := by
  cases lineage <;> simp

/-- An organization whose lineage starts with that of another is under it. -/
theorem Lineage.under_of_prefix {id ancestor : Uuid} {ids above : List Uuid}
    (lineage : links.Lineage id ids) (lineage' : links.Lineage ancestor above)
    (start : above <+: ids) : links.Under id ancestor := by
  have last := lineage'.getLast?
  induction lineage with
  | root top =>
      rcases List.prefix_cons_iff.mp start with rfl | ⟨rest, rfl, inner⟩
      · cases last
      · obtain rfl := List.prefix_nil.mp inner
        obtain rfl := Option.some.inj last
        exact .refl
  | child link _ ih =>
      rcases List.prefix_concat_iff.mp start with rfl | start
      · rw [List.getLast?_concat] at last
        obtain rfl := Option.some.inj last
        exact .refl
      · exact .head link (ih start)

/-- Lineages grow from an organization to those below it. -/
theorem Lineage.length_lt_of_below {id ancestor : Uuid} {ids : List Uuid}
    (lineage : links.Lineage id ids) (below : links.Below id ancestor) :
    ∃ above, links.Lineage ancestor above ∧ above.length < ids.length := by
  obtain ⟨parent, link, under⟩ := Relation.TransGen.head'_iff.mp below
  cases lineage with
  | root top => exact absurd (top.symm.trans link) (Option.some_ne_none _).symm
  | child link' above =>
      obtain rfl := Option.some.inj (link.symm.trans link')
      obtain ⟨first, lineage, start⟩ := above.prefix_of_under under
      have shorter := start.length_le
      exact ⟨first, lineage, by rw [List.length_append, List.length_singleton]; omega⟩

/-- A link from an organization that has been climbed from leads to a listed one. -/
theorem contains_of_lineage_ok {id parent : Uuid} {ids : List Uuid}
    (climbed : links.lineage id = .ok ids) (link : links.HasParent id parent) :
    links.contains parent = true := by
  cases listed : links.contains parent with
  | true => rfl
  | false =>
      rw [lineage, climb_of_unlisted link listed] at climbed
      cases climbed

/-- The links are those of a forest if one can climb from all listed organizations. -/
theorem isForest_iff : links.IsForest ↔
    ∀ id, links.contains id = true → ∃ ids, links.lineage id = .ok ids := by
  constructor
  · intro forest id listed
    obtain ⟨ids, climbed, -⟩ := forest.lineage_ok listed
    exact ⟨ids, climbed⟩
  · intro climbs
    refine ⟨fun id parent link => ?_, fun id cycle => ?_⟩
    · obtain ⟨ids, climbed⟩ := climbs id (contains_of_hasParent link)
      exact contains_of_lineage_ok climbed link
    · obtain ⟨parent, link, -⟩ := Relation.TransGen.head'_iff.mp cycle
      have listed := contains_of_hasParent link
      obtain ⟨ids, climbed⟩ := climbs id listed
      have lineage := lineage_sound listed climbed
      obtain ⟨above, lineage', shorter⟩ := lineage.length_lt_of_below cycle
      rw [lineage.unique lineage'] at shorter
      exact absurd shorter (Nat.lt_irrefl _)

end ParentLinks

end ScopedAccess
