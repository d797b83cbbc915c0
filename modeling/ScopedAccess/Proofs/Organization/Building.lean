import ScopedAccess.Proofs.Organization.Subtree
import Mathlib.Data.List.Induction
/-!
# Which lists have an index

Of several entries of a list with one id the last one counts (`lastOf?`), for the parent links
as for the index. Climbing the links comes to an end: at a root, at a link to what is not listed, or
at an organization passed before (`ParentLinks.Climbs`, which has no bound on the number of steps).
The bound of `ParentLinks.climb` is never reached, as it is larger than the number of organizations
that can be passed (`ParentLinks.climbs_lineage_iff`).

* `build_exact`: an index is built of a forest and of nothing else, it has each organization under
  the path of its lineage, and an error names what is wrong.
-/

namespace ScopedAccess

set_option autoImplicit false

variable {orgs : List Organization} {id : Uuid}

/-! ## The entry that counts -/

/-- The last entry of a list with an id. -/
def lastOf? (orgs : List Organization) (id : Uuid) : Option Organization :=
  (orgs.filter fun o => o.id = id).getLast?

theorem lastOf?_concat (orgs : List Organization) (o : Organization) (id : Uuid) :
    lastOf? (orgs ++ [o]) id = if id = o.id then some o else lastOf? orgs id := by
  rw [lastOf?, List.filter_append, List.getLast?_append]
  by_cases same : o.id = id
  · simp [same]
  · simp [same, Ne.symm same, lastOf?]

theorem ParentLinks.find?_ofOrganizations (orgs : List Organization) (id : Uuid) :
    (ParentLinks.ofOrganizations orgs).find? id =
      (lastOf? orgs id).map Organization.parent := by
  induction orgs using List.reverseRecOn with
  | nil => rfl
  | append_singleton orgs o ih =>
      have last : ParentLinks.ofOrganizations (orgs ++ [o]) =
          (ParentLinks.ofOrganizations orgs).insert o.id o.parent := by
        simp [ParentLinks.ofOrganizations, SortedMap.ofList]
      rw [last, SortedMap.find?_insert, lastOf?_concat]
      split
      · rfl
      · exact ih

/-! ## Climbing to the end -/

namespace ParentLinks

variable {links : ParentLinks} {current : Uuid} {below : List Uuid}
  {result : Except TreeError (List Uuid)}

/-- What climbing from an organization ends with, after some others have been passed. -/
inductive Climbs (links : ParentLinks) :
    Uuid → List Uuid → Except TreeError (List Uuid) → Prop
  | top {current : Uuid} {below : List Uuid} (top : links.parent? current = none) :
      Climbs links current below (.ok (current :: below))
  | unlisted {current parent : Uuid} {below : List Uuid} (link : links.HasParent current parent)
      (unlisted : links.contains parent = false) :
      Climbs links current below (.error (.danglingParent current parent))
  | passed {current parent : Uuid} {below : List Uuid} (link : links.HasParent current parent)
      (listed : links.contains parent = true) (passed : parent ∈ current :: below) :
      Climbs links current below (.error (.parentCycle parent))
  | up {current parent : Uuid} {below : List Uuid} {result : Except TreeError (List Uuid)}
      (link : links.HasParent current parent) (listed : links.contains parent = true)
      (fresh : parent ∉ current :: below) (climbs : Climbs links parent (current :: below) result) :
      Climbs links current below result

/-- With steps enough a climb goes to its end. -/
theorem Climbs.eq_climb {fuel : Nat} (climbs : links.Climbs current below result)
    (climbing : links.Climbing fuel current below) : links.climb fuel current below = result := by
  induction climbs generalizing fuel with
  | top top =>
      obtain ⟨fuel, rfl⟩ := Nat.exists_eq_add_one.mpr climbing.fuel_pos
      exact climb_of_top top
  | unlisted link unlisted =>
      obtain ⟨fuel, rfl⟩ := Nat.exists_eq_add_one.mpr climbing.fuel_pos
      exact climb_of_unlisted link unlisted
  | passed link listed passed =>
      obtain ⟨fuel, rfl⟩ := Nat.exists_eq_add_one.mpr climbing.fuel_pos
      exact climb_of_visited link listed passed
  | up link listed fresh _ ih =>
      obtain ⟨fuel, rfl⟩ := Nat.exists_eq_add_one.mpr climbing.fuel_pos
      rw [climb_of_fresh link listed fresh]
      exact ih (climbing.step link listed fresh)

theorem climbs_climb {fuel : Nat} (climbing : links.Climbing fuel current below) :
    links.Climbs current below (links.climb fuel current below) := by
  induction fuel generalizing current below with
  | zero => exact absurd climbing.fuel_pos (Nat.lt_irrefl 0)
  | succ fuel ih =>
      cases link : links.parent? current with
      | none =>
          rw [climb_of_top link]
          exact .top link
      | some parent =>
          cases listed : links.contains parent with
          | false =>
              rw [climb_of_unlisted link listed]
              exact .unlisted link listed
          | true =>
              by_cases visited : parent ∈ current :: below
              · rw [climb_of_visited link listed visited]
                exact .passed link listed visited
              · rw [climb_of_fresh link listed visited]
                exact .up link listed visited (ih (climbing.step link listed visited))

/-- Climbing from a listed organization comes to an end, which is what the lineage is. -/
theorem climbs_lineage_iff (listed : links.contains id = true) :
    links.Climbs id [] result ↔ links.lineage id = result := by
  have climbing := Climbing.start listed
  constructor
  · intro climbs
    exact climbs.eq_climb climbing
  · rintro rfl
    exact climbs_climb climbing

end ParentLinks

/-! ## Building -/

theorem toList_pathOfLineage (ids : List Uuid) : (pathOfLineage ids).toList =
    '/' :: ids.flatMap fun id => id.text.toList ++ ['/'] := by
  simp [pathOfLineage, Uuid.text]

namespace OrgIndex

variable {index : OrgIndex}

/-- An index has the last entry of each id, under the path of its lineage. -/
theorem find?_build (built : build orgs = .ok index) : ∀ id o, lastOf? orgs id = some o →
    ∃ ids, (ParentLinks.ofOrganizations orgs).Lineage id ids ∧
      index.find? id = some { o with path := pathOfLineage ids } := by
  refine foldlM_induction (P := fun done index => ∀ id o, lastOf? done id = some o →
    ∃ ids, (ParentLinks.ofOrganizations orgs).Lineage id ids ∧
      index.find? id = some { o with path := pathOfLineage ids }) built nofun ?_
  rintro done o index index' member indexed added id entry last
  obtain ⟨ids, climbed, added⟩ := exists_of_bind_eq_ok added
  cases added
  rw [lastOf?_concat] at last
  rw [find?_add]
  split at last
  · rename_i here
    subst here
    cases last
    have listed := contains_ofOrganizations.mpr ⟨o, member, rfl⟩
    exact ⟨ids, ParentLinks.lineage_sound listed climbed, by rw [if_pos rfl]⟩
  · rename_i elsewhere
    rw [if_neg elsewhere]
    exact indexed id entry last

theorem find?_build_eq_none_iff (built : build orgs = .ok index) :
    index.find? id = none ↔ ∀ o ∈ orgs, o.id ≠ id := by
  have holds := (build_ok built).2
  constructor
  · rintro missing o member rfl
    obtain ⟨o', found⟩ := holds.found o.id (List.mem_map_of_mem member)
    rw [missing] at found
    cases found
  · intro unlisted
    cases found : index.find? id with
    | none => rfl
    | some o =>
        obtain ⟨o', member, same⟩ := List.mem_map.mp (holds.path id o found).1
        exact absurd same (unlisted o' member)

/-- An error of building is one of climbing. -/
theorem explains_of_build_error {e : TreeError} (failed : build orgs = .error e) :
    (ParentLinks.ofOrganizations orgs).Explains e := by
  obtain ⟨o, member, index, step⟩ := exists_of_foldlM_error failed
  have listed := contains_ofOrganizations.mpr ⟨o, member, rfl⟩
  cases climbed : (ParentLinks.ofOrganizations orgs).lineage o.id with
  | ok ids =>
      rw [climbed] at step
      cases step
  | error e' =>
      rw [climbed] at step
      cases step
      exact ParentLinks.explains_of_lineage_error listed climbed

end OrgIndex

/-- An index is built of the lists whose parent links make a forest, and of no others; the last
entry of an id is the one that counts. Climbing from each listed organization comes to an end. An
index has each organization under the path of the organizations from its root down to it, whatever
its path was before. Without an index an error names a link to an organization that is not listed,
or an organization that is above itself. -/
theorem build_exact (orgs : List Organization) :
    let links := ParentLinks.ofOrganizations orgs
    (∀ id, links.parent? id = (lastOf? orgs id).bind Organization.parent) ∧
    (∀ o ∈ orgs, ∀ result, links.Climbs o.id [] result ↔ links.lineage o.id = result) ∧
    ((∃ index, OrgIndex.build orgs = .ok index) ↔
      (∀ id parent, links.HasParent id parent → ∃ o ∈ orgs, o.id = parent) ∧
        ∀ id, ¬ links.Below id id) ∧
    (∀ index, OrgIndex.build orgs = .ok index →
      (∀ id, index.find? id = none ↔ ∀ o ∈ orgs, o.id ≠ id) ∧
      (∀ id o, lastOf? orgs id = some o → ∃ ids path, links.Lineage id ids ∧
        index.find? id = some { o with path } ∧
        path.toList = '/' :: ids.flatMap fun id => id.text.toList ++ ['/']) ∧
      ∀ path id, index.byPath.find? path = some id ↔
        ∃ o, index.find? id = some o ∧ o.path = path) ∧
    (∀ org parent, OrgIndex.build orgs = .error (.danglingParent org parent) →
      links.HasParent org parent ∧ ∀ o ∈ orgs, o.id ≠ parent) ∧
    (∀ id, OrgIndex.build orgs = .error (.parentCycle id) → links.Below id id) ∧
    ∀ id, OrgIndex.build orgs ≠ .error (.unknownOrganization id) := by
  have unlisted_iff : ∀ id, (ParentLinks.ofOrganizations orgs).contains id = false ↔
      ∀ o ∈ orgs, o.id ≠ id := by
    intro id
    rw [← Bool.not_eq_true, contains_ofOrganizations]
    push Not
    rfl
  refine ⟨fun id => ?_, fun o member result => ?_, ?_, fun index built => ⟨fun id => ?_, ?_, ?_⟩,
    fun org parent failed => ?_, fun id failed => OrgIndex.explains_of_build_error failed,
    fun id failed => OrgIndex.explains_of_build_error failed⟩
  · rw [ParentLinks.parent?, ParentLinks.find?_ofOrganizations]
    cases lastOf? orgs id <;> rfl
  · exact ParentLinks.climbs_lineage_iff (contains_ofOrganizations.mpr ⟨o, member, rfl⟩)
  · constructor
    · rintro ⟨index, built⟩
      have forest := (OrgIndex.build_ok built).1
      refine ⟨fun id parent link => ?_, forest.acyclic⟩
      exact contains_ofOrganizations.mp (forest.closed id parent link)
    · rintro ⟨closed, acyclic⟩
      refine exists_of_isOk (OrgIndex.build_isOk_iff.mpr ⟨fun id parent link => ?_, acyclic⟩)
      exact contains_ofOrganizations.mpr (closed id parent link)
  · rw [OrgIndex.find?_build_eq_none_iff built]
  · intro id o last
    obtain ⟨ids, lineage, found⟩ := OrgIndex.find?_build built id o last
    exact ⟨ids, pathOfLineage ids, lineage, found, toList_pathOfLineage ids⟩
  · intro path id
    have holds := (OrgIndex.build_ok built).2
    constructor
    · intro known
      obtain ⟨o, found⟩ := holds.found id ((holds.byPath path id).mp known).1
      exact ⟨o, found, ((holds.byPath_iff found).mp known).symm⟩
    · rintro ⟨o, found, rfl⟩
      exact (holds.byPath_iff found).mpr rfl
  · obtain ⟨link, unlisted⟩ := OrgIndex.explains_of_build_error failed
    exact ⟨link, (unlisted_iff parent).mp unlisted⟩

open Notebook in
/-- The yard is indexed under the path of the harbour, the pier and itself: where it is now. -/
theorem yard_under_pier_indexed : ∃ index o, OrgIndex.build port = .ok index ∧
    index.find? yard = some o ∧
    o.path.toList = '/' :: [harbour, pier, yard].flatMap fun id => id.text.toList ++ ['/'] := by
  obtain ⟨-, -, -, ok, -⟩ := build_exact port
  obtain ⟨index, built⟩ := exists_of_isOk (x := OrgIndex.build port) (by decide +kernel)
  have last : lastOf? port yard = some ⟨yard, "yard", "Yard", some pier, ""⟩ := by
    decide +kernel
  obtain ⟨ids, path, lineage, found, text⟩ := (ok index built).2.1 yard _ last
  have lineage' : (ParentLinks.ofOrganizations port).Lineage yard [harbour, pier, yard] := by
    have up : (ParentLinks.ofOrganizations port).HasParent yard pier := by
      rw [ParentLinks.HasParent]
      decide +kernel
    have up' : (ParentLinks.ofOrganizations port).HasParent pier harbour := by
      rw [ParentLinks.HasParent]
      decide +kernel
    exact .child up (.child up' (.root (by decide +kernel)))
  rw [lineage.unique lineage'] at text
  exact ⟨index, _, built, found, text⟩

end ScopedAccess
