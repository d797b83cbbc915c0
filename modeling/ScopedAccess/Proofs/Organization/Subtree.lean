import ScopedAccess.Proofs.Fallible
import ScopedAccess.Proofs.Identifier
import ScopedAccess.Proofs.Organization.Forest
import ScopedAccess.Proofs.Sorted.Scan
/-!
# What the index of a tree answers

The path of an organization is its lineage, written with one block of fixed width for each
organization in it. So a path starts with another just where the lineage does, and that is where
the organization is under the other: a scan of the paths from one on finds the subtree.

* `build_isOk_iff`: an index is built of the organizations of a forest;
* `Holds.expand_ok`: a range is expanded to the organizations that it covers;
* `subtree_exact`: the organizations of a subtree, in the order of their paths.
-/

namespace ScopedAccess

set_option autoImplicit false

/-- Whether a range in one organization covers another. -/
def ParentLinks.Covers (links : ParentLinks) (range : DataRange) (org x : Uuid) : Prop :=
  match range with
  | .personal => False
  | .current => x = org
  | .currentFollowing => links.Under x org

/-! ## Paths -/

/-- Of texts in blocks of one width, one starts with another where its blocks do. -/
theorem flatMap_prefix_iff {α β : Type} {f : α → List β} {width : Nat}
    (length : ∀ a, (f a).length = width) (positive : 0 < width)
    (injective : ∀ a b, f a = f b → a = b) {l l' : List α} :
    l.flatMap f <+: l'.flatMap f ↔ l <+: l' := by
  induction l generalizing l' with
  | nil => simp
  | cons a rest ih =>
      cases l' with
      | nil =>
          have long := length a
          have filled : f a ≠ [] := by
            intro empty
            rw [empty, List.length_nil] at long
            omega
          simp [filled]
      | cons b rest' =>
          rw [List.flatMap_cons, List.flatMap_cons, List.cons_prefix_cons]
          constructor
          · rintro ⟨tail, all⟩
            rw [List.append_assoc] at all
            obtain ⟨first, others⟩ := List.append_inj all ((length a).trans (length b).symm)
            exact ⟨injective a b first, ih.mp ⟨tail, others⟩⟩
          · rintro ⟨rfl, start⟩
            exact (List.prefix_append_right_inj _).mpr (ih.mpr start)

/-- A path starts with another where the lineage does. -/
theorem pathOfLineage_prefix_iff {ids ids' : List Uuid} :
    (pathOfLineage ids).toList <+: (pathOfLineage ids').toList ↔ ids <+: ids' := by
  have length : ∀ id : Uuid, (id.chars ++ ['/']).length = 37 := by simp [Uuid.chars_length]
  have injective : ∀ a b : Uuid, a.chars ++ ['/'] = b.chars ++ ['/'] → a = b :=
    fun a b same => Uuid.chars_inj.mp (List.append_cancel_right same)
  rw [pathOfLineage, pathOfLineage, String.toList_ofList, String.toList_ofList,
    List.prefix_cons_inj]
  exact flatMap_prefix_iff length (by decide) injective

theorem pathOfLineage_inj {ids ids' : List Uuid} (same : pathOfLineage ids = pathOfLineage ids') :
    ids = ids' := by
  have start : ids <+: ids' := pathOfLineage_prefix_iff.mp (same ▸ List.prefix_refl _)
  have start' : ids' <+: ids := pathOfLineage_prefix_iff.mp (same ▸ List.prefix_refl _)
  exact start.eq_of_length (Nat.le_antisymm start.length_le start'.length_le)

/-! ## Building -/

theorem contains_ofList {l : List (Uuid × Option Uuid)} {id : Uuid} :
    (SortedMap.ofList l).contains id = true ↔ id ∈ l.map Prod.fst := by
  suffices ∀ m : ParentLinks, (l.foldl (fun m e => m.insert e.1 e.2) m).contains id = true ↔
      id ∈ l.map Prod.fst ∨ m.contains id = true from (this ∅).trans (by simp [SortedMap.contains])
  intro m
  induction l generalizing m with
  | nil => simp
  | cons e rest ih =>
      rw [List.foldl_cons, ih, SortedMap.contains, SortedMap.find?_insert]
      by_cases same : id = e.1 <;> simp [same, SortedMap.contains]

/-- The links of a list are those of the organizations listed. -/
theorem contains_ofOrganizations {orgs : List Organization} {id : Uuid} :
    (ParentLinks.ofOrganizations orgs).contains id = true ↔ ∃ o ∈ orgs, o.id = id := by
  rw [ParentLinks.ofOrganizations, contains_ofList]
  simp

namespace OrgIndex

variable {links : ParentLinks} {index : OrgIndex}

/-- What an index knows: the listed organizations, by id and under their paths. -/
structure Holds (index : OrgIndex) (links : ParentLinks) (listed : List Uuid) : Prop where
  found : ∀ id ∈ listed, ∃ o, index.find? id = some o
  path : ∀ id o, index.find? id = some o →
    id ∈ listed ∧ ∃ ids, links.Lineage id ids ∧ o.path = pathOfLineage ids
  byPath : ∀ p id, index.byPath.find? p = some id ↔
    id ∈ listed ∧ ∃ ids, links.Lineage id ids ∧ p = pathOfLineage ids

theorem holds_empty : empty.Holds links [] where
  found := nofun
  path _ _ found := by cases found
  byPath _ _ := ⟨nofun, nofun⟩

theorem find?_add (o : Organization) (path : String) (id : Uuid) :
    (index.add o path).find? id = if id = o.id then some { o with path } else index.find? id :=
  SortedMap.find?_insert _ _ _ _

/-- To add an organization under its path. -/
theorem Holds.add {listed ids : List Uuid} {o : Organization} (holds : index.Holds links listed)
    (lineage : links.Lineage o.id ids) :
    (index.add o (pathOfLineage ids)).Holds links (listed ++ [o.id]) where
  found id member := by
    rw [find?_add]
    split
    · exact ⟨_, rfl⟩
    · rename_i other
      exact holds.found id ((List.mem_append.mp member).resolve_right (by simpa using other))
  path id o' found := by
    rw [find?_add] at found
    split at found
    · rename_i same
      subst same
      cases found
      exact ⟨List.mem_append_right _ List.mem_cons_self, ids, lineage, rfl⟩
    · obtain ⟨member, known⟩ := holds.path id o' found
      exact ⟨List.mem_append_left _ member, known⟩
  byPath p id := by
    rw [OrgIndex.add, SortedMap.find?_insert]
    split
    · rename_i here
      subst here
      constructor
      · rintro ⟨⟩
        exact ⟨List.mem_append_right _ List.mem_cons_self, ids, lineage, rfl⟩
      · rintro ⟨-, ids', lineage', same⟩
        obtain rfl := pathOfLineage_inj same
        exact congrArg some (Option.some.inj (lineage.getLast?.symm.trans lineage'.getLast?))
    · rename_i elsewhere
      rw [holds.byPath]
      constructor
      · rintro ⟨member, known⟩
        exact ⟨List.mem_append_left _ member, known⟩
      · rintro ⟨member, ids', lineage', rfl⟩
        refine ⟨(List.mem_append.mp member).resolve_right fun last => ?_, ids', lineage', rfl⟩
        obtain rfl := List.mem_singleton.mp last
        exact elsewhere (by rw [lineage'.unique lineage])

variable {orgs : List Organization}

/-- An index that has been built holds the listed organizations of a forest. -/
theorem build_ok (built : build orgs = .ok index) :
    (ParentLinks.ofOrganizations orgs).IsForest ∧
      index.Holds (ParentLinks.ofOrganizations orgs) (orgs.map Organization.id) := by
  have all := foldlM_induction (P := fun done index =>
      (∀ o ∈ done, ∃ ids, (ParentLinks.ofOrganizations orgs).lineage o.id = .ok ids) ∧
        index.Holds (ParentLinks.ofOrganizations orgs) (done.map Organization.id))
    built ⟨nofun, holds_empty⟩ ?_
  · refine ⟨ParentLinks.isForest_iff.mpr fun id listed => ?_, all.2⟩
    obtain ⟨o, member, rfl⟩ := contains_ofOrganizations.mp listed
    exact all.1 o member
  · rintro done o index index' member ⟨climbs, holds⟩ added
    have listed := contains_ofOrganizations.mpr ⟨o, member, rfl⟩
    obtain ⟨ids, climbed, added⟩ := exists_of_bind_eq_ok added
    cases added
    refine ⟨fun o' member' => ?_, ?_⟩
    · rcases List.mem_append.mp member' with earlier | last
      · exact climbs o' earlier
      · obtain rfl := List.mem_singleton.mp last
        exact ⟨ids, climbed⟩
    · rw [List.map_append]
      exact holds.add (ParentLinks.lineage_sound listed climbed)

/-- An index can be built of the organizations of a forest, and of no others. -/
theorem build_isOk_iff :
    (build orgs).isOk = true ↔ (ParentLinks.ofOrganizations orgs).IsForest := by
  constructor
  · intro ok
    obtain ⟨index, built⟩ := exists_of_isOk ok
    exact (build_ok built).1
  · intro forest
    obtain ⟨index, built⟩ : ∃ index, build orgs = .ok index := by
      refine exists_foldlM_ok (fun o member index => ?_) _
      obtain ⟨ids, climbed, -⟩ := forest.lineage_ok (contains_ofOrganizations.mpr ⟨o, member, rfl⟩)
      exact ⟨_, by rw [climbed]; rfl⟩
    rw [built]
    rfl

/-! ## Ranges -/

theorem mem_below {path : String} {x : Uuid} : x ∈ index.below path ↔
    ∃ p, index.byPath.find? p = some x ∧ path.toList <+: p.toList := by
  simp only [below, List.mem_map, SortedMap.mem_takeWhile_entriesFrom,
    SortedMap.find?_eq_some_iff]
  constructor
  · rintro ⟨⟨p, _⟩, ⟨entry, start⟩, rfl⟩
    exact ⟨p, entry, start⟩
  · rintro ⟨p, entry, start⟩
    exact ⟨(p, x), ⟨entry, start⟩, rfl⟩

/-- The organizations whose paths start with that of a listed one are those under it. -/
theorem Holds.mem_below_iff {listed : List Uuid} (holds : index.Holds links listed)
    (closed : ∀ id, links.contains id = true → id ∈ listed) {id x : Uuid} {o : Organization}
    (found : index.find? id = some o) : x ∈ index.below o.path ↔ links.Under x id := by
  obtain ⟨member, ids, lineage, path⟩ := holds.path id o found
  rw [mem_below, path]
  constructor
  · rintro ⟨p, known, start⟩
    obtain ⟨-, ids', lineage', rfl⟩ := (holds.byPath p x).mp known
    exact lineage'.under_of_prefix lineage (pathOfLineage_prefix_iff.mp start)
  · intro under
    have listed : x ∈ listed := by
      rcases Relation.ReflTransGen.cases_head under with rfl | ⟨parent, link, -⟩
      · exact member
      · exact closed x (ParentLinks.contains_of_hasParent link)
    obtain ⟨o', found'⟩ := holds.found x listed
    obtain ⟨-, ids', lineage', -⟩ := holds.path x o' found'
    obtain ⟨above, lineage'', start⟩ := lineage'.prefix_of_under under
    rw [lineage''.unique lineage] at start
    exact ⟨pathOfLineage ids', (holds.byPath _ x).mpr ⟨listed, ids', lineage', rfl⟩,
      pathOfLineage_prefix_iff.mpr start⟩

/-- A range in a listed organization is expanded to the organizations that it covers. -/
theorem Holds.expand_ok {listed : List Uuid} (holds : index.Holds links listed)
    (closed : ∀ id, links.contains id = true → id ∈ listed) {id : Uuid} (member : id ∈ listed)
    (range : DataRange) :
    ∃ orgs, index.expand id range = .ok orgs ∧ ∀ x, x ∈ orgs ↔ links.Covers range id x := by
  obtain ⟨o, found⟩ := holds.found id member
  cases range with
  | personal => exact ⟨∅, by rw [expand, found], fun x => by simp [ParentLinks.Covers]⟩
  | current => exact ⟨.ofList [id], by rw [expand, found], fun x => by simp [ParentLinks.Covers]⟩
  | currentFollowing =>
      refine ⟨.ofList (index.below o.path), by rw [expand, found], fun x => ?_⟩
      rw [SortedSet.mem_ofList]
      exact holds.mem_below_iff closed found

/-- No range is expanded in an organization that is not listed. -/
theorem Holds.expand_unknown {listed : List Uuid} (holds : index.Holds links listed) {id : Uuid}
    (unlisted : id ∉ listed) (range : DataRange) :
    index.expand id range = .error (.unknownOrganization id) := by
  cases found : index.find? id with
  | none => rw [expand, found]
  | some o => exact absurd (holds.path id o found).1 unlisted

/-- An index expands ranges over the tree of some links. -/
structure Expands (index : OrgIndex) (links : ParentLinks) : Prop where
  ok : ∀ id range, links.contains id = true →
    ∃ orgs, index.expand id range = .ok orgs ∧ ∀ x, x ∈ orgs ↔ links.Covers range id x
  unknown : ∀ id range, links.contains id = false → ∃ e, index.expand id range = .error e

theorem expands_of_build (built : build orgs = .ok index) :
    index.Expands (ParentLinks.ofOrganizations orgs) := by
  have holds := (build_ok built).2
  have listed_iff : ∀ id, id ∈ orgs.map Organization.id ↔
      (ParentLinks.ofOrganizations orgs).contains id = true := by
    intro id
    rw [contains_ofOrganizations, List.mem_map]
  constructor
  · intro id range listed
    exact holds.expand_ok (fun id => (listed_iff id).mpr) ((listed_iff id).mpr listed) range
  · intro id range unlisted
    refine ⟨_, holds.expand_unknown (fun member => ?_) range⟩
    rw [(listed_iff id).mp member] at unlisted
    cases unlisted

end OrgIndex

/-! ## Subtrees -/

namespace OrgIndex

/-- The path of an indexed organization is before that of another. -/
def PathBefore (index : OrgIndex) (x y : Uuid) : Prop :=
  ∃ a b, index.find? x = some a ∧ index.find? y = some b ∧ a.path < b.path

/-- The subtree of an organization: the indexed organizations under it, each once, in the order of
their paths. -/
structure IsSubtree (index : OrgIndex) (links : ParentLinks) (id : Uuid) (ids : List Uuid) :
    Prop where
  nodup : ids.Nodup
  ordered : ids.Pairwise index.PathBefore
  members : ∀ x, x ∈ ids ↔ (index.find? x).isSome = true ∧ links.Under x id

variable {links : ParentLinks} {index : OrgIndex} {listed : List Uuid} {x y : Uuid}
  {a b : Organization}

/-- An organization is indexed under its path and no other. -/
theorem Holds.byPath_iff (holds : index.Holds links listed) (found : index.find? x = some a)
    {p : String} : index.byPath.find? p = some x ↔ p = a.path := by
  obtain ⟨member, ids, lineage, path⟩ := holds.path x a found
  rw [holds.byPath, path]
  constructor
  · rintro ⟨-, ids', lineage', rfl⟩
    rw [lineage.unique lineage']
  · rintro rfl
    exact ⟨member, ids, lineage, rfl⟩

theorem PathBefore.ne (before : index.PathBefore x y) : x ≠ y := by
  rintro rfl
  obtain ⟨a, b, found, found', less⟩ := before
  rw [found] at found'
  cases found'
  exact Std.Irrefl.irrefl a.path less

/-- A scan finds organizations in the order of their paths. -/
theorem Holds.pairwise_below (holds : index.Holds links listed) (path : String) :
    (index.below path).Pairwise index.PathBefore := by
  have indexed : ∀ e ∈ index.byPath.entries, ∃ o, index.find? e.2 = some o ∧ o.path = e.1 := by
    intro e member
    have known : index.byPath.find? e.1 = some e.2 := SortedMap.find?_eq_some_iff.mpr member
    obtain ⟨o, found⟩ := holds.found e.2 ((holds.byPath e.1 e.2).mp known).1
    exact ⟨o, found, ((holds.byPath_iff found).mp known).symm⟩
  rw [below, List.pairwise_map]
  refine (SortedMap.sorted_entriesFrom.sublist (List.takeWhile_sublist _)).imp_of_mem
    fun {d e} member member' before => ?_
  obtain ⟨a, found, path⟩ := indexed d (SortedMap.mem_takeWhile_entriesFrom.mp member).1
  obtain ⟨b, found', path'⟩ := indexed e (SortedMap.mem_takeWhile_entriesFrom.mp member').1
  exact ⟨a, b, found, found', by rw [path, path']; exact before⟩

theorem Holds.isSubtree (holds : index.Holds links listed)
    (closed : ∀ id, links.contains id = true → id ∈ listed) (found : index.find? y = some b) :
    index.IsSubtree links y (index.below b.path) where
  nodup := (holds.pairwise_below b.path).imp PathBefore.ne
  ordered := holds.pairwise_below b.path
  members x := by
    rw [holds.mem_below_iff closed found]
    refine ⟨fun under => ⟨?_, under⟩, And.right⟩
    obtain ⟨p, known, -⟩ := mem_below.mp ((holds.mem_below_iff closed found).mpr under)
    obtain ⟨o, indexed⟩ := holds.found x ((holds.byPath p x).mp known).1
    rw [indexed]
    rfl

/-- Paths tell whether an organization is in the subtree of another. -/
theorem Holds.isWithin_iff (holds : index.Holds links listed) (found : index.find? x = some a)
    (found' : index.find? y = some b) : a.isWithin b = true ↔ x ∈ index.below b.path := by
  have filled : b.path.isEmpty = false := by
    obtain ⟨-, ids, -, path⟩ := holds.path y b found'
    simp [path, pathOfLineage]
  rw [mem_below, Organization.isWithin, Organization.pathWithin, filled, Bool.not_false,
    Bool.true_and, List.isPrefixOf_iff_prefix]
  constructor
  · intro start
    exact ⟨a.path, (holds.byPath_iff found).mpr rfl, start⟩
  · rintro ⟨p, known, start⟩
    rwa [(holds.byPath_iff found).mp known] at start

end OrgIndex

/-- An index answers for the organizations listed. The subtree of one of them is found in the
order of paths and holds those under it by the parent links; ranges expand to nothing, to the
organization or to its subtree, and in an organization that is not listed to an error. Of two
indexed organizations one is within the other, by their paths, where it is in its subtree. -/
theorem subtree_exact (orgs : List Organization) (index : OrgIndex)
    (built : OrgIndex.build orgs = .ok index) :
    (∀ id, (index.find? id).isSome = true ↔ ∃ o ∈ orgs, o.id = id) ∧
    (∀ id, (index.find? id).isSome = true → ∃ ids, index.subtree id = .ok ids ∧
      index.IsSubtree (.ofOrganizations orgs) id ids ∧
      index.expand id .personal = .ok ∅ ∧
      index.expand id .current = .ok (.ofList [id]) ∧
      index.expand id .currentFollowing = .ok (.ofList ids)) ∧
    (∀ id, (index.find? id).isSome = false →
      ∀ range, index.expand id range = .error (.unknownOrganization id)) ∧
    ∀ x y a b, index.find? x = some a → index.find? y = some b →
      (a.isWithin b = true ↔ ∃ ids, index.subtree y = .ok ids ∧ x ∈ ids) := by
  have holds := (OrgIndex.build_ok built).2
  have closed : ∀ id, (ParentLinks.ofOrganizations orgs).contains id = true →
      id ∈ orgs.map Organization.id := by
    intro id known
    simpa using contains_ofOrganizations.mp known
  refine ⟨fun id => ?_, fun id indexed => ?_, fun id unindexed range => ?_, ?_⟩
  · constructor
    · intro indexed
      obtain ⟨o, found⟩ := Option.isSome_iff_exists.mp indexed
      simpa using (holds.path id o found).1
    · intro listed
      obtain ⟨o, found⟩ := holds.found id (by simpa using listed)
      rw [found]
      rfl
  · obtain ⟨o, found⟩ := Option.isSome_iff_exists.mp indexed
    refine ⟨index.below o.path, ?_, holds.isSubtree closed found, ?_, ?_, ?_⟩
    · rw [OrgIndex.subtree, found]
    · rw [OrgIndex.expand, found]
    · rw [OrgIndex.expand, found]
    · rw [OrgIndex.expand, found]
  · have missing : index.find? id = none := by simpa using unindexed
    rw [OrgIndex.expand, missing]
  · intro x y a b found found'
    rw [holds.isWithin_iff found found', OrgIndex.subtree, found']
    constructor
    · intro member
      exact ⟨index.below b.path, rfl, member⟩
    · rintro ⟨ids, same, member⟩
      cases same
      exact member

namespace Notebook

def harbour : Uuid := .ofNat 80

def pier : Uuid := .ofNat 81

def yard : Uuid := .ofNat 82

/-- A harbour with a pier, and a yard that has moved from the harbour to the pier. -/
def port : List Organization :=
  [⟨yard, "yard", "Yard", some harbour, ""⟩, ⟨pier, "pier", "Pier", some harbour, "/"⟩,
    ⟨harbour, "harbour", "Harbour", none, ""⟩, ⟨yard, "yard", "Yard", some pier, ""⟩]

end Notebook

open Notebook in
/-- The yard is in the subtree of the pier, and the harbour is not. -/
theorem yard_below_pier :
    ∃ index, OrgIndex.build port = .ok index ∧ ∃ ids, index.subtree pier = .ok ids ∧
      index.expand pier .currentFollowing = .ok (.ofList ids) ∧ yard ∈ ids ∧ harbour ∉ ids := by
  have ok : (OrgIndex.build port).isOk = true := by decide +kernel
  obtain ⟨index, built⟩ := exists_of_isOk ok
  obtain ⟨indexed, subtrees, -, -⟩ := subtree_exact port index built
  have known : ∀ id ∈ port.map Organization.id, (index.find? id).isSome = true := by
    intro id member
    exact (indexed id).mpr (by simpa using member)
  obtain ⟨ids, found, subtree, -, -, expanded⟩ := subtrees pier (known pier (by decide +kernel))
  refine ⟨index, built, ids, found, expanded, ?_, fun member => ?_⟩
  · have link : (ParentLinks.ofOrganizations port).parent? yard = some pier := by decide +kernel
    exact (subtree.members yard).mpr ⟨known yard (by decide +kernel), .single link⟩
  · have top : (ParentLinks.ofOrganizations port).parent? harbour = none := by decide +kernel
    rcases ((subtree.members harbour).mp member).2.cases_head with same | ⟨parent, link, -⟩
    · exact absurd same (by decide +kernel)
    · rw [ParentLinks.HasParent, top] at link
      cases link

/-- A wider range covers what a narrower one does. -/
theorem ParentLinks.Covers.mono {links : ParentLinks} {narrow wide : DataRange} {org x : Uuid}
    (covers : links.Covers narrow org x) (wider : narrow ≤ wide) : links.Covers wide org x := by
  cases narrow with
  | personal => exact covers.elim
  | current =>
      obtain rfl : x = org := covers
      cases wide with
      | personal => exact absurd wider (by decide)
      | current => rfl
      | currentFollowing => exact .refl
  | currentFollowing =>
      cases wide with
      | personal | current => exact absurd wider (by decide)
      | currentFollowing => exact covers

end ScopedAccess
