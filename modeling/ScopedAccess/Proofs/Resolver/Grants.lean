import ScopedAccess.Proofs.Organization.Subtree
import ScopedAccess.Resolver.Grants
import Mathlib.Order.Bounds.Basic
/-!
# What roles grant together

Roles are folded to one range for each organization, and to one for each organization and
entity where they override it. Here is which ranges these are: the widest of those granted, for
reading and for writing by themselves (`Grants.Sums`). A wider range covers all that a narrower
one does, so the widest range covers what all of them do.

* `sums_ofRoles`: what roles are folded to;
* `privileges_ok`: what comes of it over the index of a tree.
-/

namespace ScopedAccess

set_option autoImplicit false

/-- What is done with the rows of an organization. -/
inductive Side where
  | reading
  | writing

/-! ## Ranges for reading and writing -/

def DataPrivilege.range (p : DataPrivilege) : Side → DataRange
  | .reading => p.readable
  | .writing => p.writable

def EntityOverride.range? (o : EntityOverride) : Side → Option DataRange
  | .reading => o.readable
  | .writing => o.writable

def Grant.range (g : Grant) : Side → DataRange
  | .reading => g.readable
  | .writing => g.writable

def OverrideGrant.range? (g : OverrideGrant) : Side → Option DataRange
  | .reading => g.readable
  | .writing => g.writable

def EntityScope.orgs (s : EntityScope) : Side → SortedSet Uuid
  | .reading => s.readable
  | .writing => s.writable

def Privileges.orgs (p : Privileges) : Side → SortedSet Uuid
  | .reading => p.readable
  | .writing => p.writable

/-- The ranges that privileges grant in an organization. -/
def grantedIn (ps : List DataPrivilege) (side : Side) (org : Uuid) : Set DataRange :=
  { range | ∃ p ∈ ps, p.organization = org ∧ p.range side = range }

theorem grantedIn_append (ps qs : List DataPrivilege) (side : Side) (org : Uuid) :
    grantedIn (ps ++ qs) side org = grantedIn ps side org ∪ grantedIn qs side org := by
  ext range
  simp [grantedIn, or_and_right, exists_or]

/-- The ranges that overrides of privileges set for an entity in an organization. -/
def setFor (ps : List DataPrivilege) (side : Side) (entity : String) (org : Uuid) :
    Set DataRange :=
  { range | ∃ p ∈ ps, p.organization = org ∧
    ∃ o ∈ p.overrides, o.entity = entity ∧ o.range? side = some range }

/-- The range in force for an entity in an organization: the widest that an override sets, or
the widest granted if none sets one. -/
def InForce (ps : List DataPrivilege) (side : Side) (entity : String) (org : Uuid)
    (range : DataRange) : Prop :=
  IsGreatest (setFor ps side entity org) range ∨
    setFor ps side entity org = ∅ ∧ IsGreatest (grantedIn ps side org) range

/-- Whether privileges have an override for an entity. -/
def Overrides (ps : List DataPrivilege) (entity : String) : Prop :=
  ∃ p ∈ ps, ∃ o ∈ p.overrides, o.entity = entity

/-! ## The widest range -/

namespace DataRange

instance : PartialOrder DataRange where
  le_refl _ := Nat.le_refl _
  le_trans _ _ _ := Nat.le_trans
  le_antisymm a b := by cases a <;> cases b <;> decide
  lt_iff_le_not_ge a b := by cases a <;> cases b <;> decide

theorem le_combine_left (a b : DataRange) : a ≤ a.combine b := by
  cases a <;> cases b <;> decide

theorem le_combine_right (a b : DataRange) : b ≤ a.combine b := by
  cases a <;> cases b <;> decide

theorem combine_eq (a b : DataRange) : a.combine b = a ∨ a.combine b = b := by
  cases a <;> cases b <;> decide

theorem personal_combine (a : DataRange) : personal.combine a = a := by
  cases a <;> decide

end DataRange

/-- A range that may not be set is the widest of some ranges, or not set if there are none. -/
def Tops : Option DataRange → Set DataRange → Prop
  | some range, ranges => IsGreatest ranges range
  | none, ranges => ranges = ∅

theorem tops_singleton (range : DataRange) : Tops (some range) {range} :=
  ⟨rfl, fun _ same => same ▸ le_rfl⟩

/-- The ranges that are set as one that may not be. -/
theorem tops_set (range? : Option DataRange) : Tops range? { range | range? = some range } := by
  cases range? with
  | none => exact Set.eq_empty_of_forall_notMem nofun
  | some range => exact ⟨rfl, fun _ same => Option.some.inj same ▸ le_rfl⟩

/-- The wider of the widest ranges is the widest of all. -/
theorem Tops.union {a b : Option DataRange} {s t : Set DataRange} (first : Tops a s)
    (second : Tops b t) : Tops (widerSet a b) (s ∪ t) := by
  cases a with
  | none =>
      obtain rfl : s = ∅ := first
      rwa [Set.empty_union]
  | some a =>
      cases b with
      | none =>
          obtain rfl : t = ∅ := second
          rwa [Set.union_empty]
      | some b =>
          constructor
          · rcases a.combine_eq b with same | same
            · exact .inl (same.symm ▸ first.1)
            · exact .inr (same.symm ▸ second.1)
          · rintro range (member | member)
            · exact le_trans (first.2 member) (a.le_combine_left b)
            · exact le_trans (second.2 member) (a.le_combine_right b)

/-! ## Folding -/

theorem range_widen (known : Option Grant) (p : DataPrivilege) (side : Side) :
    some (((known.getD .none).widen p).range side) =
      widerSet (known.map (·.range side)) (some (p.range side)) := by
  cases known <;> cases side <;>
    simp [Grant.widen, Grant.none, Grant.range, DataPrivilege.range, widerSet,
      DataRange.personal_combine]

theorem range?_widen (known : Option OverrideGrant) (o : EntityOverride) (side : Side) :
    ((known.getD .none).widen o).range? side =
      widerSet (known.bind (·.range? side)) (o.range? side) := by
  cases known <;> cases side <;> rfl

namespace Grants

/-- The range that overrides set for an entity in an organization. -/
def override? (g : Grants) (side : Side) (entity : String) (org : Uuid) : Option DataRange :=
  ((g.overrides.find? entity).bind (·.find? org)).bind (·.range? side)

/-- What has been folded: some permission codes, some privileges, and overrides each with the
organization of its privilege. -/
structure Sums (g : Grants) (codes : List String) (ps : List DataPrivilege)
    (os : List (Uuid × EntityOverride)) : Prop where
  permissions : ∀ code, code ∈ g.permissions ↔ code ∈ codes
  granted : ∀ side org, Tops ((g.byOrg.find? org).map (·.range side)) (grantedIn ps side org)
  overridden : ∀ entity, (g.overrides.find? entity).isSome = true ↔ ∃ o ∈ os, o.2.entity = entity
  set : ∀ side entity org, Tops (g.override? side entity org)
    { range | ∃ o ∈ os, o.1 = org ∧ o.2.entity = entity ∧ o.2.range? side = some range }

variable {g : Grants} {codes : List String} {ps : List DataPrivilege}
  {os : List (Uuid × EntityOverride)}

theorem sums_empty : empty.Sums [] [] [] where
  permissions _ := by simp [empty]
  granted _ _ := by simp [empty, Tops, grantedIn]
  overridden _ := by simp [empty]
  set _ _ _ := by simp [empty, override?, Tops]

theorem override?_addOverride (org : Uuid) (o : EntityOverride) (side : Side)
    (entity : String) (org' : Uuid) : (g.addOverride org o).override? side entity org' =
      if entity = o.entity ∧ org' = org then
        widerSet (g.override? side entity org') (o.range? side)
      else g.override? side entity org' := by
  have kept : ∀ known : Option (SortedMap Uuid OverrideGrant), (known.getD ∅).find? org' =
      known.bind (·.find? org') := by
    intro known
    cases known <;> rfl
  rw [override?, override?, addOverride, SortedMap.alter, SortedMap.find?_insert]
  by_cases here : entity = o.entity
  · subst here
    rw [if_pos rfl, Option.bind_some, SortedMap.alter, SortedMap.find?_insert]
    by_cases there : org' = org
    · subst there
      rw [if_pos rfl, if_pos ⟨rfl, rfl⟩, Option.bind_some, range?_widen, kept]
    · rw [if_neg there, if_neg fun both => there both.2, kept]
  · rw [if_neg here, if_neg fun both => here both.1]

theorem Sums.addOverride (sums : g.Sums codes ps os) (org : Uuid) (o : EntityOverride) :
    (g.addOverride org o).Sums codes ps (os ++ [(org, o)]) where
  permissions := sums.permissions
  granted := sums.granted
  overridden entity := by
    rw [Grants.addOverride, SortedMap.alter, SortedMap.find?_insert]
    have before := sums.overridden entity
    by_cases same : entity = o.entity
    · simp [same]
    · simp [same, before, Ne.symm same]
  set side entity org' := by
    have before := sums.set side entity org'
    rw [override?_addOverride]
    split
    · rename_i here
      obtain ⟨rfl, rfl⟩ := here
      convert before.union (tops_set (o.range? side)) using 1
      ext range
      simp [or_and_right, exists_or]
    · rename_i elsewhere
      convert before using 1
      ext range
      constructor
      · rintro ⟨o', member, org_eq, entity_eq, set⟩
        rcases List.mem_append.mp member with earlier | last
        · exact ⟨o', earlier, org_eq, entity_eq, set⟩
        · obtain rfl := List.mem_singleton.mp last
          exact absurd ⟨entity_eq.symm, org_eq.symm⟩ elsewhere
      · rintro ⟨o', member, rest⟩
        exact ⟨o', List.mem_append_left _ member, rest⟩

/-- What steps add to the sums, folding them adds for all elements. -/
theorem Sums.foldl {α : Type} {f : Grants → α → Grants} {c : α → List String}
    {p : α → List DataPrivilege} {o : α → List (Uuid × EntityOverride)}
    (adds : ∀ {g codes ps os}, g.Sums codes ps os → ∀ a,
      (f g a).Sums (codes ++ c a) (ps ++ p a) (os ++ o a))
    (sums : g.Sums codes ps os) (l : List α) :
    (l.foldl f g).Sums (codes ++ l.flatMap c) (ps ++ l.flatMap p) (os ++ l.flatMap o) := by
  induction l generalizing g codes ps os with
  | nil => simpa using sums
  | cons a rest ih => simpa using ih (adds sums a)

/-- The overrides of a privilege, each with the organization. -/
def overridesOf (p : DataPrivilege) : List (Uuid × EntityOverride) :=
  p.overrides.map fun o => (p.organization, o)

theorem Sums.addPrivilege (sums : g.Sums codes ps os) (p : DataPrivilege) :
    (g.addPrivilege p).Sums codes (ps ++ [p]) (os ++ overridesOf p) := by
  have widened : { g with byOrg := g.byOrg.alter p.organization fun known =>
      (known.getD .none).widen p }.Sums codes (ps ++ [p]) os := by
    refine ⟨sums.permissions, fun side org => ?_, sums.overridden, sums.set⟩
    have before := sums.granted side org
    simp only [SortedMap.alter, SortedMap.find?_insert]
    split
    · rename_i here
      subst here
      rw [Option.map_some, range_widen]
      have alone : grantedIn [p] side p.organization = {p.range side} := by
        ext range
        simp [grantedIn, eq_comm]
      rw [grantedIn_append, alone]
      exact before.union (tops_singleton (p.range side))
    · rename_i elsewhere
      have none : grantedIn [p] side org = ∅ := by
        ext range
        simp [grantedIn, Ne.symm elsewhere]
      rw [grantedIn_append, none, Set.union_empty]
      exact before
  have overridden := widened.foldl (f := Grants.addOverride p.organization) (c := fun _ => [])
    (p := fun _ => []) (o := fun o => [(p.organization, o)])
    (fun sums o => by simpa using sums.addOverride p.organization o) p.overrides
  rwa [List.flatMap_eq_nil_iff.mpr fun _ _ => rfl, List.flatMap_eq_nil_iff.mpr fun _ _ => rfl,
    ← List.map_eq_flatMap, List.append_nil, List.append_nil] at overridden

theorem Sums.addRole (sums : g.Sums codes ps os) (r : Role) :
    (g.addRole r).Sums (codes ++ r.permissions) (ps ++ r.privileges)
      (os ++ r.privileges.flatMap overridesOf) := by
  have allowed : { g with permissions := r.permissions.foldl SortedSet.insert g.permissions }.Sums
      (codes ++ r.permissions) ps os := by
    refine ⟨fun code => ?_, sums.granted, sums.overridden, sums.set⟩
    rw [SortedSet.mem_foldl_insert, sums.permissions, List.mem_append]
  have granted := allowed.foldl (f := Grants.addPrivilege) (c := fun _ => []) (p := fun p => [p])
    (o := overridesOf) (fun sums p => by simpa using sums.addPrivilege p) r.privileges
  rwa [List.flatMap_eq_nil_iff.mpr fun _ _ => rfl, ← List.map_eq_flatMap, List.map_id',
    List.append_nil] at granted

/-- What roles are folded to. -/
theorem sums_ofRoles (roles : List Role) : (ofRoles roles).Sums (roles.flatMap Role.permissions)
    (roles.flatMap Role.privileges) ((roles.flatMap Role.privileges).flatMap overridesOf) := by
  have folded := sums_empty.foldl (fun sums r => sums.addRole r) roles
  simpa [ofRoles, List.flatMap_assoc] using folded

/-! ## Expanding -/

variable {index : OrgIndex} {links : ParentLinks}

/-- The ranges of one side. -/
def rangesOf (grants : List (Uuid × Grant)) (side : Side) : List (Uuid × DataRange) :=
  grants.map fun e => (e.1, e.2.range side)

theorem scopeOf_eq (grants : List (Uuid × Grant)) : scopeOf index grants = (do
    let readable ← expandAll index (rangesOf grants .reading)
    let writable ← expandAll index (rangesOf grants .writing)
    return ⟨readable, writable⟩) := rfl

section Expanding

variable (expands : index.Expands links)

include expands

/-- Ranges are expanded in listed organizations only, and cover together what each of them
does. -/
theorem expandAll_ok {ranges : List (Uuid × DataRange)} {orgs : SortedSet Uuid}
    (run : expandAll index ranges = .ok orgs) :
    (∀ e ∈ ranges, links.contains e.1 = true) ∧
      ∀ x, x ∈ orgs ↔ ∃ e ∈ ranges, links.Covers e.2 e.1 x := by
  refine foldlM_induction (P := fun done orgs => (∀ e ∈ done, links.contains e.1 = true) ∧
    ∀ x, x ∈ orgs ↔ ∃ e ∈ done, links.Covers e.2 e.1 x) run (by simp) ?_
  rintro done ⟨org, range⟩ out out' - ⟨listed, covered⟩ step
  cases here : links.contains org with
  | false =>
      obtain ⟨e, unknown⟩ := expands.unknown org range here
      simp only [unknown] at step
      cases step
  | true =>
      obtain ⟨orgs, expanded, covers⟩ := expands.ok org range here
      simp only [expanded] at step
      cases step
      refine ⟨List.forall_mem_append.mpr ⟨listed, by simpa using here⟩, fun x => ?_⟩
      rw [SortedSet.mem_union, covered, covers]
      simp [or_and_right, exists_or]

theorem exists_expandAll {ranges : List (Uuid × DataRange)}
    (listed : ∀ e ∈ ranges, links.contains e.1 = true) :
    ∃ orgs, expandAll index ranges = .ok orgs := by
  refine exists_foldlM_ok (fun e member out => ?_) _
  obtain ⟨orgs, expanded, -⟩ := expands.ok e.1 e.2 (listed e member)
  exact ⟨_, by simp only [expanded]; rfl⟩

/-- Ranges for reading and writing are expanded each by themselves. -/
theorem scopeOf_ok {grants : List (Uuid × Grant)} {scope : EntityScope}
    (run : scopeOf index grants = .ok scope) :
    (∀ e ∈ grants, links.contains e.1 = true) ∧
      ∀ side x, x ∈ scope.orgs side ↔ ∃ e ∈ grants, links.Covers (e.2.range side) e.1 x := by
  rw [scopeOf_eq] at run
  obtain ⟨readable, reads, run⟩ := exists_of_bind_eq_ok run
  obtain ⟨writable, writes, run⟩ := exists_of_bind_eq_ok run
  cases run
  have covered := expandAll_ok expands reads
  have covered' := expandAll_ok expands writes
  refine ⟨fun e member => covered.1 _ (List.mem_map.mpr ⟨e, member, rfl⟩), fun side x => ?_⟩
  cases side with
  | reading => simpa [EntityScope.orgs, rangesOf] using covered.2 x
  | writing => simpa [EntityScope.orgs, rangesOf] using covered'.2 x

theorem exists_scopeOf {grants : List (Uuid × Grant)}
    (listed : ∀ e ∈ grants, links.contains e.1 = true) :
    ∃ scope, scopeOf index grants = .ok scope := by
  have each : ∀ side, ∃ orgs, expandAll index (rangesOf grants side) = .ok orgs := by
    intro side
    refine exists_expandAll expands fun e member => ?_
    obtain ⟨e', member', rfl⟩ := List.mem_map.mp member
    exact listed e' member'
  obtain ⟨readable, reads⟩ := each .reading
  obtain ⟨writable, writes⟩ := each .writing
  exact ⟨⟨readable, writable⟩, by rw [scopeOf_eq, reads, writes]; rfl⟩

end Expanding

/-- The scopes are those of the entities with overrides. -/
theorem entityScopes_ok {scopes : SortedMap String EntityScope}
    (run : g.entityScopes index = .ok scopes) :
    (∀ entity, scopes.contains entity = g.overrides.contains entity) ∧
      ∀ entity scope, scopes.find? entity = some scope → ∃ overrides,
        g.overrides.find? entity = some overrides ∧
          scopeOf index (g.forEntity overrides) = .ok scope := by
  have all := foldlM_induction (P := fun done scopes =>
      (∀ entity, SortedMap.contains scopes entity = true ↔ entity ∈ done.map Prod.fst) ∧
        ∀ entity scope, SortedMap.find? scopes entity = some scope → ∃ overrides,
          (entity, overrides) ∈ done ∧ scopeOf index (g.forEntity overrides) = .ok scope)
    run ⟨fun entity => by simp [SortedMap.contains], fun entity scope found => by simp at found⟩ ?_
  · refine ⟨fun entity => Bool.eq_iff_iff.mpr ?_, fun entity scope found => ?_⟩
    · rw [all.1, SortedMap.contains, Option.isSome_iff_exists, List.mem_map]
      simp [SortedMap.find?_eq_some_iff]
    · obtain ⟨overrides, member, expanded⟩ := all.2 entity scope found
      exact ⟨overrides, SortedMap.find?_eq_some_iff.mpr member, expanded⟩
  · rintro done ⟨entity, overrides⟩ scopes scopes' - ⟨listed, known⟩ step
    obtain ⟨scope, expanded, step⟩ := exists_of_bind_eq_ok step
    cases step
    refine ⟨fun entity' => ?_, fun entity' scope' found => ?_⟩
    · rw [SortedMap.contains, SortedMap.find?_insert, List.map_append, List.mem_append, ← listed]
      by_cases same : entity' = entity <;> simp [same, SortedMap.contains]
    · rw [SortedMap.find?_insert] at found
      split at found
      · rename_i same
        cases found
        exact ⟨overrides, by simp [same], expanded⟩
      · obtain ⟨overrides', member, expanded'⟩ := known entity' scope' found
        exact ⟨overrides', List.mem_append_left _ member, expanded'⟩

theorem exists_entityScopes (listed : ∀ e ∈ g.byOrg.entries, links.contains e.1 = true)
    (expands : index.Expands links) : ∃ scopes, g.entityScopes index = .ok scopes := by
  refine exists_foldlM_ok (fun e member out => ?_) _
  obtain ⟨scope, expanded⟩ : ∃ scope, scopeOf index (g.forEntity e.2) = .ok scope := by
    refine exists_scopeOf expands fun e member => ?_
    obtain ⟨e', member', rfl⟩ := List.mem_map.mp member
    exact listed e' member'
  exact ⟨_, by simp only [expanded]; rfl⟩

/-! ## The privileges of folded roles -/

theorem setFor_eq (side : Side) (entity : String) (org : Uuid) :
    setFor ps side entity org = { range | ∃ o ∈ ps.flatMap overridesOf,
      o.1 = org ∧ o.2.entity = entity ∧ o.2.range? side = some range } := by
  ext range
  simp only [setFor, overridesOf, Set.mem_ofPred_eq, List.mem_flatMap, List.mem_map]
  constructor
  · rintro ⟨p, member, here, o, listed, same, set⟩
    exact ⟨(p.organization, o), ⟨p, member, o, listed, rfl⟩, here, same, set⟩
  · rintro ⟨_, ⟨p, member, o, listed, rfl⟩, here, same, set⟩
    exact ⟨p, member, here, o, listed, same, set⟩

theorem overrides_iff {entity : String} :
    Overrides ps entity ↔ ∃ o ∈ ps.flatMap overridesOf, o.2.entity = entity := by
  simp only [Overrides, overridesOf, List.mem_flatMap, List.mem_map]
  constructor
  · rintro ⟨p, member, o, listed, same⟩
    exact ⟨(p.organization, o), ⟨p, member, o, listed, rfl⟩, same⟩
  · rintro ⟨_, ⟨p, member, o, listed, rfl⟩, same⟩
    exact ⟨p, member, o, listed, same⟩

theorem range_overriddenBy (grant : Grant) (o : Option OverrideGrant) (side : Side) :
    (grant.overriddenBy o).range side = (o.bind (·.range? side)).getD (grant.range side) := by
  cases side <;> rfl

section Sums

variable (sums : g.Sums codes ps (ps.flatMap overridesOf))

include sums

/-- The range kept for an organization is the widest granted there. -/
theorem isGreatest_of_mem {org : Uuid} {grant : Grant} (member : (org, grant) ∈ g.byOrg.entries)
    (side : Side) : IsGreatest (grantedIn ps side org) (grant.range side) := by
  have top := sums.granted side org
  rwa [SortedMap.find?_eq_some_iff.mpr member] at top

/-- There is a range for every organization of a privilege. -/
theorem exists_grant {p : DataPrivilege} (member : p ∈ ps) :
    ∃ grant, (p.organization, grant) ∈ g.byOrg.entries := by
  have top := sums.granted .reading p.organization
  cases found : g.byOrg.find? p.organization with
  | none =>
      rw [found] at top
      have granted : p.range .reading ∈ grantedIn ps .reading p.organization :=
        ⟨p, member, rfl, rfl⟩
      rw [show grantedIn ps .reading p.organization = ∅ from top] at granted
      cases granted
  | some grant => exact ⟨grant, SortedMap.find?_eq_some_iff.mp found⟩

theorem forall_granted_iff {P : Uuid → Prop} :
    (∀ e ∈ g.byOrg.entries, P e.1) ↔ ∀ p ∈ ps, P p.organization := by
  constructor
  · intro all p member
    obtain ⟨grant, kept⟩ := exists_grant sums member
    exact all _ kept
  · rintro all ⟨org, grant⟩ kept
    obtain ⟨⟨p, member, rfl, -⟩, -⟩ := isGreatest_of_mem sums kept .reading
    exact all p member

/-- The widest ranges cover what all granted ranges cover, each by itself. -/
theorem covered_iff {side : Side} {x : Uuid} :
    (∃ e ∈ g.byOrg.entries, links.Covers (e.2.range side) e.1 x) ↔
      ∃ p ∈ ps, links.Covers (p.range side) p.organization x := by
  constructor
  · rintro ⟨⟨org, grant⟩, kept, covers⟩
    obtain ⟨⟨p, member, rfl, same⟩, -⟩ := isGreatest_of_mem sums kept side
    exact ⟨p, member, same ▸ covers⟩
  · rintro ⟨p, member, covers⟩
    obtain ⟨grant, kept⟩ := exists_grant sums member
    have wider := (isGreatest_of_mem sums kept side).2 ⟨p, member, rfl, rfl⟩
    exact ⟨_, kept, covers.mono wider⟩

/-- The range in force for an entity with overrides. -/
theorem inForce_iff {overrides : SortedMap Uuid OverrideGrant} {entity : String}
    (found : g.overrides.find? entity = some overrides) {side : Side} {org : Uuid}
    {range : DataRange} : InForce ps side entity org range ↔
      ∃ grant, (org, grant) ∈ g.byOrg.entries ∧
        (grant.overriddenBy (overrides.find? org)).range side = range := by
  have top := sums.set side entity org
  rw [← setFor_eq, override?, found, Option.bind_some] at top
  constructor
  · intro inForce
    obtain ⟨p, member, rfl⟩ : ∃ p ∈ ps, p.organization = org := by
      rcases inForce with ⟨⟨p, member, here, -⟩, -⟩ | ⟨-, ⟨p, member, here, -⟩, -⟩
      · exact ⟨p, member, here⟩
      · exact ⟨p, member, here⟩
    obtain ⟨grant, kept⟩ := exists_grant sums member
    refine ⟨grant, kept, ?_⟩
    rw [range_overriddenBy]
    cases set : (overrides.find? p.organization).bind (·.range? side) with
    | some wide =>
        rw [set] at top
        rcases inForce with inForce | ⟨none, -⟩
        · exact top.unique inForce
        · exact absurd top.1 (none ▸ Set.notMem_empty wide)
    | none =>
        rw [set] at top
        rcases inForce with inForce | ⟨-, inForce⟩
        · rw [show setFor ps side entity p.organization = ∅ from top] at inForce
          exact absurd inForce.1 (Set.notMem_empty range)
        · exact (isGreatest_of_mem sums kept side).unique inForce
  · rintro ⟨grant, kept, rfl⟩
    rw [range_overriddenBy]
    cases set : (overrides.find? org).bind (·.range? side) with
    | some wide =>
        rw [set] at top
        exact .inl top
    | none =>
        rw [set] at top
        exact .inr ⟨top, isGreatest_of_mem sums kept side⟩

/-- The ranges kept for an entity with overrides cover what those in force cover. -/
theorem covered_forEntity_iff {overrides : SortedMap Uuid OverrideGrant} {entity : String}
    (found : g.overrides.find? entity = some overrides) {side : Side} {x : Uuid} :
    (∃ e ∈ g.forEntity overrides, links.Covers (e.2.range side) e.1 x) ↔
      ∃ org range, InForce ps side entity org range ∧ links.Covers range org x := by
  constructor
  · rintro ⟨_, member, covers⟩
    obtain ⟨⟨org, grant⟩, kept, rfl⟩ := List.mem_map.mp member
    exact ⟨org, _, (inForce_iff sums found).mpr ⟨grant, kept, rfl⟩, covers⟩
  · rintro ⟨org, range, inForce, covers⟩
    obtain ⟨grant, kept, rfl⟩ := (inForce_iff sums found).mp inForce
    exact ⟨_, List.mem_map.mpr ⟨(org, grant), kept, rfl⟩, covers⟩

end Sums

end Grants

/-- What a principal is granted by roles over the tree of some links: all that the privileges of
the roles grant, each by itself, and for every entity that one of them overrides, what the ranges
in force for it cover. -/
structure Privileges.Granted (p : Privileges) (links : ParentLinks) (roles : List Role)
    (user activeOrg : Uuid) : Prop where
  user : p.user = user
  activeOrg : p.activeOrg = activeOrg
  checked : p.bypass = false
  permissions : ∀ code, code ∈ p.permissions ↔ ∃ r ∈ roles, code ∈ r.permissions
  orgs : ∀ side x, x ∈ p.orgs side ↔
    ∃ r ∈ roles, ∃ q ∈ r.privileges, links.Covers (q.range side) q.organization x
  overridden : ∀ entity, p.entities.contains entity = true ↔
    Overrides (roles.flatMap Role.privileges) entity
  scopes : ∀ entity scope, p.entities.find? entity = some scope → ∀ side x,
    x ∈ scope.orgs side ↔ ∃ org range,
      InForce (roles.flatMap Role.privileges) side entity org range ∧ links.Covers range org x

namespace Grants

variable {index : OrgIndex} {links : ParentLinks} {roles : List Role} {user activeOrg : Uuid}

/-- Roles give privileges where all their organizations are listed, and give what they grant. -/
theorem privileges_ok {p : Privileges} (expands : index.Expands links)
    (run : (ofRoles roles).privileges index user activeOrg = .ok p) :
    (∀ r ∈ roles, ∀ q ∈ r.privileges, links.contains q.organization = true) ∧
      p.Granted links roles user activeOrg := by
  have sums := sums_ofRoles roles
  obtain ⟨scope, all, run⟩ := exists_of_bind_eq_ok run
  obtain ⟨entities, each, run⟩ := exists_of_bind_eq_ok run
  cases run
  obtain ⟨listed, covered⟩ := scopeOf_ok expands all
  obtain ⟨overridden, known⟩ := entityScopes_ok each
  have listed := (forall_granted_iff (P := fun org => links.contains org = true) sums).mp listed
  refine ⟨fun r held q member => listed q (List.mem_flatMap.mpr ⟨r, held, member⟩), ?_⟩
  constructor
  · rfl
  · rfl
  · rfl
  · intro code
    simpa using sums.permissions code
  · intro side x
    have each : (∃ r ∈ roles, ∃ q ∈ r.privileges,
        links.Covers (q.range side) q.organization x) ↔ x ∈ scope.orgs side := by
      rw [covered, covered_iff sums]
      simp only [List.mem_flatMap]
      constructor
      · rintro ⟨r, held, q, member, covers⟩
        exact ⟨q, ⟨r, held, member⟩, covers⟩
      · rintro ⟨q, ⟨r, held, member⟩, covers⟩
        exact ⟨r, held, q, member, covers⟩
    rw [each]
    cases side <;> rfl
  · intro entity
    rw [overridden, SortedMap.contains, sums.overridden, ← overrides_iff]
  · intro entity scope' found side x
    obtain ⟨overrides, kept, expanded⟩ := known entity scope' found
    rw [(scopeOf_ok expands expanded).2, covered_forEntity_iff sums kept]

/-- Roles whose organizations are all listed give privileges. -/
theorem exists_privileges (expands : index.Expands links)
    (listed : ∀ r ∈ roles, ∀ q ∈ r.privileges, links.contains q.organization = true)
    (user activeOrg : Uuid) : ∃ p, (ofRoles roles).privileges index user activeOrg = .ok p := by
  have known : ∀ e ∈ (ofRoles roles).byOrg.entries, links.contains e.1 = true := by
    refine (forall_granted_iff (P := fun org => links.contains org = true) (sums_ofRoles roles)).mpr
      fun q member => ?_
    obtain ⟨r, held, member⟩ := List.mem_flatMap.mp member
    exact listed r held q member
  obtain ⟨scope, all⟩ := exists_scopeOf expands known
  obtain ⟨entities, each⟩ := exists_entityScopes known expands
  exact ⟨_, by rw [privileges, all, each]; rfl⟩

end Grants

end ScopedAccess
