import ScopedAccess.Proofs.Resolver.History
/-!
# More roles

Whoever gets roles in addition keeps all permission codes and reaches as many organizations as
before: the widest of more ranges is no narrower. It is different for an entity with overrides,
since the range that an override sets stands for those granted in its organization, also for those
that other roles grant. So a role can narrow what is reached for an entity, but only where no
override has been in force before, and only down to the widest range that overrides set
(`InForce.widened`).

* `access_grows`: what a principal keeps when it gets roles in addition.
-/

namespace ScopedAccess

set_option autoImplicit false

/-! ## The range in force -/

/-- Of some ranges one is the widest. -/
theorem DataRange.exists_isGreatest {ranges : Set DataRange} (some : ranges.Nonempty) :
    ∃ range, IsGreatest ranges range := by
  by_cases following : .currentFollowing ∈ ranges
  · refine ⟨.currentFollowing, following, fun range _ => ?_⟩
    cases range <;> decide
  · by_cases current : .current ∈ ranges
    · refine ⟨.current, current, fun range member => ?_⟩
      cases range with
      | personal | current => decide
      | currentFollowing => exact absurd member following
    · obtain ⟨range, member⟩ := some
      have only : ∀ r ∈ ranges, r = .personal := by
        intro r member
        cases r with
        | personal => rfl
        | current => exact absurd member current
        | currentFollowing => exact absurd member following
      refine ⟨range, member, fun r member' => ?_⟩
      rw [only range member, only r member']

theorem DataRange.le_or_lt (a b : DataRange) : a ≤ b ∨ b < a := by
  cases a <;> cases b <;> decide

section Ranges

variable {ps qs : List DataPrivilege} {side : Side} {entity : String} {org : Uuid}
  {range : DataRange}

theorem grantedIn_mono (more : ps ⊆ qs) : grantedIn ps side org ⊆ grantedIn qs side org := by
  rintro range ⟨p, member, granted⟩
  exact ⟨p, more member, granted⟩

theorem setFor_mono (more : ps ⊆ qs) : setFor ps side entity org ⊆ setFor qs side entity org := by
  rintro range ⟨p, member, set⟩
  exact ⟨p, more member, set⟩

theorem nonempty_grantedIn_of_setFor (some : (setFor ps side entity org).Nonempty) :
    (grantedIn ps side org).Nonempty := by
  obtain ⟨range, p, member, here, -⟩ := some
  exact ⟨p.range side, p, member, here, rfl⟩

theorem InForce.nonempty (inForce : InForce ps side entity org range) :
    (grantedIn ps side org).Nonempty := by
  rcases inForce with top | ⟨-, top⟩
  · exact nonempty_grantedIn_of_setFor top.nonempty
  · exact top.nonempty

theorem exists_inForce (some : (grantedIn ps side org).Nonempty) :
    ∃ range, InForce ps side entity org range := by
  rcases (setFor ps side entity org).eq_empty_or_nonempty with none | set
  · obtain ⟨range, top⟩ := DataRange.exists_isGreatest some
    exact ⟨range, .inr ⟨none, top⟩⟩
  · obtain ⟨range, top⟩ := DataRange.exists_isGreatest set
    exact ⟨range, .inl top⟩

/-- A range that no override sets, while overrides among more privileges set only narrower ones. -/
def NarrowedAt (ps qs : List DataPrivilege) (side : Side) (entity : String) (org : Uuid)
    (range : DataRange) : Prop :=
  setFor ps side entity org = ∅ ∧
    ∃ narrow, IsGreatest (setFor qs side entity org) narrow ∧ narrow < range

/-- Among more privileges the range in force is no narrower, unless overrides set one where none
did before. -/
theorem InForce.widened (more : ps ⊆ qs) (inForce : InForce ps side entity org range) :
    (∃ wide, InForce qs side entity org wide ∧ range ≤ wide) ∨
      NarrowedAt ps qs side entity org range := by
  obtain ⟨wide, inForce'⟩ : ∃ wide, InForce qs side entity org wide :=
    exists_inForce (inForce.nonempty.mono (grantedIn_mono more))
  rcases range.le_or_lt wide with wider | narrower
  · exact .inl ⟨wide, inForce', wider⟩
  · refine .inr ?_
    rcases inForce with top | ⟨unset, top⟩
    · -- What has been set before is set still, so the widest range set is no narrower.
      rcases inForce' with top' | ⟨unset', -⟩
      · exact absurd (top'.2 (setFor_mono more top.1)) narrower.not_ge
      · exact absurd (setFor_mono more top.1) (unset' ▸ Set.notMem_empty range)
    · rcases inForce' with top' | ⟨-, top'⟩
      · exact ⟨unset, wide, top', narrower⟩
      · exact absurd (top'.2 (grantedIn_mono more top.1)) narrower.not_ge

end Ranges

/-! ## The organizations of an entity -/

namespace Privileges

/-- The organizations whose rows of an entity are reached. -/
def orgsFor (p : Privileges) : Side → String → SortedSet Uuid
  | .reading => p.readableFor
  | .writing => p.writableFor

theorem orgsFor_eq (p : Privileges) (side : Side) (entity : String) :
    p.orgsFor side entity =
      ((p.entities.find? entity).map (EntityScope.orgs · side)).getD (p.orgs side) := by
  cases side <;> rfl

variable {p : Privileges} {links : ParentLinks} {roles : List Role} {user activeOrg : Uuid}

theorem mem_orgs_iff (granted : p.Granted links roles user activeOrg) {side : Side} {x : Uuid} :
    x ∈ p.orgs side ↔
      ∃ q ∈ roles.flatMap Role.privileges, links.Covers (q.range side) q.organization x := by
  rw [granted.orgs]
  simp only [List.mem_flatMap]
  constructor
  · rintro ⟨r, held, q, member, covers⟩
    exact ⟨q, ⟨r, held, member⟩, covers⟩
  · rintro ⟨q, ⟨r, held, member⟩, covers⟩
    exact ⟨r, held, q, member, covers⟩

/-- For an entity, with overrides or without, the ranges in force for it say what is reached. -/
theorem mem_orgsFor_iff (granted : p.Granted links roles user activeOrg) {side : Side}
    {entity : String} {x : Uuid} : x ∈ p.orgsFor side entity ↔ ∃ org range,
      InForce (roles.flatMap Role.privileges) side entity org range ∧ links.Covers range org x := by
  rw [orgsFor_eq]
  cases found : p.entities.find? entity with
  | some scope => exact granted.scopes entity scope found side x
  | none =>
      have unset : ∀ org, setFor (roles.flatMap Role.privileges) side entity org = ∅ := by
        refine fun org => Set.eq_empty_of_forall_notMem ?_
        rintro range ⟨q, member, -, o, listed, same, -⟩
        have overridden := (granted.overridden entity).mpr ⟨q, member, o, listed, same⟩
        rw [SortedMap.contains, found] at overridden
        cases overridden
      rw [Option.map_none, Option.getD_none, mem_orgs_iff granted]
      constructor
      · rintro ⟨q, member, covers⟩
        have some : (grantedIn (roles.flatMap Role.privileges) side q.organization).Nonempty :=
          ⟨q.range side, q, member, rfl, rfl⟩
        obtain ⟨range, top⟩ := DataRange.exists_isGreatest some
        exact ⟨q.organization, range, .inr ⟨unset _, top⟩,
          covers.mono (top.2 ⟨q, member, rfl, rfl⟩)⟩
      · rintro ⟨org, range, inForce, covers⟩
        rcases inForce with top | ⟨-, ⟨q, member, rfl, rfl⟩, -⟩
        · exact absurd top.1 (unset org ▸ Set.notMem_empty range)
        · exact ⟨q, member, covers⟩

end Privileges

/-! ## Resolving for more roles -/

namespace SourceData

variable {s s' : SourceData} {now : Int} {user org : Uuid}

/-- The ids of the roles in a user's assignments that are active at a time. -/
def activeRoleIds (s : SourceData) (now : Int) (user : Uuid) : Set Uuid :=
  { id | ∃ a ∈ s.assignments, (a.user = user ∧ a.isActiveAt now = true) ∧ a.role = id }

theorem heldRoles_subset (roles : s'.roles = s.roles)
    (more : s.activeRoleIds now user ⊆ s'.activeRoleIds now user) :
    s.heldRoles now user ⊆ s'.heldRoles now user := by
  intro r held
  rw [heldRoles, List.mem_filter, decide_eq_true_eq] at held ⊢
  exact ⟨roles ▸ held.1, more held.2⟩

theorem Places.mono {roles more : List Role} (places : s'.Places more)
    (tree : s'.organizations = s.organizations) (fewer : roles ⊆ more) : s.Places roles := by
  have links : s'.links = s.links := congrArg ParentLinks.ofOrganizations tree
  obtain ⟨forest, listed⟩ := places
  rw [links] at forest listed
  exact ⟨forest, fun r held => listed r (fewer held)⟩

theorem assigned_of_computed {p : Privileges} (computed : s.computed now user org = .ok p) :
    s.Assigned now user := by
  refine Resolver.assigned_iff.mpr ?_
  rw [SourceData.computed] at computed
  split at computed
  · cases computed
  · rename_i active found
    exact ⟨active, found⟩

/-- With an active assignment, and in organizations that are listed, there are privileges. -/
theorem exists_computed (assigned : s.Assigned now user)
    (places : s.Places (s.heldRoles now user)) (org : Uuid) :
    ∃ p, s.computed now user org = .ok p := by
  obtain ⟨active, found⟩ := Resolver.assigned_iff.mp assigned
  obtain ⟨p, granted⟩ := Resolver.exists_privilegesOf places user org
  rw [← Resolver.rolesOf_eq_heldRoles found] at granted
  refine ⟨p, ?_⟩
  rw [computed, found]
  exact congrArg (Except.mapError _) granted

end SourceData

/-- With no entry in the cache, or without one, a principal gets what the data say. -/
theorem ResolverWorld.resolve_ofSource {s : SourceData} {config : ResolverConfig} {now : Int}
    {actor : Actor} (checked : actor.id ≠ config.rootUser) :
    ((ofSource s).resolve config now actor).1 = s.computed now actor.id actor.activeOrg := by
  cases enabled : config.cacheEnabled with
  | false => exact (Resolver.leads_resolve_uncached enabled checked _ (works_ofSource s)).1
  | true => exact ((Resolver.leads_resolve enabled checked).2 rfl _ (works_ofSource s)).1

/-- A principal with more roles has all permission codes and reaches all organizations that it has
and reaches with fewer. It reaches them for every entity too, except those that it reaches with
fewer roles only through ranges of organizations where no override of these roles sets one for the
entity, while overrides of the other roles do and set only narrower ones. -/
theorem access_grows (s s' : SourceData) (config : ResolverConfig) (now : Int) (actor : Actor)
    (checked : actor.id ≠ config.rootUser) (tree : s'.organizations = s.organizations)
    (roles : s'.roles = s.roles)
    (more : s.activeRoleIds now actor.id ⊆ s'.activeRoleIds now actor.id)
    (places : s'.Places (s'.heldRoles now actor.id)) :
    (s.Assigned now actor.id →
      ∃ p, ((ResolverWorld.ofSource s).resolve config now actor).1 = .ok p) ∧
    ∀ p, ((ResolverWorld.ofSource s).resolve config now actor).1 = .ok p →
      ∃ p', ((ResolverWorld.ofSource s').resolve config now actor).1 = .ok p' ∧
        (∀ code, code ∈ p.permissions → code ∈ p'.permissions) ∧
        (∀ side x, x ∈ p.orgs side → x ∈ p'.orgs side) ∧
        ∀ side entity x, x ∈ p.orgsFor side entity → x ∈ p'.orgsFor side entity ∨
          ∀ org range, s.links.Covers range org x →
            InForce ((s.heldRoles now actor.id).flatMap Role.privileges) side entity org range →
            NarrowedAt ((s.heldRoles now actor.id).flatMap Role.privileges)
              ((s'.heldRoles now actor.id).flatMap Role.privileges) side entity org range := by
  have held := SourceData.heldRoles_subset roles more
  have links : s'.links = s.links := congrArg ParentLinks.ofOrganizations tree
  have privileges : (s.heldRoles now actor.id).flatMap Role.privileges ⊆
      (s'.heldRoles now actor.id).flatMap Role.privileges := by
    intro q member
    obtain ⟨r, kept, member⟩ := List.mem_flatMap.mp member
    exact List.mem_flatMap.mpr ⟨r, held kept, member⟩
  rw [ResolverWorld.resolve_ofSource checked, ResolverWorld.resolve_ofSource checked]
  refine ⟨fun assigned => SourceData.exists_computed assigned (places.mono tree held) _,
    fun p computed => ?_⟩
  have assigned : s'.Assigned now actor.id := by
    obtain ⟨a, member, active⟩ := SourceData.assigned_of_computed computed
    obtain ⟨a', member', active', -⟩ := more ⟨a, member, active, rfl⟩
    exact ⟨a', member', active'⟩
  obtain ⟨p', computed'⟩ := SourceData.exists_computed assigned places actor.activeOrg
  have granted := SourceData.granted_of_computed computed
  have granted' := SourceData.granted_of_computed computed'
  rw [links] at granted'
  refine ⟨p', computed', fun code => ?_, fun side x => ?_, fun side entity x reached => ?_⟩
  · rw [granted.permissions, granted'.permissions]
    rintro ⟨r, kept, listed⟩
    exact ⟨r, held kept, listed⟩
  · rw [granted.orgs, granted'.orgs]
    rintro ⟨r, kept, q, member, covers⟩
    exact ⟨r, held kept, q, member, covers⟩
  · refine or_iff_not_imp_left.mpr fun lost org range covers inForce => ?_
    rcases inForce.widened privileges with ⟨wide, inForce', wider⟩ | narrowed
    · exact absurd ((Privileges.mem_orgsFor_iff granted').mpr
        ⟨org, wide, inForce', covers.mono wider⟩) lost
    · exact narrowed

namespace Notebook

def inspecting : Role :=
  ⟨.ofNat 50, "inspector", "Inspector", ["note:list"], [⟨district, .current, .personal, []⟩]⟩

/-- A tourist sees none of the notes of others. -/
def touring : Role :=
  ⟨.ofNat 51, "tourist", "Tourist", [],
    [⟨district, .personal, .personal, [⟨"note", some .personal, none⟩]⟩]⟩

/-- The districts, where the auditor has some of the roles. -/
def inspections (held : List Role) : SourceData where
  organizations := districts.organizations
  roles := [inspecting, touring]
  assignments := held.map fun r => ⟨auditor.id, r.id, 0⟩

/-- What the auditor resolves with some of the roles. -/
def inspectsWith (held : List Role) : Except ResolveError Privileges :=
  ((ResolverWorld.ofSource (inspections held)).resolve ⟨.ofNat 1, false⟩ 5 auditor).1

theorem inspections_places (held : List Role) :
    (inspections held).Places [inspecting, touring] := by
  refine ⟨districts_forest, ?_⟩
  change ∀ r ∈ [inspecting, touring], ∀ p ∈ r.privileges,
    districts.links.contains p.organization = true
  decide +kernel

end Notebook

open Notebook in
/-- An inspector that tours the district still lists the notes, and reads the letters there. -/
theorem tourist_reads_letters :
    ∃ p, inspectsWith [inspecting, touring] = .ok p ∧ "note:list" ∈ p.permissions ∧
      district ∈ p.orgs .reading ∧ district ∈ p.orgsFor .reading "letter" := by
  have held : (inspections [inspecting, touring]).heldRoles 5 auditor.id =
      [inspecting, touring] := by decide +kernel
  have more : (inspections [inspecting]).activeRoleIds 5 auditor.id ⊆
      (inspections [inspecting, touring]).activeRoleIds 5 auditor.id := by
    rintro id ⟨a, member, active⟩
    exact ⟨a, List.subset_append_left [_] [_] member, active⟩
  have places := inspections_places [inspecting, touring]
  rw [← held] at places
  have checked : auditor.id ≠ .ofNat 1 := by decide +kernel
  obtain ⟨resolves, grows⟩ := access_grows (inspections [inspecting])
    (inspections [inspecting, touring]) ⟨.ofNat 1, false⟩ 5 auditor checked rfl rfl more places
  obtain ⟨p, resolved⟩ := resolves ⟨⟨auditor.id, inspecting.id, 0⟩, by decide +kernel⟩
  obtain ⟨p', resolved', permissions, orgs, entities⟩ := grows p resolved
  have before : (inspectsWith [inspecting]).toOption.map (fun p =>
      decide ("note:list" ∈ p.permissions) && decide (district ∈ p.orgs .reading) &&
        decide (district ∈ p.orgsFor .reading "letter")) = some true := by decide +kernel
  rw [inspectsWith, resolved] at before
  simp only [Except.toOption, Option.map_some, Option.some.injEq, Bool.and_eq_true,
    decide_eq_true_eq] at before
  obtain ⟨⟨listed, reads⟩, letters⟩ := before
  refine ⟨p', resolved', permissions _ listed, orgs _ _ reads, ?_⟩
  rcases entities .reading "letter" district letters with kept | lost
  · exact kept
  · rw [ResolverWorld.resolve_ofSource checked] at resolved
    have granted := SourceData.granted_of_computed resolved
    obtain ⟨org, range, inForce, covers⟩ := (Privileges.mem_orgsFor_iff granted).mp letters
    obtain ⟨-, narrow, ⟨⟨q, member, -, o, set, same, -⟩, -⟩, -⟩ := lost org range covers inForce
    have none : ∀ q ∈ [inspecting, touring].flatMap Role.privileges, ∀ o ∈ q.overrides,
        o.entity ≠ "letter" := by decide +kernel
    exact absurd same (none q (held ▸ member) o set)

open Notebook in
/-- Where a role comes with an override, more roles can mean less access: an inspector reads the
notes of the district, but not if it tours the district in addition. -/
theorem tourist_loses_notes :
    (inspections [inspecting, touring]).Places [inspecting, touring] ∧
    (inspections [inspecting]).heldRoles 5 auditor.id = [inspecting] ∧
    (inspections [inspecting, touring]).heldRoles 5 auditor.id = [inspecting, touring] ∧
    (inspectsWith [inspecting]).toOption.map (fun p => decide (district ∈ p.readableFor "note")) =
      some true ∧
    (inspectsWith [inspecting, touring]).toOption.map
      (fun p => decide (district ∈ p.readableFor "note")) = some false :=
  ⟨inspections_places _, by decide +kernel, by decide +kernel, by decide +kernel,
    by decide +kernel⟩

end ScopedAccess
