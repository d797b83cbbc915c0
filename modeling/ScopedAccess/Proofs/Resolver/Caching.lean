import ScopedAccess.Proofs.Resolver.Entry
import ScopedAccess.Proofs.Resolver.Key
import ScopedAccess.Proofs.Resolver.Service
/-!
# Why the cache does not show

As long as no assignment that an entry rests on has ended, the active assignments of its user are
the ones that it was made from (`ActiveRoles.ofAssignments?_of_fresh`). So an entry that may still
be used says what the data say, unless the data have changed since. Every entry is found through
the list of role sets of its user, which is how invalidating a user removes all of them.

`CacheContent.Kept` is what every call keeps: entries are listed, and those of users that are
settled, which is whose entries are all younger than the data, say what the data say. Resolving
anew, invalidating a user and changing the data keep it (`Kept.refreshed`, `Kept.withoutUser`,
`Kept.replaced`).
-/

namespace ScopedAccess

set_option autoImplicit false

variable {s s' : SourceData} {c : CacheContent} {now later : Int} {user org : Uuid}
  {active : ActiveRoles} {p : Privileges}

/-! ## Fresh entries -/

/-- The first end of the active assignments is no later than any other. -/
theorem ActiveRoles.exists_ending {assignments : List RoleAssignment} {a : RoleAssignment}
    (found : ofAssignments? now assignments = some active) (member : a ∈ assignments)
    (activeNow : a.isActiveAt now = true) (ends : a.expiresAt ≠ 0) :
    ∃ ending, active.validUntil = some ending ∧ ending ≤ a.expiresAt := by
  unfold ofAssignments? at found
  split at found
  · cases found
  · cases found
    have listed : a.expiresAt ∈ ((assignments.filter (·.isActiveAt now)).map
        RoleAssignment.expiresAt).filter (· ≠ 0) := by
      refine List.mem_filter.mpr ⟨List.mem_map_of_mem (List.mem_filter.mpr ⟨member, activeNow⟩), ?_⟩
      exact decide_eq_true ends
    dsimp only
    cases first : (((assignments.filter (·.isActiveAt now)).map
        RoleAssignment.expiresAt).filter (· ≠ 0)).min? with
    | none =>
        rw [List.min?_eq_none_iff.mp first] at listed
        cases listed
    | some ending => exact ⟨ending, rfl, (List.min?_eq_some_iff.mp first).2 _ listed⟩

/-- Until the first of the active assignments ends, the same ones are active. -/
theorem ActiveRoles.ofAssignments?_of_fresh {assignments : List RoleAssignment}
    (found : ofAssignments? now assignments = some active) (passed : now ≤ later)
    (fresh : active.validUntil.all (fun ending => later < ending) = true) :
    ofAssignments? later assignments = some active := by
  have same : assignments.filter (·.isActiveAt later) = assignments.filter (·.isActiveAt now) := by
    refine List.filter_congr fun a member => ?_
    by_cases forever : a.expiresAt = 0
    · simp [RoleAssignment.isActiveAt, forever]
    · cases activeNow : a.isActiveAt now with
      | false =>
          simp only [RoleAssignment.isActiveAt, forever, decide_false, Bool.false_or,
            decide_eq_false_iff_not] at activeNow ⊢
          omega
      | true =>
          obtain ⟨ending, first, before⟩ := exists_ending found member activeNow forever
          rw [first, Option.all_some, decide_eq_true_eq] at fresh
          simp only [RoleAssignment.isActiveAt, forever, decide_false, Bool.false_or,
            decide_eq_true_eq]
          omega
  rw [ofAssignments?, same]
  exact found

/-- What the data say stays as it is until the first of the active assignments ends. -/
theorem SourceData.computed_of_fresh
    (found : ActiveRoles.ofAssignments? now (s.assignmentsOf user) = some active)
    (passed : now ≤ later)
    (fresh : active.validUntil.all (fun ending => later < ending) = true) :
    s.computed later user org = s.computed now user org := by
  rw [computed, computed, ActiveRoles.ofAssignments?_of_fresh found passed fresh, found]

namespace CacheContent

/-! ## Lookups -/

variable {key : String}

theorem find?_stored : (c.stored user org active p).find? key =
    if key = pointerKey user then some (joinRoleIds active.ids)
    else if key = roleSetsKey user then
      some (addRoleSet (c.find? (roleSetsKey user)) (joinRoleIds active.ids))
    else if key = entryKey (joinRoleIds active.ids) user org then
      some (CachedPrivileges.encode ⟨p, active.validUntil⟩)
    else c.find? key := by
  rw [stored]
  simp only [SortedMap.find?_insert]
  rw [if_neg entryKey_ne_roleSetsKey.symm]

theorem find?_withoutStart (start : String) : (ResolverWorld.withoutStart start c).find? key =
    if start.toList.isPrefixOf key.toList then none else c.find? key := by
  rw [ResolverWorld.withoutStart,
    SortedMap.find?_filter c fun key => !start.toList.isPrefixOf key.toList]
  cases start.toList.isPrefixOf key.toList <;> rfl

theorem find?_foldl_withoutStart (starts : List String) (start : String → String) :
    (starts.foldl (fun c r => ResolverWorld.withoutStart (start r) c) c).find? key =
      if starts.any fun r => (start r).toList.isPrefixOf key.toList then none
      else c.find? key := by
  induction starts generalizing c with
  | nil => rfl
  | cons r rest ih =>
      rw [List.foldl_cons, ih, find?_withoutStart, List.any_cons]
      cases (start r).toList.isPrefixOf key.toList with
      | false => rfl
      | true => simp

/-- What the pointer leads to may be used, if it does not end. -/
theorem usable?_encode {r : String} (pointer : c.find? (pointerKey user) = some r)
    (entry : c.find? (entryKey r user org) = some (CachedPrivileges.encode ⟨p, none⟩)) :
    c.usable? now user org = some p := by
  simp [usable?, pointer, entry, CachedPrivileges.decode?_encode, CachedPrivileges.isFreshAt]

/-- What has been stored may be used, if it does not end. -/
theorem usable?_stored {ids : List Uuid} :
    (c.stored user org ⟨ids, none⟩ p).usable? now user org = some p := by
  refine usable?_encode (r := joinRoleIds ids) ?_ ?_
  · rw [find?_stored, if_pos rfl]
  · rw [find?_stored, if_neg entryKey_ne_pointerKey, if_neg entryKey_ne_roleSetsKey, if_pos rfl]

/-- To store an entry in one organization makes that of another one usable. -/
theorem usable?_stored_elsewhere {org' : Uuid} {q : Privileges} (other : org' ≠ org)
    (entry : c.find? (entryKey (joinRoleIds active.ids) user org) =
      some (CachedPrivileges.encode ⟨p, none⟩)) :
    (c.stored user org' active q).usable? now user org = some p := by
  refine usable?_encode (r := joinRoleIds active.ids) ?_ ?_
  · rw [find?_stored, if_pos rfl]
  · rw [find?_stored, if_neg entryKey_ne_pointerKey, if_neg entryKey_ne_roleSetsKey,
      if_neg fun same => other (entryKey_inj.mp same).2.2.symm]
    exact entry

/-- What is left without the entries of a user has been there before. -/
theorem find?_of_withoutUser {text : String}
    (found : (c.withoutUser user).find? key = some text) : c.find? key = some text := by
  rw [withoutUser, SortedMap.find?_erase, SortedMap.find?_erase, find?_foldl_withoutStart] at found
  split at found
  · cases found
  · split at found
    · cases found
    · split at found
      · cases found
      · exact found

/-- A user's entries that are listed are all removed. -/
theorem find?_withoutUser_entryKey {r index : String}
    (listed : c.find? (roleSetsKey user) = some index) (member : r ∈ roleSets index) :
    (c.withoutUser user).find? (entryKey r user org) = none := by
  rw [withoutUser, SortedMap.find?_erase, SortedMap.find?_erase, find?_foldl_withoutStart, listed,
    if_neg entryKey_ne_pointerKey, if_neg entryKey_ne_roleSetsKey, if_pos]
  refine List.any_eq_true.mpr ⟨r, member, ?_⟩
  exact List.isPrefixOf_iff_prefix.mpr entryKey_begins

/-- A user's entries that are not listed all stay. -/
theorem find?_withoutUser_unlisted {r : String} (unlisted : c.find? (roleSetsKey user) = none) :
    (c.withoutUser user).find? (entryKey r user org) = c.find? (entryKey r user org) := by
  rw [withoutUser, unlisted, SortedMap.find?_erase, if_neg entryKey_ne_pointerKey,
    SortedMap.find?_erase, if_neg entryKey_ne_roleSetsKey]
  rfl

/-- The lists of other users stay. -/
theorem find?_withoutUser_roleSetsKey {user' : Uuid} (other : user' ≠ user) :
    (c.withoutUser user).find? (roleSetsKey user') = c.find? (roleSetsKey user') := by
  have kept : ∀ starts : List String, ¬ (starts.any fun r =>
      (entriesStart r user).toList.isPrefixOf (roleSetsKey user').toList) = true := by
    intro starts removed
    obtain ⟨r, -, begins⟩ := List.any_eq_true.mp removed
    exact roleSetsKey_not_begins (List.isPrefixOf_iff_prefix.mp begins)
  rw [withoutUser, SortedMap.find?_erase, SortedMap.find?_erase, find?_foldl_withoutStart,
    if_neg pointerKey_ne_roleSetsKey.symm, if_neg fun same => other (roleSetsKey_inj.mp same),
    if_neg (kept _)]

/-! ## Lists of role sets -/

/-- Whether every entry of a user is listed with the user's role sets. -/
def Lists (c : CacheContent) (user : Uuid) : Prop :=
  ∀ ⦃r org text⦄, c.find? (entryKey r user org) = some text →
    ∃ index, c.find? (roleSetsKey user) = some index ∧ r ∈ roleSets index

theorem ids_ne_nil {assignments : List RoleAssignment}
    (found : ActiveRoles.ofAssignments? now assignments = some active) : active.ids ≠ [] := by
  intro empty
  have none : ActiveRoles.ofAssignments? now assignments = none := by
    refine ActiveRoles.ofAssignments?_eq_none.mpr fun a member =>
      Bool.eq_false_iff.mpr fun held => ?_
    have listed := (ActiveRoles.mem_ids found).mpr ⟨a, member, held, rfl⟩
    rw [empty] at listed
    cases listed
  rw [none] at found
  cases found

/-- What is found under the key of an entry: the entry written last, or one from before. -/
theorem find?_stored_entryKey {r text : String} {user' org' : Uuid}
    (found : (c.stored user org active p).find? (entryKey r user' org') = some text) :
    ((r = joinRoleIds active.ids ∧ user' = user ∧ org' = org) ∧
        text = CachedPrivileges.encode ⟨p, active.validUntil⟩) ∨
      c.find? (entryKey r user' org') = some text := by
  rw [find?_stored, if_neg entryKey_ne_pointerKey, if_neg entryKey_ne_roleSetsKey] at found
  split at found
  · rename_i same
    exact .inl ⟨entryKey_inj.mp same, (Option.some.inj found).symm⟩
  · exact .inr found

/-- The list of a user's role sets has the new one, and those that it had. -/
theorem find?_stored_roleSetsKey : (c.stored user org active p).find? (roleSetsKey user) =
    some (addRoleSet (c.find? (roleSetsKey user)) (joinRoleIds active.ids)) := by
  rw [find?_stored, if_neg pointerKey_ne_roleSetsKey.symm, if_pos rfl]

theorem find?_stored_roleSetsKey_of_ne {user' : Uuid} (other : user' ≠ user) :
    (c.stored user org active p).find? (roleSetsKey user') = c.find? (roleSetsKey user') := by
  rw [find?_stored, if_neg pointerKey_ne_roleSetsKey.symm,
    if_neg fun same => other (roleSetsKey_inj.mp same), if_neg entryKey_ne_roleSetsKey.symm]

theorem Lists.stored {user' : Uuid} (lists : c.Lists user') (some_ : active.ids ≠ []) :
    (c.stored user org active p).Lists user' := by
  intro r org' text entry
  by_cases same : user' = user
  · subst same
    refine ⟨_, find?_stored_roleSetsKey,
      (mem_roleSets_addRoleSet (listable_joinRoleIds some_)).mpr ?_⟩
    rcases find?_stored_entryKey entry with ⟨⟨rfl, -⟩, -⟩ | earlier
    · exact .inr rfl
    · obtain ⟨index, known, member⟩ := lists earlier
      rw [known]
      exact .inl member
  · rw [find?_stored_roleSetsKey_of_ne same]
    rcases find?_stored_entryKey entry with ⟨⟨-, same', -⟩, -⟩ | earlier
    · exact absurd same' same
    · exact lists earlier

theorem Lists.withoutUser {user' : Uuid} (lists : c.Lists user') :
    (c.withoutUser user).Lists user' := by
  intro r org text entry
  obtain ⟨index, known, member⟩ := lists (find?_of_withoutUser entry)
  by_cases same : user' = user
  · subst same
    rw [find?_withoutUser_entryKey known member] at entry
    cases entry
  · exact ⟨index, (find?_withoutUser_roleSetsKey same).trans known, member⟩

/-! ## What every call keeps -/

/-- What a cache holds at a time: every entry is listed with its user's role sets, and an entry of
a settled user says what the data say as long as it may be used. -/
structure Kept (s : SourceData) (now : Int) (settled : Uuid → Prop) (c : CacheContent) :
    Prop where
  listed : ∀ {r user org text}, c.find? (entryKey r user org) = some text →
    ∃ index, c.find? (roleSetsKey user) = some index ∧ r ∈ roleSets index
  sound : ∀ {r user org text entry later}, settled user →
    c.find? (entryKey r user org) = some text → CachedPrivileges.decode? text = some entry →
    now ≤ later → entry.isFreshAt later = true → s.computed later user org = .ok entry.privileges

variable {settled : Uuid → Prop}

theorem kept_empty (s : SourceData) (now : Int) (settled : Uuid → Prop) :
    Kept s now settled ∅ where
  listed found := by cases found
  sound _ found := by cases found

theorem Kept.mono {settled' : Uuid → Prop} (kept : Kept s now settled c) (passed : now ≤ later)
    (fewer : ∀ user, settled' user → settled user) : Kept s later settled' c where
  listed := kept.listed
  sound known found read after := kept.sound (fewer _ known) found read (Int.le_trans passed after)

theorem Kept.lists (kept : Kept s now settled c) (user : Uuid) : c.Lists user :=
  fun _ _ _ entry => kept.listed entry

/-- An entry that may be used says what the data say. -/
theorem Kept.usable (kept : Kept s now settled c) (known : settled user)
    (found : c.usable? now user org = some p) : s.computed now user org = .ok p := by
  obtain ⟨r, -, found⟩ := Option.bind_eq_some_iff.mp found
  obtain ⟨text, stored, found⟩ := Option.bind_eq_some_iff.mp found
  obtain ⟨entry, read, found⟩ := Option.bind_eq_some_iff.mp found
  split at found
  · rename_i fresh
    cases found
    exact kept.sound known stored read (Int.le_refl now) fresh
  · cases found

/-- An entry made from the data says what the data say. -/
theorem Kept.stored (kept : Kept s now settled c)
    (found : ActiveRoles.ofAssignments? now (s.assignmentsOf user) = some active)
    (computed : s.computed now user org = .ok p) :
    Kept s now settled (c.stored user org active p) where
  listed entry := (kept.lists _).stored (ids_ne_nil found) entry
  sound := by
    intro r user' org' text entry later known stored read passed fresh
    rcases find?_stored_entryKey stored with ⟨⟨-, rfl, rfl⟩, rfl⟩ | earlier
    · rw [CachedPrivileges.decode?_encode] at read
      split at read
      · cases read
        rw [SourceData.computed_of_fresh found passed fresh]
        exact computed
      · cases read
    · exact kept.sound known earlier read passed fresh

theorem Kept.refreshed (kept : Kept s now settled c) :
    Kept s now settled (c.refreshed s now user org) := by
  rw [CacheContent.refreshed]
  split
  · exact kept
  · rename_i active found
    split
    · exact kept
    · rename_i p granted
      refine kept.stored found ?_
      rw [SourceData.computed, found]
      dsimp only
      rw [granted]
      rfl

/-- A user without entries is settled. -/
theorem Kept.withoutUser (kept : Kept s now settled c) (user : Uuid) :
    Kept s now (fun user' => user' = user ∨ settled user') (c.withoutUser user) where
  listed entry := (kept.lists _).withoutUser entry
  sound := by
    intro r user' org text entry later known stored read passed fresh
    have earlier := find?_of_withoutUser stored
    rcases known with rfl | known
    · obtain ⟨index, known, member⟩ := kept.listed earlier
      rw [find?_withoutUser_entryKey known member] at stored
      cases stored
    · exact kept.sound known earlier read passed fresh

/-- When the data change, no user is settled. -/
theorem Kept.replaced (kept : Kept s now settled c) (s' : SourceData) :
    Kept s' now (fun _ => False) c where
  listed := kept.listed
  sound known := known.elim

end CacheContent

end ScopedAccess
