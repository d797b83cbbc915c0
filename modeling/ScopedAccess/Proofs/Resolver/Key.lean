import ScopedAccess.Proofs.Identifier
import ScopedAccess.Resolver.Cache
import Mathlib.Data.List.Basic
import Mathlib.Data.List.Induction
/-!
# Keys apart

The two identifiers at the end of an entry's key have fixed widths, so the key tells the role set,
the user and the organization (`entryKey_inj`), and it is longer than the keys of the other two
families. Identifiers and role sets have no underscore, so the start of a user's entries for a role
set is that of no other entry (`begins_entryKey_iff`), and of no pointer and no list of role sets
(`pointerKey_not_begins`, `roleSetsKey_not_begins`).

Commas and semicolons stand in no identifier, and no piece between them is empty, so that pieces are
read back (`filter_splitOn_intercalate`): the text of some roles tells the set of them
(`joinRoleIds_inj`), and a list of role sets has those that have been added, each once, in the order
in which they were added first (`listsAdded_roleSets`).

* `keys_unambiguous`: what keys and their starts tell, and what lists of role sets hold.
-/

namespace ScopedAccess

set_option autoImplicit false

/-! ## Characters of identifiers -/

namespace Uuid

variable {c : Char}

theorem mem_hyphenate {ns : List Nat} {ds : List Char} (member : c ∈ hyphenate ns ds) :
    c = '-' ∨ c ∈ ds := by
  induction ns generalizing ds with
  | nil => cases member
  | cons n ns ih =>
      cases ns with
      | nil => exact .inr (List.mem_of_mem_take member)
      | cons k ns =>
          rcases List.mem_append.mp member with first | later
          · exact .inr (List.mem_of_mem_take first)
          · rcases List.mem_cons.mp later with hyphen | later
            · exact .inl hyphen
            · exact (ih later).imp_right List.mem_of_mem_drop

theorem mem_digits {count n : Nat} (member : c ∈ digits count n) : ∃ d < 16, c = hexDigit d := by
  induction count generalizing n with
  | zero => cases member
  | succ count ih =>
      rcases List.mem_append.mp member with earlier | last
      · exact ih earlier
      · exact ⟨n % 16, Nat.mod_lt n (by decide), List.mem_singleton.mp last⟩

/-- The characters of an identifier are digits and hyphens. -/
theorem mem_chars {u : Uuid} (member : c ∈ u.chars) : c = '-' ∨ ∃ d < 16, c = hexDigit d :=
  (mem_hyphenate member).imp_right mem_digits

theorem not_mem_chars {u : Uuid} (hyphen : c ≠ '-') (digit : ∀ d < 16, c ≠ hexDigit d) :
    c ∉ u.chars := fun member => by
  rcases mem_chars member with same | ⟨d, small, same⟩
  · exact hyphen same
  · exact digit d small same

theorem underscore_not_mem_chars (u : Uuid) : '_' ∉ u.chars :=
  not_mem_chars (by decide) (by decide)

theorem semicolon_not_mem_chars (u : Uuid) : ';' ∉ u.chars :=
  not_mem_chars (by decide) (by decide)

theorem comma_not_mem_chars (u : Uuid) : ',' ∉ u.chars :=
  not_mem_chars (by decide) (by decide)

theorem text_length (u : Uuid) : u.text.length = 36 := by
  rw [text, String.length_ofList, chars_length]

end Uuid

/-! ## The families of keys -/

section Keys

variable {r r' : String} {user user' org org' : Uuid}

theorem length_entryKey : (entryKey r user org).length = 85 + r.length := by
  simp only [entryKey, entriesStart, String.length_append, Uuid.text_length, keyStart]
  rw [show "privileges_".length = 11 from rfl, show "_".length = 1 from rfl]
  omega

theorem length_pointerKey : (pointerKey user).length = 53 := by
  simp only [pointerKey, String.length_append, Uuid.text_length, keyStart]
  rfl

theorem length_roleSetsKey : (roleSetsKey user).length = 52 := by
  simp only [roleSetsKey, String.length_append, Uuid.text_length, keyStart]
  rfl

theorem entryKey_ne_pointerKey : entryKey r user org ≠ pointerKey user' := by
  intro same
  have lengths := congrArg String.length same
  rw [length_entryKey, length_pointerKey] at lengths
  omega

theorem entryKey_ne_roleSetsKey : entryKey r user org ≠ roleSetsKey user' := by
  intro same
  have lengths := congrArg String.length same
  rw [length_entryKey, length_roleSetsKey] at lengths
  omega

theorem pointerKey_ne_roleSetsKey : pointerKey user ≠ roleSetsKey user' := by
  intro same
  have lengths := congrArg String.length same
  rw [length_pointerKey, length_roleSetsKey] at lengths
  cases lengths

theorem roleSetsKey_inj : roleSetsKey user = roleSetsKey user' ↔ user = user' := by
  rw [roleSetsKey, roleSetsKey, String.append_right_inj, Uuid.text_inj]

theorem pointerKey_inj : pointerKey user = pointerKey user' ↔ user = user' := by
  rw [pointerKey, pointerKey, String.append_right_inj, Uuid.text_inj]

/-- The key of an entry tells the role set, the user and the organization. -/
theorem entryKey_inj :
    entryKey r user org = entryKey r' user' org' ↔ r = r' ∧ user = user' ∧ org = org' := by
  refine ⟨fun same => ?_, fun ⟨same, same', same''⟩ => by rw [same, same', same'']⟩
  have width : ∀ u v : Uuid, u.text.toList.length = v.text.toList.length := fun u v => by
    rw [String.length_toList, String.length_toList, Uuid.text_length, Uuid.text_length]
  have lists := congrArg String.toList same
  simp only [entryKey, entriesStart, String.toList_append] at lists
  obtain ⟨lists, orgs⟩ := List.append_inj' lists (width org org')
  obtain ⟨lists, -⟩ := List.append_inj' lists rfl
  obtain ⟨lists, users⟩ := List.append_inj' lists (width user user')
  obtain ⟨lists, -⟩ := List.append_inj' lists rfl
  exact ⟨String.toList_inj.mp (List.append_cancel_left lists),
    Uuid.text_inj.mp (String.toList_inj.mp users), Uuid.text_inj.mp (String.toList_inj.mp orgs)⟩

/-- All keys of entries of a user for a role set have one start. -/
theorem entryKey_begins :
    (entriesStart r user).toList <+: (entryKey r user org).toList := by
  rw [entryKey, String.toList_append]
  exact List.prefix_append _ _

/-- Underscores tell the starts of entries from the keys of the other families. -/
theorem not_begins_of_few {key : String} (few : key.toList.count '_' < 3) :
    ¬ (entriesStart r user).toList <+: key.toList := by
  intro begins
  have several := begins.sublist.count_le '_'
  simp only [entriesStart, String.toList_append, List.count_append] at several
  have start : keyStart.toList.count '_' = 1 := rfl
  have mark : "_".toList.count '_' = 1 := rfl
  omega

theorem count_underscore_text (u : Uuid) : u.text.toList.count '_' = 0 := by
  rw [Uuid.text, String.toList_ofList]
  exact List.count_eq_zero_of_not_mem u.underscore_not_mem_chars

/-- Keys of role sets start like no entry. -/
theorem roleSetsKey_not_begins :
    ¬ (entriesStart r user).toList <+: (roleSetsKey user').toList := by
  apply not_begins_of_few
  rw [roleSetsKey, String.toList_append, List.count_append, count_underscore_text]
  decide

/-- Pointers start like no entry. -/
theorem pointerKey_not_begins :
    ¬ (entriesStart r user).toList <+: (pointerKey user').toList := by
  apply not_begins_of_few
  rw [pointerKey, String.toList_append, List.count_append, count_underscore_text]
  decide

/-- What stands before the first mark, and what stands behind it. -/
theorem split_at_mark {mark : Char} {xs xs' ys ys' : List Char} (plain : mark ∉ xs)
    (plain' : mark ∉ xs') (same : xs ++ mark :: ys = xs' ++ mark :: ys') :
    xs = xs' ∧ ys = ys' := by
  induction xs generalizing xs' with
  | nil =>
      cases xs' with
      | nil => exact ⟨rfl, (List.cons.inj same).2⟩
      | cons x' xs' =>
          obtain ⟨rfl, -⟩ := List.cons.inj same
          exact absurd List.mem_cons_self plain'
  | cons x xs ih =>
      cases xs' with
      | nil =>
          obtain ⟨rfl, -⟩ := List.cons.inj same
          exact absurd List.mem_cons_self plain
      | cons x' xs' =>
          obtain ⟨rfl, rest⟩ := List.cons.inj same
          obtain ⟨same, behind⟩ := ih (fun member => plain (List.mem_cons_of_mem x member))
            (fun member => plain' (List.mem_cons_of_mem x member)) rest
          exact ⟨congrArg (x :: ·) same, behind⟩

/-- Which entries have the start of a user's entries for a role set: those alone, as role sets
are written without underscores. -/
theorem begins_entryKey_iff (plain : '_' ∉ r.toList) (plain' : '_' ∉ r'.toList) :
    (entriesStart r user).toList <+: (entryKey r' user' org).toList ↔ r = r' ∧ user = user' := by
  constructor
  · rintro ⟨rest, same⟩
    have mark : "_".toList = ['_'] := rfl
    simp only [entryKey, entriesStart, String.toList_append, List.append_assoc, mark,
      List.singleton_append, List.append_cancel_left_eq] at same
    obtain ⟨roleSets, behind⟩ := split_at_mark plain plain' same
    have width : user.text.toList.length = user'.text.toList.length := by
      rw [String.length_toList, String.length_toList, Uuid.text_length, Uuid.text_length]
    obtain ⟨users, -⟩ := List.append_inj behind width
    exact ⟨String.toList_inj.mp roleSets, Uuid.text_inj.mp (String.toList_inj.mp users)⟩
  · rintro ⟨rfl, rfl⟩
    exact entryKey_begins

end Keys

/-! ## Lists of role sets -/

section RoleSets

variable {separator : Char} {cs : List Char} {roleSet other : String} {index : Option String}

theorem splitChars_cons (c : Char) : splitChars separator (c :: cs) =
    if c = separator then [] :: splitChars separator cs
    else
      match splitChars separator cs with
      | piece :: rest => (c :: piece) :: rest
      | [] => [[c]] := rfl

theorem splitChars_eq_splitOn : splitChars separator cs = cs.splitOn separator := by
  induction cs with
  | nil => rfl
  | cons c cs ih =>
      obtain ⟨piece, rest, split⟩ := List.exists_cons_of_ne_nil (List.splitOn_ne_nil separator cs)
      rw [splitChars_cons, List.splitOn_cons_eq_if_modifyHead, ih, split]
      simp only [beq_iff_eq, List.modifyHead_cons]

/-- No piece has the separator. -/
theorem separator_not_mem {piece : List Char} (member : piece ∈ cs.splitOn separator) :
    separator ∉ piece := by
  induction cs generalizing piece with
  | nil =>
      rw [List.splitOn_nil, List.mem_singleton] at member
      rw [member]
      exact List.not_mem_nil
  | cons c cs ih =>
      obtain ⟨first, rest, split⟩ := List.exists_cons_of_ne_nil (List.splitOn_ne_nil separator cs)
      rw [List.splitOn_cons_eq_if_modifyHead, split, List.modifyHead_cons] at member
      rw [split] at ih
      by_cases same : c = separator
      · rw [if_pos (beq_iff_eq.mpr same)] at member
        rcases List.mem_cons.mp member with rfl | later
        · exact List.not_mem_nil
        · exact ih later
      · rw [if_neg fun equal => same (beq_iff_eq.mp equal)] at member
        rcases List.mem_cons.mp member with rfl | later
        · exact List.not_mem_cons_of_ne_of_not_mem (Ne.symm same) (ih List.mem_cons_self)
        · exact ih (List.mem_cons_of_mem first later)

/-- Pieces without the separator are read from the text written of them, if none is empty. -/
theorem filter_splitOn_intercalate {pieces : List (List Char)}
    (plain : ∀ piece ∈ pieces, separator ∉ piece) (some_ : ∀ piece ∈ pieces, piece ≠ []) :
    (([separator].intercalate pieces).splitOn separator).filter (fun cs => !cs.isEmpty) =
      pieces := by
  cases pieces with
  | nil => rfl
  | cons piece rest =>
      rw [List.splitOn_intercalate separator plain (List.cons_ne_nil piece rest)]
      exact List.filter_eq_self.mpr fun cs member => by simpa using some_ cs member

/-- A role set that stands in lists: a text without semicolons. -/
structure Listable (roleSet : String) : Prop where
  some_ : roleSet ≠ ""
  plain : ';' ∉ roleSet.toList

/-- Role sets are read from the list written of them. -/
theorem roleSets_intercalate {known : List String} (listable : ∀ r ∈ known, Listable r) :
    roleSets (String.intercalate ";" known) = known := by
  have semicolon : ";".toList = [';'] := rfl
  rw [roleSets, splitChars_eq_splitOn, String.toList_intercalate, semicolon,
    filter_splitOn_intercalate, List.map_map]
  · exact (List.map_congr_left fun r _ => String.ofList_toList).trans (List.map_id' known)
  · intro piece member
    obtain ⟨r, member', rfl⟩ := List.mem_map.mp member
    exact (listable r member').plain
  · intro piece member
    obtain ⟨r, member', rfl⟩ := List.mem_map.mp member
    exact fun empty => (listable r member').some_ (String.toList_eq_nil_iff.mp empty)

theorem listable_of_mem_roleSets {list : String} (member : roleSet ∈ roleSets list) :
    Listable roleSet := by
  obtain ⟨cs, member', rfl⟩ := List.mem_map.mp member
  obtain ⟨piece, nonempty⟩ := List.mem_filter.mp member'
  rw [splitChars_eq_splitOn] at piece
  refine ⟨fun empty => ?_, ?_⟩
  · rw [← String.toList_eq_nil_iff, String.toList_ofList] at empty
    rw [empty] at nonempty
    cases nonempty
  · rw [String.toList_ofList]
    exact separator_not_mem piece

/-- A role set is added behind those that a list has, unless it is one of them. -/
theorem roleSets_addRoleSet (listable : Listable roleSet) :
    roleSets (addRoleSet index roleSet) =
      if roleSet ∈ roleSets (index.getD "") then roleSets (index.getD "")
      else roleSets (index.getD "") ++ [roleSet] := by
  have known : ∀ r ∈ roleSets (index.getD ""), Listable r := fun r => listable_of_mem_roleSets
  rw [addRoleSet, roleSets_intercalate]
  intro r member
  split at member
  · exact known r member
  · rcases List.mem_append.mp member with earlier | last
    · exact known r earlier
    · rw [List.mem_singleton.mp last]
      exact listable

/-- A list with one more role set has it, and those that it had. -/
theorem mem_roleSets_addRoleSet (listable : Listable roleSet) :
    other ∈ roleSets (addRoleSet index roleSet) ↔
      other ∈ roleSets (index.getD "") ∨ other = roleSet := by
  rw [roleSets_addRoleSet listable]
  split
  · rename_i listed
    exact (or_iff_left_of_imp fun same => same ▸ listed).symm
  · rw [List.mem_append, List.mem_singleton]

theorem mem_of_mem_intercalate {c : Char} {pieces : List (List Char)}
    (member : c ∈ [separator].intercalate pieces) : c = separator ∨ ∃ p ∈ pieces, c ∈ p := by
  induction pieces with
  | nil => cases member
  | cons p rest ih =>
      cases rest with
      | nil =>
          rw [List.intercalate_singleton] at member
          exact .inr ⟨p, List.mem_cons_self, member⟩
      | cons q rest =>
          rw [List.intercalate_cons_cons, List.append_assoc, List.mem_append,
            List.singleton_append, List.mem_cons] at member
          rcases member with first | mark | later
          · exact .inr ⟨p, List.mem_cons_self, first⟩
          · exact .inl mark
          · refine (ih later).imp_right ?_
            rintro ⟨piece, member, inside⟩
            exact ⟨piece, List.mem_cons_of_mem p member, inside⟩

theorem mem_intercalate {c : Char} {p : List Char} {pieces : List (List Char)} (inside : c ∈ p)
    (member : p ∈ pieces) : c ∈ [separator].intercalate pieces := by
  induction pieces with
  | nil => cases member
  | cons q rest ih =>
      cases rest with
      | nil =>
          rw [List.intercalate_singleton, ← List.mem_singleton.mp member]
          exact inside
      | cons q' rest =>
          rw [List.intercalate_cons_cons, List.append_assoc]
          rcases List.mem_cons.mp member with rfl | later
          · exact List.mem_append_left _ inside
          · exact List.mem_append_right _ (List.mem_append_right _ (ih later))

theorem toList_joinRoleIds (ids : List Uuid) : (joinRoleIds ids).toList =
    [','].intercalate ((SortedSet.ofList ids).toList.map Uuid.chars) := by
  have chars : String.toList ∘ Uuid.text = Uuid.chars :=
    funext fun u => String.toList_ofList
  rw [joinRoleIds, String.toList_intercalate, List.map_map, chars]
  rfl

/-- The text of some roles has commas and what identifiers have. -/
theorem mem_joinRoleIds {c : Char} {ids : List Uuid} (member : c ∈ (joinRoleIds ids).toList) :
    c = ',' ∨ ∃ id : Uuid, c ∈ id.chars := by
  rw [toList_joinRoleIds] at member
  rcases mem_of_mem_intercalate member with mark | ⟨cs, member, inside⟩
  · exact .inl mark
  · obtain ⟨id, -, rfl⟩ := List.mem_map.mp member
    exact .inr ⟨id, inside⟩

theorem underscore_not_mem_joinRoleIds (ids : List Uuid) : '_' ∉ (joinRoleIds ids).toList := by
  intro member
  rcases mem_joinRoleIds member with mark | ⟨id, inside⟩
  · exact absurd mark (by decide)
  · exact id.underscore_not_mem_chars inside

/-- The text of some roles stands in lists. -/
theorem listable_joinRoleIds {ids : List Uuid} (some_ : ids ≠ []) :
    Listable (joinRoleIds ids) := by
  refine ⟨fun empty => ?_, fun member => ?_⟩
  · obtain ⟨id, member⟩ := List.exists_mem_of_ne_nil ids some_
    have first : id ∈ (SortedSet.ofList ids).toList := SortedSet.mem_ofList.mpr member
    obtain ⟨d, -, rest, split⟩ := id.chars_eq_cons
    have inside : hexDigit d ∈ (joinRoleIds ids).toList := by
      rw [toList_joinRoleIds]
      exact mem_intercalate (split ▸ List.mem_cons_self) (List.mem_map_of_mem first)
    rw [empty] at inside
    exact List.not_mem_nil inside
  · rcases mem_joinRoleIds member with mark | ⟨id, inside⟩
    · exact absurd mark (by decide)
    · exact id.semicolon_not_mem_chars inside

/-- The ids of some roles are read from the text of their set. -/
theorem filter_splitOn_joinRoleIds (ids : List Uuid) :
    ((joinRoleIds ids).toList.splitOn ',').filter (fun cs => !cs.isEmpty) =
      (SortedSet.ofList ids).toList.map Uuid.chars := by
  rw [toList_joinRoleIds]
  refine filter_splitOn_intercalate (fun piece member => ?_) (fun piece member => ?_)
  · obtain ⟨id, -, rfl⟩ := List.mem_map.mp member
    exact id.comma_not_mem_chars
  · obtain ⟨id, -, rfl⟩ := List.mem_map.mp member
    exact List.ne_nil_of_length_pos (by rw [id.chars_length]; decide)

/-- The text of some roles tells the set of them. -/
theorem joinRoleIds_inj {ids ids' : List Uuid} :
    joinRoleIds ids = joinRoleIds ids' ↔ ∀ id, id ∈ ids ↔ id ∈ ids' := by
  constructor
  · intro same id
    have chars := filter_splitOn_joinRoleIds ids
    rw [same, filter_splitOn_joinRoleIds] at chars
    have members := (List.map_inj_right fun _ _ => Uuid.chars_inj.mp).mp chars
    rw [← SortedSet.mem_ofList (l := ids), ← SortedSet.mem_ofList (l := ids'), SortedSet.mem_iff,
      ← members, SortedSet.mem_iff]
  · intro same
    have sets : SortedSet.ofList ids = SortedSet.ofList ids' := SortedSet.ext_mem fun id => by
      rw [SortedSet.mem_ofList, SortedSet.mem_ofList, same]
    rw [joinRoleIds, sets, joinRoleIds]

/-- A list of role sets has those that have been added, each once, in the order in which they were
added first. -/
structure ListsAdded (known added : List String) : Prop where
  mem_iff : ∀ r, r ∈ known ↔ r ∈ added
  order : known.Pairwise fun r r' => added.idxOf r < added.idxOf r'

theorem ListsAdded.concat {known added : List String} (lists : ListsAdded known added)
    (r : String) : ListsAdded (if r ∈ known then known else known ++ [r]) (added ++ [r]) := by
  have earlier : ∀ r' ∈ known, (added ++ [r]).idxOf r' = added.idxOf r' :=
    fun r' member => List.idxOf_append_of_mem ((lists.mem_iff r').mp member)
  have order : known.Pairwise fun a b => (added ++ [r]).idxOf a < (added ++ [r]).idxOf b := by
    refine lists.order.imp_of_mem fun {a b} member member' less => ?_
    rw [earlier a member, earlier b member']
    exact less
  split
  · rename_i listed
    refine ⟨fun r' => ?_, order⟩
    rw [List.mem_append, List.mem_singleton, ← lists.mem_iff]
    exact (or_iff_left_of_imp fun same => same ▸ listed).symm
  · rename_i unlisted
    have last : (added ++ [r]).idxOf r = added.length := by
      rw [List.idxOf_append_of_notMem fun member => unlisted ((lists.mem_iff r).mpr member),
        List.idxOf_cons_self, Nat.add_zero]
    refine ⟨fun r' => by rw [List.mem_append, List.mem_append, lists.mem_iff], ?_⟩
    refine List.pairwise_append.mpr ⟨order, List.pairwise_singleton _ _, fun a member b only => ?_⟩
    rw [List.mem_singleton.mp only, last, earlier a member]
    exact List.idxOf_lt_length_iff.mpr ((lists.mem_iff a).mp member)

/-- The list of role sets after some have been added to none, one after the other. -/
def roleSetsAdded (sets : List (List Uuid)) : Option String :=
  sets.foldl (fun index ids => some (addRoleSet index (joinRoleIds ids))) none

theorem listsAdded_roleSets {sets : List (List Uuid)} (some_ : ∀ ids ∈ sets, ids ≠ []) :
    ListsAdded (roleSets ((roleSetsAdded sets).getD "")) (sets.map joinRoleIds) := by
  induction sets using List.reverseRecOn with
  | nil => exact ⟨fun _ => Iff.rfl, .nil⟩
  | append_singleton sets ids ih =>
      obtain ⟨earlier, last⟩ := List.forall_mem_append.mp some_
      have added : roleSetsAdded (sets ++ [ids]) =
          some (addRoleSet (roleSetsAdded sets) (joinRoleIds ids)) := by
        rw [roleSetsAdded, List.foldl_append]
        rfl
      rw [added, Option.getD_some,
        roleSets_addRoleSet (listable_joinRoleIds (last ids List.mem_cons_self)),
        List.map_append]
      exact (ih earlier).concat (joinRoleIds ids)

end RoleSets

/-- The key of an entry tells the set of roles, the user and the organization; it is the key of no
pointer and of no list of role sets, and those two are never the same. The start of a user's entries
for a set of roles is that of the user's entries for the same set alone, and of no pointer and no
list of role sets. A list to which sets of some roles are added holds each of them once, in the
order in which they were added first. -/
theorem keys_unambiguous (ids ids' : List Uuid) (user user' org org' : Uuid) :
    (entryKey (joinRoleIds ids) user org = entryKey (joinRoleIds ids') user' org' ↔
      (∀ id, id ∈ ids ↔ id ∈ ids') ∧ user = user' ∧ org = org') ∧
    entryKey (joinRoleIds ids) user org ≠ pointerKey user' ∧
    entryKey (joinRoleIds ids) user org ≠ roleSetsKey user' ∧
    pointerKey user ≠ roleSetsKey user' ∧
    ((entriesStart (joinRoleIds ids) user).toList <+:
        (entryKey (joinRoleIds ids') user' org').toList ↔
      (∀ id, id ∈ ids ↔ id ∈ ids') ∧ user = user') ∧
    ¬ (entriesStart (joinRoleIds ids) user).toList <+: (pointerKey user').toList ∧
    ¬ (entriesStart (joinRoleIds ids) user).toList <+: (roleSetsKey user').toList ∧
    ∀ sets : List (List Uuid), (∀ ids ∈ sets, ids ≠ []) →
      let listed := roleSets ((roleSetsAdded sets).getD "")
      listed.Nodup ∧ (∀ r, r ∈ listed ↔ ∃ ids ∈ sets, joinRoleIds ids = r) ∧
        listed.Pairwise fun r r' =>
          (sets.map joinRoleIds).idxOf r < (sets.map joinRoleIds).idxOf r' := by
  refine ⟨?_, entryKey_ne_pointerKey, entryKey_ne_roleSetsKey, pointerKey_ne_roleSetsKey, ?_,
    pointerKey_not_begins, roleSetsKey_not_begins, fun sets some_ => ?_⟩
  · rw [entryKey_inj, joinRoleIds_inj]
  · rw [begins_entryKey_iff (underscore_not_mem_joinRoleIds ids)
      (underscore_not_mem_joinRoleIds ids'), joinRoleIds_inj]
  · have lists := listsAdded_roleSets some_
    refine ⟨lists.order.imp fun less same => ?_, fun r => ?_, lists.order⟩
    · exact absurd (same ▸ less) (Nat.lt_irrefl _)
    · rw [lists.mem_iff, List.mem_map]

/-- Sets of roles, the first of them twice and in two orders. -/
def Notebook.shifts : List (List Uuid) :=
  [[.ofNat 2, .ofNat 1, .ofNat 2], [.ofNat 3], [.ofNat 1, .ofNat 2]]

open Notebook in
/-- A set of roles that is added again in another order is listed once. -/
theorem reordered_roles_listed_once : (∀ ids ∈ shifts, ids ≠ []) ∧
    (roleSets ((roleSetsAdded shifts).getD "")).Nodup ∧
    ∀ r, r ∈ roleSets ((roleSetsAdded shifts).getD "") ↔
      r = joinRoleIds [.ofNat 1, .ofNat 2] ∨ r = joinRoleIds [.ofNat 3] := by
  have some_ : ∀ ids ∈ shifts, ids ≠ [] := by decide
  obtain ⟨-, -, -, -, -, -, -, lists⟩ := keys_unambiguous [] [] .nil .nil .nil .nil
  obtain ⟨nodup, mem_iff, -⟩ := lists shifts some_
  have same : joinRoleIds [.ofNat 2, .ofNat 1, .ofNat 2] = joinRoleIds [.ofNat 1, .ofNat 2] :=
    joinRoleIds_inj.mpr fun id => by simp [or_comm, or_left_comm]
  refine ⟨some_, nodup, fun r => (mem_iff r).trans ?_⟩
  simp only [shifts, List.mem_cons, List.not_mem_nil, or_false, exists_eq_or_imp, exists_eq_left,
    same]
  grind

end ScopedAccess
