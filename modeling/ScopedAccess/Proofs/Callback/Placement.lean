import ScopedAccess.Callback.Ordering
import Mathlib.Data.List.Nodup
import Mathlib.Data.List.Perm.Subperm
/-!
# Where placement puts callbacks

Placement begins a name at most once and puts every name that it has begun, so what one call adds
to the order is what it adds to the names begun (`Placement.Grows`), and names placed earlier keep
their order. In the end every callback is placed, also where anchors go in a circle
(`Placement.ofStations_perm`).

A callback that only wishes to run before one without wishes, directly or through others of its
kind, stands in front of its anchor (`Placement.pair_sublist_ofStations`).
-/

namespace ScopedAccess

set_option autoImplicit false

/-- In a list whose members have different keys, looking for a member's key finds the member. -/
theorem find?_of_key {α : Type} {key : α → String} {l : List α} (distinct : (l.map key).Nodup)
    {a : α} (member : a ∈ l) : l.find? (fun b => key b = key a) = some a := by
  cases found : l.find? fun b => key b = key a with
  | none =>
      have other := List.find?_eq_none.mp found a member
      simp at other
  | some b =>
      have same : key b = key a := by simpa using List.find?_some found
      rw [List.inj_on_of_nodup_map distinct (List.mem_of_find?_eq_some found) member same]

/-! ## Names next to an anchor -/

section Insertion

variable {anchor name : String} {l : List String}

theorem insertBefore_perm : (insertBefore anchor name l).Perm (name :: l) := by
  induction l with
  | nil => exact .refl _
  | cons n rest ih =>
      rw [insertBefore]
      split
      · exact .refl _
      · exact (ih.cons n).trans (.swap name n rest)

theorem insertAfter_perm : (insertAfter anchor name l).Perm (name :: l) := by
  induction l with
  | nil => exact .refl _
  | cons n rest ih =>
      rw [insertAfter]
      split
      · exact .swap name n rest
      · exact (ih.cons n).trans (.swap name n rest)

theorem sublist_insertBefore : l.Sublist (insertBefore anchor name l) := by
  induction l with
  | nil => exact List.nil_sublist _
  | cons n rest ih =>
      rw [insertBefore]
      split
      · exact List.sublist_cons_self _ _
      · exact ih.cons_cons n

theorem sublist_insertAfter : l.Sublist (insertAfter anchor name l) := by
  induction l with
  | nil => exact List.nil_sublist _
  | cons n rest ih =>
      rw [insertAfter]
      split
      · exact (List.sublist_cons_self _ _).cons_cons n
      · exact ih.cons_cons n

/-- A name put in front of an anchor that is there stands before it. -/
theorem pair_sublist_insertBefore (placed : anchor ∈ l) :
    [name, anchor].Sublist (insertBefore anchor name l) := by
  induction l with
  | nil => cases placed
  | cons n rest ih =>
      rw [insertBefore]
      split
      · rename_i here
        subst here
        exact ((List.nil_sublist rest).cons_cons n).cons_cons name
      · rename_i elsewhere
        have later : anchor ∈ rest := (List.mem_cons.mp placed).resolve_left (Ne.symm elsewhere)
        exact (ih later).cons n

end Insertion

namespace Placement

variable {stations : List Station} {p q : Placement} {s : Station} {name : String}

theorem put_order_perm : (p.put s).order.Perm (s.name :: p.order) := by
  rw [put]
  split
  · exact insertBefore_perm
  · exact insertAfter_perm
  · exact List.perm_append_singleton _ _

theorem sublist_put_order : p.order.Sublist (p.put s).order := by
  rw [put]
  split
  · exact sublist_insertBefore
  · exact sublist_insertAfter
  · exact List.sublist_append_left _ _

/-! ## What placing a name adds -/

/-- Some names have been begun and put, and those placed before are in the order they were in. -/
structure Grows (p q : Placement) (added : List String) : Prop where
  kept : p.order.Sublist q.order
  order : q.order.Perm (added ++ p.order)
  begun : q.begun.Perm (added ++ p.begun)

theorem Grows.refl (p : Placement) : p.Grows p [] := ⟨List.Sublist.refl _, .refl _, .refl _⟩

/-- A name begun is put after what is placed for its anchor. -/
theorem Grows.put {added : List String} (grows : Grows ⟨p.order, s.name :: p.begun⟩ q added) :
    p.Grows (q.put s) (s.name :: added) where
  kept := grows.kept.trans sublist_put_order
  order := put_order_perm.trans (grows.order.cons s.name)
  begun := grows.begun.trans List.perm_middle

theorem eq_of_find? (found : stations.find? (fun s => s.name = name) = some s) :
    s ∈ stations ∧ s.name = name := by
  obtain ⟨here, -⟩ := List.find?_eq_some_iff_append.mp found
  exact ⟨List.mem_of_find?_eq_some found, by simpa using here⟩

/-- Placing a name adds names of stations. -/
theorem exists_grows (stations : List Station) (depth : Nat) (p : Placement) (name : String) :
    ∃ added, p.Grows (place stations depth p name) added ∧
      added ⊆ stations.map Station.name := by
  induction depth generalizing p name with
  | zero => exact ⟨[], .refl p, List.nil_subset _⟩
  | succ depth ih =>
      rw [place]
      split
      · exact ⟨[], .refl p, List.nil_subset _⟩
      · split
        · exact ⟨[], .refl p, List.nil_subset _⟩
        · rename_i s found
          obtain ⟨member, rfl⟩ := eq_of_find? found
          have known : s.name ∈ stations.map Station.name := List.mem_map_of_mem member
          split
          · rename_i anchor _
            obtain ⟨added, grows, within⟩ := ih ⟨p.order, s.name :: p.begun⟩ anchor
            exact ⟨s.name :: added, grows.put, List.cons_subset.mpr ⟨known, within⟩⟩
          · exact ⟨[s.name], (Grows.refl _).put, by simpa using known⟩

theorem sublist_place_order (depth : Nat) (p : Placement) (name : String) :
    p.order.Sublist (place stations depth p name).order := by
  obtain ⟨added, grows, -⟩ := exists_grows stations depth p name
  exact grows.kept

/-- The names begun are those of different stations. -/
structure Begins (stations : List Station) (p : Placement) : Prop where
  nodup : p.begun.Nodup
  known : p.begun ⊆ stations.map Station.name

theorem Begins.cons (begins : Begins stations p) (member : s ∈ stations)
    (fresh : s.name ∉ p.begun) : Begins stations ⟨p.order, s.name :: p.begun⟩ where
  nodup := List.nodup_cons.mpr ⟨fresh, begins.nodup⟩
  known := List.cons_subset.mpr ⟨List.mem_map_of_mem member, begins.known⟩

theorem Begins.place (depth : Nat) (begins : Begins stations p) :
    Begins stations (place stations depth p name) := by
  induction depth generalizing p name with
  | zero => exact begins
  | succ depth ih =>
      rw [Placement.place]
      split
      · exact begins
      · rename_i fresh
        split
        · exact begins
        · rename_i s found
          obtain ⟨member, rfl⟩ := eq_of_find? found
          have begun := begins.cons member fresh
          split
          · exact ⟨(ih begun).nodup, (ih begun).known⟩
          · exact ⟨begun.nodup, begun.known⟩

/-- A name that has not begun stands among the names left, so that there are steps for it. -/
theorem Begins.depth_pos {depth : Nat} (begins : Begins stations p)
    (enough : stations.length < depth + p.begun.length) : 0 < depth := by
  have few := (List.subperm_of_subset begins.nodup begins.known).length_le
  rw [List.length_map] at few
  omega

/-! ## All stations are placed -/

/-- Nothing is begun that is not placed. -/
structure Whole (stations : List Station) (p : Placement) : Prop where
  begins : Begins stations p
  placed : p.order.Perm p.begun

theorem whole_empty : Whole stations empty :=
  ⟨⟨List.nodup_nil, List.nil_subset _⟩, .refl _⟩

theorem Whole.place (whole : Whole stations p) (depth : Nat) (name : String) :
    Whole stations (place stations depth p name) := by
  obtain ⟨added, grows, -⟩ := exists_grows stations depth p name
  exact ⟨whole.begins.place depth,
    grows.order.trans ((whole.placed.append_left added).trans grows.begun.symm)⟩

theorem mem_begun_place {depth : Nat} (member : s ∈ stations) :
    s.name ∈ (place stations (depth + 1) p s.name).begun := by
  rw [place]
  split
  · rename_i begun
    exact begun
  · split
    · rename_i missing
      have other := List.find?_eq_none.mp missing s member
      simp at other
    · rename_i t found
      obtain ⟨-, same⟩ := eq_of_find? found
      split
      · rename_i anchor _
        obtain ⟨added, grows, -⟩ :=
          exists_grows stations depth ⟨p.order, s.name :: p.begun⟩ anchor
        exact grows.begun.mem_iff.mpr (List.mem_append_right added List.mem_cons_self)
      · exact List.mem_cons_self

/-- What a run over stations places: all of them, and those placed already. -/
theorem whole_foldl (depth : Nat) (rest : List Station) (within : rest ⊆ stations)
    (whole : Whole stations p) :
    Whole stations (rest.foldl (fun p s => place stations (depth + 1) p s.name) p) ∧
      ∀ n, n ∈ p.begun ∨ n ∈ rest.map Station.name →
        n ∈ (rest.foldl (fun p s => place stations (depth + 1) p s.name) p).begun := by
  induction rest generalizing p with
  | nil => exact ⟨whole, fun n member => member.resolve_right List.not_mem_nil⟩
  | cons s rest ih =>
      obtain ⟨member, within⟩ := List.cons_subset.mp within
      obtain ⟨whole', begun⟩ := ih within (whole.place (depth + 1) s.name)
      refine ⟨whole', fun n before => begun n ?_⟩
      rw [List.map_cons, List.mem_cons] at before
      rcases before with earlier | rfl | later
      · obtain ⟨added, grows, -⟩ := exists_grows stations (depth + 1) p s.name
        exact .inl (grows.begun.mem_iff.mpr (List.mem_append_right added earlier))
      · exact .inl (mem_begun_place member)
      · exact .inr later

/-- Placement puts every station once. -/
theorem ofStations_perm (distinct : (stations.map Station.name).Nodup) :
    (ofStations stations).Perm (stations.map Station.name) := by
  obtain ⟨whole, begun⟩ :=
    whole_foldl stations.length stations (List.Subset.refl stations) whole_empty
  refine whole.placed.trans ((List.perm_ext_iff_of_nodup whole.begins.nodup distinct).mpr fun n => ?_)
  exact ⟨fun member => whole.begins.known member, fun member => begun n (.inr member)⟩

/-! ## Callbacks without wishes -/

theorem eq_of_name (distinct : (stations.map Station.name).Nodup) {t : Station}
    (member : s ∈ stations) (member' : t ∈ stations) (same : s.name = t.name) : s = t :=
  List.inj_on_of_nodup_map distinct member member' same

theorem place_of_free {depth : Nat} (distinct : (stations.map Station.name).Nodup)
    (member : s ∈ stations) (before : s.before = none) (after : s.after = none)
    (fresh : s.name ∉ p.begun) :
    place stations (depth + 1) p s.name = ⟨p.order ++ [s.name], s.name :: p.begun⟩ := by
  rw [place, if_neg fresh, find?_of_key distinct member]
  simp only [before, after, Option.or_none]
  rw [put, before, after]

theorem foldl_place_free (depth : Nat) (distinct : (stations.map Station.name).Nodup)
    (rest : List Station) (within : rest ⊆ stations) (nodup : (rest.map Station.name).Nodup)
    (free : ∀ s ∈ rest, s.before = none ∧ s.after = none)
    (fresh : ∀ n ∈ rest.map Station.name, n ∉ p.begun) :
    (rest.foldl (fun p s => place stations (depth + 1) p s.name) p).order =
      p.order ++ rest.map Station.name := by
  induction rest generalizing p with
  | nil => simp
  | cons s rest ih =>
      obtain ⟨member, within⟩ := List.cons_subset.mp within
      obtain ⟨new, nodup⟩ := List.nodup_cons.mp nodup
      obtain ⟨⟨before, after⟩, free⟩ := List.forall_mem_cons.mp free
      obtain ⟨freshHead, fresh⟩ := List.forall_mem_cons.mp fresh
      rw [List.foldl_cons, place_of_free distinct member before after freshHead,
        ih within nodup free, List.append_assoc]
      · rfl
      · intro n later
        have other : n ≠ s.name := by
          rintro rfl
          exact new later
        exact List.not_mem_cons_of_ne_of_not_mem other (fresh n later)

theorem sublist_foldl_place {depth : Nat} (rest : List Station) (p : Placement) :
    p.order.Sublist (rest.foldl (fun p s => place stations depth p s.name) p).order := by
  induction rest generalizing p with
  | nil => exact List.Sublist.refl _
  | cons s rest ih => exact (sublist_place_order depth p s.name).trans (ih _)

/-- Callbacks without wishes that are registered first keep their order. -/
theorem free_sublist_ofStations {free rest : List Station}
    (distinct : ((free ++ rest).map Station.name).Nodup)
    (unasking : ∀ s ∈ free, s.before = none ∧ s.after = none) :
    (free.map Station.name).Sublist (ofStations (free ++ rest)) := by
  have nodup : (free.map Station.name).Nodup := by
    rw [List.map_append] at distinct
    exact (List.nodup_append.mp distinct).1
  have first := foldl_place_free (p := empty) (free ++ rest).length distinct free
    (List.subset_append_left _ _) nodup unasking fun _ _ => List.not_mem_nil
  rw [ofStations, List.foldl_append]
  refine List.Sublist.trans ?_ (sublist_foldl_place rest _)
  rw [first]
  exact List.Sublist.refl _

/-! ## Callbacks in front of others -/

/-- A callback stands in line if it has no wishes, or wishes only to run before one that stands in
line. Its place is the number of those in front of which it stands. -/
inductive InLine (stations : List Station) : Nat → String → Prop
  | head {s : Station} (member : s ∈ stations) (before : s.before = none)
      (after : s.after = none) : InLine stations 0 s.name
  | behind {s : Station} {anchor : String} {n : Nat} (member : s ∈ stations)
      (before : s.before = some anchor) (after : s.after = none)
      (line : InLine stations n anchor) : InLine stations (n + 1) s.name

theorem InLine.exists_station {n : Nat} (line : InLine stations n name) :
    ∃ s ∈ stations, s.name = name ∧ s.after = none ∧
      ((n = 0 ∧ s.before = none) ∨
        ∃ anchor m, n = m + 1 ∧ s.before = some anchor ∧ InLine stations m anchor) := by
  cases line with
  | head member before after => exact ⟨_, member, rfl, after, .inl ⟨rfl, before⟩⟩
  | behind member before after line =>
      exact ⟨_, member, rfl, after, .inr ⟨_, _, rfl, before, line⟩⟩

section Distinct

variable (distinct : (stations.map Station.name).Nodup)

include distinct

/-- The next in line is the anchor. -/
theorem InLine.next {n : Nat} {anchor : String} (line : InLine stations n s.name)
    (member : s ∈ stations) (anchored : s.before.or s.after = some anchor) :
    s.before = some anchor ∧ ∃ m, n = m + 1 ∧ InLine stations m anchor := by
  obtain ⟨t, member', same, after, place⟩ := line.exists_station
  obtain rfl := eq_of_name distinct member' member same
  rcases place with ⟨-, before⟩ | ⟨anchor', m, next, before, line⟩
  · rw [before, after] at anchored
    cases anchored
  · rw [before, Option.some_or] at anchored
    cases anchored
    exact ⟨before, m, next, line⟩

theorem InLine.unique {n m : Nat} (line : InLine stations n name)
    (line' : InLine stations m name) : n = m := by
  induction line generalizing m with
  | @head s member before after =>
      obtain ⟨t, member', same, -, place⟩ := line'.exists_station
      obtain rfl := eq_of_name distinct member' member same
      rcases place with ⟨rfl, -⟩ | ⟨anchor, k, -, asks, -⟩
      · rfl
      · rw [before] at asks
        cases asks
  | @behind s anchor n member before after _ ih =>
      obtain ⟨-, k, rfl, next⟩ := line'.next distinct member (by rw [before, Option.some_or])
      rw [ih next]

/-- All callbacks in line that have been placed stand before their anchors. -/
def Faces (stations : List Station) (p : Placement) : Prop :=
  ∀ s ∈ stations, ∀ anchor n, s.before = some anchor → InLine stations n s.name →
    s.name ∈ p.order → [s.name, anchor].Sublist p.order

theorem Faces.put (faces : Faces stations p) (member : s ∈ stations)
    (front : ∀ anchor n, s.before = some anchor → InLine stations n s.name → anchor ∈ p.order) :
    Faces stations (p.put s) := by
  intro t member' anchor n before line placed
  rcases List.mem_cons.mp (put_order_perm.mem_iff.mp placed) with same | placed
  · obtain rfl := eq_of_name distinct member' member same
    rw [Placement.put, before]
    exact pair_sublist_insertBefore (front anchor n before line)
  · exact (faces t member' anchor n before line placed).trans sublist_put_order

/-- Placing a name keeps callbacks in line before their anchors. Of those begun and not placed yet
all have to stand further in front than the name, so that its own anchor is none of them. -/
theorem Faces.place {depth : Nat} (faces : Faces stations p) (begins : Begins stations p)
    (enough : stations.length < depth + p.begun.length)
    (waiting : ∀ x n, InLine stations n x → x ∈ p.begun →
      x ∈ p.order ∨ ∃ m < n, InLine stations m name) :
    Faces stations (Placement.place stations depth p name) ∧
      ∀ n, InLine stations n name → name ∈ (Placement.place stations depth p name).order := by
  induction depth generalizing p name with
  | zero => exact absurd (begins.depth_pos enough) (Nat.lt_irrefl 0)
  | succ depth ih =>
      rw [Placement.place]
      split
      · rename_i begun
        refine ⟨faces, fun n line => (waiting name n line begun).resolve_right ?_⟩
        rintro ⟨m, less, line'⟩
        exact absurd (line.unique distinct line') (Nat.ne_of_gt less)
      · rename_i fresh
        split
        · rename_i missing
          refine ⟨faces, fun n line => ?_⟩
          obtain ⟨s, member, same, -⟩ := line.exists_station
          exact absurd same (by simpa using List.find?_eq_none.mp missing s member)
        · rename_i s found
          obtain ⟨member, rfl⟩ := eq_of_find? found
          have placed : ∀ q : Placement, s.name ∈ (q.put s).order :=
            fun q => put_order_perm.mem_iff.mpr List.mem_cons_self
          split
          · rename_i anchor anchored
            have begun := begins.cons member fresh
            have enough' : stations.length < depth + (s.name :: p.begun).length := by
              rw [List.length_cons]
              omega
            have faces₀ : Faces stations ⟨p.order, s.name :: p.begun⟩ := faces
            obtain ⟨faces', front⟩ := ih faces₀ begun enough' fun x n line member' => by
              rcases List.mem_cons.mp member' with rfl | earlier
              · obtain ⟨-, m, rfl, next⟩ := line.next distinct member anchored
                exact .inr ⟨m, Nat.lt_succ_self m, next⟩
              · refine (waiting x n line earlier).imp_right ?_
                rintro ⟨m, less, line'⟩
                obtain ⟨-, k, rfl, next⟩ := line'.next distinct member anchored
                exact ⟨k, Nat.lt_of_succ_lt less, next⟩
            refine ⟨faces'.put distinct member fun anchor' n before line => ?_,
              fun _ _ => placed _⟩
            obtain ⟨before', m, -, next⟩ := line.next distinct member anchored
            rw [before] at before'
            cases before'
            exact front m next
          · rename_i unanchored
            refine ⟨Faces.put distinct faces member fun anchor n before _ => ?_,
              fun _ _ => placed _⟩
            rw [before, Option.some_or] at unanchored
            cases unanchored

theorem faces_foldl (rest : List Station) (whole : Whole stations p)
    (faces : Faces stations p) :
    Faces stations
      (rest.foldl (fun p s => Placement.place stations (stations.length + 1) p s.name) p) := by
  induction rest generalizing p with
  | nil => exact faces
  | cons s rest ih =>
      refine ih (whole.place _ s.name) (faces.place distinct whole.begins (by omega) ?_).1
      exact fun x n _ begun => .inl (whole.placed.mem_iff.mpr begun)

/-- A callback in line is placed in front of its anchor. -/
theorem pair_sublist_ofStations {anchor : String} {n : Nat} (member : s ∈ stations)
    (before : s.before = some anchor) (line : InLine stations n s.name) :
    [s.name, anchor].Sublist (ofStations stations) := by
  have faces := faces_foldl distinct stations whole_empty
    (fun _ _ _ _ _ _ placed => by cases placed)
  refine faces s member anchor n before line ?_
  exact (ofStations_perm distinct).mem_iff.mpr (List.mem_map_of_mem member)

end Distinct

end Placement

end ScopedAccess
