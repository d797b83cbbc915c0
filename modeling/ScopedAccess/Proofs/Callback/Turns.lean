import ScopedAccess.Proofs.Callback.Leading
import Mathlib.Data.List.Chain
/-!
# Turns of placement

A turn of placement goes from a callback to its anchor, from there to the anchor of the anchor, and
so on, until one asks for none or for one that has begun (`Placement.Turn`). It then puts the
callbacks it came by into the order, the last first. Each but the last finds its anchor there and
stands right beside it, so that to all others it stands as its anchor does (`onFlank_putIn_iff`).

What leads to one callback is therefore never parted by what does not (`Placement.Gathered`): a
callback beside its anchor keeps it so, and one at the end starts anew.
-/

namespace ScopedAccess

set_option autoImplicit false

open Relation (ReflTransGen)

/-! ## Beside an anchor -/

/-- The sides of an anchor. -/
inductive Flank where
  | front
  | behind

/-- The anchor on a side of which a callback asks to run. -/
def Station.wish (s : Station) : Flank → Option String
  | .front => s.before
  | .behind => s.after

/-- Whether a name stands on a side of another. -/
def OnFlank (order : List String) (name anchor : String) : Flank → Prop
  | .front => order.idxOf name < order.idxOf anchor
  | .behind => order.idxOf anchor < order.idxOf name

instance (order : List String) (name anchor : String) :
    ∀ flank, Decidable (OnFlank order name anchor flank)
  | .front => inferInstanceAs (Decidable (_ < _))
  | .behind => inferInstanceAs (Decidable (_ < _))

section Flanks

variable {order l l' : List String} {n a u v : String}

/-- A member stands on one side of any other name. -/
theorem idxOf_lt_or_lt (member : n ∈ order) (other : n ≠ a) :
    order.idxOf n < order.idxOf a ∨ order.idxOf a < order.idxOf n :=
  Nat.lt_or_gt_of_ne fun same => other ((List.idxOf_inj member).mp same)

/-- A list keeps two of its members in the order in which a longer one has them. -/
theorem idxOf_lt_iff_of_sublist (kept : l.Sublist l') (nodup : l'.Nodup) (member : n ∈ l)
    (member' : a ∈ l) : l'.idxOf n < l'.idxOf a ↔ l.idxOf n < l.idxOf a := by
  have forth : ∀ {x y}, y ∈ l → l.idxOf x < l.idxOf y → l'.idxOf x < l'.idxOf y :=
    fun member less =>
      idxOf_lt_of_sublist nodup ((sublist_of_idxOf_lt (nodup.sublist kept) member less).trans kept)
  refine ⟨fun less => ?_, forth member'⟩
  have other : n ≠ a := by
    rintro rfl
    exact Nat.lt_irrefl _ less
  exact (idxOf_lt_or_lt member other).resolve_right fun late =>
    Nat.lt_asymm less (forth member late)

theorem onFlank_iff_of_sublist {flank : Flank} (kept : l.Sublist l') (nodup : l'.Nodup)
    (member : n ∈ l) (member' : a ∈ l) : OnFlank l' n a flank ↔ OnFlank l n a flank := by
  cases flank with
  | front => exact idxOf_lt_iff_of_sublist kept nodup member member'
  | behind => exact idxOf_lt_iff_of_sublist kept nodup member' member

theorem OnFlank.not_self {flank : Flank} : ¬ OnFlank l n n flank := by
  cases flank <;> exact Nat.lt_irrefl _

/-- Two names that ask for the same side of each other cannot both stand there. -/
theorem OnFlank.not_mutual {flank : Flank} (stands : OnFlank l n a flank) :
    ¬ OnFlank l a n flank := by
  cases flank <;> exact Nat.lt_asymm stands

/-- One that stands on one side of another has that other on the opposite side of itself. -/
theorem OnFlank.opposite {flank flank' : Flank} (stands : OnFlank l n a flank)
    (other : flank' ≠ flank) : OnFlank l a n flank' := by
  cases flank <;> cases flank' <;> first | exact stands | exact absurd rfl other

end Flanks

section Insertion

variable {anchor name : String} {xs ys l : List String}

theorem insertBefore_append (first : anchor ∉ xs) :
    insertBefore anchor name (xs ++ anchor :: ys) = xs ++ name :: anchor :: ys := by
  induction xs with
  | nil => exact if_pos rfl
  | cons x xs ih =>
      obtain ⟨other, first⟩ := List.ne_and_not_mem_of_not_mem_cons first
      rw [List.cons_append, insertBefore, if_neg other.symm, ih first, List.cons_append]

theorem insertAfter_append (first : anchor ∉ xs) :
    insertAfter anchor name (xs ++ anchor :: ys) = xs ++ anchor :: name :: ys := by
  induction xs with
  | nil => exact if_pos rfl
  | cons x xs ih =>
      obtain ⟨other, first⟩ := List.ne_and_not_mem_of_not_mem_cons first
      rw [List.cons_append, insertAfter, if_neg other.symm, ih first, List.cons_append]

theorem insertBefore_of_not_mem (absent : anchor ∉ l) :
    insertBefore anchor name l = l ++ [name] := by
  induction l with
  | nil => rfl
  | cons x l ih =>
      obtain ⟨other, absent⟩ := List.ne_and_not_mem_of_not_mem_cons absent
      rw [insertBefore, if_neg other.symm, ih absent, List.cons_append]

theorem insertAfter_of_not_mem (absent : anchor ∉ l) :
    insertAfter anchor name l = l ++ [name] := by
  induction l with
  | nil => rfl
  | cons x l ih =>
      obtain ⟨other, absent⟩ := List.ne_and_not_mem_of_not_mem_cons absent
      rw [insertAfter, if_neg other.symm, ih absent, List.cons_append]

end Insertion

/-- Put a station into an order. -/
def Station.putIn (s : Station) (l : List String) : List String :=
  (Placement.put ⟨l, []⟩ s).order

section PutIn

variable {s : Station} {l : List String} {a u : String} {flank : Flank}

theorem putIn_perm : (s.putIn l).Perm (s.name :: l) := Placement.put_order_perm

theorem sublist_putIn : l.Sublist (s.putIn l) := Placement.sublist_put_order (p := ⟨l, []⟩)

theorem nodup_putIn (nodup : l.Nodup) (fresh : s.name ∉ l) : (s.putIn l).Nodup :=
  putIn_perm.nodup_iff.mpr (List.nodup_cons.mpr ⟨fresh, nodup⟩)

theorem mem_of_mem_putIn (member : u ∈ s.putIn l) (other : u ≠ s.name) : u ∈ l :=
  (List.mem_cons.mp (putIn_perm.mem_iff.mp member)).resolve_left other

/-- A station whose anchor is not there is put at the end. -/
theorem putIn_of_not_mem (absent : ∀ a, s.before.or s.after = some a → a ∉ l) :
    s.putIn l = l ++ [s.name] := by
  rw [Station.putIn, Placement.put]
  cases before : s.before with
  | some b =>
      rw [before, Option.some_or] at absent
      exact insertBefore_of_not_mem (absent b rfl)
  | none =>
      rw [before, Option.none_or] at absent
      cases after : s.after with
      | some b => exact insertAfter_of_not_mem (absent b after)
      | none => rfl

section Beside

variable (single : s.before = none ∨ s.after = none) (asks : s.wish flank = some a) (placed : a ∈ l)

include single asks placed

/-- A station whose anchor is there is put right beside it. -/
theorem exists_split_putIn : ∃ xs ys, l = xs ++ a :: ys ∧
    s.putIn l = match flank with
      | .front => xs ++ s.name :: a :: ys
      | .behind => (xs ++ [a]) ++ s.name :: ys := by
  obtain ⟨xs, ys, rfl, first⟩ := List.eq_append_cons_of_mem placed
  refine ⟨xs, ys, rfl, ?_⟩
  rw [Station.putIn, Placement.put]
  cases flank with
  | front =>
      rw [show s.before = some a from asks]
      exact insertBefore_append first
  | behind =>
      have after : s.after = some a := asks
      have before : s.before = none := single.resolve_right fun none => by simp [after] at none
      rw [before, after]
      exact (insertAfter_append first).trans (List.append_assoc xs [a] _).symm

variable (nodup : l.Nodup) (fresh : s.name ∉ l)

include nodup fresh

/-- What stands in front of a station put beside its anchor is what stands in front of the anchor,
the anchor itself apart. -/
theorem idxOf_putIn_lt_iff (other : u ≠ a) :
    (s.putIn l).idxOf u < (s.putIn l).idxOf s.name ↔ l.idxOf u < l.idxOf a := by
  have nodup' := nodup_putIn nodup fresh
  obtain ⟨xs, ys, rfl, put⟩ := exists_split_putIn single asks placed
  rw [put] at nodup' ⊢
  rw [← mem_front_iff nodup]
  cases flank with
  | front => rw [← mem_front_iff nodup']
  | behind => rw [← mem_front_iff nodup', List.mem_append, List.mem_singleton, or_iff_left other]

theorem lt_idxOf_putIn_iff (other : u ≠ a) (other' : u ≠ s.name) :
    (s.putIn l).idxOf s.name < (s.putIn l).idxOf u ↔ l.idxOf a < l.idxOf u := by
  have front := idxOf_putIn_lt_iff single asks placed nodup fresh other
  have put : s.name ∈ s.putIn l := putIn_perm.mem_iff.mpr List.mem_cons_self
  have side := idxOf_lt_or_lt put other'.symm
  have side' := idxOf_lt_or_lt placed other.symm
  omega

/-- To all but its anchor a station put beside it stands as the anchor does. -/
theorem onFlank_putIn_iff {flank' : Flank} (other : u ≠ a) (other' : u ≠ s.name) :
    OnFlank (s.putIn l) s.name u flank' ↔ OnFlank l a u flank' := by
  cases flank' with
  | front => exact lt_idxOf_putIn_iff single asks placed nodup fresh other other'
  | behind => exact idxOf_putIn_lt_iff single asks placed nodup fresh other

/-- A station put beside its anchor stands on the side for which it asks. -/
theorem onFlank_putIn : OnFlank (s.putIn l) s.name a flank := by
  have nodup' := nodup_putIn nodup fresh
  obtain ⟨xs, ys, rfl, put⟩ := exists_split_putIn single asks placed
  rw [put] at nodup' ⊢
  cases flank with
  | front =>
      refine idxOf_lt_of_sublist nodup' (List.Sublist.trans ?_ (List.sublist_append_right xs _))
      exact ((List.nil_sublist ys).cons_cons a).cons_cons s.name
  | behind =>
      exact (mem_front_iff nodup').mp (List.mem_append_right xs (List.mem_singleton_self a))

/-- What stood where a name stands now, before a station was put beside its anchor. -/
def Station.standIn (s : Station) (anchor name : String) : String :=
  if name = s.name then anchor else name

omit single asks nodup fresh in
theorem standIn_mem (member : u ∈ s.putIn l) : s.standIn a u ∈ l := by
  rw [Station.standIn]
  split
  · exact placed
  · rename_i other
    exact mem_of_mem_putIn member other

/-- A station put beside its anchor stands among the others where the anchor has stood. -/
theorem idxOf_standIn_le {v : String} (member : u ∈ s.putIn l) (member' : v ∈ s.putIn l)
    (less : (s.putIn l).idxOf u < (s.putIn l).idxOf v) :
    l.idxOf (s.standIn a u) ≤ l.idxOf (s.standIn a v) := by
  have nodup' := nodup_putIn nodup fresh
  rw [Station.standIn, Station.standIn]
  split <;> rename_i first <;> split <;> rename_i second
  · exact Nat.le_refl _
  · subst first
    by_cases same : v = a
    · rw [same]
    · exact Nat.le_of_lt
        ((lt_idxOf_putIn_iff single asks placed nodup fresh same second).mp less)
  · subst second
    by_cases same : u = a
    · rw [same]
    · exact Nat.le_of_lt ((idxOf_putIn_lt_iff single asks placed nodup fresh same).mp less)
  · exact Nat.le_of_lt ((idxOf_lt_iff_of_sublist sublist_putIn nodup'
      (mem_of_mem_putIn member first) (mem_of_mem_putIn member' second)).mp less)

end Beside

end PutIn

namespace Placement

variable {stations chain front rest : List Station} {p : Placement} {s t : Station}
  {n a u : String}

/-! ## The callbacks of a turn -/

/-- Whether a station is placed next to another. -/
def Linked (s t : Station) : Prop := s.before.or s.after = some t.name

theorem Linked.nextTo (linked : Linked s t) (member : s ∈ stations) :
    NextTo stations s.name t.name := ⟨s, member, rfl, linked⟩

/-- The callbacks that a turn comes by when it begins with a name: each but the last is followed by
its anchor, and the anchor of the last has begun. -/
structure Turn (stations : List Station) (p : Placement) (name : String)
    (chain : List Station) : Prop where
  within : chain ⊆ stations
  nodup : (chain.map Station.name).Nodup
  fresh : ∀ s ∈ chain, s.name ∉ p.begun
  start : (∃ s rest, chain = s :: rest ∧ s.name = name) ∨ chain = [] ∧ name ∈ p.begun
  linked : chain.IsChain Linked
  anchors : ∀ s ∈ chain, ∀ a, s.before.or s.after = some a →
    a ∈ p.begun ∨ a ∈ chain.map Station.name

/-- A turn that begins with a name whose anchor has begun, or with one without anchor. -/
theorem Turn.single (member : s ∈ stations) (fresh : s.name ∉ p.begun)
    (anchors : ∀ a, s.before.or s.after = some a → a ∈ s.name :: p.begun) :
    Turn stations p s.name [s] where
  within := List.cons_subset.mpr ⟨member, List.nil_subset _⟩
  nodup := List.nodup_singleton _
  fresh := List.forall_mem_singleton.mpr fresh
  start := .inl ⟨s, [], rfl, rfl⟩
  linked := List.isChain_singleton _
  anchors := List.forall_mem_singleton.mpr fun a asks =>
    (List.mem_cons.mp (anchors a asks)).symm.imp_right fun same => List.mem_singleton.mpr same

/-- A name begun, and then the turn of its anchor. -/
theorem Turn.cons {rest : List Station} (member : s ∈ stations) (fresh : s.name ∉ p.begun)
    (linked : Linked s t) (turn : Turn stations ⟨p.order, s.name :: p.begun⟩ t.name (t :: rest)) :
    Turn stations p s.name (s :: t :: rest) where
  within := List.cons_subset.mpr ⟨member, turn.within⟩
  nodup := by
    refine List.nodup_cons.mpr ⟨fun again => ?_, turn.nodup⟩
    obtain ⟨u, member', same⟩ := List.mem_map.mp again
    exact turn.fresh u member' (same ▸ List.mem_cons_self)
  fresh := List.forall_mem_cons.mpr
    ⟨fresh, fun u member' begun => turn.fresh u member' (List.mem_cons_of_mem _ begun)⟩
  start := .inl ⟨s, t :: rest, rfl, rfl⟩
  linked := turn.linked.cons_cons linked
  anchors := by
    refine List.forall_mem_cons.mpr ⟨fun a asks => .inr ?_, fun u member' a asks => ?_⟩
    · obtain rfl := Option.some.inj (linked.symm.trans asks)
      exact List.mem_cons_of_mem _ List.mem_cons_self
    · rcases turn.anchors u member' a asks with begun | later
      · rcases List.mem_cons.mp begun with rfl | earlier
        · exact .inr List.mem_cons_self
        · exact .inl earlier
      · exact .inr (List.mem_cons_of_mem _ later)

/-- Placing a name puts the callbacks of its turn into the order, the last first. -/
theorem exists_turn (depth : Nat) (distinct : (stations.map Station.name).Nodup)
    (anchored : ∀ a b, NextTo stations a b → b ∈ stations.map Station.name)
    (begins : Begins stations p) (enough : stations.length < depth + p.begun.length)
    (known : n ∈ stations.map Station.name) : ∃ chain, Turn stations p n chain ∧
      (place stations depth p n).order = chain.foldr Station.putIn p.order := by
  induction depth generalizing p n with
  | zero => exact absurd (begins.depth_pos enough) (Nat.lt_irrefl 0)
  | succ depth ih =>
      obtain ⟨s, member, rfl⟩ := List.mem_map.mp known
      by_cases begun : s.name ∈ p.begun
      · refine ⟨[], ⟨List.nil_subset _, List.nodup_nil, nofun, .inr ⟨rfl, begun⟩, .nil, nofun⟩, ?_⟩
        rw [place, if_pos begun]
        rfl
      · rw [place, if_neg begun, find?_of_key distinct member]
        cases asks : s.before.or s.after with
        | none =>
            simp only [asks]
            exact ⟨[s], .single member begun (by simp [asks]), rfl⟩
        | some anchor =>
            simp only [asks]
            have next : NextTo stations s.name anchor := ⟨s, member, rfl, asks⟩
            obtain ⟨chain, turn, placed⟩ := ih (begins.cons member begun)
              (by rw [List.length_cons]; omega) (anchored _ _ next)
            refine ⟨s :: chain, ?_, congrArg s.putIn placed⟩
            rcases turn.start with ⟨t, rest, rfl, rfl⟩ | ⟨rfl, earlier⟩
            · exact turn.cons member begun asks
            · refine .single member begun fun a asks' => ?_
              obtain rfl := Option.some.inj (asks.symm.trans asks')
              exact earlier

/-! ## The order that a turn leaves -/

theorem foldr_putIn_perm {l : List String} :
    (chain.foldr Station.putIn l).Perm (chain.map Station.name ++ l) := by
  induction chain with
  | nil => exact .refl _
  | cons s chain ih => exact putIn_perm.trans (ih.cons s.name)

theorem sublist_foldr_putIn {l : List String} : l.Sublist (chain.foldr Station.putIn l) := by
  induction chain with
  | nil => exact .refl _
  | cons s chain ih => exact ih.trans sublist_putIn

theorem mem_foldr_putIn {l : List String} (member : s ∈ chain) :
    s.name ∈ chain.foldr Station.putIn l :=
  foldr_putIn_perm.mem_iff.mpr (List.mem_append_left l (List.mem_map_of_mem member))

theorem nodup_foldr_putIn {l : List String} (nodup : (chain.map Station.name ++ l).Nodup) :
    (chain.foldr Station.putIn l).Nodup := foldr_putIn_perm.nodup_iff.mpr nodup

theorem fresh_foldr_putIn {l : List String} (nodup : ((s :: chain).map Station.name ++ l).Nodup) :
    s.name ∉ chain.foldr Station.putIn l := fun placed =>
  (List.nodup_cons.mp nodup).1 (foldr_putIn_perm.mem_iff.mp placed)

theorem asks_of_wish {flank : Flank} (single : s.before = none ∨ s.after = none)
    (wish : s.wish flank = some a) : s.before.or s.after = some a := by
  cases flank with
  | front => exact Option.or_eq_some_iff.mpr (.inl wish)
  | behind =>
      have after : s.after = some a := wish
      refine Option.or_eq_some_iff.mpr (.inr ⟨single.resolve_right fun none => ?_, after⟩)
      rw [after] at none
      cases none

theorem exists_wish (asks : s.before.or s.after = some a) : ∃ flank, s.wish flank = some a := by
  rcases Option.or_eq_some_iff.mp asks with before | ⟨-, after⟩
  · exact ⟨.front, before⟩
  · exact ⟨.behind, after⟩

section Single

variable {l : List String} (single : ∀ s ∈ stations, s.before = none ∨ s.after = none)

include single

/-- A callback of a turn whose anchor is there when its turn comes stands where it asks to stand,
whatever is put into the order after it. -/
theorem onFlank_foldr_putIn {flank : Flank} (member : s ∈ stations) (wish : s.wish flank = some a)
    (nodup : ((front ++ s :: rest).map Station.name ++ l).Nodup)
    (placed : a ∈ rest.map Station.name ++ l) :
    OnFlank ((front ++ s :: rest).foldr Station.putIn l) s.name a flank := by
  have nodup' := nodup_foldr_putIn nodup
  rw [List.map_append, List.append_assoc] at nodup
  have later := (List.nodup_append.mp nodup).2.1
  have placed' := foldr_putIn_perm.mem_iff.mpr placed
  have stands := onFlank_putIn (single s member) wish placed'
    (nodup_foldr_putIn (List.nodup_cons.mp later).2) (fresh_foldr_putIn later)
  rw [List.foldr_append] at nodup' ⊢
  exact (onFlank_iff_of_sublist sublist_foldr_putIn nodup'
    (putIn_perm.mem_iff.mpr List.mem_cons_self)
    (putIn_perm.mem_iff.mpr (List.mem_cons_of_mem _ placed'))).mpr stands

/-- To all that have been put into the order before, a callback of a turn stands as the next one of
the turn does. -/
theorem onFlank_next_iff {flank : Flank} (member : s ∈ stations) (link : Linked s t)
    (nodup : ((s :: t :: rest).map Station.name ++ l).Nodup)
    (placed : n ∈ (t :: rest).foldr Station.putIn l) (other : n ≠ t.name) :
    OnFlank ((s :: t :: rest).foldr Station.putIn l) s.name n flank ↔
      OnFlank ((t :: rest).foldr Station.putIn l) t.name n flank := by
  obtain ⟨flank', wish⟩ := exists_wish link
  have fresh := fresh_foldr_putIn nodup
  refine onFlank_putIn_iff (single s member) wish (mem_foldr_putIn List.mem_cons_self)
    (nodup_foldr_putIn (List.nodup_cons.mp nodup).2) fresh other ?_
  rintro rfl
  exact fresh placed

/-- All callbacks of a turn end up on one side of its last, the one for which the last but one
asks. -/
theorem exists_onFlank_last (within : front ⊆ stations) (nonempty : front ≠ [])
    (linked : (front ++ [s]).IsChain Linked)
    (nodup : ((front ++ [s]).map Station.name ++ l).Nodup) :
    ∃ flank, ∃ t ∈ front, t.wish flank = some s.name ∧ ∀ u ∈ front,
      ReflTransGen (NextTo stations) u.name t.name ∧
      OnFlank ((front ++ [s]).foldr Station.putIn l) u.name s.name flank := by
  induction front with
  | nil => exact absurd rfl nonempty
  | cons u front ih =>
      obtain ⟨member, within⟩ := List.cons_subset.mp within
      cases front with
      | nil =>
          obtain ⟨flank, wish⟩ := exists_wish linked.rel
          refine ⟨flank, u, List.mem_singleton_self u, wish, List.forall_mem_singleton.mpr
            ⟨.refl, ?_⟩⟩
          show OnFlank (([] ++ [u, s]).foldr Station.putIn l) u.name s.name flank
          exact onFlank_foldr_putIn single member wish nodup List.mem_cons_self
      | cons v front =>
          obtain ⟨link, linked⟩ := List.isChain_cons_cons.mp linked
          obtain ⟨flank, t, member', wish, sides⟩ :=
            ih within (List.cons_ne_nil v front) linked (List.nodup_cons.mp nodup).2
          have last : s ∈ v :: front ++ [s] := List.mem_append_right _ (List.mem_singleton_self s)
          have placed := mem_foldr_putIn (l := l) last
          refine ⟨flank, t, List.mem_cons_of_mem u member', wish,
            List.forall_mem_cons.mpr ⟨?_, fun w member'' => ?_⟩⟩
          · obtain ⟨leads, side⟩ := sides v List.mem_cons_self
            refine ⟨.head (link.nextTo member) leads,
              (onFlank_next_iff single member link nodup placed ?_).mpr side⟩
            intro same
            rw [same] at side
            exact side.not_self
          · obtain ⟨leads, side⟩ := sides w member''
            exact ⟨leads, (onFlank_iff_of_sublist sublist_putIn (nodup_foldr_putIn nodup)
              (mem_foldr_putIn (List.mem_append_left _ member'')) placed).mpr side⟩

end Single

/-! ## What stands between -/

/-- Whether all that stands between two callbacks that lead to a third leads to it too. -/
def Gathered (stations : List Station) (l : List String) : Prop :=
  ∀ a x y z, z ∈ l → l.idxOf x < l.idxOf y → l.idxOf y < l.idxOf z →
    ReflTransGen (NextTo stations) x a → ReflTransGen (NextTo stations) z a →
    ReflTransGen (NextTo stations) y a

theorem mem_of_idxOf_lt {l : List String} {x y : String} (member : y ∈ l)
    (less : l.idxOf x < l.idxOf y) : x ∈ l :=
  List.idxOf_lt_length_iff.mp (Nat.lt_trans less (List.idxOf_lt_length_of_mem member))

section Gathered

variable {l : List String} (gathered : Gathered stations l)

include gathered

theorem Gathered.of_le {x y z : String} (outer : x ∈ l) (inner : y ∈ l) (outer' : z ∈ l)
    (before : l.idxOf x ≤ l.idxOf y) (behind : l.idxOf y ≤ l.idxOf z)
    (leads : ReflTransGen (NextTo stations) x a) (leads' : ReflTransGen (NextTo stations) z a) :
    ReflTransGen (NextTo stations) y a := by
  rcases before.eq_or_lt with same | before
  · exact (List.idxOf_inj outer).mp same ▸ leads
  · rcases behind.eq_or_lt with same | behind
    · exact (List.idxOf_inj inner).mp same ▸ leads'
    · exact gathered a x y z outer' before behind leads leads'

variable (nodup : l.Nodup) (fresh : s.name ∉ l)

include nodup fresh

/-- A callback put beside its anchor parts nothing, and is parted from nothing if the anchor leads
to it as soon as anything there does. -/
theorem Gathered.beside (distinct : (stations.map Station.name).Nodup) {flank : Flank}
    (member : s ∈ stations) (single : s.before = none ∨ s.after = none)
    (wish : s.wish flank = some a) (placed : a ∈ l)
    (back : ∀ x ∈ l, ReflTransGen (NextTo stations) x s.name →
      ReflTransGen (NextTo stations) a s.name) : Gathered stations (s.putIn l) := by
  intro b x y z outer' before behind leads leads'
  have next : NextTo stations s.name a := ⟨s, member, rfl, asks_of_wish single wish⟩
  have inner : y ∈ s.putIn l := mem_of_idxOf_lt outer' behind
  have outer : x ∈ s.putIn l := mem_of_idxOf_lt inner before
  -- Where two lead to a third, so does what stood in for them.
  have via : ∀ {v w}, w ∈ s.putIn l → v ≠ w → ReflTransGen (NextTo stations) v b →
      ReflTransGen (NextTo stations) w b → ReflTransGen (NextTo stations) (s.standIn a v) b := by
    intro v w there other leads leads'
    rw [Station.standIn]
    split
    · rename_i new
      subst new
      have there' := mem_of_mem_putIn there other.symm
      rcases leads.cases_head with rfl | ⟨c, next', leads⟩
      · exact back w there' leads'
      · exact nextTo_unique distinct next next' ▸ leads
    · exact leads
  have other : x ≠ z := by
    rintro rfl
    exact Nat.lt_asymm before behind
  have between : ReflTransGen (NextTo stations) (s.standIn a y) b :=
    gathered.of_le (standIn_mem placed outer) (standIn_mem placed inner)
      (standIn_mem placed outer')
      (idxOf_standIn_le single wish placed nodup fresh outer inner before)
      (idxOf_standIn_le single wish placed nodup fresh inner outer' behind)
      (via outer' other leads leads') (via outer other.symm leads' leads)
  rw [Station.standIn] at between
  split at between
  · rename_i new
    exact new ▸ .head next between
  · exact between

/-- A callback put at the end is parted from nothing if it leads to nothing to which anything there
leads. -/
theorem Gathered.concat (apart : ∀ x ∈ l, ∀ b, ReflTransGen (NextTo stations) x b →
      ¬ ReflTransGen (NextTo stations) s.name b) : Gathered stations (l ++ [s.name]) := by
  intro b x y z member before behind leads leads'
  have nodup' : (l ++ [s.name]).Nodup :=
    List.nodup_append_comm.mp (List.nodup_cons.mpr ⟨fresh, nodup⟩)
  have early : ∀ {w}, w ∈ l ↔ (l ++ [s.name]).idxOf w < (l ++ [s.name]).idxOf s.name :=
    mem_front_iff nodup'
  rcases List.mem_append.mp member with there | last
  · have inner : y ∈ l := early.mpr (Nat.lt_trans behind (early.mp there))
    have outer : x ∈ l := early.mpr (Nat.lt_trans before (early.mp inner))
    have kept := List.sublist_append_left l [s.name]
    exact gathered b x y z there ((idxOf_lt_iff_of_sublist kept nodup' outer inner).mp before)
      ((idxOf_lt_iff_of_sublist kept nodup' inner there).mp behind) leads leads'
  · obtain rfl := List.mem_singleton.mp last
    exact absurd leads' (apart x (early.mpr (Nat.lt_trans before behind)) b leads)

end Gathered

/-- Each callback of a turn but the last is linked to another. -/
theorem exists_linked (linked : (front ++ [s]).IsChain Linked) (member : t ∈ front) :
    ∃ u ∈ front ++ [s], Linked t u := by
  induction front with
  | nil => cases member
  | cons v front ih =>
      cases front with
      | nil =>
          obtain rfl := List.mem_singleton.mp member
          exact ⟨s, List.mem_cons_of_mem _ (List.mem_singleton_self s), linked.rel⟩
      | cons w front =>
          obtain ⟨link, linked⟩ := List.isChain_cons_cons.mp linked
          rcases List.mem_cons.mp member with rfl | later
          · exact ⟨w, List.mem_cons_of_mem _ List.mem_cons_self, link⟩
          · obtain ⟨u, member', link'⟩ := ih linked later
            exact ⟨u, List.mem_cons_of_mem v member', link'⟩

/-- The first of linked callbacks leads to any other of them, through those between. -/
theorem leads_of_linked {r : String → String → Prop} {tail : List Station}
    (linked : (front ++ s :: rest).IsChain Linked) (start : front ++ s :: rest = t :: tail)
    (step : ∀ u ∈ front, ∀ v, Linked u v → r u.name v.name) : ReflTransGen r t.name s.name := by
  induction front generalizing t tail with
  | nil =>
      cases start
      exact .refl
  | cons u front ih =>
      cases start
      obtain ⟨here, later⟩ := List.forall_mem_cons.mp step
      cases front with
      | nil => exact .single (here s linked.rel)
      | cons v front =>
          obtain ⟨link, linked⟩ := List.isChain_cons_cons.mp linked
          exact .head (here v link) (ih linked rfl later)

namespace Turn

variable (turn : Turn stations p n chain) (whole : Whole stations p)

include turn whole

theorem nodup_append : (chain.map Station.name ++ p.order).Nodup := by
  refine List.nodup_append.mpr ⟨turn.nodup, whole.placed.nodup_iff.mpr whole.begins.nodup, ?_⟩
  rintro a new b placed rfl
  obtain ⟨s, member, rfl⟩ := List.mem_map.mp new
  exact turn.fresh s member (whole.placed.mem_iff.mp placed)

/-- Nothing that has begun leads to a callback of the turn. -/
theorem not_leads (closed : Closed stations p) (member : s ∈ chain) (placed : u ∈ p.order) :
    ¬ ReflTransGen (NextTo stations) u s.name := fun leads =>
  turn.fresh s member (closed.mem_begun leads (whole.placed.mem_iff.mp placed))

omit whole in
/-- Where the last asks for no anchor that had begun before the turn, callbacks of the turn lead
only to each other. -/
theorem leads_within (distinct : (stations.map Station.name).Nodup) (split : chain = front ++ [s])
    (unbegun : ∀ a, s.before.or s.after = some a → a ∉ p.begun)
    (leads : ReflTransGen (NextTo stations) a u) (member : a ∈ chain.map Station.name) :
    u ∈ chain.map Station.name := by
  induction leads with
  | refl => exact member
  | tail _ next ih =>
      obtain ⟨t, member', same, asks⟩ := next
      obtain ⟨v, inner, same'⟩ := List.mem_map.mp ih
      obtain rfl := eq_of_name distinct (turn.within inner) member' (same'.trans same.symm)
      rw [split] at inner
      rcases List.mem_append.mp inner with earlier | last
      · obtain ⟨w, inner', link⟩ := exists_linked (split ▸ turn.linked) earlier
        obtain rfl := Option.some.inj (link.symm.trans asks)
        exact List.mem_map_of_mem (split ▸ inner')
      · obtain rfl := List.mem_singleton.mp last
        exact (turn.anchors v (split ▸ inner) _ asks).resolve_left (unbegun _ asks)

section Closed

variable (distinct : (stations.map Station.name).Nodup)
  (single : ∀ s ∈ stations, s.before = none ∨ s.after = none) (closed : Closed stations p)
  (together : Gathered stations p.order)

include distinct single closed together

/-- The last of a turn parts nothing: it is put beside an anchor that stood before the turn, or at
the end. -/
theorem gathered_last (split : chain = front ++ [s]) : Gathered stations (s.putIn p.order) := by
  have inner : s ∈ chain := split ▸ List.mem_append_right _ (List.mem_singleton_self s)
  have member := turn.within inner
  have nodup := whole.placed.nodup_iff.mpr whole.begins.nodup
  have fresh : s.name ∉ p.order := fun placed =>
    turn.fresh s inner (whole.placed.mem_iff.mp placed)
  by_cases begun : ∃ a, s.before.or s.after = some a ∧ a ∈ p.begun
  · obtain ⟨a, asks, begun⟩ := begun
    obtain ⟨flank, wish⟩ := exists_wish asks
    exact together.beside nodup fresh distinct member (single s member) wish
      (whole.placed.mem_iff.mpr begun) fun x placed leads =>
        absurd leads (turn.not_leads whole closed inner placed)
  · push Not at begun
    rw [putIn_of_not_mem fun a asks placed => begun a asks (whole.placed.mem_iff.mp placed)]
    refine together.concat nodup fresh fun x placed b leads leads' => ?_
    obtain ⟨t, inner', rfl⟩ := List.mem_map.mp
      (turn.leads_within distinct split begun leads' (List.mem_map_of_mem inner))
    exact turn.not_leads whole closed inner' placed leads

/-- A turn parts nothing. -/
theorem gathered : Gathered stations (chain.foldr Station.putIn p.order) := by
  suffices suffix : ∀ rest front, chain = front ++ rest →
      Gathered stations (rest.foldr Station.putIn p.order) from suffix chain [] rfl
  intro rest
  induction rest with
  | nil => exact fun _ _ => together
  | cons s rest ih =>
      intro front split
      cases rest with
      | nil => exact turn.gathered_last whole distinct single closed together split
      | cons t rest =>
          have gathered' := ih (front ++ [s]) (by rw [split, List.append_assoc]; rfl)
          have inner : s ∈ chain := split ▸ List.mem_append_right _ List.mem_cons_self
          have nodup := turn.nodup_append whole
          rw [split, List.map_append, List.append_assoc] at nodup
          have later := (List.nodup_append.mp nodup).2.1
          obtain ⟨-, link, linked⟩ := List.isChain_append_cons_cons.mp (split ▸ turn.linked)
          obtain ⟨flank, wish⟩ := exists_wish link
          refine gathered'.beside (nodup_foldr_putIn (List.nodup_cons.mp later).2)
            (fresh_foldr_putIn later) distinct (turn.within inner)
            (single s (turn.within inner)) wish (mem_foldr_putIn List.mem_cons_self)
            fun x placed leads => ?_
          rcases List.mem_append.mp (foldr_putIn_perm.mem_iff.mp placed) with ahead | earlier
          · obtain ⟨u, inner', rfl⟩ := List.mem_map.mp ahead
            obtain ⟨between, beyond, ahead⟩ := List.append_of_mem inner'
            have within : between ⊆ stations := fun v inner => turn.within (split ▸
              List.mem_append_right front (List.mem_cons_of_mem s (ahead ▸
                List.mem_append_left _ inner)))
            exact (leads_of_linked (ahead ▸ linked) ahead.symm fun v inner _ link =>
              link.nextTo (within inner)).trans leads
          · exact absurd leads (turn.not_leads whole closed inner earlier)

end Closed

end Turn

/-! ## One turn after the other -/

/-- The turn of a callback within a whole placement: where it begins, and what it comes by. -/
structure TurnOf (stations front : List Station) (t : Station) (p : Placement)
    (chain : List Station) : Prop where
  turn : Turn stations p t.name chain
  whole : Whole stations p
  before : ∀ u ∈ p.begun, ∃ v ∈ front, ReflTransGen (NextTo stations) v.name u
  after : ∀ u, ReflTransGen (NextTo stations) t.name u → u ∈ chain.map Station.name ++ p.order
  kept : (chain.foldr Station.putIn p.order).Sublist (ofStations stations)

theorem TurnOf.not_placed (turnOf : TurnOf stations front t p chain)
    (early : ∀ v ∈ front, ¬ ReflTransGen (NextTo stations) v.name u) : u ∉ p.order := by
  intro placed
  obtain ⟨v, member, leads⟩ := turnOf.before u (turnOf.whole.placed.mem_iff.mp placed)
  exact early v member leads

/-- The first callback registered that leads to another comes by it in its turn. -/
theorem TurnOf.mem_chain (turnOf : TurnOf stations front t p chain)
    (distinct : (stations.map Station.name).Nodup) (member : s ∈ stations)
    (leads : ReflTransGen (NextTo stations) t.name s.name)
    (early : ∀ v ∈ front, ¬ ReflTransGen (NextTo stations) v.name s.name) : s ∈ chain := by
  have inner := (List.mem_append.mp (turnOf.after _ leads)).resolve_right (turnOf.not_placed early)
  obtain ⟨s', inner, same⟩ := List.mem_map.mp inner
  rwa [← eq_of_name distinct (turnOf.turn.within inner) member same]

section Distinct

variable (distinct : (stations.map Station.name).Nodup)
  (anchored : ∀ a b, NextTo stations a b → b ∈ stations.map Station.name)

include distinct anchored

theorem gathered_foldl (single : ∀ s ∈ stations, s.before = none ∨ s.after = none)
    (rest : List Station) (within : rest ⊆ stations) (whole : Whole stations p)
    (closed : Closed stations p) (gathered : Gathered stations p.order) :
    Gathered stations
      (rest.foldl (fun p s => place stations (stations.length + 1) p s.name) p).order := by
  induction rest generalizing p with
  | nil => exact gathered
  | cons s rest ih =>
      obtain ⟨member, within⟩ := List.cons_subset.mp within
      have closed' := closed_foldl distinct anchored [s]
        (List.cons_subset.mpr ⟨member, List.nil_subset _⟩) whole closed
      obtain ⟨chain, turn, placed⟩ := exists_turn (stations.length + 1) distinct anchored
        whole.begins (by omega) (List.mem_map_of_mem member)
      refine ih within (whole.place _ s.name) closed' ?_
      rw [placed]
      exact turn.gathered whole distinct single closed gathered

/-- In the order of placement, all that stands between two callbacks that lead to a third leads to
it too. -/
theorem gathered_ofStations (single : ∀ s ∈ stations, s.before = none ∨ s.after = none) :
    Gathered stations (ofStations stations) :=
  gathered_foldl distinct anchored single stations (List.Subset.refl _) whole_empty
    (fun _ _ _ begun => by cases begun) fun _ _ _ _ placed => by cases placed

/-- The turn of a callback: all that has begun before is what those registered earlier lead to, and
the turn comes by all else to which the callback leads. -/
theorem exists_turnOf (split : stations = front ++ t :: rest) :
    ∃ p chain, TurnOf stations front t p chain := by
  have member : t ∈ stations := split ▸ List.mem_append_right _ List.mem_cons_self
  have within : front ⊆ stations := by
    rw [split]
    exact List.subset_append_left _ _
  have closed := closed_foldl distinct anchored front within whole_empty
    fun _ _ _ begun => by cases begun
  obtain ⟨whole, -⟩ := whole_foldl stations.length front within whole_empty
  generalize start :
    front.foldl (fun p s => place stations (stations.length + 1) p s.name) empty = p at whole closed
  obtain ⟨chain, turn, placed⟩ := exists_turn (stations.length + 1) distinct anchored
    whole.begins (by omega) (List.mem_map_of_mem member)
  have closed' := closed_foldl distinct anchored [t]
    (List.cons_subset.mpr ⟨member, List.nil_subset _⟩) whole closed
  have whole' := whole.place (stations.length + 1) t.name
  refine ⟨p, chain, turn, whole, fun u begun => ?_, fun u leads => ?_, ?_⟩
  · have placed := whole.placed.mem_iff.mpr begun
    rw [← start] at placed
    exact (leads_of_mem_foldl front placed).resolve_left List.not_mem_nil
  · have begun := closed'.mem_begun leads (mem_begun_place member)
    have order := whole'.placed.mem_iff.mpr begun
    rw [placed] at order
    exact foldr_putIn_perm.mem_iff.mp order
  · have order : ofStations stations = (rest.foldl
        (fun p s => place stations (stations.length + 1) p s.name)
        (place stations (stations.length + 1) p t.name)).order := by
      rw [ofStations, ← start, ← List.foldl_cons, ← List.foldl_append, ← split]
    rw [order, ← placed]
    exact sublist_foldl_place rest _

end Distinct

end Placement

end ScopedAccess
