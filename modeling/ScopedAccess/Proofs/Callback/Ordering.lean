import ScopedAccess.Proofs.Callback.Placement
import Mathlib.Data.Set.Finite.Lemmas
import Mathlib.Logic.Relation
/-!
# The order of callbacks

The wishes for anchors that are there are a relation between names (`MustPrecede`). The
topological pass picks, of the callbacks whose predecessors have all been picked, the one placed
first (`PicksFirst`); that is what each of its steps keeps (`Picking.step`). It gets stuck where
all that is left waits for something left, and going back from there one comes to a circle.

* `orderStations_exact`: when there is an order, which one it is, and which names are reported
  otherwise;
* `IsOrder.idxOf_lt`: a callback is picked before another if nothing that it waits for is placed
  behind all that the other waits for.
-/

namespace ScopedAccess

set_option autoImplicit false

open Relation (ReflTransGen TransGen)

variable {stations : List Station} {picked left order : List String} {first second n m : String}

/-! ## Wishes -/

/-- Whether one callback has to come before another: one of them says so, and both are there. -/
def MustPrecede (stations : List Station) (first second : String) : Prop :=
  first ∈ stations.map Station.name ∧ second ∈ stations.map Station.name ∧
    ∃ s ∈ stations, (s.name = first ∧ s.before = some second) ∨
      (s.name = second ∧ s.after = some first)

/-- Where placement puts the stations, with those anchors that are there. -/
def placementOf (stations : List Station) : List String :=
  Placement.ofStations (stations.map (Station.resolved stations))

theorem names_resolved (all : List Station) :
    (stations.map (Station.resolved all)).map Station.name = stations.map Station.name := by
  rw [List.map_map]
  rfl

theorem known_eq_some_iff {anchor : Option String} {name : String} :
    Station.known stations anchor = some name ↔
      anchor = some name ∧ name ∈ stations.map Station.name := by
  simp [Station.known, Option.filter_eq_some_iff]

theorem Station.orders_iff {s : Station} : s.orders first second = true ↔
    (s.name = first ∧ s.before = some second) ∨ (s.name = second ∧ s.after = some first) := by
  rw [Station.orders]
  simp only [Bool.or_eq_true, Bool.and_eq_true, decide_eq_true_eq]

/-- The predecessors of a callback are those that have to come before it. -/
theorem mem_predecessors : first ∈ predecessors (stations.map (Station.resolved stations)) second ↔
    MustPrecede stations first second := by
  rw [predecessors, List.mem_filter, names_resolved, List.any_map, List.any_eq_true, MustPrecede]
  simp only [Function.comp_apply, Station.orders_iff, Station.resolved, known_eq_some_iff]
  constructor
  · rintro ⟨known, s, member, ⟨rfl, before, known'⟩ | ⟨rfl, after, -⟩⟩
    · exact ⟨known, known', s, member, .inl ⟨rfl, before⟩⟩
    · exact ⟨known, List.mem_map_of_mem member, s, member, .inr ⟨rfl, after⟩⟩
  · rintro ⟨known, known', s, member, ⟨rfl, before⟩ | ⟨rfl, after⟩⟩
    · exact ⟨known, s, member, .inl ⟨rfl, before, known'⟩⟩
    · exact ⟨known, s, member, .inr ⟨rfl, after, known⟩⟩

theorem placementOf_perm (distinct : (stations.map Station.name).Nodup) :
    (placementOf stations).Perm (stations.map Station.name) := by
  rw [← names_resolved stations] at distinct ⊢
  exact Placement.ofStations_perm distinct

/-! ## Places in a list -/

theorem pairwise_idxOf {l : List String} (nodup : l.Nodup) :
    l.Pairwise fun a b => l.idxOf a < l.idxOf b := by
  refine List.pairwise_iff_getElem.mpr fun i j inner inner' less => ?_
  rwa [nodup.idxOf_getElem i inner, nodup.idxOf_getElem j inner']

theorem idxOf_lt_of_sublist {l : List String} (nodup : l.Nodup) (pair : [n, m].Sublist l) :
    l.idxOf n < l.idxOf m := by
  have both := (pairwise_idxOf nodup).sublist pair
  exact (List.pairwise_cons.mp both).1 m List.mem_cons_self

/-- What stands before a member of a list without repetitions. -/
theorem mem_front_iff {rest : List String} (nodup : (picked ++ n :: rest).Nodup) :
    m ∈ picked ↔ (picked ++ n :: rest).idxOf m < (picked ++ n :: rest).idxOf n := by
  have fresh : n ∉ picked := fun member =>
    (List.nodup_append.mp nodup).2.2 n member n List.mem_cons_self rfl
  rw [List.idxOf_append_of_notMem fresh, List.idxOf_cons_self, Nat.add_zero]
  by_cases member : m ∈ picked
  · rw [List.idxOf_append_of_mem member]
    exact iff_of_true member (List.idxOf_lt_length_of_mem member)
  · rw [List.idxOf_append_of_notMem member]
    exact iff_of_false member (by omega)

theorem sublist_of_idxOf_lt {l : List String} (nodup : l.Nodup) (member : m ∈ l)
    (less : l.idxOf n < l.idxOf m) : [n, m].Sublist l := by
  obtain ⟨front, rest, rfl⟩ := List.append_of_mem member
  have before := (mem_front_iff nodup).mpr less
  exact (List.singleton_sublist.mpr before).append (List.singleton_sublist.mpr List.mem_cons_self)

/-! ## Picking -/

/-- A callback that has not been picked, while all that has to come before it has. -/
structure Ready (stations : List Station) (picked : List String) (n : String) : Prop where
  known : n ∈ stations.map Station.name
  fresh : n ∉ picked
  awaited : ∀ m, MustPrecede stations m n → m ∈ picked

/-- Each callback is ready when it is picked, and placed before all others that are. -/
def PicksFirst (stations : List Station) (order : List String) : Prop :=
  ∀ picked n rest, order = picked ++ n :: rest → Ready stations picked n ∧
    ∀ m, Ready stations picked m → (placementOf stations).idxOf n ≤ (placementOf stations).idxOf m

theorem PicksFirst.nil : PicksFirst stations [] := by
  intro picked n rest split
  exact absurd split (by simp)

theorem PicksFirst.concat (picks : PicksFirst stations picked) (ready : Ready stations picked n)
    (least : ∀ m, Ready stations picked m →
      (placementOf stations).idxOf n ≤ (placementOf stations).idxOf m) :
    PicksFirst stations (picked ++ [n]) := by
  intro earlier m rest split
  rcases List.eq_nil_or_concat rest with rfl | ⟨rest, last, rfl⟩
  · obtain ⟨rfl, same⟩ := List.append_inj' split rfl
    cases same
    exact ⟨ready, least⟩
  · rw [List.concat_eq_append, ← List.cons_append, ← List.append_assoc] at split
    exact picks earlier m rest (List.append_inj' split rfl).1

/-- All that has to come before a callback picked has been picked earlier. -/
theorem PicksFirst.idxOf_lt (picks : PicksFirst stations order) (nodup : order.Nodup)
    (member : second ∈ order) (must : MustPrecede stations first second) :
    order.idxOf first < order.idxOf second := by
  obtain ⟨picked, rest, rfl⟩ := List.append_of_mem member
  exact (mem_front_iff nodup).mp ((picks picked second rest rfl).1.awaited first must)

/-- Where the topological pass stands: what is left is in the order of placement. -/
structure Picking (stations : List Station) (picked left : List String) : Prop where
  placed : left.Sublist (placementOf stations)
  all : (picked ++ left).Perm (stations.map Station.name)
  picks : PicksFirst stations picked

/-- Whether all predecessors of a name have been picked. -/
def isAwaited (stations : List Station) (picked : List String) (name : String) : Bool :=
  (predecessors (stations.map (Station.resolved stations)) name).all fun m => picked.contains m

theorem isAwaited_iff : isAwaited stations picked n = true ↔
    ∀ m, MustPrecede stations m n → m ∈ picked := by
  simp [isAwaited, mem_predecessors]

section Distinct

variable (distinct : (stations.map Station.name).Nodup)

include distinct

theorem Picking.start : Picking stations [] (placementOf stations) where
  placed := List.Sublist.refl _
  all := placementOf_perm distinct
  picks := .nil

theorem Picking.fresh (picking : Picking stations picked left) (member : n ∈ left) :
    n ∉ picked := fun member' =>
  (List.nodup_append.mp (picking.all.nodup_iff.mpr distinct)).2.2 n member' n member rfl

/-- The first of what is left whose predecessors have been picked is ready, and placed before all
others that are. -/
theorem Picking.step (picking : Picking stations picked left)
    (found : left.find? (isAwaited stations picked) = some n) :
    Picking stations (picked ++ [n]) (left.erase n) := by
  have member : n ∈ left := List.mem_of_find?_eq_some found
  obtain ⟨awaited, front, rest, split, early⟩ := List.find?_eq_some_iff_append.mp found
  have ready : Ready stations picked n :=
    ⟨picking.all.subset (List.mem_append_right _ member), picking.fresh distinct member,
      isAwaited_iff.mp awaited⟩
  refine ⟨List.erase_sublist.trans picking.placed, ?_, picking.picks.concat ready ?_⟩
  · rw [List.append_assoc]
    exact ((List.perm_cons_erase member).symm.append_left picked).trans picking.all
  · intro m ready'
    have member' : m ∈ front ++ n :: rest := by
      rw [← split]
      exact (List.mem_append.mp (picking.all.mem_iff.mpr ready'.known)).resolve_left ready'.fresh
    rcases List.mem_append.mp member' with earlier | same_or_later
    · have unready := early m earlier
      rw [isAwaited_iff.mpr ready'.awaited] at unready
      cases unready
    · rcases List.mem_cons.mp same_or_later with rfl | later
      · exact Nat.le_refl _
      · have pair : [n, m].Sublist left := by
          rw [split]
          exact ((List.singleton_sublist.mpr later).cons_cons n).trans
            (List.sublist_append_right _ _)
        exact Nat.le_of_lt (idxOf_lt_of_sublist ((placementOf_perm distinct).nodup_iff.mpr distinct)
          (pair.trans picking.placed))

/-- A pass with steps enough goes on until nothing that is left is ready. -/
theorem Picking.pickReady {fuel : Nat} (picking : Picking stations picked left)
    (enough : left.length ≤ fuel) :
    ∃ picked' left', pickReady (stations.map (Station.resolved stations)) fuel picked left =
        (picked', left') ∧ Picking stations picked' left' ∧
      ∀ n ∈ left', ∃ m ∈ left', MustPrecede stations m n := by
  induction fuel generalizing picked left with
  | zero =>
      obtain rfl := List.length_eq_zero_iff.mp (Nat.le_zero.mp enough)
      exact ⟨picked, [], rfl, picking, nofun⟩
  | succ fuel ih =>
      rw [ScopedAccess.pickReady]
      split
      · rename_i n found
        refine ih (picking.step distinct found) ?_
        rw [List.length_erase_of_mem (List.mem_of_find?_eq_some found)]
        omega
      · rename_i stuck
        refine ⟨picked, left, rfl, picking, fun n member => ?_⟩
        have unready : ¬ isAwaited stations picked n = true :=
          List.find?_eq_none.mp stuck n member
        rw [isAwaited_iff] at unready
        push Not at unready
        obtain ⟨m, must, unpicked⟩ := unready
        have known : m ∈ picked ++ left := picking.all.mem_iff.mpr must.1
        exact ⟨m, (List.mem_append.mp known).resolve_left unpicked, must⟩

/-- What the passes come to: what is picked is the order unless something is left. -/
theorem exists_picking : ∃ picked left, Picking stations picked left ∧
    (∀ n ∈ left, ∃ m ∈ left, MustPrecede stations m n) ∧
    orderStations stations = if left.isEmpty then .ok picked
      else .error ((stations.map Station.name).filter fun n => left.contains n) := by
  obtain ⟨picked, left, run, picking, stuck⟩ :=
    (Picking.start distinct).pickReady distinct (Nat.le_refl _)
  refine ⟨picked, left, picking, stuck, ?_⟩
  rw [placementOf] at run
  rw [orderStations]
  simp only [run, names_resolved]

end Distinct

/-! ## Circles -/

/-- Going back along a relation within a finite list, one comes to a circle. -/
theorem exists_circle {r : String → String → Prop} {l : List String}
    (back : ∀ n ∈ l, ∃ m ∈ l, r m n) (member : n ∈ l) :
    ∃ c, TransGen r c c ∧ ReflTransGen r c n := by
  by_contra none
  push Not at none
  let before : { m // m ∈ l } → { m // m ∈ l } → Prop :=
    fun a b => TransGen r a b ∧ ReflTransGen r b n
  have finite : Finite { m // m ∈ l } := l.finite_toSet.to_subtype
  have trans : IsTrans _ before := ⟨fun _ _ _ first second => ⟨first.1.trans second.1, second.2⟩⟩
  have irrefl : Std.Irrefl before := ⟨fun a circle => none a circle.1 circle.2⟩
  obtain ⟨⟨m, inner⟩, above, least⟩ :=
    (Finite.wellFounded_of_trans_of_irrefl before).has_min { a | ReflTransGen r a n }
      ⟨⟨n, member⟩, .refl⟩
  obtain ⟨k, inner', step⟩ := back m inner
  exact least ⟨k, inner'⟩ (.head step above) ⟨.single step, above⟩

theorem mem_names_of_waits (waits : ReflTransGen (MustPrecede stations) n m)
    (known : m ∈ stations.map Station.name) : n ∈ stations.map Station.name := by
  rcases waits.cases_head with rfl | ⟨_, must, -⟩
  · exact known
  · exact must.1

theorem mem_names_of_circle (circle : TransGen (MustPrecede stations) n n)
    (waits : ReflTransGen (MustPrecede stations) n m) : m ∈ stations.map Station.name := by
  rcases waits.cases_tail with rfl | ⟨_, -, must⟩
  · obtain ⟨_, -, must⟩ := TransGen.tail'_iff.mp circle
    exact must.2.1
  · exact must.2.1

section Picked

variable (picks : PicksFirst stations order) (nodup : order.Nodup)

include picks nodup

/-- What has to come before a callback picked, directly or through others, is picked too, and no
later. -/
theorem PicksFirst.waits (waits : ReflTransGen (MustPrecede stations) n m) (member : m ∈ order) :
    n ∈ order ∧ order.idxOf n ≤ order.idxOf m := by
  induction waits using ReflTransGen.head_induction_on with
  | refl => exact ⟨member, Nat.le_refl _⟩
  | @head a b must _ ih =>
      have earlier := picks.idxOf_lt nodup ih.1 must
      have member' : a ∈ order :=
        List.idxOf_lt_length_iff.mp (Nat.lt_trans earlier (List.idxOf_lt_length_of_mem ih.1))
      exact ⟨member', Nat.le_trans (Nat.le_of_lt earlier) ih.2⟩

/-- A callback picked is on no circle. -/
theorem PicksFirst.not_circle (member : n ∈ order) : ¬ TransGen (MustPrecede stations) n n := by
  intro circle
  obtain ⟨m, must, waits⟩ := TransGen.head'_iff.mp circle
  obtain ⟨member', later⟩ := picks.waits nodup waits member
  exact absurd (picks.idxOf_lt nodup member' must) (Nat.not_lt.mpr later)

end Picked

/-! ## The order -/

/-- What an order of callbacks is: all of them once, every wish for an anchor that is there
granted, and at each place the callback placed first of those that may stand there. -/
structure IsOrder (stations : List Station) (order : List String) : Prop where
  all : order.Perm (stations.map Station.name)
  obeys : ∀ first second, MustPrecede stations first second →
    order.idxOf first < order.idxOf second
  picks : PicksFirst stations order

section Distinct

variable (distinct : (stations.map Station.name).Nodup)

include distinct

/-- What is left waits for a circle, and what is picked does not. -/
theorem Picking.mem_left_iff (picking : Picking stations picked left)
    (stuck : ∀ n ∈ left, ∃ m ∈ left, MustPrecede stations m n) (known : n ∈ stations.map Station.name) :
    n ∈ left ↔ ∃ c, TransGen (MustPrecede stations) c c ∧
      ReflTransGen (MustPrecede stations) c n := by
  constructor
  · exact exists_circle stuck
  · rintro ⟨c, circle, waits⟩
    refine (List.mem_append.mp (picking.all.mem_iff.mpr known)).resolve_left fun member => ?_
    have nodup := (List.nodup_append.mp (picking.all.nodup_iff.mpr distinct)).1
    exact picking.picks.not_circle nodup (picking.picks.waits nodup waits member).1 circle

theorem Picking.isOrder (picking : Picking stations order []) : IsOrder stations order := by
  have all : order.Perm (stations.map Station.name) := by simpa using picking.all
  refine ⟨all, fun first second must => ?_, picking.picks⟩
  exact picking.picks.idxOf_lt (all.nodup_iff.mpr distinct) (all.mem_iff.mpr must.2.1) must

theorem isOrder_of_ok (success : orderStations stations = .ok order) : IsOrder stations order := by
  obtain ⟨picked, left, picking, -, result⟩ := exists_picking distinct
  rw [success] at result
  cases left with
  | nil =>
      cases result
      exact picking.isOrder distinct
  | cons n rest => cases result

/-- Where the placement obeys all wishes, the pass picks the callbacks as they are placed. -/
theorem pickReady_of_obeyed {fuel : Nat}
    (obeyed : ∀ first second, MustPrecede stations first second →
      (placementOf stations).idxOf first < (placementOf stations).idxOf second)
    (placed : picked ++ left = placementOf stations) (enough : left.length ≤ fuel) :
    pickReady (stations.map (Station.resolved stations)) fuel picked left =
      (placementOf stations, []) := by
  induction fuel generalizing picked left with
  | zero =>
      obtain rfl := List.length_eq_zero_iff.mp (Nat.le_zero.mp enough)
      rw [pickReady, ← placed, List.append_nil]
  | succ fuel ih =>
      cases left with
      | nil => rw [pickReady, List.find?_nil, ← placed, List.append_nil]
      | cons n rest =>
          have nodup := (placementOf_perm distinct).nodup_iff.mpr distinct
          have awaited : isAwaited stations picked n = true := by
            refine isAwaited_iff.mpr fun m must => ?_
            have earlier := obeyed m n must
            rw [← placed] at nodup earlier
            exact (mem_front_iff nodup).mpr earlier
          have found : (n :: rest).find? (fun n => (predecessors
              (stations.map (Station.resolved stations)) n).all fun m => picked.contains m) =
              some n := List.find?_cons_of_pos awaited
          rw [pickReady, found]
          simp only [List.erase_cons_head]
          refine ih ?_ (Nat.le_of_succ_le_succ enough)
          rw [List.append_assoc, List.singleton_append, placed]

theorem orderStations_of_obeyed
    (obeyed : ∀ first second, MustPrecede stations first second →
      (placementOf stations).idxOf first < (placementOf stations).idxOf second) :
    orderStations stations = .ok (placementOf stations) := by
  have run := pickReady_of_obeyed distinct obeyed (List.nil_append _) (Nat.le_refl _)
  rw [placementOf] at run
  rw [orderStations]
  simp only [run, List.isEmpty_nil, if_true, placementOf]

/-- There is an order unless some callback has to come before itself. -/
theorem exists_order_iff : (∃ order, orderStations stations = .ok order) ↔
    ∀ n, ¬ TransGen (MustPrecede stations) n n := by
  obtain ⟨picked, left, picking, stuck, result⟩ := exists_picking distinct
  cases left with
  | nil =>
      have isOrder := picking.isOrder distinct
      refine iff_of_true ⟨picked, result⟩ fun n circle => ?_
      obtain ⟨m, must, -⟩ := TransGen.head'_iff.mp circle
      exact isOrder.picks.not_circle (isOrder.all.nodup_iff.mpr distinct)
        (isOrder.all.mem_iff.mpr must.1) circle
  | cons n rest =>
      obtain ⟨c, circle, -⟩ := exists_circle stuck List.mem_cons_self
      refine iff_of_false ?_ fun none => none c circle
      rintro ⟨order, success⟩
      rw [result] at success
      cases success

end Distinct

/-- The order of callbacks. There is one if no callback has to come before itself; where the
placement obeys all wishes it is the placement. Without an order the names reported are those on a
circle or behind one, as they were registered. -/
theorem orderStations_exact (stations : List Station)
    (distinct : (stations.map Station.name).Nodup) :
    ((∃ order, orderStations stations = .ok order) ↔
      ∀ n, ¬ TransGen (MustPrecede stations) n n) ∧
    (∀ order, orderStations stations = .ok order → IsOrder stations order) ∧
    ((∀ first second, MustPrecede stations first second →
        (placementOf stations).idxOf first < (placementOf stations).idxOf second) →
      orderStations stations = .ok (placementOf stations)) ∧
    ∀ names, orderStations stations = .error names →
      names.Sublist (stations.map Station.name) ∧
      ∀ n, n ∈ names ↔ ∃ c, TransGen (MustPrecede stations) c c ∧
        ReflTransGen (MustPrecede stations) c n := by
  refine ⟨exists_order_iff distinct, fun _ => isOrder_of_ok distinct,
    orderStations_of_obeyed distinct, fun names failure => ?_⟩
  obtain ⟨picked, left, picking, stuck, result⟩ := exists_picking distinct
  cases left with
  | nil =>
      rw [result] at failure
      cases failure
  | cons n rest =>
      obtain rfl := Except.error.inj (result.symm.trans failure)
      refine ⟨List.filter_sublist, fun m => ?_⟩
      rw [List.mem_filter, List.contains_iff_mem]
      refine ⟨fun ⟨known, member⟩ => (picking.mem_left_iff distinct stuck known).mp member, ?_⟩
      rintro ⟨c, circle, waits⟩
      have known := mem_names_of_circle circle waits
      exact ⟨known, (picking.mem_left_iff distinct stuck known).mpr ⟨c, circle, waits⟩⟩

/-- Errands of which the second asks for two others. -/
def Notebook.errands : List Station :=
  [⟨"bread", none, none⟩, ⟨"shop", some "bread", some "purse"⟩, ⟨"milk", none, some "bread"⟩,
    ⟨"purse", none, none⟩]

/-- A breakfast that has to wait for the hen. -/
def Notebook.breakfast : List Station :=
  [⟨"plate", none, none⟩, ⟨"omelette", none, some "egg"⟩, ⟨"hen", none, some "egg"⟩,
    ⟨"egg", none, some "hen"⟩]

theorem errands_and_breakfast :
    IsOrder Notebook.errands ["purse", "shop", "bread", "milk"] ∧
      ∃ c, TransGen (MustPrecede Notebook.breakfast) c c ∧
        ReflTransGen (MustPrecede Notebook.breakfast) c "omelette" := by
  refine ⟨(orderStations_exact Notebook.errands (by decide)).2.1 _ (by decide +kernel), ?_⟩
  have failure : orderStations Notebook.breakfast = .error ["omelette", "hen", "egg"] := by
    decide +kernel
  exact ((((orderStations_exact Notebook.breakfast (by decide)).2.2.2 _ failure).2 _).mp
    List.mem_cons_self)

/-! ## Who is picked first -/

section IsOrder

variable (isOrder : IsOrder stations order)

include isOrder

/-- Of what is not picked yet and of all that it waits for, something is ready. -/
theorem IsOrder.exists_ready (known : n ∈ stations.map Station.name) (fresh : n ∉ picked) :
    ∃ m, ReflTransGen (MustPrecede stations) m n ∧ Ready stations picked m := by
  induction place : order.idxOf n using Nat.strong_induction_on generalizing n with
  | h _ ih =>
      by_cases awaited : ∀ m, MustPrecede stations m n → m ∈ picked
      · exact ⟨n, .refl, known, fresh, awaited⟩
      · push Not at awaited
        obtain ⟨m, must, fresh'⟩ := awaited
        obtain ⟨k, waits, ready⟩ := ih _ (place ▸ isOrder.obeys m n must) must.1 fresh' rfl
        exact ⟨k, waits.tail must, ready⟩

/-- A callback is picked before another if of all that has to come before the other something is
placed behind each of those that have to come before the one. -/
theorem IsOrder.idxOf_lt (distinct : (stations.map Station.name).Nodup)
    (known : n ∈ stations.map Station.name) (known' : m ∈ stations.map Station.name)
    (front : ∀ y, ReflTransGen (MustPrecede stations) y n →
      ∃ w, ReflTransGen (MustPrecede stations) w m ∧
        (placementOf stations).idxOf y < (placementOf stations).idxOf w) :
    order.idxOf n < order.idxOf m := by
  have nodup : order.Nodup := isOrder.all.nodup_iff.mpr distinct
  have finite : { w | ReflTransGen (MustPrecede stations) w m }.Finite :=
    (stations.map Station.name).finite_toSet.subset fun w waits => mem_names_of_waits waits known'
  -- The last in the placement of all that the other waits for is not picked before the one.
  obtain ⟨last, waits, latest⟩ :=
    Set.exists_max_image _ (placementOf stations).idxOf finite ⟨m, .refl⟩
  by_contra late
  have member : last ∈ order := isOrder.all.mem_iff.mpr (mem_names_of_waits waits known')
  obtain ⟨picked, rest, rfl⟩ := List.append_of_mem member
  have fresh : n ∉ picked := by
    rw [mem_front_iff nodup]
    have := (isOrder.picks.waits nodup waits (isOrder.all.mem_iff.mpr known')).2
    omega
  obtain ⟨y, waits', ready⟩ := isOrder.exists_ready known fresh
  obtain ⟨w, waits'', behind⟩ := front y waits'
  have first := (isOrder.picks picked last rest rfl).2 y ready
  have := latest w waits''
  omega

end IsOrder

end ScopedAccess
