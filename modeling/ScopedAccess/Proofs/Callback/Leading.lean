import ScopedAccess.Proofs.Callback.Builtin
/-!
# Where callbacks without wishes stand

A callback without wishes is appended when placement comes to it, which is when it is its own turn,
or earlier, when it is the turn of a callback that is placed next to it, directly or through others
(`LeadsTo`). What such a turn begins is closed under anchors (`Placement.Closed`), so the callback
is placed by the end of the first turn that leads to it, and none is placed before one does. So two
callbacks without wishes are placed in the order in which the first callbacks that lead to them have
been registered, and if each callback asks for one other at most the topological pass keeps them in
that order.

* `free_order_exact`: which of two callbacks without wishes comes first.
-/

namespace ScopedAccess

set_option autoImplicit false

open Relation (ReflTransGen TransGen)

variable {stations : List Station} {s t : Station}

/-- The first member of a list that has a property, if one has it. -/
theorem exists_first {α : Type} {p : α → Prop} {l : List α} {a : α} (member : a ∈ l) (holds : p a) :
    ∃ front b rest, l = front ++ b :: rest ∧ p b ∧ ∀ c ∈ front, ¬ p c := by
  induction l with
  | nil => cases member
  | cons b l ih =>
      by_cases here : p b
      · exact ⟨[], b, l, rfl, here, nofun⟩
      · rcases List.mem_cons.mp member with rfl | later
        · exact absurd holds here
        · obtain ⟨front, c, rest, rfl, holds', early⟩ := ih later
          exact ⟨b :: front, c, rest, rfl, holds', List.forall_mem_cons.mpr ⟨here, early⟩⟩

namespace Placement

variable {p : Placement} {a b n u w : String}

/-- Whether a name is placed next to another. Where a callback asks for two, the one to run before
counts. -/
def NextTo (stations : List Station) (name anchor : String) : Prop :=
  ∃ s ∈ stations, s.name = name ∧ s.before.or s.after = some anchor

theorem not_nextTo_of_free (distinct : (stations.map Station.name).Nodup) (member : s ∈ stations)
    (before : s.before = none) (after : s.after = none) : ¬ NextTo stations s.name n := by
  rintro ⟨t, member', same, asks⟩
  obtain rfl := eq_of_name distinct member' member same
  rw [before, after] at asks
  cases asks

/-- A callback is placed next to one other. -/
theorem nextTo_unique (distinct : (stations.map Station.name).Nodup) :
    Relator.RightUnique (NextTo stations) := by
  rintro n a b ⟨s, member, rfl, asks⟩ ⟨t, member', same, asks'⟩
  obtain rfl := eq_of_name distinct member' member same
  exact Option.some.inj (asks.symm.trans asks')

/-- A callback leads to one without wishes at most. -/
theorem eq_of_leads_free (distinct : (stations.map Station.name).Nodup) (member : s ∈ stations)
    (member' : t ∈ stations) (free : s.before = none ∧ s.after = none)
    (free' : t.before = none ∧ t.after = none) (leads : ReflTransGen (NextTo stations) n s.name)
    (leads' : ReflTransGen (NextTo stations) n t.name) : s.name = t.name := by
  rcases ReflTransGen.total_of_right_unique (nextTo_unique distinct) leads leads' with on | on
  · rcases on.cases_head with same | ⟨_, next, -⟩
    · exact same
    · exact absurd next (not_nextTo_of_free distinct member free.1 free.2)
  · rcases on.cases_head with same | ⟨_, next, -⟩
    · exact same.symm
    · exact absurd next (not_nextTo_of_free distinct member' free'.1 free'.2)

/-! ## What a turn places -/

/-- Placing a name places only names that it leads to. -/
theorem leads_of_mem_place {depth : Nat} (placed : w ∈ (place stations depth p n).order) :
    w ∈ p.order ∨ ReflTransGen (NextTo stations) n w := by
  induction depth generalizing p n with
  | zero => exact .inl placed
  | succ depth ih =>
      rw [place] at placed
      split at placed
      · exact .inl placed
      · split at placed
        · exact .inl placed
        · rename_i s found
          obtain ⟨member, rfl⟩ := eq_of_find? found
          rcases List.mem_cons.mp (put_order_perm.mem_iff.mp placed) with rfl | placed
          · exact .inr .refl
          · split at placed
            · rename_i anchor anchored
              exact (ih placed).imp_right fun leads =>
                .head ⟨s, member, rfl, anchored⟩ leads
            · exact .inl placed

/-- A callback without wishes is placed behind all that have been placed. -/
theorem pair_sublist_place {depth : Nat} (distinct : (stations.map Station.name).Nodup)
    (member : s ∈ stations) (free : s.before = none ∧ s.after = none) (earlier : w ∈ p.order)
    (fresh : s.name ∉ p.order) (placed : s.name ∈ (place stations depth p n).order) :
    [w, s.name].Sublist (place stations depth p n).order := by
  induction depth generalizing p n with
  | zero => exact absurd placed fresh
  | succ depth ih =>
      rw [place] at placed ⊢
      split at placed
      · exact absurd placed fresh
      · rename_i new
        rw [if_neg new]
        split at placed
        · exact absurd placed fresh
        · rename_i t found
          obtain ⟨member', rfl⟩ := eq_of_find? found
          simp only at placed ⊢
          cases anchored : t.before.or t.after with
          | some anchor =>
              simp only [anchored] at placed ⊢
              rcases List.mem_cons.mp (put_order_perm.mem_iff.mp placed) with same | placed
              · have next : NextTo stations s.name anchor := ⟨t, member', same.symm, anchored⟩
                exact absurd next (not_nextTo_of_free distinct member free.1 free.2)
              · exact (ih (p := ⟨p.order, t.name :: p.begun⟩) earlier fresh placed).trans
                  sublist_put_order
          | none =>
              simp only [anchored] at placed ⊢
              obtain ⟨before, after⟩ := Option.or_eq_none_iff.mp anchored
              rw [put, before, after] at placed ⊢
              have last := (List.mem_append.mp placed).resolve_left fresh
              exact (List.singleton_sublist.mpr earlier).append (List.singleton_sublist.mpr last)

/-! ## Turn after turn -/

/-- Whether the anchors of all names begun have been begun. -/
def Closed (stations : List Station) (p : Placement) : Prop :=
  ∀ a b, NextTo stations a b → a ∈ p.begun → b ∈ p.begun

theorem Closed.mem_begun (closed : Closed stations p) (leads : ReflTransGen (NextTo stations) a b)
    (begun : a ∈ p.begun) : b ∈ p.begun := by
  induction leads with
  | refl => exact begun
  | tail _ next ih => exact closed _ _ next ih

section Anchored

variable (distinct : (stations.map Station.name).Nodup)
  (anchored : ∀ a b, NextTo stations a b → b ∈ stations.map Station.name)

include distinct anchored

/-- Placing a name begins what it is placed next to. Of the names begun, only the one that is being
placed may be missing. -/
theorem closed_place {depth : Nat} (begins : Begins stations p)
    (enough : stations.length < depth + p.begun.length) (known : n ∈ stations.map Station.name)
    (waiting : ∀ a b, NextTo stations a b → a ∈ p.begun → b ∈ p.begun ∨ b = n) :
    Closed stations (place stations depth p n) := by
  induction depth generalizing p n with
  | zero => exact absurd (begins.depth_pos enough) (Nat.lt_irrefl 0)
  | succ depth ih =>
      obtain ⟨s, member, rfl⟩ := List.mem_map.mp known
      rw [place]
      split
      · rename_i begun
        intro a b next earlier
        rcases waiting a b next earlier with there | rfl
        · exact there
        · exact begun
      · rename_i fresh
        rw [find?_of_key distinct member]
        have waiting' : ∀ a b, NextTo stations a b → a ∈ s.name :: p.begun →
            b ∈ s.name :: p.begun ∨ s.before.or s.after = some b := by
          intro a b next begun
          rcases List.mem_cons.mp begun with rfl | earlier
          · obtain ⟨t, member', same, asks⟩ := next
            obtain rfl := eq_of_name distinct member' member same
            exact .inr asks
          · rcases waiting a b next earlier with there | rfl
            · exact .inl (List.mem_cons_of_mem _ there)
            · exact .inl List.mem_cons_self
        simp only
        cases asks : s.before.or s.after with
        | none =>
            intro a b next begun
            refine (waiting' a b next begun).resolve_right fun asks' => ?_
            rw [asks] at asks'
            cases asks'
        | some anchor =>
            simp only
            refine ih (begins.cons member fresh) ?_ (anchored s.name anchor ⟨s, member, rfl, asks⟩)
              fun a b next begun => ?_
            · rw [List.length_cons]
              omega
            · refine (waiting' a b next begun).imp_right fun asks' => ?_
              exact Option.some.inj (asks'.symm.trans asks)

theorem closed_foldl (rest : List Station) (within : rest ⊆ stations) (whole : Whole stations p)
    (closed : Closed stations p) :
    Closed stations (rest.foldl (fun p s => place stations (stations.length + 1) p s.name) p) := by
  induction rest generalizing p with
  | nil => exact closed
  | cons s rest ih =>
      obtain ⟨member, within⟩ := List.cons_subset.mp within
      refine ih within (whole.place _ s.name) ?_
      exact closed_place distinct anchored whole.begins (by omega) (List.mem_map_of_mem member)
        fun a b next begun => .inl (closed a b next begun)

omit distinct anchored in
theorem leads_of_mem_foldl {depth : Nat} (rest : List Station)
    (placed : w ∈ (rest.foldl (fun p s => place stations depth p s.name) p).order) :
    w ∈ p.order ∨ ∃ t ∈ rest, ReflTransGen (NextTo stations) t.name w := by
  induction rest generalizing p with
  | nil => exact .inl placed
  | cons s rest ih =>
      rcases ih placed with earlier | ⟨t, member, leads⟩
      · exact (leads_of_mem_place earlier).imp_right fun leads => ⟨s, List.mem_cons_self, leads⟩
      · exact .inr ⟨t, List.mem_cons_of_mem _ member, leads⟩

omit anchored in
theorem pair_sublist_foldl {depth : Nat} (member : s ∈ stations)
    (free : s.before = none ∧ s.after = none) (rest : List Station) (earlier : w ∈ p.order)
    (fresh : s.name ∉ p.order)
    (placed : s.name ∈ (rest.foldl (fun p s => place stations depth p s.name) p).order) :
    [w, s.name].Sublist (rest.foldl (fun p s => place stations depth p s.name) p).order := by
  induction rest generalizing p with
  | nil => exact absurd placed fresh
  | cons t rest ih =>
      by_cases now : s.name ∈ (place stations depth p t.name).order
      · exact (pair_sublist_place distinct member free earlier fresh now).trans
          (sublist_foldl_place rest _)
      · exact ih ((sublist_place_order depth p t.name).subset earlier) now placed

/-- A callback without wishes stands behind all that a callback leads to, if neither this one nor
any registered before it leads to the callback itself. -/
theorem pair_sublist_of_leads {front rest : List Station} (split : stations = front ++ t :: rest)
    (leads : ReflTransGen (NextTo stations) t.name w) (member : s ∈ stations)
    (free : s.before = none ∧ s.after = none)
    (apart : ∀ t' ∈ front ++ [t], ¬ ReflTransGen (NextTo stations) t'.name s.name) :
    [w, s.name].Sublist (ofStations stations) := by
  have split' : stations = (front ++ [t]) ++ rest := by
    rw [split, List.append_assoc]
    rfl
  have within : front ++ [t] ⊆ stations := by
    rw [split']
    exact List.subset_append_left _ _
  obtain ⟨whole, begun⟩ := whole_foldl stations.length (front ++ [t]) within whole_empty
  have closed : Closed stations ((front ++ [t]).foldl
      (fun p s => place stations (stations.length + 1) p s.name) empty) :=
    closed_foldl distinct anchored _ within whole_empty fun _ _ _ begun => by cases begun
  have first : t.name ∈ (front ++ [t]).map Station.name :=
    List.mem_map_of_mem (List.mem_append_right _ (List.mem_singleton_self t))
  have placed := (ofStations_perm distinct).mem_iff.mpr (List.mem_map_of_mem member)
  have order : ofStations stations = (rest.foldl
      (fun p s => place stations (stations.length + 1) p s.name) ((front ++ [t]).foldl
        (fun p s => place stations (stations.length + 1) p s.name) empty)).order := by
    rw [← List.foldl_append, ← split', ofStations]
  rw [order] at placed ⊢
  refine pair_sublist_foldl distinct member free rest
    (whole.placed.mem_iff.mpr (closed.mem_begun leads (begun _ (.inr first)))) (fun early => ?_)
    placed
  rcases leads_of_mem_foldl _ early with none | ⟨t', member', leads'⟩
  · cases none
  · exact apart t' member' leads'

end Anchored

end Placement

/-! ## The order of callbacks without wishes -/

/-- Whether a callback is another one, or is placed next to it, directly or through others. -/
def LeadsTo (stations : List Station) : String → String → Prop :=
  ReflTransGen (Placement.NextTo (stations.map (Station.resolved stations)))

section Free

variable {order : List String} {u v : Station}

/-- The anchors that count are there. -/
theorem mem_names_of_nextTo {a b : String}
    (next : Placement.NextTo (stations.map (Station.resolved stations)) a b) :
    b ∈ (stations.map (Station.resolved stations)).map Station.name := by
  obtain ⟨s, member, -, asks⟩ := next
  obtain ⟨t, -, rfl⟩ := List.mem_map.mp member
  rw [names_resolved]
  rcases Option.or_eq_some_iff.mp asks with asks | ⟨-, asks⟩
  · exact (known_eq_some_iff.mp asks).2
  · exact (known_eq_some_iff.mp asks).2

/-- A callback without wishes is placed behind one that is led to earlier. -/
theorem pair_sublist_placementOf (distinct : (stations.map Station.name).Nodup)
    {front rest : List Station} (split : stations = front ++ t :: rest)
    (leads : LeadsTo stations t.name u.name) (member : v ∈ stations)
    (free : v.before = none ∧ v.after = none)
    (apart : ∀ t' ∈ front ++ [t], ¬ LeadsTo stations t'.name v.name) :
    [u.name, v.name].Sublist (placementOf stations) := by
  have member' := List.mem_map_of_mem (f := Station.resolved stations) member
  rw [resolved_of_free free.1 free.2] at member'
  have split' : stations.map (Station.resolved stations) = front.map (Station.resolved stations) ++
      t.resolved stations :: rest.map (Station.resolved stations) :=
    (congrArg (List.map (Station.resolved stations)) split).trans List.map_append
  refine Placement.pair_sublist_of_leads ?_ ?_ split' leads member' free ?_
  · rwa [names_resolved]
  · exact fun _ _ => mem_names_of_nextTo
  · rw [← List.map_singleton (f := Station.resolved stations), ← List.map_append]
    intro t' turn
    obtain ⟨t', turn', rfl⟩ := List.mem_map.mp turn
    exact apart t' turn'

theorem eq_of_leadsTo (distinct : (stations.map Station.name).Nodup) (member : u ∈ stations)
    (member' : v ∈ stations) (free : u.before = none ∧ u.after = none)
    (free' : v.before = none ∧ v.after = none) {n : String} (leads : LeadsTo stations n u.name)
    (leads' : LeadsTo stations n v.name) : u.name = v.name := by
  have within : ∀ {s : Station}, s ∈ stations → s.before = none ∧ s.after = none →
      s ∈ stations.map (Station.resolved stations) := by
    intro s member free
    have member := List.mem_map_of_mem (f := Station.resolved stations) member
    rwa [resolved_of_free free.1 free.2] at member
  refine Placement.eq_of_leads_free ?_ (within member free) (within member' free') free free' leads
    leads'
  rwa [names_resolved]

/-- The first callback registered that leads to one of two. -/
theorem exists_first_leading (member : u ∈ stations) (v : Station) :
    ∃ front t rest, stations = front ++ t :: rest ∧
      (LeadsTo stations t.name u.name ∨ LeadsTo stations t.name v.name) ∧
      ∀ t' ∈ front, ¬ LeadsTo stations t'.name u.name ∧ ¬ LeadsTo stations t'.name v.name := by
  have own : LeadsTo stations u.name u.name := .refl
  obtain ⟨front, t, rest, split, leads, early⟩ := exists_first
    (p := fun t => LeadsTo stations t.name u.name ∨ LeadsTo stations t.name v.name) member
    (.inl own)
  exact ⟨front, t, rest, split, leads, fun t' member => not_or.mp (early t' member)⟩

/-- The topological pass keeps a callback without wishes before those placed behind it. -/
theorem IsOrder.pair_sublist (isOrder : IsOrder stations order)
    (distinct : (stations.map Station.name).Nodup)
    (single : ∀ s ∈ stations,
      Station.known stations s.before = none ∨ Station.known stations s.after = none)
    (member : u ∈ stations) (free : u.before = none ∧ u.after = none) (member' : v ∈ stations)
    (placed : [u.name, v.name].Sublist (placementOf stations)) :
    [u.name, v.name].Sublist order := by
  have known' := List.mem_map_of_mem (f := Station.name) member'
  have less := idxOf_lt_of_sublist ((placementOf_perm distinct).nodup_iff.mpr distinct) placed
  refine sublist_of_idxOf_lt (isOrder.all.nodup_iff.mpr distinct) (isOrder.all.mem_iff.mpr known')
    (isOrder.idxOf_lt distinct (List.mem_map_of_mem member) known' fun y waits =>
      ⟨v.name, .refl, ?_⟩)
  exact Nat.lt_of_le_of_lt (idxOf_le_of_waits distinct single member free.1 free.2 waits) less

/-- Where each callback asks for one other that is there at most, and none has to come before
itself, there is an order. Of two callbacks without wishes the one comes first to which a callback
leads before any leads to the other, as they have been registered. So they come in the order in
which they have been registered themselves, unless a callback registered before the first of them
leads to the second. -/
theorem free_order_exact (stations : List Station) (distinct : (stations.map Station.name).Nodup)
    (single : ∀ s ∈ stations,
      Station.known stations s.before = none ∨ Station.known stations s.after = none)
    (acyclic : ∀ n, ¬ TransGen (MustPrecede stations) n n) :
    ∃ order, orderStations stations = .ok order ∧
      (∀ u ∈ stations, ∀ v ∈ stations, u.before = none ∧ u.after = none →
        v.before = none ∧ v.after = none → u.name ≠ v.name →
        ([u.name, v.name].Sublist order ↔ ∃ front t rest, stations = front ++ t :: rest ∧
          LeadsTo stations t.name u.name ∧ ∀ t' ∈ front, ¬ LeadsTo stations t'.name v.name)) ∧
      ∀ front u between v rest, stations = front ++ u :: (between ++ v :: rest) →
        u.before = none ∧ u.after = none → v.before = none ∧ v.after = none →
        (∀ t ∈ front, ¬ LeadsTo stations t.name v.name) → [u.name, v.name].Sublist order := by
  obtain ⟨order, ordered⟩ := (exists_order_iff distinct).mpr acyclic
  have isOrder := isOrder_of_ok distinct ordered
  have nodup : order.Nodup := isOrder.all.nodup_iff.mpr distinct
  -- A callback leads to one of the two only, so it decides which of them comes first.
  have first : ∀ u ∈ stations, ∀ v ∈ stations, u.before = none ∧ u.after = none →
      v.before = none ∧ v.after = none → u.name ≠ v.name → ∀ front t rest,
        stations = front ++ t :: rest → LeadsTo stations t.name u.name →
          (∀ t' ∈ front, ¬ LeadsTo stations t'.name v.name) → [u.name, v.name].Sublist order := by
    intro u member v member' free free' other front t rest split leads apart
    refine isOrder.pair_sublist distinct single member free member'
      (pair_sublist_placementOf distinct split leads member' free' ?_)
    refine List.forall_mem_append.mpr ⟨apart, List.forall_mem_singleton.mpr fun leads' => other ?_⟩
    exact eq_of_leadsTo distinct member member' free free' leads leads'
  refine ⟨order, ordered, fun u member v member' free free' other => ⟨fun pair => ?_, ?_⟩, ?_⟩
  · obtain ⟨front, t, rest, split, leads | leads, apart⟩ := exists_first_leading member v
    · exact ⟨front, t, rest, split, leads, fun t' turn => (apart t' turn).2⟩
    · have pair' := first v member' u member free' free other.symm front t rest split leads
        fun t' turn => (apart t' turn).1
      exact absurd (idxOf_lt_of_sublist nodup pair)
        (Nat.lt_asymm (idxOf_lt_of_sublist nodup pair'))
  · rintro ⟨front, t, rest, split, leads, apart⟩
    exact first u member v member' free free' other front t rest split leads apart
  · intro front u between v rest split free free' apart
    have member : u ∈ stations := split ▸ List.mem_append_right _ List.mem_cons_self
    have member' : v ∈ stations := split ▸ List.mem_append_right _ (List.mem_cons_of_mem _
      (List.mem_append_right _ List.mem_cons_self))
    refine first u member v member' free free' (fun same => ?_) front u _ split .refl apart
    rw [split, List.map_append, List.map_cons, List.map_append, List.map_cons] at distinct
    exact (List.nodup_cons.mp (List.nodup_append.mp distinct).2.1).1
      (same ▸ List.mem_append_right _ List.mem_cons_self)

/-- A concert, announced in another order than that of its prelude. -/
def Notebook.concert : List Station :=
  [⟨"prelude", some "song", none⟩, ⟨"speech", none, none⟩, ⟨"song", none, none⟩,
    ⟨"thanks", none, some "speech"⟩, ⟨"farewell", none, none⟩]

open Notebook in
/-- The prelude leads to the song, so that it comes before the speech. -/
theorem concert_in_order : ∃ order, orderStations concert = .ok order ∧
    ["song", "speech"].Sublist order ∧ ["speech", "farewell"].Sublist order := by
  have distinct : (concert.map Station.name).Nodup := by decide
  have acyclic : ∀ n, ¬ TransGen (MustPrecede concert) n n :=
    (exists_order_iff distinct).mp ⟨["prelude", "song", "speech", "thanks", "farewell"],
      by decide +kernel⟩
  have prelude : LeadsTo concert "prelude" "song" :=
    .single ⟨⟨"prelude", some "song", none⟩, by decide, rfl, rfl⟩
  obtain ⟨order, ordered, decides, unled⟩ :=
    free_order_exact concert distinct (by decide) acyclic
  refine ⟨order, ordered, ?_, ?_⟩
  · refine (decides ⟨"song", none, none⟩ (by decide) ⟨"speech", none, none⟩ (by decide) ⟨rfl, rfl⟩
      ⟨rfl, rfl⟩ (by decide)).mpr ⟨[], _, _, rfl, prelude, nofun⟩
  · refine unled [⟨"prelude", some "song", none⟩] ⟨"speech", none, none⟩
      [⟨"song", none, none⟩, ⟨"thanks", none, some "speech"⟩] ⟨"farewell", none, none⟩ [] rfl
      ⟨rfl, rfl⟩ ⟨rfl, rfl⟩ (List.forall_mem_singleton.mpr fun leads => ?_)
    have same := eq_of_leadsTo (u := ⟨"song", none, none⟩) (v := ⟨"farewell", none, none⟩) distinct
      (by decide) (by decide) ⟨rfl, rfl⟩ ⟨rfl, rfl⟩ prelude leads
    revert same
    decide

open Notebook in
/-- The speech is registered before the song, and comes after it. -/
theorem song_before_speech : (concert.map Station.name).Nodup ∧
    (∀ s ∈ concert, s.before = none ∨ s.after = none) ∧
    (∀ n, ¬ TransGen (MustPrecede concert) n n) ∧
    (⟨"speech", none, none⟩ : Station) ∈ concert ∧ (⟨"song", none, none⟩ : Station) ∈ concert ∧
    ["speech", "song"].Sublist (concert.map Station.name) ∧
    ∃ order, orderStations concert = .ok order ∧ ¬ ["speech", "song"].Sublist order := by
  have ordered : orderStations concert =
      .ok ["prelude", "song", "speech", "thanks", "farewell"] := by decide +kernel
  exact ⟨by decide, by decide, (exists_order_iff (by decide)).mp ⟨_, ordered⟩, by decide, by decide,
    by decide, _, ordered, by decide⟩

end Free

end ScopedAccess
