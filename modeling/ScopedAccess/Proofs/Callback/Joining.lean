import ScopedAccess.Proofs.Callback.Changes
/-!
# A callback that joins others

A callback that is registered last, and that no other one asks for, is placed when all others have
been, so that it goes next to its anchor and they stay in the order they are in
(`Placement.ofStations_concat`). A circle that it closes goes through it
(`exists_circle_concat_iff`), and for that it has to stand behind one callback and in front of
another.

With the callback, the topological pass picks the others as it does without. What is ready without
it is ready with it, except for the anchor that it runs before; but then the callback itself is
ready, and placed in front of the anchor (`PicksFirst.without`). One pick after the other there is
no choice (`PicksFirst.unique`), so the order of the others is what it was.

* `register_disturbs_nothing`: what becomes of the chain of a phase when one more is registered.
-/

namespace ScopedAccess

set_option autoImplicit false

open Relation (ReflTransGen TransGen)

variable {stations : List Station} {s : Station} {n m : String} {order order' picked : List String}

/-! ## Circles through one callback -/

theorem nodup_names_concat : ((stations ++ [s]).map Station.name).Nodup ↔
    (stations.map Station.name).Nodup ∧ s.name ∉ stations.map Station.name := by
  rw [List.map_append, List.map_singleton, ← List.concat_eq_append, List.nodup_concat, and_comm]

theorem MustPrecede.concat (must : MustPrecede stations n m) :
    MustPrecede (stations ++ [s]) n m := by
  obtain ⟨known, known', t, member, wish⟩ := must
  refine ⟨?_, ?_, t, List.mem_append_left _ member, wish⟩
  · rw [List.map_append]
    exact List.mem_append_left _ known
  · rw [List.map_append]
    exact List.mem_append_left _ known'

theorem mem_names_of_concat (known : n ∈ (stations ++ [s]).map Station.name)
    (other : n ≠ s.name) : n ∈ stations.map Station.name := by
  rw [List.map_append] at known
  exact (List.mem_append.mp known).resolve_right fun last => other (List.mem_singleton.mp last)

/-- A callback that joins adds no wishes between others. -/
theorem MustPrecede.of_concat (must : MustPrecede (stations ++ [s]) n m) (other : n ≠ s.name)
    (other' : m ≠ s.name) : MustPrecede stations n m := by
  obtain ⟨known, known', t, member, wish⟩ := must
  refine ⟨mem_names_of_concat known other, mem_names_of_concat known' other', t, ?_, wish⟩
  refine (List.mem_append.mp member).resolve_right fun last => ?_
  obtain rfl := List.mem_singleton.mp last
  rcases wish with ⟨same, -⟩ | ⟨same, -⟩
  · exact other same.symm
  · exact other' same.symm

theorem waits_concat (waits : ReflTransGen (MustPrecede stations) n m) :
    ReflTransGen (MustPrecede (stations ++ [s])) n m :=
  ReflTransGen.mono (fun _ _ must => must.concat) _ _ waits

/-- A callback that waits for another does so without the one that joins, or through it. -/
theorem waits_or_through (waits : TransGen (MustPrecede (stations ++ [s])) n m) :
    TransGen (MustPrecede stations) n m ∨
      (ReflTransGen (MustPrecede (stations ++ [s])) n s.name ∧
        ReflTransGen (MustPrecede (stations ++ [s])) s.name m) := by
  induction waits with
  | @single k must =>
      by_cases first : n = s.name
      · exact .inr ⟨first ▸ .refl, first ▸ .single must⟩
      · by_cases last : k = s.name
        · exact .inr ⟨last ▸ .single must, last ▸ .refl⟩
        · exact .inl (.single (must.of_concat first last))
  | @tail k l waits must ih =>
      by_cases middle : k = s.name
      · exact .inr ⟨middle ▸ waits.to_reflTransGen, middle ▸ .single must⟩
      · by_cases last : l = s.name
        · exact .inr ⟨last ▸ (waits.tail must).to_reflTransGen, last ▸ .refl⟩
        · exact ih.imp (·.tail (must.of_concat middle last)) fun through =>
            ⟨through.1, through.2.tail must⟩

/-- What has to come before the callback that joins waits, among the others, for one that has to
come right before it. -/
theorem exists_waits_of_concat (waits : ReflTransGen (MustPrecede (stations ++ [s])) n s.name)
    (other : n ≠ s.name) : ∃ a, MustPrecede (stations ++ [s]) a s.name ∧
      ReflTransGen (MustPrecede stations) n a := by
  induction waits using ReflTransGen.head_induction_on with
  | refl => exact absurd rfl other
  | @head k l must _ ih =>
      by_cases last : l = s.name
      · exact ⟨k, last ▸ must, .refl⟩
      · obtain ⟨a, must', waits⟩ := ih last
        exact ⟨a, must', .head (must.of_concat other last) waits⟩

/-- Where there has been no circle, a callback that joins closes one if something that has to come
before it waits for something that has to come after it. -/
theorem exists_circle_concat_iff (acyclic : ∀ n, ¬ TransGen (MustPrecede stations) n n) :
    (∃ n, TransGen (MustPrecede (stations ++ [s])) n n) ↔
      ∃ a b, MustPrecede (stations ++ [s]) a s.name ∧ MustPrecede (stations ++ [s]) s.name b ∧
        ReflTransGen (MustPrecede stations) b a := by
  constructor
  · rintro ⟨n, circle⟩
    obtain ⟨before, behind⟩ := (waits_or_through circle).resolve_left (acyclic n)
    have through : TransGen (MustPrecede (stations ++ [s])) s.name s.name :=
      (TransGen.trans_right behind circle).trans_left before
    obtain ⟨b, must, waits⟩ := TransGen.head'_iff.mp through
    by_cases itself : b = s.name
    · subst itself
      exact ⟨s.name, s.name, must, must, .refl⟩
    · obtain ⟨a, must', waits'⟩ := exists_waits_of_concat waits itself
      exact ⟨a, b, must', must, waits'⟩
  · rintro ⟨a, b, must, must', waits⟩
    exact ⟨s.name, .head' must' ((waits_concat waits).tail must)⟩

/-! ## The place of one more -/

/-- Whether no callback asks to run next to a name. -/
def Unasked (stations : List Station) (name : String) : Prop :=
  ∀ t ∈ stations, t.before ≠ some name ∧ t.after ≠ some name

namespace Placement

variable {p : Placement} {name : String}

/-- One more step inwards than there are names left makes no difference. -/
theorem place_succ {depth : Nat} (begins : Begins stations p)
    (enough : stations.length < depth + p.begun.length) :
    place stations (depth + 1) p name = place stations depth p name := by
  induction depth generalizing p name with
  | zero => exact absurd (begins.depth_pos enough) (Nat.lt_irrefl 0)
  | succ depth ih =>
      rw [place, place]
      split
      · rfl
      · rename_i fresh
        cases found : stations.find? fun t => t.name = name with
        | none => rfl
        | some t =>
            obtain ⟨member, rfl⟩ := eq_of_find? found
            cases anchored : t.before.or t.after with
            | none => simp only [anchored]
            | some anchor =>
                simp only [anchored]
                rw [ih (begins.cons member fresh)]
                rw [List.length_cons]
                omega

/-- What others do while they are placed does not depend on a callback that none of them asks
for. -/
theorem place_concat (unasked : Unasked stations s.name) (depth : Nat) (p : Placement)
    (other : name ≠ s.name) :
    place (stations ++ [s]) depth p name = place stations depth p name := by
  induction depth generalizing p name with
  | zero => rfl
  | succ depth ih =>
      have same : (stations ++ [s]).find? (fun t => t.name = name) =
          stations.find? fun t => t.name = name := by
        rw [List.find?_append, List.find?_singleton, if_neg (by simpa using other.symm),
          Option.or_none]
      rw [place, place, same]
      split
      · rfl
      · cases found : stations.find? fun t => t.name = name with
        | none => rfl
        | some t =>
            obtain ⟨before, after⟩ := unasked t (List.mem_of_find?_eq_some found)
            cases anchored : t.before.or t.after with
            | none => simp only [anchored]
            | some anchor =>
                simp only [anchored]
                rw [ih]
                rintro rfl
                rcases Option.or_eq_some_iff.mp anchored with asks | ⟨-, asks⟩
                · exact before asks
                · exact after asks

/-- The others are placed as they are without the last callback. -/
theorem foldl_place_concat (fresh : s.name ∉ stations.map Station.name)
    (unasked : Unasked stations s.name) (rest : List Station) (within : rest ⊆ stations)
    (whole : Whole stations p) :
    rest.foldl (fun p t => place (stations ++ [s]) (stations.length + 2) p t.name) p =
      rest.foldl (fun p t => place stations (stations.length + 1) p t.name) p := by
  induction rest generalizing p with
  | nil => rfl
  | cons t rest ih =>
      obtain ⟨member, within⟩ := List.cons_subset.mp within
      have other : t.name ≠ s.name := fun same => fresh (same ▸ List.mem_map_of_mem member)
      rw [List.foldl_cons, List.foldl_cons, place_concat unasked _ _ other,
        place_succ whole.begins (by omega)]
      exact ih within (whole.place _ t.name)

/-- The last callback is put next to its anchor when all others have been placed. -/
theorem ofStations_concat (distinct : ((stations ++ [s]).map Station.name).Nodup)
    (unasked : Unasked stations s.name)
    (anchored : ∀ anchor, s.before.or s.after = some anchor → anchor ∈ stations.map Station.name) :
    ofStations (stations ++ [s]) = ((⟨ofStations stations, []⟩ : Placement).put s).order := by
  have fresh := (nodup_names_concat.mp distinct).2
  obtain ⟨whole, begun⟩ :=
    whole_foldl stations.length stations (List.Subset.refl stations) whole_empty
  rw [ofStations, List.foldl_append, List.length_append, List.length_singleton,
    foldl_place_concat fresh unasked stations (List.Subset.refl _) whole_empty, List.foldl_cons,
    List.foldl_nil, ofStations]
  generalize stations.foldl (fun p t => place stations (stations.length + 1) p t.name) empty = p
    at whole begun ⊢
  rw [place, if_neg fun member => fresh (whole.begins.known member),
    find?_of_key distinct (List.mem_append_right _ (List.mem_singleton_self s))]
  cases asks : s.before.or s.after with
  | none => simp only [asks, put]
  | some anchor =>
      have there : anchor ∈ s.name :: p.begun :=
        List.mem_cons_of_mem _ (begun anchor (.inr (anchored anchor asks)))
      simp only [asks]
      rw [place, if_pos there, put, put]

end Placement

/-! ## The order with one more -/

theorem Station.known_concat {anchor : Option String} (other : anchor ≠ some s.name) :
    Station.known (stations ++ [s]) anchor = Station.known stations anchor := by
  cases anchor with
  | none => rfl
  | some name =>
      have other : s.name ≠ name := fun same => other (same ▸ rfl)
      simp [Station.known, Option.filter_some, other]

/-- A list keeps two of its members in the order in which a longer one has them. -/
theorem idxOf_le_of_sublist {l l' : List String} (kept : l.Sublist l') (nodup : l'.Nodup)
    (member : n ∈ l) (earlier : l'.idxOf n ≤ l'.idxOf m) : l.idxOf n ≤ l.idxOf m := by
  by_contra late
  have pair := sublist_of_idxOf_lt (nodup.sublist kept) member (Nat.lt_of_not_le late)
  exact absurd (idxOf_lt_of_sublist nodup (pair.trans kept)) (Nat.not_lt.mpr earlier)

/-- There is no choice among the picks. -/
theorem PicksFirst.unique (distinct : (stations.map Station.name).Nodup) (picked : List String)
    {rest rest' : List String} (picks : PicksFirst stations (picked ++ rest))
    (picks' : PicksFirst stations (picked ++ rest')) (same : rest.length = rest'.length) : rest = rest' := by
  induction rest generalizing picked rest' with
  | nil => exact (List.length_eq_zero_iff.mp same.symm).symm
  | cons n rest ih =>
      cases rest' with
      | nil => cases same
      | cons m rest' =>
          obtain ⟨ready, least⟩ := picks picked n rest rfl
          obtain ⟨ready', least'⟩ := picks' picked m rest' rfl
          have here : n = m :=
            (List.idxOf_inj ((placementOf_perm distinct).mem_iff.mpr ready.known)).mp
              (Nat.le_antisymm (least m ready') (least' n ready))
          subst here
          rw [ih (picked ++ [n]) (by rwa [List.append_assoc])
            (by rwa [List.append_assoc]) (Nat.succ.inj same)]

/-- One that does not wait for the last pick has been ready before it. -/
theorem Ready.of_concat (ready : Ready stations (picked ++ [m]) n)
    (apart : ¬ MustPrecede stations m n) : Ready stations picked n := by
  refine ⟨ready.known, fun member => ready.fresh (List.mem_append_left _ member), fun k must => ?_⟩
  refine (List.mem_append.mp (ready.awaited k must)).resolve_right fun last => ?_
  obtain rfl := List.mem_singleton.mp last
  exact apart must

section Joining

variable (unasked : Unasked (stations ++ [s]) s.name)

include unasked

theorem map_resolved_concat :
    (stations ++ [s]).map (Station.resolved (stations ++ [s])) =
      stations.map (Station.resolved stations) ++ [s.resolved stations] := by
  have same : ∀ t ∈ stations ++ [s], t.resolved (stations ++ [s]) = t.resolved stations := by
    intro t member
    obtain ⟨before, after⟩ := unasked t member
    rw [Station.resolved, Station.resolved, Station.known_concat before, Station.known_concat after]
  rw [List.map_congr_left same, List.map_append, List.map_singleton]

variable (distinct : ((stations ++ [s]).map Station.name).Nodup)

include distinct

theorem placementOf_concat : placementOf (stations ++ [s]) =
    ((⟨placementOf stations, []⟩ : Placement).put (s.resolved stations)).order := by
  rw [placementOf, map_resolved_concat unasked]
  refine Placement.ofStations_concat ?_ (fun t member => ?_) fun anchor asks => ?_
  · rw [← map_resolved_concat unasked, names_resolved]
    exact distinct
  · obtain ⟨t, member', rfl⟩ := List.mem_map.mp member
    obtain ⟨before, after⟩ := unasked t (List.mem_append_left _ member')
    exact ⟨fun asks => before (known_eq_some_iff.mp asks).1,
      fun asks => after (known_eq_some_iff.mp asks).1⟩
  · rw [names_resolved]
    rcases Option.or_eq_some_iff.mp asks with asks | ⟨-, asks⟩
    · exact (known_eq_some_iff.mp asks).2
    · exact (known_eq_some_iff.mp asks).2

theorem sublist_placementOf_concat :
    (placementOf stations).Sublist (placementOf (stations ++ [s])) := by
  rw [placementOf_concat unasked distinct]
  exact Placement.sublist_put_order

/-- The callback that joins has to wait only for the one that it runs after. -/
theorem after_of_mustPrecede (must : MustPrecede (stations ++ [s]) n s.name) :
    s.after = some n := by
  obtain ⟨-, -, t, member, ⟨-, asks⟩ | ⟨same, asks⟩⟩ := must
  · exact absurd asks (unasked t member).1
  · rwa [← Placement.eq_of_name distinct member
      (List.mem_append_right _ (List.mem_singleton_self s)) same]

/-- Only the one that it runs before has to wait for the callback that joins. -/
theorem before_of_mustPrecede (must : MustPrecede (stations ++ [s]) s.name n) :
    s.before = some n := by
  obtain ⟨-, -, t, member, ⟨same, asks⟩ | ⟨-, asks⟩⟩ := must
  · rwa [← Placement.eq_of_name distinct member
      (List.mem_append_right _ (List.mem_singleton_self s)) same]
  · exact absurd asks (unasked t member).2

/-- It is placed in front of the one that has to wait for it. -/
theorem idxOf_placementOf_concat_lt (must : MustPrecede (stations ++ [s]) s.name n)
    (known : n ∈ stations.map Station.name) :
    (placementOf (stations ++ [s])).idxOf s.name < (placementOf (stations ++ [s])).idxOf n := by
  have asks : (s.resolved stations).before = some n :=
    known_eq_some_iff.mpr ⟨before_of_mustPrecede unasked distinct must, known⟩
  have there : n ∈ placementOf stations :=
    (placementOf_perm (nodup_names_concat.mp distinct).1).mem_iff.mpr known
  refine idxOf_lt_of_sublist ((placementOf_perm distinct).nodup_iff.mpr distinct) ?_
  rw [placementOf_concat unasked distinct, Placement.put, asks]
  exact pair_sublist_insertBefore there

variable (single : s.before = none ∨ s.after = none)

include single

theorem not_both_mustPrecede (must : MustPrecede (stations ++ [s]) n s.name) :
    ¬ MustPrecede (stations ++ [s]) s.name m := by
  intro must'
  have after := after_of_mustPrecede unasked distinct must
  have before := before_of_mustPrecede unasked distinct must'
  rcases single with none | none
  · rw [none] at before
    cases before
  · rw [none] at after
    cases after

/-- A callback that joins and is on one side of others only closes no circle. -/
theorem exists_order_concat (ordered : orderStations stations = .ok order) :
    ∃ order', orderStations (stations ++ [s]) = .ok order' := by
  have acyclic := (exists_order_iff (nodup_names_concat.mp distinct).1).mp ⟨order, ordered⟩
  refine (exists_order_iff distinct).mpr fun n circle => ?_
  obtain ⟨a, b, must, must', -⟩ := (exists_circle_concat_iff acyclic).mp ⟨n, circle⟩
  exact not_both_mustPrecede unasked distinct single must must'

/-- Without the callback that joins the picks are first ones all the same. -/
theorem PicksFirst.without (picks : PicksFirst (stations ++ [s]) order) :
    PicksFirst stations (order.filter fun n => n ≠ s.name) := by
  obtain ⟨distinct', fresh⟩ := nodup_names_concat.mp distinct
  intro picked n rest split
  obtain ⟨front, back, rfl, rfl, tail⟩ := List.filter_eq_append_iff.mp split
  obtain ⟨skipped, rest, rfl, skip, other, -⟩ := List.filter_eq_cons_iff.mp tail
  have other : n ≠ s.name := by simpa using other
  obtain ⟨ready, least⟩ := picks (front ++ skipped) n rest (List.append_assoc ..).symm
  have picked_iff : ∀ m, m ≠ s.name →
      (m ∈ front.filter (fun n => n ≠ s.name) ↔ m ∈ front ++ skipped) := by
    intro m other
    have unskipped : m ∉ skipped := fun member => skip m member (by simpa using other)
    simp [other, unskipped]
  have known_ne : ∀ m ∈ stations.map Station.name, m ≠ s.name := by
    rintro m known rfl
    exact fresh known
  have known := mem_names_of_concat ready.known other
  refine ⟨⟨known, ?_, fun m must => ?_⟩, fun m ready' => ?_⟩
  · exact fun member => ready.fresh ((picked_iff n other).mp member)
  · exact (picked_iff m (known_ne m must.1)).mpr (ready.awaited m must.concat)
  · have other' := known_ne m ready'.known
    refine idxOf_le_of_sublist (sublist_placementOf_concat unasked distinct)
      ((placementOf_perm distinct).nodup_iff.mpr distinct)
      ((placementOf_perm distinct').mem_iff.mpr known) ?_
    by_cases awaited : ∀ k, MustPrecede (stations ++ [s]) k m → k ∈ front ++ skipped
    · refine least m ⟨?_, fun member => ready'.fresh ((picked_iff m other').mpr member), awaited⟩
      rw [List.map_append]
      exact List.mem_append_left _ ready'.known
    · -- What is not awaited is the callback that joins, and it is ready itself.
      push Not at awaited
      obtain ⟨k, must, unpicked⟩ := awaited
      have joins : k = s.name := by
        by_contra other
        exact unpicked ((picked_iff k other).mp
          (ready'.awaited k (must.of_concat other other')))
      subst joins
      refine Nat.le_of_lt (Nat.lt_of_le_of_lt (least s.name ⟨must.1, unpicked, fun j must' => ?_⟩)
        (idxOf_placementOf_concat_lt unasked distinct must ready'.known))
      exact absurd must (not_both_mustPrecede unasked distinct single must')

/-- The callback that joins takes its place in the order, and the others stay where they are. -/
theorem exists_order_without (ordered : orderStations stations = .ok order) :
    ∃ order', orderStations (stations ++ [s]) = .ok order' ∧
      order'.filter (fun n => n ≠ s.name) = order := by
  obtain ⟨distinct', fresh⟩ := nodup_names_concat.mp distinct
  obtain ⟨order', ordered'⟩ := exists_order_concat unasked distinct single ordered
  have isOrder := isOrder_of_ok distinct' ordered
  have isOrder' := isOrder_of_ok distinct ordered'
  refine ⟨order', ordered', ?_⟩
  refine PicksFirst.unique distinct' [] (isOrder'.picks.without unasked distinct single)
    isOrder.picks ?_
  have others : ((stations ++ [s]).map Station.name).filter (fun n => n ≠ s.name) =
      stations.map Station.name := by
    have kept : (stations.map Station.name).filter (fun n => n ≠ s.name) =
        stations.map Station.name := List.filter_eq_self.mpr fun n known =>
      decide_eq_true fun same => fresh (same ▸ known)
    rw [List.map_append, List.filter_append, kept]
    simp
  rw [(isOrder'.all.filter _).length_eq, others, isOrder.all.length_eq]

omit single in
theorem not_mustPrecede_of_unknown (before : Station.known stations s.before = none) :
    ¬ MustPrecede (stations ++ [s]) s.name n := by
  intro must
  have asks := before_of_mustPrecede unasked distinct must
  have other : n ≠ s.name := by
    rintro rfl
    exact (unasked s (List.mem_append_right _ (List.mem_singleton_self s))).1 asks
  rw [known_eq_some_iff.mpr ⟨asks, mem_names_of_concat must.2.1 other⟩] at before
  cases before

omit single in
theorem placementOf_eq_concat (before : Station.known stations s.before = none)
    (after : Station.known stations s.after = none) :
    placementOf (stations ++ [s]) = placementOf stations ++ [s.name] := by
  rw [placementOf_concat unasked distinct, Placement.put]
  simp only [Station.resolved, before, after]

omit single in
/-- A callback that asks for none of the others comes last. -/
theorem order_eq_concat (before : Station.known stations s.before = none)
    (after : Station.known stations s.after = none)
    (ordered : orderStations (stations ++ [s]) = .ok order) :
    order = order.filter (fun n => n ≠ s.name) ++ [s.name] := by
  have isOrder := isOrder_of_ok distinct ordered
  have nodup : order.Nodup := isOrder.all.nodup_iff.mpr distinct
  have placed := placementOf_eq_concat unasked distinct before after
  obtain ⟨front, back, rfl⟩ := List.append_of_mem (isOrder.all.mem_iff.mpr
    (List.mem_map_of_mem (List.mem_append_right _ (List.mem_singleton_self s))))
  cases back with
  | nil =>
      have kept : front.filter (fun n => n ≠ s.name) = front :=
        List.filter_eq_self.mpr fun n member => decide_eq_true fun same =>
          (List.nodup_append.mp nodup).2.2 n member s.name List.mem_cons_self same
      rw [List.filter_append, kept]
      simp
  | cons n rest =>
      -- The next one is ready when the callback is picked, and placed in front of it.
      obtain ⟨-, least⟩ := isOrder.picks front s.name (n :: rest) rfl
      obtain ⟨ready, -⟩ := isOrder.picks (front ++ [s.name]) n rest (by simp)
      have ready' : Ready (stations ++ [s]) front n :=
        ready.of_concat (not_mustPrecede_of_unknown unasked distinct before)
      have other : n ≠ s.name := fun same =>
        ready.fresh (List.mem_append_right _ (List.mem_singleton.mpr same))
      have member : n ∈ placementOf stations := by
        have member := (placementOf_perm distinct).mem_iff.mpr ready.known
        rw [placed] at member
        exact (List.mem_append.mp member).resolve_right fun last =>
          other (List.mem_singleton.mp last)
      have late := least n ready'
      have nodup' := (placementOf_perm distinct).nodup_iff.mpr distinct
      rw [placed] at late nodup'
      exact absurd ((mem_front_iff nodup').mp member) (Nat.not_lt.mpr late)

end Joining

/-! ## The chain with one more -/

namespace PhaseCallbacks

variable {H : Type} {entries : List (CallbackEntry H)} {e : CallbackEntry H}

theorem running?_concat_of_ne (other : n ≠ e.name) :
    running? (entries ++ [e]) n = running? entries n := by
  rw [running?, running?, List.find?_append, List.find?_singleton,
    if_neg (by simpa using other.symm), Option.or_none]

/-- Without the callback that joins, the chain is that of the others. -/
theorem filter_chainOf_concat :
    (chainOf (entries ++ [e]) order).filter (fun x => x.1 ≠ e.name) =
      chainOf entries (order.filter fun n => n ≠ e.name) := by
  rw [chainOf_eq, chainOf_eq, List.filter_filterMap, List.filterMap_filter]
  refine List.filterMap_congr fun n _ => ?_
  rw [filter_running?]
  by_cases same : n = e.name
  · simp [same]
  · rw [if_neg same, running?_concat_of_ne same]
    simp [same]

/-- A callback that comes last in the order comes last in the chain. -/
theorem chainOf_concat (distinct : ((entries ++ [e]).map CallbackEntry.name).Nodup)
    (running : e.removed = false) (others : ∀ n ∈ order, n ≠ e.name) :
    chainOf (entries ++ [e]) (order ++ [e.name]) = chainOf entries order ++ [(e.name, e.handler)] := by
  have last : running? (entries ++ [e]) e.name = some (e.name, e.handler) :=
    (running?_eq_some_iff distinct).mpr
      ⟨rfl, e, List.mem_append_right _ (List.mem_singleton_self e), rfl, rfl, running⟩
  rw [chainOf_eq, chainOf_eq, List.filterMap_append, List.filterMap_cons_some last,
    List.filterMap_nil]
  exact congrArg (· ++ _) (List.filterMap_congr fun n member =>
    running?_concat_of_ne (others n member))

end PhaseCallbacks

section Registration

variable {H : Type} {r : CallbackRegistry H} {phase : Phase}

/-- Registering a callback of a new name, which no callback of the phase asks for and which asks for
one other at most, is not refused. It disturbs nothing: without it the chain is the one before, and
where it asks for nobody that is there it comes last. -/
theorem register_disturbs_nothing (reached : r.Reached) (phase : Phase) (s : Station) (handler : H)
    (named : isBlankText s.name = false) (fresh : s.name ∉ (r.stations phase).map Station.name)
    (unasked : Unasked (r.stations phase) s.name) (single : s.before = none ∨ s.after = none)
    (other : s.before ≠ some s.name ∧ s.after ≠ some s.name) :
    ∃ r', r.register phase s handler = .ok r' ∧
      r'.stations phase = r.stations phase ++ [s] ∧
      (s.name, handler) ∈ r'.chain phase ∧
      (r'.chain phase).filter (fun x => x.1 ≠ s.name) = r.chain phase ∧
      (Station.known (r.stations phase) s.before = none →
        Station.known (r.stations phase) s.after = none →
        r'.chain phase = r.chain phase ++ [(s.name, handler)]) ∧
      ∀ elsewhere, elsewhere ≠ phase → r'.phase elsewhere = r.phase elsewhere := by
  obtain ⟨order, ordered, chain⟩ := (reached.settled phase).ordered
  have distinct : ((r.stations phase ++ [s]).map Station.name).Nodup :=
    nodup_names_concat.mpr ⟨CallbackRegistry.nodup_stations (reached.settled phase), fresh⟩
  have unasked' : Unasked (r.stations phase ++ [s]) s.name :=
    List.forall_mem_append.mpr ⟨unasked, List.forall_mem_singleton.mpr other⟩
  obtain ⟨order', ordered', without⟩ := exists_order_without unasked' distinct single ordered
  -- The entries of the phase are edited by adding one.
  have edited : (RegistryCall.register phase s handler).edit (r.phase phase).entries =
      (r.phase phase).entries ++ [⟨s, handler, false⟩] :=
    RegistryCall.edit_of_unknown (c := .register phase s handler) (p := r.phase phase)
      (Bool.eq_false_iff.mpr (mt CallbackRegistry.mem_stations_iff.mpr fresh))
  have stations' : ((RegistryCall.register phase s handler).edit (r.phase phase).entries).map
      CallbackEntry.station = r.stations phase ++ [s] := by
    rw [edited, List.map_append, List.map_singleton]
    rfl
  have made : r.register phase s handler = .ok (r.set phase
      ((RegistryCall.register phase s handler).result (r.phase phase) order')) :=
    RegistryCall.make_of_ordered (c := .register phase s handler) named
      ((congrArg orderStations stations').trans ordered')
  have distinct' : (((r.phase phase).entries ++ [CallbackEntry.mk s handler false]).map
      CallbackEntry.name).Nodup := by
    rw [← edited, ← PhaseCallbacks.map_name_station, stations']
    exact distinct
  have chain' : (r.set phase ((RegistryCall.register phase s handler).result (r.phase phase)
      order')).chain phase = PhaseCallbacks.chainOf
        ((r.phase phase).entries ++ [⟨s, handler, false⟩]) order' := by
    rw [CallbackRegistry.chain_set, RegistryCall.result, edited]
  refine ⟨_, made, (CallbackRegistry.stations_set _).trans stations', ?_, ?_,
    fun before after => ?_, fun elsewhere other => CallbackRegistry.phase_set_of_ne _ other⟩
  · rw [chain']
    refine PhaseCallbacks.mem_chainOf distinct' (List.mem_append_right _ (List.mem_singleton_self _))
      rfl ((isOrder_of_ok distinct ordered').all.mem_iff.mpr ?_)
    exact List.mem_map_of_mem (List.mem_append_right _ (List.mem_singleton_self s))
  · rw [chain', CallbackRegistry.chain, chain, ← without]
    exact PhaseCallbacks.filter_chainOf_concat (e := ⟨s, handler, false⟩)
  · have last := order_eq_concat unasked' distinct before after ordered'
    rw [without] at last
    have others : ∀ n ∈ order, n ≠ s.name := by
      intro n member
      rw [← without] at member
      exact of_decide_eq_true (List.mem_filter.mp member).2
    rw [chain', CallbackRegistry.chain, chain, last]
    exact PhaseCallbacks.chainOf_concat distinct' rfl others

/-- Work in an orchard. Pruning, which is removed, still has to come before picking. -/
def Notebook.orchard : CallbackRegistry Nat :=
  CallbackRegistry.empty.run
    [.register .update ⟨"press", none, none⟩ 0,
      .register .update ⟨"prune", none, none⟩ 1,
      .register .update ⟨"pick", some "press", some "prune"⟩ 2,
      .register .update ⟨"bottle", none, some "press"⟩ 3,
      .remove .update "prune"]

theorem watering_disturbs_nothing :
    Notebook.orchard.names .update = ["pick", "press", "bottle"] ∧
    ∃ r', Notebook.orchard.register .update ⟨"water", some "prune", none⟩ 4 = .ok r' ∧
      r'.stations .update = Notebook.orchard.stations .update ++ [⟨"water", some "prune", none⟩] ∧
      ("water", 4) ∈ r'.chain .update ∧
      (r'.chain .update).filter (fun x => x.1 ≠ "water") = [("pick", 2), ("press", 0), ("bottle", 3)] := by
  have reached : Notebook.orchard.Reached := .run .empty _
  obtain ⟨r', registered, stations, runs, others, -⟩ :=
    register_disturbs_nothing reached .update ⟨"water", some "prune", none⟩ 4 (by decide +kernel)
      (by decide +kernel) (by unfold Unasked; decide +kernel) (.inr rfl) (by decide)
  refine ⟨by decide +kernel, r', registered, stations, runs, others.trans ?_⟩
  decide +kernel

end Registration

end ScopedAccess
