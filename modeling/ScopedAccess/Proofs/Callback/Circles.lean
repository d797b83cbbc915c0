import ScopedAccess.Proofs.Callback.Turns
/-!
# Where anchors go in a circle

A callback that asks for one other stands where it asks to stand once its anchor is placed before it.
Where anchors go in a circle, the callback at which the circle is closed is placed before its anchor,
and all others of the circle end up on one side of it, the one for which the callback before it in
the circle asks. If it asks for the same side of its anchor, it stands on the other one (`Crossed`).
In a circle of three or more nobody has to come before itself for that, so that there is an order,
but the topological pass has to move callbacks away from where placement has put them.

* `placement_exact`: which wishes the placement grants, what stands between a callback and its
  anchor, and when the topological pass changes nothing.
-/

namespace ScopedAccess

set_option autoImplicit false

open Relation (ReflTransGen TransGen)

variable {stations : List Station}

namespace Placement

variable {chain front rest : List Station} {p : Placement} {s t : Station} {n a u : String}
  {flank : Flank}

/-- Whether a callback asks to stand on a side of another. -/
def Asks (stations : List Station) (name anchor : String) (flank : Flank) : Prop :=
  ∃ s ∈ stations, s.name = name ∧ s.wish flank = some anchor

/-- Whether a callback leads to another otherwise than through a third. -/
def LeadsPast (stations : List Station) (third : String) : String → String → Prop :=
  ReflTransGen fun a b => NextTo stations a b ∧ a ≠ third

/-- Whether a callback closes a circle: its anchor leads back to it, and the first callback
registered that leads to the circle comes to the anchor before it comes to the callback. -/
def Closes (stations : List Station) (name anchor : String) : Prop :=
  ReflTransGen (NextTo stations) anchor name ∧ ∃ front t rest, stations = front ++ t :: rest ∧
    (∀ u ∈ front, ¬ ReflTransGen (NextTo stations) u.name anchor) ∧
    LeadsPast stations name t.name anchor

/-- Whether a callback closes a circle and asks for the side of its anchor for which the callback
before it in the circle asks of it. -/
def Crosses (stations : List Station) (name anchor : String) (flank : Flank) : Prop :=
  Closes stations name anchor ∧
    ∃ m, ReflTransGen (NextTo stations) anchor m ∧ Asks stations m name flank

theorem Asks.nextTo (single : ∀ s ∈ stations, s.before = none ∨ s.after = none)
    (asks : Asks stations n a flank) : NextTo stations n a := by
  obtain ⟨s, member, rfl, wish⟩ := asks
  exact ⟨s, member, rfl, asks_of_wish (single s member) wish⟩

/-! ## The last of a turn -/

/-- A callback of a turn that asks for a side of the last stands on it. -/
theorem flank_of_asks_last {l : List String} {flank' : Flank}
    (single : ∀ s ∈ stations, s.before = none ∨ s.after = none) (within : front ⊆ stations)
    (nodup : ((front ++ [s]).map Station.name ++ l).Nodup) (member : t ∈ front)
    (wish : t.wish flank = some s.name)
    (side : OnFlank ((front ++ [s]).foldr Station.putIn l) t.name s.name flank') :
    flank' = flank := by
  obtain ⟨earlier, later, rfl⟩ := List.append_of_mem member
  rw [List.append_assoc, List.cons_append] at nodup side
  have placed : s.name ∈ (later ++ [s]).map Station.name ++ l := by simp
  have stands := onFlank_foldr_putIn single (within member) wish nodup placed
  by_contra other
  exact side.not_mutual (stands.opposite other)

namespace Turn

variable (turn : Turn stations p n chain) (whole : Whole stations p)

include turn whole

/-- In a turn, a callback finds its anchor placed unless it is the last. -/
theorem placed_or_last (member : s ∈ chain) (asks : s.before.or s.after = some a) :
    (∃ front rest, chain = front ++ s :: rest ∧ a ∈ rest.map Station.name ++ p.order) ∨
      ∃ front, chain = front ++ [s] ∧ a ∈ chain.map Station.name := by
  obtain ⟨front, rest, rfl⟩ := List.append_of_mem member
  cases rest with
  | nil =>
      rcases turn.anchors s member a asks with begun | inner
      · exact .inl ⟨front, [], rfl, whole.placed.mem_iff.mpr begun⟩
      · exact .inr ⟨front, rfl, inner⟩
  | cons t rest =>
      have link := (List.isChain_append_cons_cons.mp turn.linked).2.1
      obtain rfl := Option.some.inj (link.symm.trans asks)
      exact .inl ⟨front, t :: rest, rfl, List.mem_cons_self⟩

variable (distinct : (stations.map Station.name).Nodup)
  (single : ∀ s ∈ stations, s.before = none ∨ s.after = none)

include distinct single

/-- The last of a turn, if it asks for another of the turn, stands where it asks to stand unless
what it asks for leads to one that asks for the same side of it. -/
theorem onFlank_last_iff (split : chain = front ++ [s]) (wish : s.wish flank = some a)
    (inner : a ∈ chain.map Station.name) :
    OnFlank (chain.foldr Station.putIn p.order) s.name a flank ↔
      ¬ ∃ m, ReflTransGen (NextTo stations) a m ∧ Asks stations m s.name flank := by
  subst split
  have member : s ∈ stations := turn.within (List.mem_append_right _ (List.mem_singleton_self s))
  have asks := asks_of_wish (single s member) wish
  by_cases own : a = s.name
  · subst own
    exact iff_of_false OnFlank.not_self fun none => none ⟨_, .refl, s, member, rfl, wish⟩
  have within : front ⊆ stations := fun u inner => turn.within (List.mem_append_left _ inner)
  have nodup := turn.nodup_append whole
  have earlier : ∀ {b}, b ∈ (front ++ [s]).map Station.name → b ≠ s.name →
      ∃ u ∈ front, u.name = b := by
    rintro b known other
    obtain ⟨u, here, rfl⟩ := List.mem_map.mp known
    refine ⟨u, (List.mem_append.mp here).resolve_right fun last => other ?_, rfl⟩
    rw [List.mem_singleton.mp last]
  obtain ⟨v, member', rfl⟩ := earlier inner own
  obtain ⟨flank', t, between, wish', sides⟩ := exists_onFlank_last single within
    (List.ne_nil_of_mem member') turn.linked nodup
  obtain ⟨leads, side⟩ := sides v member'
  constructor
  · rintro stands ⟨_, leads', w, known, rfl, wish''⟩
    have unbegun : ∀ b, s.before.or s.after = some b → b ∉ p.begun := by
      intro b asks' begun
      obtain rfl := Option.some.inj (asks.symm.trans asks')
      exact turn.fresh v (List.mem_append_left _ member') begun
    have other : w.name ≠ s.name := by
      intro same
      obtain rfl := eq_of_name distinct known member same
      exact own (Option.some.inj (wish.symm.trans wish''))
    obtain ⟨w', member'', same⟩ :=
      earlier (turn.leads_within distinct rfl unbegun leads' inner) other
    obtain rfl := eq_of_name distinct (within member'') known same
    obtain rfl := flank_of_asks_last single within nodup member'' wish'' (sides w' member'').2
    exact side.not_mutual stands
  · intro none
    refine side.opposite fun same => none ⟨t.name, leads, t, within between, rfl, ?_⟩
    rw [same]
    exact wish'

end Turn

/-! ## Circles that are closed -/

/-- The last of a turn comes last: the first leads past it to the others. -/
theorem Turn.leadsPast (turn : Turn stations p n (front ++ [s])) (member : t ∈ front ++ [s]) :
    LeadsPast stations s.name n t.name := by
  have apart : ∀ u ∈ front, u.name ≠ s.name := by
    have nodup := turn.nodup
    rw [List.map_append] at nodup
    exact fun u inner => (List.nodup_append.mp nodup).2.2 _ (List.mem_map_of_mem inner) _
      (List.mem_singleton_self _)
  obtain ⟨earlier, later, split, within⟩ : ∃ earlier later,
      front ++ [s] = earlier ++ t :: later ∧ earlier ⊆ front := by
    rcases List.mem_append.mp member with inner | last
    · obtain ⟨earlier, later, rfl⟩ := List.append_of_mem inner
      exact ⟨earlier, later ++ [s], List.append_assoc _ _ _, List.subset_append_left _ _⟩
    · obtain rfl := List.mem_singleton.mp last
      exact ⟨front, [], rfl, List.Subset.refl _⟩
  obtain ⟨u, tail, start, rfl⟩ := turn.start.resolve_right fun none => by simp at none
  refine leads_of_linked (split ▸ turn.linked) (split ▸ start) fun v inner w link =>
    ⟨link.nextTo (turn.within (List.mem_append_left _ (within inner))), apart v (within inner)⟩

section Distinct

variable (distinct : (stations.map Station.name).Nodup)

include distinct

/-- The first of a turn leads past one of them only to those that come no later. -/
theorem Turn.mem_of_leadsPast (turn : Turn stations p n (front ++ s :: rest))
    (past : LeadsPast stations s.name n u) : u ∈ (front ++ [s]).map Station.name := by
  obtain ⟨linked, -⟩ := List.isChain_split.mp turn.linked
  have within : front ⊆ stations := fun t inner => turn.within (List.mem_append_left _ inner)
  have member : s ∈ stations := turn.within (List.mem_append_right _ List.mem_cons_self)
  induction past with
  | refl =>
      obtain ⟨t, tail, start, rfl⟩ := turn.start.resolve_right fun none => by simp at none
      cases front <;> cases start <;> exact List.mem_cons_self
  | tail _ step ih =>
      obtain ⟨⟨t, known, rfl, asks⟩, other⟩ := step
      obtain ⟨t', inner, same⟩ := List.mem_map.mp ih
      rcases List.mem_append.mp inner with earlier | last
      · obtain rfl := eq_of_name distinct (within earlier) known same
        obtain ⟨v, inner', link⟩ := exists_linked linked earlier
        obtain rfl := Option.some.inj (link.symm.trans asks)
        exact List.mem_map_of_mem inner'
      · exact absurd (List.mem_singleton.mp last ▸ same).symm other

/-- The callbacks to which the one whose turn it is leads stay where its turn has put them. -/
theorem TurnOf.onFlank_iff (turnOf : TurnOf stations front t p chain)
    (leads : ReflTransGen (NextTo stations) t.name n)
    (leads' : ReflTransGen (NextTo stations) t.name a) : OnFlank (ofStations stations) n a flank ↔
      OnFlank (chain.foldr Station.putIn p.order) n a flank :=
  onFlank_iff_of_sublist turnOf.kept ((ofStations_perm distinct).nodup_iff.mpr distinct)
    (foldr_putIn_perm.mem_iff.mpr (turnOf.after _ leads))
    (foldr_putIn_perm.mem_iff.mpr (turnOf.after _ leads'))

/-- A callback that asks for one other stands where it asks to stand unless it closes a circle
against the callback before it. -/
theorem onFlank_ofStations_iff
    (anchored : ∀ a b, NextTo stations a b → b ∈ stations.map Station.name)
    (single : ∀ s ∈ stations, s.before = none ∨ s.after = none) (asks : Asks stations n a flank) :
    OnFlank (ofStations stations) n a flank ↔ ¬ Crosses stations n a flank := by
  have next := asks.nextTo single
  obtain ⟨s, member, rfl, wish⟩ := asks
  have asks := asks_of_wish (single s member) wish
  constructor
  · rintro stands ⟨⟨back, front, t, rest, split, early, past⟩, asked⟩
    obtain ⟨p, chain, turnOf⟩ := exists_turnOf distinct anchored split
    have leads : ReflTransGen (NextTo stations) t.name a :=
      ReflTransGen.mono (fun _ _ step => step.1) _ _ past
    have inner := turnOf.mem_chain distinct member (leads.trans back)
      fun u turn leads => early u turn (leads.tail next)
    rcases turnOf.turn.placed_or_last turnOf.whole inner asks with
      ⟨sooner, later, rfl, placed⟩ | ⟨sooner, split', inner'⟩
    · -- The anchor comes behind the callback in the turn, so it is not led to past the callback.
      have behind := (List.mem_append.mp placed).resolve_right (turnOf.not_placed early)
      have ahead := turnOf.turn.mem_of_leadsPast distinct past
      have nodup := turnOf.turn.nodup
      rw [List.append_cons, List.map_append] at nodup
      exact (List.nodup_append.mp nodup).2.2 a ahead a behind rfl
    · rw [turnOf.onFlank_iff distinct (leads.trans back) leads,
        turnOf.turn.onFlank_last_iff turnOf.whole distinct single split' wish inner'] at stands
      exact stands asked
  · intro uncrossed
    obtain ⟨front, t, rest, split, leads, early⟩ := exists_first
      (p := fun t => ReflTransGen (NextTo stations) t.name s.name) member .refl
    obtain ⟨p, chain, turnOf⟩ := exists_turnOf distinct anchored split
    have inner := turnOf.mem_chain distinct member leads early
    rw [turnOf.onFlank_iff distinct leads (leads.tail next)]
    rcases turnOf.turn.placed_or_last turnOf.whole inner asks with
      ⟨sooner, later, rfl, placed⟩ | ⟨sooner, rfl, inner'⟩
    · exact onFlank_foldr_putIn single member wish (turnOf.turn.nodup_append turnOf.whole) placed
    · rw [turnOf.turn.onFlank_last_iff turnOf.whole distinct single rfl wish inner']
      rintro ⟨m, leads', asks'⟩
      have back : ReflTransGen (NextTo stations) a s.name := leads'.tail (asks'.nextTo single)
      obtain ⟨v, round, rfl⟩ := List.mem_map.mp inner'
      exact uncrossed ⟨⟨back, front, t, rest, split, fun u turn leads => early u turn
        (leads.trans back), turnOf.turn.leadsPast round⟩, m, leads', asks'⟩

end Distinct

end Placement

/-! ## Wishes -/

/-- Whether a callback asks to stand on a side of another one that is there. -/
def Wishes (stations : List Station) (name anchor : String) (flank : Flank) : Prop :=
  ∃ s ∈ stations, s.name = name ∧ Station.known stations (s.wish flank) = some anchor

/-- Whether a callback's wish is against that of the callback before it, where anchors go in a
circle and it is the one at which the circle is closed. -/
def Crossed (stations : List Station) : String → String → Flank → Prop :=
  Placement.Crosses (stations.map (Station.resolved stations))

section Wishes

variable {n a : String} {flank : Flank}

theorem asks_iff_wishes : Placement.Asks (stations.map (Station.resolved stations)) n a flank ↔
    Wishes stations n a flank := by
  have wish : ∀ s : Station, (s.resolved stations).wish flank =
      Station.known stations (s.wish flank) := by
    intro s
    cases flank <;> rfl
  constructor
  · rintro ⟨_, resolved, same, asks⟩
    obtain ⟨s, member, rfl⟩ := List.mem_map.mp resolved
    exact ⟨s, member, same, wish s ▸ asks⟩
  · rintro ⟨s, member, same, asks⟩
    exact ⟨s.resolved stations, List.mem_map_of_mem member, same, (wish s).trans asks⟩

/-- An order obeys all wishes if every callback stands where it asks to stand. -/
theorem obeys_iff_onFlank {order : List String} :
    (∀ first second, MustPrecede stations first second →
      order.idxOf first < order.idxOf second) ↔
    ∀ n a flank, Wishes stations n a flank → OnFlank order n a flank := by
  constructor
  · rintro obeyed n a flank ⟨s, member, rfl, wish⟩
    obtain ⟨asks, known⟩ := known_eq_some_iff.mp wish
    have known' := List.mem_map_of_mem (f := Station.name) member
    cases flank with
    | front => exact obeyed s.name a ⟨known', known, s, member, .inl ⟨rfl, asks⟩⟩
    | behind => exact obeyed a s.name ⟨known, known', s, member, .inr ⟨rfl, asks⟩⟩
  · rintro stands first second ⟨known, known', s, member, ⟨rfl, asks⟩ | ⟨rfl, asks⟩⟩
    · exact stands s.name second .front ⟨s, member, rfl, known_eq_some_iff.mpr ⟨asks, known'⟩⟩
    · exact stands s.name first .behind ⟨s, member, rfl, known_eq_some_iff.mpr ⟨asks, known⟩⟩

end Wishes

/-- Where each callback asks for one other that is there at most, placement puts every callback
once, and each stands where it asks to stand unless its wish is crossed. What stands between a
callback and its anchor leads to the anchor. The topological pass leaves the placement as it is
exactly if no wish is crossed, and so if anchors go in no circle. -/
theorem placement_exact (stations : List Station) (distinct : (stations.map Station.name).Nodup)
    (single : ∀ s ∈ stations,
      Station.known stations s.before = none ∨ Station.known stations s.after = none) :
    (placementOf stations).Perm (stations.map Station.name) ∧
    (∀ n a flank, Wishes stations n a flank →
      (OnFlank (placementOf stations) n a flank ↔ ¬ Crossed stations n a flank)) ∧
    (∀ n a flank, Wishes stations n a flank → ∀ m side, OnFlank (placementOf stations) n m side →
      OnFlank (placementOf stations) m a side → LeadsTo stations m a) ∧
    (orderStations stations = .ok (placementOf stations) ↔
      ∀ n a flank, Wishes stations n a flank → ¬ Crossed stations n a flank) ∧
    ((∀ n a flank, Wishes stations n a flank → ¬ LeadsTo stations a n) →
      orderStations stations = .ok (placementOf stations)) := by
  have distinct' : ((stations.map (Station.resolved stations)).map Station.name).Nodup := by
    rwa [names_resolved]
  have single' : ∀ s ∈ stations.map (Station.resolved stations),
      s.before = none ∨ s.after = none := List.forall_mem_map.mpr single
  have perm := placementOf_perm distinct
  have next : ∀ {n a flank}, Wishes stations n a flank →
      Placement.NextTo (stations.map (Station.resolved stations)) n a :=
    fun wishes => (asks_iff_wishes.mpr wishes).nextTo single'
  have granted : ∀ n a flank, Wishes stations n a flank →
      (OnFlank (placementOf stations) n a flank ↔ ¬ Crossed stations n a flank) :=
    fun n a flank wishes => Placement.onFlank_ofStations_iff distinct'
      (fun _ _ => mem_names_of_nextTo) single' (asks_iff_wishes.mpr wishes)
  have kept : orderStations stations = .ok (placementOf stations) ↔
      ∀ n a flank, Wishes stations n a flank → ¬ Crossed stations n a flank := by
    constructor
    · intro ordered n a flank wishes
      have obeys := (isOrder_of_ok distinct ordered).obeys
      exact (granted n a flank wishes).mp (obeys_iff_onFlank.mp obeys n a flank wishes)
    · intro uncrossed
      refine orderStations_of_obeyed distinct (obeys_iff_onFlank.mpr fun n a flank wishes => ?_)
      exact (granted n a flank wishes).mpr (uncrossed n a flank wishes)
  refine ⟨perm, granted, fun n a flank wishes m side here there => ?_, kept, fun open' => ?_⟩
  · have gathered :=
      Placement.gathered_ofStations distinct' (fun _ _ => mem_names_of_nextTo) single'
    have leads : LeadsTo stations n a := .single (next wishes)
    obtain ⟨s, member, rfl, wish⟩ := wishes
    cases side with
    | front =>
        have known := perm.mem_iff.mpr (known_eq_some_iff.mp wish).2
        exact gathered a s.name m a known here there leads .refl
    | behind =>
        have known := perm.mem_iff.mpr (List.mem_map_of_mem member)
        exact gathered a a m s.name known there here .refl leads
  · exact kept.mpr fun n a flank wishes crossed => open' n a flank wishes crossed.1.1

/-- Paint that is registered from the last coat on. -/
def Notebook.paint : List Station :=
  [⟨"glaze", none, some "sand"⟩, ⟨"sand", some "prime", none⟩, ⟨"prime", some "glaze", none⟩,
    ⟨"dry", none, some "prime"⟩]

open Notebook in
/-- The prime closes the circle. It asks to stand in front of the glaze, as the sand does of it. -/
theorem prime_is_crossed : Crossed paint "prime" "glaze" .front ∧
    ¬ Crossed paint "sand" "prime" .front ∧
    orderStations paint ≠ .ok (placementOf paint) := by
  obtain ⟨-, granted, -, kept, -⟩ := placement_exact paint (by decide) (by decide)
  have prime : Wishes paint "prime" "glaze" .front :=
    ⟨⟨"prime", some "glaze", none⟩, by decide, rfl, by decide⟩
  have sand : Wishes paint "sand" "prime" .front :=
    ⟨⟨"sand", some "prime", none⟩, by decide, rfl, by decide⟩
  have placed : placementOf paint = ["sand", "glaze", "prime", "dry"] := by decide +kernel
  rw [placed] at granted
  have crossed : Crossed paint "prime" "glaze" .front :=
    not_not.mp (mt (granted _ _ _ prime).mpr (by decide))
  exact ⟨crossed, (granted _ _ _ sand).mp (by decide),
    fun ordered => kept.mp ordered _ _ _ prime crossed⟩

open Notebook in
/-- The prime is placed behind the glaze that it asks to stand in front of. The topological pass
moves it, and what stood right behind it does so no more. -/
theorem glaze_before_dry : (paint.map Station.name).Nodup ∧
    (∀ s ∈ paint, s.before = none ∨ s.after = none) ∧
    (∀ n, ¬ TransGen (MustPrecede paint) n n) ∧
    Wishes paint "prime" "glaze" .front ∧
    ¬ OnFlank (placementOf paint) "prime" "glaze" .front ∧
    ["prime", "dry"].IsInfix (placementOf paint) ∧
    ∃ order, orderStations paint = .ok order ∧ order ≠ placementOf paint ∧
      ¬ ["prime", "dry"].IsInfix order := by
  have placed : placementOf paint = ["sand", "glaze", "prime", "dry"] := by decide +kernel
  have ordered : orderStations paint = .ok ["sand", "prime", "glaze", "dry"] := by decide +kernel
  rw [placed]
  exact ⟨by decide, by decide, (exists_order_iff (by decide)).mp ⟨_, ordered⟩,
    ⟨⟨"prime", some "glaze", none⟩, by decide, rfl, by decide⟩, by decide, by decide, _, ordered,
    by decide, by decide⟩

end ScopedAccess
