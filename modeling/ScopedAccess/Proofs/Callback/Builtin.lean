import ScopedAccess.Callback.Builtin
import ScopedAccess.Proofs.Callback.Ordering
import Mathlib.Data.List.Sort
/-!
# The engine's callbacks among others

Callbacks without wishes that are registered first are placed in their order whatever is
registered later. The topological pass keeps two of them in order unless something that has to
come before the earlier one is placed behind all that the later one waits for
(`IsOrder.idxOf_lt`). For that a callback has to wish for both of two others
(`IsOrder.free_sublist`).

Registering keeps a phase of this form (`PhaseCallbacks.Extended.register`), and so does a run of
registrations, those refused among them (`CallbackRegistry.extended_registerAll`).

* `builtins_in_chain`: what holds for the engine's callbacks after any registrations.
-/

namespace ScopedAccess

set_option autoImplicit false

open Relation (ReflTransGen)

/-! ## Callbacks without wishes -/

section Free

variable {stations free rest : List Station} {order : List String} {s : Station} {n : String}

theorem resolved_of_free (before : s.before = none) (after : s.after = none) :
    s.resolved stations = s := by
  obtain ⟨name, b, a⟩ := s
  cases before
  cases after
  rfl

theorem map_resolved_of_free (unasking : ∀ s ∈ free, s.before = none ∧ s.after = none) :
    free.map (Station.resolved stations) = free :=
  (List.map_congr_left fun s member =>
    resolved_of_free (unasking s member).1 (unasking s member).2).trans (List.map_id' free)

/-- Callbacks without wishes that are registered first are placed in their order. -/
theorem free_sublist_placementOf (distinct : ((free ++ rest).map Station.name).Nodup)
    (unasking : ∀ s ∈ free, s.before = none ∧ s.after = none) :
    (free.map Station.name).Sublist (placementOf (free ++ rest)) := by
  rw [placementOf, List.map_append, map_resolved_of_free unasking]
  refine Placement.free_sublist_ofStations ?_ unasking
  rwa [List.map_append, names_resolved, ← List.map_append]

theorem orderStations_of_free (distinct : (free.map Station.name).Nodup)
    (unasking : ∀ s ∈ free, s.before = none ∧ s.after = none) :
    orderStations free = .ok (free.map Station.name) := by
  have placed : placementOf free = free.map Station.name := by
    have kept : (free.map Station.name).Sublist (placementOf (free ++ [])) :=
      free_sublist_placementOf (by rwa [List.append_nil]) unasking
    rw [List.append_nil] at kept
    exact (kept.eq_of_length (placementOf_perm distinct).length_eq.symm).symm
  rw [← placed]
  refine orderStations_of_obeyed distinct fun first second must => ?_
  obtain ⟨-, -, s, member, ⟨-, before⟩ | ⟨-, after⟩⟩ := must
  · rw [(unasking s member).1] at before
    cases before
  · rw [(unasking s member).2] at after
    cases after

/-! ## Callbacks that wish for one other -/

section Single

variable (distinct : (stations.map Station.name).Nodup)
  (single : ∀ s ∈ stations,
    Station.known stations s.before = none ∨ Station.known stations s.after = none)

include distinct single

/-- What has to come before a callback in line is in line itself, and placed in front of it. -/
theorem inLine_of_mustPrecede {k : Nat} {m : String} (must : MustPrecede stations n m)
    (line : Placement.InLine (stations.map (Station.resolved stations)) k m) :
    Placement.InLine (stations.map (Station.resolved stations)) (k + 1) n ∧
      (placementOf stations).idxOf n < (placementOf stations).idxOf m := by
  have distinct' : ((stations.map (Station.resolved stations)).map Station.name).Nodup := by
    rwa [names_resolved]
  obtain ⟨known, known', s, member, ⟨rfl, before⟩ | ⟨rfl, after⟩⟩ := must
  · have member' := List.mem_map_of_mem (f := Station.resolved stations) member
    have asks : (s.resolved stations).before = some m := known_eq_some_iff.mpr ⟨before, known'⟩
    have unasking : (s.resolved stations).after = none :=
      (single s member).resolve_left (by rw [known_eq_some_iff.mpr ⟨before, known'⟩]; nofun)
    have line' := Placement.InLine.behind member' asks unasking line
    refine ⟨line', idxOf_lt_of_sublist ((placementOf_perm distinct).nodup_iff.mpr distinct) ?_⟩
    exact Placement.pair_sublist_ofStations (s := s.resolved stations) distinct' member' asks line'
  · obtain ⟨t, member', same, unasking, -⟩ := line.exists_station
    have member'' := List.mem_map_of_mem (f := Station.resolved stations) member
    rw [Placement.eq_of_name distinct' member' member'' same] at unasking
    have asks : (s.resolved stations).after = some n := known_eq_some_iff.mpr ⟨after, known⟩
    rw [asks] at unasking
    cases unasking

/-- All that a callback without wishes waits for is placed in front of it. -/
theorem idxOf_le_of_waits (member : s ∈ stations) (before : s.before = none)
    (after : s.after = none) (waits : ReflTransGen (MustPrecede stations) n s.name) :
    (placementOf stations).idxOf n ≤ (placementOf stations).idxOf s.name := by
  suffices (∃ k, Placement.InLine (stations.map (Station.resolved stations)) k n) ∧
      (placementOf stations).idxOf n ≤ (placementOf stations).idxOf s.name from this.2
  induction waits using ReflTransGen.head_induction_on with
  | refl =>
      have member' := List.mem_map_of_mem (f := Station.resolved stations) member
      rw [resolved_of_free before after] at member'
      exact ⟨⟨0, .head member' before after⟩, Nat.le_refl _⟩
  | head must _ ih =>
      obtain ⟨⟨k, line⟩, earlier⟩ := ih
      obtain ⟨line', less⟩ := inLine_of_mustPrecede distinct single must line
      exact ⟨⟨k + 1, line'⟩, Nat.le_trans (Nat.le_of_lt less) earlier⟩

end Single

/-- Where no callback wishes for both of two others that are there, callbacks without wishes that
are registered first keep their order. -/
theorem IsOrder.free_sublist (isOrder : IsOrder (free ++ rest) order)
    (distinct : ((free ++ rest).map Station.name).Nodup)
    (unasking : ∀ s ∈ free, s.before = none ∧ s.after = none)
    (single : ∀ s ∈ free ++ rest, Station.known (free ++ rest) s.before = none ∨
      Station.known (free ++ rest) s.after = none) :
    (free.map Station.name).Sublist order := by
  have nodup : order.Nodup := isOrder.all.nodup_iff.mpr distinct
  have within : free.map Station.name ⊆ (free ++ rest).map Station.name :=
    List.map_subset _ (List.subset_append_left _ _)
  have placed := (pairwise_idxOf ((placementOf_perm distinct).nodup_iff.mpr distinct)).sublist
    (free_sublist_placementOf distinct unasking)
  have kept : (free.map Station.name).Pairwise fun a b => order.idxOf a < order.idxOf b := by
    refine placed.imp_of_mem fun {a b} first second less => ?_
    refine isOrder.idxOf_lt distinct (within first) (within second) fun y waits => ⟨b, .refl, ?_⟩
    obtain ⟨s, member, rfl⟩ := List.mem_map.mp first
    exact Nat.lt_of_le_of_lt (idxOf_le_of_waits distinct single (List.mem_append_left _ member)
      (unasking s member).1 (unasking s member).2 waits) less
  have few : (free.map Station.name).Subperm order :=
    List.subperm_of_subset (distinct.sublist ((List.sublist_append_left free rest).map _))
      fun a member => isOrder.all.mem_iff.mpr (within member)
  have antisymm : Std.Antisymm fun a b : String => order.idxOf a < order.idxOf b :=
    ⟨fun a b less less' => absurd less' (Nat.lt_asymm less)⟩
  exact List.sublist_of_subperm_of_pairwise few kept (pairwise_idxOf nodup)

end Free

/-! ## Chains -/

namespace Builtin

/-- The engine's callbacks of a phase have no wishes. -/
def stations (phase : Phase) : List Station := (ofPhase phase).map fun b => ⟨b.name, none, none⟩

theorem names_stations (phase : Phase) :
    (stations phase).map Station.name = (ofPhase phase).map Builtin.name := by
  rw [stations, List.map_map]
  rfl

theorem nodup_names_stations (phase : Phase) : ((stations phase).map Station.name).Nodup := by
  cases phase <;> decide +kernel

theorem unasking_stations {phase : Phase} :
    ∀ s ∈ stations phase, s.before = none ∧ s.after = none := by
  intro s member
  obtain ⟨b, -, rfl⟩ := List.mem_map.mp member
  exact ⟨rfl, rfl⟩

end Builtin

namespace PhaseCallbacks

variable {H : Type} {entries : List (CallbackEntry H)} {order : List String} {e : CallbackEntry H}

theorem map_name_station : (entries.map CallbackEntry.station).map Station.name =
    entries.map CallbackEntry.name := by
  rw [List.map_map]
  rfl

theorem map_station_ofBuiltins {handler : Builtin → H} {phase : Phase} :
    (ofBuiltins handler phase).entries.map CallbackEntry.station = Builtin.stations phase := by
  rw [ofBuiltins, List.map_map]
  rfl

/-- What an order of names looks up for a callback that runs. -/
theorem lookup_of_mem (distinct : (entries.map CallbackEntry.name).Nodup) (member : e ∈ entries)
    (running : e.removed = false) :
    ((entries.find? fun e' => e'.name = e.name).bind fun e' =>
      if e'.removed then none else some (e.name, e'.handler)) = some (e.name, e.handler) := by
  rw [find?_of_key distinct member, Option.bind_some, running]
  rfl

theorem mem_chainOf (distinct : (entries.map CallbackEntry.name).Nodup) (member : e ∈ entries)
    (running : e.removed = false) (ordered : e.name ∈ order) :
    (e.name, e.handler) ∈ chainOf entries order :=
  List.mem_filterMap.mpr ⟨e.name, ordered, lookup_of_mem distinct member running⟩

section Running

variable (distinct : (entries.map CallbackEntry.name).Nodup)
  (running : ∀ e ∈ entries, e.removed = false)

include distinct running

theorem chainOf_names :
    chainOf entries (entries.map CallbackEntry.name) = entries.map fun e => (e.name, e.handler) := by
  rw [chainOf, List.filterMap_map, ← List.filterMap_eq_map]
  exact List.filterMap_congr fun e member => lookup_of_mem distinct member (running e member)

/-- Where no callback is removed, the chain has the names of the order. -/
theorem map_fst_chainOf (known : order ⊆ entries.map CallbackEntry.name) :
    (chainOf entries order).map Prod.fst = order := by
  rw [chainOf, List.map_filterMap]
  refine (List.filterMap_congr fun name member => ?_).trans List.filterMap_some
  obtain ⟨e, member', rfl⟩ := List.mem_map.mp (known member)
  rw [lookup_of_mem distinct member' (running e member')]
  rfl

end Running

theorem withEntries_eq_ok {p q : PhaseCallbacks H} (changed : p.withEntries entries = .ok q) :
    ∃ order, orderStations (entries.map CallbackEntry.station) = .ok order ∧
      q = { p with entries, chain := chainOf entries order } := by
  rw [withEntries] at changed
  cases ordered : orderStations (entries.map CallbackEntry.station) with
  | error names =>
      rw [ordered] at changed
      cases changed
  | ok order =>
      rw [ordered] at changed
      cases changed
      exact ⟨order, rfl, rfl⟩

/-! ## Phases that registrations reach -/

variable {handler : Builtin → H} {phase : Phase} {p q : PhaseCallbacks H}

/-- A phase with the engine's callbacks as they were, others registered after them, and none
removed. The chain runs them in their order. -/
structure Extended (handler : Builtin → H) (phase : Phase) (p : PhaseCallbacks H) : Prop where
  builtins : ∃ added, p.entries = (ofBuiltins handler phase).entries ++ added
  distinct : (p.entries.map CallbackEntry.name).Nodup
  running : ∀ e ∈ p.entries, e.removed = false
  ordered : ∃ order, orderStations (p.entries.map CallbackEntry.station) = .ok order ∧
    p.chain = chainOf p.entries order

theorem Extended.start (handler : Builtin → H) (phase : Phase) :
    Extended handler phase (ofBuiltins handler phase) := by
  have distinct : ((ofBuiltins handler phase).entries.map CallbackEntry.name).Nodup := by
    rw [← map_name_station, map_station_ofBuiltins]
    exact Builtin.nodup_names_stations phase
  have running : ∀ e ∈ (ofBuiltins handler phase).entries, e.removed = false := by
    intro e member
    obtain ⟨b, -, rfl⟩ := List.mem_map.mp member
    rfl
  refine ⟨⟨[], (List.append_nil _).symm⟩, distinct, running,
    (ofBuiltins handler phase).entries.map CallbackEntry.name, ?_, ?_⟩
  · rw [← map_name_station, map_station_ofBuiltins]
    exact orderStations_of_free (Builtin.nodup_names_stations phase) Builtin.unasking_stations
  · rw [chainOf_names distinct running, ofBuiltins, List.map_map]
    rfl

theorem Extended.isOrder (extended : Extended handler phase p) :
    IsOrder (p.entries.map CallbackEntry.station) (p.chain.map Prod.fst) := by
  obtain ⟨order, ordered, chain⟩ := extended.ordered
  have distinct := extended.distinct
  rw [← map_name_station] at distinct
  have isOrder : IsOrder (p.entries.map CallbackEntry.station) order :=
    isOrder_of_ok distinct ordered
  rwa [chain, map_fst_chainOf extended.distinct extended.running]
  rw [← map_name_station]
  exact isOrder.all.subset

/-- The engine's callbacks run with their own handlers. -/
theorem Extended.mem_chain (extended : Extended handler phase p) {b : Builtin}
    (member : b ∈ Builtin.ofPhase phase) : (b.name, handler b) ∈ p.chain := by
  obtain ⟨order, ordered, chain⟩ := extended.ordered
  obtain ⟨added, split⟩ := extended.builtins
  have entry : (⟨⟨b.name, none, none⟩, handler b, false⟩ : CallbackEntry H) ∈ p.entries := by
    rw [split]
    exact List.mem_append_left _ (List.mem_map_of_mem member)
  have distinct := extended.distinct
  rw [← map_name_station] at distinct
  rw [chain]
  refine mem_chainOf extended.distinct entry rfl ?_
  exact (isOrder_of_ok distinct ordered).all.mem_iff.mpr
    (List.mem_map_of_mem (List.mem_map_of_mem entry))

theorem Extended.exists_stations (extended : Extended handler phase p) :
    ∃ rest, p.entries.map CallbackEntry.station = Builtin.stations phase ++ rest := by
  obtain ⟨added, split⟩ := extended.builtins
  exact ⟨added.map CallbackEntry.station, by rw [split, List.map_append, map_station_ofBuiltins]⟩

section Foreign

variable {s : Station} {h : H} (foreign : ∀ b : Builtin, s.name ≠ b.name)

include foreign

/-- Entries of other names stand as they are. -/
theorem mapEntry_append {f : CallbackEntry H → CallbackEntry H} {added : List (CallbackEntry H)}
    (split : p.entries = (ofBuiltins handler phase).entries ++ added) :
    p.mapEntry s.name f = (ofBuiltins handler phase).entries ++
      added.map fun e => if e.name = s.name then f e else e := by
  rw [mapEntry, split, List.map_append]
  congr 1
  refine (List.map_congr_left fun e member => ?_).trans (List.map_id' _)
  obtain ⟨b, -, rfl⟩ := List.mem_map.mp member
  exact if_neg (foreign b).symm

/-- Registering a callback of another name keeps the engine's. -/
theorem Extended.register (extended : Extended handler phase p)
    (registered : p.register s h = .ok q) : Extended handler phase q := by
  obtain ⟨added, split⟩ := extended.builtins
  rw [PhaseCallbacks.register] at registered
  split at registered
  · cases changed : p.withEntries (p.mapEntry s.name fun _ => ⟨s, h, false⟩) with
    | error names =>
        rw [changed] at registered
        cases registered
    | ok p' =>
        rw [changed] at registered
        cases registered
        obtain ⟨order, ordered, rfl⟩ := withEntries_eq_ok changed
        refine ⟨⟨_, mapEntry_append foreign split⟩, ?_, ?_, order, ordered, rfl⟩
        · have names : (p.mapEntry s.name fun _ => ⟨s, h, false⟩).map CallbackEntry.name =
              p.entries.map CallbackEntry.name := by
            rw [mapEntry, List.map_map]
            refine List.map_congr_left fun e _ => ?_
            rw [Function.comp_apply]
            split
            · rename_i same
              exact same.symm
            · rfl
          rw [names]
          exact extended.distinct
        · intro e member
          obtain ⟨e', member', rfl⟩ := List.mem_map.mp member
          split
          · rfl
          · exact extended.running e' member'
  · rename_i unknown
    obtain ⟨order, ordered, rfl⟩ := withEntries_eq_ok registered
    refine ⟨⟨added ++ [⟨s, h, false⟩], by rw [split, List.append_assoc]⟩, ?_, ?_, order, ordered, rfl⟩
    · have fresh : s.name ∉ p.entries.map CallbackEntry.name := by
        rintro member
        obtain ⟨e, member, same⟩ := List.mem_map.mp member
        exact unknown (List.any_eq_true.mpr ⟨e, member, by simpa using same⟩)
      rw [List.map_append, List.map_singleton]
      exact List.nodup_append.mpr ⟨extended.distinct, List.nodup_singleton _,
        fun a member b member' same => fresh (by
          rw [List.mem_singleton] at member'
          subst member' same
          exact member)⟩
    · intro e member
      rcases List.mem_append.mp member with earlier | last
      · exact extended.running e earlier
      · rw [List.mem_singleton.mp last]

end Foreign

end PhaseCallbacks

/-! ## Registrations -/

section Registrations

variable {H : Type}

/-- A callback that an application registers. -/
structure Registration (H : Type) where
  phase : Phase
  station : Station
  handler : H

/-- Whether a callback has another name than those of the engine. -/
def Registration.Foreign (c : Registration H) : Prop := ∀ b : Builtin, c.station.name ≠ b.name

/-- Register callbacks one after another. A refused one leaves the registry as it is. -/
def CallbackRegistry.registerAll (r : CallbackRegistry H) (calls : List (Registration H)) :
    CallbackRegistry H :=
  calls.foldl (fun r c => (r.register c.phase c.station c.handler).toOption.getD r) r

variable {handler : Builtin → H} {r r' : CallbackRegistry H} {c : Registration H}

theorem CallbackRegistry.phase_set (phase : Phase) (p : PhaseCallbacks H) :
    (r.set phase p).phase phase = p := if_pos rfl

theorem CallbackRegistry.phase_set_of_ne {phase phase' : Phase} (p : PhaseCallbacks H)
    (other : phase' ≠ phase) : (r.set phase p).phase phase' = r.phase phase' := if_neg other

theorem CallbackRegistry.extended_register
    (extended : ∀ phase, (r.phase phase).Extended handler phase) (foreign : c.Foreign)
    (registered : r.register c.phase c.station c.handler = .ok r') (phase : Phase) :
    (r'.phase phase).Extended handler phase := by
  rw [register] at registered
  split at registered
  · cases registered
  · rw [change] at registered
    split at registered
    · rename_i p changed
      cases registered
      by_cases same : phase = c.phase
      · subst same
        rw [phase_set]
        exact (extended c.phase).register foreign changed
      · rw [phase_set_of_ne p same]
        exact extended phase
    · cases registered

/-- A run of registrations keeps the engine's callbacks in every phase. -/
theorem CallbackRegistry.extended_registerAll {calls : List (Registration H)}
    (extended : ∀ phase, (r.phase phase).Extended handler phase)
    (foreign : ∀ c ∈ calls, c.Foreign) (phase : Phase) :
    ((r.registerAll calls).phase phase).Extended handler phase := by
  induction calls generalizing r with
  | nil => exact extended phase
  | cons c calls ih =>
      obtain ⟨here, foreign⟩ := List.forall_mem_cons.mp foreign
      rw [registerAll, List.foldl_cons]
      refine ih ?_ foreign
      cases registered : r.register c.phase c.station c.handler with
      | error e => exact extended
      | ok r' => exact extended_register extended here registered

/-- The engine's callbacks after any registrations of callbacks of other names. All of them run,
once and with their own handlers, and the placement keeps the order of the table. In the chain one
of them is before another if nothing that it waits for is placed behind all that the other waits
for, and the table keeps its order if no callback wishes for both of two others that are there. -/
theorem builtins_in_chain (handler : Builtin → H) (calls : List (Registration H)) (phase : Phase)
    (foreign : ∀ c ∈ calls, c.Foreign) :
    let r := (CallbackRegistry.withBuiltins handler).registerAll calls
    let stations := (r.phase phase).entries.map CallbackEntry.station
    let table := (Builtin.ofPhase phase).map Builtin.name
    (r.names phase).Nodup ∧
    (∀ b ∈ Builtin.ofPhase phase, (b.name, handler b) ∈ r.chain phase) ∧
    table.Sublist (placementOf stations) ∧
    (∀ first ∈ table, ∀ second ∈ table,
      (∀ y, ReflTransGen (MustPrecede stations) y first →
        ∃ w, ReflTransGen (MustPrecede stations) w second ∧
          (placementOf stations).idxOf y < (placementOf stations).idxOf w) →
      (r.names phase).idxOf first < (r.names phase).idxOf second) ∧
    ((∀ s ∈ stations,
        Station.known stations s.before = none ∨ Station.known stations s.after = none) →
      table.Sublist (r.names phase)) := by
  intro r stations table
  have extended : (r.phase phase).Extended handler phase :=
    CallbackRegistry.extended_registerAll (PhaseCallbacks.Extended.start handler) foreign phase
  have isOrder : IsOrder stations (r.names phase) := extended.isOrder
  have distinct : (stations.map Station.name).Nodup := by
    rw [PhaseCallbacks.map_name_station]
    exact extended.distinct
  obtain ⟨rest, parts⟩ : ∃ rest, stations = Builtin.stations phase ++ rest :=
    extended.exists_stations
  have names : table = (Builtin.stations phase).map Station.name :=
    (Builtin.names_stations phase).symm
  have known : table ⊆ stations.map Station.name := by
    rw [parts, List.map_append, names]
    exact List.subset_append_left _ _
  refine ⟨isOrder.all.nodup_iff.mpr distinct, fun b => extended.mem_chain, ?_,
    fun first member second member' =>
      isOrder.idxOf_lt distinct (known member) (known member'), fun single => ?_⟩
  · rw [parts] at distinct ⊢
    rw [names]
    exact free_sublist_placementOf distinct Builtin.unasking_stations
  · rw [parts] at isOrder distinct single
    rw [names]
    exact isOrder.free_sublist distinct Builtin.unasking_stations single

/-- Callbacks in front of the engine's and behind them, one of them refused. -/
def Notebook.sidelines : List (Registration Nat) :=
  [⟨.query, ⟨"app:quota", some "adminkit:inject_scope", none⟩, 0⟩,
    ⟨.query, ⟨"app:trace", some "app:quota", none⟩, 1⟩,
    ⟨.query, ⟨"app:circle", some "app:trace", some "app:quota"⟩, 2⟩,
    ⟨.query, ⟨"app:count", none, some "adminkit:query"⟩, 3⟩]

/-- A callback that wishes to run behind the statement and before the scope. -/
def Notebook.late : Registration Nat :=
  ⟨.query, ⟨"app:late", some "adminkit:inject_scope", some "adminkit:query"⟩, 0⟩

theorem table_sublist_sidelines :
    ((Builtin.ofPhase .query).map Builtin.name).Sublist
      (((CallbackRegistry.withBuiltins fun _ => 9).registerAll Notebook.sidelines).names
        .query) := by
  have foreign : ∀ c ∈ Notebook.sidelines, c.Foreign := by
    intro c member b
    revert c
    cases b <;> decide
  exact (builtins_in_chain (fun _ => 9) Notebook.sidelines .query foreign).2.2.2.2
    (by decide +kernel)

/-- A callback that wishes for both moves the scope behind the statement. -/
theorem late_moves_scope : Notebook.late.Foreign ∧
    ((CallbackRegistry.withBuiltins fun _ => 9).registerAll [Notebook.late]).names .query =
      ["adminkit:compile_filter", "adminkit:exclude_deleted", "adminkit:query", "app:late",
        "adminkit:inject_scope", "adminkit:after_find", "adminkit:redact_secrets",
        "adminkit:audit"] ∧
    ¬ ((Builtin.ofPhase .query).map Builtin.name).Sublist
      (((CallbackRegistry.withBuiltins fun _ => 9).registerAll [Notebook.late]).names .query) := by
  refine ⟨?_, by decide +kernel, by decide +kernel⟩
  intro b
  cases b <;> decide

end Registrations

end ScopedAccess
