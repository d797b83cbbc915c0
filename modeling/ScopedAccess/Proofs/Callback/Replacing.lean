import ScopedAccess.Proofs.Callback.Joining
/-!
# Replacing a handler

To replace the handler of a callback that is there leaves its wishes and its place alone, and
brings it back where it has been removed; no call of this kind is refused. Under a name that is
not there the handler is added without wishes. Callbacks may have asked for the name before, and
their wishes count from now on. So the call is refused if one that asks to run before the name
waits for one that asks to run after it (`Knotted`). For that some callback has to ask for both of
two others (`not_knotted_of_single`).

* `replaced_unless_knotted`: when the handler of a name can be replaced, and what becomes of it.
-/

namespace ScopedAccess

set_option autoImplicit false

open Relation (ReflTransGen TransGen)

/-! ## Names that others ask for -/

/-- Whether a callback that asks to run before a name waits for one, or is one, that asks to run
after it. -/
def Knotted (stations : List Station) (name : String) : Prop :=
  ∃ s ∈ stations, ∃ t ∈ stations, s.before = some name ∧ t.after = some name ∧
    ReflTransGen (MustPrecede stations) t.name s.name

section Knots

variable {stations : List Station} {name n m : String}

theorem exists_wish_of_concat (must : MustPrecede (stations ++ [Station.mk name none none]) n m) :
    ∃ s ∈ stations, (s.name = n ∧ s.before = some m) ∨ (s.name = m ∧ s.after = some n) := by
  obtain ⟨-, -, s, member, wish⟩ := must
  refine ⟨s, (List.mem_append.mp member).resolve_right fun last => ?_, wish⟩
  obtain rfl := List.mem_singleton.mp last
  rcases wish with ⟨-, asks⟩ | ⟨-, asks⟩ <;> cases asks

/-- Who asks for a name has to come before the callback that gets it, or after. -/
theorem mustPrecede_concat_of_asks {s : Station} (member : s ∈ stations) :
    (s.before = some name → MustPrecede (stations ++ [Station.mk name none none]) s.name name) ∧
      (s.after = some name → MustPrecede (stations ++ [Station.mk name none none]) name s.name) := by
  have member' := List.mem_append_left [Station.mk name none none] member
  have last : name ∈ (stations ++ [Station.mk name none none]).map Station.name := by simp
  exact ⟨fun asks => ⟨List.mem_map_of_mem member', last, s, member', .inl ⟨rfl, asks⟩⟩,
    fun asks => ⟨last, List.mem_map_of_mem member', s, member', .inr ⟨rfl, asks⟩⟩⟩

/-- A callback without wishes that joins closes a circle where its name is knotted. -/
theorem exists_circle_last_iff (fresh : name ∉ stations.map Station.name)
    (acyclic : ∀ n, ¬ TransGen (MustPrecede stations) n n) :
    (∃ n, TransGen (MustPrecede (stations ++ [Station.mk name none none])) n n) ↔
      Knotted stations name := by
  rw [exists_circle_concat_iff acyclic]
  constructor
  · rintro ⟨a, b, must, must', waits⟩
    obtain ⟨s, member, ⟨rfl, before⟩ | ⟨rfl, -⟩⟩ := exists_wish_of_concat must
    · obtain ⟨t, member', ⟨rfl, -⟩ | ⟨rfl, after⟩⟩ := exists_wish_of_concat must'
      · exact absurd (List.mem_map_of_mem member') fresh
      · exact ⟨s, member, t, member', before, after, waits⟩
    · exact absurd (List.mem_map_of_mem member) fresh
  · rintro ⟨s, member, t, member', before, after, waits⟩
    exact ⟨s.name, t.name, (mustPrecede_concat_of_asks member).1 before,
      (mustPrecede_concat_of_asks member').2 after, waits⟩

/-- Where each callback asks for one other at most, those that wait for one that asks to run after
another do so too, and none of them asks to run before any. -/
theorem not_knotted_of_single (distinct : (stations.map Station.name).Nodup)
    (single : ∀ s ∈ stations, s.before = none ∨ s.after = none) : ¬ Knotted stations name := by
  rintro ⟨s, member, t, member', before, after, waits⟩
  suffices ∀ n, ReflTransGen (MustPrecede stations) t.name n →
      ∃ u ∈ stations, u.name = n ∧ u.before = none by
    obtain ⟨u, member'', same, none⟩ := this s.name waits
    obtain rfl := Placement.eq_of_name distinct member'' member same
    rw [none] at before
    cases before
  intro n waits
  induction waits with
  | refl =>
      refine ⟨t, member', rfl, (single t member').resolve_right fun none => ?_⟩
      rw [none] at after
      cases after
  | tail _ must ih =>
      obtain ⟨u, known, same, none⟩ := ih
      obtain ⟨-, -, v, known', ⟨same', asks⟩ | ⟨same', asks⟩⟩ := must
      · obtain rfl := Placement.eq_of_name distinct known' known (same'.trans same.symm)
        rw [none] at asks
        cases asks
      · refine ⟨v, known', same', (single v known').resolve_right fun none => ?_⟩
        rw [none] at asks
        cases asks

end Knots

/-! ## Registries -/

section Replacing

variable {H : Type} {entries : List (CallbackEntry H)} {order : List String} {name : String}

namespace PhaseCallbacks

/-- Whatever ran before, a callback that has been replaced runs. -/
theorem isSome_running?_replaced (phase : Phase) (handler : H)
    (known : (entries.any fun e => e.name = name) = true) (n : String) :
    (running? ((RegistryCall.replace phase name handler).edit entries) n).isSome =
      (decide (n = name) || (running? entries n).isSome) := by
  rw [RegistryCall.edit_replace phase handler known,
    running?_map_ite (f := (RegistryCall.replace phase name handler).alter) fun _ same => same]
  by_cases same : n = name
  · subst same
    obtain ⟨e, member, same⟩ := List.any_eq_true.mp known
    cases found : entries.find? fun e => e.name = n with
    | none => exact absurd same (List.find?_eq_none.mp found e member)
    | some e => simp [RegistryCall.alter]
  · simp [same]

end PhaseCallbacks

namespace CallbackRegistry

variable {r : CallbackRegistry H} {phase : Phase}

/-- To replace a callback that is there, removed or not, puts the handler in its place. -/
theorem exists_replaced_known (settled : (r.phase phase).Settled) (handler : H)
    (known : ((r.phase phase).entries.any fun e => e.name = name) = true) :
    ∃ r' order, r.replace phase name handler = .ok r' ∧ r'.stations phase = r.stations phase ∧
      orderStations (r.stations phase) = .ok order ∧
      r.names phase = order.filter (r.phase phase).isLive ∧
      r'.names phase = order.filter (fun n => n = name || (r.phase phase).isLive n) ∧
      (r'.chain phase).filter (fun x => x.1 ≠ name) =
        (r.chain phase).filter fun x => x.1 ≠ name := by
  obtain ⟨order, ordered, chain, made⟩ := replace_ok settled handler known
  refine ⟨_, order, made,
    (stations_set _).trans (RegistryCall.map_station_replace phase handler known), ordered, ?_, ?_,
    ?_⟩
  · rw [names, CallbackRegistry.chain, chain, PhaseCallbacks.names_chainOf settled.distinct]
  · have distinct := RegistryCall.nodup_edit (c := .replace phase name handler) settled.distinct
    rw [names, chain_set]
    refine (PhaseCallbacks.names_chainOf (p := (RegistryCall.replace phase name handler).result
      (r.phase phase) order) distinct).trans (List.filter_congr fun n _ => ?_)
    rw [← PhaseCallbacks.isSome_running? distinct, ← PhaseCallbacks.isSome_running? settled.distinct]
    exact PhaseCallbacks.isSome_running?_replaced phase handler known n
  · rw [chain_set, CallbackRegistry.chain, chain]
    exact PhaseCallbacks.filter_chainOf_replaced phase handler known

/-- The handler of a callback that has been replaced runs under its name. -/
theorem mem_chain_replaced (settled : ∀ phase, (r.phase phase).Settled) {handler : H}
    {r' : CallbackRegistry H} (made : r.replace phase name handler = .ok r') :
    (name, handler) ∈ r'.chain phase := by
  have settled' := settled_after settled (.replace phase name handler) phase
  rw [after_of_ok (c := .replace phase name handler) made] at settled'
  refine settled'.mem_chain_iff.mpr ?_
  obtain ⟨-, order, -, rfl⟩ :=
    RegistryCall.exists_of_make_eq_ok (c := .replace phase name handler) made
  show ∃ e ∈ ((r.set phase _).phase phase).entries, _
  rw [phase_set]
  show ∃ e ∈ (RegistryCall.replace phase name handler).edit (r.phase phase).entries, _
  rw [RegistryCall.edit]
  split
  · rename_i known
    obtain ⟨e, member, same⟩ := List.any_eq_true.mp known
    have same : e.name = name := of_decide_eq_true same
    exact ⟨_, List.mem_map.mpr ⟨e, member, if_pos same⟩, same, rfl, rfl⟩
  · exact ⟨_, List.mem_append_right _ (List.mem_singleton_self _), rfl, rfl, rfl⟩

theorem stations_edit_replace (handler : H)
    (unknown : name ∉ (r.stations phase).map Station.name) :
    ((RegistryCall.replace phase name handler).edit (r.phase phase).entries).map
      CallbackEntry.station = r.stations phase ++ [⟨name, none, none⟩] := by
  have edited : (RegistryCall.replace phase name handler).edit (r.phase phase).entries =
      (r.phase phase).entries ++ [⟨⟨name, none, none⟩, handler, false⟩] :=
    RegistryCall.edit_of_unknown (c := .replace phase name handler) (p := r.phase phase)
      (Bool.eq_false_iff.mpr (mt mem_stations_iff.mpr unknown))
  rw [edited, List.map_append]
  rfl

/-- A name that is not there can be given a handler unless it is knotted. -/
theorem exists_replaced_unknown_iff (settled : (r.phase phase).Settled) (handler : H)
    (named : isBlankText name = false) (unknown : name ∉ (r.stations phase).map Station.name) :
    (∃ r', r.replace phase name handler = .ok r') ↔ ¬ Knotted (r.stations phase) name := by
  obtain ⟨order, ordered, -⟩ := settled.ordered
  have distinct := nodup_stations settled
  have acyclic := (exists_order_iff distinct).mp ⟨order, ordered⟩
  have distinct' : ((r.stations phase ++ [Station.mk name none none]).map Station.name).Nodup :=
    nodup_names_concat.mpr ⟨distinct, unknown⟩
  rw [← exists_circle_last_iff unknown acyclic, not_exists, ← exists_order_iff distinct']
  constructor
  · rintro ⟨r', made⟩
    obtain ⟨-, order', ordered', -⟩ :=
      RegistryCall.exists_of_make_eq_ok (c := .replace phase name handler) made
    exact ⟨order', (congrArg orderStations (stations_edit_replace handler unknown)).symm.trans
      ordered'⟩
  · rintro ⟨order', ordered'⟩
    exact ⟨_, RegistryCall.make_of_ordered (c := .replace phase name handler) named
      ((congrArg orderStations (stations_edit_replace handler unknown)).trans ordered')⟩

end CallbackRegistry

/-- In a registry that calls have led to, replacing the handler of a callback that is there, removed
or not, is never refused: its wishes and its place in the order stay, and it runs with the new
handler. A name that is not there is added without wishes, unless it is knotted; then the call is
refused for a circle and leaves all as it was. That cannot be where each callback asks for one other
at most. -/
theorem replaced_unless_knotted (r : CallbackRegistry H) (reached : r.Reached) (phase : Phase)
    (name : String) (handler : H) (named : isBlankText name = false) :
    (name ∈ (r.stations phase).map Station.name →
      ∃ r' order, r.replace phase name handler = .ok r' ∧ r'.stations phase = r.stations phase ∧
        orderStations (r.stations phase) = .ok order ∧
        r.names phase = order.filter (r.phase phase).isLive ∧
        r'.names phase = order.filter (fun n => n = name || (r.phase phase).isLive n) ∧
        (r'.chain phase).filter (fun x => x.1 ≠ name) =
          (r.chain phase).filter fun x => x.1 ≠ name) ∧
    (name ∉ (r.stations phase).map Station.name →
      ((∃ r', r.replace phase name handler = .ok r') ↔ ¬ Knotted (r.stations phase) name) ∧
      ∀ r', r.replace phase name handler = .ok r' →
        r'.stations phase = r.stations phase ++ [⟨name, none, none⟩]) ∧
    (∀ r', r.replace phase name handler = .ok r' → (name, handler) ∈ r'.chain phase ∧
      ∀ elsewhere, elsewhere ≠ phase → r'.phase elsewhere = r.phase elsewhere) ∧
    (∀ e, r.replace phase name handler = .error e → (∃ names, e = .cycle phase names) ∧
      r.after (.replace phase name handler) = r) ∧
    ((∀ s ∈ r.stations phase, s.before = none ∨ s.after = none) →
      ∃ r', r.replace phase name handler = .ok r') := by
  have settled := reached.settled
  have known : name ∈ (r.stations phase).map Station.name → _ := fun member =>
    CallbackRegistry.exists_replaced_known (settled phase) handler
      (CallbackRegistry.mem_stations_iff.mp member)
  have unknown := CallbackRegistry.exists_replaced_unknown_iff (settled phase) handler named
  refine ⟨known, fun missing => ⟨unknown missing, fun r' made => ?_⟩, fun r' made =>
    ⟨CallbackRegistry.mem_chain_replaced settled made, fun elsewhere other => ?_⟩,
    fun e refused => ⟨?_, CallbackRegistry.after_of_error (c := .replace phase name handler) refused⟩,
    fun single => ?_⟩
  · obtain ⟨-, order, -, rfl⟩ :=
      RegistryCall.exists_of_make_eq_ok (c := .replace phase name handler) made
    exact (CallbackRegistry.stations_set _).trans
      (CallbackRegistry.stations_edit_replace handler missing)
  · obtain ⟨-, order, -, rfl⟩ :=
      RegistryCall.exists_of_make_eq_ok (c := .replace phase name handler) made
    exact CallbackRegistry.phase_set_of_ne _ other
  · cases ordered : orderStations (((RegistryCall.replace phase name handler).edit
        (r.phase phase).entries).map CallbackEntry.station) with
    | ok order =>
        have made := RegistryCall.make_of_ordered (c := .replace phase name handler) named ordered
        cases made.symm.trans refused
    | error names =>
        have refused' :=
          RegistryCall.make_of_unordered (c := .replace phase name handler) named ordered
        cases refused'.symm.trans refused
        exact ⟨names, rfl⟩
  · by_cases member : name ∈ (r.stations phase).map Station.name
    · obtain ⟨r', -, made, -⟩ := known member
      exact ⟨r', made⟩
    · exact (unknown member).mpr
        (not_knotted_of_single (CallbackRegistry.nodup_stations (settled phase)) single)

/-- Dishes are washed after lunch, and before anything is cooked. -/
def Notebook.kitchen : CallbackRegistry Nat :=
  CallbackRegistry.empty.run
    [.register .create ⟨"cook", some "lunch", none⟩ 0,
      .register .create ⟨"wash", some "cook", some "lunch"⟩ 1,
      .remove .create "cook"]

/-- Cooking comes back to where it was, dinner can be added, and lunch is knotted. -/
theorem kitchen_replaced :
    (∃ r', Notebook.kitchen.replace .create "cook" 7 = .ok r' ∧
      r'.names .create = ["wash", "cook"] ∧ ("cook", 7) ∈ r'.chain .create) ∧
    (∃ r', Notebook.kitchen.replace .create "dinner" 8 = .ok r' ∧
      r'.stations .create = Notebook.kitchen.stations .create ++ [⟨"dinner", none, none⟩]) ∧
    Knotted (Notebook.kitchen.stations .create) "lunch" := by
  have reached : Notebook.kitchen.Reached := .run .empty _
  have ordered : orderStations (Notebook.kitchen.stations .create) = .ok ["wash", "cook"] := by
    decide +kernel
  refine ⟨?_, ?_, ?_⟩
  · obtain ⟨known, -, runs, -⟩ := replaced_unless_knotted Notebook.kitchen reached .create "cook" 7
      (by decide +kernel)
    obtain ⟨r', order, made, -, ordered', -, names, -⟩ := known (by decide +kernel)
    cases ordered'.symm.trans ordered
    exact ⟨r', made, names.trans (by decide +kernel), (runs r' made).1⟩
  · obtain ⟨-, unknown, -⟩ := replaced_unless_knotted Notebook.kitchen reached .create "dinner" 8
      (by decide +kernel)
    obtain ⟨allowed, added⟩ := unknown (by decide +kernel)
    obtain ⟨r', made⟩ := allowed.mpr (by
      rintro ⟨s, member, -, -, asks, -⟩
      revert s
      decide +kernel)
    exact ⟨r', made, added r' made⟩
  · exact ⟨⟨"cook", some "lunch", none⟩, by decide +kernel, ⟨"wash", some "cook", some "lunch"⟩,
      by decide +kernel, rfl, rfl, .single ⟨by decide +kernel, by decide +kernel,
        ⟨"wash", some "cook", some "lunch"⟩, by decide +kernel, .inl ⟨rfl, rfl⟩⟩⟩

/-- A handler for lunch is refused. -/
theorem lunch_not_replaced : Notebook.kitchen.Reached ∧ isBlankText "lunch" = false ∧
    Notebook.kitchen.replace .create "lunch" 2 =
      .error (.cycle .create ["cook", "wash", "lunch"]) := by
  refine ⟨.run .empty _, by decide +kernel, ?_⟩
  exact RegistryCall.make_of_unordered (c := .replace .create "lunch" 2) (by decide +kernel)
    (by decide +kernel)

end Replacing

end ScopedAccess
