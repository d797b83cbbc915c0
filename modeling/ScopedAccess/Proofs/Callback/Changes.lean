import ScopedAccess.Proofs.Callback.Builtin
/-!
# What calls change in a registry

To register, to replace and to remove a callback are all one thing: the entries of a phase are
edited (`RegistryCall.edit`) and ordered anew, and a name that is blank or a circle refuses the
call (`RegistryCall.make_eq`). A phase that such calls lead to is `Settled`: its names are
different, none is blank, and its chain is the order of its entries without the removed ones.

Removing and replacing leave all wishes as they are, so there is an order if there was one before.
Whether an entry has been removed plays no part until its name is replaced, whatever calls come in
between; that is why a replaced callback stands where it would without the removal
(`CallbackRegistry.Alike`).

* `calls_exact`: what calls do to a registry that calls have led to.
-/

namespace ScopedAccess

set_option autoImplicit false

open Relation (TransGen)

/-! ## Calls -/

/-- A call that changes the callbacks of a phase. -/
inductive RegistryCall (H : Type) where
  | register (phase : Phase) (station : Station) (handler : H)
  | replace (phase : Phase) (name : String) (handler : H)
  | remove (phase : Phase) (name : String)

namespace RegistryCall

variable {H : Type}

def phase : RegistryCall H → Phase
  | register phase _ _ | replace phase _ _ | remove phase _ => phase

def name : RegistryCall H → String
  | register _ s _ => s.name
  | replace _ name _ | remove _ name => name

/-- Make the call. -/
def make (c : RegistryCall H) (r : CallbackRegistry H) :
    Except RegistryError (CallbackRegistry H) :=
  match c with
  | register phase s handler => r.register phase s handler
  | replace phase name handler => r.replace phase name handler
  | remove phase name => r.remove phase name

/-- What the call does to the callbacks of its phase. -/
def onPhase (c : RegistryCall H) (p : PhaseCallbacks H) :
    Except (List String) (PhaseCallbacks H) :=
  match c with
  | register _ s handler => p.register s handler
  | replace _ name handler => p.replace name handler
  | remove _ name => p.remove name

/-- Whether the call is refused for its name. -/
def isNameless : RegistryCall H → Bool
  | register _ s _ => isBlankText s.name
  | replace _ name _ => isBlankText name
  | remove _ _ => false

/-- What becomes of the entry that has the name. -/
def alter : RegistryCall H → CallbackEntry H → CallbackEntry H
  | register _ s handler, _ => ⟨s, handler, false⟩
  | replace _ _ handler, e => { e with handler, removed := false }
  | remove _ _, e => { e with removed := true }

/-- The entry that is added if no entry has the name. -/
def fresh? : RegistryCall H → Option (CallbackEntry H)
  | register _ s handler => some ⟨s, handler, false⟩
  | replace _ name handler => some ⟨⟨name, none, none⟩, handler, false⟩
  | remove _ _ => none

/-- What the call makes of the entries of its phase. -/
def edit (c : RegistryCall H) (entries : List (CallbackEntry H)) : List (CallbackEntry H) :=
  if entries.any fun e => e.name = c.name then
    entries.map fun e => if e.name = c.name then c.alter e else e
  else entries ++ c.fresh?.toList

/-- The names registered more than once, the call included. -/
def repeated (c : RegistryCall H) (p : PhaseCallbacks H) : SortedSet String :=
  match c with
  | register _ s _ => if p.isKnown s.name then p.duplicates.insert s.name else p.duplicates
  | _ => p.duplicates

/-- The callbacks of a phase after the call, in an order. -/
def result (c : RegistryCall H) (p : PhaseCallbacks H) (order : List String) : PhaseCallbacks H :=
  ⟨c.edit p.entries, PhaseCallbacks.chainOf (c.edit p.entries) order, c.repeated p⟩

end RegistryCall

namespace CallbackRegistry

variable {H : Type}

/-- The registry after a call; a refused one leaves it as it is. -/
def after (r : CallbackRegistry H) (c : RegistryCall H) : CallbackRegistry H :=
  (c.make r).toOption.getD r

/-- The registry after calls one after the other. -/
def run (r : CallbackRegistry H) (calls : List (RegistryCall H)) : CallbackRegistry H :=
  calls.foldl after r

/-- The registries that calls lead to. -/
inductive Reached : CallbackRegistry H → Prop where
  | empty : Reached .empty
  | builtin (handler : Builtin → H) : Reached (.withBuiltins handler)
  | call {r : CallbackRegistry H} (reached : Reached r) (c : RegistryCall H) : Reached (r.after c)

/-- The wishes of the callbacks of a phase, in the order of registration. -/
def stations (r : CallbackRegistry H) (phase : Phase) : List Station :=
  (r.phase phase).entries.map CallbackEntry.station

end CallbackRegistry

section Calls

variable {H : Type} {c : RegistryCall H} {r r' : CallbackRegistry H} {p : PhaseCallbacks H}
  {entries : List (CallbackEntry H)} {e : CallbackEntry H} {name : String} {order : List String}

/-! ## One call -/

theorem PhaseCallbacks.mapEntry_of_unknown {f : CallbackEntry H → CallbackEntry H}
    (unknown : p.isKnown name = false) : p.mapEntry name f = p.entries := by
  refine (List.map_congr_left fun e member => ?_).trans (List.map_id' _)
  have other := List.any_eq_false.mp unknown e member
  exact if_neg (by simpa using other)

theorem RegistryCall.edit_of_known (known : p.isKnown c.name = true) :
    c.edit p.entries = p.mapEntry c.name c.alter := if_pos known

theorem RegistryCall.edit_of_unknown (unknown : p.isKnown c.name = false) :
    c.edit p.entries = p.entries ++ c.fresh?.toList :=
  if_neg (Bool.eq_false_iff.mp unknown)

theorem RegistryCall.edit_remove (phase : Phase) :
    (remove phase name).edit entries =
      entries.map fun e => if e.name = name then (remove phase name).alter e else e := by
  rw [edit]
  split
  · rfl
  · rename_i unknown
    refine (List.append_nil _).trans ((List.map_id' _).symm.trans ?_)
    refine List.map_congr_left fun e member => (if_neg fun same => unknown ?_).symm
    exact List.any_eq_true.mpr ⟨e, member, decide_eq_true same⟩

theorem RegistryCall.edit_replace (phase : Phase) (handler : H)
    (known : (entries.any fun e => e.name = name) = true) :
    (replace phase name handler).edit entries =
      entries.map fun e => if e.name = name then (replace phase name handler).alter e else e :=
  if_pos known

/-- A phase with other entries, in their order. -/
def PhaseCallbacks.reordered (edited : List (CallbackEntry H)) (repeated : SortedSet String) :
    Except (List String) (PhaseCallbacks H) :=
  (orderStations (edited.map CallbackEntry.station)).map fun order =>
    ⟨edited, chainOf edited order, repeated⟩

theorem PhaseCallbacks.map_withEntries (f : SortedSet String → SortedSet String) :
    ((p.withEntries entries).map fun q => { q with duplicates := f q.duplicates }) =
      reordered entries (f p.duplicates) := by
  rw [withEntries, reordered]
  cases orderStations (entries.map CallbackEntry.station) <;> rfl

/-- A call edits the entries of a phase and orders them anew. -/
theorem RegistryCall.onPhase_eq (c : RegistryCall H) (p : PhaseCallbacks H) :
    c.onPhase p = PhaseCallbacks.reordered (c.edit p.entries) (c.repeated p) := by
  cases c with
  | register phase s handler =>
      rw [onPhase, PhaseCallbacks.register, repeated]
      cases known : p.isKnown s.name with
      | true =>
          rw [edit_of_known (c := .register phase s handler) known]
          exact PhaseCallbacks.map_withEntries (·.insert s.name)
      | false =>
          rw [edit_of_unknown (c := .register phase s handler) known]
          rfl
  | replace phase name handler =>
      rw [onPhase, PhaseCallbacks.replace]
      cases known : p.isKnown name with
      | true =>
          rw [edit_of_known (c := .replace phase name handler) known]
          rfl
      | false =>
          rw [edit_of_unknown (c := .replace phase name handler) known]
          rfl
  | remove phase name =>
      rw [onPhase, PhaseCallbacks.remove]
      cases known : p.isKnown name with
      | true =>
          rw [edit_of_known (c := .remove phase name) known]
          rfl
      | false =>
          rw [edit_of_unknown (c := .remove phase name) known,
            PhaseCallbacks.mapEntry_of_unknown known]
          exact congrArg (PhaseCallbacks.reordered · _) (List.append_nil _).symm

theorem RegistryCall.make_eq (c : RegistryCall H) (r : CallbackRegistry H) :
    c.make r = if c.isNameless then .error .emptyName else r.change c.phase c.onPhase := by
  cases c <;> rfl

/-- A call that is not refused edits the entries of its phase, and there is an order of them. -/
theorem RegistryCall.exists_of_make_eq_ok (made : c.make r = .ok r') :
    c.isNameless = false ∧ ∃ order,
      orderStations ((c.edit (r.phase c.phase).entries).map CallbackEntry.station) = .ok order ∧
      r' = r.set c.phase (c.result (r.phase c.phase) order) := by
  rw [make_eq, CallbackRegistry.change, onPhase_eq, PhaseCallbacks.reordered] at made
  cases nameless : c.isNameless with
  | true =>
      rw [nameless] at made
      cases made
  | false =>
      rw [nameless, if_neg Bool.false_ne_true] at made
      cases ordered :
          orderStations ((c.edit (r.phase c.phase).entries).map CallbackEntry.station) with
      | error names =>
          rw [ordered] at made
          cases made
      | ok order =>
          rw [ordered] at made
          cases made
          exact ⟨rfl, order, rfl, rfl⟩

/-- A call whose name is not blank is made if there is an order. -/
theorem RegistryCall.make_of_ordered (named : c.isNameless = false)
    (ordered : orderStations ((c.edit (r.phase c.phase).entries).map CallbackEntry.station) =
      .ok order) :
    c.make r = .ok (r.set c.phase (c.result (r.phase c.phase) order)) := by
  rw [make_eq, CallbackRegistry.change, onPhase_eq, PhaseCallbacks.reordered, named, ordered]
  rfl

theorem RegistryCall.make_of_nameless (nameless : c.isNameless = true) :
    c.make r = .error .emptyName := by
  rw [make_eq, nameless]
  rfl

theorem RegistryCall.make_of_unordered {names : List String} (named : c.isNameless = false)
    (unordered : orderStations ((c.edit (r.phase c.phase).entries).map CallbackEntry.station) =
      .error names) :
    c.make r = .error (.cycle c.phase names) := by
  rw [make_eq, CallbackRegistry.change, onPhase_eq, PhaseCallbacks.reordered, named, unordered]
  rfl

theorem CallbackRegistry.after_of_ok (made : c.make r = .ok r') : r.after c = r' := by
  rw [after, made]
  rfl

theorem CallbackRegistry.after_of_error {e : RegistryError} (refused : c.make r = .error e) :
    r.after c = r := by
  rw [after, refused]
  rfl

/-! ## Entries -/

theorem RegistryCall.name_alter (same : e.name = c.name) : (c.alter e).name = c.name := by
  cases c with
  | register phase s handler => rfl
  | replace phase name handler => exact same
  | remove phase name => exact same

theorem RegistryCall.name_of_fresh (fresh : e ∈ c.fresh?.toList) :
    e.name = c.name ∧ (c.isNameless = false → isBlankText e.name = false) := by
  cases c with
  | register phase s handler =>
      obtain rfl := List.mem_singleton.mp fresh
      exact ⟨rfl, id⟩
  | replace phase name handler =>
      obtain rfl := List.mem_singleton.mp fresh
      exact ⟨rfl, id⟩
  | remove phase name => cases fresh

/-- The names stay, and at most the name of the call is added. -/
theorem RegistryCall.names_edit (c : RegistryCall H) (entries : List (CallbackEntry H)) :
    (c.edit entries).map CallbackEntry.name =
      if entries.any fun e => e.name = c.name then entries.map CallbackEntry.name
      else entries.map CallbackEntry.name ++ c.fresh?.toList.map CallbackEntry.name := by
  rw [edit, apply_ite (List.map CallbackEntry.name), List.map_append, List.map_map]
  refine if_congr Iff.rfl (List.map_congr_left fun e _ => ?_) rfl
  rw [Function.comp_apply]
  split
  · rename_i same
    rw [name_alter same, same]
  · rfl

theorem RegistryCall.nodup_edit (distinct : (entries.map CallbackEntry.name).Nodup) :
    ((c.edit entries).map CallbackEntry.name).Nodup := by
  rw [names_edit]
  split
  · exact distinct
  · rename_i unknown
    refine List.nodup_append.mpr ⟨distinct, ?_, fun a first b second same => unknown ?_⟩
    · cases c <;> simp [fresh?]
    · obtain ⟨e, member, rfl⟩ := List.mem_map.mp first
      obtain ⟨e', fresh, rfl⟩ := List.mem_map.mp second
      exact List.any_eq_true.mpr
        ⟨e, member, decide_eq_true (same.trans (name_of_fresh fresh).1)⟩

/-- Of a call that is not refused for its name, no entry has a blank one. -/
theorem RegistryCall.named_edit (accepted : c.isNameless = false)
    (named : ∀ n ∈ entries.map CallbackEntry.name, isBlankText n = false) :
    ∀ n ∈ (c.edit entries).map CallbackEntry.name, isBlankText n = false := by
  rw [names_edit]
  split
  · exact named
  · refine List.forall_mem_append.mpr ⟨named, fun n member => ?_⟩
    obtain ⟨e, fresh, rfl⟩ := List.mem_map.mp member
    exact (name_of_fresh fresh).2 accepted

/-! ## Chains -/

namespace PhaseCallbacks

/-- Whether there is an entry of a name that is not removed. -/
def isLive (p : PhaseCallbacks H) (name : String) : Bool :=
  p.entries.any fun e => e.name = name && !e.removed

/-- What runs under a name. -/
def running? (entries : List (CallbackEntry H)) (name : String) : Option (String × H) :=
  (entries.find? fun e => e.name = name).bind fun e =>
    if e.removed then none else some (name, e.handler)

theorem running?_eq_some_iff (distinct : (entries.map CallbackEntry.name).Nodup) {x : String × H} :
    running? entries name = some x ↔ x.1 = name ∧
      ∃ e ∈ entries, e.name = name ∧ e.handler = x.2 ∧ e.removed = false := by
  rw [running?, Option.bind_eq_some_iff]
  constructor
  · rintro ⟨e, found, runs⟩
    split at runs
    · cases runs
    · rename_i live
      cases runs
      exact ⟨rfl, e, List.mem_of_find?_eq_some found, by simpa using List.find?_some found, rfl,
        Bool.eq_false_iff.mpr live⟩
  · rintro ⟨rfl, e, member, same, handler, live⟩
    refine ⟨e, same ▸ find?_of_key distinct member, ?_⟩
    rw [live, handler]
    rfl

theorem any_of_isLive (live : p.isLive name = true) :
    (p.entries.any fun e => e.name = name) = true := by
  obtain ⟨e, member, live⟩ := List.any_eq_true.mp live
  exact List.any_eq_true.mpr ⟨e, member, (Bool.and_eq_true _ _ ▸ live).1⟩

theorem isSome_running? (distinct : (p.entries.map CallbackEntry.name).Nodup) :
    (running? p.entries name).isSome = p.isLive name := by
  rw [Bool.eq_iff_iff, Option.isSome_iff_exists, isLive, List.any_eq_true]
  constructor
  · rintro ⟨x, runs⟩
    obtain ⟨-, e, member, same, -, live⟩ := (running?_eq_some_iff distinct).mp runs
    exact ⟨e, member, by simp [same, live]⟩
  · rintro ⟨e, member, live⟩
    rw [Bool.and_eq_true, decide_eq_true_eq, Bool.not_eq_true'] at live
    exact ⟨(name, e.handler),
      (running?_eq_some_iff distinct).mpr ⟨rfl, e, member, live.1, rfl, live.2⟩⟩

/-- What runs under a name after entries have been changed that keep their names. -/
theorem running?_map {f : CallbackEntry H → CallbackEntry H} (keeps : ∀ e, (f e).name = e.name) :
    running? (entries.map f) name = (entries.find? fun e => e.name = name).bind fun e =>
      if (f e).removed then none else some (name, (f e).handler) := by
  rw [running?, List.find?_map]
  have same : (fun e : CallbackEntry H => decide (e.name = name)) ∘ f =
      fun e => decide (e.name = name) := funext fun e => by rw [Function.comp_apply, keeps]
  rw [same]
  cases entries.find? fun e => e.name = name <;> rfl

theorem fst_of_running? {x : String × H} (runs : running? entries name = some x) : x.1 = name := by
  rw [running?, Option.bind_eq_some_iff] at runs
  obtain ⟨e, -, runs⟩ := runs
  split at runs
  · cases runs
  · cases runs
    rfl

/-- What runs under a name is not left when the name is taken out. -/
theorem filter_running? (entries : List (CallbackEntry H)) (n name : String) :
    (running? entries n).filter (fun x => x.1 ≠ name) =
      if n = name then none else running? entries n := by
  cases runs : running? entries n with
  | none => rw [ite_self, Option.filter_none]
  | some x => by_cases same : n = name <;> simp [Option.filter_some, fst_of_running? runs, same]

theorem chainOf_eq : chainOf entries order = order.filterMap (running? entries) := rfl

theorem names_chainOf (distinct : (p.entries.map CallbackEntry.name).Nodup) :
    (chainOf p.entries order).map Prod.fst = order.filter p.isLive := by
  rw [chainOf_eq, List.map_filterMap, ← List.filterMap_eq_filter]
  refine List.filterMap_congr fun n _ => ?_
  rw [Option.guard, ← isSome_running? distinct]
  cases runs : running? p.entries n with
  | none => rfl
  | some x => exact congrArg some (fst_of_running? runs)

/-- Under other names than that of the entry that is changed there runs what ran before. -/
theorem running?_map_ite {f : CallbackEntry H → CallbackEntry H}
    (keeps : ∀ e, e.name = name → (f e).name = name) (n : String) :
    running? (entries.map fun e => if e.name = name then f e else e) n =
      if n = name then (entries.find? fun e => e.name = n).bind fun e =>
        if (f e).removed then none else some (n, (f e).handler)
      else running? entries n := by
  have keeps' : ∀ e, (if e.name = name then f e else e).name = e.name := by
    intro e
    split
    · rename_i same
      rw [keeps e same, same]
    · rfl
  rw [running?_map keeps', running?]
  cases found : entries.find? fun e => e.name = n with
  | none => simp
  | some e =>
      have same : e.name = n := by simpa using List.find?_some found
      simp only [Option.bind_some, same]
      split <;> rfl

/-- To remove a callback takes it out of the chain. -/
theorem chainOf_removed (phase : Phase) :
    chainOf ((RegistryCall.remove phase name).edit entries) order =
      (chainOf entries order).filter fun x => x.1 ≠ name := by
  rw [RegistryCall.edit_remove, chainOf_eq, chainOf_eq, List.filter_filterMap]
  refine List.filterMap_congr fun n _ => ?_
  rw [running?_map_ite (f := (RegistryCall.remove phase name).alter) fun _ same => same,
    filter_running?]
  split
  · simp [RegistryCall.alter]
  · rfl

/-- To replace a callback that runs gives it the handler, where it stands. -/
theorem chainOf_replaced (phase : Phase) (handler : H)
    (live : (running? entries name).isSome = true) :
    chainOf ((RegistryCall.replace phase name handler).edit entries) order =
      (chainOf entries order).map fun x => if x.1 = name then (name, handler) else x := by
  obtain ⟨x, runs⟩ := Option.isSome_iff_exists.mp live
  obtain ⟨e, found, -⟩ := Option.bind_eq_some_iff.mp runs
  have known : (entries.any fun e => e.name = name) = true :=
    List.any_eq_true.mpr ⟨e, List.mem_of_find?_eq_some found, by simpa using List.find?_some found⟩
  rw [RegistryCall.edit_replace phase handler known, chainOf_eq, chainOf_eq, List.map_filterMap]
  refine List.filterMap_congr fun n _ => ?_
  rw [running?_map_ite (f := (RegistryCall.replace phase name handler).alter) fun _ same => same]
  by_cases same : n = name
  · subst same
    simp [found, runs, fst_of_running? runs, RegistryCall.alter]
  · rw [if_neg same]
    cases others : running? entries n with
    | none => rfl
    | some y => simp [fst_of_running? others, same]

/-- To replace a callback leaves what runs under other names. -/
theorem filter_chainOf_replaced (phase : Phase) (handler : H)
    (known : (entries.any fun e => e.name = name) = true) :
    (chainOf ((RegistryCall.replace phase name handler).edit entries) order).filter
      (fun x => x.1 ≠ name) = (chainOf entries order).filter fun x => x.1 ≠ name := by
  rw [RegistryCall.edit_replace phase handler known, chainOf_eq, chainOf_eq,
    List.filter_filterMap, List.filter_filterMap]
  refine List.filterMap_congr fun n _ => ?_
  rw [filter_running?, filter_running?]
  split
  · rfl
  · rename_i other
    rw [running?_map_ite (f := (RegistryCall.replace phase name handler).alter) fun _ same => same,
      if_neg other]

/-- To replace a callback that has been removed leaves the rest of the chain as it is. -/
theorem chainOf_returned (phase : Phase) (handler : H)
    (known : (entries.any fun e => e.name = name) = true)
    (removed : (running? entries name).isSome = false) :
    (chainOf ((RegistryCall.replace phase name handler).edit entries) order).filter
      (fun x => x.1 ≠ name) = chainOf entries order := by
  rw [filter_chainOf_replaced phase handler known, chainOf_eq, List.filter_filterMap]
  refine List.filterMap_congr fun n _ => ?_
  rw [filter_running?]
  split
  · rename_i same
    rw [same, Option.isNone_iff_eq_none.mp (Option.isSome_eq_false_iff.mp removed)]
  · rfl

end PhaseCallbacks

/-! ## Settled phases -/

/-- A phase whose names are different and not blank, and whose chain is the order of its entries
without the removed ones. -/
structure PhaseCallbacks.Settled (p : PhaseCallbacks H) : Prop where
  distinct : (p.entries.map CallbackEntry.name).Nodup
  named : ∀ n ∈ p.entries.map CallbackEntry.name, isBlankText n = false
  ordered : ∃ order, orderStations (p.entries.map CallbackEntry.station) = .ok order ∧
    p.chain = chainOf p.entries order

/-- The chain of a settled phase is determined by its entries. -/
theorem PhaseCallbacks.Settled.eq {q : PhaseCallbacks H} (settled : p.Settled)
    (settled' : q.Settled) (entries : p.entries = q.entries)
    (duplicates : p.duplicates = q.duplicates) : p = q := by
  obtain ⟨order, ordered, chain⟩ := settled.ordered
  obtain ⟨order', ordered', chain'⟩ := settled'.ordered
  obtain ⟨entries₁, chain₁, duplicates₁⟩ := p
  obtain ⟨entries₂, chain₂, duplicates₂⟩ := q
  cases entries
  cases duplicates
  cases ordered.symm.trans ordered'
  exact congrArg (PhaseCallbacks.mk entries₁ · duplicates₁) (chain.trans chain'.symm)

namespace CallbackRegistry

theorem settled_empty (phase : Phase) : ((empty : CallbackRegistry H).phase phase).Settled :=
  ⟨List.nodup_nil, nofun, [], rfl, rfl⟩

theorem settled_withBuiltins (handler : Builtin → H) (phase : Phase) :
    ((withBuiltins handler).phase phase).Settled := by
  have extended := PhaseCallbacks.Extended.start handler phase
  refine ⟨extended.distinct, ?_, extended.ordered⟩
  have names : ((withBuiltins handler).phase phase).entries.map CallbackEntry.name =
      (Builtin.ofPhase phase).map Builtin.name := by
    show (List.map _ (Builtin.ofPhase phase)).map _ = _
    rw [List.map_map]
    rfl
  rw [names]
  cases phase <;> decide +kernel

variable {phase : Phase}

/-- A call keeps phases settled, whether it is refused or not. -/
theorem settled_after (settled : ∀ phase, (r.phase phase).Settled) (c : RegistryCall H)
    (phase : Phase) : ((r.after c).phase phase).Settled := by
  cases made : c.make r with
  | error e =>
      rw [after_of_error made]
      exact settled phase
  | ok r' =>
      obtain ⟨accepted, order, ordered, rfl⟩ := RegistryCall.exists_of_make_eq_ok made
      rw [after_of_ok made]
      by_cases same : phase = c.phase
      · subst same
        rw [phase_set]
        exact ⟨RegistryCall.nodup_edit (settled c.phase).distinct,
          RegistryCall.named_edit accepted (settled c.phase).named, order, ordered, rfl⟩
      · rw [phase_set_of_ne _ same]
        exact settled phase

theorem settled_run (settled : ∀ phase, (r.phase phase).Settled) (calls : List (RegistryCall H)) :
    ∀ phase, ((r.run calls).phase phase).Settled := by
  induction calls generalizing r with
  | nil => exact settled
  | cons c calls ih => exact ih (settled_after settled c)

theorem Reached.settled (reached : r.Reached) : ∀ phase, (r.phase phase).Settled := by
  induction reached with
  | empty => exact settled_empty
  | builtin handler => exact settled_withBuiltins handler
  | call reached c ih => exact settled_after ih c

theorem nodup_stations (settled : (r.phase phase).Settled) :
    ((r.stations phase).map Station.name).Nodup := by
  rw [stations, PhaseCallbacks.map_name_station]
  exact settled.distinct

theorem Reached.run (reached : r.Reached) (calls : List (RegistryCall H)) :
    (r.run calls).Reached := by
  induction calls generalizing r with
  | nil => exact reached
  | cons c calls ih => exact ih (reached.call c)

end CallbackRegistry

/-! ## Wishes that stay -/

/-- To replace a callback that is there, or to remove any, leaves all wishes as they are. -/
theorem RegistryCall.map_station_map_alter
    (keeps : ∀ e : CallbackEntry H, (c.alter e).station = e.station) :
    (entries.map fun e => if e.name = c.name then c.alter e else e).map CallbackEntry.station =
      entries.map CallbackEntry.station := by
  rw [List.map_map]
  refine List.map_congr_left fun e _ => ?_
  rw [Function.comp_apply]
  split
  · exact keeps e
  · rfl

theorem RegistryCall.map_station_remove (phase : Phase) :
    ((remove phase name).edit entries).map CallbackEntry.station =
      entries.map CallbackEntry.station := by
  rw [edit_remove]
  exact map_station_map_alter (c := .remove phase name) fun _ => rfl

theorem RegistryCall.map_station_replace (phase : Phase) (handler : H)
    (known : (entries.any fun e => e.name = name) = true) :
    ((replace phase name handler).edit entries).map CallbackEntry.station =
      entries.map CallbackEntry.station := by
  rw [edit_replace phase handler known]
  exact map_station_map_alter (c := .replace phase name handler) fun _ => rfl

theorem PhaseCallbacks.Settled.named_of_any (settled : p.Settled)
    (known : (p.entries.any fun e => e.name = name) = true) : isBlankText name = false := by
  obtain ⟨e, member, same⟩ := List.any_eq_true.mp known
  exact of_decide_eq_true same ▸ settled.named e.name (List.mem_map_of_mem member)

namespace CallbackRegistry

variable {phase : Phase}

theorem stations_set (p : PhaseCallbacks H) :
    (r.set phase p).stations phase = p.entries.map CallbackEntry.station := by
  rw [stations, phase_set]

theorem chain_set (p : PhaseCallbacks H) : (r.set phase p).chain phase = p.chain := by
  rw [chain, phase_set]

/-- A callback can be removed. -/
theorem remove_ok (settled : (r.phase phase).Settled) (name : String) :
    ∃ order, orderStations (r.stations phase) = .ok order ∧
      (r.phase phase).chain = PhaseCallbacks.chainOf (r.phase phase).entries order ∧
      r.remove phase name =
        .ok (r.set phase ((RegistryCall.remove phase name).result (r.phase phase) order)) := by
  obtain ⟨order, ordered, chain⟩ := settled.ordered
  refine ⟨order, ordered, chain, ?_⟩
  exact RegistryCall.make_of_ordered (c := .remove phase name) rfl
    ((congrArg orderStations (RegistryCall.map_station_remove phase)).trans ordered)

/-- A callback that is there can be given another handler. -/
theorem replace_ok (settled : (r.phase phase).Settled) (handler : H)
    (known : ((r.phase phase).entries.any fun e => e.name = name) = true) :
    ∃ order, orderStations (r.stations phase) = .ok order ∧
      (r.phase phase).chain = PhaseCallbacks.chainOf (r.phase phase).entries order ∧
      r.replace phase name handler = .ok (r.set phase
        ((RegistryCall.replace phase name handler).result (r.phase phase) order)) := by
  obtain ⟨order, ordered, chain⟩ := settled.ordered
  refine ⟨order, ordered, chain, ?_⟩
  exact RegistryCall.make_of_ordered (c := .replace phase name handler)
    (settled.named_of_any known)
    ((congrArg orderStations (RegistryCall.map_station_replace phase handler known)).trans ordered)

/-- To remove a callback takes it out of the chain. -/
theorem exists_removed (settled : (r.phase phase).Settled) (name : String) :
    ∃ r', r.remove phase name = .ok r' ∧ r'.stations phase = r.stations phase ∧
      r'.chain phase = (r.chain phase).filter fun x => x.1 ≠ name := by
  obtain ⟨order, -, chain, made⟩ := remove_ok settled name
  refine ⟨_, made, (stations_set _).trans (RegistryCall.map_station_remove phase), ?_⟩
  refine (chain_set _).trans ((PhaseCallbacks.chainOf_removed phase).trans ?_)
  rw [CallbackRegistry.chain, chain]

/-- To replace a callback that runs changes the handler that stands in its place. -/
theorem exists_replaced (settled : (r.phase phase).Settled) (handler : H)
    (live : (r.phase phase).isLive name = true) :
    ∃ r', r.replace phase name handler = .ok r' ∧ r'.stations phase = r.stations phase ∧
      r'.chain phase =
        (r.chain phase).map fun x => if x.1 = name then (name, handler) else x := by
  have known := PhaseCallbacks.any_of_isLive live
  obtain ⟨order, -, chain, made⟩ := replace_ok settled handler known
  refine ⟨_, made,
    (stations_set _).trans (RegistryCall.map_station_replace phase handler known), ?_⟩
  rw [← PhaseCallbacks.isSome_running? settled.distinct] at live
  refine (chain_set _).trans ((PhaseCallbacks.chainOf_replaced phase handler live).trans ?_)
  rw [CallbackRegistry.chain, chain]

/-- To replace a callback that has been removed puts it back, and the others keep their order. -/
theorem exists_returned (settled : (r.phase phase).Settled) (handler : H)
    (known : ((r.phase phase).entries.any fun e => e.name = name) = true)
    (removed : (r.phase phase).isLive name = false) :
    ∃ r', r.replace phase name handler = .ok r' ∧ r'.stations phase = r.stations phase ∧
      (name, handler) ∈ r'.chain phase ∧
      (r'.chain phase).filter (fun x => x.1 ≠ name) = r.chain phase := by
  obtain ⟨order, ordered, chain, made⟩ := replace_ok settled handler known
  refine ⟨_, made, (stations_set _).trans (RegistryCall.map_station_replace phase handler known),
    ?_, ?_⟩
  · obtain ⟨e, member, same⟩ := List.any_eq_true.mp known
    have same : e.name = name := of_decide_eq_true same
    have entry : (RegistryCall.replace phase name handler).alter e ∈
        (RegistryCall.replace phase name handler).edit (r.phase phase).entries := by
      rw [RegistryCall.edit_replace phase handler known]
      exact List.mem_map.mpr ⟨e, member, if_pos same⟩
    have distinct := nodup_stations settled
    have ordered' : e.name ∈ order := by
      refine (isOrder_of_ok distinct ordered).all.mem_iff.mpr ?_
      rw [stations, PhaseCallbacks.map_name_station]
      exact List.mem_map_of_mem member
    rw [chain_set]
    exact same ▸ PhaseCallbacks.mem_chainOf (RegistryCall.nodup_edit settled.distinct) entry rfl
      ordered'
  · rw [← PhaseCallbacks.isSome_running? settled.distinct] at removed
    rw [chain_set, CallbackRegistry.chain, chain]
    exact PhaseCallbacks.chainOf_returned phase handler known removed

end CallbackRegistry

/-! ## Forgotten removals -/

/-- An entry, not removed if it has the name. -/
def CallbackEntry.restored (name : String) (e : CallbackEntry H) : CallbackEntry H :=
  { e with removed := e.removed && e.name ≠ name }

theorem CallbackEntry.restored_restored : (e.restored name).restored name = e.restored name := by
  show CallbackEntry.mk e.station e.handler ((e.removed && e.name ≠ name) && e.name ≠ name) = _
  rw [Bool.and_assoc, Bool.and_self]
  rfl

/-- What becomes of an entry does not depend on whether it has been removed. -/
theorem RegistryCall.alter_restored : c.alter (e.restored name) = c.alter e := by
  cases c <;> rfl

theorem any_map_restored (name n : String) :
    ((entries.map (CallbackEntry.restored name)).any fun e => e.name = n) =
      entries.any fun e => e.name = n := by
  rw [List.any_map]
  rfl

/-- The entries after a call, but for whether one of them has been removed. -/
theorem RegistryCall.map_restored_edit (c : RegistryCall H) (entries : List (CallbackEntry H)) :
    (c.edit (entries.map (CallbackEntry.restored name))).map (CallbackEntry.restored name) =
      (c.edit entries).map (CallbackEntry.restored name) := by
  rw [edit, edit, any_map_restored]
  split
  · rw [List.map_map, List.map_map, List.map_map]
    refine List.map_congr_left fun e _ => ?_
    show CallbackEntry.restored name (if e.name = c.name then _ else _) =
      CallbackEntry.restored name (if e.name = c.name then _ else _)
    split
    · rw [alter_restored]
    · exact CallbackEntry.restored_restored
  · rw [List.map_append, List.map_append, List.map_map]
    congr 1
    exact List.map_congr_left fun e _ => CallbackEntry.restored_restored

/-- A call on the name makes the same of entries that differ in whether its entry has been
removed. -/
theorem RegistryCall.edit_restored (known : (entries.any fun e => e.name = c.name) = true) :
    c.edit (entries.map (CallbackEntry.restored c.name)) = c.edit entries := by
  rw [edit, edit, any_map_restored, if_pos known, if_pos known, List.map_map]
  refine List.map_congr_left fun e _ => ?_
  show (if e.name = c.name then _ else _) = _
  split
  · exact alter_restored
  · rename_i other
    rw [CallbackEntry.restored, decide_eq_true other, Bool.and_true]

theorem map_station_restored (name : String) :
    (entries.map (CallbackEntry.restored name)).map CallbackEntry.station =
      entries.map CallbackEntry.station := by
  rw [List.map_map]
  rfl

/-- Two registries that differ in whether a callback of a phase has been removed, if at all. -/
structure CallbackRegistry.Alike (phase : Phase) (name : String) (r r' : CallbackRegistry H) :
    Prop where
  entries : (r.phase phase).entries.map (CallbackEntry.restored name) =
    (r'.phase phase).entries.map (CallbackEntry.restored name)
  duplicates : (r.phase phase).duplicates = (r'.phase phase).duplicates
  elsewhere : ∀ other, other ≠ phase → r.phase other = r'.phase other

namespace CallbackRegistry

variable {phase : Phase}

theorem Alike.stations (alike : Alike phase name r r') : r.stations phase = r'.stations phase := by
  rw [CallbackRegistry.stations, CallbackRegistry.stations, ← map_station_restored name,
    alike.entries, map_station_restored]

theorem Alike.any (alike : Alike phase name r r') (n : String) :
    ((r.phase phase).entries.any fun e => e.name = n) =
      (r'.phase phase).entries.any fun e => e.name = n := by
  rw [← any_map_restored name, alike.entries, any_map_restored]

theorem Alike.repeated (alike : Alike phase name r r') (c : RegistryCall H) :
    c.repeated (r.phase phase) = c.repeated (r'.phase phase) := by
  cases c with
  | register _ s handler =>
      rw [RegistryCall.repeated, RegistryCall.repeated, alike.duplicates, PhaseCallbacks.isKnown,
        PhaseCallbacks.isKnown, alike.any]
  | replace _ n handler => exact alike.duplicates
  | remove _ n => exact alike.duplicates

theorem Alike.edit (alike : Alike phase name r r') (c : RegistryCall H) :
    (c.edit (r.phase phase).entries).map (CallbackEntry.restored name) =
      (c.edit (r'.phase phase).entries).map (CallbackEntry.restored name) := by
  rw [← RegistryCall.map_restored_edit, alike.entries, RegistryCall.map_restored_edit]

theorem ext_phase (same : ∀ phase, r.phase phase = r'.phase phase) : r = r' := by
  obtain ⟨p⟩ := r
  obtain ⟨p'⟩ := r'
  exact congrArg mk (funext same)

theorem Alike.stations_edit (alike : Alike phase name r r') (c : RegistryCall H) :
    (c.edit (r.phase c.phase).entries).map CallbackEntry.station =
      (c.edit (r'.phase c.phase).entries).map CallbackEntry.station := by
  by_cases here : c.phase = phase
  · rw [here, ← map_station_restored name, alike.edit, map_station_restored]
  · rw [alike.elsewhere _ here]

theorem Alike.set (alike : Alike phase name r r') (c : RegistryCall H) (order : List String) :
    Alike phase name (r.set c.phase (c.result (r.phase c.phase) order))
      (r'.set c.phase (c.result (r'.phase c.phase) order)) := by
  by_cases here : c.phase = phase
  · subst here
    refine ⟨?_, ?_, fun other differs => ?_⟩
    · rw [phase_set, phase_set]
      exact alike.edit c
    · rw [phase_set, phase_set]
      exact alike.repeated c
    · rw [phase_set_of_ne _ differs, phase_set_of_ne _ differs, alike.elsewhere _ differs]
  · have here' : phase ≠ c.phase := fun same => here same.symm
    refine ⟨?_, ?_, fun other differs => ?_⟩
    · rw [phase_set_of_ne _ here', phase_set_of_ne _ here']
      exact alike.entries
    · rw [phase_set_of_ne _ here', phase_set_of_ne _ here']
      exact alike.duplicates
    · rw [alike.elsewhere _ here]
      by_cases called : other = c.phase
      · subst called
        rw [phase_set, phase_set]
      · rw [phase_set_of_ne _ called, phase_set_of_ne _ called, alike.elsewhere _ differs]

/-- Calls cannot tell whether a callback has been removed. -/
theorem Alike.after (alike : Alike phase name r r') (c : RegistryCall H) :
    Alike phase name (r.after c) (r'.after c) := by
  have same := alike.stations_edit c
  cases nameless : c.isNameless with
  | true =>
      rw [after_of_error (RegistryCall.make_of_nameless nameless),
        after_of_error (RegistryCall.make_of_nameless nameless)]
      exact alike
  | false =>
      cases ordered :
          orderStations ((c.edit (r.phase c.phase).entries).map CallbackEntry.station) with
      | error names =>
          rw [after_of_error (RegistryCall.make_of_unordered nameless ordered),
            after_of_error (RegistryCall.make_of_unordered nameless (same ▸ ordered))]
          exact alike
      | ok order =>
          rw [after_of_ok (RegistryCall.make_of_ordered nameless ordered),
            after_of_ok (RegistryCall.make_of_ordered nameless (same ▸ ordered))]
          exact alike.set c order

theorem Alike.run (alike : Alike phase name r r') (calls : List (RegistryCall H)) :
    Alike phase name (r.run calls) (r'.run calls) := by
  induction calls generalizing r r' with
  | nil => exact alike
  | cons c calls ih => exact ih (alike.after c)

/-- A registry in which a callback has been removed is like one in which it has not. -/
theorem alike_removed (settled : (r.phase phase).Settled) (name : String) :
    Alike phase name (r.after (.remove phase name)) r := by
  obtain ⟨order, -, -, made⟩ := remove_ok settled name
  rw [after_of_ok (c := .remove phase name) made]
  refine ⟨?_, ?_, fun other differs => phase_set_of_ne _ differs⟩
  · rw [phase_set, RegistryCall.result, RegistryCall.edit_remove, List.map_map]
    refine List.map_congr_left fun e _ => ?_
    show CallbackEntry.restored name (if e.name = name then _ else e) = e.restored name
    split
    · rename_i same
      simp [RegistryCall.alter, CallbackEntry.restored, CallbackEntry.name, same.symm]
    · rfl
  · rw [phase_set]
    rfl

theorem map_restored_of_unknown (unknown : (entries.any fun e => e.name = name) = false) :
    entries.map (CallbackEntry.restored name) = entries := by
  refine (List.map_congr_left fun e member => ?_).trans (List.map_id' _)
  have other : e.name ≠ name := by simpa using List.any_eq_false.mp unknown e member
  rw [CallbackEntry.restored, decide_eq_true other, Bool.and_true]

/-- Registries that differ in a callback that is not there are one. -/
theorem Alike.eq_of_unknown (alike : Alike phase name r r') (settled : (r.phase phase).Settled)
    (settled' : (r'.phase phase).Settled)
    (unknown : ((r.phase phase).entries.any fun e => e.name = name) = false) : r = r' := by
  have entries := alike.entries
  rw [map_restored_of_unknown unknown,
    map_restored_of_unknown ((alike.any name).symm.trans unknown)] at entries
  refine ext_phase fun other => ?_
  by_cases here : other = phase
  · rw [here]
    exact settled.eq settled' entries alike.duplicates
  · exact alike.elsewhere other here

/-- Once a callback is replaced, it plays no part any more whether it has been removed. -/
theorem Alike.replaced (alike : Alike phase name r r') (settled : (r.phase phase).Settled)
    (settled' : (r'.phase phase).Settled) (handler : H) :
    r.after (.replace phase name handler) = r'.after (.replace phase name handler) := by
  cases known : (r.phase phase).entries.any fun e => e.name = name with
  | false =>
      have same : r = r' := alike.eq_of_unknown settled settled' known
      rw [same]
  | true =>
      have known' := (alike.any name).symm.trans known
      obtain ⟨order, ordered, -, made⟩ := replace_ok settled handler known
      obtain ⟨order', ordered', -, made'⟩ := replace_ok settled' handler known'
      rw [alike.stations, ordered'] at ordered
      cases ordered
      have edited : (RegistryCall.replace phase name handler).edit (r.phase phase).entries =
          (RegistryCall.replace phase name handler).edit (r'.phase phase).entries := by
        rw [← RegistryCall.edit_restored (c := .replace phase name handler) known,
          ← RegistryCall.edit_restored (c := .replace phase name handler) known']
        exact congrArg _ alike.entries
      rw [after_of_ok (c := .replace phase name handler) made,
        after_of_ok (c := .replace phase name handler) made']
      refine ext_phase fun other => ?_
      by_cases here : other = phase
      · subst here
        rw [phase_set, phase_set, RegistryCall.result, RegistryCall.result, edited]
        exact congrArg (PhaseCallbacks.mk _ _) alike.duplicates
      · rw [phase_set_of_ne _ here, phase_set_of_ne _ here, alike.elsewhere _ here]

end CallbackRegistry

/-! ## What calls do -/

theorem PhaseCallbacks.Settled.mem_chain_iff (settled : p.Settled) {h : H} :
    (name, h) ∈ p.chain ↔
      ∃ e ∈ p.entries, e.name = name ∧ e.handler = h ∧ e.removed = false := by
  obtain ⟨order, ordered, chain⟩ := settled.ordered
  rw [chain]
  constructor
  · intro member
    obtain ⟨n, -, runs⟩ := List.mem_filterMap.mp member
    obtain ⟨rfl, found⟩ := (running?_eq_some_iff settled.distinct).mp runs
    exact found
  · rintro ⟨e, member, rfl, rfl, live⟩
    have distinct := settled.distinct
    rw [← map_name_station] at distinct
    refine mem_chainOf settled.distinct member live ?_
    rw [(isOrder_of_ok distinct ordered).all.mem_iff, map_name_station]
    exact List.mem_map_of_mem member

theorem CallbackRegistry.mem_names_iff {phase : Phase} (settled : (r.phase phase).Settled) :
    name ∈ r.names phase ↔ (r.phase phase).isLive name = true := by
  obtain ⟨order, ordered, chain⟩ := settled.ordered
  rw [PhaseCallbacks.isLive, List.any_eq_true, names, List.mem_map]
  constructor
  · rintro ⟨⟨name, h⟩, member, rfl⟩
    obtain ⟨e, entry, rfl, -, live⟩ := settled.mem_chain_iff.mp member
    exact ⟨e, entry, by simp [live]⟩
  · rintro ⟨e, entry, live⟩
    rw [Bool.and_eq_true, decide_eq_true_eq, Bool.not_eq_true'] at live
    exact ⟨(name, e.handler), settled.mem_chain_iff.mpr ⟨e, entry, live.1, rfl, live.2⟩, rfl⟩

theorem CallbackRegistry.mem_stations_iff {phase : Phase} :
    name ∈ (r.stations phase).map Station.name ↔
      ((r.phase phase).entries.any fun e => e.name = name) = true := by
  rw [stations, PhaseCallbacks.map_name_station, List.mem_map, List.any_eq_true]
  simp only [decide_eq_true_eq]

/-- A call that is refused has a blank name, or closes a circle. -/
theorem RegistryCall.refused_cases {e : RegistryError} (refused : c.make r = .error e)
    (distinct : ((r.phase c.phase).entries.map CallbackEntry.name).Nodup) :
    c.isNameless = true ∨ ∃ n, TransGen (MustPrecede
      ((c.edit (r.phase c.phase).entries).map CallbackEntry.station)) n n := by
  cases nameless : c.isNameless with
  | true => exact .inl rfl
  | false =>
      right
      by_contra none
      push Not at none
      have distinct' := nodup_edit (c := c) distinct
      rw [← PhaseCallbacks.map_name_station] at distinct'
      obtain ⟨order, ordered⟩ := (exists_order_iff distinct').mpr none
      rw [make_of_ordered nameless ordered] at refused
      cases refused

/-- Whatever calls a registry has come through, the names of each phase are different, and its chain
is the order of its entries without the removed ones. A call edits the entries of its own phase, or
it is refused, for a blank name or a circle, and leaves all as it was. Removing is never refused: it
takes the callback out of the chain. A callback that runs keeps its place when it is replaced, and
one that has been removed comes back to where it would stand if it had not been, whatever calls
have been made since. -/
theorem calls_exact (r : CallbackRegistry H) (reached : r.Reached) :
    (∀ phase, ((r.stations phase).map Station.name).Nodup ∧
      ∃ order, orderStations (r.stations phase) = .ok order ∧
        r.names phase = order.filter (r.phase phase).isLive ∧
        ∀ name h, (name, h) ∈ r.chain phase ↔ ∃ e ∈ (r.phase phase).entries,
          e.name = name ∧ e.handler = h ∧ e.removed = false) ∧
    (∀ c r', c.make r = .ok r' → r.after c = r' ∧
      (r'.phase c.phase).entries = c.edit (r.phase c.phase).entries ∧
      (r'.phase c.phase).duplicates = c.repeated (r.phase c.phase) ∧
      ∀ phase, phase ≠ c.phase → r'.phase phase = r.phase phase) ∧
    (∀ c e, c.make r = .error e → r.after c = r ∧ (c.isNameless = true ∨ ∃ n, TransGen
      (MustPrecede ((c.edit (r.phase c.phase).entries).map CallbackEntry.station)) n n)) ∧
    (∀ phase name, ∃ r', r.remove phase name = .ok r' ∧ r'.stations phase = r.stations phase ∧
      r'.chain phase = (r.chain phase).filter fun x => x.1 ≠ name) ∧
    (∀ phase name h, name ∈ r.names phase →
      ∃ r', r.replace phase name h = .ok r' ∧ r'.stations phase = r.stations phase ∧
        r'.chain phase = (r.chain phase).map fun x => if x.1 = name then (name, h) else x) ∧
    (∀ phase name h, name ∈ (r.stations phase).map Station.name → name ∉ r.names phase →
      ∃ r', r.replace phase name h = .ok r' ∧ r'.stations phase = r.stations phase ∧
        (name, h) ∈ r'.chain phase ∧
        (r'.chain phase).filter (fun x => x.1 ≠ name) = r.chain phase) ∧
    ∀ phase name h calls,
      ((r.after (.remove phase name)).run calls).after (.replace phase name h) =
        (r.run calls).after (.replace phase name h) := by
  have settled := reached.settled
  refine ⟨fun phase => ?_, fun c r' made => ?_, fun c e refused => ?_, fun phase name => ?_,
    fun phase name h live => ?_, fun phase name h known removed => ?_,
    fun phase name h calls => ?_⟩
  · obtain ⟨order, ordered, chain⟩ := (settled phase).ordered
    refine ⟨?_, order, ordered, ?_, fun name h => (settled phase).mem_chain_iff⟩
    · rw [CallbackRegistry.stations, PhaseCallbacks.map_name_station]
      exact (settled phase).distinct
    · rw [CallbackRegistry.names, CallbackRegistry.chain, chain,
        PhaseCallbacks.names_chainOf (settled phase).distinct]
  · obtain ⟨-, order, -, rfl⟩ := RegistryCall.exists_of_make_eq_ok made
    refine ⟨CallbackRegistry.after_of_ok made, ?_, ?_, fun phase other =>
      CallbackRegistry.phase_set_of_ne _ other⟩
    · rw [CallbackRegistry.phase_set]
      rfl
    · rw [CallbackRegistry.phase_set]
      rfl
  · exact ⟨CallbackRegistry.after_of_error refused,
      RegistryCall.refused_cases refused (settled c.phase).distinct⟩
  · exact CallbackRegistry.exists_removed (settled phase) name
  · rw [CallbackRegistry.mem_names_iff (settled phase)] at live
    exact CallbackRegistry.exists_replaced (settled phase) h live
  · rw [CallbackRegistry.mem_stations_iff] at known
    rw [CallbackRegistry.mem_names_iff (settled phase), Bool.not_eq_true] at removed
    exact CallbackRegistry.exists_returned (settled phase) h known removed
  · have alike := (CallbackRegistry.alike_removed (settled phase) name).run calls
    have left := CallbackRegistry.settled_after settled (.remove phase name)
    exact alike.replaced (CallbackRegistry.settled_run left calls phase)
      (CallbackRegistry.settled_run settled calls phase) h

end Calls

/-- The redaction of secrets is removed, then a callback asks to run behind it. -/
def Notebook.unredacted : CallbackRegistry Nat :=
  ((CallbackRegistry.withBuiltins fun _ => 9).after (.remove .query "adminkit:redact_secrets")).run
    [.register .query ⟨"app:count", none, some "adminkit:redact_secrets"⟩ 1]

open Notebook in
/-- The redaction is gone, and comes back to its place with another handler. -/
theorem redaction_returns :
    unredacted.names .query = ["adminkit:compile_filter", "adminkit:inject_scope",
      "adminkit:exclude_deleted", "adminkit:query", "adminkit:after_find", "app:count",
      "adminkit:audit"] ∧
    (unredacted.after (.replace .query "adminkit:redact_secrets" 2)).names .query =
      ["adminkit:compile_filter", "adminkit:inject_scope", "adminkit:exclude_deleted",
        "adminkit:query", "adminkit:after_find", "adminkit:redact_secrets", "app:count",
        "adminkit:audit"] := by
  obtain ⟨-, -, -, -, -, -, forgets⟩ :=
    calls_exact (CallbackRegistry.withBuiltins fun _ => 9) (.builtin _)
  refine ⟨by decide +kernel, ?_⟩
  rw [unredacted, forgets]
  decide +kernel

end ScopedAccess
