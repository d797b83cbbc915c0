import ScopedAccess.Proofs.Filter.Bounds
import ScopedAccess.Proofs.Sql.Lowering
/-!
# What merging bounds makes of a list

`Merges` says what stands in a merged list, place by place, without a count of bounds and without a
list of the columns that are done. A bound of a column that has exactly one on each side (`Paired`)
gives way: the range stands where the first of the two was, and nothing where the second was. Every
other predicate stays where it is.

`mergeFrom` keeps the columns whose range it has put out. These are the columns with a bound among
the predicates that it has passed, so far as the columns have a range at all (`Passed`). One step
takes in one predicate and puts out what stands for it (`mergeFrom_step`), so that all steps make
what stands for the list (`merges_mergeFrom`), of which there is one only (`Merges.unique`).

A merged list has no bounds of columns with a range (`unranged_of_mem_mergeFrom`) and all bounds of
the others (`filterMap_mergeFrom`), so that there is nothing to merge in it.

* `mergeBounds_exact`: a merged list asks for the same, is the only list that stands place by place
  for the list merged, and is not changed by merging.
-/

namespace ScopedAccess

set_option autoImplicit false

variable {ps before rest merged : List Predicate} {p : Predicate} {c : Column}
  {lower upper : Bound}

/-! ## Pairs of bounds -/

namespace Predicate

variable {b : Bound}

theorem lowerOn?_eq_some_iff :
    p.lowerOn? c = some b ↔ p = .compare c b.lowerComparison b.value := by
  refine ⟨eq_compare_of_lowerOn?, ?_⟩
  rintro rfl
  obtain ⟨value, _ | _⟩ := b <;>
    simp [lowerOn?, Bound.lowerComparison, Comparison.isLower, Comparison.isInclusive]

theorem upperOn?_eq_some_iff :
    p.upperOn? c = some b ↔ p = .compare c b.upperComparison b.value := by
  refine ⟨eq_compare_of_upperOn?, ?_⟩
  rintro rfl
  obtain ⟨value, _ | _⟩ := b <;>
    simp [upperOn?, Bound.upperComparison, Comparison.isUpper, Comparison.isInclusive]

/-- Whether a predicate bounds a column, on either side. -/
def Bounds (p : Predicate) (c : Column) : Prop :=
  ∃ b : Bound, p = .compare c b.lowerComparison b.value ∨ p = .compare c b.upperComparison b.value

theorem boundColumn?_eq_some_iff : p.boundColumn? = some c ↔ p.Bounds c := by
  constructor
  · intro bounded
    rcases bound_of_boundColumn? bounded with ⟨b, below⟩ | ⟨b, above⟩
    · exact ⟨b, .inl (eq_compare_of_lowerOn? below)⟩
    · exact ⟨b, .inr (eq_compare_of_upperOn? above)⟩
  · rintro ⟨⟨value, _ | _⟩, rfl | rfl⟩ <;> rfl

theorem Bounds.column_eq {c' : Column} (bounds : p.Bounds c) (bounds' : p.Bounds c') : c = c' :=
  Option.some.inj
    ((boundColumn?_eq_some_iff.mpr bounds).symm.trans (boundColumn?_eq_some_iff.mpr bounds'))

end Predicate

/-- A list has one bound of a column on a side, and no second. -/
def HasOne (side : Bound → Comparison) (ps : List Predicate) (c : Column) (b : Bound) : Prop :=
  ∃ front back, ps = front ++ .compare c (side b) b.value :: back ∧
    ∀ b' : Bound, .compare c (side b') b'.value ∉ front ++ back

/-- A list has one bound of a column from below and one from above. -/
structure Paired (ps : List Predicate) (c : Column) (lower upper : Bound) : Prop where
  below : HasOne Bound.lowerComparison ps c lower
  above : HasOne Bound.upperComparison ps c upper

/-- Looking for the bounds on a side finds one where there is one. -/
theorem filterMap_eq_singleton_iff {side : Bound → Comparison}
    {boundOn? : Predicate → Option Bound} {b : Bound}
    (finds : ∀ p b, boundOn? p = some b ↔ p = .compare c (side b) b.value) :
    ps.filterMap boundOn? = [b] ↔ HasOne side ps c b := by
  have none_iff : ∀ l : List Predicate, (∀ p ∈ l, boundOn? p = none) ↔
      ∀ b' : Bound, .compare c (side b') b'.value ∉ l := by
    intro l
    simp only [Option.eq_none_iff_forall_ne_some, ne_eq, finds]
    exact ⟨fun free b' member => free _ member b' rfl,
      fun free p member b' same => free b' (same ▸ member)⟩
  rw [List.filterMap_eq_cons_iff]
  constructor
  · rintro ⟨front, p, back, rfl, before, found, behind⟩
    rw [(finds p b).mp found]
    refine ⟨front, back, rfl, (none_iff _).mp ?_⟩
    exact List.forall_mem_append.mpr ⟨before, List.filterMap_eq_nil_iff.mp behind⟩
  · rintro ⟨front, back, rfl, alone⟩
    obtain ⟨before, behind⟩ := List.forall_mem_append.mp ((none_iff _).mpr alone)
    exact ⟨front, _, back, rfl, before, (finds _ b).mpr rfl, List.filterMap_eq_nil_iff.mpr behind⟩

/-- The columns that have a range are those with a pair of bounds. -/
theorem rangeOn?_eq_some_iff : rangeOn? ps c = some (lower, upper) ↔ Paired ps c lower upper := by
  have below : ps.filterMap (·.lowerOn? c) = [lower] ↔ HasOne Bound.lowerComparison ps c lower :=
    filterMap_eq_singleton_iff fun _ _ => Predicate.lowerOn?_eq_some_iff
  have above : ps.filterMap (·.upperOn? c) = [upper] ↔ HasOne Bound.upperComparison ps c upper :=
    filterMap_eq_singleton_iff fun _ _ => Predicate.upperOn?_eq_some_iff
  constructor
  · intro range
    obtain ⟨lowers, uppers⟩ := rangeOn?_eq_some range
    exact ⟨below.mp lowers, above.mp uppers⟩
  · rintro ⟨lowers, uppers⟩
    rw [rangeOn?, below.mpr lowers, above.mpr uppers]

theorem Paired.unique {lower' upper' : Bound} (paired : Paired ps c lower upper)
    (paired' : Paired ps c lower' upper') : lower = lower' ∧ upper = upper' := by
  have same := (rangeOn?_eq_some_iff.mpr paired).symm.trans (rangeOn?_eq_some_iff.mpr paired')
  rwa [Option.some.injEq, Prod.mk.injEq] at same

/-! ## Place by place -/

/-- What stands in a merged list for a predicate of a list `ps` that has these before it. -/
inductive StandsFor (ps before : List Predicate) (p : Predicate) : List Predicate → Prop
  /-- A predicate stays that does not bound a column with a pair of bounds. -/
  | kept (unpaired : ∀ c lower upper, p.Bounds c → ¬ Paired ps c lower upper) :
      StandsFor ps before p [p]
  /-- The range stands for the first bound of a pair. -/
  | first {c : Column} {lower upper : Bound} (bounds : p.Bounds c)
      (paired : Paired ps c lower upper) (fresh : ∀ q ∈ before, ¬ q.Bounds c) :
      StandsFor ps before p [.between c lower upper]
  /-- Nothing stands for the second bound of a pair. -/
  | second {c : Column} {lower upper : Bound} (bounds : p.Bounds c)
      (paired : Paired ps c lower upper) (earlier : ∃ q ∈ before, q.Bounds c) :
      StandsFor ps before p []

theorem StandsFor.unique {part part' : List Predicate} (stands : StandsFor ps before p part)
    (stands' : StandsFor ps before p part') : part = part' := by
  -- Pairs of bounds are of one column, so that it is the same that is fresh or not.
  rcases stands with unpaired | ⟨bounds, paired, fresh⟩ | ⟨bounds, paired, q, member, earlier⟩ <;>
    rcases stands' with unpaired' | ⟨bounds', paired', fresh'⟩ |
      ⟨bounds', paired', q', member', earlier'⟩
  · rfl
  · exact absurd paired' (unpaired _ _ _ bounds')
  · exact absurd paired' (unpaired _ _ _ bounds')
  · exact absurd paired (unpaired' _ _ _ bounds)
  · obtain rfl := bounds.column_eq bounds'
    obtain ⟨rfl, rfl⟩ := paired.unique paired'
    rfl
  · exact absurd (bounds'.column_eq bounds ▸ earlier') (fresh q' member')
  · exact absurd paired (unpaired' _ _ _ bounds)
  · exact absurd (bounds.column_eq bounds' ▸ earlier) (fresh' q member)
  · rfl

/-- What is made of the rest of a list `ps` behind some of its predicates: what stands for each
predicate, in their order. -/
inductive Merges (ps : List Predicate) : (before rest merged : List Predicate) → Prop
  | nil {before : List Predicate} : Merges ps before [] []
  | cons {before rest part merged : List Predicate} {p : Predicate}
      (stands : StandsFor ps before p part) (later : Merges ps (before ++ [p]) rest merged) :
      Merges ps before (p :: rest) (part ++ merged)

theorem Merges.unique {merged' : List Predicate} (merges : Merges ps before rest merged)
    (merges' : Merges ps before rest merged') : merged = merged' := by
  induction merges generalizing merged' with
  | nil =>
      cases merges'
      rfl
  | cons stands _ ih =>
      cases merges' with
      | cons stands' later' => rw [stands.unique stands', ih later']

/-- The columns that are done are those with a bound among the predicates passed, as far as they
have a pair of bounds. -/
def Passed (ps before : List Predicate) (done : List Column) : Prop :=
  ∀ c lower upper, Paired ps c lower upper → (c ∈ done ↔ ∃ q ∈ before, q.Bounds c)

theorem exists_bound_concat : (∃ q ∈ before ++ [p], q.Bounds c) ↔
    (∃ q ∈ before, q.Bounds c) ∨ p.Bounds c := by
  simp only [List.mem_append, List.mem_singleton, or_and_right, exists_or, exists_eq_left]

theorem Passed.unpaired {done : List Column} (passed : Passed ps before done)
    (unpaired : ∀ c lower upper, p.Bounds c → ¬ Paired ps c lower upper) :
    Passed ps (before ++ [p]) done := by
  intro c lower upper paired
  rw [exists_bound_concat, passed c lower upper paired,
    or_iff_left fun bounds => unpaired c lower upper bounds paired]

theorem Passed.bound {done : List Column} (passed : Passed ps before done) (bounds : p.Bounds c) :
    Passed ps (before ++ [p]) (c :: done) := by
  intro c' lower upper paired
  have column : p.Bounds c' ↔ c' = c :=
    ⟨fun bounds' => bounds'.column_eq bounds, fun same => same ▸ bounds⟩
  rw [exists_bound_concat, column, List.mem_cons, passed c' lower upper paired, or_comm]

/-- One step takes in a predicate and puts out what stands for it. -/
theorem mergeFrom_step {done : List Column} (passed : Passed ps before done) (p : Predicate)
    (rest : List Predicate) : ∃ part done', StandsFor ps before p part ∧
      Passed ps (before ++ [p]) done' ∧
      mergeFrom (rangeOn? ps) done (p :: rest) = part ++ mergeFrom (rangeOn? ps) done' rest := by
  cases range : p.boundColumn?.bind (rangeOn? ps) with
  | none =>
      have unpaired : ∀ c lower upper, p.Bounds c → ¬ Paired ps c lower upper := by
        intro c lower upper bounds paired
        rw [Predicate.boundColumn?_eq_some_iff.mpr bounds, Option.bind_some,
          rangeOn?_eq_some_iff.mpr paired] at range
        cases range
      exact ⟨[p], done, .kept unpaired, passed.unpaired unpaired, mergeFrom_cons_kept range⟩
  | some pair =>
      obtain ⟨lower, upper⟩ := pair
      obtain ⟨c, bounded, ranged⟩ := Option.bind_eq_some_iff.mp range
      have bounds := Predicate.boundColumn?_eq_some_iff.mp bounded
      have paired := rangeOn?_eq_some_iff.mp ranged
      have done_iff := passed c lower upper paired
      rw [mergeFrom_cons_ranged bounded ranged]
      by_cases known : c ∈ done
      · refine ⟨[], done, .second bounds paired (done_iff.mp known), ?_, if_pos known⟩
        intro c' lower' upper' paired'
        rw [← passed.bound bounds c' lower' upper' paired', List.mem_cons,
          or_iff_right_of_imp fun same => same ▸ known]
      · have fresh : ∀ q ∈ before, ¬ q.Bounds c :=
          fun q member bounds' => known (done_iff.mpr ⟨q, member, bounds'⟩)
        exact ⟨[.between c lower upper], c :: done, .first bounds paired fresh,
          passed.bound bounds, if_neg known⟩

/-- Merging makes of the rest of a list what stands for it. -/
theorem merges_mergeFrom {done : List Column} (passed : Passed ps before done) :
    Merges ps before rest (mergeFrom (rangeOn? ps) done rest) := by
  induction rest generalizing before done with
  | nil => exact .nil
  | cons p rest ih =>
      obtain ⟨part, done', stands, passed', step⟩ := mergeFrom_step passed p rest
      rw [step]
      exact .cons stands (ih passed')

theorem merges_iff : Merges ps [] ps merged ↔ merged = mergeBounds ps := by
  have merges : Merges ps [] ps (mergeBounds ps) := merges_mergeFrom fun c lower upper _ => by
    simp only [List.not_mem_nil, false_and, exists_false]
  constructor
  · exact fun merges' => merges'.unique merges
  · rintro rfl
    exact merges

/-! ## Merging again -/

section Again

variable {range? : Column → Option (Bound × Bound)} {done : List Column}

/-- A merged list has no bounds of the columns that have a range. -/
theorem unranged_of_mem_mergeFrom (member : p ∈ mergeFrom range? done ps) :
    p.boundColumn?.bind range? = none := by
  induction ps generalizing done with
  | nil => cases member
  | cons first rest ih =>
      cases range : first.boundColumn?.bind range? with
      | none =>
          rw [mergeFrom_cons_kept range] at member
          rcases List.mem_cons.mp member with rfl | later
          · exact range
          · exact ih later
      | some pair =>
          obtain ⟨c, bounded, ranged⟩ := Option.bind_eq_some_iff.mp range
          rw [mergeFrom_cons_ranged bounded ranged] at member
          split at member
          · exact ih member
          · rcases List.mem_cons.mp member with rfl | later
            · rfl
            · exact ih later

/-- A merged list has all bounds of a column that has no range. -/
theorem filterMap_mergeFrom {α : Type} {shown : Predicate → Option α} (unranged : range? c = none)
    (bounds : ∀ p a, shown p = some a → p.Bounds c) :
    (mergeFrom range? done ps).filterMap shown = ps.filterMap shown := by
  have hidden : ∀ p, ¬ p.Bounds c → shown p = none := fun p free =>
    Option.eq_none_iff_forall_ne_some.mpr fun a found => free (bounds p a found)
  induction ps generalizing done with
  | nil => rfl
  | cons p rest ih =>
      cases range : p.boundColumn?.bind range? with
      | none => rw [mergeFrom_cons_kept range, List.filterMap_cons, List.filterMap_cons, ih]
      | some pair =>
          obtain ⟨c', bounded, ranged⟩ := Option.bind_eq_some_iff.mp range
          have other : shown p = none := by
            refine hidden p fun bounds' => ?_
            rw [(Predicate.boundColumn?_eq_some_iff.mp bounded).column_eq bounds',
              unranged] at ranged
            cases ranged
          rw [mergeFrom_cons_ranged bounded ranged, List.filterMap_cons_none other]
          split
          · exact ih
          · rw [List.filterMap_cons_none, ih]
            refine hidden _ ?_
            rintro ⟨_, same | same⟩ <;> cases same

theorem mergeFrom_eq_self (free : ∀ p ∈ ps, p.boundColumn?.bind range? = none) :
    mergeFrom range? done ps = ps := by
  induction ps with
  | nil => rfl
  | cons p rest ih =>
      rw [mergeFrom_cons_kept (free p List.mem_cons_self),
        ih fun q member => free q (List.mem_cons_of_mem p member)]

end Again

/-- A column without a range has none in the merged list either. -/
theorem rangeOn?_mergeBounds (unranged : rangeOn? ps c = none) :
    rangeOn? (mergeBounds ps) c = none := by
  have lowers : (mergeBounds ps).filterMap (·.lowerOn? c) = ps.filterMap (·.lowerOn? c) :=
    filterMap_mergeFrom unranged fun p b found => ⟨b, .inl (Predicate.eq_compare_of_lowerOn? found)⟩
  have uppers : (mergeBounds ps).filterMap (·.upperOn? c) = ps.filterMap (·.upperOn? c) :=
    filterMap_mergeFrom unranged fun p b found => ⟨b, .inr (Predicate.eq_compare_of_upperOn? found)⟩
  rw [rangeOn?, lowers, uppers]
  exact unranged

theorem mergeBounds_mergeBounds : mergeBounds (mergeBounds ps) = mergeBounds ps := by
  refine mergeFrom_eq_self fun p member => Option.bind_eq_none_iff.mpr fun c bounded => ?_
  have unranged := unranged_of_mem_mergeFrom member
  rw [bounded, Option.bind_some] at unranged
  exact rangeOn?_mergeBounds unranged

/-! ## What a merged list asks for -/

namespace Truth

variable {test : Truth → Bool}

/-- A test that a conjunction passes where both sides do. -/
structure IsConjunctive (test : Truth → Bool) : Prop where
  yes : test .yes = true
  and : ∀ s t : Truth, test (s.and t) = (test s && test t)

theorem IsConjunctive.all (conjunctive : IsConjunctive test) (ts : List Truth) :
    test (.all ts) = ts.all test := by
  induction ts with
  | nil => exact conjunctive.yes
  | cons t rest ih => rw [all_cons, conjunctive.and, ih, List.all_cons]

theorem isConjunctive_isYes : IsConjunctive isYes := ⟨rfl, isYes_and⟩

theorem isConjunctive_ne_no : IsConjunctive (· != no) :=
  ⟨rfl, fun s t => by cases s <;> cases t <;> rfl⟩

/-- Truth values that pass the same conjunctive tests are the same. -/
theorem eq_of_conjunctive {s t : Truth}
    (same : ∀ test : Truth → Bool, IsConjunctive test → test s = test t) : s = t := by
  have yes := same _ isConjunctive_isYes
  have no := same _ isConjunctive_ne_no
  revert yes no
  cases s <;> cases t <;> decide

end Truth

theorem splitsRanges_evaluate {test : Truth → Bool} (conjunctive : Truth.IsConjunctive test)
    (db : Database) (view : List BoundRow) :
    SplitsRanges fun p => test (p.evaluate db view) := by
  intro c lower upper
  simp only [Predicate.evaluate]
  exact conjunctive.and _ _

/-- The conjunction of a merged list has the truth value of that of the list. -/
theorem evaluate_mergeBounds (db : Database) (view : List BoundRow) :
    (Predicate.conj (mergeBounds ps)).evaluate db view =
      (Predicate.conj ps).evaluate db view := by
  refine Truth.eq_of_conjunctive fun test conjunctive => ?_
  rw [Predicate.evaluate_conj, Predicate.evaluate_conj, conjunctive.all, conjunctive.all,
    List.all_map, List.all_map]
  exact mergeBounds_all (splitsRanges_evaluate conjunctive db view) ps

/-- What merging makes of a list. Its conjunction has the same truth value on all rows, so that the
same rows pass. In the place of every predicate stands the predicate itself, unless it bounds a
column that has exactly one bound on each side: the range of the two, with their values and each
inclusive if it was, stands in the place of the first of them, and nothing in that of the second.
Merging again changes nothing. -/
theorem mergeBounds_exact (ps : List Predicate) :
    (∀ db view, (Predicate.conj (mergeBounds ps)).evaluate db view =
      (Predicate.conj ps).evaluate db view) ∧
    (∀ merged, Merges ps [] ps merged ↔ merged = mergeBounds ps) ∧
    mergeBounds (mergeBounds ps) = mergeBounds ps :=
  ⟨evaluate_mergeBounds, fun _ => merges_iff, mergeBounds_mergeBounds⟩

/-- Bounds of two columns in between each other: one column has its range where its upper bound was,
the other has two lower bounds and keeps all three. -/
example :
    let size : Column := ⟨"notes", "size"⟩
    let age : Column := ⟨"notes", "age"⟩
    mergeBounds [.compare size .gt (.int 1), .compare age .lt (.int 65),
      .compare size .lt (.int 9), .compare age .ge (.int 18), .compare size .ge (.int 2)] =
    [.compare size .gt (.int 1), .between age ⟨.int 18, true⟩ ⟨.int 65, false⟩,
      .compare size .lt (.int 9), .compare size .ge (.int 2)] := rfl

end ScopedAccess
