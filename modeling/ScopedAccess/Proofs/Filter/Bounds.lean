import ScopedAccess.Filter.Operators
/-!
# Merging bounds keeps what is asked for

A list of predicates that all have to hold asks for the same before and after
`mergeBounds`. Nothing here depends on how predicates are read: any test will do
that takes a range for its two bounds (`SplitsRanges`).

The argument goes through the members of the merged list. A predicate is kept unless
its column has a range (`mem_mergeFrom_of_kept`), and a range stands in the list for
every column that has one and is bounded there (`between_mem_mergeFrom`). Such a
column has one bound of each kind, so the bounds that were taken out are the two that
the range is made of (`compare_of_range`).

* `mergeBounds_all`: a merged list passes exactly where the list does.
-/

namespace ScopedAccess

set_option autoImplicit false

/-- A test of predicates takes a range for its two bounds. -/
def SplitsRanges (test : Predicate → Bool) : Prop :=
  ∀ (c : Column) (lower upper : Bound),
    test (.between c lower upper) =
      (test (.compare c lower.lowerComparison lower.value) &&
        test (.compare c upper.upperComparison upper.value))

namespace Predicate

/-- The bound of a column from below says what the predicate is. -/
theorem eq_compare_of_lowerOn? {p : Predicate} {c : Column} {b : Bound}
    (bounds : p.lowerOn? c = some b) : p = .compare c b.lowerComparison b.value := by
  cases p with
  | compare c' op value =>
      simp only [lowerOn?, Option.ite_none_right_eq_some, Option.some.injEq] at bounds
      obtain ⟨⟨rfl, lower⟩, rfl⟩ := bounds
      cases op with
      | gt | ge => rfl
      | _ => simp [Comparison.isLower] at lower
  | _ => simp [lowerOn?] at bounds

theorem eq_compare_of_upperOn? {p : Predicate} {c : Column} {b : Bound}
    (bounds : p.upperOn? c = some b) : p = .compare c b.upperComparison b.value := by
  cases p with
  | compare c' op value =>
      simp only [upperOn?, Option.ite_none_right_eq_some, Option.some.injEq] at bounds
      obtain ⟨⟨rfl, upper⟩, rfl⟩ := bounds
      cases op with
      | lt | le => rfl
      | _ => simp [Comparison.isUpper] at upper
  | _ => simp [upperOn?] at bounds

/-- A column is bounded from below or from above. -/
theorem bound_of_boundColumn? {p : Predicate} {c : Column} (bounded : p.boundColumn? = some c) :
    (∃ b, p.lowerOn? c = some b) ∨ ∃ b, p.upperOn? c = some b := by
  cases p with
  | compare c' op value =>
      simp only [boundColumn?, Option.ite_none_right_eq_some, Option.some.injEq] at bounded
      obtain ⟨side, rfl⟩ := bounded
      cases lower : op.isLower with
      | true => exact .inl ⟨⟨value, op.isInclusive⟩, by simp [lowerOn?, lower]⟩
      | false =>
          have upper : op.isUpper = true := by simpa [lower] using side
          exact .inr ⟨⟨value, op.isInclusive⟩, by simp [upperOn?, upper]⟩
  | _ => simp [boundColumn?] at bounded

end Predicate

theorem rangeOn?_eq_some {ps : List Predicate} {c : Column} {lower upper : Bound}
    (range : rangeOn? ps c = some (lower, upper)) :
    ps.filterMap (·.lowerOn? c) = [lower] ∧ ps.filterMap (·.upperOn? c) = [upper] := by
  unfold rangeOn? at range
  split at range
  · rename_i hl hu
    simp only [Option.some.injEq, Prod.mk.injEq] at range
    exact ⟨by rw [hl, range.1], by rw [hu, range.2]⟩
  · simp at range

section Merging

variable {range? : Column → Option (Bound × Bound)} {done : List Column} {ps : List Predicate}
  {p : Predicate} {c : Column} {lower upper : Bound}

theorem mergeFrom_cons_kept (free : p.boundColumn?.bind range? = none) :
    mergeFrom range? done (p :: ps) = p :: mergeFrom range? done ps := by
  rw [mergeFrom]
  cases bounded : p.boundColumn? with
  | none => rfl
  | some c =>
      have unranged : range? c = none := by simpa [bounded] using free
      simp [unranged]

theorem mergeFrom_cons_ranged (bounded : p.boundColumn? = some c)
    (range : range? c = some (lower, upper)) :
    mergeFrom range? done (p :: ps) =
      if c ∈ done then mergeFrom range? done ps
      else .between c lower upper :: mergeFrom range? (c :: done) ps := by
  rw [mergeFrom]
  simp [bounded, range]

/-- What is in a merged list was in the list, or is a range. -/
theorem mem_of_mem_mergeFrom {q : Predicate} (member : q ∈ mergeFrom range? done ps) :
    q ∈ ps ∨ ∃ c lower upper, q = .between c lower upper ∧ range? c = some (lower, upper) := by
  induction ps generalizing done with
  | nil => simp [mergeFrom] at member
  | cons p rest ih =>
      cases free : p.boundColumn?.bind range? with
      | none =>
          rw [mergeFrom_cons_kept free, List.mem_cons] at member
          rcases member with rfl | member
          · exact .inl (.head _)
          · exact (ih member).imp_left (.tail _)
      | some bounds =>
          obtain ⟨c, bounded, range⟩ := Option.bind_eq_some_iff.mp free
          rw [mergeFrom_cons_ranged bounded range] at member
          split at member
          · exact (ih member).imp_left (.tail _)
          · rcases List.mem_cons.mp member with rfl | member
            · exact .inr ⟨c, _, _, rfl, range⟩
            · exact (ih member).imp_left (.tail _)

/-- A predicate whose column has no range is kept. -/
theorem mem_mergeFrom_of_kept (member : p ∈ ps) (free : p.boundColumn?.bind range? = none) :
    p ∈ mergeFrom range? done ps := by
  induction ps generalizing done with
  | nil => simp at member
  | cons first rest ih =>
      cases freeFirst : first.boundColumn?.bind range? with
      | none =>
          rw [mergeFrom_cons_kept freeFirst]
          rcases List.mem_cons.mp member with rfl | member
          · exact .head _
          · exact .tail _ (ih member)
      | some bounds =>
          obtain ⟨c, bounded, range⟩ := Option.bind_eq_some_iff.mp freeFirst
          have later : p ∈ rest := by
            rcases List.mem_cons.mp member with rfl | member
            · simp [free] at freeFirst
            · exact member
          rw [mergeFrom_cons_ranged bounded range]
          split
          · exact ih later
          · exact .tail _ (ih later)

/-- The range of a bounded column is put out, unless it has been already. -/
theorem between_mem_mergeFrom (member : p ∈ ps) (bounded : p.boundColumn? = some c)
    (range : range? c = some (lower, upper)) (fresh : c ∉ done) :
    .between c lower upper ∈ mergeFrom range? done ps := by
  induction ps generalizing done with
  | nil => simp at member
  | cons first rest ih =>
      cases freeFirst : first.boundColumn?.bind range? with
      | none =>
          rw [mergeFrom_cons_kept freeFirst]
          rcases List.mem_cons.mp member with rfl | member
          · simp [bounded, range] at freeFirst
          · exact .tail _ (ih member fresh)
      | some bounds =>
          obtain ⟨c', bounded', range'⟩ := Option.bind_eq_some_iff.mp freeFirst
          rw [mergeFrom_cons_ranged bounded' range']
          by_cases same : c' = c
          · subst same
            rw [range, Option.some.injEq] at range'
            rw [if_neg fresh, ← range']
            exact .head _
          · have later : p ∈ rest := by
              rcases List.mem_cons.mp member with rfl | member
              · exact absurd (Option.some.inj (bounded'.symm.trans bounded)) same
              · exact member
            split
            · exact ih later fresh
            · exact .tail _ (ih later (by simpa [Ne.symm same] using fresh))

end Merging

/-- A bound that its list has no second of is the one that the range is made of. -/
theorem compare_of_range {ps : List Predicate} {p : Predicate} {c : Column} {lower upper : Bound}
    (range : rangeOn? ps c = some (lower, upper)) (member : p ∈ ps)
    (bounded : p.boundColumn? = some c) :
    p = .compare c lower.lowerComparison lower.value ∨
      p = .compare c upper.upperComparison upper.value := by
  obtain ⟨lowers, uppers⟩ := rangeOn?_eq_some range
  rcases Predicate.bound_of_boundColumn? bounded with ⟨b, hb⟩ | ⟨b, hb⟩
  · have only : b ∈ [lower] := lowers ▸ List.mem_filterMap.mpr ⟨p, member, hb⟩
    rw [← List.mem_singleton.mp only]
    exact .inl (Predicate.eq_compare_of_lowerOn? hb)
  · have only : b ∈ [upper] := uppers ▸ List.mem_filterMap.mpr ⟨p, member, hb⟩
    rw [← List.mem_singleton.mp only]
    exact .inr (Predicate.eq_compare_of_upperOn? hb)

/-- The bounds that a range is made of are in the list. -/
theorem bounds_mem_of_range {ps : List Predicate} {c : Column} {lower upper : Bound}
    (range : rangeOn? ps c = some (lower, upper)) :
    .compare c lower.lowerComparison lower.value ∈ ps ∧
      .compare c upper.upperComparison upper.value ∈ ps := by
  obtain ⟨lowers, uppers⟩ := rangeOn?_eq_some range
  have below : lower ∈ ps.filterMap (·.lowerOn? c) := lowers ▸ List.mem_singleton.mpr rfl
  have above : upper ∈ ps.filterMap (·.upperOn? c) := uppers ▸ List.mem_singleton.mpr rfl
  obtain ⟨p, hp, lowerBound⟩ := List.mem_filterMap.mp below
  obtain ⟨q, hq, upperBound⟩ := List.mem_filterMap.mp above
  exact ⟨Predicate.eq_compare_of_lowerOn? lowerBound ▸ hp,
    Predicate.eq_compare_of_upperOn? upperBound ▸ hq⟩

/-- A merged list passes exactly where the list does. -/
theorem mergeBounds_all {test : Predicate → Bool} (splits : SplitsRanges test)
    (ps : List Predicate) : (mergeBounds ps).all test = ps.all test := by
  rw [Bool.eq_iff_iff, List.all_eq_true, List.all_eq_true]
  constructor
  · intro merged p member
    cases hr : p.boundColumn?.bind (rangeOn? ps) with
    | none => exact merged p (mem_mergeFrom_of_kept member hr)
    | some bounds =>
        obtain ⟨lower, upper⟩ := bounds
        obtain ⟨c, bounded, range⟩ := Option.bind_eq_some_iff.mp hr
        have both := merged (.between c lower upper)
          (between_mem_mergeFrom member bounded range List.not_mem_nil)
        rw [splits, Bool.and_eq_true] at both
        rcases compare_of_range range member bounded with rfl | rfl
        · exact both.1
        · exact both.2
  · intro all q member
    rcases mem_of_mem_mergeFrom member with kept | ⟨c, lower, upper, rfl, range⟩
    · exact all q kept
    · obtain ⟨below, above⟩ := bounds_mem_of_range range
      rw [splits, all _ below, all _ above]
      rfl

/-- What all predicates of a list have in common, and a range has with its lower bound, all
predicates of the merged list have. -/
theorem mergeBounds_forall {shared : Predicate → Prop} {ps : List Predicate}
    (ranges : ∀ (c : Column) (lower upper : Bound),
      shared (.compare c lower.lowerComparison lower.value) → shared (.between c lower upper))
    (each : ∀ p ∈ ps, shared p) : ∀ p ∈ mergeBounds ps, shared p := by
  intro p member
  rcases mem_of_mem_mergeFrom member with kept | ⟨c, lower, upper, rfl, range⟩
  · exact each p kept
  · exact ranges c lower upper (each _ (bounds_mem_of_range range).1)

/-- What neither bounds nor ranges contribute to, merging leaves as it is. -/
theorem mergeBounds_flatMap {α : Type} {shown : Predicate → List α} {ps : List Predicate}
    (bounds : ∀ (c : Column) (op : Comparison) (value : Json), shown (.compare c op value) = [])
    (ranges : ∀ (c : Column) (lower upper : Bound), shown (.between c lower upper) = []) :
    (mergeBounds ps).flatMap shown = ps.flatMap shown := by
  suffices ∀ (range? : Column → Option (Bound × Bound)) (done : List Column)
      (rest : List Predicate),
      (mergeFrom range? done rest).flatMap shown = rest.flatMap shown from this _ _ _
  intro range? done rest
  induction rest generalizing done with
  | nil => rfl
  | cons p rest ih =>
      cases free : p.boundColumn?.bind range? with
      | none => rw [mergeFrom_cons_kept free, List.flatMap_cons, List.flatMap_cons, ih]
      | some range =>
          obtain ⟨c, bounded, range⟩ := Option.bind_eq_some_iff.mp free
          have bare : shown p = [] := by
            rcases Predicate.bound_of_boundColumn? bounded with ⟨b, bound⟩ | ⟨b, bound⟩
            · rw [Predicate.eq_compare_of_lowerOn? bound, bounds]
            · rw [Predicate.eq_compare_of_upperOn? bound, bounds]
          rw [mergeFrom_cons_ranged bounded range, List.flatMap_cons, bare, List.nil_append]
          split
          · exact ih done
          · rw [List.flatMap_cons, ranges, List.nil_append, ih]

end ScopedAccess
