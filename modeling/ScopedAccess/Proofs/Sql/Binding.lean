import ScopedAccess.Filter.Compiled
import ScopedAccess.Proofs.Sql.Lowering
import ScopedAccess.Sql.ConditionText
/-!
# What lowered predicates bind

A predicate is written with `?` for its values, and its condition binds parameters where that of
the database is written. The two lists come from one walk over the predicate
(`Predicate.slots`): the values in order, and between them the constants that stand for what is
false by its shape, or for membership in no values. The text has no place for these.

* `lowering_exact`: a predicate and its condition have one truth value, and bind the same values in
  the same order.
-/

namespace ScopedAccess

set_option autoImplicit false

/-- What is bound at a place of a condition: a value of the predicate, or a constant. -/
inductive Slot where
  | value (j : Json)
  | constant (p : Param)

namespace Slot

/-- The parameter that is bound. -/
def param : Slot → Param
  | value j => .ofJson j
  | constant p => p

/-- The value of the predicate, if it is one. -/
def value? : Slot → Option Json
  | value j => some j
  | constant _ => none

theorem map_param_value (values : List Json) :
    (values.map value).map param = values.map Param.ofJson :=
  List.map_map

theorem filterMap_value?_value (values : List Json) :
    (values.map value).filterMap value? = values := by
  rw [List.filterMap_map]
  exact List.filterMap_some

end Slot

namespace Predicate

mutual

/-- What a predicate binds, in order. -/
def slots : Predicate → List Slot
  | .compare _ _ value => [.value value]
  | .among _ [] negated => [.constant (.int 1), .constant (.int (if negated then 1 else 2))]
  | .among _ (v :: vs) _ => (v :: vs).map .value
  | .null _ _ => []
  | .like _ pattern => [.value (.str pattern)]
  | .between _ lower upper => [.value lower.value, .value upper.value]
  | .subquery _ _ filter => filter.slots
  | .all parts => slotsOf parts
  | .any [] => [.constant (.bool false)]
  | .any (p :: rest) => p.slots ++ slotsOf rest
  | .const true => []
  | .const false => [.constant (.bool false)]

def slotsOf : List Predicate → List Slot
  | [] => []
  | p :: rest => p.slots ++ slotsOf rest

end

mutual

/-- Whether false, an empty disjunction or an empty list of values occurs in a predicate. -/
def holdsEmpty : Predicate → Bool
  | .among _ values _ => values.isEmpty
  | .subquery _ _ filter => filter.holdsEmpty
  | .all parts => holdEmpty parts
  | .any parts => parts.isEmpty || holdEmpty parts
  | .const b => !b
  | .compare .. | .null .. | .like .. | .between .. => false

def holdEmpty : List Predicate → Bool
  | [] => false
  | p :: rest => p.holdsEmpty || holdEmpty rest

end

mutual

/-- What is trivial by its shape binds nothing. -/
theorem slots_of_isTrivial : ∀ {p : Predicate}, p.isTrivial = true → p.slots = []
  | .const b, trivial => by
      rw [isTrivial] at trivial
      rw [trivial, slots]
  | .all parts, trivial => by
      rw [isTrivial] at trivial
      rw [slots, slotsOf_of_areTrivial trivial]

theorem slotsOf_of_areTrivial : ∀ {ps : List Predicate}, areTrivial ps = true → slotsOf ps = []
  | [], _ => rfl
  | p :: rest, trivial => by
      rw [areTrivial, Bool.and_eq_true] at trivial
      rw [slotsOf, slots_of_isTrivial trivial.1, slotsOf_of_areTrivial trivial.2, List.append_nil]

end

/-! ## Parameters -/

/-- The part that a condition contributes binds what the condition does. -/
theorem params_element (c : Condition) : c.element.params = c.params := by
  unfold Condition.element
  split
  · simp [Condition.params, Condition.paramsList]
  · simp [Condition.params, Condition.paramsList]
  · rfl

/-- A conjunction of one part binds what the part does. -/
theorem params_all_singleton (c : Condition) : (Condition.all [c]).params = c.params := by
  rw [Condition.params, Condition.paramsList, Condition.paramsList, List.append_nil]

mutual

/-- The condition of a predicate binds what is in its slots. -/
theorem params_condition : ∀ p : Predicate, p.condition.params = p.slots.map Slot.param
  | .compare c op value => by
      rw [condition, params_all_singleton]
      rfl
  | .among c [] negated => by
      rw [condition, params_all_singleton]
      rfl
  | .among c (v :: vs) negated => by
      rw [condition, params_all_singleton, slots, Slot.map_param_value, List.map_cons,
        Condition.params]
  | .null c negated => by
      rw [condition, params_all_singleton]
      rfl
  | .like c pattern => by
      rw [condition, params_all_singleton]
      rfl
  | .between c lower upper => by
      simp [condition, Condition.params, Condition.paramsList, slots, Slot.param]
  | .subquery c s filter => by
      rw [condition, params_all_singleton, slots]
      by_cases trivial : filter.isTrivial = true
      · rw [if_pos trivial, slots_of_isTrivial trivial, Condition.params, List.map_nil]
      · rw [if_neg trivial, Condition.params, params_condition filter]
  | .all parts => by
      rw [condition, Condition.params, slots, paramsList_conditionElements parts]
  | .any [] => rfl
  | .any (p :: rest) => by
      rw [condition, Condition.params, Condition.paramsList, params_element, params_condition p,
        paramsList_conditionElements rest, slots, List.map_append]
  | .const true => rfl
  | .const false => rfl

theorem paramsList_conditionElements : ∀ ps : List Predicate,
    Condition.paramsList (conditionElements ps) = (slotsOf ps).map Slot.param
  | [] => rfl
  | p :: rest => by
      rw [conditionElements, Condition.paramsList, params_element, params_condition p,
        paramsList_conditionElements rest, slotsOf, List.map_append]

end

mutual

/-- The text of a predicate has places for the values in its slots. -/
theorem params_eq : ∀ p : Predicate, p.params = p.slots.filterMap Slot.value?
  | .compare _ _ _ => rfl
  | .among _ [] _ => rfl
  | .among _ (v :: vs) _ => by rw [params, slots, Slot.filterMap_value?_value]
  | .null _ _ => rfl
  | .like _ _ => rfl
  | .between _ _ _ => rfl
  | .subquery _ _ filter => by
      rw [params, slots]
      by_cases trivial : filter.isTrivial = true
      · rw [if_pos trivial, slots_of_isTrivial trivial, List.filterMap_nil]
      · rw [if_neg trivial, params_eq filter]
  | .all parts => by rw [params, slots, paramsList_eq parts]
  | .any [] => rfl
  | .any (p :: rest) => by
      rw [params, paramsList, params_eq p, paramsList_eq rest, slots, List.filterMap_append]
  | .const true => rfl
  | .const false => rfl

theorem paramsList_eq : ∀ ps : List Predicate, paramsList ps = (slotsOf ps).filterMap Slot.value?
  | [] => rfl
  | p :: rest => by
      rw [paramsList, params_eq p, paramsList_eq rest, slotsOf, List.filterMap_append]

end

mutual

/-- Where nothing in a predicate is empty, its slots hold nothing but its values. -/
theorem slots_eq_of_holdsEmpty : ∀ {p : Predicate}, p.holdsEmpty = false →
    p.slots = p.params.map Slot.value
  | .compare _ _ _, _ => rfl
  | .among _ (v :: vs) _, _ => rfl
  | .null _ _, _ => rfl
  | .like _ _, _ => rfl
  | .between _ _ _, _ => rfl
  | .subquery _ _ filter, full => by
      rw [holdsEmpty] at full
      rw [slots, params]
      by_cases trivial : filter.isTrivial = true
      · rw [if_pos trivial, slots_of_isTrivial trivial, List.map_nil]
      · rw [if_neg trivial, slots_eq_of_holdsEmpty full]
  | .all parts, full => by
      rw [holdsEmpty] at full
      rw [slots, params, slotsOf_eq_of_holdEmpty full]
  | .any (p :: rest), full => by
      rw [holdsEmpty, List.isEmpty_cons, Bool.false_or] at full
      have parts := slotsOf_eq_of_holdEmpty full
      rwa [slotsOf] at parts
  | .const true, _ => rfl

theorem slotsOf_eq_of_holdEmpty : ∀ {ps : List Predicate}, holdEmpty ps = false →
    slotsOf ps = (paramsList ps).map Slot.value
  | [], _ => rfl
  | p :: rest, full => by
      rw [holdEmpty, Bool.or_eq_false_iff] at full
      rw [slotsOf, paramsList, slots_eq_of_holdsEmpty full.1, slotsOf_eq_of_holdEmpty full.2,
        List.map_append]

end

end Predicate

/-! ## Lowering as a whole -/

/-- Lowering keeps the truth of a predicate, on the rows of a table and on any rows in view, and
what it binds. The parameters of the condition are the values of the predicate in the order of
their places in its text, and between them the constants of what is empty; if nothing is, there are
no others. -/
theorem lowering_exact (p : Predicate) :
    (∀ (db : Database) (view : List BoundRow), db.evaluate view p.condition = p.evaluate db view) ∧
    (∀ (db : Database) (name : Name) (t : Table) (row : Row),
      db.passes name t p.condition row = p.passes db name t row) ∧
    p.condition.params = p.slots.map Slot.param ∧
    p.params = p.slots.filterMap Slot.value? ∧
    (p.holdsEmpty = false → p.condition.params = p.params.map Param.ofJson) := by
  refine ⟨fun db view => p.evaluate_condition view,
    fun db name t row => p.passes_condition name t row, p.params_condition, p.params_eq,
    fun full => ?_⟩
  rw [p.params_condition, Predicate.slots_eq_of_holdsEmpty full, Slot.map_param_value]

namespace Notebook

/-- Notes of two titles, or in folders of no organization with a number from one to nine. -/
def sought : Predicate :=
  .any [.among ⟨"notes", "title"⟩ [.str "Sketch", .str "Draft"] false,
    .subquery ⟨"notes", "folder_id"⟩ ⟨"folders", "folders_1", "id"⟩
      (.all [.null ⟨"folders_1", "org_id"⟩ false,
        .between ⟨"folders_1", "number"⟩ ⟨.int 1, true⟩ ⟨.int 10, false⟩])]

end Notebook

open Notebook in
/-- The titles are bound before the numbers, which are bound within the subquery. -/
theorem sought_binds_in_order :
    sought.holdsEmpty = false ∧ sought.condition.params = sought.params.map Param.ofJson ∧
      sought.params = [.str "Sketch", .str "Draft", .int 1, .int 10] :=
  ⟨rfl, (lowering_exact sought).2.2.2.2 rfl, rfl⟩

/-- A disjunction of nothing binds a constant in front of the values that come after it. -/
example : (Predicate.all [.any [], .like ⟨"notes", "title"⟩ "S%"]).condition.params =
    [.bool false, .string "S%"] := rfl

end ScopedAccess
