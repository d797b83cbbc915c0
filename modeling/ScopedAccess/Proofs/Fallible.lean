import Mathlib.Logic.Basic
/-!
# Computations that may fail

What is known of the parts of a computation in `Except` from its result, and what a fold of
steps that may fail keeps from one step to the next (`foldlM_induction`).
-/

namespace ScopedAccess

set_option autoImplicit false

section Results

variable {ε α β : Type}

/-- A computation in two steps succeeds only by its steps. -/
theorem exists_of_bind_eq_ok {x : Except ε α} {next : α → Except ε β} {b : β}
    (computed : x >>= next = .ok b) : ∃ a, x = .ok a ∧ next a = .ok b := by
  cases x with
  | error reason => cases computed
  | ok a => exact ⟨a, rfl, computed⟩

/-- What a computation that only gives back a pair gives first. -/
theorem fst_eq_of_pure_eq_ok {a a' : α} {b b' : β}
    (computed : (pure (a, b) : Except ε (α × β)) = .ok (a', b')) : a = a' :=
  congrArg Prod.fst (Except.ok.inj computed)

theorem exists_of_isOk {x : Except ε α} (ok : x.isOk = true) : ∃ a, x = .ok a := by
  cases x with
  | error reason => cases ok
  | ok a => exact ⟨a, rfl⟩

/-- What is seen of the result holds of it. -/
theorem exists_of_any {x : Except ε α} {P : α → Bool} (seen : x.toOption.any P = true) :
    ∃ a, x = .ok a ∧ P a = true := by
  cases x with
  | error reason => cases seen
  | ok a => exact ⟨a, rfl, seen⟩

end Results

section Folds

variable {ε α β : Type} {f : β → α → Except ε β}

/-- A fold whose steps all succeed succeeds. -/
theorem exists_foldlM_ok {l : List α} (steps : ∀ a ∈ l, ∀ b, ∃ c, f b a = .ok c) (b : β) :
    ∃ c, l.foldlM f b = .ok c := by
  induction l generalizing b with
  | nil => exact ⟨b, rfl⟩
  | cons a rest ih =>
      obtain ⟨c, step⟩ := steps a List.mem_cons_self b
      obtain ⟨d, run⟩ := ih (fun a member => steps a (List.mem_cons_of_mem _ member)) c
      exact ⟨d, by rw [List.foldlM_cons, step]; exact run⟩

/-- A fold fails where one of its steps does. -/
theorem exists_of_foldlM_error {l : List α} {b : β} {reason : ε}
    (failed : l.foldlM f b = .error reason) : ∃ a ∈ l, ∃ c, f c a = .error reason := by
  induction l generalizing b with
  | nil => cases failed
  | cons a rest ih =>
      rw [List.foldlM_cons] at failed
      cases step : f b a with
      | error reason' =>
          rw [step] at failed
          cases failed
          exact ⟨a, List.mem_cons_self, b, step⟩
      | ok c =>
          rw [step] at failed
          obtain ⟨a', member, c', step'⟩ := ih failed
          exact ⟨a', List.mem_cons_of_mem a member, c', step'⟩

/-- What holds of the elements folded so far and the result, and is kept by every step, holds
at the end. -/
theorem foldlM_induction {P : List α → β → Prop} {l : List α} {b c : β}
    (run : l.foldlM f b = .ok c) (start : P [] b)
    (step : ∀ done a b c, a ∈ l → P done b → f b a = .ok c → P (done ++ [a]) c) : P l c := by
  suffices ∀ rest done b, done ++ rest = l → P done b → rest.foldlM f b = .ok c → P l c from
    this l [] b rfl start run
  intro rest
  induction rest with
  | nil =>
      intro done b all held run
      cases run
      rwa [← all, List.append_nil]
  | cons a rest ih =>
      intro done b all held run
      rw [List.foldlM_cons] at run
      obtain ⟨c', stepped, run⟩ := exists_of_bind_eq_ok run
      have member : a ∈ l := by simp [← all]
      exact ih (done ++ [a]) c' (by simp [← all]) (step done a b c' member held stepped) run

end Folds

end ScopedAccess
