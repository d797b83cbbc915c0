import ScopedAccess.Job.Runner
import Mathlib.Data.List.Nodup
/-!
# Jobs that interleave

Runners have nothing in common but the lock, and keep nothing else. So what any number of them do at
a time is told by the lock and the calls that have been made, each at its own stage: `JobTraffic`. A
`JobMove` is one step of a call, or another call. Every order of moves is possible.

A call tries once to take the lock. From then on it holds it (`JobStage.holds`) until it gives it
back, which is the last step of a job that has ended, with a failure or without, and all that is
left of one that is cancelled, begun or not. The step leaves the lock alone, takes it or gives it
back (`JobCall.take_cases`); that is all that the invariant needs (`JobTraffic.Exclusive`).
-/

namespace ScopedAccess

set_option autoImplicit false

/-! ## The lock -/

namespace JobTable

variable {table table' : JobTable} {name : String}

theorem start?_eq_none_iff : table.start? name = none ↔ name ∈ table.lock := by
  rw [start?, Option.map_eq_none_iff, JobLock.acquire?]
  split
  · rename_i held
    exact iff_of_true rfl held
  · rename_i free
    exact iff_of_false (Option.some_ne_none _) free

theorem start?_eq_some (started : table.start? name = some table') :
    name ∉ table.lock ∧ table' = ⟨table.lock.insert name, table.running ++ [name]⟩ := by
  obtain ⟨lock, acquired, rfl⟩ := Option.map_eq_some_iff.mp started
  rw [JobLock.acquire?] at acquired
  split at acquired
  · cases acquired
  · rename_i free
    cases acquired
    exact ⟨free, rfl⟩

end JobTable

/-! ## Calls and their steps -/

/-- Where a call of a job stands. -/
inductive JobStage where
  /-- It has not tried to take the lock. -/
  | pending
  /-- It was given up before it tried. -/
  | withdrawn
  /-- The lock was held when it tried. -/
  | refused
  /-- It has the lock, and the job has not begun. -/
  | queued
  | running
  /-- The job has ended, and the lock is given back next. -/
  | ending (failure : Option (List String))
  /-- The lock has been given back. -/
  | done
  deriving DecidableEq

/-- Whether a call at this stage has the lock of its name. -/
def JobStage.holds : JobStage → Bool
  | queued | running | ending _ => true
  | pending | withdrawn | refused | done => false

/-- What a call may do next. -/
inductive JobStep where
  /-- The caller gives up before the lock is tried. -/
  | withdraw
  | attempt
  /-- A detached job begins. -/
  | begin
  /-- The job ends by itself. -/
  | finish (failure : Option (List String))
  /-- The job is dropped, or breaks down. -/
  | cancel
  | release
  deriving DecidableEq

/-- Whether a call at this stage gives its lock back by a step. -/
def JobStage.endsBy : JobStage → JobStep → Bool
  | queued, .cancel | running, .cancel | ending _, .release => true
  | _, _ => false

/-- A call of a job, and what the caller has been told. -/
structure JobCall where
  name : String
  mode : JobMode
  stage : JobStage
  answer : Option (Except JobError Unit)

namespace JobCall

def holds (c : JobCall) : Bool := c.stage.holds

/-- Try to take the lock. A job that is waited for begins at once. -/
def attempt (c : JobCall) (table : JobTable) : JobCall × JobTable :=
  match table.start? c.name with
  | none => ({ c with stage := .refused, answer := some (.error (.alreadyRunning c.name)) }, table)
  | some table =>
    match c.mode with
    | .wait => ({ c with stage := .running }, table)
    | .detached => ({ c with stage := .queued, answer := some (.ok ()) }, table)

/-- Give the lock back. Who waits for the job learns how it ended, if it did. -/
def giveBack (c : JobCall) (table : JobTable) (result : Option (Except JobError Unit)) :
    JobCall × JobTable :=
  ({ c with stage := .done, answer := c.answer.or result }, table.finish c.name)

/-- A step of a call, which may change who has locks. Out of turn it changes nothing. -/
def take (c : JobCall) (table : JobTable) : JobStep → JobCall × JobTable
  | .withdraw => if c.stage = .pending then ({ c with stage := .withdrawn }, table) else (c, table)
  | .attempt => if c.stage = .pending then c.attempt table else (c, table)
  | .begin => if c.stage = .queued then ({ c with stage := .running }, table) else (c, table)
  | .finish failure =>
    if c.stage = .running then ({ c with stage := .ending failure }, table) else (c, table)
  | .cancel =>
    if c.stage = .queued ∨ c.stage = .running then c.giveBack table none else (c, table)
  | .release =>
    match c.stage with
    | .ending failure => c.giveBack table (some (Job.outcome c.name failure))
    | _ => (c, table)

variable (c : JobCall) (table : JobTable) (step : JobStep)

/-- A call that has been refused takes no step any more. -/
theorem take_refused (refused : c.stage = .refused) : c.take table step = (c, table) := by
  cases step <;> simp [take, refused]

/-- A step changes where a call stands and what its caller has been told, and nothing else. -/
theorem take_eq : ∃ stage answer, (c.take table step).1 = { c with stage, answer } := by
  cases step with
  | attempt =>
      rw [take, attempt]
      split
      · split
        · exact ⟨_, _, rfl⟩
        · split <;> exact ⟨_, _, rfl⟩
      · exact ⟨_, _, rfl⟩
  | release =>
      rw [take]
      split <;> exact ⟨_, _, rfl⟩
  | _ =>
      rw [take]
      split <;> exact ⟨_, _, rfl⟩

theorem name_take : (c.take table step).1.name = c.name := by
  obtain ⟨stage, answer, taken⟩ := c.take_eq table step
  rw [taken]

theorem mode_take : (c.take table step).1.mode = c.mode := by
  obtain ⟨stage, answer, taken⟩ := c.take_eq table step
  rw [taken]

/-- A step leaves the lock alone, takes it or gives it back. -/
theorem take_cases :
    (c.stage.endsBy step = false ∧
      (c.take table step).1.holds = c.holds ∧ (c.take table step).2 = table) ∨
    (c.stage.endsBy step = false ∧ c.holds = false ∧
      (c.take table step).1.holds = true ∧ table.start? c.name = some (c.take table step).2) ∨
    (c.stage.endsBy step = true ∧ c.holds = true ∧
      (c.take table step).1.holds = false ∧ (c.take table step).2 = table.finish c.name) := by
  cases step with
  | withdraw | begin | finish =>
      refine .inl ⟨by cases c.stage <;> rfl, ?_⟩
      rw [take]
      split
      · rename_i stage
        exact ⟨by rw [holds, holds, stage]; rfl, rfl⟩
      · exact ⟨rfl, rfl⟩
  | attempt =>
      have kept : c.stage.endsBy .attempt = false := by cases c.stage <;> rfl
      rw [take]
      split
      · rename_i pending
        have idle : c.holds = false := by rw [holds, pending]; rfl
        rw [attempt]
        split
        · exact .inl ⟨kept, idle.symm, rfl⟩
        · rename_i started
          split <;> exact .inr (.inl ⟨kept, idle, rfl, started⟩)
      · exact .inl ⟨kept, rfl, rfl⟩
  | cancel =>
      rw [take]
      split
      · rename_i stage
        refine .inr (.inr ?_)
        rcases stage with stage | stage <;> rw [holds, stage] <;> exact ⟨rfl, rfl, rfl, rfl⟩
      · rename_i other
        refine .inl ⟨?_, rfl, rfl⟩
        generalize c.stage = stage at other
        cases stage with
        | queued | running => simp at other
        | _ => rfl
  | release =>
      rw [take]
      split
      · rename_i stage
        exact .inr (.inr ⟨by rw [stage]; rfl, by rw [holds, stage]; rfl, rfl, rfl⟩)
      · rename_i other
        refine .inl ⟨?_, rfl, rfl⟩
        generalize c.stage = stage at other
        cases stage with
        | ending failure => exact absurd rfl (other failure)
        | _ => rfl

/-- Just an attempt that finds the lock held makes a call one that is refused. -/
theorem take_refused_iff : (c.take table step).1.stage = .refused ↔
    c.stage = .refused ∨ step = .attempt ∧ c.stage = .pending ∧ table.start? c.name = none := by
  cases step with
  | attempt =>
      rw [take]
      split
      · rename_i pending
        rw [attempt, pending]
        split
        · rename_i held
          exact iff_of_true rfl (.inr ⟨rfl, rfl, held⟩)
        · rename_i started
          rw [started]
          split <;> simp
      · rename_i tried
        simp [tried]
  | cancel =>
      rw [take]
      split
      · rename_i stage
        rcases stage with stage | stage <;> simp [giveBack, stage]
      · simp
  | release =>
      rw [take]
      split
      · rename_i stage
        simp [giveBack, stage]
      · simp
  | _ =>
      rw [take]
      split
      · rename_i stage
        simp [stage]
      · simp

/-- The caller is told nothing while the call is pending, and that a job is already running just if
the call is refused. -/
structure Told (c : JobCall) : Prop where
  pending : c.stage = .pending → c.answer = none
  refused : c.answer = some (.error (.alreadyRunning c.name)) ↔ c.stage = .refused

variable {c}

theorem told_of_ne (tried : c.stage ≠ .pending) (admitted : c.stage ≠ .refused)
    (other : c.answer ≠ some (.error (.alreadyRunning c.name))) : c.Told :=
  ⟨fun pending => absurd pending tried, iff_of_false other admitted⟩

theorem Told.giveBack (told : c.Told) (busy : c.holds = true)
    {result : Option (Except JobError Unit)}
    (other : result ≠ some (.error (.alreadyRunning c.name))) : (c.giveBack table result).1.Told := by
  refine told_of_ne nofun nofun fun answered => ?_
  rcases Option.or_eq_some_iff.mp answered with earlier | ⟨-, now⟩
  · have refused := told.refused.mp earlier
    rw [holds, refused] at busy
    cases busy
  · exact other now

theorem Told.take (told : c.Told) : (c.take table step).1.Told := by
  have kept : ∀ {stage : JobStage}, c.stage ≠ .refused → stage ≠ .pending → stage ≠ .refused →
      Told { c with stage } := fun admitted tried admitted' =>
    told_of_ne tried admitted' (mt told.refused.mp admitted)
  cases step with
  | withdraw | begin | finish =>
      rw [JobCall.take]
      split
      · rename_i stage
        exact kept (by rw [stage]; nofun) nofun nofun
      · exact told
  | attempt =>
      rw [JobCall.take]
      split
      · rename_i pending
        rw [attempt]
        split
        · exact ⟨nofun, iff_of_true rfl rfl⟩
        · split
          · exact kept (by rw [pending]; nofun) nofun nofun
          · exact told_of_ne nofun nofun nofun
      · exact told
  | cancel =>
      rw [JobCall.take]
      split
      · rename_i stage
        refine told.giveBack table ?_ nofun
        rcases stage with stage | stage <;> rw [holds, stage] <;> rfl
      · exact told
  | release =>
      rw [JobCall.take]
      split
      · rename_i failure stage
        refine told.giveBack table (by rw [holds, stage]; rfl) ?_
        cases failure <;> nofun
      · exact told

/-- What the caller has been told stays. -/
theorem Told.answer_take (told : c.Told) {answer : Except JobError Unit}
    (answered : c.answer = some answer) : (c.take table step).1.answer = some answer := by
  have given : ∀ result, (c.giveBack table result).1.answer = some answer := fun result => by
    rw [JobCall.giveBack, answered, Option.some_or]
  cases step with
  | withdraw | begin | finish =>
      rw [JobCall.take]
      split <;> exact answered
  | attempt =>
      rw [JobCall.take]
      split
      · rename_i pending
        rw [told.pending pending] at answered
        cases answered
      · exact answered
  | cancel =>
      rw [JobCall.take]
      split
      · exact given _
      · exact answered
  | release =>
      rw [JobCall.take]
      split
      · exact given _
      · exact answered

end JobCall

/-! ## Traffic -/

/-- Who has locks, and all calls that have been made. -/
structure JobTraffic where
  table : JobTable
  calls : List JobCall

/-- What may happen next. -/
inductive JobMove where
  | call (name : String) (mode : JobMode)
  /-- One of the calls takes a step. -/
  | proceed (i : Nat) (step : JobStep)
  deriving DecidableEq

namespace JobTraffic

def empty : JobTraffic := ⟨.empty, []⟩

def after (t : JobTraffic) : JobMove → JobTraffic
  | .call name mode => { t with calls := t.calls ++ [⟨name, mode, .pending, none⟩] }
  | .proceed i step =>
    match t.calls[i]? with
    | some c => ⟨(c.take t.table step).2, t.calls.set i (c.take t.table step).1⟩
    | none => t

def run (t : JobTraffic) (moves : List JobMove) : JobTraffic := moves.foldl after t

/-- What a caller has been told. -/
def answer? (t : JobTraffic) (i : Nat) : Option (Except JobError Unit) :=
  t.calls[i]?.bind JobCall.answer

/-- The names of the jobs under way. -/
def held (t : JobTraffic) : List String := (t.calls.filter JobCall.holds).map JobCall.name

variable {t : JobTraffic} {i j : Nat} {c d : JobCall}

theorem run_cons (move : JobMove) (moves : List JobMove) :
    t.run (move :: moves) = (t.after move).run moves := rfl

theorem run_append (moves moves' : List JobMove) :
    t.run (moves ++ moves') = (t.run moves).run moves' := List.foldl_append

theorem after_proceed (found : t.calls[i]? = some c) (step : JobStep) : t.after (.proceed i step) =
    ⟨(c.take t.table step).2, t.calls.set i (c.take t.table step).1⟩ := by
  rw [after, found]

/-- What a move does to a call. -/
theorem calls_after (found : t.calls[i]? = some c) (move : JobMove) :
    (∀ step, move ≠ .proceed i step) ∧ (t.after move).calls[i]? = some c ∨
      ∃ step, move = .proceed i step ∧
        (t.after move).calls[i]? = some (c.take t.table step).1 := by
  cases move with
  | call name mode =>
      obtain ⟨there, -⟩ := List.getElem?_eq_some_iff.mp found
      exact .inl ⟨nofun, (List.getElem?_append_left there).trans found⟩
  | proceed j step =>
      by_cases own : j = i
      · subst own
        refine .inr ⟨step, rfl, ?_⟩
        obtain ⟨there, -⟩ := List.getElem?_eq_some_iff.mp found
        rw [after_proceed found]
        exact List.getElem?_set_self there
      · refine .inl ⟨fun step' same => own (JobMove.proceed.inj same).1, ?_⟩
        rw [after]
        split
        · exact (List.getElem?_set_ne own).trans found
        · exact found

/-- What is common to all moments: the lock is held for the jobs under way, and each name is the name
of one of them at most. -/
structure Exclusive (t : JobTraffic) : Prop where
  running : t.table.running.Perm t.held
  nodup : t.table.running.Nodup
  lock : ∀ name, name ∈ t.table.lock ↔ name ∈ t.table.running
  told : ∀ c ∈ t.calls, c.Told

theorem exclusive_empty : Exclusive empty :=
  ⟨.refl _, List.nodup_nil, fun _ => iff_of_false (SortedSet.not_mem_empty _) List.not_mem_nil,
    nofun⟩

/-- Who holds a lock after one call has changed. -/
theorem held_set {c' : JobCall} (table : JobTable) (found : t.calls[i]? = some c)
    (same : c'.name = c.name) :
    (c'.holds = c.holds → held ⟨table, t.calls.set i c'⟩ = t.held) ∧
    (c.holds = false → c'.holds = true →
      (held ⟨table, t.calls.set i c'⟩).Perm (c.name :: t.held)) ∧
    (c.holds = true → c'.holds = false →
      t.held.Perm (c.name :: held ⟨table, t.calls.set i c'⟩)) := by
  obtain ⟨there, here⟩ := List.getElem?_eq_some_iff.mp found
  obtain ⟨front, rest, split, -, changed⟩ : ∃ front rest, t.calls = front ++ t.calls[i] :: rest ∧
      front.length = i ∧ t.calls.set i c' = front ++ c' :: rest := List.exists_of_set there
  rw [here] at split
  rw [held, held, changed, split]
  simp only [List.filter_append, List.filter_cons, List.map_append]
  refine ⟨fun equal => ?_, fun idle busy => ?_, fun busy idle => ?_⟩
  · rw [equal]
    cases c.holds
    · rfl
    · simp [same]
  · rw [idle, busy]
    simp [same]
  · rw [idle, busy]
    simp

theorem told_after (told : ∀ c ∈ t.calls, c.Told) (move : JobMove) :
    ∀ c ∈ (t.after move).calls, c.Told := by
  cases move with
  | call name mode =>
      refine List.forall_mem_append.mpr ⟨told, List.forall_mem_singleton.mpr ?_⟩
      exact ⟨fun _ => rfl, iff_of_false nofun nofun⟩
  | proceed i step =>
      cases found : t.calls[i]? with
      | none =>
          rw [after, found]
          exact told
      | some c =>
          rw [after_proceed found]
          intro d member
          rcases List.mem_or_eq_of_mem_set member with earlier | rfl
          · exact told d earlier
          · exact (told c (List.mem_of_getElem? found)).take t.table step

theorem Exclusive.after (exclusive : t.Exclusive) (move : JobMove) : (t.after move).Exclusive := by
  have told := told_after exclusive.told move
  cases move with
  | call name mode =>
      have same : (t.after (.call name mode)).held = t.held := by
        rw [held, JobTraffic.after, List.filter_append]
        exact congrArg (List.map JobCall.name) (List.append_nil _)
      exact ⟨same.symm ▸ exclusive.running, exclusive.nodup, exclusive.lock, told⟩
  | proceed i step =>
      cases found : t.calls[i]? with
      | none =>
          rw [JobTraffic.after, found]
          exact exclusive
      | some c =>
          rw [after_proceed found] at told ⊢
          obtain ⟨kept, added, removed⟩ :=
            held_set (c.take t.table step).2 found (c.name_take t.table step)
          rcases c.take_cases t.table step with ⟨-, same, table⟩ | ⟨-, idle, busy, started⟩ |
            ⟨-, busy, idle, table⟩
          · rw [table] at kept ⊢
            exact ⟨kept same ▸ exclusive.running, exclusive.nodup, exclusive.lock, told⟩
          · obtain ⟨free, table⟩ := JobTable.start?_eq_some started
            have added := added idle busy
            rw [table] at added ⊢
            have fresh := mt (exclusive.lock c.name).mpr free
            have last := List.perm_append_singleton c.name t.table.running
            refine ⟨last.trans ((exclusive.running.cons c.name).trans added.symm), ?_,
              fun name => ?_, told⟩
            · exact last.nodup_iff.mpr (List.nodup_cons.mpr ⟨fresh, exclusive.nodup⟩)
            · rw [SortedSet.mem_insert, exclusive.lock, last.mem_iff, List.mem_cons]
          · have removed := (exclusive.running.trans (removed busy idle)).erase c.name
            rw [List.erase_cons_head] at removed
            rw [table] at removed ⊢
            refine ⟨removed, exclusive.nodup.erase c.name, fun name => ?_, told⟩
            show name ∈ t.table.lock.erase c.name ↔ name ∈ t.table.running.erase c.name
            rw [SortedSet.mem_erase, exclusive.lock, exclusive.nodup.mem_erase_iff, and_comm]

theorem Exclusive.run (exclusive : t.Exclusive) (moves : List JobMove) :
    (t.run moves).Exclusive := by
  induction moves generalizing t with
  | nil => exact exclusive
  | cons move moves ih => exact ih (exclusive.after move)

end JobTraffic

end ScopedAccess
