import ScopedAccess.Proofs.Job.Interleaving
/-!
# One job of a name at a time

A `JobRunner` carries out one thing after the other, and what it does is one of the interleavings of
`JobTraffic`: the calls that wait to start are its queue (`JobTraffic.Mirrors`), a call runs between
the calls made before it and those that it makes itself, what the runner answers is what the call
gets that it is asked for (`JobTraffic.Answers`), and in the end nobody waits
(`JobRunner.queue_drain`).

* `jobs_exclusive`: what holds of all interleavings, the runner's among them.
-/

namespace ScopedAccess

set_option autoImplicit false

def Job.name : Job → String
  | .mk name _ _ _ => name

def Job.mode : Job → JobMode
  | .mk _ mode _ _ => mode

/-! ## Nobody is left waiting -/

namespace JobRunner

open Job

theorem sizes_append (js js' : List Job) : sizes (js ++ js') = sizes js + sizes js' := by
  induction js with
  | nil => rw [List.nil_append, sizes, Nat.zero_add]
  | cons j js ih => rw [List.cons_append, sizes, sizes, ih, Nat.add_assoc]

mutual

/-- A call makes the queue longer by what was in the job at most. -/
theorem sizes_call (r : JobRunner) (j : Job) :
    sizes (r.call j).2.queue ≤ sizes r.queue + j.size := by
  obtain ⟨name, mode, calls, failure⟩ := j
  rw [call]
  split
  · exact Nat.le_add_right _ _
  · cases mode with
    | detached =>
        refine Nat.le_of_eq ?_
        dsimp only
        rw [sizes_append, sizes, sizes, Nat.add_zero]
    | wait =>
        refine Nat.le_trans (sizes_callAll _ calls) (Nat.add_le_add_left ?_ _)
        rw [size]
        exact Nat.le_succ _

theorem sizes_callAll (r : JobRunner) (js : List Job) :
    sizes (r.callAll js).queue ≤ sizes r.queue + sizes js := by
  cases js with
  | nil =>
      rw [callAll]
      exact Nat.le_add_right _ _
  | cons j rest =>
      rw [callAll, sizes]
      have first := sizes_call r j
      have more := sizes_callAll ((r.call j).2.note (.returned (r.call j).1)) rest
      dsimp only [note] at more ⊢
      omega

end

theorem queue_drainFor (fuel : Nat) (r : JobRunner) (enough : sizes r.queue ≤ fuel) :
    (drainFor fuel r).queue = [] := by
  induction fuel generalizing r with
  | zero =>
      rw [drainFor]
      cases queue : r.queue with
      | nil => rfl
      | cons j rest =>
          obtain ⟨name, mode, calls, failure⟩ := j
          rw [queue, sizes, size] at enough
          omega
  | succ fuel ih =>
      rw [drainFor]
      split
      · assumption
      · rename_i name _ calls _ rest queue
        refine ih _ (Nat.le_trans (sizes_callAll _ calls) ?_)
        rw [queue, sizes, size] at enough
        dsimp only [note]
        omega

/-- All detached jobs have their turn. -/
theorem queue_drain (r : JobRunner) : r.drain.queue = [] := queue_drainFor _ r (Nat.le_refl _)

end JobRunner

/-! ## A runner as traffic -/

namespace JobTraffic

variable {t t' : JobTraffic} {r : JobRunner} {name : String} {mode : JobMode} {c : JobCall}
  {front rest : List JobCall}

/-- The names of the jobs that wait to start. -/
def waiting (calls : List JobCall) : List String :=
  (calls.filter fun c => c.stage = .queued).map JobCall.name

/-- The traffic is where the runner is. -/
structure Mirrors (t : JobTraffic) (r : JobRunner) : Prop where
  table : t.table = r.table
  queue : waiting t.calls = r.queue.map Job.name

/-- The next call to be made, which tries to take the lock at once. -/
def attempting (t : JobTraffic) (name : String) (mode : JobMode) : List JobMove :=
  [.call name mode, .proceed t.calls.length .attempt]

/-- The moves begin with a call of this name and mode, which gets the answer, and leave the calls
made before as they are. -/
structure Answers (t : JobTraffic) (moves : List JobMove) (name : String) (mode : JobMode)
    (answer : Except JobError Unit) : Prop where
  first : t.attempting name mode <+: moves
  calls : ∃ c more, (t.run moves).calls = t.calls ++ c :: more ∧
    c.name = name ∧ c.mode = mode ∧ c.answer = some answer

theorem Answers.kept {moves : List JobMove} {answer : Except JobError Unit}
    (answers : t.Answers moves name mode answer) : t.calls <+: (t.run moves).calls := by
  obtain ⟨c, more, calls, -⟩ := answers.calls
  rw [calls]
  exact List.prefix_append _ _

/-- A call that is told how it ends by its attempt. -/
theorem Answers.of_attempt {table : JobTable} {answer : Except JobError Unit}
    (tried : t.run (t.attempting name mode) = ⟨table, t.calls ++ [c]⟩)
    (called : c.name = name ∧ c.mode = mode ∧ c.answer = some answer) :
    t.Answers (t.attempting name mode) name mode answer :=
  ⟨List.prefix_refl _, c, [], congrArg JobTraffic.calls tried, called⟩

theorem waiting_append : waiting (front ++ rest) = waiting front ++ waiting rest := by
  rw [waiting, List.filter_append, List.map_append, waiting, waiting]

theorem waiting_cons_queued (queued : c.stage = .queued) :
    waiting (c :: rest) = c.name :: waiting rest := by
  simp [waiting, queued]

theorem waiting_cons (begun : c.stage ≠ .queued) : waiting (c :: rest) = waiting rest := by
  simp [waiting, begun]

/-- Where a call that waits is, if it is the first. -/
theorem exists_first_waiting {calls : List JobCall} {names : List String}
    (first : waiting calls = name :: names) : ∃ front c rest, calls = front ++ c :: rest ∧
      c.stage = .queued ∧ c.name = name ∧ waiting front = [] ∧ waiting rest = names := by
  induction calls with
  | nil => cases first
  | cons c rest ih =>
      by_cases queued : c.stage = .queued
      · rw [waiting_cons_queued queued, List.cons.injEq] at first
        exact ⟨[], c, rest, rfl, queued, first.1, rfl, first.2⟩
      · rw [waiting_cons queued] at first
        obtain ⟨front, d, rest, rfl, there, named, none, some⟩ := ih first
        exact ⟨c :: front, d, rest, rfl, there, named, (waiting_cons queued).trans none, some⟩

theorem after_proceed_mid {table : JobTable} (step : JobStep) :
    after ⟨table, front ++ c :: rest⟩ (.proceed front.length step) =
      ⟨(c.take table step).2, front ++ (c.take table step).1 :: rest⟩ := by
  have found : (front ++ c :: rest)[front.length]? = some c := by simp
  rw [after_proceed found]
  simp

theorem run_attempt (t : JobTraffic) (name : String) (mode : JobMode) :
    t.run (t.attempting name mode) =
      ⟨(JobCall.attempt ⟨name, mode, .pending, none⟩ t.table).2,
        t.calls ++ [(JobCall.attempt ⟨name, mode, .pending, none⟩ t.table).1]⟩ :=
  after_proceed_mid .attempt

/-- A new call that tries at once and is refused. -/
theorem run_refused (held : t.table.start? name = none) (mode : JobMode) :
    t.run (t.attempting name mode) =
      ⟨t.table, t.calls ++ [⟨name, mode, .refused, some (.error (.alreadyRunning name))⟩]⟩ := by
  rw [run_attempt, JobCall.attempt, held]

/-- A new call that tries at once and is admitted. -/
theorem run_admitted {table : JobTable} (free : t.table.start? name = some table)
    (mode : JobMode) : t.run (t.attempting name mode) =
      ⟨table, t.calls ++ [match mode with
        | .wait => ⟨name, .wait, .running, none⟩
        | .detached => ⟨name, .detached, .queued, some (.ok ())⟩]⟩ := by
  rw [run_attempt, JobCall.attempt, free]
  cases mode <;> rfl

/-- A job that runs ends. -/
theorem run_ended {table : JobTable} (running : c.stage = .running)
    (failure : Option (List String)) :
    run ⟨table, front ++ c :: rest⟩
        [.proceed front.length (.finish failure), .proceed front.length .release] =
      ⟨table.finish c.name,
        front ++ (c.giveBack table (some (Job.outcome c.name failure))).1 :: rest⟩ := by
  rw [run_cons, after_proceed_mid, JobCall.take, if_pos running, run_cons, after_proceed_mid]
  rfl

/-- One that runs, or has run, can end. -/
theorem exists_end (table : JobTable) (rest : List JobCall) (busy : c.holds = true)
    (begun : c.stage ≠ .queued) : ∃ moves result, run ⟨table, front ++ c :: rest⟩ moves =
      ⟨table.finish c.name, front ++ (c.giveBack table result).1 :: rest⟩ := by
  rw [JobCall.holds] at busy
  cases stage : c.stage with
  | running => exact ⟨_, _, run_ended stage none⟩
  | ending failure =>
      refine ⟨[.proceed front.length .release], some (Job.outcome c.name failure), ?_⟩
      rw [run_cons, after_proceed_mid, JobCall.take, stage]
      rfl
  | queued => exact absurd stage begun
  | pending | withdrawn | refused | done =>
      rw [stage] at busy
      cases busy

/-- It gives its lock back. -/
theorem Mirrors.giveBack {table : JobTable} (mirrors : Mirrors ⟨table, front ++ c :: rest⟩ r)
    (begun : c.stage ≠ .queued) (result : Option (Except JobError Unit)) :
    Mirrors ⟨table.finish c.name, front ++ (c.giveBack table result).1 :: rest⟩
      (r.finish c.name) := by
  have ended : (c.giveBack table result).1.stage ≠ .queued := nofun
  refine ⟨congrArg (JobTable.finish · c.name) mirrors.table, Eq.trans ?_ mirrors.queue⟩
  rw [waiting_append, waiting_append, waiting_cons begun, waiting_cons ended]

/-- The jobs that a job calls have been called, and it ends. -/
theorem Mirrors.finish (mirrors : t'.Mirrors r)
    (kept : front ++ c :: rest <+: t'.calls) (running : c.stage = .running)
    (failure : Option (List String)) : ∃ moves more, Mirrors (t'.run moves) (r.finish c.name) ∧
      (t'.run moves).calls =
        front ++ (c.giveBack t'.table (some (Job.outcome c.name failure))).1 :: more := by
  obtain ⟨table', calls'⟩ := t'
  obtain ⟨more, rfl⟩ : ∃ more, calls' = front ++ c :: more := by
    obtain ⟨more, rfl⟩ := kept
    exact ⟨rest ++ more, by simp⟩
  refine ⟨[.proceed front.length (.finish failure), .proceed front.length .release], more, ?_⟩
  rw [run_ended running]
  refine ⟨?_, rfl⟩
  exact mirrors.giveBack (by rw [running]; nofun) _

mutual

/-- A runner's call is traffic that begins with it. -/
theorem Mirrors.call {t : JobTraffic} {r : JobRunner} (mirrors : t.Mirrors r) (j : Job) :
    ∃ moves, (t.run moves).Mirrors (r.call j).2 ∧
      t.Answers moves j.name j.mode (r.call j).1 := by
  obtain ⟨name, mode, calls, failure⟩ := j
  have unqueued : ∀ {c : JobCall}, c.stage ≠ .queued →
      waiting (t.calls ++ [c]) = r.queue.map Job.name := fun begun => by
    rw [waiting_append, waiting_cons begun, ← mirrors.queue]
    exact List.append_nil _
  rw [JobRunner.call, ← mirrors.table]
  split
  · rename_i held
    have tried := run_refused held mode
    refine ⟨t.attempting name mode, ?_, .of_attempt tried ⟨rfl, rfl, rfl⟩⟩
    rw [tried]
    exact ⟨mirrors.table, unqueued nofun⟩
  · rename_i table free
    have tried := run_admitted free mode
    cases mode with
    | detached =>
        refine ⟨t.attempting name .detached, ?_, .of_attempt tried ⟨rfl, rfl, rfl⟩⟩
        rw [tried]
        refine ⟨rfl, ?_⟩
        rw [waiting_append, mirrors.queue, List.map_append]
        rfl
    | wait =>
        have started : Mirrors ⟨table, t.calls ++ [⟨name, .wait, .running, none⟩]⟩
            (JobRunner.note { r with table } (.started name)) := ⟨rfl, unqueued nofun⟩
        obtain ⟨moves, kept, called⟩ := started.callAll calls
        obtain ⟨moves', more, ended, calls'⟩ := called.finish kept rfl failure
        have whole : t.run (t.attempting name .wait ++ (moves ++ moves')) =
            (run ⟨table, t.calls ++ [⟨name, .wait, .running, none⟩]⟩ moves).run moves' := by
          rw [run_append, tried, run_append]
        rw [← whole] at ended calls'
        exact ⟨_, ended, List.prefix_append _ _, _, more, calls', rfl, rfl, rfl⟩

/-- So are calls in order, and they leave those made before as they are. -/
theorem Mirrors.callAll {t : JobTraffic} {r : JobRunner} (mirrors : t.Mirrors r)
    (js : List Job) : ∃ moves, t.calls <+: (t.run moves).calls ∧
      (t.run moves).Mirrors (r.callAll js) := by
  cases js with
  | nil =>
      rw [JobRunner.callAll]
      exact ⟨[], List.prefix_refl _, mirrors⟩
  | cons j js =>
      rw [JobRunner.callAll]
      obtain ⟨moves, mirrors', answers⟩ := mirrors.call j
      have noted : (t.run moves).Mirrors ((r.call j).2.note (.returned (r.call j).1)) :=
        ⟨mirrors'.table, mirrors'.queue⟩
      obtain ⟨moves', kept, mirrors''⟩ := noted.callAll js
      refine ⟨moves ++ moves', ?_⟩
      rw [run_append]
      exact ⟨answers.kept.trans kept, mirrors''⟩

end

/-- Calls that do not wait stand before one that does. -/
theorem prefix_of_settled {settled : List JobCall} (idle : waiting settled = [])
    (kept : settled <+: front ++ c :: rest) (queued : c.stage = .queued) : settled <+: front := by
  rcases List.prefix_or_prefix_of_prefix kept (List.prefix_append front (c :: rest)) with
    before | ⟨more, rfl⟩
  · exact before
  · cases more with
    | nil => simp
    | cons d more =>
        have same := (List.cons_prefix_cons.mp ((List.prefix_append_right_inj front).mp kept)).1
        rw [same, waiting_append, waiting_cons_queued queued] at idle
        simp at idle

/-- The first job of the queue begins. -/
theorem Mirrors.begin {j : Job} {later : List Job} {settled : List JobCall}
    (mirrors : t.Mirrors r) (queue : r.queue = j :: later) (idle : waiting settled = [])
    (kept : settled <+: t.calls) : ∃ front c rest, c.stage = .running ∧ c.name = j.name ∧
      t.after (.proceed front.length .begin) = ⟨t.table, front ++ c :: rest⟩ ∧
      Mirrors ⟨t.table, front ++ c :: rest⟩ { r with queue := later } ∧ settled <+: front := by
  obtain ⟨table, made⟩ := t
  have first := mirrors.queue
  rw [queue, List.map_cons] at first
  obtain ⟨front, c, rest, rfl, queued, named, before, behind⟩ := exists_first_waiting first
  have running : JobCall.stage { c with stage := .running } ≠ .queued := nofun
  refine ⟨front, { c with stage := .running }, rest, rfl, named, ?_, ⟨mirrors.table, ?_⟩,
    prefix_of_settled idle kept queued⟩
  · rw [after_proceed_mid, JobCall.take, if_pos queued]
  · rw [waiting_append, before, waiting_cons running, behind]
    rfl

/-- The detached jobs have their turns. -/
theorem Mirrors.drainFor {settled : List JobCall} (mirrors : t.Mirrors r)
    (idle : waiting settled = []) (kept : settled <+: t.calls) (fuel : Nat) :
    ∃ moves, (t.run moves).Mirrors (r.drainFor fuel) ∧ settled <+: (t.run moves).calls := by
  induction fuel generalizing t r with
  | zero => exact ⟨[], mirrors, kept⟩
  | succ fuel ih =>
      rw [JobRunner.drainFor]
      split
      · exact ⟨[], mirrors, kept⟩
      · rename_i name mode calls failure later queue
        obtain ⟨front, c, rest, running, named, begun, mirrors', kept'⟩ :=
          mirrors.begin queue idle kept
        have started : Mirrors ⟨t.table, front ++ c :: rest⟩
            (JobRunner.note { r with queue := later } (.started name)) :=
          ⟨mirrors'.table, mirrors'.queue⟩
        obtain ⟨moves, made, called⟩ := started.callAll calls
        obtain ⟨moves', more, ended, calls'⟩ := called.finish made running failure
        rw [named] at ended
        obtain ⟨moves'', done, kept''⟩ :=
          ih ended (calls' ▸ kept'.trans (List.prefix_append _ _))
        refine ⟨.proceed front.length .begin :: (moves ++ (moves' ++ moves'')), ?_⟩
        rw [run_cons, begun, run_append, run_append]
        exact ⟨done, kept''⟩

end JobTraffic

/-! ## What a runner is asked -/

/-- What a runner may be asked. -/
inductive JobRequest where
  /-- Call a job and let the detached ones finish. -/
  | run (j : Job)
  /-- Start a job that goes on until it is told to finish. -/
  | start (name : String)
  /-- Tell it. -/
  | stop (name : String)

/-- The call that is asked for, by its name and how it is waited for. -/
def JobRequest.call? : JobRequest → Option (String × JobMode)
  | run j => some (j.name, j.mode)
  | start name => some (name, .detached)
  | stop _ => none

namespace JobRunner

/-- Do as asked, and answer a call. -/
def serve (r : JobRunner) : JobRequest → Option (Except JobError Unit) × JobRunner
  | .run j => ((r.run j).1, (r.run j).2)
  | .start name => ((r.startBlocked name).1, (r.startBlocked name).2)
  | .stop name => (none, (r.finishBlocked name).2)

def serveAll (r : JobRunner) (requests : List JobRequest) : JobRunner :=
  requests.foldl (fun r request => (r.serve request).2) r

theorem queue_serve (r : JobRunner) (idle : r.queue = []) (request : JobRequest) :
    (r.serve request).2.queue = [] := by
  cases request with
  | run j => exact queue_drain _
  | start name =>
      rw [serve, startBlocked]
      split
      · exact idle
      · dsimp only
        split <;> exact idle
  | stop name =>
      rw [serve, finishBlocked]
      split <;> exact idle

end JobRunner

namespace JobTraffic

variable {t : JobTraffic} {r : JobRunner} {i : Nat} {c : JobCall}

/-- What a caller has been told stays, whatever else happens. -/
theorem Exclusive.answer_run (exclusive : t.Exclusive) {answer : Except JobError Unit}
    (found : t.calls[i]? = some c) (told : c.answer = some answer) (moves : List JobMove) :
    ∃ c', (t.run moves).calls[i]? = some c' ∧ c'.name = c.name ∧ c'.mode = c.mode ∧
      c'.answer = some answer := by
  induction moves generalizing t c with
  | nil => exact ⟨c, found, rfl, rfl, told⟩
  | cons move moves ih =>
      have exclusive' := exclusive.after move
      rcases calls_after found move with ⟨-, same⟩ | ⟨step, -, changed⟩
      · exact ih exclusive' same told
      · have told' := (exclusive.told c (List.mem_of_getElem? found)).answer_take t.table step told
        obtain ⟨c', found', name, mode, answered⟩ := ih exclusive' changed told'
        exact ⟨c', found', name.trans (c.name_take t.table step),
          mode.trans (c.mode_take t.table step), answered⟩

/-- An answer is not taken back by moves that leave the calls made before as they are. -/
theorem Answers.append {moves moves' : List JobMove} {name : String} {mode : JobMode}
    {answer : Except JobError Unit} (answers : t.Answers moves name mode answer)
    (exclusive : t.Exclusive) (kept : t.calls <+: ((t.run moves).run moves').calls) :
    t.Answers (moves ++ moves') name mode answer := by
  obtain ⟨first, c, more, calls, rfl, rfl, told⟩ := answers
  have found : (t.run moves).calls[t.calls.length]? = some c := by simp [calls]
  obtain ⟨c', found', same⟩ := (exclusive.run moves).answer_run found told moves'
  obtain ⟨tail, calls'⟩ := kept
  rw [← calls', List.getElem?_append_right (Nat.le_refl _), Nat.sub_self] at found'
  refine ⟨first.trans (List.prefix_append _ _), c', tail.tail, ?_, same⟩
  rw [run_append, ← calls', List.cons_head?_tail (List.head?_eq_getElem?.trans found')]

/-- A runner that nobody waits for does as it is asked by some interleaving, and gives the answer
that the call asked for gets there. -/
theorem Mirrors.serve (mirrors : t.Mirrors r) (exclusive : t.Exclusive) (idle : r.queue = [])
    (request : JobRequest) : ∃ moves, (t.run moves).Mirrors (r.serve request).2 ∧
      ∀ answer, (r.serve request).1 = some answer → ∃ name mode,
        request.call? = some (name, mode) ∧ t.Answers moves name mode answer := by
  have settled : waiting t.calls = [] := mirrors.queue.trans (by rw [idle]; rfl)
  cases request with
  | run j =>
      obtain ⟨moves, called, answers⟩ := mirrors.call j
      obtain ⟨moves', drained, kept⟩ :=
        called.drainFor settled answers.kept (Job.sizes (r.call j).2.queue)
      refine ⟨moves ++ moves', run_append moves moves' ▸ drained, fun answer same => ?_⟩
      cases same
      exact ⟨j.name, j.mode, rfl, answers.append exclusive kept⟩
  | start name =>
      obtain ⟨moves, called, answers⟩ := mirrors.call (.mk name .detached [] none)
      rw [JobRunner.call] at called answers
      rw [JobRunner.serve, JobRunner.startBlocked]
      cases started : r.table.start? name with
      | none =>
          rw [started] at called answers
          refine ⟨moves, called, fun answer same => ?_⟩
          cases same
          exact ⟨name, .detached, rfl, answers⟩
      | some table =>
          rw [started] at called answers
          have queue : r.queue ++ [.mk name .detached [] none] = [.mk name .detached [] none] := by
            rw [idle, List.nil_append]
          obtain ⟨front, d, rest, -, -, begun, begun', kept⟩ :=
            called.begin queue settled answers.kept
          have fresh : r.table.running.contains name = false := by
            rw [← mirrors.table] at started ⊢
            have free := (JobTable.start?_eq_some started).1
            simpa using mt (exclusive.lock name).mpr free
          have whole : (t.run moves).run [.proceed front.length .begin] =
              ⟨(t.run moves).table, front ++ d :: rest⟩ := begun
          refine ⟨moves ++ [.proceed front.length .begin], ?_, fun answer same => ?_⟩
          · dsimp only
            rw [if_neg (by rw [fresh]; nofun), run_append, whole]
            exact ⟨begun'.table, begun'.queue.trans (by rw [idle])⟩
          · cases same
            refine ⟨name, .detached, rfl, answers.append exclusive ?_⟩
            rw [whole]
            exact kept.trans (List.prefix_append _ _)
  | stop name =>
      rw [JobRunner.serve, JobRunner.finishBlocked]
      split
      · rename_i busy
        obtain ⟨table, calls⟩ := t
        have member : name ∈ held ⟨table, calls⟩ := by
          rw [← mirrors.table, List.contains_iff_mem] at busy
          exact exclusive.running.mem_iff.mp busy
        obtain ⟨c, found, rfl⟩ := List.mem_map.mp member
        obtain ⟨found, busy⟩ := List.mem_filter.mp found
        obtain ⟨front, rest, rfl⟩ := List.append_of_mem found
        have begun : c.stage ≠ .queued := fun queued => by
          have queue := mirrors.queue
          rw [idle, waiting_append, waiting_cons_queued queued] at queue
          simp at queue
        obtain ⟨moves, result, ended⟩ := exists_end table rest busy begun
        refine ⟨moves, ?_, nofun⟩
        rw [ended]
        exact mirrors.giveBack begun result
      · exact ⟨[], mirrors, nofun⟩

/-- So does one that is asked again and again. -/
theorem Mirrors.serveAll (mirrors : t.Mirrors r) (exclusive : t.Exclusive) (idle : r.queue = [])
    (requests : List JobRequest) : (r.serveAll requests).queue = [] ∧
      ∃ moves, (t.run moves).Mirrors (r.serveAll requests) := by
  induction requests generalizing t r with
  | nil => exact ⟨idle, [], mirrors⟩
  | cons request requests ih =>
      obtain ⟨moves, served, -⟩ := mirrors.serve exclusive idle request
      obtain ⟨idle', moves', served'⟩ :=
        ih served (exclusive.run moves) (r.queue_serve idle request)
      exact ⟨idle', moves ++ moves', (run_append moves moves').symm ▸ served'⟩

/-! ## At every moment -/

/-- A call of the name has the lock, and has not given it back. -/
def UnderWay (t : JobTraffic) (name : String) : Prop :=
  ∃ c ∈ t.calls, c.holds = true ∧ c.name = name

theorem Exclusive.mem_lock_iff (exclusive : t.Exclusive) (name : String) :
    name ∈ t.table.lock ↔ t.UnderWay name := by
  rw [exclusive.lock, exclusive.running.mem_iff, held, List.mem_map, UnderWay]
  exact exists_congr fun c => by rw [List.mem_filter, and_assoc]

theorem Exclusive.pairwise (exclusive : t.Exclusive) :
    t.calls.Pairwise fun c d => c.holds = true → d.holds = true → c.name ≠ d.name := by
  have nodup := exclusive.running.nodup_iff.mp exclusive.nodup
  rw [held, List.Nodup, List.pairwise_map, List.pairwise_filter] at nodup
  exact nodup

/-- A caller is told that a job is already running by the attempt that finds one under way. -/
theorem Exclusive.refused_iff (exclusive : t.Exclusive) (found : t.calls[i]? = some c)
    (move : JobMove) : (t.after move).answer? i = some (.error (.alreadyRunning c.name)) ↔
      t.answer? i = some (.error (.alreadyRunning c.name)) ∨
        move = .proceed i .attempt ∧ c.stage = .pending ∧ t.UnderWay c.name := by
  have told := exclusive.told c (List.mem_of_getElem? found)
  have before : t.answer? i = c.answer := by rw [answer?, found, Option.bind_some]
  rcases calls_after found move with ⟨other, same⟩ | ⟨step, rfl, changed⟩
  · have after : (t.after move).answer? i = c.answer := by rw [answer?, same, Option.bind_some]
    rw [before, after]
    exact (or_iff_left fun attempted => other _ attempted.1).symm
  · have after : (t.after (.proceed i step)).answer? i = (c.take t.table step).1.answer := by
      rw [answer?, changed, Option.bind_some]
    have told' := (told.take t.table step).refused
    rw [JobCall.name_take] at told'
    rw [before, after, told.refused, told', JobCall.take_refused_iff, JobTable.start?_eq_none_iff,
      exclusive.mem_lock_iff]
    simp

theorem Exclusive.attempt (exclusive : t.Exclusive) (found : t.calls[i]? = some c)
    (pending : c.stage = .pending) :
    (t.UnderWay c.name → (t.after (.proceed i .attempt)).table = t.table) ∧
    (¬t.UnderWay c.name →
      ∃ c', (t.after (.proceed i .attempt)).calls[i]? = some c' ∧ c'.holds = true) := by
  obtain ⟨there, -⟩ := List.getElem?_eq_some_iff.mp found
  rw [after_proceed found, JobCall.take, if_pos pending, JobCall.attempt,
    ← exclusive.mem_lock_iff, ← JobTable.start?_eq_none_iff]
  refine ⟨fun held => by rw [held], fun free => ⟨_, List.getElem?_set_self there, ?_⟩⟩
  obtain ⟨table, started⟩ := Option.ne_none_iff_exists'.mp free
  rw [started]
  cases c.mode <;> rfl

/-- A call that has been refused is through. -/
theorem stays_refused (found : t.calls[i]? = some c) (refused : c.stage = .refused)
    (more : List JobMove) : (t.run more).calls[i]? = some c := by
  induction more generalizing t with
  | nil => exact found
  | cons move more ih =>
      refine ih ?_
      rcases calls_after found move with ⟨-, same⟩ | ⟨step, -, changed⟩
      · exact same
      · rw [changed, c.take_refused t.table step refused]

theorem after_refused (found : t.calls[i]? = some c) (refused : c.stage = .refused)
    (step : JobStep) : t.after (.proceed i step) = t := by
  obtain ⟨there, rfl⟩ := List.getElem?_eq_some_iff.mp found
  rw [after_proceed found, JobCall.take_refused _ t.table step refused, List.set_getElem_self]

/-- A job that is under way stays so until its own call gives the lock back. -/
theorem holds_after (found : t.calls[i]? = some c) (busy : c.holds = true) {move : JobMove}
    (kept : ∀ step, move = .proceed i step → c.stage.endsBy step = false) :
    ∃ c', (t.after move).calls[i]? = some c' ∧ c'.name = c.name ∧ c'.holds = true := by
  rcases calls_after found move with ⟨-, same⟩ | ⟨step, rfl, changed⟩
  · exact ⟨c, same, rfl, busy⟩
  · refine ⟨_, changed, c.name_take t.table step, ?_⟩
    rcases c.take_cases t.table step with ⟨-, same, -⟩ | ⟨-, -, taken, -⟩ | ⟨ends, -⟩
    · exact same.trans busy
    · exact taken
    · rw [kept step rfl] at ends
      cases ends

theorem not_mem_lock_after (found : t.calls[i]? = some c) {step : JobStep}
    (ends : c.stage.endsBy step = true) :
    c.name ∉ (t.after (.proceed i step)).table.lock := by
  rw [after_proceed found]
  rcases c.take_cases t.table step with ⟨kept, -⟩ | ⟨kept, -⟩ | ⟨-, -, -, given⟩
  · rw [ends] at kept
    cases kept
  · rw [ends] at kept
    cases kept
  · rw [given]
    exact fun held => (SortedSet.mem_erase.mp held).2 rfl

end JobTraffic

open JobTraffic

/-- However any number of calls interleave, with each other and with the jobs that they start, at
every moment one job of a name is under way at most, and its lock is held just then. A caller is told
that a job is already running just if one is when it tries, and then its own never runs, and nothing
that it does concerns the lock. One that is not told so has the lock. A job under way stays so until
its own call ends it, and then its name is free. A runner, which does one thing after the other, is a
case of this: the call that it is asked for is the next one made and tries at once, those made before
stay as they are, and the answer that the runner gives is the one that this call has got. -/
theorem jobs_exclusive (moves : List JobMove) :
    let t := JobTraffic.empty.run moves
    (t.calls.Pairwise fun c d => c.holds = true → d.holds = true → c.name ≠ d.name) ∧
    (∀ name, t.table.isHeld name = true ↔ t.UnderWay name) ∧
    (∀ i c, t.calls[i]? = some c →
      (∀ move, (t.after move).answer? i = some (.error (.alreadyRunning c.name)) ↔
        t.answer? i = some (.error (.alreadyRunning c.name)) ∨
          move = .proceed i .attempt ∧ c.stage = .pending ∧ t.UnderWay c.name) ∧
      (c.stage = .pending →
        (t.UnderWay c.name → (t.after (.proceed i .attempt)).table = t.table) ∧
        (¬t.UnderWay c.name →
          ∃ c', (t.after (.proceed i .attempt)).calls[i]? = some c' ∧ c'.holds = true)) ∧
      (t.answer? i = some (.error (.alreadyRunning c.name)) →
        c.stage = .refused ∧ ∀ more step, (t.run more).calls[i]? = some c ∧
          (t.run more).after (.proceed i step) = t.run more) ∧
      (c.holds = true → ∀ move,
        ((∀ step, move = .proceed i step → c.stage.endsBy step = false) →
          ∃ c', (t.after move).calls[i]? = some c' ∧ c'.name = c.name ∧ c'.holds = true) ∧
        ∀ step, move = .proceed i step → c.stage.endsBy step = true →
          (t.after move).table.isHeld c.name = false ∧
            ((t.after move).table.start? c.name).isSome = true)) ∧
    ∀ requests request, ∃ before during,
      let r := JobRunner.empty.serveAll requests
      let t := JobTraffic.empty.run before
      t.table = r.table ∧ (t.run during).table = (r.serve request).2.table ∧
        ∀ answer, (r.serve request).1 = some answer → ∃ name mode,
          request.call? = some (name, mode) ∧ t.Answers during name mode answer := by
  intro t
  have exclusive : t.Exclusive := exclusive_empty.run moves
  refine ⟨exclusive.pairwise, fun name => decide_eq_true_iff.trans (exclusive.mem_lock_iff name),
    fun i c found => ⟨exclusive.refused_iff found, exclusive.attempt found, fun told => ?_,
      fun busy move => ⟨holds_after found busy, fun step own ends => ?_⟩⟩,
    fun requests request => ?_⟩
  · rw [answer?, found] at told
    have refused := (exclusive.told c (List.mem_of_getElem? found)).refused.mp told
    refine ⟨refused, fun more step => ?_⟩
    have stays := stays_refused found refused more
    exact ⟨stays, after_refused stays refused step⟩
  · subst own
    have free := not_mem_lock_after found ends
    refine ⟨decide_eq_false free, ?_⟩
    exact Option.isSome_iff_ne_none.mpr (mt JobTable.start?_eq_none_iff.mp free)
  · have idle : Mirrors empty JobRunner.empty := ⟨rfl, rfl⟩
    obtain ⟨settled, before, mirrors⟩ := idle.serveAll exclusive_empty rfl requests
    obtain ⟨during, mirrors', answers⟩ :=
      mirrors.serve (exclusive_empty.run before) settled request
    exact ⟨before, during, mirrors.table, mirrors'.table, answers⟩

/-- An import that has its lock, while another import and an export are about to try. -/
def JobTraffic.importing : List JobMove :=
  [.call "import" .detached, .proceed 0 .attempt, .call "import" .wait, .call "export" .wait]

/-- The other import is refused and through, the export begins, and when the first import is dropped
its name is free. -/
theorem jobs_exclusive_importing :
    let t := JobTraffic.empty.run JobTraffic.importing
    let t' := t.after (.proceed 1 .attempt)
    t'.answer? 1 = some (.error (.alreadyRunning "import")) ∧ t'.table = t.table ∧
      (∀ more step, (t'.run more).after (.proceed 1 step) = t'.run more) ∧
      (∃ c, (t.after (.proceed 2 .attempt)).calls[2]? = some c ∧ c.holds = true) ∧
      (t.after (.proceed 0 .cancel)).table.isHeld "import" = false := by
  intro t t'
  obtain ⟨-, -, calls, -⟩ := jobs_exclusive JobTraffic.importing
  obtain ⟨-, -, -, first⟩ := calls 0 ⟨"import", .detached, .queued, some (.ok ())⟩ rfl
  obtain ⟨refused, second, -⟩ := calls 1 ⟨"import", .wait, .pending, none⟩ rfl
  obtain ⟨-, third, -⟩ := calls 2 ⟨"export", .wait, .pending, none⟩ rfl
  have importUnderWay : t.UnderWay "import" := ⟨_, List.mem_cons_self, rfl, rfl⟩
  have exportIdle : ¬t.UnderWay "export" := by
    rintro ⟨c, member, busy, named⟩
    rcases member with _ | ⟨_, _ | ⟨_, _ | ⟨_, ⟨⟩⟩⟩⟩
    · exact absurd named (by decide)
    · cases busy
    · cases busy
  have told := (refused (.proceed 1 .attempt)).mpr (.inr ⟨rfl, rfl, importUnderWay⟩)
  refine ⟨told, (second rfl).1 importUnderWay, ?_, (third rfl).2 exportIdle, ?_⟩
  · obtain ⟨-, -, calls', -⟩ := jobs_exclusive (JobTraffic.importing ++ [.proceed 1 .attempt])
    obtain ⟨-, -, through, -⟩ := calls' 1 ⟨"import", .wait, .refused, _⟩ rfl
    exact fun more step => ((through rfl).2 more step).2
  · exact ((first rfl (.proceed 0 .cancel)).2 .cancel rfl rfl).1

end ScopedAccess
