import ScopedAccess.Sorted.Set
/-!
# Exclusive jobs

A job of a name runs only while it holds the lock of that name (`JobTable.start?`),
and gives it back when it ends, in whatever way (`JobTable.finish`). The lock can be
taken and given back from outside as well.

A job is called by name. If one of that name is under way the call is refused. A
caller that waits runs the job at once and learns how it ended; a detached job has
its lock from the call on but starts later, in the order of calls
(`JobRunner.drain`), and its failure is told to nobody.

A job may call others while it runs. `JobRunner` keeps what happened in order.
-/

namespace ScopedAccess

set_option autoImplicit false

/-! ## Locks -/

/-- The names whose lock is held. -/
abbrev JobLock : Type := SortedSet String

namespace JobLock

/-- Take the lock of a name, if it is free. -/
def acquire? (l : JobLock) (name : String) : Option JobLock :=
  if name ∈ l then none else some (l.insert name)

def release (l : JobLock) (name : String) : JobLock := l.erase name

end JobLock

/-- The locks held and the names of the jobs under way. -/
structure JobTable where
  lock : JobLock
  running : List String

namespace JobTable

def empty : JobTable := ⟨∅, []⟩

def isHeld (t : JobTable) (name : String) : Bool := decide (name ∈ t.lock)

/-- Start a job, if the lock of its name is free. -/
def start? (t : JobTable) (name : String) : Option JobTable :=
  (t.lock.acquire? name).map fun lock => ⟨lock, t.running ++ [name]⟩

/-- End a job. -/
def finish (t : JobTable) (name : String) : JobTable :=
  ⟨t.lock.release name, t.running.erase name⟩

end JobTable

/-! ## Running jobs -/

/-- How a caller waits for a job. -/
inductive JobMode where
  | detached
  | wait
  deriving DecidableEq

/-- Why a call of a job failed. -/
inductive JobError where
  | alreadyRunning (name : String)
  | failed (name message : String)
  deriving DecidableEq

def JobError.message : JobError → String
  | alreadyRunning name => s!"job '{name}' is already running"
  | failed name message => s!"job '{name}' failed: {message}"

/-- A job: the jobs that it calls in order, and the messages that it fails with in the
end, outermost first, if it does. -/
inductive Job where
  | mk (name : String) (mode : JobMode) (calls : List Job) (failure : Option (List String))

instance : Inhabited Job := ⟨.mk "" .detached [] none⟩

/-- Something that happened. -/
inductive JobEvent where
  | started (name : String)
  /-- A call made by a job returned. -/
  | returned (result : Except JobError Unit)

/-- The jobs under way, those that wait to start, and what happened. -/
structure JobRunner where
  table : JobTable
  queue : List Job
  log : List JobEvent

namespace Job

/-- How a job ends. -/
def outcome (name : String) : Option (List String) → Except JobError Unit
  | none => .ok ()
  | some messages => .error (.failed name (String.intercalate ": " messages))

mutual

/-- The number of jobs in a job. -/
def size : Job → Nat
  | .mk _ _ calls _ => sizes calls + 1

def sizes : List Job → Nat
  | [] => 0
  | j :: rest => j.size + sizes rest

end

end Job

namespace JobRunner

def empty : JobRunner := ⟨.empty, [], []⟩

def note (r : JobRunner) (e : JobEvent) : JobRunner := { r with log := r.log ++ [e] }

def finish (r : JobRunner) (name : String) : JobRunner := { r with table := r.table.finish name }

mutual

/-- Call a job. -/
def call (r : JobRunner) : Job → Except JobError Unit × JobRunner
  | .mk name mode calls failure =>
    match r.table.start? name with
    | none => (.error (.alreadyRunning name), r)
    | some table =>
      let r := { r with table }
      match mode with
      | .detached => (.ok (), { r with queue := r.queue ++ [.mk name mode calls failure] })
      | .wait =>
        let r := (r.note (.started name)).callAll calls
        (Job.outcome name failure, r.finish name)

/-- Call jobs in order, noting what each call returned. -/
def callAll (r : JobRunner) : List Job → JobRunner
  | [] => r
  | j :: rest =>
    let (result, r) := r.call j
    (r.note (.returned result)).callAll rest

end

/-- Run the detached jobs that wait to start, and those that they call in turn. Each
job leaves the queue once, so their number bounds the run. -/
def drainFor : Nat → JobRunner → JobRunner
  | 0, r => r
  | fuel + 1, r =>
    match r.queue with
    | [] => r
    | .mk name _ calls _ :: rest =>
      let r := ({ r with queue := rest }.note (.started name)).callAll calls
      drainFor fuel (r.finish name)

def drain (r : JobRunner) : JobRunner := drainFor (Job.sizes r.queue) r

/-- Call a job and let the detached ones finish. -/
def run (r : JobRunner) (j : Job) : Except JobError Unit × JobRunner :=
  let (result, r) := r.call j
  (result, r.drain)

/-- Start a job that goes on until it is told to finish. One of that name that was
started before, and has lost its lock since, ends now. -/
def startBlocked (r : JobRunner) (name : String) : Except JobError Unit × JobRunner :=
  match r.table.start? name with
  | none => (.error (.alreadyRunning name), r)
  | some table =>
    let started : JobRunner := { r with table }
    (.ok (), if r.table.running.contains name then started.finish name else started)

/-- Finish a job that goes on; whether there was one. -/
def finishBlocked (r : JobRunner) (name : String) : Bool × JobRunner :=
  if r.table.running.contains name then (true, r.finish name) else (false, r)

/-- Take a lock from outside; whether it was free. -/
def acquire (r : JobRunner) (name : String) : Bool × JobRunner :=
  match r.table.lock.acquire? name with
  | some lock => (true, { r with table := { r.table with lock } })
  | none => (false, r)

/-- Give a lock back from outside. -/
def release (r : JobRunner) (name : String) : JobRunner :=
  { r with table := { r.table with lock := r.table.lock.release name } }

end JobRunner

end ScopedAccess
