import Mathlib.Algebra.Order.Ring.Int
import Mathlib.Data.List.Basic

set_option autoImplicit false

/-! # The thread pool

`thread_pool.cpp` as steps of its threads: each is a critical section of `mutex_`, or the run of a
task. A task that is accepted gets a number, and the pool keeps a log of what became of it. -/

namespace QuasarDB.Core

/-- Where a worker is in `Run`. -/
inductive Worker (τ : Type) where
  /-- Before it looks at `stopped_` and `tasks_`. -/
  | checking
  /-- In `ready_.wait`. -/
  | asleep
  /-- It has taken a task from the queue. -/
  | taken (task : τ × Nat)
  | running (task : τ × Nat)
  | exited

structure ThreadPool (τ : Type) where
  /-- `tasks_`. -/
  queue : List (τ × Nat)
  stopped : Bool
  workers : List (Worker τ)
  /-- The tasks that were accepted, in this order. -/
  accepted : List τ
  /-- The tasks that were taken from the queue, in this order. -/
  taken : List (τ × Nat)
  /-- The tasks that have begun, and those that have ended. -/
  began : List (τ × Nat)
  ended : List (τ × Nat)

namespace ThreadPool

variable {τ : Type}

/-- The constructor. -/
def new (workers : Nat) : ThreadPool τ where
  queue := []
  stopped := false
  workers := List.replicate (if workers = 0 then 1 else workers) .checking
  accepted := []
  taken := []
  began := []
  ended := []

/-- The pool with a worker at another place. -/
def put (w : Nat) (worker : Worker τ) (pool : ThreadPool τ) : ThreadPool τ :=
  { pool with workers := pool.workers.set w worker }

/-- `Submit`. -/
def submit (task : τ) (pool : ThreadPool τ) : Bool × ThreadPool τ :=
  if pool.stopped then (false, pool)
  else
    (true, { pool with
      queue := pool.queue ++ [(task, pool.accepted.length)]
      accepted := pool.accepted ++ [task] })

/-- `Stop`, up to where it waits for the workers. -/
def stop (pool : ThreadPool τ) : ThreadPool τ := { pool with stopped := true }

/-- The predicate of `ready_.wait`. -/
def isReady (pool : ThreadPool τ) : Bool := pool.stopped || !pool.queue.isEmpty

/-- A worker finds nothing to do. -/
def sleep (w : Nat) (pool : ThreadPool τ) : Option (ThreadPool τ) :=
  match pool.workers[w]? with
  | some .checking => if pool.isReady then none else some (pool.put w .asleep)
  | _ => none

/-- A worker wakes up, notified or not. -/
def wake (w : Nat) (pool : ThreadPool τ) : Option (ThreadPool τ) :=
  match pool.workers[w]? with
  | some .asleep => some (pool.put w .checking)
  | _ => none

/-- A worker takes the first task of the queue. -/
def take (w : Nat) (pool : ThreadPool τ) : Option (ThreadPool τ) :=
  match pool.workers[w]?, pool.queue with
  | some .checking, task :: queue =>
      some { pool.put w (.taken task) with queue, taken := pool.taken ++ [task] }
  | _, _ => none

/-- A worker returns from `Run`. -/
def exit (w : Nat) (pool : ThreadPool τ) : Option (ThreadPool τ) :=
  match pool.workers[w]? with
  | some .checking =>
      if pool.stopped && pool.queue.isEmpty then some (pool.put w .exited) else none
  | _ => none

/-- A worker calls its task. -/
def begin (w : Nat) (pool : ThreadPool τ) : Option (ThreadPool τ) :=
  match pool.workers[w]? with
  | some (.taken task) => some { pool.put w (.running task) with began := pool.began ++ [task] }
  | _ => none

/-- The task of a worker returns. -/
def finish (w : Nat) (pool : ThreadPool τ) : Option (ThreadPool τ) :=
  match pool.workers[w]? with
  | some (.running task) => some { pool.put w .checking with ended := pool.ended ++ [task] }
  | _ => none

/-- What threads do to a pool: those that use it, and its workers. -/
inductive Event (τ : Type) where
  | submit (task : τ)
  | stop
  | sleep (w : Nat)
  | wake (w : Nat)
  | take (w : Nat)
  | begin (w : Nat)
  | finish (w : Nat)
  | exit (w : Nat)

/-- A step, if the thread can take it. -/
def step : Event τ → ThreadPool τ → Option (ThreadPool τ)
  | .submit task, pool => some (pool.submit task).2
  | .stop, pool => some pool.stop
  | .sleep w, pool => pool.sleep w
  | .wake w, pool => pool.wake w
  | .take w, pool => pool.take w
  | .begin w, pool => pool.begin w
  | .finish w, pool => pool.finish w
  | .exit w, pool => pool.exit w

/-- A run of the threads in some order. -/
def run : List (Event τ) → ThreadPool τ → Option (ThreadPool τ)
  | [], pool => some pool
  | event :: events, pool => (pool.step event).bind (run events)

end ThreadPool

end QuasarDB.Core
