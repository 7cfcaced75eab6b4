import QuasarDB.Core.ThreadPool
import QuasarDB.Server.TaskProcessor

set_option autoImplicit false

/-! # The threads of the task processor

`task_processor.cpp` as steps of its threads, each a critical section of `mutex_` or of the pool's
mutex, or a part of the handler's run. `GenerateId` is seen through the ids it gives. -/

namespace QuasarDB.Server

open Core

/-- Where a worker is in the closure of a task. -/
inductive Stage where
  /-- The task is running, the handler has not been called. -/
  | started
  | calling
  /-- The handler has returned, or has thrown. -/
  | returned (result : Except String Response)

structure TaskPool where
  /-- `tasks_`. -/
  tasks : Dict TaskResult
  /-- `pool_`. -/
  pool : ThreadPool Job
  /-- The tasks of the calls of `Submit` that have not come to the pool. -/
  submitting : List Job
  /-- The tasks that the pool has refused. -/
  refused : List Job
  /-- By worker. -/
  stages : Nat → Stage
  /-- The tasks whose statements the handler was called with. -/
  called : List Job

namespace TaskPool

/-- The constructor. -/
def new (workers : Nat) : TaskPool where
  tasks := ∅
  pool := ThreadPool.new workers
  submitting := []
  refused := []
  stages := fun _ => .started
  called := []

/-- `Get`. -/
def get (s : TaskPool) (id : String) : Option TaskResult := s.tasks.lookup id

/-- `Update` on the map of tasks. -/
def update (id : String) (result : TaskResult) (tasks : Dict TaskResult) : Dict TaskResult :=
  match tasks.lookup id with
  | none => tasks
  | some task => if task.status = .failed then tasks else tasks.insert id result

/-- `Cancel`. -/
def cancel (id : String) (s : TaskPool) : Bool × TaskPool :=
  match s.get id with
  | none => (false, s)
  | some task =>
      if task.status = .completed then (false, s)
      else
        let cancelled : TaskResult := { task with status := .failed, error := some "cancelled" }
        (true, { s with tasks := s.tasks.insert id cancelled })

/-- `Submit`, up to where it goes to the pool. -/
def add (id : String) (statement : Statement) (s : TaskPool) : TaskPool :=
  { s with tasks := s.tasks.insert id {}, submitting := ⟨id, statement⟩ :: s.submitting }

/-- `Submit` at the pool. -/
def enqueue (i : Nat) (s : TaskPool) : Option TaskPool :=
  match s.submitting[i]? with
  | none => none
  | some job =>
      let (accepted, pool) := s.pool.submit job
      some { s with
        pool
        submitting := s.submitting.eraseIdx i
        refused := if accepted then s.refused else job :: s.refused }

/-- `Submit`, after the pool has refused the task. -/
def giveUp (i : Nat) (s : TaskPool) : Option TaskPool :=
  match s.refused[i]? with
  | none => none
  | some job =>
      some { s with
        tasks := update job.id { status := .failed, error := some "task processor stopped" } s.tasks
        refused := s.refused.eraseIdx i }

/-- A step of a worker in the pool's code. -/
def onPool (pool : Option (ThreadPool Job)) (s : TaskPool) : Option TaskPool :=
  pool.map fun pool => { s with pool }

/-- The closure of a task, up to the handler. -/
def start (w : Nat) (s : TaskPool) : Option TaskPool :=
  match s.pool.workers[w]? with
  | some (.taken (job, _)) =>
      (s.pool.begin w).map fun pool =>
        { s with
          pool
          tasks := update job.id { status := .running } s.tasks
          stages := Function.update s.stages w .started }
  | _ => none

/-- The closure calls the handler. -/
def call (w : Nat) (s : TaskPool) : Option TaskPool :=
  match s.pool.workers[w]?, s.stages w with
  | some (.running (job, _)), .started =>
      some { s with stages := Function.update s.stages w .calling, called := s.called ++ [job] }
  | _, _ => none

/-- The handler returns or throws. -/
def handled (w : Nat) (result : Except String Response) (s : TaskPool) : Option TaskPool :=
  match s.pool.workers[w]?, s.stages w with
  | some (.running _), .calling =>
      some { s with stages := Function.update s.stages w (.returned result) }
  | _, _ => none

/-- What the closure sets a task to when the handler has returned or thrown. -/
def outcome : Except String Response → TaskResult
  | .ok response => { status := .completed, response := some response }
  | .error what => { status := .failed, error := some what }

/-- The end of the closure. -/
def report (w : Nat) (s : TaskPool) : Option TaskPool :=
  match s.pool.workers[w]?, s.stages w with
  | some (.running (job, _)), .returned result =>
      (s.pool.finish w).map fun pool =>
        { s with pool, tasks := update job.id (outcome result) s.tasks }
  | _, _ => none

/-- What threads do to the task processor: those that use it, and its workers. -/
inductive Event where
  | add (id : String) (statement : Statement)
  | enqueue (i : Nat)
  | giveUp (i : Nat)
  | get (id : String)
  | cancel (id : String)
  | stop
  | sleep (w : Nat)
  | wake (w : Nat)
  | take (w : Nat)
  | start (w : Nat)
  | call (w : Nat)
  | handled (w : Nat) (result : Except String Response)
  | report (w : Nat)
  | exit (w : Nat)

/-- A step, if the thread can take it. -/
def step : Event → TaskPool → Option TaskPool
  | .add id statement, s => some (s.add id statement)
  | .enqueue i, s => s.enqueue i
  | .giveUp i, s => s.giveUp i
  | .get _, s => some s
  | .cancel id, s => some (s.cancel id).2
  | .stop, s => s.onPool (some s.pool.stop)
  | .sleep w, s => s.onPool (s.pool.sleep w)
  | .wake w, s => s.onPool (s.pool.wake w)
  | .take w, s => s.onPool (s.pool.take w)
  | .start w, s => s.start w
  | .call w, s => s.call w
  | .handled w result, s => s.handled w result
  | .report w, s => s.report w
  | .exit w, s => s.onPool (s.pool.exit w)

/-- A run of the threads in some order. -/
def run : List Event → TaskPool → Option TaskPool
  | [], s => some s
  | event :: events, s => (s.step event).bind (run events)

/-- The ids that `GenerateId` gives in a run. -/
def ids : List Event → List String
  | [] => []
  | .add id _ :: events => id :: ids events
  | _ :: events => ids events

end TaskPool

end QuasarDB.Server
