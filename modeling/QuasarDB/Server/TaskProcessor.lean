import QuasarDB.Core.JsonFile
import QuasarDB.Core.Message
import QuasarDB.Server.Router

set_option autoImplicit false

/-! # Background tasks

`task_processor.cpp`. The pool is its queue of submitted jobs and the jobs its workers are on; a worker
takes the first job of the queue, and runs it to its end. -/

namespace QuasarDB.Server

open Core

inductive TaskStatus where
  | pending
  | running
  | completed
  | failed
  deriving DecidableEq, Repr

structure TaskResult where
  status : TaskStatus := .pending
  response : Option Response := none
  error : Option String := none

/-- What a submitted closure holds. -/
structure Job where
  id : String
  statement : Statement
  deriving DecidableEq

structure TaskProcessor where
  tasks : Dict TaskResult
  queue : List Job
  running : List Job

namespace TaskProcessor

/-- The number of workers of the pool. -/
def workers : Nat := 2

/-- The constructor. -/
def new : TaskProcessor := { tasks := ∅, queue := [], running := [] }

/-- `Get`. -/
def get (processor : TaskProcessor) (id : String) : Option TaskResult := processor.tasks.lookup id

/-- `Update`: a task that is gone or has failed stays as it is. -/
def update (id : String) (result : TaskResult) (processor : TaskProcessor) : TaskProcessor :=
  match processor.get id with
  | none => processor
  | some task =>
      if task.status = .failed then processor
      else { processor with tasks := processor.tasks.insert id result }

/-- `Submit`, with the id `GenerateId` gives. -/
def submit (id : String) (accepted : Bool) (statement : Statement) (processor : TaskProcessor) :
    TaskProcessor :=
  let processor := { processor with tasks := processor.tasks.insert id {} }
  if accepted then { processor with queue := processor.queue ++ [⟨id, statement⟩] }
  else processor.update id { status := .failed, error := some "task processor stopped" }

/-- A free worker takes the first job. -/
def start (processor : TaskProcessor) : TaskProcessor :=
  match processor.queue with
  | [] => processor
  | job :: queue =>
      if processor.running.length < workers then
        { processor with queue, running := processor.running ++ [job] }.update job.id
          { status := .running }
      else processor

/-- The end of a job, with what the handler returned or threw. -/
def finish (index : Nat) (job : Job) (result : Except String Response)
    (processor : TaskProcessor) : TaskProcessor :=
  { processor with running := processor.running.eraseIdx index }.update job.id
    (match result with
      | .ok response => { status := .completed, response := some response }
      | .error what => { status := .failed, error := some what })

end TaskProcessor

end QuasarDB.Server
