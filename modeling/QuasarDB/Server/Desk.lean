import QuasarDB.Server.Deployment
import QuasarDB.Server.Proofs.Handlers
import QuasarDB.Server.Store

set_option autoImplicit false

/-! # What the server is for

Clients have sessions, and their statements are carried out on databases, one at a time: at once, or as tasks
in the background whose results are asked for later. -/

namespace QuasarDB.Server

open Core Storage

/-- The request asks for accounts or rules. -/
def asksForSecurity (request : Request) : Prop :=
  ∃ query statement, request.query = .ok query ∧ parse (Lexer.tokenize query) = .ok statement ∧
    statement.IsSecurity

/-- How a statement is answered, when it is carried out with this outcome. -/
def answerOf : Except String Response → Response
  | .ok response => response
  | .error what => .error what

/-- The session after a statement that is answered with this response. -/
def Session.after (statement : Statement) (response : Response) (session : Session) : Session :=
  match statement with
  | .useDatabase name =>
      if response.isSuccess then { session with database := some name } else session
  | _ => session

/-- What the clients have to do with. -/
structure Desk (τ : Type) where
  store : Store τ
  sessions : Nat → Session
  tasks : TaskProcessor

namespace Desk

variable {τ : Type}

/-- Nobody has come yet. -/
def empty : Desk τ where
  store := .empty
  sessions _ := {}
  tasks := .new

/-- How a request may be answered without the databases: it is refused, it is about the server and not about
    data, or it gets what there is of a task. -/
inductive Aside (tasks : TaskProcessor) (request : Request) (response : Response) : Prop
  | refused (herror : response.isError = true)
  | management (haction : request.action ∈ ["handshake", "login", "telemetry"])
  | security (hasks : asksForSecurity request)
  | result (id : String) (task : TaskResult) (haction : request.action = "check_task")
      (hid : request.taskId = some id) (htask : tasks.get id = some task)
      (hresponse : response = taskResponse id task)

/-- How a request may be answered. -/
inductive Answers (auto : Bool) (ops : TableOps τ) (connection : Nat) (env : Env) (links : ClusterEnv)
    (request : Request) (desk : Desk τ) : Response → Desk τ → Prop
  | aside (response : Response) (haside : Aside desk.tasks request response) :
      Answers auto ops connection env links request desk response desk
  | carriedOut (statement : Statement) (response : Response) (store : Store τ)
      (hrequested : requestedStatement (desk.sessions connection) request = some statement)
      (hshort : isLongRunning statement = false)
      (houtcome : desk.store.Outcome auto ops links statement response store) :
      Answers auto ops connection env links request desk response
        { desk with
          store
          sessions := Function.update desk.sessions connection
            ((desk.sessions connection).after statement response) }
  | submitted (statement : Statement)
      (hrequested : requestedStatement (desk.sessions connection) request = some statement)
      (hlong : isLongRunning statement = true) :
      Answers auto ops connection env links request desk
        (.pending "Operation is running in background" (.object [("task_id", .string env.taskId)]))
        { desk with tasks := desk.tasks.submit env.taskId env.poolAccepts statement }

/-- What an event may do. -/
def Effect (auto : Bool) (ops : TableOps τ) :
    Specification Deployment.Event (Option Response) (Desk τ) := fun event desk answer desk' =>
  match event with
  | .connect connection =>
      answer = none ∧ desk' = { desk with sessions := Function.update desk.sessions connection {} }
  | .request connection env links request =>
      ∃ response, answer = some response ∧
        desk.Answers auto ops connection env links request response desk'
  | .startTask => answer = none ∧ desk' = { desk with tasks := desk.tasks.start }
  | .finishTask index links =>
      answer = none ∧
        match desk.tasks.running[index]? with
        | none => desk' = desk
        | some job =>
            ∃ outcome store, desk.store.Outcome auto ops links job.statement (answerOf outcome) store ∧
              desk' = { desk with store, tasks := desk.tasks.finish index job outcome }
  | .updateNode id state =>
      answer = none ∧ desk' = { desk with store := desk.store.report id (state = .down) }
  | .restartNode id start =>
      answer = none ∧ desk' = { desk with store := desk.store.restart ops id (start.finds auto) }

end Desk

end QuasarDB.Server
