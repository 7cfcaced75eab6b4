import QuasarDB.Server.Application
import Mathlib.Logic.Function.Basic

set_option autoImplicit false

/-! # The running server

The server with its connections, and what happens to it in a run: requests come in, background jobs
are carried out, and the monitor looks after the storage nodes. -/

namespace QuasarDB.Server

open Core

/-- The server, with the session of each connection. -/
structure System where
  app : Application
  sessions : Nat → Session

inductive Event where
  /-- A client connects, and the thread of its connection starts a session. -/
  | connect (connection : Nat)
  | request (connection : Nat) (env : Env) (request : Request)
  /-- A worker of the pool takes a job. -/
  | startTask
  /-- The worker with the `index`-th running job carries it out. -/
  | finishTask (index : Nat) (env : StorageEnv)
  /-- The monitor reports on a node. -/
  | updateNode (id : String) (state : StorageState)
  /-- The monitor restarts a node. -/
  | restartNode (id : String) (start : StartOutcome)

namespace System

/-- The state in which the request of a connection is handled. -/
def handling (system : System) (connection : Nat) : Handling :=
  { app := system.app, session := system.sessions connection }

/-- The server before anybody connects. -/
def start (app : Application) : System := { app, sessions := fun _ => {} }

/-- The end of a job: `Update` with what the handler returned or threw. Other failures end the
    process. -/
def finishTask (app : Application) (index : Nat) (job : Job) (env : StorageEnv) : Application :=
  match Router.route env job.statement app.router with
  | .ok response router =>
      { app with router, tasks := app.tasks.finish index job (.ok response) }
  | .error (.exception what) router =>
      { app with router, tasks := app.tasks.finish index job (.error what) }
  | .error _ router => { app with router }

/-- The server after an event. A failure that escapes from a handler ends the process; the state
    after it is the one that the failure leaves. -/
def step (config : Config) (system : System) : Event → System
  | .connect connection =>
      { system with sessions := Function.update system.sessions connection {} }
  | .request connection env request =>
      let h := (process config env request).after (system.handling connection)
      { app := h.app, sessions := Function.update system.sessions connection h.session }
  | .startTask => { system with app.tasks := system.app.tasks.start }
  | .finishTask index env =>
      match system.app.tasks.running[index]? with
      | none => system
      | some job => { system with app := finishTask system.app index job env }
  | .updateNode id state =>
      { system with app.router :=
          (Router.onRegistry (Registry.updateNode id state)).after system.app.router }
  | .restartNode id start =>
      { system with app.router :=
          (Router.onRegistry (Registry.restartNode start id)).after system.app.router }

/-- What the request of an event is answered with. -/
def answer (config : Config) (system : System) : Event → Option Response
  | .request connection env request =>
      match process config env request (system.handling connection) with
      | .ok response _ => some response
      | .error _ _ => none
  | _ => none

/-- The server after a run. -/
def run (config : Config) (system : System) : List Event → System
  | [] => system
  | e :: events => run config (system.step config e) events

/-- The events of a run, each with the server it happens to. -/
def history (config : Config) (system : System) : List Event → List (System × Event)
  | [] => []
  | e :: events => (system, e) :: history config (system.step config e) events

variable {config : Config} {system : System}

/-- A job works on the router, and its end is reported to the task processor. -/
theorem finishTask_frame (app : Application) (index : Nat) (job : Job) (env : StorageEnv) :
    ∃ router tasks, finishTask app index job env = { app with router, tasks } := by
  unfold finishTask
  cases Router.route env job.statement app.router with
  | ok response router => exact ⟨router, _, rfl⟩
  | error failure router =>
      cases failure with
      | exception what => exact ⟨router, _, rfl⟩
      | _ => exact ⟨router, app.tasks, rfl⟩

theorem run_append (events more : List Event) :
    system.run config (events ++ more) = (system.run config events).run config more := by
  induction events generalizing system with
  | nil => rfl
  | cons e events ih => exact ih

theorem history_append (events more : List Event) :
    system.history config (events ++ more) =
      system.history config events ++ (system.run config events).history config more := by
  induction events generalizing system with
  | nil => rfl
  | cons e events ih =>
      show (system, e) :: history config (system.step config e) (events ++ more) = _
      rw [ih]
      rfl

/-- What one event preserves, a run preserves. The invariant may speak of the history. -/
theorem run_induction {P : List (System × Event) → System → Prop} (hstart : P [] system)
    (hstep : ∀ history system e, P history system →
      P (history ++ [(system, e)]) (system.step config e)) (events : List Event) :
    P (system.history config events) (system.run config events) := by
  induction events using List.reverseRecOn with
  | nil => exact hstart
  | append_singleton events e ih =>
      rw [history_append, run_append]
      exact hstep _ _ e ih

end System

end QuasarDB.Server
