import QuasarDB.Library.Services
import QuasarDB.Server.Cluster
import QuasarDB.Server.System

set_option autoImplicit false

/-! # The server with its storage nodes

The server of `System.lean` and the nodes of `Cluster.lean` in one run: a process answers what the router sends
to it in a request or in a job, and carries it out, unless it is lost on the way. Requests and jobs are handled
one at a time, though the server has threads without a lock for them. -/

namespace QuasarDB.Server

open Core Storage

/-- The statement that `HandleExecute` comes to, with the database of the session. -/
def requestedStatement (session : Session) (request : Request) : Option Statement :=
  match request.query with
  | .error _ => none
  | .ok query =>
      match parse (Lexer.tokenize query) with
      | .error _ => none
      | .ok statement => applyDatabase session statement

/-- The server, and the directories of the nodes. -/
structure Deployment (τ : Type) where
  system : System
  shards : List (List Char) → Shard τ

namespace Deployment

inductive Event where
  /-- A client connects. -/
  | connect (connection : Nat)
  /-- A request is handled, with all that it depends on but the answers of the nodes. -/
  | request (connection : Nat) (env : Env) (links : ClusterEnv) (request : Request)
  /-- A worker takes a job. -/
  | startTask
  /-- The worker with the `index`-th running job carries it out. -/
  | finishTask (index : Nat) (links : ClusterEnv)
  /-- The monitor reports on a node. -/
  | updateNode (id : String) (state : StorageState)
  /-- The monitor restarts a node. -/
  | restartNode (id : String) (start : StartOutcome)

variable {τ : Type}

/-- The router with the nodes. -/
def cluster (deployment : Deployment τ) : Cluster τ :=
  { router := deployment.system.app.router, shards := deployment.shards }

/-- The statement that an event has the router carry out, if it gets there. Without one the router does not look
    at the nodes. -/
def routed (deployment : Deployment τ) : Event → Statement
  | .request connection _ _ request =>
      (requestedStatement (deployment.system.sessions connection) request).getD (.useDatabase "")
  | .finishTask index _ =>
      (deployment.system.app.tasks.running[index]?.map Job.statement).getD (.useDatabase "")
  | _ => .useDatabase ""

/-- The event of the server. -/
def toSystem (ops : TableOps τ) (deployment : Deployment τ) (event : Event) : Server.Event :=
  let storage links := deployment.cluster.storageEnv ops links (deployment.routed event)
  match event with
  | .connect connection => .connect connection
  | .request connection env links request => .request connection { env with storage := storage links } request
  | .startTask => .startTask
  | .finishTask index links => .finishTask index (storage links)
  | .updateNode id state => .updateNode id state
  | .restartNode id start => .restartNode id start

/-- The directories after an event, which leads to this router: the nodes carry out what it has sent, and a
    process that is started opens its directory. -/
def shardsAfter (ops : TableOps τ) (deployment : Deployment τ) (router : Router) (event : Event) :
    List (List Char) → Shard τ :=
  match event with
  | .request _ _ links _ | .finishTask _ links =>
      (deployment.cluster.left ops links (deployment.routed event) router).shards
  | .restartNode id start => deployment.cluster.restarted ops start id
  | _ => deployment.shards

def step (ops : TableOps τ) (config : Config) (deployment : Deployment τ) (event : Event) :
    Deployment τ :=
  let system := deployment.system.step config (deployment.toSystem ops event)
  { system, shards := deployment.shardsAfter ops system.app.router event }

def run (ops : TableOps τ) (config : Config) (deployment : Deployment τ) (events : List Event) :
    Deployment τ :=
  events.foldl (step ops config) deployment

/-- A deployment answers what happens to it, unless a failure escapes and the server ends. -/
def serve (ops : TableOps τ) (config : Config) : Service Event (Option Response) (Deployment τ) :=
  fun event deployment =>
    let next := deployment.step ops config event
    match deployment.toSystem ops event with
    | .request connection env request =>
        match process config env request (deployment.system.handling connection) with
        | .ok response _ => some (some response, next)
        | .error _ _ => none
    | .finishTask index env =>
        match deployment.system.app.tasks.running[index]? with
        | none => some (none, next)
        | some job =>
            match Router.route env job.statement deployment.system.app.router with
            | .ok _ _ => some (none, next)
            | .error (.exception _) _ => some (none, next)
            | .error _ _ => none
    | _ => some (none, next)

/-- A server with accounts and rules, and without databases. -/
def new (autoStartStorage : Bool) (accounts : AccountStore) (rbac : RbacManager) : Deployment τ where
  system := .start
    { accounts, rbac, router := (Cluster.new autoStartStorage : Cluster τ).router, tasks := .new }
  shards := (Cluster.new autoStartStorage).shards

end Deployment

end QuasarDB.Server
