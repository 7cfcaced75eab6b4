import Mathlib.Logic.Function.Basic
import QuasarDB.Server.Router
import QuasarDB.Storage.Shard

set_option autoImplicit false

/-! # The router with its storage nodes

A storage id has a directory (`DataDirFor`), which the process that is started for it opens. What the router
sends to the port of a node is carried out by the process that accepts there, on its own directory, unless it is
lost on the way. -/

namespace QuasarDB.Server

open Core Storage

/-- A part of `SanitizedPath`, which replaces bytes. -/
def sanitizedPart (part : List Char) : List Char :=
  if part = [] then ['_']
  else part.flatMap fun c =>
    if c.isAlphanum || c == '_' || c == '-' then [c] else List.replicate c.utf8Size '_'

/-- `DataDirFor`, below the root. -/
def dataDirFor (id : String) : List (List Char) := (id.toList.splitOn '.').map sanitizedPart

/-- What becomes of an exchange with a node. -/
inductive Link where
  /-- The node is not reached. -/
  | unreachable
  | notSent
  /-- No response comes, whether the node has acted or not. -/
  | lost (acted : Bool)
  /-- The client throws. -/
  | raises (acted : Bool) (what : String)
  | answers
  deriving DecidableEq

/-- The node carries out the statement. -/
def Link.Acts : Link → Bool
  | .unreachable | .notSent => false
  | .lost acted => acted
  | .raises acted _ => acted
  | .answers => true

/-- What the router sees of an exchange, where the node answers with `response`. -/
def Link.exchange (link : Link) (response : Response) : Exchange :=
  match link with
  | .unreachable => .notConnected
  | .notSent => .notSent
  | .lost _ => .noResponse
  | .raises _ what => .raises what
  | .answers => .responds response

/-- What a call of `Route` depends on, but for the answers of the nodes. -/
structure ClusterEnv where
  startProcess : String → StartOutcome
  link : String → Link
  /-- The storage id of the process that accepts a connection to the node of an id, at the TCP port of the node.
      Ports repeat, and then it may be the process of another node. -/
  listener : String → Nat → String
  construction : Construction := {}
  saved : Nat → Bool

structure Cluster (τ : Type) where
  router : Router
  /-- By directory. -/
  shards : List (List Char) → Shard τ

namespace Cluster

variable {τ : Type}

def shard (cluster : Cluster τ) (id : String) : Shard τ := cluster.shards (dataDirFor id)

/-- A process that is started for an id opens its directory. -/
def openDirectory (ops : TableOps τ) (id : String) (shards : List (List Char) → Shard τ) :
    List (List Char) → Shard τ :=
  Function.update shards (dataDirFor id) ((shards (dataDirFor id)).opened ops)

/-- The directories when `Route` sends a statement: the process of a new node has opened its own. -/
def opening (ops : TableOps τ) (env : ClusterEnv) (statement : Statement) (cluster : Cluster τ) :
    List (List Char) → Shard τ :=
  match statement with
  | .createTable table _ =>
      let id := Router.tableKey table
      let registry := cluster.router.registry
      if registry.autoStartStorage && !registry.hasNode id && decide (env.startProcess id = .started) then
        openDirectory ops id cluster.shards
      else cluster.shards
  | _ => cluster.shards

/-- Whose process gets what `Route` sends to the node of an id. A node that is not there yet is given the next
    port. -/
def addressee (env : ClusterEnv) (cluster : Cluster τ) (id : String) : String :=
  let registry := cluster.router.registry
  env.listener id (tcpPort ((registry.getNode id).elim registry.nextPort StorageNode.port))

/-- What `Route` sends to the node of an id. -/
def requestFor (cluster : Cluster τ) (statement : Statement) (id : String) : Statement :=
  match statement with
  | .dropDatabase name =>
      match (cluster.router.catalog.tablesOf name).find? fun t => Router.tableKey t = id with
      | some table => .dropTable table
      | none => statement
  | statement => statement

/-- What the process that gets it answers. -/
def reply (ops : TableOps τ) (env : ClusterEnv) (statement : Statement) (cluster : Cluster τ) (id : String) :
    Response :=
  ((cluster.opening ops env statement (dataDirFor (cluster.addressee env id))).executeAst ops
    env.construction (cluster.requestFor statement id)).1

def storageEnv (ops : TableOps τ) (env : ClusterEnv) (statement : Statement)
    (cluster : Cluster τ) : StorageEnv where
  startProcess := env.startProcess
  exchange id := (env.link id).exchange (cluster.reply ops env statement id)
  saved := env.saved

/-- The process that gets a statement carries it out. -/
def carryOut (ops : TableOps τ) (env : ClusterEnv) (addressee : String → String)
    (shards : List (List Char) → Shard τ) (sent : String × Statement) : List (List Char) → Shard τ :=
  if (env.link sent.1).Acts then
    let dir := dataDirFor (addressee sent.1)
    Function.update shards dir ((shards dir).executeAst ops env.construction sent.2).2
  else shards

/-- What `Route` sends in one call, the first first. -/
def sentBetween (before after : Router) : List (String × Statement) :=
  (after.sent.take (after.sent.length - before.sent.length)).reverse

/-- The cluster, when a call leaves this router behind. `CreateNode` takes a port for every new node. -/
def left (ops : TableOps τ) (env : ClusterEnv) (statement : Statement) (cluster : Cluster τ)
    (router : Router) : Cluster τ where
  router
  shards := (sentBetween cluster.router router).foldl (carryOut ops env (cluster.addressee env))
    (if router.registry.nextPort = cluster.router.registry.nextPort then cluster.shards
      else cluster.opening ops env statement)

/-- A statement is routed. An exception ends the call, not the server. -/
def route (ops : TableOps τ) (env : ClusterEnv) (statement : Statement) (cluster : Cluster τ) :
    Cluster τ :=
  cluster.left ops env statement
    ((Router.route (cluster.storageEnv ops env statement) statement).after cluster.router)

/-- Statements are routed, one at a time, and the monitor looks after the nodes. -/
inductive Event where
  | route (env : ClusterEnv) (statement : Statement)
  | updateNode (id : String) (state : StorageState)
  | restartNode (id : String) (start : StartOutcome)

def onRegistry {α : Type} (x : Prog Registry α) (cluster : Cluster τ) : Cluster τ :=
  { cluster with router := (Router.onRegistry x).after cluster.router }

/-- The directories when `RestartNode` has come to an end. -/
def restarted (ops : TableOps τ) (start : StartOutcome) (id : String) (cluster : Cluster τ) :
    List (List Char) → Shard τ :=
  let registry := cluster.router.registry
  if registry.autoStartStorage && registry.hasNode id && decide (start = .started) then
    openDirectory ops id cluster.shards
  else cluster.shards

def step (ops : TableOps τ) (cluster : Cluster τ) : Event → Cluster τ
  | .route env statement => cluster.route ops env statement
  | .updateNode id state => cluster.onRegistry (Registry.updateNode id state)
  | .restartNode id start =>
      { cluster.onRegistry (Registry.restartNode start id) with shards := cluster.restarted ops start id }

def run (ops : TableOps τ) (cluster : Cluster τ) (events : List Event) : Cluster τ :=
  events.foldl (step ops) cluster

/-- No databases, no nodes and no files. -/
def new (autoStartStorage : Bool) : Cluster τ where
  router := { catalog := .load none, registry := .new autoStartStorage, sent := [] }
  shards _ := {}

end Cluster

end QuasarDB.Server
