import QuasarDB.Library.Services
import QuasarDB.Server.Cluster

set_option autoImplicit false

/-! # What a cluster is for

Databases with their tables, and nothing in between: a statement is carried out on its table. In a cluster
the node of a table may be in trouble, and then a statement is answered with an error, whether it has been
carried out or not; and when the node is restarted, its table is opened from its files. -/

namespace QuasarDB.Server

open Core Storage

structure Store (τ : Type) where
  databases : String → Bool
  tables : TableRef → Option τ
  /-- What is left of a table whose schema could not be written is in the way of another one. -/
  spoiled : TableRef → Bool
  /-- The node of the table was found down. -/
  down : TableRef → Bool

/-- Whether a node that is restarted is found down, if the restart comes to an end. -/
def StartOutcome.finds (autoStartStorage : Bool) (start : StartOutcome) : Option Bool :=
  if autoStartStorage then
    match start with
    | .started => some false
    | .notStarted => some true
    | .raises _ => none
  else some true

namespace Store

variable {τ : Type}

def empty : Store τ where
  databases _ := false
  tables _ := none
  spoiled _ := false
  down _ := false

def createTable (ops : TableOps τ) (construction : Construction) (t : TableRef) (columns : List ColumnDef)
    (store : Store τ) : Response × Store τ :=
  if store.databases t.database && (store.tables t).isNone then
    match construction.prepare t columns (store.spoiled t) with
    | .error what => (.error what, store)
    | .ok schema =>
        match construction.saveSchema schema with
        | .error what => (.error what, { store with spoiled := Function.update store.spoiled t true })
        | .ok () =>
            (.success "Table shard created" Shard.noRows,
              { store with
                tables := Function.update store.tables t (some (ops.create schema))
                down := Function.update store.down t false })
  else (.error "Table already exists or database not found", store)

/-- What a statement is answered with, and the databases after it. -/
def execute (ops : TableOps τ) (construction : Construction) (statement : Statement) (store : Store τ) :
    Response × Store τ :=
  match statement with
  | .createDatabase name =>
      if store.databases name then (.error ("Database already exists: " ++ name), store)
      else
        (.success "Database created",
          { store with databases := Function.update store.databases name true })
  | .dropDatabase name =>
      (.success "Database dropped",
        { store with
          databases := Function.update store.databases name false
          tables := fun t => if t.database = name then none else store.tables t })
  | .useDatabase name =>
      (if store.databases name then .success "Database selected"
        else .error ("Database not found: " ++ name), store)
  | .createTable t columns => store.createTable ops construction t columns
  | .dropTable t =>
      if (store.tables t).isSome then
        (.success "Table shard dropped" Shard.noRows,
          { store with tables := Function.update store.tables t none })
      else (.error ("Table not found: " ++ Router.tableKey t), store)
  | statement =>
      match statement.tableFromStatement with
      | none => (.error "Cannot determine table from statement", store)
      | some t =>
          match store.tables t with
          | none => (.error ("Table not found: " ++ Router.tableKey t), store)
          | some table =>
              let (response, table) := ops.execute statement table
              (response, { store with tables := Function.update store.tables t (some table) })

/-- The node of an id is found down, or not. -/
def report (id : String) (isDown : Bool) (store : Store τ) : Store τ :=
  { store with down := fun t => if Router.tableKey t = id then isDown else store.down t }

/-- The table of a node that is started again is opened from its files. -/
def reopen (ops : TableOps τ) (id : String) (store : Store τ) : Store τ :=
  { store with
    tables := fun t => if Router.tableKey t = id then (store.tables t).map ops.reopen else store.tables t }

/-- The node of an id is restarted, as far as this comes to an end. -/
def restart (ops : TableOps τ) (id : String) (store : Store τ) : Option Bool → Store τ
  | none => store
  | some true => store.report id true
  | some false => (store.reopen ops id).report id false

variable (autoStartStorage : Bool)

/-- The node of the table of a statement does not start, was found down, or does not answer. -/
def Trouble (env : ClusterEnv) (store : Store τ) : Statement → Prop
  | .createTable t _ =>
      (autoStartStorage = true ∧ env.startProcess (Router.tableKey t) ≠ .started) ∨
        env.link (Router.tableKey t) ≠ .answers
  | statement =>
      ∃ t, statement.tableFromStatement = some t ∧
        (store.down t = true ∨ env.link (Router.tableKey t) ≠ .answers)

/-- How a statement may come out: as on the databases, or in trouble, with an error. -/
def Outcome (ops : TableOps τ) (env : ClusterEnv) (statement : Statement) (store : Store τ)
    (response : Response) (store' : Store τ) : Prop :=
  (response, store') = store.execute ops env.construction statement ∨
    response.isError = true ∧ store.Trouble autoStartStorage env statement ∧
      (store' = store ∨ store' = (store.execute ops env.construction statement).2)

/-- What an event may do, with the response to a statement. -/
def Effect (ops : TableOps τ) : Specification Cluster.Event (Option Response) (Store τ) :=
  fun event store answer store' =>
    match event with
    | .route env statement =>
        ∃ response, answer = some response ∧
          store.Outcome autoStartStorage ops env statement response store'
    | .updateNode id state => answer = none ∧ store' = store.report id (state = .down)
    | .restartNode id start =>
        answer = none ∧ store' = store.restart ops id (start.finds autoStartStorage)

end Store

namespace Cluster

variable {τ : Type}

/-- A cluster answers what happens to it, unless the server ends. An exception is the answer to its
    statement, or ends the round of the monitor. -/
def serve (ops : TableOps τ) : Service Event (Option Response) (Cluster τ) := fun event cluster =>
  match event with
  | .route env statement =>
      match Router.route (cluster.storageEnv ops env statement) statement cluster.router with
      | .ok response _ => some (some response, cluster.route ops env statement)
      | .error (.exception what) _ => some (some (.error what), cluster.route ops env statement)
      | .error _ _ => none
  | event => some (none, cluster.step ops event)

end Cluster

end QuasarDB.Server
