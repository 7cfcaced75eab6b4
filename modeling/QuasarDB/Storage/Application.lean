import QuasarDB.Core.Message
import QuasarDB.Core.TcpClient
import QuasarDB.Storage.Execute
import QuasarDB.Storage.Shard

set_option autoImplicit false

/-! # The application of a storage node

`application.cpp` of the storage with the table itself: a request is decoded and carried out, and a connection
is served until nothing arrives on it or a response cannot be sent. -/

namespace QuasarDB.Storage

open Core Server

/-! ## Statements -/

/-- What a request depends on, but for the node. -/
structure NodeEnv extends ExecutorEnv where
  construction : Construction := {}

/-- A statement that comes to a node. -/
structure Delivery where
  env : NodeEnv
  statement : Statement

namespace Shard

variable (env : NodeEnv) (quotient : Quotient)

/-- `CreateTable`. The first page is written before the schema, and the schema before the indexes are opened. -/
def create (ref : TableRef) (columns : List ColumnDef) : Prog (Shard Table) Response := do
  let shard ← get
  if shard.table.isSome then return .error "Table shard is already initialized"
  Prog.ofExcept (FileFailure.raise env.construction.directory)
  let schema ← Prog.ofExcept (toSchema columns)
  Prog.ofExcept (FileFailure.raise env.construction.files)
  Prog.throwIf shard.dataLeft ("Table with name " ++ ref.table ++ " already exists.")
  modify fun shard => { shard with dataLeft := true }
  Prog.ofExcept (env.construction.saveSchema schema)
  set { unopened := some (ref.table, Table.new schema), dataLeft := true : Shard Table }
  Prog.ofExcept (FileFailure.raise env.construction.indexes)
  set { table := some (ref.table, Table.new schema) : Shard Table }
  return .success "Table shard created" noRows

/-- `DropTable`. -/
def drop (ref : TableRef) : Prog (Shard Table) Response := do
  match (← get).table with
  | some (name, _) =>
      if name = ref.table then
        set ({} : Shard Table)
        return .success "Table shard dropped" noRows
      else return .error ("Table not found: " ++ ref.table)
  | none => return .error ("Table not found: " ++ ref.table)

/-- What `ExecuteAst` does with a statement. -/
def carryOut (statement : Statement) : Prog (Shard Table) Response :=
  match statement with
  | .createTable ref columns => create env ref columns
  | .dropTable ref => drop ref
  | .createDatabase _ | .dropDatabase _ | .useDatabase _ =>
      return .error "Storage shard does not manage databases"
  | statement => do
      match (← get).table with
      | none => return .error "Table shard is not initialized"
      | some (name, table) =>
          Prog.on (fun _ => table) (fun table shard => { shard with table := some (name, table) })
            (Executor.execute env.toExecutorEnv quotient statement)

/-- `ExecuteAst`. -/
def executeJson (ast : Json) : Prog (Shard Table) Response :=
  Prog.catchException
    (do carryOut env quotient (← Prog.ofExcept (deserializeAst ast)))
    fun what => return .error what

/-- `ProcessRequest`. -/
def processRequest (request : Request) : Prog (Shard Table) Response :=
  if request.action = "ping" then return .success "pong"
  else if request.action ≠ "execute_ast" then return .error "Unknown action"
  else
    match request.data.find "ast_root" with
    | none => return .error "Missing ast_root"
    | some ast => executeJson env quotient ast

end Shard

/-- A node carries out a statement, unless its process ends on it. -/
def Shard.serve (quotient : Quotient) : Service Delivery Response (Shard Table) := fun delivery shard =>
  match Prog.catchException (Shard.carryOut delivery.env quotient delivery.statement)
      (fun what => return .error what) shard with
  | .ok response shard => some (response, shard)
  | .error _ _ => none

/-! ## Connections -/

/-- `connection_`, with what the calls of `::send` will take for each response, and the bytes that were
    sent. -/
structure Connection where
  socket : Socket
  takes : List (List Nat × List Nat)
  sent : List UInt8 := []

namespace Connection

variable (text : MessageText)

/-- `ReceiveRequest`. -/
def receiveRequest : Prog Connection (Option Request) := do
  match ← Prog.on Connection.socket (fun socket connection => { connection with socket })
      (TcpClient.receive text) with
  | none => return none
  | some json => return some (← Prog.ofExcept (Request.fromJsonObject json))

/-- `SendResponse`. -/
def sendResponse (response : Response) : Prog Connection Bool := do
  let connection ← get
  if connection.socket.isValid then
    let (header, payload) := connection.takes.headD ([], [])
    let (isSent, bytes) := TcpClient.send text header payload response.toJsonObject
    set { connection with takes := connection.takes.tail, sent := connection.sent ++ bytes }
    return isSent
  else return false

end Connection

structure Application where
  shard : Shard Table
  connection : Connection

namespace Application

variable {α : Type} (quotient : Quotient) (text : MessageText)

def onShard (x : Prog (Shard Table) α) : Prog Application α :=
  x.on Application.shard fun shard application => { application with shard }

def onConnection (x : Prog Connection α) : Prog Application α :=
  x.on Application.connection fun connection application => { application with connection }

/-- The loop of `Run` on a connection, with what each of its rounds depends on. -/
def serveConnection : List NodeEnv → Prog Application Unit
  | [] => throw .endless
  | env :: envs => do
      match ← onConnection (Connection.receiveRequest text) with
      | none => return ()
      | some request =>
          let response ← onShard (Shard.processRequest env quotient request)
          if ← onConnection (Connection.sendResponse text response) then serveConnection envs
          else return ()

end Application

end QuasarDB.Storage
