import QuasarDB.Core.Message
import QuasarDB.Server.Catalog
import QuasarDB.Server.Registry

set_option autoImplicit false

/-! # The router

`router.cpp`: statements on databases are carried out on the catalog, statements on a table are sent
to its storage node. Next to the catalog and the registry, the state records what was sent. -/

namespace QuasarDB.Server

open Core

/-- How the connection of `SendToStorage` ends. -/
inductive Exchange where
  | notConnected
  | notSent
  | noResponse
  | responds (response : Response)
  /-- The client throws. -/
  | raises (what : String)

/-- What a call of `Route` depends on. -/
structure StorageEnv where
  /-- How starting a node ends, by its storage id. -/
  startProcess : String → StartOutcome
  /-- How the exchange with a node ends, by its storage id. -/
  exchange : String → Exchange
  /-- Whether the `n`-th save of the catalog succeeds. -/
  saved : Nat → Bool

structure Router where
  catalog : Catalog
  registry : Registry
  /-- What was sent to which node, the last first. -/
  sent : List (String × Statement)

namespace Router

variable {α : Type}

def onCatalog (x : Prog Catalog α) : Prog Router α :=
  x.on Router.catalog fun catalog router => { router with catalog }

def onRegistry (x : Prog Registry α) : Prog Router α :=
  x.on Router.registry fun registry router => { router with registry }

/-- `TableKey`. -/
def tableKey (table : TableRef) : String :=
  if table.database = "" then table.table else table.database ++ "." ++ table.table

/-- The data of an error about a node. -/
def nodeData (id : String) (node : StorageNode) : Json :=
  .object [("storage_id", .string id), ("host", .string node.host), ("port", .integer node.port)]

/-- What `SendToStorage` sends. -/
def executeAstRequest (statement : Statement) : Except String Request := do
  return { action := "execute_ast", data := .object [("ast_root", ← serializeAst statement)] }

/-- `SendToStorage`, from the connection on. -/
def exchangeWith (env : StorageEnv) (id : String) (node : StorageNode) (statement : Statement) :
    Prog Router Response := do
  match env.exchange id with
  | .notConnected => return .error "Failed to connect to storage node" (nodeData id node)
  | outcome =>
      let _ ← Prog.ofExcept (serializeAst statement)
      match outcome with
      | .notSent =>
          return .error "Failed to send request to storage" (.object [("storage_id", .string id)])
      | outcome =>
          modify fun router => { router with sent := (id, statement) :: router.sent }
          match outcome with
          | .responds response => return response
          | .raises what => throw (.exception what)
          | _ =>
              return .error "Failed to receive response from storage"
                (.object [("storage_id", .string id)])

/-- `SendToStorage`. -/
def sendToStorage (env : StorageEnv) (id : String) (statement : Statement) :
    Prog Router Response := do
  match (← get).registry.getNode id with
  | none =>
      return .error "Storage node is not registered" (.object [("storage_id", .string id)])
  | some node =>
      if node.state = .down then return .error "Storage node is down" (nodeData id node)
      else exchangeWith env id node statement

/-- The loop of `DROP DATABASE` over the tables. -/
def dropTables (env : StorageEnv) : List TableRef → Prog Router Unit
  | [] => return ()
  | table :: tables => do
      let _ ← sendToStorage env (tableKey table) (.dropTable table)
      let _ ← onRegistry (Registry.dropNode (tableKey table))
      dropTables env tables

def routeCreateTable (env : StorageEnv) (table : TableRef) (columns : List ColumnDef) :
    Prog Router Response := do
  let id := tableKey table
  if ← onCatalog (Catalog.createTable (env.saved 0) table columns) then
    if ← onRegistry (Registry.createNode (env.startProcess id) id) then
      let response ← sendToStorage env id (.createTable table columns)
      if response.isError then
        let _ ← onRegistry (Registry.dropNode id)
        let _ ← onCatalog (Catalog.dropTable (env.saved 1) table)
        return response
      else return response
    else
      let _ ← onCatalog (Catalog.dropTable (env.saved 1) table)
      return .error "Failed to create storage node in registry"
  else return .error "Table already exists or database not found"

def routeDropTable (env : StorageEnv) (table : TableRef) : Prog Router Response := do
  let id := tableKey table
  if !(← get).catalog.hasTable table then return .error ("Table not found: " ++ id)
  let response ← sendToStorage env id (.dropTable table)
  if response.isSuccess then
    let _ ← onCatalog (Catalog.dropTable (env.saved 0) table)
    let _ ← onRegistry (Registry.dropNode id)
    return response
  else return response

/-- `Route`. -/
def route (env : StorageEnv) (statement : Statement) : Prog Router Response := do
  match statement with
  | .createDatabase name =>
      if ← onCatalog (Catalog.createDatabase (env.saved 0) name) then
        return .success "Database created"
      else return .error ("Database already exists: " ++ name)
  | .dropDatabase name =>
      let tables ← onCatalog (Catalog.dropDatabase (env.saved 0) name)
      dropTables env tables
      return .success "Database dropped"
  | .useDatabase name =>
      if (← get).catalog.hasDatabase name then return .success "Database selected"
      else return .error ("Database not found: " ++ name)
  | .createTable table columns => routeCreateTable env table columns
  | .dropTable table => routeDropTable env table
  | statement =>
      match statement.tableFromStatement with
      | none => return .error "Cannot determine table from statement"
      | some table =>
          if (← get).catalog.hasTable table then sendToStorage env (tableKey table) statement
          else return .error ("Table not found: " ++ tableKey table)

end Router

end QuasarDB.Server
