import QuasarDB.Server.Analyzer
import QuasarDB.Server.Parser
import QuasarDB.Server.Rbac
import QuasarDB.Server.Security
import QuasarDB.Server.TaskProcessor

set_option autoImplicit false

/-! # The application

`application.cpp`: how a request is authenticated, checked and carried out. Next to the state of the
server, a handler records the statements it hands to the router or to the task processor. -/

namespace QuasarDB.Server

open Core

/-- The part of the configuration that the handlers read, and how JSON is written to files. -/
structure Config where
  authRequired : Bool
  text : JsonText

/-- What the handling of one request depends on. -/
structure Env where
  /-- `JwtHandler::ValidateToken`, at the time of the request. -/
  validateToken : String → Option String
  /-- `JwtHandler::GenerateToken`, which may throw. -/
  generateToken : String → Except String String
  account : AccountEnv
  /-- Whether the `n`-th save of the rules succeeds. -/
  rulesSaved : Nat → Bool
  storage : StorageEnv
  /-- What `GenerateId` gives. -/
  taskId : String
  /-- Whether the pool takes the task. -/
  poolAccepts : Bool
  /-- The numbers of the telemetry. -/
  telemetry : Json

structure Session where
  database : Option String := none

structure Application where
  accounts : AccountStore
  rbac : RbacManager
  router : Router
  tasks : TaskProcessor

/-- The state of a handler. -/
structure Handling where
  app : Application
  session : Session
  /-- The statements handed to `Router::Route` or `TaskProcessor::Submit`, the last first. -/
  calls : List Statement := []

/-! ## Statements -/

/-- `HasAggregate`. -/
def hasAggregate (selectItems : List SelectItem) : Bool :=
  selectItems.any fun item =>
    match item.expr with
    | .aggregate _ _ => true
    | _ => false

/-- `IsLongRunning`. -/
def isLongRunning : Statement → Bool
  | .revert _ _ => true
  | .select _ selectItems _ _ => hasAggregate selectItems
  | _ => false

/-- `PermissionFor`. -/
def permissionFor : Statement → Permission
  | .insert _ _ _ => .write
  | .update _ _ _ => .write
  | .delete _ _ => .write
  | .revert _ _ => .write
  | .createDatabase _ => .create
  | .createTable _ _ => .create
  | .dropDatabase _ => .delete
  | .dropTable _ => .delete
  | _ => .read

/-- `ApplyDatabase` on a table: `none` when there is no database to apply. -/
def applyDatabaseToTable (session : Session) (table : TableRef) : Option TableRef :=
  if table.database ≠ "" then some table
  else session.database.map fun database => { table with database }

/-- `ApplyDatabase`: the statement as it is changed, or `none` for `false`. -/
def applyDatabase (session : Session) (statement : Statement) : Option Statement :=
  match statement.tableFromStatement with
  | none => some statement
  | some table => (applyDatabaseToTable session table).map statement.withTable

def setupRequired : Response :=
  .error "Superuser account setup required" (.object [("setup_required", .boolean true)])

def noDatabaseSelected : Response :=
  .error "No database selected; run USE <database> or qualify the table as <database>.<table>"

/-! ## Access -/

/-- `Authenticate`. -/
def authenticate (env : Env) (app : Application) (request : Request) : Option String :=
  if request.token = "" then none
  else
    match env.validateToken request.token with
    | none => none
    | some user => if app.accounts.hasAccount user then some user else none

/-- `CheckAccess`. -/
def checkAccess (rbac : RbacManager) (user : String) (statement : Statement) : Bool :=
  match statement with
  | .createDatabase name => rbac.checkPermission user name "*" (permissionFor statement)
  | .dropDatabase name => rbac.checkPermission user name "*" (permissionFor statement)
  | statement =>
      match statement.tableFromStatement with
      | none => true
      | some table =>
          rbac.checkPermission user table.database table.table (permissionFor statement)

/-! ## The parts of the server -/

section Parts

variable {α : Type}

def onAccounts (x : Prog AccountStore α) : Prog Handling α :=
  x.on (·.app.accounts) fun accounts h => { h with app.accounts := accounts }

def onRbac (x : Prog RbacManager α) : Prog Handling α :=
  x.on (·.app.rbac) fun rbac h => { h with app.rbac := rbac }

def onRouter (x : Prog Router α) : Prog Handling α :=
  x.on (·.app.router) fun router h => { h with app.router := router }

end Parts

/-- `router_.Route(statement)`. -/
def callRoute (env : Env) (statement : Statement) : Prog Handling Response := do
  modify fun h => { h with calls := statement :: h.calls }
  onRouter (Router.route env.storage statement)

/-- `tasks_.Submit(statement)`. -/
def callSubmit (env : Env) (statement : Statement) : Prog Handling String := do
  modify fun h => { h with calls := statement :: h.calls,
                           app.tasks := h.app.tasks.submit env.taskId env.poolAccepts statement }
  return env.taskId

/-! ## Handlers -/

/-- `HandleHandshake`. -/
def handleHandshake (config : Config) : Prog Handling Response := do
  return .success "Handshake complete" (.object [
    ("auth_required", .boolean config.authRequired),
    ("setup_required", .boolean (config.authRequired && (← get).app.accounts.empty))])

/-- `HandleLogin`. -/
def handleLogin (config : Config) (env : Env) (request : Request) : Prog Handling Response := do
  let username ← Prog.ofExcept (request.data.valueString "username" "")
  let password ← Prog.ofExcept (request.data.valueString "password" "")
  let create ← Prog.ofExcept (request.data.value Json.getBool "create" false)
  if username = "" ∨ password = "" then
    return .error "Login requires username and password"
  else if (← get).app.accounts.empty then
    if !create then return setupRequired
    else if ← onAccounts (AccountStore.createAccount config.text env.account username password) then
      onRbac (RbacManager.grantAll env.rulesSaved username)
      let token ← Prog.ofExcept (env.generateToken username)
      return .success "Superuser account created" (.object [("token", .string token)])
    else return .error "Invalid superuser credentials"
  else if create then return .error "Superuser setup is already complete"
  else if (← get).app.accounts.authenticate env.account username password then
    let token ← Prog.ofExcept (env.generateToken username)
    return .success "Login successful" (.object [("token", .string token)])
  else return .error "Invalid username or password"

/-- The loop of `HandleSecurityStatement` over the permissions, from the `n`-th save of the rules on.
    It returns the permission it does not know. -/
def applyPermissions (env : Env) (grant : Bool) (username : String) (scope : TableRef) :
    Nat → List String → Prog RbacManager (Option String)
  | _, [] => return none
  | n, name :: names => do
      let permission := permissionFromString name
      if permission = .invalid then return some name
      else
        if grant then
          RbacManager.grantPermission (env.rulesSaved n) username scope.database scope.table permission
        else
          RbacManager.revokePermission (env.rulesSaved n) username scope.database scope.table permission
        applyPermissions env grant username scope (n + 1) names

/-- The lambda `apply` of `HandleSecurityStatement`. -/
def handlePermissions (config : Config) (env : Env) (user : String) (grant : Bool)
    (permissions : List String) (scope : TableRef) (username : String) : Prog Handling Response := do
  if config.authRequired &&
      !(← get).app.rbac.checkPermission user scope.database scope.table .create then
    return .error "Permission denied"
  else if !(← get).app.accounts.hasAccount username then
    return .error ("User not found: " ++ username)
  else
    match ← onRbac (applyPermissions env grant username scope 0 permissions) with
    | some name => return .error ("Invalid permission: " ++ name)
    | none => return .success (if grant then "Permission granted" else "Permission revoked")

/-- `CREATE USER` of `HandleSecurityStatement`. -/
def handleCreateUser (config : Config) (env : Env) (user username password : String) :
    Prog Handling Response := do
  if config.authRequired && !(← get).app.rbac.checkPermission user "*" "*" .create then
    return .error "Permission denied"
  else if ← onAccounts (AccountStore.createAccount config.text env.account username password) then
    return .success "User created"
  else return .error "User already exists or invalid credentials"

/-- `HandleSecurityStatement`. -/
def handleSecurityStatement (config : Config) (env : Env) (user : String) (statement : Statement) :
    Prog Handling (Option Response) := do
  match statement with
  | .createUser username password =>
      return some (← handleCreateUser config env user username password)
  | .grant permissions scope username =>
      return some (← handlePermissions config env user true permissions scope username)
  | .revoke permissions scope username =>
      return some (← handlePermissions config env user false permissions scope username)
  | _ => return none

/-- `HandleExecute`, for a statement with its database applied. -/
def executeStatement (config : Config) (env : Env) (user : String) (statement : Statement) :
    Prog Handling Response := do
  match statement with
  | .useDatabase name =>
      let response ← callRoute env statement
      if response.isSuccess then
        modify fun h => { h with session.database := some name }
        return response
      else return response
  | statement =>
      if config.authRequired && !checkAccess (← get).app.rbac user statement then
        return .error "Permission denied"
      else if isLongRunning statement then
        let taskId ← callSubmit env statement
        return .pending "Operation is running in background" (.object [("task_id", .string taskId)])
      else callRoute env statement

/-- `HandleExecute`, from the parsed statement on. -/
def handleStatement (config : Config) (env : Env) (user : String) (statement : Statement) :
    Prog Handling Response := do
  Prog.ofExcept (Analyzer.validateStatement statement)
  match ← handleSecurityStatement config env user statement with
  | some response => return response
  | none =>
      match applyDatabase (← get).session statement with
      | none => return noDatabaseSelected
      | some statement => executeStatement config env user statement

/-- `HandleExecute`. -/
def handleExecute (config : Config) (env : Env) (request : Request) : Prog Handling Response := do
  let query ← Prog.ofExcept request.query
  if query = "" then return .error "query requires data.query"
  else
    let app := (← get).app
    let user := authenticate env app request
    if config.authRequired && app.accounts.empty then return setupRequired
    else if config.authRequired && user.isNone then return .error "Valid token is required"
    else
      let tokens := Lexer.tokenize query
      if tokens.any fun token => token.type == .invalid then
        return .error "Invalid token in SQL query"
      else
        match parse tokens with
        | .error failure => throw failure
        | .ok statement => handleStatement config env (user.getD "") statement

/-- The answer to a `check_task` request about a task. -/
def taskResponse (id : String) (task : TaskResult) : Response :=
  match task.response with
  | some response => response
  | none =>
      match task.error with
      | some error => .error error (.object [("task_id", .string id)])
      | none =>
          .pending (if task.status = .running then "Operation is still running"
              else "Operation is pending")
            (.object [("task_id", .string id),
              ("status", .string (if task.status = .running then "running" else "pending"))])

/-- `HandleCheckTask`. -/
def handleCheckTask (config : Config) (env : Env) (request : Request) : Prog Handling Response := do
  let app := (← get).app
  if config.authRequired && app.accounts.empty then return setupRequired
  else if config.authRequired && (authenticate env app request).isNone then
    return .error "Valid token is required"
  else
    match request.taskId with
    | none => return .error "check_task requires data.task_id"
    | some id =>
        match app.tasks.get id with
        | none => return .error "Task not found" (.object [("task_id", .string id)])
        | some task => return taskResponse id task

/-- `HandleTelemetry`. -/
def handleTelemetry (config : Config) (env : Env) (request : Request) : Prog Handling Response := do
  let app := (← get).app
  if config.authRequired && app.accounts.empty then return setupRequired
  else if config.authRequired && (authenticate env app request).isNone then
    return .error "Valid token is required"
  else return .success "Telemetry" env.telemetry

/-- The `try` block of `Process`. -/
def dispatch (config : Config) (env : Env) (request : Request) : Prog Handling Response := do
  let app := (← get).app
  if request.action = "" then return .error "Request must contain string field 'action'"
  else if config.authRequired && app.accounts.empty && request.action != "login" &&
      request.action != "handshake" then
    return setupRequired
  else if request.action = "handshake" then handleHandshake config
  else if request.action = "login" then handleLogin config env request
  else if request.action = "query" then handleExecute config env request
  else if request.action = "check_task" then handleCheckTask config env request
  else if request.action = "telemetry" then handleTelemetry config env request
  else return .error ("Unsupported action: " ++ request.action)

/-- `Process`. The call of `LogQuery` at its end reads the query again, outside the `try` block. -/
def process (config : Config) (env : Env) (request : Request) : Prog Handling Response := do
  let response ← Prog.catchException (dispatch config env request) fun what => return .error what
  let _ ← Prog.ofExcept request.query
  return response

/-- A round of the loop over a connection, from the JSON value of the request on. -/
def handleMessage (config : Config) (env : Env) (json : Json) : Prog Handling Response := do
  let request ← Prog.ofExcept (Request.fromJsonObject json)
  process config env request

end QuasarDB.Server
