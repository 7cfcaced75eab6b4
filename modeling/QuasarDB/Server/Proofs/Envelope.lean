import QuasarDB.Library.Along
import QuasarDB.Server.Proofs.Mediation
import QuasarDB.Server.Proofs.ParserEnds

set_option autoImplicit false

/-! # The envelope of a message

What a client sends is any JSON value. `Process` catches what the handlers throw, but two accesses are
made outside of its `try` block: `FromJsonObject` reads the strings of the envelope before it, and the
log reads the query after it. A message is answered exactly when these find strings. -/

namespace QuasarDB.Core.Request

/-- Where the value has the member, it is a string. -/
def HasString (json : Json) (key : String) : Prop := ∀ v, json.find key = some v → v.isString

/-- The strings that are read outside of any `try` block are strings, where they are there. -/
structure WellTyped (json : Json) : Prop where
  action : HasString json "action"
  token : HasString json "token"
  query : ∀ data, json.find "data" = some data → HasString data "query"

section Envelope

variable {json : Json} {request : Request} {key : String}

/-- How `FromJsonObject` reads a string. -/
def readString (json : Json) (key : String) : Except String String :=
  match json.find key with
  | some v => v.getString
  | none => pure ""

theorem readString_ok_iff : (∃ s, readString json key = .ok s) ↔ HasString json key := by
  unfold readString HasString
  cases json.find key with
  | none =>
      constructor
      · intro _ v hv
        cases hv
      · intro _
        exact ⟨"", rfl⟩
  | some v =>
      simp only [Option.some.injEq, forall_eq']
      exact Json.getString_ok_iff

/-- How `FromJsonObject` reads the data. -/
def readData (json : Json) : Json :=
  match json.find "data" with
  | some (.object members) => .object members
  | _ => .object []

theorem fromJsonObject_eq (json : Json) :
    fromJsonObject json = (readString json "action").bind fun action =>
      (readString json "token").bind fun token =>
        .ok { action, data := readData json, token } := by
  unfold fromJsonObject readString readData
  cases json.find "action" <;> cases json.find "token" <;> rfl

theorem query_readData_ok_iff :
    (∃ q, (readData json).valueString "query" "" = .ok q) ↔
      ∀ data, json.find "data" = some data → HasString data "query" := by
  have hread : ∀ members, (∃ q, (Json.object members).valueString "query" "" = .ok q) ↔
      HasString (.object members) "query" := by
    intro members
    unfold Json.valueString HasString
    rw [Json.value_ok_iff]
    simp [Json.isObject, Json.getString_ok_iff]
  unfold readData
  cases hdata : json.find "data" with
  | none => simp [HasString]
  | some data =>
      cases data with
      | object members =>
          rw [hread]
          simp
      | _ => simp [HasString, Json.find]

/-- `FromJsonObject` returns, and with it the query, exactly for a well-typed envelope. -/
theorem wellTyped_iff :
    WellTyped json ↔ ∃ request, fromJsonObject json = .ok request ∧
      ∃ q, request.query = .ok q := by
  constructor
  · intro h
    obtain ⟨action, haction⟩ := readString_ok_iff.2 h.action
    obtain ⟨token, htoken⟩ := readString_ok_iff.2 h.token
    refine ⟨{ action, data := readData json, token }, ?_, query_readData_ok_iff.2 h.query⟩
    rw [fromJsonObject_eq, haction, htoken]
    rfl
  · rintro ⟨request, hrequest, hquery⟩
    rw [fromJsonObject_eq] at hrequest
    cases haction : readString json "action" with
    | error what =>
        rw [haction] at hrequest
        cases hrequest
    | ok action =>
        cases htoken : readString json "token" with
        | error what =>
            rw [haction, htoken] at hrequest
            cases hrequest
        | ok token =>
            rw [haction, htoken] at hrequest
            cases hrequest
            exact ⟨readString_ok_iff.1 ⟨action, haction⟩, readString_ok_iff.1 ⟨token, htoken⟩,
              query_readData_ok_iff.1 hquery⟩

end Envelope

end QuasarDB.Core.Request

namespace QuasarDB.Server

open Core Prog

/-! ## The layers below throw exceptions only -/

theorem Registry.onlyThrows_startProcess (start : StartOutcome) :
    (Registry.startProcess start).OnlyThrows := by
  refine .get_bind fun registry => .ite (.pure _) ?_
  cases start with
  | started => exact .pure _
  | notStarted => exact .pure _
  | raises what => exact .throw what

theorem Registry.onlyThrows_createNode (start : StartOutcome) (id : String) :
    (Registry.createNode start id).OnlyThrows := by
  refine .get_bind fun registry => .ite (.pure _) (.get_bind fun _ => ?_)
  refine .bind (.modify _) fun _ => .bind (onlyThrows_startProcess start) fun started => ?_
  exact .ite (.bind (.modify _) fun _ => .pure _) (.pure _)

theorem Registry.onlyThrows_dropNode (id : String) : (Registry.dropNode id).OnlyThrows :=
  .get_bind fun _ => .ite (.bind (.modify _) fun _ => .pure _) (.pure _)

section Catalog

variable (saved : Bool) (table : TableRef)

theorem Catalog.onlyThrows_createDatabase (name : String) :
    (Catalog.createDatabase saved name).OnlyThrows := by
  refine .get_bind fun catalog => .ite (.pure _) (.bind (.modify _) fun _ => ?_)
  exact .bind (.modify _) fun _ => .pure _

theorem Catalog.onlyThrows_dropDatabase (name : String) :
    (Catalog.dropDatabase saved name).OnlyThrows := by
  refine .get_bind fun catalog => .ite (.pure _) (.bind (.set _) fun _ => ?_)
  exact .bind (.modify _) fun _ => .pure _

theorem Catalog.onlyThrows_createTable (columns : List ColumnDef) :
    (Catalog.createTable saved table columns).OnlyThrows := by
  refine .get_bind fun catalog => ?_
  split
  · exact .pure _
  · refine .ite (.pure _) (.bind (.ofExcept _) fun ast => .bind (.set _) fun _ => ?_)
    exact .bind (.modify _) fun _ => .pure _

theorem Catalog.onlyThrows_dropTable : (Catalog.dropTable saved table).OnlyThrows := by
  refine .get_bind fun catalog => ?_
  split
  · exact .pure _
  · refine .ite (.pure _) (.bind (.set _) fun _ => ?_)
    exact .bind (.modify _) fun _ => .pure _

end Catalog

section Router

variable (env : StorageEnv) (id : String) (statement : Statement)

theorem Router.onlyThrows_exchangeWith (node : StorageNode) :
    (Router.exchangeWith env id node statement).OnlyThrows := by
  unfold Router.exchangeWith
  split
  · exact .pure _
  · refine .bind (.ofExcept _) fun _ => ?_
    split
    · exact .pure _
    · refine .bind (.modify _) fun _ => ?_
      split
      · exact .pure _
      · exact .throw _
      · exact .pure _

theorem Router.onlyThrows_sendToStorage : (Router.sendToStorage env id statement).OnlyThrows := by
  refine .get_bind fun router => ?_
  split
  · exact .pure _
  · exact .ite (.pure _) (onlyThrows_exchangeWith env id statement _)

theorem Router.onlyThrows_dropTables (tables : List TableRef) :
    (Router.dropTables env tables).OnlyThrows := by
  induction tables with
  | nil => exact .pure _
  | cons table tables ih =>
      refine .bind (onlyThrows_sendToStorage env _ _) fun _ => ?_
      exact .bind (.on (Registry.onlyThrows_dropNode _)) fun _ => ih

theorem Router.onlyThrows_routeCreateTable (table : TableRef) (columns : List ColumnDef) :
    (Router.routeCreateTable env table columns).OnlyThrows := by
  refine .bind (.on (Catalog.onlyThrows_createTable _ _ _)) fun created => .ite ?_ (.pure _)
  refine .bind (.on (Registry.onlyThrows_createNode _ _)) fun started => .ite ?_ ?_
  · refine .bind (onlyThrows_sendToStorage env _ _) fun response => .ite ?_ (.pure _)
    refine .bind (.on (Registry.onlyThrows_dropNode _)) fun _ => ?_
    exact .bind (.on (Catalog.onlyThrows_dropTable _ _)) fun _ => .pure _
  · exact .bind (.on (Catalog.onlyThrows_dropTable _ _)) fun _ => .pure _

theorem Router.onlyThrows_routeDropTable (table : TableRef) :
    (Router.routeDropTable env table).OnlyThrows := by
  refine .get_bind fun router => .ite (.pure _) ?_
  refine .bind (onlyThrows_sendToStorage env _ _) fun response => .ite ?_ (.pure _)
  refine .bind (.on (Catalog.onlyThrows_dropTable _ _)) fun _ => ?_
  exact .bind (.on (Registry.onlyThrows_dropNode _)) fun _ => .pure _

theorem Router.onlyThrows_route : (Router.route env statement).OnlyThrows := by
  unfold Router.route
  split
  · exact .bind (.on (Catalog.onlyThrows_createDatabase _ _)) fun _ => .ite (.pure _) (.pure _)
  · refine .bind (.on (Catalog.onlyThrows_dropDatabase _ _)) fun tables => ?_
    exact .bind (onlyThrows_dropTables env tables) fun _ => .pure _
  · exact .get_bind fun _ => .ite (.pure _) (.pure _)
  · exact onlyThrows_routeCreateTable env _ _
  · exact onlyThrows_routeDropTable env _
  -- the statements on the rows of a table
  · split
    · exact .pure _
    · exact .get_bind fun _ => .ite (onlyThrows_sendToStorage env _ _) (.pure _)

end Router

theorem AccountStore.onlyThrows_createAccount (text : JsonText) (env : AccountEnv)
    (username password : String) :
    (AccountStore.createAccount text env username password).OnlyThrows := by
  have hsave : (AccountStore.save text env).OnlyThrows :=
    .get_bind fun _ => .ite (.pure _) (.bind (.set _) fun _ => .pure _)
  refine .ite (.pure _) (.get_bind fun store => .ite (.pure _) ?_)
  refine .ite (.pure _) (.ite (.pure _) (.bind (.modify _) fun _ => ?_))
  exact .bind hsave fun _ => .ite (.pure _) (.bind (.modify _) fun _ => .pure _)

theorem RbacManager.onlyThrows_revokePermission (saved : Bool) (username database table : String)
    (perm : Permission) :
    (RbacManager.revokePermission saved username database table perm).OnlyThrows := by
  refine .get_bind fun rbac => ?_
  dsimp only
  split
  · exact .pure _
  · exact .ite (.set _) (.set _)

/-! ## The handlers -/

section Handlers

variable {config : Config} {env : Env}

/-- Granting throws only exceptions, whichever of the saves of the rules succeed. -/
def GrantsOnlyThrow (env : Env) : Prop :=
  ∀ n username database table perm,
    (RbacManager.grantPermission (env.rulesSaved n) username database table perm).OnlyThrows

theorem GrantsOnlyThrow.of_saved (h : ∀ n, env.rulesSaved n = true) : GrantsOnlyThrow env := by
  intro n username database table perm
  rw [h]
  refine .ite (.pure _) (.get_bind fun rbac => ?_)
  dsimp only
  split
  · exact .set _
  · exact .bind (.set _) fun _ => .pure _

theorem onlyThrows_callRoute (statement : Statement) : (callRoute env statement).OnlyThrows :=
  .bind (.modify _) fun _ => .on (Router.onlyThrows_route _ _)

theorem onlyThrows_callSubmit (statement : Statement) : (callSubmit env statement).OnlyThrows :=
  .bind (.modify _) fun _ => .pure _

section Grants

variable (hgrant : GrantsOnlyThrow env)

include hgrant

theorem GrantsOnlyThrow.grantAll (username : String) :
    (RbacManager.grantAll env.rulesSaved username).OnlyThrows := by
  refine .bind (hgrant 0 username _ _ _) fun _ => .bind (hgrant 1 username _ _ _) fun _ => ?_
  exact .bind (hgrant 2 username _ _ _) fun _ => hgrant 3 username _ _ _

theorem GrantsOnlyThrow.applyPermissions (grant : Bool) (username : String) (scope : TableRef)
    (names : List String) : ∀ n, (applyPermissions env grant username scope n names).OnlyThrows := by
  induction names with
  | nil =>
      intro n
      exact .pure _
  | cons name names ih =>
      intro n
      refine .ite (.pure _) ?_
      cases grant with
      | true => exact .bind (hgrant n _ _ _ _) fun _ => ih (n + 1)
      | false =>
          exact .bind (RbacManager.onlyThrows_revokePermission _ _ _ _ _) fun _ => ih (n + 1)

theorem GrantsOnlyThrow.handleLogin (request : Request) :
    (handleLogin config env request).OnlyThrows := by
  refine .bind (.ofExcept _) fun username => .bind (.ofExcept _) fun password => ?_
  refine .bind (.ofExcept _) fun create => .ite (.pure _) (.get_bind fun h => .ite ?_ ?_)
  · refine .ite (.pure _) (.bind (.on (AccountStore.onlyThrows_createAccount _ _ _ _)) fun _ => ?_)
    refine .ite (.bind (.on (hgrant.grantAll username)) fun _ => ?_) (.pure _)
    exact .bind (.ofExcept _) fun _ => .pure _
  · refine .ite (.pure _) (.get_bind fun _ => .ite ?_ (.pure _))
    exact .bind (.ofExcept _) fun _ => .pure _

theorem GrantsOnlyThrow.handlePermissions (user : String) (grant : Bool)
    (permissions : List String) (scope : TableRef) (username : String) :
    (handlePermissions config env user grant permissions scope username).OnlyThrows := by
  refine .get_bind fun h => .ite (.pure _) (.get_bind fun _ => .ite (.pure _) ?_)
  refine .bind (.on (hgrant.applyPermissions grant username scope permissions 0)) fun unknown => ?_
  cases unknown with
  | none => exact .pure _
  | some name => exact .pure _

end Grants

theorem onlyThrows_handleCreateUser (user username password : String) :
    (handleCreateUser config env user username password).OnlyThrows := by
  refine .get_bind fun h => .ite (.pure _) ?_
  refine .bind (.on (AccountStore.onlyThrows_createAccount _ _ _ _)) fun _ => ?_
  exact .ite (.pure _) (.pure _)

theorem onlyThrows_executeStatement (user : String) (statement : Statement) :
    (executeStatement config env user statement).OnlyThrows := by
  unfold executeStatement
  split
  · refine .bind (onlyThrows_callRoute _) fun response => .ite ?_ (.pure _)
    exact .bind (.modify _) fun _ => .pure _
  · refine .get_bind fun h => .ite (.pure _) (.ite ?_ (onlyThrows_callRoute _))
    exact .bind (onlyThrows_callSubmit _) fun _ => .pure _

theorem onlyThrows_handleCheckTask (request : Request) :
    (handleCheckTask config env request).OnlyThrows :=
  fun _ => handleCheckTask_post fun _ => trivial

theorem onlyThrows_handleTelemetry (request : Request) :
    (handleTelemetry config env request).OnlyThrows :=
  .get_bind fun _ => .ite (.pure _) (.ite (.pure _) (.pure _))

section Grants

variable (hgrant : GrantsOnlyThrow env)

include hgrant

theorem GrantsOnlyThrow.handleStatement (user : String) (statement : Statement) :
    (handleStatement config env user statement).OnlyThrows := by
  have hsecurity : (handleSecurityStatement config env user statement).OnlyThrows := by
    unfold handleSecurityStatement
    split
    · exact .bind (onlyThrows_handleCreateUser _ _ _) fun _ => .pure _
    · exact .bind (hgrant.handlePermissions _ _ _ _ _) fun _ => .pure _
    · exact .bind (hgrant.handlePermissions _ _ _ _ _) fun _ => .pure _
    · exact .pure _
  refine .bind (.ofExcept _) fun _ => .bind hsecurity fun response => ?_
  cases response with
  | some response => exact .pure _
  | none =>
      refine .get_bind fun h => ?_
      split
      · exact .pure _
      · exact onlyThrows_executeStatement user _

theorem GrantsOnlyThrow.handleExecute (request : Request) :
    (handleExecute config env request).OnlyThrows := by
  refine .bind (.ofExcept _) fun query => .ite (.pure _) (.get_bind fun h => ?_)
  refine .ite (.pure _) (.ite (.pure _) (.ite (.pure _) ?_))
  split
  · next failure hparse =>
      obtain ⟨what, rfl⟩ := parse_error hparse
      exact .throw what
  · exact hgrant.handleStatement _ _

theorem GrantsOnlyThrow.dispatch (request : Request) :
    (dispatch config env request).OnlyThrows := by
  refine .get_bind fun h => .ite (.pure _) (.ite (.pure _) (.ite (.get_bind fun _ => .pure _) ?_))
  refine .ite (hgrant.handleLogin request) (.ite (hgrant.handleExecute request) ?_)
  refine .ite (onlyThrows_handleCheckTask request) (.ite ?_ (.pure _))
  exact onlyThrows_handleTelemetry request

end Grants

/-! ## A round of a connection -/

/-- With the dispatch caught, what is left is the query for the log. -/
theorem process_returns_iff (hgrant : GrantsOnlyThrow env) (request : Request) (h : Handling) :
    (∃ response h', process config env request h = .ok response h') ↔
      ∃ q, request.query = .ok q := by
  have hthrows : (dispatch config env request).OnlyThrows := hgrant.dispatch request
  have hhandle : ∀ what s, ∃ a t, (pure (.error what) : Prog Handling Response) s = .ok a t :=
    fun what s => ⟨_, s, rfl⟩
  obtain ⟨response, h', hcatch⟩ := hthrows.catch_returns hhandle h
  unfold process
  rw [bind_ok hcatch]
  cases request.query with
  | ok q =>
      constructor
      · intro _
        exact ⟨q, rfl⟩
      · intro _
        exact ⟨response, h', rfl⟩
  | error what =>
      constructor
      · rintro ⟨_, _, hrun⟩
        cases hrun
      · rintro ⟨_, hq⟩
        cases hq

/-- A message is answered, and no exception leaves the round, exactly if its envelope is well
    typed. -/
theorem handleMessage_answers_iff (hgrant : GrantsOnlyThrow env) (json : Json) (h : Handling) :
    (∃ response h', handleMessage config env json h = .ok response h') ↔
      Request.WellTyped json := by
  rw [Request.wellTyped_iff, handleMessage]
  cases Request.fromJsonObject json with
  | error what =>
      constructor
      · rintro ⟨_, _, hrun⟩
        cases hrun
      · rintro ⟨_, hrequest, _⟩
        cases hrequest
  | ok request =>
      rw [show Prog.ofExcept (.ok request) = (pure request : Prog Handling Request) from rfl,
        pure_bind, process_returns_iff hgrant]
      constructor
      · intro hquery
        exact ⟨request, rfl, hquery⟩
      · rintro ⟨_, ⟨⟩, hquery⟩
        exact hquery

end Handlers

theorem handleMessage_answers_iff_handshake :
    ∃ response h', handleMessage tokenConfig tokenEnv (.object [("action", .string "handshake")])
      { app := tokenServer [] [], session := {} } = .ok response h' := by
  refine (handleMessage_answers_iff (.of_saved fun _ => rfl) _ _).2 ⟨?_, ?_, ?_⟩
  · intro v hv
    cases hv
    rfl
  · intro v hv
    cases hv
  · intro data hdata
    cases hdata

/-- A number for the action leaves `FromJsonObject` as an exception, and so does a number for the
    query leave `Process`, after its `try` block. -/
theorem handleMessage_raises_number :
    handleMessage tokenConfig tokenEnv (.object [("action", .integer 1)])
        { app := tokenServer [] [], session := {} } =
      .error (.exception (Json.wrongType "string" (.integer 1)))
        { app := tokenServer [] [], session := {} } ∧
    handleMessage tokenConfig tokenEnv
        (.object [("action", .string "handshake"), ("data", .object [("query", .integer 1)])])
        { app := tokenServer [] [], session := {} } =
      .error (.exception (Json.wrongType "string" (.integer 1)))
        { app := tokenServer [] [], session := {} } :=
  ⟨rfl, rfl⟩

end QuasarDB.Server
