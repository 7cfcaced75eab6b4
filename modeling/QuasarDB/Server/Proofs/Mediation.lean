import QuasarDB.Server.Proofs.Handlers

set_option autoImplicit false

/-! # Complete mediation

With authentication, `HandleExecute` hands a statement on only for an account whose rules allow it on
the database and the table that the router acts on. -/

namespace QuasarDB.Server

open Core Prog

/-! ## The statement that is checked -/

/-- A statement keeps its kind when it gets the database of the session. -/
theorem applyDatabase_isSecurity {session : Session} {statement applied : Statement}
    (h : applyDatabase session statement = some applied) (hno : ¬ statement.IsSecurity) :
    ¬ applied.IsSecurity := by
  unfold applyDatabase at h
  cases htable : statement.tableFromStatement with
  | none =>
      rw [htable] at h
      cases h
      exact hno
  | some table =>
      rw [htable, Option.map_eq_some_iff] at h
      obtain ⟨table', _, rfl⟩ := h
      cases statement <;> exact hno

/-- The access check of a statement that reaches it is a check of its target. -/
theorem checkPermission_of_checkAccess {rbac : RbacManager} {user : String} {statement : Statement}
    (hno : ¬ statement.IsSecurity) (huse : ∀ name, statement ≠ .useDatabase name)
    (h : checkAccess rbac user statement = true) :
    ∃ database table, statement.target = some (database, table) ∧
      rbac.checkPermission user database table (permissionFor statement) = true := by
  cases statement with
  | createUser _ _ => exact absurd trivial hno
  | grant _ _ _ => exact absurd trivial hno
  | revoke _ _ _ => exact absurd trivial hno
  | useDatabase name => exact absurd rfl (huse name)
  | _ => exact ⟨_, _, rfl, h⟩

/-- The account that a token admits. -/
theorem validateToken_of_authenticate {env : Env} {app : Application} {request : Request}
    {user : String} (h : authenticate env app request = some user) :
    request.token ≠ "" ∧ env.validateToken request.token = some user ∧
      app.accounts.hasAccount user = true := by
  unfold authenticate at h
  by_cases htoken : request.token = ""
  · rw [if_pos htoken] at h
    cases h
  · rw [if_neg htoken] at h
    cases hvalid : env.validateToken request.token with
    | none =>
        rw [hvalid] at h
        cases h
    | some u =>
        simp only [hvalid] at h
        by_cases haccount : app.accounts.hasAccount u = true
        · rw [if_pos haccount] at h
          cases h
          exact ⟨htoken, rfl, haccount⟩
        · rw [if_neg haccount] at h
          cases h

/-! ## Authority -/

/-- The router, given the statement, reaches nothing but what `database` and `table` stand for. -/
def RoutedWithin (database table : String) (statement : Statement) : Prop :=
  ∀ env router, (Router.route env statement).Post router
    (fun _ => Router.Confined database table router) (fun _ => Router.Confined database table router)

/-- The request entitles its sender to have the statement carried out. -/
def Entitles (env : Env) (request : Request) (h : Handling) (statement : Statement) : Prop :=
  ∃ user query parsed, request.token ≠ "" ∧ env.validateToken request.token = some user ∧
    h.app.accounts.hasAccount user = true ∧
    request.query = .ok query ∧ parse (Lexer.tokenize query) = .ok parsed ∧
    applyDatabase h.session parsed = some statement ∧
    ((∃ name, statement = .useDatabase name) ∨
      ∃ database table, statement.target = some (database, table) ∧
        RoutedWithin database table statement ∧
        h.app.rbac.checkPermission user database table (permissionFor statement) = true)

variable {config : Config} {env : Env} {request : Request} {h : Handling}

/-- From the statement that the database is applied to, to the ones that are handed on. -/
theorem executeStatement_calls {user : String} {statement : Statement}
    (hauth : config.authRequired = true) (hno : ¬ statement.IsSecurity)
    (hentitles : ((∃ name, statement = .useDatabase name) ∨
      ∃ database table, statement.target = some (database, table) ∧
        RoutedWithin database table statement ∧
        h.app.rbac.checkPermission user database table (permissionFor statement) = true) →
      Entitles env request h statement) :
    (executeStatement config env user statement).Post h
      (fun _ h' => h'.calls = h.calls ∨
        ∃ call, h'.calls = call :: h.calls ∧ Entitles env request h call)
      (fun _ h' => h'.calls = h.calls ∨
        ∃ call, h'.calls = call :: h.calls ∧ Entitles env request h call) := by
  have hchecked : (∀ name, statement ≠ .useDatabase name) →
      (config.authRequired = true → checkAccess h.app.rbac user statement = true) →
      Entitles env request h statement := by
    intro huse haccess
    obtain ⟨database, table, htarget, hcheck⟩ :=
      checkPermission_of_checkAccess hno huse (haccess hauth)
    exact hentitles (.inr ⟨database, table, htarget, fun _ _ => Router.route_confined htarget, hcheck⟩)
  refine executeStatement_post (fun _ => .inl rfl) (fun name huse => ?_)
    (fun huse haccess _ => ?_) (fun huse haccess _ => ?_)
  · have hown := hentitles (.inl ⟨name, huse⟩)
    refine callRoute_frame.mono ?_ ?_
    · rintro response _ ⟨router, rfl⟩
      refine .inr ⟨statement, ?_, hown⟩
      split <;> rfl
    · rintro _ _ ⟨router, rfl⟩
      exact .inr ⟨statement, rfl, hown⟩
  · have hown := hchecked huse haccess
    refine callRoute_frame.mono ?_ ?_
    · rintro _ _ ⟨router, rfl⟩
      exact .inr ⟨statement, rfl, hown⟩
    · rintro _ _ ⟨router, rfl⟩
      exact .inr ⟨statement, rfl, hown⟩
  · exact .inr ⟨statement, rfl, hchecked huse haccess⟩

/-- With authentication, at most one statement is handed to the router or to the task processor, and
    the request entitles its sender to it. -/
theorem handleExecute_mediates (hauth : config.authRequired = true) :
    ((handleExecute config env request).after h).calls = h.calls ∨
      ∃ statement, ((handleExecute config env request).after h).calls = statement :: h.calls ∧
        Entitles env request h statement := by
  refine Post.of_after (P := fun h' : Handling => h'.calls = h.calls ∨
    ∃ call, h'.calls = call :: h.calls ∧ Entitles env request h call) ?_
  refine handleExecute_post (fun _ => .inl rfl) (fun _ => .inl rfl)
    (fun query parsed hquery hparse hadmitted => ?_)
  obtain ⟨user, huser⟩ := Option.isSome_iff_exists.1 (hadmitted hauth).2
  obtain ⟨htoken, hvalid, haccount⟩ := validateToken_of_authenticate huser
  rw [huser]
  refine handleStatement_post (fun _ => .inl rfl) (fun _ => .inl rfl) (fun _ _ _ => ?_)
    (fun _ _ _ _ _ => ?_) (fun applied hno happlied => ?_)
  -- statements on accounts and rules hand nothing on
  · refine handleCreateUser_frame.mono ?_ ?_
    · rintro _ _ ⟨accounts, rfl⟩
      exact .inl rfl
    · rintro _ _ ⟨accounts, rfl⟩
      exact .inl rfl
  · refine handlePermissions_frame.mono ?_ ?_
    · rintro _ _ ⟨rbac, rfl⟩
      exact .inl rfl
    · rintro _ _ ⟨rbac, rfl⟩
      exact .inl rfl
  · exact executeStatement_calls hauth (applyDatabase_isSecurity happlied hno)
      (fun hallowed =>
        ⟨user, query, parsed, htoken, hvalid, haccount, hquery, hparse, happlied, hallowed⟩)

/-! ### A small server -/

/-- Surroundings in which a token is the name of its account, and everything is saved. -/
def tokenEnv : Env where
  validateToken := some
  generateToken := .ok
  account := { salt := "salt", hashPassword := fun password _ => password, saved := true }
  rulesSaved _ := true
  storage := { startProcess := fun _ => .started, exchange := fun _ => .notConnected,
               saved := fun _ => true }
  taskId := "task"
  poolAccepts := true
  telemetry := .null

def tokenConfig : Config := { authRequired := true, text := ⟨fun _ => none, fun _ => []⟩ }

/-- A server with nothing but accounts and rules. -/
def tokenServer (usernames : List String) (rules : List AccessRule) : Application where
  accounts :=
    { accounts := usernames.foldl (fun accounts u => accounts.insert u ⟨u, u, "salt"⟩) ∅,
      loadOk := true, file := none }
  rbac := ⟨rules⟩
  router := { catalog := Catalog.load none, registry := Registry.new false, sent := [] }
  tasks := .new

def queryRequest (token query : String) : Request :=
  { action := "query", token, data := .object [("query", .string query)] }

/-- The name of the table comes with the database of the session. -/
theorem handleExecute_mediates_revert :
    ∃ statement, ((handleExecute tokenConfig tokenEnv
        (queryRequest "ann" "REVERT t 2024.01.01-00:00:00.000;")).after
        { app := tokenServer ["ann"] [⟨"ann", "d", "t", {.write}⟩],
          session := ⟨some "d"⟩ }).calls = [statement] ∧
      Entitles tokenEnv (queryRequest "ann" "REVERT t 2024.01.01-00:00:00.000;")
        { app := tokenServer ["ann"] [⟨"ann", "d", "t", {.write}⟩], session := ⟨some "d"⟩ }
        statement :=
  (handleExecute_mediates rfl).resolve_left (by decide)

end QuasarDB.Server
