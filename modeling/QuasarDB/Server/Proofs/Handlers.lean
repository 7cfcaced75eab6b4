import QuasarDB.Server.Application
import QuasarDB.Server.Proofs.RouterEffects

set_option autoImplicit false

/-! # The paths through a handler

One rule for each stage of `HandleExecute`: a property holds after it, if it holds where the stage
refuses the request, and after the next stage where it lets the request through. Results about the
handler are proved with these rules and do not unfold it. -/

namespace QuasarDB.Server

open Core Prog

/-- The statements `HandleSecurityStatement` carries out itself. -/
def Statement.IsSecurity : Statement → Prop
  | .createUser _ _ => True
  | .grant _ _ _ => True
  | .revoke _ _ _ => True
  | _ => False

/-- The request may reach the parser: with authentication, there are accounts and its token is that
    of one of them. -/
def Admitted (config : Config) (env : Env) (request : Request) (app : Application) : Prop :=
  config.authRequired = true →
    app.accounts.empty = false ∧ (authenticate env app request).isSome = true

section Rules

variable {config : Config} {env : Env} {request : Request} {user : String} {statement : Statement}
  {h : Handling} {Q : Response → Handling → Prop} {E : Failure → Handling → Prop}

/-- Up to the parser, the handler refuses the request and leaves the state alone. -/
theorem handleExecute_post (hrefuse : ∀ response, Q response h) (hraise : ∀ failure, E failure h)
    (hstatement : ∀ query statement, request.query = .ok query →
      parse (Lexer.tokenize query) = .ok statement → Admitted config env request h.app →
      (handleStatement config env ((authenticate env h.app request).getD "") statement).Post h Q E) :
    (handleExecute config env request).Post h Q E := by
  refine Post.bind (Post.ofExcept (fun query hquery => ?_) (fun _ _ => hraise _))
  refine Post.ite (fun _ => Post.pure (hrefuse _)) (fun _ => Post.get_bind ?_)
  refine Post.ite (fun _ => Post.pure (hrefuse _)) (fun hsetup => ?_)
  refine Post.ite (fun _ => Post.pure (hrefuse _)) (fun htoken => ?_)
  refine Post.ite (fun _ => Post.pure (hrefuse _)) (fun _ => ?_)
  split
  · exact Post.throw (hraise _)
  · rename_i statement hparse
    refine hstatement query statement hquery hparse (fun hauth => ⟨?_, ?_⟩)
    · simpa [hauth] using hsetup
    · rw [Option.isSome_iff_ne_none]
      simpa [hauth] using htoken

/-- The analyzer, the security statements and the database of the session. -/
theorem handleStatement_post (hrefuse : ∀ response, Q response h) (hraise : ∀ failure, E failure h)
    (hcreateUser : ∀ username password, statement = .createUser username password →
      (handleCreateUser config env user username password).Post h Q E)
    (hpermissions : ∀ grant permissions scope username,
      statement = (if grant then .grant permissions scope username
        else .revoke permissions scope username) →
      (handlePermissions config env user grant permissions scope username).Post h Q E)
    (hexecute : ∀ applied, ¬ statement.IsSecurity → applyDatabase h.session statement = some applied →
      (executeStatement config env user applied).Post h Q E) :
    (handleStatement config env user statement).Post h Q E := by
  refine Post.bind (Post.ofExcept (fun _ _ => ?_) (fun _ _ => hraise _))
  cases statement with
  | createUser username password =>
      exact Post.bind (Post.bind ((hcreateUser username password rfl).mono
        (fun _ _ hQ => Post.pure (Post.pure hQ)) (fun _ _ hE => hE)))
  | grant permissions scope username =>
      exact Post.bind (Post.bind ((hpermissions true permissions scope username rfl).mono
        (fun _ _ hQ => Post.pure (Post.pure hQ)) (fun _ _ hE => hE)))
  | revoke permissions scope username =>
      exact Post.bind (Post.bind ((hpermissions false permissions scope username rfl).mono
        (fun _ _ hQ => Post.pure (Post.pure hQ)) (fun _ _ hE => hE)))
  | _ =>
      -- the statements that `HandleSecurityStatement` passes on
      refine Post.bind (Post.pure (Post.get_bind ?_))
      split
      · exact Post.pure (hrefuse _)
      · next applied happlied => exact hexecute applied id happlied

/-- A `USE`, or a statement that passes the access check. -/
theorem executeStatement_post (hrefuse : ∀ response, Q response h)
    (huse : ∀ name, statement = .useDatabase name →
      (callRoute env statement).Post h (fun response h' =>
        Q response (if response.isSuccess then { h' with session.database := some name } else h')) E)
    (hroute : (∀ name, statement ≠ .useDatabase name) →
      (config.authRequired = true → checkAccess h.app.rbac user statement = true) →
      isLongRunning statement = false → (callRoute env statement).Post h Q E)
    (hsubmit : (∀ name, statement ≠ .useDatabase name) →
      (config.authRequired = true → checkAccess h.app.rbac user statement = true) →
      isLongRunning statement = true →
      (callSubmit env statement).Post h (fun taskId h' =>
        Q (.pending "Operation is running in background" (.object [("task_id", .string taskId)])) h')
        E) :
    (executeStatement config env user statement).Post h Q E := by
  have hcheck : (∀ name, statement ≠ .useDatabase name) → Post (do
      if config.authRequired && !checkAccess (← get).app.rbac user statement then
        return .error "Permission denied"
      else if isLongRunning statement then
        let taskId ← callSubmit env statement
        return .pending "Operation is running in background" (.object [("task_id", .string taskId)])
      else callRoute env statement) h Q E := by
    intro hno
    refine Post.get_bind (Post.ite (fun _ => Post.pure (hrefuse _)) (fun hdenied => ?_))
    have haccess : config.authRequired = true → checkAccess h.app.rbac user statement = true := by
      intro hauth
      simpa [hauth] using hdenied
    refine Post.ite (fun hlong => ?_) (fun hshort => hroute hno haccess (by simpa using hshort))
    exact Post.bind ((hsubmit hno haccess hlong).mono (fun _ _ hQ => Post.pure hQ) (fun _ _ hE => hE))
  cases statement with
  | useDatabase name =>
      refine Post.bind ((huse name rfl).mono (fun response h' hQ => ?_) (fun _ _ hE => hE))
      refine Post.ite (fun hsuccess => ?_) (fun hfailed => Post.pure ?_)
      · rw [if_pos hsuccess] at hQ
        exact hQ
      · rwa [if_neg hfailed] at hQ
  | _ => exact hcheck (by simp)

/-! ## The kinds of requests -/

theorem handleCheckTask_post (hread : ∀ response, Q response h) :
    (handleCheckTask config env request).Post h Q E := by
  refine Post.get_bind (Post.ite (fun _ => Post.pure (hread _)) (fun _ => ?_))
  refine Post.ite (fun _ => Post.pure (hread _)) (fun _ => ?_)
  cases request.taskId with
  | none => exact Post.pure (hread _)
  | some id =>
      simp only
      split <;> exact Post.pure (hread _)

/-- Only logins and queries do more than to answer. -/
theorem dispatch_post (hread : request.action ≠ "login" → ∀ response, Q response h)
    (hlogin : request.action = "login" → (handleLogin config env request).Post h Q E)
    (hquery : request.action = "query" → (handleExecute config env request).Post h Q E) :
    (dispatch config env request).Post h Q E := by
  refine Post.get_bind (Post.ite (fun haction => ?_) (fun _ => ?_))
  · exact Post.pure (hread (by simp [haction]) _)
  refine Post.ite (fun hsetup => ?_) (fun _ => ?_)
  · simp only [Bool.and_eq_true, bne_iff_ne] at hsetup
    exact Post.pure (hread hsetup.1.2 _)
  refine Post.ite (fun haction => ?_) (fun _ => ?_)
  · exact Post.get_bind (Post.pure (hread (by simp [haction]) _))
  refine Post.ite hlogin (fun hno => ?_)
  refine Post.ite hquery (fun _ => ?_)
  refine Post.ite (fun _ => handleCheckTask_post (hread hno)) (fun _ => ?_)
  refine Post.ite (fun _ => Post.get_bind ?_) (fun _ => Post.pure (hread hno _))
  refine Post.ite (fun _ => Post.pure (hread hno _)) (fun _ => ?_)
  exact Post.ite (fun _ => Post.pure (hread hno _)) (fun _ => Post.pure (hread hno _))

/-- What holds after the dispatch also has to hold where the query is logged. -/
theorem process_post (hread : request.action ≠ "login" → ∀ response, Q response h)
    (hlogin : request.action = "login" → (handleLogin config env request).Post h Q E)
    (hquery : request.action = "query" → (handleExecute config env request).Post h Q E)
    (hcaught : ∀ what h', E (.exception what) h' → Q (.error what) h')
    (hlog : ∀ response what h', Q response h' → E (.exception what) h') :
    (process config env request).Post h Q E := by
  refine Post.bind (Post.catchException ((dispatch_post hread hlogin hquery).mono ?_ ?_))
  · intro response h' hQ
    exact Post.bind (Post.ofExcept (fun _ _ => Post.pure hQ) (fun what _ => hlog response what h' hQ))
  · intro failure h' hE
    cases failure with
    | exception what =>
        have hQ := hcaught what h' hE
        exact Post.pure (Post.bind
          (Post.ofExcept (fun _ _ => Post.pure hQ) (fun what' _ => hlog _ what' h' hQ)))
    | _ => exact hE

/-! ## What a stage leaves alone -/

theorem callRoute_frame :
    (callRoute env statement).Post h
      (fun _ h' => ∃ router, h' = { h with app.router := router, calls := statement :: h.calls })
      (fun _ h' => ∃ router, h' = { h with app.router := router, calls := statement :: h.calls }) :=
  Post.bind (Post.modify Post.on_frame)

theorem handleCreateUser_frame {username password : String} :
    (handleCreateUser config env user username password).Post h
      (fun _ h' => ∃ accounts, h' = { h with app.accounts := accounts })
      (fun _ h' => ∃ accounts, h' = { h with app.accounts := accounts }) := by
  refine Post.get_bind (Post.ite (fun _ => Post.pure ⟨_, rfl⟩) (fun _ => ?_))
  refine Post.bind (Post.on_frame.mono (fun created h' hframe => ?_) (fun _ _ hframe => hframe))
  exact Post.ite (fun _ => Post.pure hframe) (fun _ => Post.pure hframe)

theorem handleLogin_frame :
    (handleLogin config env request).Post h
      (fun _ h' => ∃ accounts rbac, h' = { h with app.accounts := accounts, app.rbac := rbac })
      (fun _ h' => ∃ accounts rbac, h' = { h with app.accounts := accounts, app.rbac := rbac }) := by
  have hsame : ∃ accounts rbac, h = { h with app.accounts := accounts, app.rbac := rbac } :=
    ⟨h.app.accounts, h.app.rbac, rfl⟩
  refine Post.bind (Post.ofExcept (fun username _ => ?_) (fun _ _ => hsame))
  refine Post.bind (Post.ofExcept (fun password _ => ?_) (fun _ _ => hsame))
  refine Post.bind (Post.ofExcept (fun create _ => ?_) (fun _ _ => hsame))
  refine Post.ite (fun _ => Post.pure hsame) (fun _ => Post.get_bind ?_)
  refine Post.ite (fun _ => ?_) (fun _ => ?_)
  · refine Post.ite (fun _ => Post.pure hsame) (fun _ => Post.bind (Post.on_frame.mono ?_ ?_))
    · rintro created _ ⟨accounts, rfl⟩
      refine Post.ite (fun _ => Post.bind (Post.on_frame.mono ?_ ?_))
        (fun _ => Post.pure ⟨accounts, h.app.rbac, rfl⟩)
      · rintro _ _ ⟨rbac, rfl⟩
        exact Post.bind (Post.ofExcept (fun _ _ => Post.pure ⟨accounts, rbac, rfl⟩)
          (fun _ _ => ⟨accounts, rbac, rfl⟩))
      · rintro _ _ ⟨rbac, rfl⟩
        exact ⟨accounts, rbac, rfl⟩
    · rintro _ _ ⟨accounts, rfl⟩
      exact ⟨accounts, h.app.rbac, rfl⟩
  · refine Post.ite (fun _ => Post.pure hsame) (fun _ => Post.get_bind ?_)
    refine Post.ite (fun _ => ?_) (fun _ => Post.pure hsame)
    exact Post.bind (Post.ofExcept (fun _ _ => Post.pure hsame) (fun _ _ => hsame))

theorem handlePermissions_frame {username : String} {grant : Bool} {permissions : List String}
    {scope : TableRef} :
    (handlePermissions config env user grant permissions scope username).Post h
      (fun _ h' => ∃ rbac, h' = { h with app.rbac := rbac })
      (fun _ h' => ∃ rbac, h' = { h with app.rbac := rbac }) := by
  refine Post.get_bind (Post.ite (fun _ => Post.pure ⟨_, rfl⟩) (fun _ => Post.get_bind ?_))
  refine Post.ite (fun _ => Post.pure ⟨_, rfl⟩) (fun _ => ?_)
  refine Post.bind (Post.on_frame.mono (fun unknown h' hframe => ?_) (fun _ _ hframe => hframe))
  cases unknown <;> exact Post.pure hframe

/-- Accounts and rules are not touched once a statement is handed on. -/
theorem executeStatement_frame :
    (executeStatement config env user statement).Post h
      (fun _ h' => ∃ router tasks, h'.app = { h.app with router, tasks })
      (fun _ h' => ∃ router tasks, h'.app = { h.app with router, tasks }) := by
  have hroute : (callRoute env statement).Post h
      (fun _ h' => ∃ router tasks, h'.app = { h.app with router, tasks })
      (fun _ h' => ∃ router tasks, h'.app = { h.app with router, tasks }) := by
    refine callRoute_frame.mono ?_ ?_
    · rintro _ _ ⟨router, rfl⟩
      exact ⟨router, h.app.tasks, rfl⟩
    · rintro _ _ ⟨router, rfl⟩
      exact ⟨router, h.app.tasks, rfl⟩
  refine executeStatement_post (fun _ => ⟨_, _, rfl⟩) (fun name _ => ?_) (fun _ _ _ => hroute)
    (fun _ _ _ => ⟨h.app.router, _, rfl⟩)
  refine hroute.mono (fun response h' hframe => ?_) (fun _ _ hframe => hframe)
  split <;> exact hframe

end Rules

end QuasarDB.Server
