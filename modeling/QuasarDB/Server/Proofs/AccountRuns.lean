import QuasarDB.Server.Proofs.AccountFile
import QuasarDB.Server.Proofs.Mediation
import QuasarDB.Server.System

set_option autoImplicit false

/-! # The accounts of a run

The first account comes from a login that sets the server up, and every other one from a
`CREATE USER` of somebody who may create everywhere. -/

namespace QuasarDB.Server

open Core Prog

/-! ## What a request does to the accounts -/

/-- A login request with `create`. -/
def IsCreateLogin (request : Request) : Prop :=
  request.action = "login" ∧ request.data.value Json.getBool "create" false = .ok true

/-- How the accounts change through a request. -/
inductive AccountChange (env : Env) (request : Request) (app app' : Application) : Prop where
  | unchanged (haccounts : app'.accounts = app.accounts)
  | setup (username : String) (hlogin : IsCreateLogin request) (hempty : app.accounts.empty = true)
      (hcreated : app.accounts.Created username app'.accounts)
  | createUser (user query username password : String) (haction : request.action = "query")
      (huser : authenticate env app request = some user)
      (hcheck : app.rbac.checkPermission user "*" "*" .create = true)
      (hquery : request.query = .ok query)
      (hparse : parse (Lexer.tokenize query) = .ok (.createUser username password))
      (hcreated : app.accounts.Created username app'.accounts)

theorem AccountStore.Created.not_empty {username : String} {store store' : AccountStore}
    (h : store.Created username store') : store'.empty = false := by
  obtain ⟨account, haccounts⟩ := h.accounts
  rw [AccountStore.empty, haccounts, AList.entries_insert]
  rfl

/-- Accounts are never removed. -/
theorem AccountChange.not_empty {env : Env} {request : Request} {app app' : Application}
    (h : AccountChange env request app app') (hne : app.accounts.empty = false) :
    app'.accounts.empty = false := by
  cases h with
  | unchanged haccounts => rw [haccounts, hne]
  | setup username _ _ hcreated => exact hcreated.not_empty
  | createUser user query username password _ _ _ _ _ hcreated => exact hcreated.not_empty

section Requests

variable {config : Config} {env : Env} {request : Request} {h : Handling}

/-- What holds after a request that is answered. -/
def Answered (env : Env) (request : Request) (app : Application) (response : Response)
    (h' : Handling) : Prop :=
  AccountChange env request app h'.app ∧ (IsCreateLogin request → response.isSuccess = true →
    app.accounts.empty = true ∧ h'.app.accounts.empty = false)

theorem Answered.refused {response : Response} (herror : response.isSuccess = false) :
    Answered env request h.app response h :=
  ⟨.unchanged rfl, fun _ hsuccess => by rw [herror] at hsuccess; cases hsuccess⟩

theorem Answered.of_action {app : Application} {response : Response} {h' : Handling}
    (haction : request.action ≠ "login") (hchange : AccountChange env request app h'.app) :
    Answered env request app response h' :=
  ⟨hchange, fun hlogin _ => absurd hlogin.1 haction⟩

theorem handleLogin_accounts (haction : request.action = "login") :
    (handleLogin config env request).Post h (Answered env request h.app)
      (fun _ h' => AccountChange env request h.app h'.app) := by
  refine Post.bind (Post.ofExcept (fun username _ => ?_) (fun _ _ => .unchanged rfl))
  refine Post.bind (Post.ofExcept (fun password _ => ?_) (fun _ _ => .unchanged rfl))
  refine Post.bind (Post.ofExcept (fun create hcreate => ?_) (fun _ _ => .unchanged rfl))
  refine Post.ite (fun _ => Post.pure (.refused rfl)) (fun _ => Post.get_bind ?_)
  refine Post.ite (fun hempty => ?_) (fun _ => ?_)
  · -- setup
    refine Post.ite (fun _ => Post.pure (.refused rfl)) (fun hcreate' => ?_)
    have hlogin : IsCreateLogin request := by
      refine ⟨haction, ?_⟩
      rw [hcreate]
      simpa using hcreate'
    refine Post.bind (Post.on (AccountStore.createAccount_post.mono ?_ (fun _ _ h => h.elim)))
    rintro created accounts hcreated
    refine Post.ite (fun hc => ?_) (fun hc => ?_)
    · rw [if_pos hc] at hcreated
      -- the rules and the token come after the account
      have hchange : AccountChange env request h.app { h.app with accounts } :=
        .setup username hlogin hempty hcreated
      refine Post.bind (Post.on_frame.mono ?_ ?_)
      · rintro _ _ ⟨rbac, rfl⟩
        refine Post.bind (Post.ofExcept (fun token _ => Post.pure ⟨?_, ?_⟩) (fun _ _ => ?_))
        · exact .setup username hlogin hempty hcreated
        · exact fun _ _ => ⟨hempty, hcreated.not_empty⟩
        · exact .setup username hlogin hempty hcreated
      · rintro _ _ ⟨rbac, rfl⟩
        exact .setup username hlogin hempty hcreated
    · rw [if_neg hc] at hcreated
      subst hcreated
      exact Post.pure (.refused rfl)
  · -- the accounts are there
    refine Post.ite (fun _ => Post.pure (.refused rfl)) (fun hcreate' => Post.get_bind ?_)
    refine Post.ite (fun _ => ?_) (fun _ => Post.pure (.refused rfl))
    refine Post.bind (Post.ofExcept (fun token _ => Post.pure ⟨.unchanged rfl, ?_⟩)
      (fun _ _ => .unchanged rfl))
    intro hlogin _
    rw [hlogin.2] at hcreate
    cases hcreate
    exact absurd rfl hcreate'

theorem handleExecute_accounts (hauth : config.authRequired = true)
    (haction : request.action = "query") :
    (handleExecute config env request).Post h
      (fun _ h' => AccountChange env request h.app h'.app)
      (fun _ h' => AccountChange env request h.app h'.app) := by
  refine handleExecute_post (fun _ => .unchanged rfl) (fun _ => .unchanged rfl)
    (fun query statement hquery hparse hadmitted => ?_)
  obtain ⟨user, huser⟩ := Option.isSome_iff_exists.1 (hadmitted hauth).2
  rw [huser, Option.getD_some]
  refine handleStatement_post (fun _ => .unchanged rfl) (fun _ => .unchanged rfl) ?_ ?_ ?_
  · rintro username password rfl
    refine Post.get_bind (Post.ite (fun _ => Post.pure (.unchanged rfl)) (fun hdenied => ?_))
    have hcheck : h.app.rbac.checkPermission user "*" "*" .create = true := by
      simpa [hauth] using hdenied
    refine Post.bind (Post.on (AccountStore.createAccount_post.mono ?_ (fun _ _ h => h.elim)))
    rintro created accounts hcreated
    refine Post.ite (fun hc => ?_) (fun hc => ?_)
    · rw [if_pos hc] at hcreated
      exact Post.pure
        (.createUser user query username password haction huser hcheck hquery hparse hcreated)
    · rw [if_neg hc] at hcreated
      exact Post.pure (.unchanged hcreated)
  · rintro grant permissions scope username -
    refine handlePermissions_frame.mono ?_ ?_
    · rintro _ _ ⟨rbac, rfl⟩
      exact .unchanged rfl
    · rintro _ _ ⟨rbac, rfl⟩
      exact .unchanged rfl
  · rintro applied - -
    refine executeStatement_frame.mono ?_ ?_
    · rintro _ h' ⟨router, tasks, happ⟩
      exact .unchanged (by rw [happ])
    · rintro _ h' ⟨router, tasks, happ⟩
      exact .unchanged (by rw [happ])

theorem process_accounts (hauth : config.authRequired = true) :
    (process config env request).Post h (Answered env request h.app)
      (fun _ h' => AccountChange env request h.app h'.app) := by
  refine process_post (fun haction _ => .of_action haction (.unchanged rfl)) handleLogin_accounts
    (fun haction => ?_) (fun what h' hchange => ⟨hchange, fun _ hsuccess => by cases hsuccess⟩)
    (fun _ _ _ hanswered => hanswered.1)
  have hno : request.action ≠ "login" := by simp [haction]
  exact (handleExecute_accounts hauth haction).mono (fun _ _ hchange => .of_action hno hchange)
    (fun _ _ hchange => hchange)

end Requests

/-! ## Runs -/

/-- The event is a login with `create` that succeeds, or that leaves another set of accounts. -/
def SetsUp (config : Config) (system : System) : Event → Prop
  | .request connection env request =>
      IsCreateLogin request ∧
        ((∃ response, system.answer config (.request connection env request) = some response ∧
            response.isSuccess = true) ∨
          (system.step config (.request connection env request)).app.accounts ≠ system.app.accounts)
  | _ => False

/-- The event is a `CREATE USER` of a user who may create everywhere. -/
def CreatesUser (config : Config) (system : System) : Event → Prop
  | .request connection env request =>
      ∃ user query username password, request.action = "query" ∧
        authenticate env system.app request = some user ∧
        system.app.rbac.checkPermission user "*" "*" .create = true ∧
        request.query = .ok query ∧
        parse (Lexer.tokenize query) = .ok (.createUser username password) ∧
        system.app.accounts.Created username
          (system.step config (.request connection env request)).app.accounts
  | _ => False

section Runs

variable {config : Config} {system : System}

/-- Only requests change the accounts. -/
theorem step_accounts (hauth : config.authRequired = true) (e : Event) :
    (system.step config e).app.accounts = system.app.accounts ∨
      ∃ connection env request, e = .request connection env request ∧
        AccountChange env request system.app (system.step config e).app := by
  cases e with
  | request connection env request =>
      refine .inr ⟨connection, env, request, rfl, ?_⟩
      exact Post.of_after (P := fun h' : Handling => AccountChange env request system.app h'.app)
        ((process_accounts hauth).mono (fun _ _ hanswered => hanswered.1) (fun _ _ hc => hc))
  | connect connection => exact .inl rfl
  | startTask => exact .inl rfl
  | finishTask index env =>
      refine .inl ?_
      cases hjob : system.app.tasks.running[index]? with
      | none => simp only [System.step, hjob]
      | some job =>
          obtain ⟨router, tasks, hframe⟩ := System.finishTask_frame system.app index job env
          simp only [System.step, hjob, hframe]
  | updateNode id state => exact .inl rfl
  | restartNode id start => exact .inl rfl

/-- Accounts are never removed in a run. -/
theorem step_not_empty (hauth : config.authRequired = true)
    (hne : system.app.accounts.empty = false) (e : Event) :
    (system.step config e).app.accounts.empty = false := by
  rcases step_accounts hauth e with haccounts | ⟨connection, env, request, _, hchange⟩
  · rw [haccounts, hne]
  · exact hchange.not_empty hne

/-- A setup takes place on an empty store, and leaves an account. -/
theorem setsUp_empty (hauth : config.authRequired = true) {e : Event}
    (h : SetsUp config system e) :
    system.app.accounts.empty = true ∧ (system.step config e).app.accounts.empty = false := by
  cases e with
  | request connection env request =>
      obtain ⟨hlogin, ⟨response, hanswer, hsuccess⟩ | hchanged⟩ := h
      · have hpost : (process config env request).Post (system.handling connection) _ _ :=
          process_accounts hauth
        cases hrun : process config env request (system.handling connection) with
        | ok response' h' =>
            simp only [System.answer, hrun, Option.some.injEq] at hanswer
            subst hanswer
            simp only [System.step, after_ok hrun]
            exact (hpost.of_ok hrun).2 hlogin hsuccess
        | error failure h' => simp [System.answer, hrun] at hanswer
      · rcases step_accounts hauth (.request connection env request) with
          haccounts | ⟨connection', env', request', heq, hchange⟩
        · exact absurd haccounts hchanged
        · cases heq
          cases hchange with
          | unchanged haccounts => exact absurd haccounts hchanged
          | setup username _ hempty hcreated => exact ⟨hempty, hcreated.not_empty⟩
          | createUser user query username password haction _ _ _ _ _ =>
              exact absurd (hlogin.1.symm.trans haction) (by decide)
  | _ => exact h.elim

/-- A store with accounts is not set up again. -/
theorem not_setsUp_of_not_empty (hauth : config.authRequired = true)
    (hne : system.app.accounts.empty = false) (events : List Event) :
    ∀ t ∈ system.history config events, ¬ SetsUp config t.1 t.2 := by
  induction events generalizing system with
  | nil => exact List.forall_mem_nil _
  | cons e events ih =>
      refine List.forall_mem_cons.2 ⟨fun hsetup => ?_, ih (step_not_empty hauth hne e)⟩
      have hempty := (setsUp_empty hauth hsetup).1
      rw [hne] at hempty
      cases hempty

theorem setsUp_once (hauth : config.authRequired = true) (events : List Event) :
    (system.history config events).Pairwise
      (fun t u => ¬ (SetsUp config t.1 t.2 ∧ SetsUp config u.1 u.2)) := by
  induction events generalizing system with
  | nil => exact .nil
  | cons e events ih =>
      refine .cons (fun u hu hboth => ?_) ih
      -- the first setup leaves an account for the rest of the run
      exact not_setsUp_of_not_empty hauth (setsUp_empty hauth hboth.1).2 events u hu hboth.2

theorem accounts_authorized (hauth : config.authRequired = true) (e : Event) :
    (system.step config e).app.accounts = system.app.accounts ∨ SetsUp config system e ∨
      CreatesUser config system e := by
  rcases step_accounts hauth e with haccounts | ⟨connection, env, request, rfl, hchange⟩
  · exact .inl haccounts
  · cases hchange with
    | unchanged haccounts => exact .inl haccounts
    | setup username hlogin hempty hcreated =>
        refine .inr (.inl ⟨hlogin, .inr (fun heq => ?_)⟩)
        have hne := hcreated.not_empty
        rw [heq, hempty] at hne
        cases hne
    | createUser user query username password haction huser hcheck hquery hparse hcreated =>
        exact .inr (.inr
          ⟨user, query, username, password, haction, huser, hcheck, hquery, hparse, hcreated⟩)

/-- In every run, at most one login sets the server up, and it finds no account; nothing else but the
    `CREATE USER` of a user who may create everywhere changes the accounts. -/
theorem accounts_grow_with_authority (hauth : config.authRequired = true) (events : List Event) :
    (system.history config events).Pairwise
        (fun t u => ¬ (SetsUp config t.1 t.2 ∧ SetsUp config u.1 u.2)) ∧
      ∀ t ∈ system.history config events,
        (SetsUp config t.1 t.2 → t.1.app.accounts.empty = true) ∧
          ((t.1.step config t.2).app.accounts = t.1.app.accounts ∨ SetsUp config t.1 t.2 ∨
            CreatesUser config t.1 t.2) :=
  ⟨setsUp_once hauth events, fun t _ =>
    ⟨fun hsetup => (setsUp_empty hauth hsetup).1, accounts_authorized hauth t.2⟩⟩

end Runs

/-- A server is set up, and its first user creates another. -/
def setupRun : List Event :=
  [.request 0 tokenEnv { action := "login", data := .object [("username", .string "ann"),
      ("password", .string "secret"), ("create", .boolean true)] },
    .request 1 tokenEnv (queryRequest "ann" "CREATE USER bob PASSWORD \"pw\";")]

theorem accounts_grow_with_authority_setupRun :
    (((System.start (tokenServer [] [])).run tokenConfig setupRun).app.accounts.hasAccount
        "bob" = true) ∧
      ((System.start (tokenServer [] [])).history tokenConfig setupRun).Pairwise
        (fun t u => ¬ (SetsUp tokenConfig t.1 t.2 ∧ SetsUp tokenConfig u.1 u.2)) :=
  ⟨by decide, (accounts_grow_with_authority rfl setupRun).1⟩

end QuasarDB.Server
