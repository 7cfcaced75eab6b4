import QuasarDB.Server.Desk
import QuasarDB.Server.Proofs.AstJsonRoundTrip
import QuasarDB.Server.Proofs.Deployments
import QuasarDB.Server.Proofs.Envelope
import QuasarDB.Server.Proofs.StoreRuns

set_option autoImplicit false

/-! # The server is a desk

In every interleaving of what happens to it, the server with its nodes answers its clients as the desk of
`Desk.lean` may. -/

namespace QuasarDB.Server

open Core Prog Storage

/-! ## What a request does -/

/-- A program ends with this outcome. -/
def EndsWith {σ α : Type} (x : Prog σ α) (s : σ) : Except String α → σ → Prop
  | .ok a, t => x s = .ok a t
  | .error what, t => x s = .error (.exception what) t

/-- What a handler does for a request that it answers with this response. -/
inductive Conducts (env : Env) (request : Request) (h : Handling) : Response → Handling → Prop
  | aside (response : Response) (h' : Handling) (haside : Desk.Aside h.app.tasks request response)
      (hrouter : h'.app.router = h.app.router) (htasks : h'.app.tasks = h.app.tasks)
      (hsession : h'.session = h.session) : Conducts env request h response h'
  | routed (statement : Statement) (outcome : Except String Response) (h' : Handling)
      (hrequested : requestedStatement h.session request = some statement)
      (hshort : isLongRunning statement = false)
      (hends : EndsWith (Router.route env.storage statement) h.app.router outcome h'.app.router)
      (htasks : h'.app.tasks = h.app.tasks)
      (hsession : h'.session = h.session.after statement (answerOf outcome)) :
      Conducts env request h (answerOf outcome) h'
  | submitted (statement : Statement) (h' : Handling)
      (hrequested : requestedStatement h.session request = some statement)
      (hlong : isLongRunning statement = true) (hrouter : h'.app.router = h.app.router)
      (htasks : h'.app.tasks = h.app.tasks.submit env.taskId env.poolAccepts statement)
      (hsession : h'.session = h.session) :
      Conducts env request h
        (.pending "Operation is running in background" (.object [("task_id", .string env.taskId)])) h'

section Requests

variable {config : Config} {env : Env} {request : Request} {h h' : Handling}

/-- An exception is answered with its text. -/
def Raises (env : Env) (request : Request) (h : Handling) (failure : Failure) (h' : Handling) : Prop :=
  ∀ what, failure = .exception what → Conducts env request h (.error what) h'

theorem conducts_refused {response : Response} (herror : response.isError = true) :
    Conducts env request h response h :=
  .aside response h (.refused herror) rfl rfl rfl

theorem raises_refused (failure : Failure) (hrouter : h'.app.router = h.app.router)
    (htasks : h'.app.tasks = h.app.tasks) (hsession : h'.session = h.session) :
    Raises env request h failure h' :=
  fun what _ => .aside _ h' (.refused (Response.isError_error what _)) hrouter htasks hsession

theorem callRoute_ends {statement : Statement} :
    (callRoute env statement).Post h
      (fun response h' => EndsWith (Router.route env.storage statement) h.app.router (.ok response)
        h'.app.router ∧ h'.app.tasks = h.app.tasks ∧ h'.session = h.session)
      (fun failure h' => ∀ what, failure = .exception what →
        EndsWith (Router.route env.storage statement) h.app.router (.error what) h'.app.router ∧
          h'.app.tasks = h.app.tasks ∧ h'.session = h.session) := by
  refine Post.bind (Post.modify (Post.on ?_))
  show (Router.route env.storage statement).Post h.app.router _ _
  cases hrun : Router.route env.storage statement h.app.router with
  | ok response router => exact Post.ok hrun ⟨hrun, rfl, rfl⟩
  | error failure router =>
      refine Post.error hrun fun what hwhat => ?_
      rw [hwhat] at hrun
      exact ⟨hrun, rfl, rfl⟩

theorem executeStatement_conducts {user : String} {statement : Statement}
    (hrequested : requestedStatement h.session request = some statement) :
    (executeStatement config env user statement).Post h (Conducts env request h)
      (Raises env request h) := by
  have hrouted : ∀ outcome {h'}, isLongRunning statement = false →
      EndsWith (Router.route env.storage statement) h.app.router outcome h'.app.router ∧
        h'.app.tasks = h.app.tasks ∧ h'.session = h.session →
      (∀ response, h.session.after statement response = h.session) →
      Conducts env request h (answerOf outcome) h' := by
    rintro outcome h' hshort ⟨hends, htasks, hsession⟩ hsame
    exact .routed statement outcome h' hrequested hshort hends htasks (by rw [hsession, hsame])
  have hchecked : (∀ response, h.session.after statement response = h.session) → Post (do
      if config.authRequired && !checkAccess (← get).app.rbac user statement then
        return .error "Permission denied"
      else if isLongRunning statement then
        let taskId ← callSubmit env statement
        return .pending "Operation is running in background" (.object [("task_id", .string taskId)])
      else callRoute env statement) h (Conducts env request h) (Raises env request h) := by
    intro hsame
    refine Post.get_bind (Post.ite (fun _ => Post.pure (conducts_refused rfl)) (fun _ => ?_))
    refine Post.ite (fun hlong => ?_) (fun hshort => ?_)
    · exact .submitted statement _ hrequested hlong rfl rfl rfl
    · rw [Bool.not_eq_true] at hshort
      exact callRoute_ends.mono (fun response h' hends => hrouted (.ok response) hshort hends hsame)
        (fun failure h' hends what hwhat => hrouted (.error what) hshort (hends what hwhat) hsame)
  cases statement with
  | useDatabase name =>
      have hafter : ∀ response : Response, h.session.after (.useDatabase name) response =
          if response.isSuccess then { h.session with database := some name } else h.session :=
        fun _ => rfl
      refine Post.bind (callRoute_ends.mono ?_ ?_)
      · rintro response h' ⟨hends, htasks, hsession⟩
        refine Post.ite (fun hsuccess => ?_) (fun hfailed => Post.pure ?_)
        · refine .routed _ (.ok response) _ hrequested rfl hends htasks ?_
          rw [answerOf, hafter, if_pos hsuccess]
        · refine .routed _ (.ok response) _ hrequested rfl hends htasks ?_
          rw [answerOf, hafter, if_neg hfailed, hsession]
      · intro failure h' hends what hwhat
        obtain ⟨hends, htasks, hsession⟩ := hends what hwhat
        refine .routed _ (.error what) h' hrequested rfl hends htasks ?_
        rw [hsession, answerOf, hafter, if_neg (by simp)]
  | _ => exact hchecked (fun _ => rfl)

theorem handleStatement_conducts {user query : String} {statement : Statement}
    (hquery : request.query = .ok query) (hparse : parse (Lexer.tokenize query) = .ok statement) :
    (handleStatement config env user statement).Post h (Conducts env request h)
      (Raises env request h) := by
  -- accounts and rules are no concern of the databases
  have hsecurity : ∀ {x : Prog Handling Response}, statement.IsSecurity →
      x.Post h
        (fun _ h' => h'.app.router = h.app.router ∧ h'.app.tasks = h.app.tasks ∧ h'.session = h.session)
        (fun _ h' => h'.app.router = h.app.router ∧ h'.app.tasks = h.app.tasks ∧ h'.session = h.session) →
      x.Post h (Conducts env request h) (Raises env request h) := by
    intro x hasks hpost
    refine hpost.mono ?_ ?_
    · rintro response h' ⟨hrouter, htasks, hsession⟩
      exact .aside response h' (.security ⟨query, statement, hquery, hparse, hasks⟩) hrouter htasks hsession
    · rintro failure h' ⟨hrouter, htasks, hsession⟩
      exact raises_refused failure hrouter htasks hsession
  have hpermissions : ∀ {grant : Bool} {permissions : List String} {scope : TableRef} {username : String},
      statement.IsSecurity →
      (handlePermissions config env user grant permissions scope username).Post h
        (Conducts env request h) (Raises env request h) := by
    intro grant permissions scope username hasks
    refine hsecurity hasks (handlePermissions_frame.mono ?_ ?_)
    · rintro _ _ ⟨rbac, rfl⟩
      exact ⟨rfl, rfl, rfl⟩
    · rintro _ _ ⟨rbac, rfl⟩
      exact ⟨rfl, rfl, rfl⟩
  refine Post.bind (Post.ofExcept (fun _ _ => ?_) (fun _ _ => raises_refused _ rfl rfl rfl))
  cases statement with
  | createUser username password =>
      have hcreated : (handleCreateUser config env user username password).Post h
          (Conducts env request h) (Raises env request h) := by
        refine hsecurity trivial (handleCreateUser_frame.mono ?_ ?_)
        · rintro _ _ ⟨accounts, rfl⟩
          exact ⟨rfl, rfl, rfl⟩
        · rintro _ _ ⟨accounts, rfl⟩
          exact ⟨rfl, rfl, rfl⟩
      exact Post.bind (Post.bind (hcreated.mono (fun _ _ hQ => Post.pure (Post.pure hQ)) (fun _ _ hE => hE)))
  | grant permissions scope username =>
      exact Post.bind (Post.bind ((hpermissions trivial).mono
        (fun _ _ hQ => Post.pure (Post.pure hQ)) (fun _ _ hE => hE)))
  | revoke permissions scope username =>
      exact Post.bind (Post.bind ((hpermissions trivial).mono
        (fun _ _ hQ => Post.pure (Post.pure hQ)) (fun _ _ hE => hE)))
  | _ =>
      refine Post.bind (Post.pure (Post.get_bind ?_))
      split
      · exact Post.pure (conducts_refused rfl)
      · next applied happlied =>
          refine executeStatement_conducts ?_
          rw [requestedStatement, hquery]
          dsimp only
          rw [hparse]
          exact happlied

theorem handleExecute_conducts :
    (handleExecute config env request).Post h (Conducts env request h) (Raises env request h) := by
  refine Post.bind (Post.ofExcept (fun query hquery => ?_) (fun _ _ => raises_refused _ rfl rfl rfl))
  refine Post.ite (fun _ => Post.pure (conducts_refused rfl)) (fun _ => Post.get_bind ?_)
  refine Post.ite (fun _ => Post.pure (conducts_refused rfl)) (fun _ => ?_)
  refine Post.ite (fun _ => Post.pure (conducts_refused rfl)) (fun _ => ?_)
  refine Post.ite (fun _ => Post.pure (conducts_refused rfl)) (fun _ => ?_)
  split
  · exact Post.throw (raises_refused _ rfl rfl rfl)
  · next statement hparse => exact handleStatement_conducts hquery hparse

theorem handleCheckTask_conducts (haction : request.action = "check_task") :
    (handleCheckTask config env request).Post h (Conducts env request h) (Raises env request h) := by
  refine Post.get_bind (Post.ite (fun _ => Post.pure (conducts_refused rfl)) (fun _ => ?_))
  refine Post.ite (fun _ => Post.pure (conducts_refused rfl)) (fun _ => ?_)
  cases hid : request.taskId with
  | none => exact Post.pure (conducts_refused rfl)
  | some id =>
      dsimp only
      split
      · exact Post.pure (conducts_refused rfl)
      · next task htask =>
          exact Post.pure (.aside _ h (.result id task haction hid htask rfl) rfl rfl rfl)

theorem dispatch_conducts :
    (dispatch config env request).Post h (Conducts env request h) (Raises env request h) := by
  have hmanages : ∀ {response}, request.action ∈ ["handshake", "login", "telemetry"] →
      Conducts env request h response h :=
    fun haction => .aside _ h (.management haction) rfl rfl rfl
  refine Post.get_bind (Post.ite (fun _ => Post.pure (conducts_refused rfl)) (fun _ => ?_))
  refine Post.ite (fun _ => Post.pure (conducts_refused rfl)) (fun _ => ?_)
  refine Post.ite (fun haction => Post.get_bind (Post.pure (hmanages (by simp [haction])))) (fun _ => ?_)
  refine Post.ite (fun haction => handleLogin_frame.mono ?_ ?_) (fun _ => ?_)
  · rintro response _ ⟨accounts, rbac, rfl⟩
    exact .aside response _ (.management (by simp [haction])) rfl rfl rfl
  · rintro failure _ ⟨accounts, rbac, rfl⟩
    exact raises_refused failure rfl rfl rfl
  refine Post.ite (fun _ => handleExecute_conducts) (fun _ => ?_)
  refine Post.ite handleCheckTask_conducts (fun _ => ?_)
  refine Post.ite (fun haction => Post.get_bind ?_) (fun _ => Post.pure (conducts_refused rfl))
  refine Post.ite (fun _ => Post.pure (conducts_refused rfl)) (fun _ => ?_)
  refine Post.ite (fun _ => Post.pure (conducts_refused rfl)) (fun _ => ?_)
  exact Post.pure (hmanages (by simp [haction]))

/-- A request that is answered is conducted in one of these ways. -/
theorem process_conducts {response : Response}
    (hrun : process config env request h = .ok response h') : Conducts env request h response h' := by
  refine Post.of_ok (E := fun _ _ => True)
    (Post.bind (Post.catchException (dispatch_conducts.mono ?_ ?_))) hrun
  · intro response h' hconducts
    exact Post.bind (Post.ofExcept (fun _ _ => Post.pure hconducts) (fun _ _ => trivial))
  · intro failure h' hraises
    cases failure with
    | exception what =>
        exact Post.pure (Post.bind
          (Post.ofExcept (fun _ _ => Post.pure (hraises what rfl)) (fun _ _ => trivial)))
    | _ => trivial

end Requests

/-! ## What a request asks for -/

/-- The database of a session is an identifier. -/
def Session.Named (session : Session) : Prop := ∀ name ∈ session.database, IsIdentifier name

theorem Statement.Parsed.table {statement : Statement} {t : TableRef} (h : statement.Parsed)
    (htarget : statement.tableFromStatement = some t) : t.Printable := by
  cases statement with
  | createTable _ _ => exact Option.some.inj htarget ▸ h.1
  | dropTable _ => exact Option.some.inj htarget ▸ h
  | insert _ _ _ => exact Option.some.inj htarget ▸ h.1
  | update _ _ _ => exact Option.some.inj htarget ▸ h.1
  | delete _ _ => exact Option.some.inj htarget ▸ h.1
  | select _ _ _ _ => exact Option.some.inj htarget ▸ h.2.1
  | revert _ _ => exact Option.some.inj htarget ▸ h.1
  | _ => cases htarget

theorem Statement.Parsed.withTable {statement : Statement} {t : TableRef} (h : statement.Parsed)
    (ht : t.Printable) : (statement.withTable t).Parsed := by
  cases statement with
  | createTable _ _ => exact ⟨ht, h.2⟩
  | dropTable _ => exact ht
  | insert _ _ _ => exact ⟨ht, h.2⟩
  | update _ _ _ => exact ⟨ht, h.2⟩
  | delete _ _ => exact ⟨ht, h.2⟩
  | select _ _ _ _ => exact ⟨h.1, ht, h.2.2⟩
  | revert _ _ => exact ⟨ht, h.2⟩
  | _ => exact h

theorem tableFromStatement_withTable {statement : Statement} {t : TableRef} (u : TableRef)
    (htarget : statement.tableFromStatement = some t) :
    (statement.withTable u).tableFromStatement = some u := by
  cases statement <;> first | rfl | cases htarget

/-- A statement that is parsed can be sent to the node of its table, once its database is applied. -/
theorem applyDatabase_parsed {session : Session} {statement applied : Statement}
    (hparsed : statement.Parsed) (hsession : session.Named)
    (happlied : applyDatabase session statement = some applied) :
    applied.Parsed ∧ ∀ t ∈ applied.tableFromStatement, t.Identified := by
  have htable : ∀ {t u : TableRef}, t.Printable → applyDatabaseToTable session t = some u →
      u.Identified := by
    rintro t u ⟨hdatabase, htable⟩ hu
    unfold applyDatabaseToTable at hu
    split at hu
    · next hgiven =>
        obtain rfl := Option.some.inj hu
        exact ⟨hdatabase.resolve_left hgiven, htable⟩
    · obtain ⟨database, hselected, rfl⟩ := Option.map_eq_some_iff.1 hu
      exact ⟨hsession database hselected, htable⟩
  unfold applyDatabase at happlied
  split at happlied
  · next hnone =>
      obtain rfl := Option.some.inj happlied
      refine ⟨hparsed, fun t ht => ?_⟩
      rw [hnone] at ht
      cases ht
  · next t htarget =>
      obtain ⟨u, hu, rfl⟩ := Option.map_eq_some_iff.1 happlied
      have hidentified := htable (hparsed.table htarget) hu
      refine ⟨hparsed.withTable ⟨.inr hidentified.1, hidentified.2⟩, fun t' ht' => ?_⟩
      rw [tableFromStatement_withTable u htarget] at ht'
      exact Option.some.inj ht' ▸ hidentified

theorem requestedStatement_parsed {session : Session} {request : Request} {statement : Statement}
    (hsession : session.Named) (hrequested : requestedStatement session request = some statement) :
    statement.Parsed ∧ ∀ t ∈ statement.tableFromStatement, t.Identified := by
  unfold requestedStatement at hrequested
  split at hrequested
  · cases hrequested
  · split at hrequested
    · cases hrequested
    · next hparse => exact applyDatabase_parsed (parsed_of_parse_tokenize hparse) hsession hrequested

theorem Session.Named.after {session : Session} {statement : Statement} (h : session.Named)
    (hparsed : statement.Parsed) (response : Response) : (session.after statement response).Named := by
  cases statement with
  | useDatabase name =>
      have hselected : Session.Named { session with database := some name } := by
        rintro _ ⟨⟩
        exact hparsed
      by_cases hsuccess : response.isSuccess = true
      · rw [show session.after (.useDatabase name) response = { session with database := some name } from
          if_pos hsuccess]
        exact hselected
      · rw [show session.after (.useDatabase name) response = session from if_neg hsuccess]
        exact h
  | _ => exact h

theorem Session.Named.update {sessions : Nat → Session} (h : ∀ connection, (sessions connection).Named)
    {session : Session} (hsession : session.Named) (connection other : Nat) :
    (Function.update sessions connection session other).Named := by
  by_cases hother : other = connection
  · subst hother
    rw [Function.update_self]
    exact hsession
  · rw [Function.update_of_ne hother]
    exact h other

/-! ## One event -/

namespace Deployment

variable {τ : Type} {ops : TableOps τ} {config : Config} {auto : Bool} {deployment : Deployment τ}
  {desk : Desk τ}

/-- A job takes long, and its statement can be sent. -/
def Job.Sendable (job : Job) : Prop :=
  isLongRunning job.statement = true ∧
    ∀ links, (Cluster.Event.route links job.statement).Sendable

/-- The deployment shows what is at the desk. -/
structure Shows (auto : Bool) (deployment : Deployment τ) (desk : Desk τ) : Prop where
  cluster : deployment.cluster.Shows auto desk.store
  sessions : deployment.system.sessions = desk.sessions
  tasks : deployment.system.app.tasks = desk.tasks
  named : ∀ connection, (desk.sessions connection).Named
  jobs : ∀ job ∈ desk.tasks.jobs, Job.Sendable job

/-- A request keeps to what the server can carry out: its query is a text, the integers of its statement fit,
    a grant that cannot be saved does not end the server, and the nodes are gentle, to a request and to a
    job. -/
def Fits (deployment : Deployment τ) : Event → Prop
  | .request connection env links request =>
      GrantsOnlyThrow env ∧ (∃ query, request.query = .ok query) ∧
        ∀ statement,
          requestedStatement (deployment.system.sessions connection) request = some statement →
            (∀ l ∈ statement.literals, l.FitsInt32) ∧ deployment.cluster.Gentle (.route links statement)
  | .finishTask index links =>
      ∀ job, deployment.system.app.tasks.running[index]? = some job →
        deployment.cluster.Gentle (.route links job.statement)
  | _ => True

/-- Every event of the run fits where it happens. -/
def FitsRun (ops : TableOps τ) (config : Config) (deployment : Deployment τ) : List Event → Prop
  | [] => True
  | event :: events => deployment.Fits event ∧ FitsRun ops config (deployment.step ops config event) events

/-- A statement that is routed comes to an end. -/
theorem Shows.ends (h : deployment.Shows auto desk) (ops : TableOps τ) {links : ClusterEnv}
    {statement : Statement}
    (hsendable : (Cluster.Event.route links statement).Sendable)
    (hgentle : deployment.cluster.Gentle (.route links statement)) :
    ∃ outcome router, EndsWith (Router.route (deployment.cluster.storageEnv ops links statement) statement)
      deployment.system.app.router outcome router := by
  have hanswers : Cluster.Answers auto ops links statement deployment.cluster desk.store _ :=
    h.cluster.route hsendable hgentle
  cases hrun : Router.route (deployment.cluster.storageEnv ops links statement) statement
      deployment.system.app.router with
  | ok response router => exact ⟨.ok response, router, hrun⟩
  | error failure router =>
      obtain ⟨what, rfl, -⟩ := hanswers.of_error hrun
      exact ⟨.error what, router, hrun⟩

/-- A statement that is routed is answered as the store may answer it, and leaves what the store leaves. -/
theorem Shows.routed (h : deployment.Shows auto desk) {links : ClusterEnv} {statement : Statement}
    {outcome : Except String Response} {router : Router}
    (hsendable : (Cluster.Event.route links statement).Sendable)
    (hgentle : deployment.cluster.Gentle (.route links statement))
    (hends : EndsWith (Router.route (deployment.cluster.storageEnv ops links statement) statement)
      deployment.system.app.router outcome router) :
    ∃ store, desk.store.Outcome auto ops links statement (answerOf outcome) store ∧
      (deployment.cluster.left ops links statement router).Shows auto store := by
  have hanswers : Cluster.Answers auto ops links statement deployment.cluster desk.store _ :=
    h.cluster.route hsendable hgentle
  cases outcome with
  | ok response => exact hanswers.of_ok hends
  | error what =>
      obtain ⟨what', hwhat, hanswered⟩ := hanswers.of_error hends
      obtain rfl := Failure.exception.inj hwhat
      exact hanswered

/-- What the handling of a request depends on, with the nodes as they are. -/
def surroundings (ops : TableOps τ) (deployment : Deployment τ) (connection : Nat) (env : Env)
    (links : ClusterEnv) (request : Request) : Env :=
  { env with
    storage := deployment.cluster.storageEnv ops links
      (deployment.routed (.request connection env links request)) }

/-- The deployment after a request that a handler leaves so. -/
def afterRequest (ops : TableOps τ) (deployment : Deployment τ) (connection : Nat) (env : Env)
    (links : ClusterEnv) (request : Request) (h : Handling) : Deployment τ where
  system := { app := h.app, sessions := Function.update deployment.system.sessions connection h.session }
  shards := deployment.shardsAfter ops h.app.router (.request connection env links request)

theorem routed_request {connection : Nat} {env : Env} {links : ClusterEnv} {request : Request}
    {statement : Statement}
    (hrequested : requestedStatement (deployment.system.sessions connection) request = some statement) :
    deployment.routed (.request connection env links request) = statement := by
  rw [routed, hrequested]
  rfl

theorem routed_finishTask {index : Nat} {links : ClusterEnv} {job : Job}
    (hrunning : deployment.system.app.tasks.running[index]? = some job) :
    deployment.routed (.finishTask index links) = job.statement := by
  rw [routed, hrunning]
  rfl

/-- What a handler does for a request shows at the desk. -/
theorem Shows.conducted (h : deployment.Shows auto desk) {connection : Nat} {env : Env} {links : ClusterEnv}
    {request : Request} {response : Response} {h' : Handling}
    (hstatement : ∀ statement,
      requestedStatement (deployment.system.sessions connection) request = some statement →
        (∀ l ∈ statement.literals, l.FitsInt32) ∧ deployment.cluster.Gentle (.route links statement))
    (hconducts : Conducts (surroundings ops deployment connection env links request) request
      (deployment.system.handling connection) response h') :
    ∃ desk', desk.Answers auto ops connection env links request response desk' ∧
      (deployment.afterRequest ops connection env links request h').Shows auto desk' := by
  have hrequest : ∀ statement,
      requestedStatement (deployment.system.sessions connection) request = some statement →
        (Cluster.Event.route links statement).Sendable ∧ statement.Parsed := by
    intro statement hrequested
    have hnamed : (deployment.system.sessions connection).Named := by
      rw [h.sessions]
      exact h.named connection
    obtain ⟨hparsed, htable⟩ := requestedStatement_parsed hnamed hrequested
    obtain ⟨json, hjson, -⟩ := statement_roundTrips hparsed (hstatement statement hrequested).1
    exact ⟨fun t ht => ⟨htable t ht, json, hjson⟩, hparsed⟩
  -- what an untouched router and an untouched session show
  have hsame : h'.app.router = deployment.system.app.router →
      (deployment.afterRequest ops connection env links request h').cluster.Shows auto desk.store := by
    intro hrouter
    show (Cluster.mk h'.app.router (deployment.cluster.left ops links _ _).shards).Shows auto desk.store
    rw [Cluster.left_same (congrArg Router.sent hrouter) (.inl (by rw [hrouter]; rfl)), hrouter]
    exact h.cluster
  have hkept : h'.session = deployment.system.sessions connection →
      (deployment.afterRequest ops connection env links request h').system.sessions = desk.sessions := by
    intro hsession
    show Function.update deployment.system.sessions connection h'.session = desk.sessions
    rw [hsession, Function.update_eq_self, h.sessions]
  cases hconducts with
  | aside _ _ haside hrouter htasks hsession =>
      refine ⟨desk, .aside response ?_, ?_⟩
      · rw [← h.tasks]
        exact haside
      · exact ⟨hsame hrouter, hkept hsession, htasks.trans h.tasks, h.named, h.jobs⟩
  | routed statement outcome _ hrequested hshort hends htasks hsession =>
      change requestedStatement (deployment.system.sessions connection) request = some statement
        at hrequested
      change h'.session = (deployment.system.sessions connection).after statement (answerOf outcome)
        at hsession
      obtain ⟨hsendable, hparsed⟩ := hrequest statement hrequested
      have hrouted : deployment.routed (.request connection env links request) = statement :=
        routed_request hrequested
      have hstorage : (surroundings ops deployment connection env links request).storage =
          deployment.cluster.storageEnv ops links statement :=
        congrArg (deployment.cluster.storageEnv ops links) hrouted
      have hroutes : EndsWith
          (Router.route (deployment.cluster.storageEnv ops links statement) statement)
          deployment.system.app.router outcome h'.app.router := by
        rw [← hstorage]
        exact hends
      obtain ⟨store, houtcome, hshows⟩ := h.routed hsendable (hstatement statement hrequested).2 hroutes
      rw [h.sessions] at hrequested hsession
      refine ⟨_, .carriedOut statement _ store hrequested hshort houtcome, ?_⟩
      refine ⟨?_, ?_, htasks.trans h.tasks, ?_, h.jobs⟩
      · show (Cluster.mk h'.app.router (deployment.cluster.left ops links _ _).shards).Shows ..
        rw [hrouted]
        exact hshows
      · show Function.update deployment.system.sessions connection h'.session = _
        rw [hsession, h.sessions]
      · exact Session.Named.update h.named ((h.named connection).after hparsed _) connection
  | submitted statement _ hrequested hlong hrouter htasks hsession =>
      change requestedStatement (deployment.system.sessions connection) request = some statement
        at hrequested
      have hsendable := (hrequest statement hrequested).1
      rw [h.sessions] at hrequested
      refine ⟨_, .submitted statement hrequested hlong, ?_⟩
      refine ⟨hsame hrouter, hkept hsession, ?_, h.named, fun job hjob => ?_⟩
      · exact htasks.trans (congrArg (TaskProcessor.submit env.taskId env.poolAccepts statement) h.tasks)
      · rcases TaskProcessor.mem_jobs_submit hjob with hold | rfl
        · exact h.jobs job hold
        · exact ⟨hlong, fun _ => hsendable⟩

theorem serve_request {connection : Nat} {env : Env} {links : ClusterEnv} {request : Request}
    {response : Response} {h' : Handling}
    (hrun : process config (surroundings ops deployment connection env links request) request
      (deployment.system.handling connection) = .ok response h') :
    serve ops config (.request connection env links request) deployment =
        some (some response, deployment.step ops config (.request connection env links request)) ∧
      deployment.step ops config (.request connection env links request) =
        deployment.afterRequest ops connection env links request h' := by
  constructor
  · have hprocess := hrun
    unfold surroundings at hprocess
    unfold serve
    dsimp only [toSystem]
    rw [hprocess]
  · have hafter : (process config (surroundings ops deployment connection env links request) request).after
        (deployment.system.handling connection) = h' := after_ok hrun
    subst hafter
    rfl

/-- A request is answered as at the desk. -/
theorem Shows.request (h : deployment.Shows auto desk) {connection : Nat} {env : Env} {links : ClusterEnv}
    {request : Request} (hfits : deployment.Fits (.request connection env links request)) :
    ∃ response next desk',
      serve ops config (.request connection env links request) deployment = some (some response, next) ∧
        next = deployment.step ops config (.request connection env links request) ∧
        desk.Answers auto ops connection env links request response desk' ∧ next.Shows auto desk' := by
  obtain ⟨hgrant, hquery, hstatement⟩ := hfits
  have hthrows : GrantsOnlyThrow (surroundings ops deployment connection env links request) := hgrant
  obtain ⟨response, h', hrun⟩ :=
    (process_returns_iff hthrows request (deployment.system.handling connection)).2 hquery
  obtain ⟨hserve, hstep⟩ := serve_request hrun
  obtain ⟨desk', hanswers, hshows⟩ := h.conducted hstatement (process_conducts hrun)
  exact ⟨response, _, desk', hserve, rfl, hanswers, hstep ▸ hshows⟩

/-- The outcome of a job goes to its task. -/
theorem finishTask_eq {app : Application} {index : Nat} {job : Job} {env : StorageEnv}
    {outcome : Except String Response} {router : Router}
    (hends : EndsWith (Router.route env job.statement) app.router outcome router) :
    System.finishTask app index job env =
      { app with router, tasks := app.tasks.finish index job outcome } := by
  unfold System.finishTask
  cases outcome with
  | ok response =>
      rw [show Router.route env job.statement app.router = .ok response router from hends]
  | error what =>
      rw [show Router.route env job.statement app.router = .error (.exception what) router from hends]

/-- A job is carried out as at the desk. -/
theorem Shows.finishTask (h : deployment.Shows auto desk) (ops : TableOps τ) (config : Config) {index : Nat}
    {links : ClusterEnv} (hfits : deployment.Fits (.finishTask index links)) :
    ∃ next desk', serve ops config (.finishTask index links) deployment = some (none, next) ∧
      next = deployment.step ops config (.finishTask index links) ∧
      Desk.Effect auto ops (.finishTask index links) desk none desk' ∧ next.Shows auto desk' := by
  cases hrunning : deployment.system.app.tasks.running[index]? with
  | none =>
      have hstep : deployment.step ops config (.finishTask index links) = deployment := by
        have hsystem : deployment.system.step config (deployment.toSystem ops (.finishTask index links)) =
            deployment.system := by
          rw [toSystem, System.step]
          simp only [hrunning]
        unfold step
        dsimp only
        rw [hsystem]
        exact congrArg (Deployment.mk deployment.system) (Cluster.left_same rfl (.inl rfl))
      refine ⟨deployment, desk, ?_, hstep.symm, ⟨rfl, ?_⟩, h⟩
      · unfold serve
        simp only [toSystem, hrunning, hstep]
      · rw [← h.tasks, hrunning]
  | some job =>
      have hmem : job ∈ desk.tasks.jobs := by
        rw [← h.tasks]
        exact List.mem_append_right _ (List.mem_of_getElem? hrunning)
      obtain ⟨hlong, hsendable⟩ := h.jobs job hmem
      have hgentle := hfits job hrunning
      obtain ⟨outcome, router, hends⟩ := h.ends ops (hsendable links) hgentle
      obtain ⟨store, houtcome, hshows⟩ := h.routed (hsendable links) hgentle hends
      have hrouted : deployment.routed (.finishTask index links) = job.statement := routed_finishTask hrunning
      let app : Application :=
        { deployment.system.app with
          router
          tasks := deployment.system.app.tasks.finish index job outcome }
      have hsystem : deployment.system.step config (deployment.toSystem ops (.finishTask index links)) =
          { deployment.system with app } := by
        rw [toSystem, hrouted, System.step]
        simp only [hrunning]
        rw [finishTask_eq hends]
      have hstep : deployment.step ops config (.finishTask index links) =
          { system := { deployment.system with app }
            shards := (deployment.cluster.left ops links job.statement router).shards } := by
        unfold step
        dsimp only
        rw [hsystem, shardsAfter, hrouted]
      refine ⟨_, { desk with store, tasks := desk.tasks.finish index job outcome }, ?_, rfl, ⟨rfl, ?_⟩, ?_⟩
      · unfold serve
        rw [toSystem, hrouted]
        simp only [hrunning]
        cases outcome with
        | ok response => rw [show Router.route _ _ _ = .ok response router from hends]
        | error what => rw [show Router.route _ _ _ = .error (.exception what) router from hends]
      · rw [← h.tasks, hrunning]
        exact ⟨outcome, store, houtcome, rfl⟩
      · rw [hstep]
        refine ⟨hshows, h.sessions, ?_, h.named, fun job' hjob' => ?_⟩
        · exact congrArg (fun tasks => tasks.finish index job outcome) h.tasks
        · exact h.jobs job' (TaskProcessor.mem_jobs_finish hjob')

/-- What the monitor does leaves what it leaves at the desk. -/
theorem Shows.observes (h : deployment.Shows auto desk) (ops : TableOps τ) (event : Cluster.Event)
    (hsendable : event.Sendable) (hgentle : deployment.cluster.Gentle event) :
    ∃ answer cluster store, Cluster.serve ops event deployment.cluster = some (answer, cluster) ∧
      Store.Effect auto ops event desk.store answer store ∧ cluster.Shows auto store := by
  obtain ⟨answer, cluster, store, hserve, heffect, hshows, -⟩ :=
    @Service.Refines.step _ _ _ _ _ _ _ _ (Cluster.serve_refines auto ops) event [] deployment.cluster
      desk.store h.cluster ⟨List.forall_mem_singleton.2 hsendable, hgentle, trivial⟩
  exact ⟨answer, cluster, store, hserve, heffect, hshows⟩

/-! ## Runs -/

/-- A deployment refines a desk. -/
theorem serve_refines (auto : Bool) (ops : TableOps τ) (config : Config) :
    Service.Refines (serve ops config) (Desk.Effect auto ops) (Shows auto)
      (fun events deployment _ => deployment.FitsRun ops config events) where
  step := by
    rintro event later deployment desk h ⟨hfits, hlater⟩
    cases event with
    | connect connection =>
        refine ⟨none, _, _, rfl, ⟨rfl, rfl⟩, ⟨h.cluster, ?_, h.tasks, ?_, h.jobs⟩, hlater⟩
        · exact congrArg (fun sessions => Function.update sessions connection {}) h.sessions
        · refine Session.Named.update h.named ?_ connection
          rintro _ ⟨⟩
    | request connection env links request =>
        obtain ⟨response, next, desk', hserve, rfl, hanswers, hshows⟩ := h.request hfits
        exact ⟨some response, _, desk', hserve, ⟨response, rfl, hanswers⟩, hshows, hlater⟩
    | startTask =>
        refine ⟨none, _, _, rfl, ⟨rfl, rfl⟩, ⟨h.cluster, h.sessions, ?_, h.named, ?_⟩, hlater⟩
        · exact congrArg TaskProcessor.start h.tasks
        · exact fun job hjob => h.jobs job (TaskProcessor.mem_jobs_start hjob)
    | finishTask index links =>
        obtain ⟨next, desk', hserve, rfl, heffect, hshows⟩ := h.finishTask ops config hfits
        exact ⟨none, _, desk', hserve, heffect, hshows, hlater⟩
    | updateNode id state =>
        obtain ⟨_, _, store, ⟨⟩, ⟨-, rfl⟩, hshows⟩ :=
          h.observes ops (.updateNode id state) trivial trivial
        exact ⟨none, _, _, rfl, ⟨rfl, rfl⟩, ⟨hshows, h.sessions, h.tasks, h.named, h.jobs⟩, hlater⟩
    | restartNode id start =>
        obtain ⟨_, _, store, ⟨⟩, ⟨-, hstore⟩, hshows⟩ :=
          h.observes ops (.restartNode id start) trivial trivial
        exact ⟨none, _, { desk with store }, rfl, ⟨rfl, congrArg (fun store => { desk with store }) hstore⟩,
          ⟨hshows, h.sessions, h.tasks, h.named, h.jobs⟩, hlater⟩

theorem new_shows (auto : Bool) (accounts : AccountStore) (rbac : RbacManager) :
    (new auto accounts rbac : Deployment τ).Shows auto Desk.empty where
  cluster := Cluster.new_shows auto
  sessions := rfl
  tasks := rfl
  named _ := by rintro _ ⟨⟩
  jobs _ hjob := by cases hjob

/-- The revert of `ann` is carried out, and she asks for its result. -/
def reverted : List Event :=
  reverting ++ [.finishTask 0 Cluster.answering,
    .request 0 tokenEnv Cluster.answering (taskRequest "ann" "task")]

end Deployment

end QuasarDB.Server
