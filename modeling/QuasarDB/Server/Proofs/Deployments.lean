import QuasarDB.Library.Runs
import QuasarDB.Server.Deployment
import QuasarDB.Server.Proofs.Orphans
import QuasarDB.Server.Proofs.TaskRuns

set_option autoImplicit false

/-! # What changes the stored data

With authentication, a directory of a node changes only when the statement of a request is carried out whose
user has the permission for it on a table whose requests come to this directory, when a job is carried out that
such a request has submitted before, or when a process is restarted, which opens it. -/

namespace QuasarDB.Server

open Core Prog Storage

/-! ## What a request hands over -/

/-- The request comes from an account that is permitted to have the statement carried out on the table. -/
def Permits (env : Env) (request : Request) (h : Handling) (statement : Statement) (t : TableRef) : Prop :=
  ∃ user database table, authenticate env h.app request = some user ∧
    requestedStatement h.session request = some statement ∧
    statement.target = some (database, table) ∧
    h.app.rbac.checkPermission user database table (permissionFor statement) = true ∧
    InScope database table t

/-- The request has this statement carried out or submitted, with authority or to select a database. -/
structure HandsOver (env : Env) (request : Request) (h : Handling) (statement : Statement) : Prop where
  requested : requestedStatement h.session request = some statement
  allowed : (∃ name, statement = .useDatabase name) ∨
    ∃ user database table, authenticate env h.app request = some user ∧
      statement.target = some (database, table) ∧
      h.app.rbac.checkPermission user database table (permissionFor statement) = true

/-- What a handler does with the router and the tasks: nothing, or it routes or submits one statement. -/
def Dispatches (env : Env) (request : Request) (h h' : Handling) : Prop :=
  h'.app.router = h.app.router ∧ h'.app.tasks = h.app.tasks ∨
    ∃ statement, HandsOver env request h statement ∧
      (h'.app.router = (Router.route env.storage statement).after h.app.router ∧
          h'.app.tasks = h.app.tasks ∨
        h'.app.router = h.app.router ∧ isLongRunning statement = true ∧
          h'.app.tasks = h.app.tasks.submit env.taskId env.poolAccepts statement)

section Requests

variable {config : Config} {env : Env} {request : Request} {h : Handling}

theorem callRoute_router {statement : Statement} :
    (callRoute env statement).Post h
      (fun _ h' => h'.app.router = (Router.route env.storage statement).after h.app.router ∧
        h'.app.tasks = h.app.tasks)
      (fun _ h' => h'.app.router = (Router.route env.storage statement).after h.app.router ∧
        h'.app.tasks = h.app.tasks) := by
  refine Post.bind (Post.modify (Post.on ?_))
  show (Router.route env.storage statement).Post h.app.router _ _
  cases hrun : Router.route env.storage statement h.app.router with
  | ok response router => exact Post.ok hrun ⟨(after_ok hrun).symm, rfl⟩
  | error failure router => exact Post.error hrun ⟨(after_error hrun).symm, rfl⟩

theorem executeStatement_dispatches {user : String} {statement : Statement}
    (hauth : config.authRequired = true) (hno : ¬ statement.IsSecurity)
    (huser : authenticate env h.app request = some user)
    (hrequested : requestedStatement h.session request = some statement) :
    (executeStatement config env user statement).Post h (fun _ => Dispatches env request h)
      (fun _ => Dispatches env request h) := by
  have hchecked : (∀ name, statement ≠ .useDatabase name) →
      (config.authRequired = true → checkAccess h.app.rbac user statement = true) →
      HandsOver env request h statement := by
    intro huse haccess
    obtain ⟨database, table, htarget, hcheck⟩ :=
      checkPermission_of_checkAccess hno huse (haccess hauth)
    exact ⟨hrequested, .inr ⟨user, database, table, huser, htarget, hcheck⟩⟩
  refine executeStatement_post (fun _ => .inl ⟨rfl, rfl⟩) (fun name huse => ?_)
    (fun huse haccess _ => ?_) (fun huse haccess hlong => ?_)
  · have hown : HandsOver env request h statement := ⟨hrequested, .inl ⟨name, huse⟩⟩
    refine callRoute_router.mono (fun response h' hrouted => ?_)
      (fun _ _ hrouted => .inr ⟨statement, hown, .inl hrouted⟩)
    by_cases hsuccess : response.isSuccess = true
    · rw [if_pos hsuccess]
      exact .inr ⟨statement, hown, .inl hrouted⟩
    · rw [if_neg hsuccess]
      exact .inr ⟨statement, hown, .inl hrouted⟩
  · exact callRoute_router.mono (fun _ _ hrouted => .inr ⟨statement, hchecked huse haccess, .inl hrouted⟩)
      (fun _ _ hrouted => .inr ⟨statement, hchecked huse haccess, .inl hrouted⟩)
  · exact .inr ⟨statement, hchecked huse haccess, .inr ⟨rfl, hlong, rfl⟩⟩

theorem handleExecute_dispatches (hauth : config.authRequired = true) :
    (handleExecute config env request).Post h (fun _ => Dispatches env request h)
      (fun _ => Dispatches env request h) := by
  refine handleExecute_post (fun _ => .inl ⟨rfl, rfl⟩) (fun _ => .inl ⟨rfl, rfl⟩)
    (fun query parsed hquery hparse hadmitted => ?_)
  obtain ⟨user, huser⟩ := Option.isSome_iff_exists.1 (hadmitted hauth).2
  rw [huser, Option.getD_some]
  refine handleStatement_post (fun _ => .inl ⟨rfl, rfl⟩) (fun _ => .inl ⟨rfl, rfl⟩) (fun _ _ _ => ?_)
    (fun _ _ _ _ _ => ?_) (fun applied hno happlied => ?_)
  · refine handleCreateUser_frame.mono ?_ ?_
    · rintro _ _ ⟨accounts, rfl⟩
      exact .inl ⟨rfl, rfl⟩
    · rintro _ _ ⟨accounts, rfl⟩
      exact .inl ⟨rfl, rfl⟩
  · refine handlePermissions_frame.mono ?_ ?_
    · rintro _ _ ⟨rbac, rfl⟩
      exact .inl ⟨rfl, rfl⟩
    · rintro _ _ ⟨rbac, rfl⟩
      exact .inl ⟨rfl, rfl⟩
  · have hrequested : requestedStatement h.session request = some applied := by
      rw [requestedStatement, hquery]
      dsimp only
      rw [hparse]
      exact happlied
    exact executeStatement_dispatches hauth (applyDatabase_isSecurity happlied hno) huser hrequested

theorem process_dispatches (hauth : config.authRequired = true) :
    Dispatches env request h ((process config env request).after h) := by
  refine Post.of_after (process_post (fun _ _ => .inl ⟨rfl, rfl⟩) (fun _ => handleLogin_frame.mono ?_ ?_)
    (fun _ => handleExecute_dispatches hauth) (fun _ _ hdone => hdone) (fun _ _ _ hdone => hdone))
  · rintro _ _ ⟨accounts, rbac, rfl⟩
    exact .inl ⟨rfl, rfl⟩
  · rintro _ _ ⟨accounts, rbac, rfl⟩
    exact .inl ⟨rfl, rfl⟩

end Requests

/-! ## What the nodes carry out -/

namespace Cluster

variable {τ : Type} {ops : TableOps τ} {links : ClusterEnv} {cluster : Cluster τ} {statement : Statement}
  {router : Router} {dir : List (List Char)}

/-- The directory is that of the table or, where ports repeat, of the process at the port of its node. -/
def Serves (links : ClusterEnv) (cluster : Cluster τ) (t : TableRef) (dir : List (List Char)) : Prop :=
  dataDirFor (Router.tableKey t) = dir ∨ dataDirFor (cluster.addressee links (Router.tableKey t)) = dir

/-- Only what comes to a directory changes it. -/
theorem carryOut_changes {addressee : String → String} {sent : List (String × Statement)}
    {shards : List (List Char) → Shard τ}
    (h : sent.foldl (carryOut ops links addressee) shards dir ≠ shards dir) :
    ∃ m ∈ sent, dataDirFor (addressee m.1) = dir := by
  induction sent generalizing shards with
  | nil => exact absurd rfl h
  | cons m sent ih =>
      by_cases hdir : dataDirFor (addressee m.1) = dir
      · exact ⟨m, List.mem_cons_self, hdir⟩
      · have hsame : carryOut ops links addressee shards m dir = shards dir := by
          unfold carryOut
          split
          · exact Function.update_of_ne (Ne.symm hdir) _ _
          · rfl
        rw [List.foldl_cons, ← hsame] at h
        obtain ⟨m', hm', hdir'⟩ := ih h
        exact ⟨m', List.mem_cons_of_mem _ hm', hdir'⟩

theorem opening_changes (h : cluster.opening ops links statement dir ≠ cluster.shards dir) :
    ∃ t columns, statement = .createTable t columns ∧ dataDirFor (Router.tableKey t) = dir := by
  cases statement with
  | createTable t columns =>
      refine ⟨t, columns, rfl, ?_⟩
      by_contra hdir
      unfold opening at h
      dsimp only at h
      split at h
      · exact h (Function.update_of_ne (Ne.symm hdir) _ _)
      · exact h rfl
  | _ => exact absurd rfl h

/-- A directory changes by what comes to it, or because a process opens it. -/
theorem left_changes (h : (cluster.left ops links statement router).shards dir ≠ cluster.shards dir) :
    (∃ m ∈ sentBetween cluster.router router, dataDirFor (cluster.addressee links m.1) = dir) ∨
      ∃ t columns, statement = .createTable t columns ∧ dataDirFor (Router.tableKey t) = dir := by
  by_cases hbefore : (if router.registry.nextPort = cluster.router.registry.nextPort then cluster.shards
      else cluster.opening ops links statement) dir = cluster.shards dir
  · rw [← hbefore] at h
    exact .inl (carryOut_changes h)
  · refine .inr ?_
    split at hbefore
    · exact absurd rfl hbefore
    · exact opening_changes hbefore

/-- Where nothing is sent and no process is started, no directory changes. -/
theorem left_same (hsent : router.sent = cluster.router.sent)
    (hopen : cluster.Unopened ops links statement router) :
    (cluster.left ops links statement router).shards = cluster.shards := by
  rw [left_of_sent [] hopen hsent]
  rfl

/-- A statement with a target changes directories that serve the tables in its scope only. -/
theorem route_changes {env : StorageEnv} {database table : String}
    (htarget : statement.target = some (database, table))
    (h : (cluster.left ops links statement ((Router.route env statement).after cluster.router)).shards dir ≠
      cluster.shards dir) : ∃ t, InScope database table t ∧ cluster.Serves links t dir := by
  rcases left_changes h with ⟨m, hm, hdir⟩ | ⟨t, columns, rfl, hdir⟩
  · obtain ⟨new, hsent, hscope⟩ := (Post.of_after (Router.route_confined htarget)).sent
    rw [sentBetween_eq hsent] at hm
    obtain ⟨t, ht, hkey, -⟩ := hscope m (List.mem_reverse.1 hm)
    exact ⟨t, ht, .inr (hkey ▸ hdir)⟩
  · cases htarget
    exact ⟨t, ⟨rfl, .inr rfl⟩, .inl hdir⟩

/-- To select a database, nothing is sent. -/
theorem sent_useDatabase (env : StorageEnv) (name : String) (router : Router) :
    ((Router.route env (.useDatabase name)).after router).sent = router.sent :=
  Post.of_after (P := fun (after : Router) => after.sent = router.sent)
    (Post.get_bind (Post.ite (fun _ => Post.pure rfl) (fun _ => Post.pure rfl)))

/-- A request that hands a statement over is permitted to, for a table that each directory serves that
    changes. -/
theorem permits_of_handsOver {env : Env} {request : Request} {h : Handling}
    (hover : HandsOver env request h statement) {storage : StorageEnv}
    (hchange : (cluster.left ops links statement
      ((Router.route storage statement).after cluster.router)).shards dir ≠ cluster.shards dir) :
    ∃ t, Permits env request h statement t ∧ cluster.Serves links t dir := by
  obtain ⟨hrequested, ⟨name, rfl⟩ | ⟨user, database, table, huser, htarget, hcheck⟩⟩ := hover
  · exact absurd (congrFun (left_same (sent_useDatabase storage name _) (.inr rfl)) dir) hchange
  · obtain ⟨t, ht, hserves⟩ := route_changes htarget hchange
    exact ⟨t, ⟨user, database, table, huser, hrequested, htarget, hcheck, ht⟩, hserves⟩

end Cluster

namespace Deployment

variable {τ : Type} {ops : TableOps τ} {config : Config} {deployment : Deployment τ}
  {dir : List (List Char)}

/-! ## Runs -/

/-- What has happened to a deployment. -/
abbrev History (τ : Type) : Type := List (Deployment τ × Event)

/-- A request of the history has handed the statement over. -/
def Handed (history : History τ) (statement : Statement) : Prop :=
  ∃ earlier connection env links request, (earlier, .request connection env links request) ∈ history ∧
    HandsOver env request (earlier.system.handling connection) statement

/-- Every job was handed over in the history. -/
def JobsHanded (history : History τ) (deployment : Deployment τ) : Prop :=
  ∀ job ∈ deployment.system.app.tasks.jobs, Handed history job.statement

theorem Handed.mono {history : History τ} {statement : Statement} (h : Handed history statement)
    (more : History τ) : Handed (history ++ more) statement := by
  obtain ⟨earlier, connection, env, links, request, hmem, hover⟩ := h
  exact ⟨earlier, connection, env, links, request, List.mem_append_left _ hmem, hover⟩

/-- The router after a job has been carried out. -/
theorem finishTask_router (app : Application) (index : Nat) (job : Job) (env : StorageEnv) :
    (System.finishTask app index job env).router = (Router.route env job.statement).after app.router := by
  unfold System.finishTask
  cases hrun : Router.route env job.statement app.router with
  | ok response router => exact (after_ok hrun).symm
  | error failure router =>
      cases failure with
      | exception what => exact (after_error hrun).symm
      | assertion condition => exact (after_error hrun).symm
      | undefined what => exact (after_error hrun).symm
      | endless => exact (after_error hrun).symm

/-- The end of a job brings no jobs. -/
theorem mem_jobs_finishTask {app : Application} {index : Nat} {done job : Job} {env : StorageEnv}
    (h : job ∈ (System.finishTask app index done env).tasks.jobs) : job ∈ app.tasks.jobs := by
  unfold System.finishTask at h
  split at h
  · exact TaskProcessor.mem_jobs_finish h
  · exact TaskProcessor.mem_jobs_finish h
  · exact h

/-- What a request of a run does with the router and the tasks. -/
theorem request_dispatches (ops : TableOps τ) (deployment : Deployment τ)
    (hauth : config.authRequired = true) (connection : Nat) (env : Env) (links : ClusterEnv)
    (request : Request) :
    let next := deployment.step ops config (.request connection env links request)
    next.system.app.router = deployment.system.app.router ∧
        next.system.app.tasks = deployment.system.app.tasks ∨
      ∃ statement storage, HandsOver env request (deployment.system.handling connection) statement ∧
        (next.system.app.router = (Router.route storage statement).after deployment.system.app.router ∧
            next.system.app.tasks = deployment.system.app.tasks ∨
          next.system.app.router = deployment.system.app.router ∧
            next.system.app.tasks =
              deployment.system.app.tasks.submit env.taskId env.poolAccepts statement) := by
  -- the handler does not see the nodes before it routes
  let storage := deployment.cluster.storageEnv ops links
    (deployment.routed (.request connection env links request))
  have hdispatches : Dispatches { env with storage } request (deployment.system.handling connection) _ :=
    process_dispatches hauth
  rcases hdispatches with hnone | ⟨statement, ⟨hrequested, hallowed⟩, hrouted | ⟨hsame, -, htasks⟩⟩
  · exact .inl hnone
  · exact .inr ⟨statement, storage, ⟨hrequested, hallowed⟩, .inl hrouted⟩
  · exact .inr ⟨statement, storage, ⟨hrequested, hallowed⟩, .inr ⟨hsame, htasks⟩⟩

/-- What one event does to the jobs. -/
theorem JobsHanded.step {history : History τ} (h : JobsHanded history deployment)
    (hauth : config.authRequired = true) (event : Event) :
    JobsHanded (history ++ [(deployment, event)]) (deployment.step ops config event) := by
  have hkeep : ∀ {tasks : TaskProcessor}, (∀ job ∈ tasks.jobs, job ∈ deployment.system.app.tasks.jobs) →
      ∀ job ∈ tasks.jobs, Handed (history ++ [(deployment, event)]) job.statement :=
    fun hsub job hjob => (h job (hsub job hjob)).mono _
  cases event with
  | request connection env links request =>
      intro job hjob
      rcases request_dispatches ops deployment hauth connection env links request with
        ⟨-, htasks⟩ | ⟨statement, storage, hover, ⟨-, htasks⟩ | ⟨-, htasks⟩⟩
      · rw [htasks] at hjob
        exact hkeep (fun _ hmem => hmem) job hjob
      · rw [htasks] at hjob
        exact hkeep (fun _ hmem => hmem) job hjob
      · rw [htasks] at hjob
        rcases TaskProcessor.mem_jobs_submit hjob with hold | rfl
        · exact hkeep (fun _ hmem => hmem) job hold
        · exact ⟨deployment, connection, env, links, request, by simp, hover⟩
  | finishTask index links =>
      have hjobs : ∀ job ∈ (deployment.step ops config (.finishTask index links)).system.app.tasks.jobs,
          job ∈ deployment.system.app.tasks.jobs := by
        intro job hjob
        change job ∈ (System.step config deployment.system _).app.tasks.jobs at hjob
        rw [toSystem, System.step] at hjob
        split at hjob
        · exact hjob
        · exact mem_jobs_finishTask hjob
      exact hkeep hjobs
  | startTask => exact hkeep fun job hjob => TaskProcessor.mem_jobs_start hjob
  | connect connection => exact hkeep fun job hjob => hjob
  | updateNode id state => exact hkeep fun job hjob => hjob
  | restartNode id start => exact hkeep fun job hjob => hjob

/-- The jobs of every state of a run were handed over before. -/
theorem run_jobsHanded (hauth : config.authRequired = true)
    (hnew : deployment.system.app.tasks = .new) (events : List Event) :
    JobsHanded (events.history (step ops config) deployment) (deployment.run ops config events) := by
  refine List.foldl_history (P := JobsHanded) (fun past s event hpast => hpast.step hauth event) ?_ events
  intro job hjob
  rw [hnew] at hjob
  cases hjob

/-- In a run with authentication, a directory changes in three cases: when a request is handled whose user has
    the permission for its statement on a table that the directory serves, when a worker carries a job out whose
    statement such a request has brought before, and when a node is restarted, which opens its directory. -/
theorem run_changesPermitted (hauth : config.authRequired = true)
    (hnew : deployment.system.app.tasks = .new) (events : List Event) (event : Event)
    (dir : List (List Char)) :
    let current := deployment.run ops config events
    (current.step ops config event).shards dir ≠ current.shards dir →
      (∃ connection env links request statement t, event = .request connection env links request ∧
          Permits env request (current.system.handling connection) statement t ∧
          current.cluster.Serves links t dir) ∨
        (∃ index links job t, event = .finishTask index links ∧
          current.system.app.tasks.running[index]? = some job ∧
          (∃ earlier connection env links request,
            (earlier, .request connection env links request) ∈
              events.history (step ops config) deployment ∧
            Permits env request (earlier.system.handling connection) job.statement t) ∧
          current.cluster.Serves links t dir) ∨
        ∃ id, event = .restartNode id .started ∧ dataDirFor id = dir ∧
          (current.step ops config event).shards dir = (current.shards dir).opened ops := by
  intro current hchange
  cases event with
  | request connection env links request =>
      refine .inl ?_
      change (current.cluster.left ops links (current.routed (.request connection env links request))
        (current.step ops config (.request connection env links request)).system.app.router).shards dir ≠
          current.shards dir at hchange
      rcases request_dispatches ops current hauth connection env links request with
        ⟨hrouter, -⟩ | ⟨statement, storage, hover, ⟨hrouter, -⟩ | ⟨hrouter, -⟩⟩
      · rw [hrouter] at hchange
        exact absurd (congrFun (Cluster.left_same rfl (.inl rfl)) dir) hchange
      · have hrequested : requestedStatement (current.system.sessions connection) request = some statement :=
          hover.requested
        have hrouted : current.routed (.request connection env links request) = statement := by
          rw [routed, hrequested]
          rfl
        rw [hrouter, hrouted] at hchange
        obtain ⟨t, hpermits, hserves⟩ := Cluster.permits_of_handsOver hover hchange
        exact ⟨connection, env, links, request, statement, t, rfl, hpermits, hserves⟩
      · rw [hrouter] at hchange
        exact absurd (congrFun (Cluster.left_same rfl (.inl rfl)) dir) hchange
  | finishTask index links =>
      refine .inr (.inl ?_)
      change (current.cluster.left ops links (current.routed (.finishTask index links))
        (current.system.step config (current.toSystem ops (.finishTask index links))).app.router).shards dir ≠
          current.shards dir at hchange
      rw [toSystem, System.step] at hchange
      cases hrunning : current.system.app.tasks.running[index]? with
      | none =>
          simp only [hrunning] at hchange
          exact absurd (congrFun (Cluster.left_same rfl (.inl rfl)) dir) hchange
      | some job =>
          have hrouted : current.routed (.finishTask index links) = job.statement := by
            rw [routed, hrunning]
            rfl
          simp only [hrunning] at hchange
          rw [finishTask_router, hrouted] at hchange
          have hhanded : JobsHanded (events.history (step ops config) deployment) current :=
            run_jobsHanded hauth hnew events
          obtain ⟨earlier, connection, env, links', request, hmem, hover⟩ :=
            hhanded job (List.mem_append_right _ (List.mem_of_getElem? hrunning))
          obtain ⟨t, hpermits, hserves⟩ := Cluster.permits_of_handsOver hover hchange
          exact ⟨index, links, job, t, rfl, hrunning,
            ⟨earlier, connection, env, links', request, hmem, hpermits⟩, hserves⟩
  | restartNode id start =>
      refine .inr (.inr ?_)
      change current.cluster.restarted ops start id dir ≠ current.shards dir at hchange
      show ∃ i, _ ∧ _ ∧ current.cluster.restarted ops start id dir = _
      unfold Cluster.restarted at hchange ⊢
      split at hchange
      · rename_i hstarts
        rw [if_pos hstarts]
        rw [Bool.and_eq_true, decide_eq_true_eq] at hstarts
        obtain ⟨-, rfl⟩ := hstarts
        by_cases hdir : dataDirFor id = dir
        · subst hdir
          exact ⟨id, rfl, rfl, Function.update_self ..⟩
        · exact absurd (Function.update_of_ne (Ne.symm hdir) ..) hchange
      · exact absurd rfl hchange
  | startTask => exact absurd rfl hchange
  | connect connection => exact absurd rfl hchange
  | updateNode id state => exact absurd rfl hchange

/-! ### A job -/

/-- Tables that count the statements on them. -/
def counting : TableOps Nat where
  create _ := 0
  reopen count := count
  execute _ count := (.success "", count + 1)

/-- `ann` may create tables and write to them. -/
def annAlone : Deployment Nat where
  system := .start (tokenServer ["ann"] [⟨"ann", "*", "*", {.write, .create}⟩])
  shards _ := {}

/-- `ann` creates a table and reverts it in the background. A worker has taken the job. -/
def reverting : List Event :=
  [.request 0 tokenEnv Cluster.answering (queryRequest "ann" "CREATE DATABASE d;"),
    .request 0 tokenEnv Cluster.answering (queryRequest "ann" "CREATE TABLE d.t (a INT);"),
    .request 0 tokenEnv Cluster.answering
      (queryRequest "ann" "REVERT d.t 2024.01.01-00:00:00.000;"),
    .startTask]

theorem run_changesPermitted_revert :
    ∃ statement t earlier connection env links request,
      (earlier, .request connection env links request) ∈
        reverting.history (step counting tokenConfig) annAlone ∧
      Permits env request (earlier.system.handling connection) statement t ∧
      (annAlone.run counting tokenConfig reverting).cluster.Serves Cluster.answering t [['d'], ['t']] := by
  have hchange : ((annAlone.run counting tokenConfig reverting).step counting tokenConfig
        (.finishTask 0 Cluster.answering)).shards [['d'], ['t']] ≠
      (annAlone.run counting tokenConfig reverting).shards [['d'], ['t']] := by
    intro hsame
    have hcount := congrArg (fun shard => shard.table.map Prod.snd) hsame
    revert hcount
    decide +kernel
  have hnew : annAlone.system.app.tasks = .new := rfl
  rcases run_changesPermitted rfl hnew reverting (.finishTask 0 Cluster.answering) [['d'], ['t']] hchange with
    ⟨connection, env, links, request, statement, t, hevent, -⟩ |
    ⟨index, links, job, t, hevent, -, ⟨earlier, connection, env, links', request, hmem, hpermits⟩, hserves⟩ |
    ⟨id, hevent, -⟩
  · cases hevent
  · cases hevent
    exact ⟨job.statement, t, earlier, connection, env, links', request, hmem, hpermits, hserves⟩
  · cases hevent

end Deployment

end QuasarDB.Server
