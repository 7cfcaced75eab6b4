import QuasarDB.Server.Proofs.Mediation
import QuasarDB.Server.System

set_option autoImplicit false

/-! # Where the response of a task comes from

Access is checked when a statement is submitted, and not again when its response is fetched: who knows
the id of a task gets its response. In every run, that is the response to a statement that its
submitter had access to. -/

namespace QuasarDB.Server

open Core Prog

/-! ## The task processor -/

namespace TaskProcessor

variable {processor : TaskProcessor} {id i : String} {task result : TaskResult}

@[simp] theorem update_queue : (processor.update id result).queue = processor.queue := by
  unfold update
  split
  · rfl
  · split <;> rfl

@[simp] theorem update_running : (processor.update id result).running = processor.running := by
  unfold update
  split
  · rfl
  · split <;> rfl

/-- A task is as before, or it has got the result. -/
theorem get_update (h : (processor.update id result).get i = some task) :
    processor.get i = some task ∨ i = id ∧ task = result := by
  unfold update at h
  cases hget : processor.get id with
  | none =>
      rw [hget] at h
      exact .inl h
  | some old =>
      simp only [hget] at h
      split at h
      · exact .inl h
      · by_cases hi : i = id
        · subst hi
          rw [get, AList.lookup_insert] at h
          cases h
          exact .inr ⟨rfl, rfl⟩
        · rw [get, AList.lookup_insert_ne hi] at h
          exact .inl h

/-- A task that has not failed gets the result. -/
theorem get_update_self (h : processor.get id = some task) (hstatus : task.status ≠ .failed) :
    (processor.update id result).get id = some result := by
  unfold update
  rw [h]
  simp only [if_neg hstatus]
  exact AList.lookup_insert _

/-- The jobs that are queued or carried out. -/
def jobs (processor : TaskProcessor) : List Job := processor.queue ++ processor.running

theorem mem_jobs_submit {accepted : Bool} {statement : Statement} {job : Job}
    (h : job ∈ (processor.submit id accepted statement).jobs) :
    job ∈ processor.jobs ∨ job = ⟨id, statement⟩ := by
  unfold submit jobs at h
  cases accepted with
  | true =>
      simp only [if_true, List.mem_append, List.mem_singleton] at h
      simp only [jobs, List.mem_append]
      tauto
  | false =>
      simp only [Bool.false_eq_true, if_false, update_queue, update_running] at h
      exact .inl h

/-- A submitted task has no response yet. -/
theorem response_submit {accepted : Bool} {statement : Statement} {response : Response}
    (h : (processor.submit id accepted statement).get i = some task)
    (hresponse : task.response = some response) : processor.get i = some task := by
  -- the new task stands in the place of the old one
  have hinsert : ∀ {t : TaskResult}, AList.lookup i (processor.tasks.insert id {}) = some t →
      t.response = some response → processor.get i = some t := by
    intro t ht hr
    by_cases hi : i = id
    · rw [hi, AList.lookup_insert] at ht
      cases ht
      cases hr
    · rwa [AList.lookup_insert_ne hi] at ht
  unfold submit at h
  cases accepted with
  | true => exact hinsert h hresponse
  | false =>
      rcases get_update h with hold | ⟨_, rfl⟩
      · exact hinsert hold hresponse
      · cases hresponse

theorem mem_jobs_start {job : Job} (h : job ∈ processor.start.jobs) : job ∈ processor.jobs := by
  unfold start at h
  split at h
  · exact h
  · rename_i first queue hqueue
    split at h
    · simp only [jobs, update_queue, update_running, List.mem_append, List.mem_singleton] at h
      simp only [jobs, hqueue, List.mem_append, List.mem_cons]
      tauto
    · exact h

theorem response_start {response : Response} (h : processor.start.get i = some task)
    (hresponse : task.response = some response) : processor.get i = some task := by
  unfold start at h
  split at h
  · exact h
  · split at h
    · rcases get_update h with hold | ⟨_, rfl⟩
      · exact hold
      · cases hresponse
    · exact h

theorem mem_jobs_finish {index : Nat} {done job : Job} {outcome : Except String Response}
    (h : job ∈ (processor.finish index done outcome).jobs) : job ∈ processor.jobs := by
  unfold finish jobs at h
  simp only [update_queue, update_running, List.mem_append] at h
  rcases h with h | h
  · exact List.mem_append_left _ h
  · exact List.mem_append_right _ (List.mem_of_mem_eraseIdx h)

/-- A response is as before, or the one of the job that ends. -/
theorem response_finish {index : Nat} {done : Job} {outcome : Except String Response}
    {response : Response} (h : (processor.finish index done outcome).get i = some task)
    (hresponse : task.response = some response) :
    processor.get i = some task ∨ i = done.id ∧ outcome = .ok response := by
  rcases get_update h with hold | ⟨hi, rfl⟩
  · exact .inl hold
  · cases outcome with
    | ok r =>
        cases hresponse
        exact .inr ⟨hi, rfl⟩
    | error what => cases hresponse

/-- A job that returns leaves its response. -/
theorem get_finish {index : Nat} {done : Job} {response : Response}
    (h : processor.get done.id = some task) (hstatus : task.status ≠ .failed) :
    (processor.finish index done (.ok response)).get done.id =
      some { status := .completed, response := some response } :=
  get_update_self h hstatus

end TaskProcessor

/-! ## Submissions -/

section Requests

variable {config : Config} {env : Env} {request : Request} {h : Handling}

/-- The request of a user asks for the statement, and the user has access to it. -/
def Submits (env : Env) (request : Request) (h : Handling) (user : String)
    (statement : Statement) : Prop :=
  authenticate env h.app request = some user ∧ checkAccess h.app.rbac user statement = true ∧
    ∃ query parsed, request.query = .ok query ∧ parse (Lexer.tokenize query) = .ok parsed ∧
      applyDatabase h.session parsed = some statement

/-- The tasks are as before, or a task has come for a statement the user has access to. -/
def TaskChange (env : Env) (request : Request) (h h' : Handling) : Prop :=
  h'.app.tasks = h.app.tasks ∨ ∃ user statement, Submits env request h user statement ∧
    h'.app.tasks = h.app.tasks.submit env.taskId env.poolAccepts statement

theorem handleExecute_tasks (hauth : config.authRequired = true) :
    (handleExecute config env request).Post h (fun _ => TaskChange env request h)
      (fun _ => TaskChange env request h) := by
  refine handleExecute_post (fun _ => .inl rfl) (fun _ => .inl rfl)
    (fun query parsed hquery hparse hadmitted => ?_)
  obtain ⟨user, huser⟩ := Option.isSome_iff_exists.1 (hadmitted hauth).2
  rw [huser, Option.getD_some]
  refine handleStatement_post (fun _ => .inl rfl) (fun _ => .inl rfl) ?_ ?_ ?_
  · rintro username password -
    refine handleCreateUser_frame.mono ?_ ?_
    · rintro _ _ ⟨accounts, rfl⟩
      exact .inl rfl
    · rintro _ _ ⟨accounts, rfl⟩
      exact .inl rfl
  · rintro grant permissions scope username -
    refine handlePermissions_frame.mono ?_ ?_
    · rintro _ _ ⟨rbac, rfl⟩
      exact .inl rfl
    · rintro _ _ ⟨rbac, rfl⟩
      exact .inl rfl
  · intro statement _ happlied
    have hroute : (callRoute env statement).Post h (fun _ h' => h'.app.tasks = h.app.tasks)
        (fun _ h' => h'.app.tasks = h.app.tasks) := by
      refine callRoute_frame.mono ?_ ?_
      · rintro _ _ ⟨router, rfl⟩
        rfl
      · rintro _ _ ⟨router, rfl⟩
        rfl
    refine executeStatement_post (fun _ => .inl rfl) (fun name _ => ?_) (fun _ _ _ => ?_)
      (fun _ haccess _ => ?_)
    · refine hroute.mono (fun response h' htasks => .inl ?_) (fun _ _ htasks => .inl htasks)
      split <;> exact htasks
    · exact hroute.mono (fun _ _ htasks => .inl htasks) (fun _ _ htasks => .inl htasks)
    · exact .inr ⟨user, statement, ⟨huser, haccess hauth, query, parsed, hquery, hparse, happlied⟩,
        rfl⟩

theorem process_tasks (hauth : config.authRequired = true) :
    (process config env request).Post h (fun _ => TaskChange env request h)
      (fun _ => TaskChange env request h) := by
  refine process_post (fun _ _ => .inl rfl) (fun _ => handleLogin_frame.mono ?_ ?_)
    (fun _ => handleExecute_tasks hauth) (fun _ _ hchange => hchange) (fun _ _ _ hchange => hchange)
  · rintro _ _ ⟨accounts, rbac, rfl⟩
    exact .inl rfl
  · rintro _ _ ⟨accounts, rbac, rfl⟩
    exact .inl rfl

end Requests

/-! ## Runs -/

/-- The history of a run: its events, each with the server it happened to. -/
abbrev History : Type := List (System × Event)

/-- A request of the history has submitted the statement under the id. -/
def Submitted (history : History) (id : String) (statement : Statement) : Prop :=
  ∃ system connection env request user,
    (system, .request connection env request) ∈ history ∧
      Submits env request (system.handling connection) user statement ∧ env.taskId = id

/-- A worker has carried the statement out, under the id and with the response. -/
def Ran (history : History) (id : String) (statement : Statement) (response : Response) : Prop :=
  ∃ system index env router, (system, .finishTask index env) ∈ history ∧
    system.app.tasks.running[index]? = some ⟨id, statement⟩ ∧
    Router.route env statement system.app.router = .ok response router

/-- What the task processor holds comes from the history. -/
structure Traced (history : History) (system : System) : Prop where
  jobs : ∀ job ∈ system.app.tasks.jobs, Submitted history job.id job.statement
  responses : ∀ id task response, system.app.tasks.get id = some task →
    task.response = some response →
      ∃ statement, Submitted history id statement ∧ Ran history id statement response

section Runs

variable {config : Config} {history : History} {system : System} {e : Event}

theorem Submitted.mono {id : String} {statement : Statement} (h : Submitted history id statement)
    (more : History) : Submitted (history ++ more) id statement := by
  obtain ⟨system, connection, env, request, user, hmem, hsubmits⟩ := h
  exact ⟨system, connection, env, request, user, List.mem_append_left _ hmem, hsubmits⟩

theorem Ran.mono {id : String} {statement : Statement} {response : Response}
    (h : Ran history id statement response) (more : History) :
    Ran (history ++ more) id statement response := by
  obtain ⟨system, index, env, router, hmem, hran⟩ := h
  exact ⟨system, index, env, router, List.mem_append_left _ hmem, hran⟩

/-- An event that brings no job and no response. -/
theorem Traced.keep (h : Traced history system) {system' : System} (more : History)
    (hjobs : ∀ job ∈ system'.app.tasks.jobs, job ∈ system.app.tasks.jobs)
    (hresponses : ∀ id task response, system'.app.tasks.get id = some task →
      task.response = some response → system.app.tasks.get id = some task) :
    Traced (history ++ more) system' where
  jobs job hjob := (h.jobs job (hjobs job hjob)).mono more
  responses id task response hget hresponse := by
    obtain ⟨statement, hsubmitted, hran⟩ :=
      h.responses id task response (hresponses id task response hget hresponse) hresponse
    exact ⟨statement, hsubmitted.mono more, hran.mono more⟩

theorem Traced.request (h : Traced history system) (hauth : config.authRequired = true)
    (connection : Nat) (env : Env) (request : Request) :
    Traced (history ++ [(system, .request connection env request)])
      (system.step config (.request connection env request)) := by
  have hchange : TaskChange env request (system.handling connection)
      ((process config env request).after (system.handling connection)) :=
    Post.of_after (process_tasks hauth)
  rcases hchange with htasks | ⟨user, statement, hsubmits, htasks⟩
  · have htasks' : (system.step config (.request connection env request)).app.tasks =
        system.app.tasks := htasks
    refine h.keep _ (fun job hjob => ?_) (fun id task response hget _ => ?_)
    · rwa [htasks'] at hjob
    · rwa [htasks'] at hget
  · -- the new job is the one of this request
    have hnew : Submitted (history ++ [(system, .request connection env request)]) env.taskId
        statement :=
      ⟨system, connection, env, request, user, by simp, hsubmits, rfl⟩
    have htasks' : (system.step config (.request connection env request)).app.tasks =
        system.app.tasks.submit env.taskId env.poolAccepts statement := htasks
    constructor
    · intro job hjob
      rw [htasks'] at hjob
      rcases TaskProcessor.mem_jobs_submit hjob with hold | rfl
      · exact (h.jobs job hold).mono _
      · exact hnew
    · intro id task response hget hresponse
      rw [htasks'] at hget
      obtain ⟨s, hsubmitted, hran⟩ := h.responses id task response
        (TaskProcessor.response_submit hget hresponse) hresponse
      exact ⟨s, hsubmitted.mono _, hran.mono _⟩

theorem Traced.finishTask (h : Traced history system) (index : Nat) (env : StorageEnv) :
    Traced (history ++ [(system, .finishTask index env)])
      (system.step config (.finishTask index env)) := by
  cases hjob : system.app.tasks.running[index]? with
  | none =>
      have hstep : system.step config (.finishTask index env) = system := by
        simp only [System.step, hjob]
      rw [hstep]
      exact h.keep _ (fun _ hmem => hmem) (fun _ _ _ hget _ => hget)
  | some job =>
      have hsubmitted : Submitted history job.id job.statement :=
        h.jobs job (List.mem_append_right _ (List.mem_of_getElem? hjob))
      have hstep : (system.step config (.finishTask index env)).app =
          System.finishTask system.app index job env := by
        simp only [System.step, hjob]
      -- the end of the job, with the response that the history then has
      have hfinish : ∀ outcome : Except String Response,
          (∀ response, outcome = .ok response → ∃ router,
            Router.route env job.statement system.app.router = .ok response router) →
          ∀ system' : System, system'.app.tasks = system.app.tasks.finish index job outcome →
            Traced (history ++ [(system, .finishTask index env)]) system' := by
        intro outcome hroute system' htasks
        constructor
        · intro other hother
          rw [htasks] at hother
          exact (h.jobs other (TaskProcessor.mem_jobs_finish hother)).mono _
        · intro id task response hget hresponse
          rw [htasks] at hget
          rcases TaskProcessor.response_finish hget hresponse with hold | ⟨rfl, houtcome⟩
          · obtain ⟨s, hs, hran⟩ := h.responses id task response hold hresponse
            exact ⟨s, hs.mono _, hran.mono _⟩
          · obtain ⟨router, hrun⟩ := hroute response houtcome
            exact ⟨job.statement, hsubmitted.mono _, system, index, env, router, by simp, hjob, hrun⟩
      cases hrun : Router.route env job.statement system.app.router with
      | ok response router =>
          refine hfinish (.ok response) (fun r hr => ?_) _ ?_
          · cases hr
            exact ⟨router, hrun⟩
          · simp only [hstep, System.finishTask, hrun]
      | error failure router =>
          cases failure with
          | exception what =>
              refine hfinish (.error what) (fun r hr => by cases hr) _ ?_
              simp only [hstep, System.finishTask, hrun]
          | _ =>
              refine h.keep _ (fun other hother => ?_) (fun id task response hget _ => ?_)
              · simpa only [hstep, System.finishTask, hrun] using hother
              · simpa only [hstep, System.finishTask, hrun] using hget

theorem Traced.step (h : Traced history system) (hauth : config.authRequired = true) (e : Event) :
    Traced (history ++ [(system, e)]) (system.step config e) := by
  cases e with
  | request connection env request => exact h.request hauth connection env request
  | finishTask index env => exact h.finishTask index env
  | startTask =>
      exact h.keep _ (fun _ hmem => TaskProcessor.mem_jobs_start hmem)
        (fun _ _ _ hget hresponse => TaskProcessor.response_start hget hresponse)
  | connect connection => exact h.keep _ (fun _ hmem => hmem) (fun _ _ _ hget _ => hget)
  | updateNode id state => exact h.keep _ (fun _ hmem => hmem) (fun _ _ _ hget _ => hget)
  | restartNode id start => exact h.keep _ (fun _ hmem => hmem) (fun _ _ _ hget _ => hget)

theorem run_traced (hauth : config.authRequired = true) (hnew : system.app.tasks = .new)
    (events : List Event) :
    Traced (system.history config events) (system.run config events) := by
  refine System.run_induction (P := Traced) ?_ (fun _ _ e h => h.step hauth e) events
  constructor
  · intro job hjob
    rw [hnew] at hjob
    cases hjob
  · intro id task response hget
    rw [hnew] at hget
    cases hget

end Runs

/-! ## `check_task` -/

section CheckTask

variable {config : Config} {env : Env} {request : Request} {h : Handling}

/-- The request of the user is answered with the response of a finished task. -/
def Releases (config : Config) (env : Env) (request : Request) (h : Handling) (user id : String)
    (response : Response) : Prop :=
  authenticate env h.app request = some user ∧ request.taskId = some id ∧
    handleCheckTask config env request h = .ok response h ∧
    ∃ task, h.app.tasks.get id = some task ∧ task.response = some response

/-- Who is not authenticated learns nothing about the tasks. -/
theorem handleCheckTask_refuses (hauth : config.authRequired = true)
    (hnone : authenticate env h.app request = none) :
    handleCheckTask config env request h = .ok setupRequired h ∨
      handleCheckTask config env request h = .ok (.error "Valid token is required") h := by
  unfold handleCheckTask
  rw [run_get_bind, run_ite, run_ite, hauth, hnone]
  cases h.app.accounts.empty with
  | true => exact .inl rfl
  | false => exact .inr rfl

/-- A response is released to users with an account and the id of the task only, and it is that of a
    statement which a user with access to it submitted under this id. -/
theorem released_traced (hauth : config.authRequired = true) {start : System}
    (hnew : start.app.tasks = .new) (events : List Event) (connection : Nat) :
    (authenticate env (start.run config events).app request = none →
      ∃ response, handleCheckTask config env request
          ((start.run config events).handling connection) =
          .ok response ((start.run config events).handling connection) ∧
        (response = setupRequired ∨ response = .error "Valid token is required")) ∧
      ∀ user id response,
        Releases config env request ((start.run config events).handling connection) user id response →
          ∃ statement, Submitted (start.history config events) id statement ∧
            Ran (start.history config events) id statement response := by
  constructor
  · intro hnone
    rcases handleCheckTask_refuses (h := (start.run config events).handling connection) hauth hnone
      with hrun | hrun
    · exact ⟨_, hrun, .inl rfl⟩
    · exact ⟨_, hrun, .inr rfl⟩
  · rintro user id response ⟨_, _, _, task, hget, hresponse⟩
    exact (run_traced hauth hnew events).responses id task response hget hresponse

theorem handleCheckTask_finished {id : String} {task : TaskResult} {response : Response}
    (hempty : h.app.accounts.empty = false) (huser : (authenticate env h.app request).isSome = true)
    (hid : request.taskId = some id) (hget : h.app.tasks.get id = some task)
    (hresponse : task.response = some response) :
    handleCheckTask config env request h = .ok response h := by
  unfold handleCheckTask
  rw [run_get_bind, hempty, Bool.and_false, if_neg Bool.false_ne_true, run_ite, if_neg]
  · simp only [hid, hget, run_pure, taskResponse, hresponse]
  · simp only [Option.isNone_iff_eq_none, Bool.and_eq_true, not_and]
    intro _ hnone
    rw [hnone] at huser
    cases huser

/-- Every user gets the response of a job that has ended. -/
theorem releases_finished {system : System} {index : Nat} {job : Job} {storage : StorageEnv}
    {response : Response} {router : Router} {task : TaskResult} {user : String}
    (hjob : system.app.tasks.running[index]? = some job)
    (hroute : Router.route storage job.statement system.app.router = .ok response router)
    (hget : system.app.tasks.get job.id = some task) (hstatus : task.status ≠ .failed)
    (hempty : system.app.accounts.empty = false)
    (huser : authenticate env system.app request = some user)
    (hid : request.taskId = some job.id) (connection : Nat) :
    Releases config env request
      ((system.step config (.finishTask index storage)).handling connection) user job.id response := by
  have happ : (system.step config (.finishTask index storage)).app =
      { system.app with
        router
        tasks := system.app.tasks.finish index job (.ok response) } := by
    simp only [System.step, hjob, System.finishTask, hroute]
  have hfinished : (system.step config (.finishTask index storage)).app.tasks.get job.id =
      some { status := .completed, response := some response } := by
    rw [happ]
    exact TaskProcessor.get_finish hget hstatus
  have huser' : authenticate env (system.step config (.finishTask index storage)).app request =
      some user := by
    rw [happ]
    exact huser
  refine ⟨huser', hid, ?_, _, hfinished, rfl⟩
  refine handleCheckTask_finished ?_ (Option.isSome_of_mem huser') hid hfinished rfl
  rw [System.handling, happ]
  exact hempty

/-! ### A response in other hands -/

/-- `ann` may read everything, and `bob` nothing. -/
def annAndBob : System :=
  .start (tokenServer ["ann", "bob"] [⟨"ann", "*", "*", {.read, .create}⟩])

/-- The node of a table answers. -/
def answeringEnv : StorageEnv :=
  { startProcess := fun _ => .started, exchange := fun _ => .responds (.success "1 row"),
    saved := fun _ => true }

/-- `ann` counts the rows of her table in the background. A worker has taken the job. -/
def countingRun : List Event :=
  [.request 0 { tokenEnv with storage := answeringEnv } (queryRequest "ann" "CREATE DATABASE d;"),
    .request 0 { tokenEnv with storage := answeringEnv }
      (queryRequest "ann" "CREATE TABLE d.t (a INT);"),
    .request 0 tokenEnv (queryRequest "ann" "SELECT COUNT(a) FROM d.t;"),
    .startTask]

/-- The worker is done. -/
def countedRun : List Event := countingRun ++ [.finishTask 0 answeringEnv]

def countStatement : Statement :=
  .select false [{ expr := .aggregate .count "a" }] ⟨"d", "t"⟩ none

def taskRequest (token id : String) : Request :=
  { action := "check_task", token, data := .object [("task_id", .string id)] }

/-- The job of `ann` ends with a response, which `bob` gets as well. -/
theorem bob_gets_count :
    ∃ response, Releases tokenConfig tokenEnv (taskRequest "bob" "task")
        ((annAndBob.run tokenConfig countedRun).handling 1) "bob" "task" response ∧
      Ran (annAndBob.history tokenConfig countedRun) "task" countStatement response := by
  have hjob : (annAndBob.run tokenConfig countingRun).app.tasks.running[0]? =
      some ⟨"task", countStatement⟩ := by decide +kernel
  have hok : (match Router.route answeringEnv countStatement
      (annAndBob.run tokenConfig countingRun).app.router with
      | .ok _ _ => true
      | .error _ _ => false) = true := by decide +kernel
  have hrunning : ((annAndBob.run tokenConfig countingRun).app.tasks.get "task").map (·.status) =
      some .running := by decide +kernel
  have hempty : (annAndBob.run tokenConfig countingRun).app.accounts.empty = false := by
    decide +kernel
  have hbob : authenticate tokenEnv (annAndBob.run tokenConfig countingRun).app
      (taskRequest "bob" "task") = some "bob" := by decide +kernel
  rw [countedRun, System.run_append, System.history_append]
  -- the server at that moment has been looked at enough
  generalize annAndBob.run tokenConfig countingRun = counting at *
  obtain ⟨task, hget, hstatus⟩ := Option.map_eq_some_iff.1 hrunning
  cases hroute : Router.route answeringEnv countStatement counting.app.router with
  | error failure router =>
      rw [hroute] at hok
      cases hok
  | ok response router =>
      refine ⟨response, ?_, counting, 0, answeringEnv, router, ?_, hjob, hroute⟩
      · exact releases_finished hjob hroute hget (by rw [hstatus]; decide) hempty hbob rfl 1
      · exact List.mem_append_right _ (List.mem_singleton.2 rfl)

theorem released_traced_count :
    ∃ (statement : Statement) (response : Response),
      Submitted (annAndBob.history tokenConfig countedRun) "task" statement ∧
      Ran (annAndBob.history tokenConfig countedRun) "task" statement response := by
  obtain ⟨response, hreleases, _⟩ := bob_gets_count
  have hauth : tokenConfig.authRequired = true := rfl
  have hnew : annAndBob.app.tasks = .new := rfl
  have htraced := (@released_traced tokenConfig tokenEnv (taskRequest "bob" "task") hauth annAndBob
    hnew countedRun 1).2
  obtain ⟨statement, hsubmitted, hran⟩ := htraced "bob" "task" response hreleases
  refine ⟨statement, response, ?_, ?_⟩
  · exact hsubmitted
  · exact hran

/-- The access of the user who asks does not matter. -/
theorem released_without_access :
    ¬ ∀ (config : Config) (start : System) (events : List Event) (connection : Nat) (env : Env)
        (request : Request) (user id : String) (statement : Statement) (response : Response),
      config.authRequired = true → start.app.tasks = .new →
      Releases config env request ((start.run config events).handling connection) user id response →
      Ran (start.history config events) id statement response →
      checkAccess (start.run config events).app.rbac user statement = true := by
  intro h
  obtain ⟨response, hreleases, hran⟩ := bob_gets_count
  have hdenied : checkAccess (annAndBob.run tokenConfig countedRun).app.rbac "bob" countStatement =
      false := by decide +kernel
  have hauth : tokenConfig.authRequired = true := rfl
  have hnew : annAndBob.app.tasks = .new := rfl
  have haccess := h tokenConfig annAndBob countedRun 1 tokenEnv
    (taskRequest "bob" "task") "bob" "task" countStatement response hauth hnew hreleases hran
  rw [hdenied] at haccess
  cases haccess

end CheckTask

end QuasarDB.Server
