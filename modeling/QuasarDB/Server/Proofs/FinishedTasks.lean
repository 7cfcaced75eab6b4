import QuasarDB.Server.Proofs.TaskSteps

set_option autoImplicit false

/-! # Finished tasks

`Update` leaves a failed task alone, and `Cancel` a completed one. What is left is a `Cancel` of a task
that has failed: it puts its own error in the place of the task's. -/

namespace QuasarDB.Server

open Core

/-- The status of a task that is over. -/
def TaskResult.Finished (task : TaskResult) : Prop :=
  task.status = .completed ∨ task.status = .failed

namespace TaskPool

/-! ## Ids -/

/-- The ids that the run will give are new. `GenerateId` takes them from `RAND_bytes`. -/
structure Fresh (events : List Event) (s : TaskPool) : Prop where
  nodup : (ids events).Nodup
  unknown : ∀ id ∈ ids events, s.get id = none

section Fresh

variable {s s' : TaskPool} {event : Event} {events more : List Event}

theorem ids_append : ids (events ++ more) = ids events ++ ids more := by
  induction events with
  | nil => rfl
  | cons event events ih =>
      cases event with
      | add id statement => exact congrArg (id :: ·) ih
      | _ => exact ih

/-- A step forgets no task, and makes known only the one that it adds. -/
theorem step_isSome (h : s.step event = some s') (id : String)
    (hid : ∀ statement, event ≠ .add id statement) :
    (s'.get id).isSome = (s.get id).isSome := by
  cases step_effect h with
  | moves htasks _ => rw [get, htasks, get]
  | @adds added statement htasks _ =>
      have hne : id ≠ added := fun heq => hid statement (heq ▸ rfl)
      rw [get, htasks, AList.lookup_insert_ne hne, get]
  | starts _ htasks _ =>
      rw [get, htasks]
      exact lookup_update_isSome
  | ends _ htasks _ =>
      rw [get, htasks]
      exact lookup_update_isSome
  | @cancels cancelled htasks _ =>
      rw [get, htasks]
      by_cases heq : id = cancelled
      · subst heq
        cases htask : s.get id with
        | none =>
            rw [cancel_of_none htask]
            exact congrArg Option.isSome htask
        | some task =>
            by_cases hstatus : task.status = .completed
            · rw [cancel_of_completed htask hstatus]
              exact congrArg Option.isSome htask
            · have hcancelled := get_cancel htask hstatus
              rw [get] at hcancelled
              rw [hcancelled]
              rfl
      · exact congrArg Option.isSome (get_cancel_ne heq)

theorem Fresh.head (h : Fresh (event :: events) s) (id : String) (statement : Statement)
    (hevent : event = .add id statement) : s.get id = none := by
  subst hevent
  exact h.unknown id List.mem_cons_self

theorem Fresh.step (h : Fresh (event :: events) s) (hstep : s.step event = some s') :
    Fresh events s' := by
  have hids : (ids events).Nodup ∧ (∀ id ∈ ids events, id ∈ ids (event :: events)) ∧
      ∀ id ∈ ids events, ∀ statement, event ≠ .add id statement := by
    have hnodup := h.nodup
    cases event with
    | add added statement =>
        obtain ⟨hnot, hrest⟩ := List.nodup_cons.1 hnodup
        refine ⟨hrest, fun id hid => List.mem_cons_of_mem _ hid, ?_⟩
        rintro id hid _ ⟨⟩
        exact hnot hid
    | _ =>
        refine ⟨hnodup, fun id hid => hid, ?_⟩
        rintro id - _ ⟨⟩
  obtain ⟨hnodup, hmem, hne⟩ := hids
  refine ⟨hnodup, fun id hid => ?_⟩
  have hsome := step_isSome hstep id (hne id hid)
  rw [h.unknown id (hmem id hid)] at hsome
  exact Option.isNone_iff_eq_none.1 (by simpa using hsome)

theorem fresh_new (workers : Nat) (h : (ids events).Nodup) : Fresh events (new workers) :=
  ⟨h, fun _ _ => rfl⟩

theorem run_eq_foldlM (events : List Event) (s : TaskPool) :
    s.run events = events.foldlM (fun s event => s.step event) s := by
  induction events generalizing s with
  | nil => rfl
  | cons event events ih =>
      rw [run, List.foldlM_cons]
      exact congrArg _ (funext ih)

/-- What a step that adds no known id preserves, a run that adds none preserves. -/
theorem Fresh.run {P : TaskPool → Prop}
    (hstep : ∀ {s s' event}, P s → s.step event = some s' →
      (∀ id statement, event = .add id statement → s.get id = none) → P s')
    (hfresh : Fresh (events ++ more) s) (h : P s) (hrun : s.run events = some s') :
    P s' ∧ Fresh more s' := by
  rw [run_eq_foldlM] at hrun
  refine List.foldlM_preserves (P := fun later s => P s ∧ Fresh (later ++ more) s) ?_ ⟨h, hfresh⟩
    hrun
  rintro event later middle next ⟨hmiddle, hstill⟩ hnext
  exact ⟨hstep hmiddle hnext hstill.head, hstill.step hnext⟩

/-- The invariant in every state of a run. -/
theorem Valid.run (h : s.Valid) (hfresh : Fresh (events ++ more) s)
    (hrun : s.run events = some s') : s'.Valid ∧ Fresh more s' :=
  hfresh.run (fun hvalid => hvalid.step) h hrun

end Fresh

/-! ## Results -/

/-- A `Cancel` meets no task that has failed otherwise. -/
def KeepsErrors (s : TaskPool) (event : Event) : Prop :=
  ∀ id task, event = .cancel id → s.get id = some task → task.status = .failed →
    task.error = some "cancelled"

/-- Every step of a run, at the state it starts from. -/
def EveryStep (P : TaskPool → Event → Prop) : List Event → TaskPool → Prop
  | [], _ => True
  | event :: events, s => P s event ∧ ∀ s', s.step event = some s' → EveryStep P events s'

theorem everyStep_cons {P : TaskPool → Event → Prop} {event : Event} {events : List Event}
    {s s' : TaskPool} (h : P s event) (hstep : s.step event = some s')
    (hrest : EveryStep P events s') : EveryStep P (event :: events) s := by
  refine ⟨h, fun other hother => ?_⟩
  rw [hstep, Option.some.injEq] at hother
  exact hother ▸ hrest

section Finished

variable {s s' : TaskPool} {event : Event} {id : String} {task : TaskResult}

/-- An update of an unfinished task leaves every finished one alone. -/
theorem lookup_update_finished {tasks : Dict TaskResult} {job : Job} {result : TaskResult}
    (htask : tasks.lookup id = some task) (hfinished : task.Finished)
    (hjob : ∀ task, tasks.lookup job.id = some task → task.status ≠ .completed) :
    (update job.id result tasks).lookup id = some task := by
  by_cases hid : id = job.id
  · subst hid
    rcases hfinished with hcompleted | hfailed
    · exact absurd hcompleted (hjob task htask)
    · rw [update_of_failed htask hfailed, htask]
  · rw [lookup_update_ne hid, htask]

/-- A step that cancels no failed task leaves the finished tasks as they are. -/
theorem step_finished (hvalid : s.Valid) (hstep : s.step event = some s')
    (hfresh : ∀ id statement, event = .add id statement → s.get id = none)
    (hkeeps : KeepsErrors s event) (htask : s.get id = some task)
    (hfinished : task.Finished) : s'.get id = some task := by
  cases step_effect hstep with
  | moves htasks _ => rw [get, htasks, ← htask, get]
  | @adds added statement htasks _ =>
      have hne : id ≠ added := by
        rintro rfl
        rw [hfresh id statement rfl] at htask
        cases htask
      rw [get, htasks, AList.lookup_insert_ne hne, ← htask, get]
  | @starts _ job hjob htasks _ =>
      rw [get, htasks]
      exact lookup_update_finished htask hfinished (hvalid.completed job hjob)
  | @ends _ job _ _ htasks hpending =>
      have hjob : job ∈ s.pending := hpending.mem_iff.1 List.mem_cons_self
      rw [get, htasks]
      exact lookup_update_finished htask hfinished (hvalid.completed job hjob)
  | @cancels cancelled htasks _ =>
      rw [get, htasks]
      by_cases hid : id = cancelled
      · subst hid
        rcases hfinished with hcompleted | hfailed
        · rw [cancel_of_completed htask hcompleted]
          exact htask
        · have herror := hkeeps id task rfl htask hfailed
          have hsame : { task with status := .failed, error := some "cancelled" } = task := by
            rw [← herror, ← hfailed]
          have hcompleted : task.status ≠ .completed := by simp [hfailed]
          rw [← hsame]
          exact get_cancel htask hcompleted
      · exact (get_cancel_ne hid).trans htask

end Finished

/-- In every run whose `Cancel`s meet no task that has failed otherwise, a task that is finished has
    the same result in every later state. -/
theorem finished_stays (workers : Nat) {events more : List Event} {s s' : TaskPool}
    (hids : (ids (events ++ more)).Nodup) (hrun : (new workers).run events = some s)
    (hmore : s.run more = some s') (hkeeps : EveryStep KeepsErrors more s) {id : String}
    {task : TaskResult} (htask : s.get id = some task) (hfinished : task.Finished) :
    s'.get id = some task := by
  obtain ⟨hvalid, hfresh⟩ := (valid_new workers).run (fresh_new workers hids) hrun
  clear hrun hids
  induction more generalizing s with
  | nil =>
      cases hmore
      exact htask
  | cons event more ih =>
      obtain ⟨middle, hstep, hrest⟩ := Option.bind_eq_some_iff.1 hmore
      obtain ⟨hevent, hlater⟩ := hkeeps
      have hmiddle := step_finished hvalid hstep hfresh.head hevent htask hfinished
      exact ih hrest (hlater middle hstep) hmiddle (hvalid.step hstep hfresh.head)
        (hfresh.step hstep)

/-! ## Two runs -/

/-- A task that a worker brings to its end. -/
def oneTask (id : String) (statement : Statement) (result : Except String Response) : List Event :=
  [.add id statement, .enqueue 0, .take 0, .start 0, .call 0, .handled 0 result, .report 0]

/-- A task that has succeeded, and one that is cancelled before it comes to the pool. -/
def settledTasks : List Event :=
  oneTask "t" (.dropDatabase "d") (.ok (.success "Success")) ++
    [.add "u" (.dropDatabase "d"), .cancel "u"]

/-- Both are cancelled once more, and the pool refuses the second. -/
def cancelsAgain : List Event := [.cancel "t", .cancel "u", .stop, .enqueue 0, .giveUp 0]

theorem finished_stays_cancelsAgain : ∃ s s', (new 2).run settledTasks = some s ∧
    s.run cancelsAgain = some s' ∧
    s'.get "u" = some { status := .failed, error := some "cancelled" } := by
  refine ⟨_, _, rfl, rfl, @finished_stays 2 settledTasks cancelsAgain _ _ (by decide) rfl rfl ?_ "u"
    _ rfl (.inr rfl)⟩
  refine everyStep_cons ?_ rfl (everyStep_cons ?_ rfl (everyStep_cons ?_ rfl
    (everyStep_cons ?_ rfl (everyStep_cons ?_ rfl trivial))))
  · rintro _ task ⟨⟩ htask hfailed
    cases htask
    cases hfailed
  · rintro _ task ⟨⟩ htask -
    cases htask
    rfl
  all_goals
    rintro _ _ ⟨⟩

/-- A task that has failed is reported as cancelled later on. -/
theorem finished_changes : ∃ s s',
    (new 2).run (oneTask "t" (.dropDatabase "d") (.error "boom")) = some s ∧
    s.run [.cancel "t"] = some s' ∧
    s.get "t" = some { status := .failed, error := some "boom" } ∧
    s'.get "t" = some { status := .failed, error := some "cancelled" } :=
  ⟨_, _, rfl, rfl, rfl, rfl⟩

end TaskPool

end QuasarDB.Server
