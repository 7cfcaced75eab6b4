import QuasarDB.Server.Proofs.TaskThreads

set_option autoImplicit false

/-! # Cancelled tasks

`Cancel` changes the entry of a task, and leaves its closure where it is. A closure that the pool has
accepted, or will accept, can still come to a worker and call the handler. -/

namespace QuasarDB.Server

open Core

namespace TaskPool

/-! ## Workers that go on -/

/-- Without another task, the run can go on to where `P` holds. -/
def CanReach (P : TaskPool → Prop) (s : TaskPool) : Prop :=
  ∃ events s', s.run events = some s' ∧ ids events = [] ∧ P s'

section CanReach

variable {P Q : TaskPool → Prop} {s s' : TaskPool}

theorem canReach_self (h : P s) : CanReach P s := ⟨[], s, rfl, rfl, h⟩

theorem canReach_step (event : Event) (hstep : s.step event = some s') (hids : ids [event] = [])
    (h : CanReach P s') : CanReach P s := by
  obtain ⟨events, last, hrun, hnone, hlast⟩ := h
  refine ⟨event :: events, last, ?_, ?_, hlast⟩
  · rw [run, hstep]
    exact hrun
  · show ids ([event] ++ events) = []
    rw [ids_append, hids, hnone]
    rfl

theorem run_append {events more : List Event} (hrun : s.run events = some s') :
    s.run (events ++ more) = s'.run more := by
  rw [run_eq_foldlM] at hrun
  rw [run_eq_foldlM, List.foldlM_append, hrun, run_eq_foldlM]
  rfl

theorem CanReach.trans (h : CanReach P s) (hnext : ∀ s', P s' → CanReach Q s') :
    CanReach Q s := by
  obtain ⟨events, middle, hrun, hids, hmiddle⟩ := h
  obtain ⟨more, last, hmore, hnone, hlast⟩ := hnext middle hmiddle
  refine ⟨events ++ more, last, (run_append hrun).trans hmore, ?_, hlast⟩
  rw [ids_append, hids, hnone]
  rfl

theorem step_balanced {event : Event} (h : s.pool.Balanced) (hstep : s.step event = some s') :
    s'.pool.Balanced := by
  cases step_threads hstep with
  | keeps hpool _ _ => exact hpool ▸ h
  | pools hpool _ _ _ => exact h.step hpool
  | starts _ hpool _ _ _ _ => exact h.step hpool
  | calls _ hpool _ _ => exact hpool ▸ h

theorem CanReach.balanced (h : CanReach P s) (hbalanced : s.pool.Balanced) :
    CanReach (fun s' => P s' ∧ s'.pool.Balanced) s := by
  obtain ⟨events, last, hrun, hids, hlast⟩ := h
  refine ⟨events, last, hrun, hids, hlast, ?_⟩
  rw [run_eq_foldlM] at hrun
  refine List.foldlM_preserves (P := fun _ s => s.pool.Balanced) ?_ hbalanced hrun
  intro _ _ _ _ hmiddle hstep
  exact step_balanced hmiddle hstep

end CanReach

/-- The worker looks at the queue, which is as it was. -/
def Looks (w : Nat) (queue : List (Job × Nat)) (s : TaskPool) : Prop :=
  s.pool.workers[w]? = some .checking ∧ s.pool.queue = queue

section Worker

variable {s : TaskPool} {w : Nat} {task : Job × Nat}

theorem report_eq {result : Except String Response}
    (hworker : s.pool.workers[w]? = some (.running task)) (hstage : s.stages w = .returned result) :
    s.report w = some { s with
      pool := { s.pool.put w .checking with ended := s.pool.ended ++ [task] }
      tasks := update task.1.id (outcome result) s.tasks } := by
  simp only [report, hworker, hstage, ThreadPool.finish_eq hworker, Option.map_some]

theorem handled_eq (hworker : s.pool.workers[w]? = some (.running task))
    (hstage : s.stages w = .calling) (result : Except String Response) :
    s.handled w result =
      some { s with stages := Function.update s.stages w (.returned result) } := by
  rw [handled, hworker, hstage]

theorem call_eq (hworker : s.pool.workers[w]? = some (.running task))
    (hstage : s.stages w = .started) :
    s.call w = some { s with
      stages := Function.update s.stages w .calling, called := s.called ++ [task.1] } := by
  simp only [call, hworker, hstage]

theorem start_eq (hworker : s.pool.workers[w]? = some (.taken task)) :
    s.start w = some { s with
      pool := { s.pool.put w (.running task) with began := s.pool.began ++ [task] }
      tasks := update task.1.id { status := .running } s.tasks
      stages := Function.update s.stages w .started } := by
  simp only [start, hworker, ThreadPool.begin_eq hworker, Option.map_some]

theorem looks_of_returned {result : Except String Response}
    (hworker : s.pool.workers[w]? = some (.running task)) (hstage : s.stages w = .returned result) :
    CanReach (Looks w s.pool.queue) s :=
  canReach_step (.report w) (report_eq hworker hstage) rfl
    (canReach_self ⟨ThreadPool.put_getElem? hworker _, rfl⟩)

theorem looks_of_calling (hworker : s.pool.workers[w]? = some (.running task))
    (hstage : s.stages w = .calling) : CanReach (Looks w s.pool.queue) s :=
  canReach_step (.handled w (.error "")) (handled_eq hworker hstage _) rfl
    (looks_of_returned hworker (Function.update_self ..))

theorem looks_of_started (hworker : s.pool.workers[w]? = some (.running task))
    (hstage : s.stages w = .started) : CanReach (Looks w s.pool.queue) s :=
  canReach_step (.call w) (call_eq hworker hstage) rfl
    (looks_of_calling hworker (Function.update_self ..))

theorem looks_of_taken (hworker : s.pool.workers[w]? = some (.taken task)) :
    CanReach (Looks w s.pool.queue) s :=
  canReach_step (.start w) (start_eq hworker) rfl
    (looks_of_started (ThreadPool.put_getElem? hworker _) (Function.update_self ..))

/-- While the queue has a task, a worker can come to it. -/
theorem looks_of_queue (h : s.pool.Balanced) (hqueue : s.pool.queue ≠ []) :
    CanReach (Looks 0 s.pool.queue) s := by
  obtain ⟨worker, workers, hworkers⟩ := List.exists_cons_of_ne_nil h.workers
  have hworker : s.pool.workers[0]? = some worker := by rw [hworkers, List.getElem?_cons_zero]
  cases worker with
  | checking => exact canReach_self ⟨hworker, rfl⟩
  | asleep =>
      have hstep : s.step (.wake 0) = some { s with pool := s.pool.put 0 .checking } := by
        rw [step, onPool, ThreadPool.wake_eq hworker, Option.map_some]
      exact canReach_step _ hstep rfl (canReach_self ⟨ThreadPool.put_getElem? hworker _, rfl⟩)
  | taken task => exact looks_of_taken hworker
  | running task =>
      cases hstage : s.stages 0 with
      | started => exact looks_of_started hworker hstage
      | calling => exact looks_of_calling hworker hstage
      | returned result => exact looks_of_returned hworker hstage
  | exited => exact absurd (h.drained (List.mem_of_getElem? hworker)).2 hqueue

/-! ## Closures that call the handler -/

/-- The handler has been called with the statement of the task. -/
def IsCalled (job : Job) (s : TaskPool) : Prop := job ∈ s.called

theorem isCalled_of_taken (hworker : s.pool.workers[w]? = some (.taken task)) :
    CanReach (IsCalled task.1) s :=
  canReach_step (.start w) (start_eq hworker) rfl
    (canReach_step (.call w)
      (call_eq (ThreadPool.put_getElem? hworker _) (Function.update_self ..)) rfl
      (canReach_self (List.mem_append_right _ (List.mem_singleton_self _))))

/-- A task of the queue is called when the tasks before it have been taken. -/
theorem isCalled_of_queue {front back : List (Job × Nat)} (h : s.pool.Balanced)
    (hqueue : s.pool.queue = front ++ task :: back) : CanReach (IsCalled task.1) s := by
  induction front generalizing s with
  | nil =>
      have hlooks := looks_of_queue h (by rw [hqueue]; exact List.cons_ne_nil _ _)
      refine hlooks.trans fun s' ⟨hworker, hsame⟩ => ?_
      rw [hqueue] at hsame
      have htake := ThreadPool.take_eq hworker hsame
      have hstep : s'.step (.take 0) = _ := congrArg s'.onPool htake
      exact canReach_step _ hstep rfl (isCalled_of_taken (ThreadPool.put_getElem? hworker _))
  | cons other front ih =>
      have hlooks := looks_of_queue h (by rw [hqueue]; exact List.cons_ne_nil _ _)
      refine (hlooks.balanced h).trans fun s' ⟨⟨hworker, hsame⟩, hbalanced⟩ => ?_
      rw [hqueue] at hsame
      have htake := ThreadPool.take_eq hworker hsame
      have hstep : s'.step (.take 0) = _ := congrArg s'.onPool htake
      exact canReach_step _ hstep rfl (ih (step_balanced hbalanced hstep) rfl)

end Worker

/-! ## Closures that do not -/

/-- The closure of the task is not with the pool, and the pool would not accept it. -/
def Refuses (id : String) (s : TaskPool) : Prop :=
  s.pool.stopped = true ∧ ∀ task ∈ s.pool.unfinished, task.1.id ≠ id

section Refuses

variable {s s' : TaskPool} {id : String}

theorem Refuses.step {event : Event} (h : Refuses id s) (hstep : s.step event = some s')
    (hcalled : ∀ job ∈ s.called, job.id ≠ id) :
    Refuses id s' ∧ ∀ job ∈ s'.called, job.id ≠ id := by
  obtain ⟨hstopped, hunfinished⟩ := h
  have hpools : ∀ {e : ThreadPool.Event Job}, s.pool.step e = some s'.pool → Refuses id s' := by
    intro e hpool
    refine ⟨(ThreadPool.step_stopped hstopped hpool).1, fun task htask => ?_⟩
    exact hunfinished task (ThreadPool.step_unfinished_subset hstopped hpool htask)
  cases step_threads hstep with
  | keeps hpool hsame _ =>
      rw [Refuses, hpool, hsame]
      exact ⟨⟨hstopped, hunfinished⟩, hcalled⟩
  | pools hpool _ hsame _ =>
      rw [hsame]
      exact ⟨hpools hpool, hcalled⟩
  | starts _ hpool _ _ hsame _ =>
      rw [hsame]
      exact ⟨hpools hpool, hcalled⟩
  | @calls w n job hworker hpool hmore _ =>
      rw [Refuses, hpool, hmore]
      refine ⟨⟨hstopped, hunfinished⟩, fun other hother => ?_⟩
      rcases List.mem_append.1 hother with hother | hother
      · exact hcalled other hother
      · obtain rfl := List.mem_singleton.1 hother
        refine hunfinished (other, n) (List.mem_append_right _ ?_)
        exact List.mem_flatMap.2 ⟨_, List.mem_of_getElem? hworker, List.mem_singleton_self _⟩

theorem Refuses.run {events : List Event} (h : Refuses id s) (hrun : s.run events = some s')
    (hcalled : ∀ job ∈ s.called, job.id ≠ id) : ∀ job ∈ s'.called, job.id ≠ id := by
  rw [run_eq_foldlM] at hrun
  have hkept := List.foldlM_preserves
    (P := fun _ s => Refuses id s ∧ ∀ job ∈ s.called, job.id ≠ id) ?_ ⟨h, hcalled⟩ hrun
  · exact hkept.2
  · rintro event _ middle later ⟨hrefuses, hnone⟩ hstep
    exact hrefuses.step hstep hnone

end Refuses

section Pending

variable {s : TaskPool} {id : String} {task : TaskResult}

theorem cancel_submitting (id : String) (s : TaskPool) :
    (s.cancel id).2.submitting = s.submitting := by
  unfold cancel
  split
  · rfl
  · split <;> rfl

/-- The handler has not been called for a task that is pending. -/
theorem Placed.not_called (h : s.Placed) (htask : s.get id = some task)
    (hpending : task.status = .pending) : ∀ job ∈ s.pool.began.map Prod.fst, job.id ≠ id := by
  rintro job hjob rfl
  obtain ⟨other, hother, hstatus⟩ := h.begun job hjob
  rw [htask, Option.some.injEq] at hother
  exact hstatus (hother ▸ hpending)

/-- The pool refuses a task whose closure is still with `Submit`, once it is stopped. -/
theorem Placed.refuses (h : s.Placed) {job : Job} (hjob : job ∈ s.submitting ++ s.refused)
    (hstopped : s.pool.stopped = true) : Refuses job.id s := by
  refine ⟨hstopped, fun other hother hid => ?_⟩
  have hnodup := h.valid.nodup
  rw [pending, List.map_append] at hnodup
  have hmem := List.mem_map_of_mem (f := Prod.fst) hother
  have hids : other.1.id ∈ (s.submitting ++ s.refused).map Job.id :=
    hid ▸ List.mem_map_of_mem hjob
  exact (List.disjoint_of_nodup_append hnodup) hids (List.mem_map_of_mem hmem)

/-- The closure of a pending task comes to the handler, unless the pool refuses it. -/
theorem Placed.isCalled (h : s.Placed) (htask : s.get id = some task)
    (hpending : task.status = .pending) (hrefuses : ¬ Refuses id s) :
    ∃ job : Job, job.id = id ∧ CanReach (IsCalled job) (s.cancel id).2 := by
  have hfinished : ¬ task.Finished := by
    rintro (hstatus | hstatus) <;> rw [hpending] at hstatus <;> cases hstatus
  obtain ⟨job, hjob, rfl⟩ := h.waiting id task htask hfinished
  refine ⟨job, rfl, ?_⟩
  have hpool := cancel_pool job.id s
  have hbalanced : (s.cancel job.id).2.pool.Balanced := hpool ▸ h.balanced
  rw [pending, List.mem_append] at hjob
  rcases hjob with hjob | hjob
  · have hstopped : s.pool.stopped = false := by
      by_contra hstopped
      exact hrefuses (h.refuses hjob (by simpa using hstopped))
    have hrefused : s.refused = [] := by
      by_contra hne
      rw [h.refused hne] at hstopped
      cases hstopped
    rw [hrefused, List.append_nil, ← cancel_submitting job.id s] at hjob
    obtain ⟨i, hi⟩ := List.mem_iff_getElem?.1 hjob
    have hstep : (s.cancel job.id).2.step (.enqueue i) = _ := enqueue_eq hi
    have hqueue : ((s.cancel job.id).2.pool.submit job).2.queue =
        s.pool.queue ++ (job, s.pool.accepted.length) :: [] := by
      rw [hpool, ThreadPool.submit, hstopped]
      rfl
    have hcalled := isCalled_of_queue (step_balanced hbalanced hstep) hqueue
    exact canReach_step _ hstep rfl hcalled
  · obtain ⟨⟨job, n⟩, htask', rfl⟩ := List.mem_map.1 hjob
    rcases List.mem_append.1 htask' with hqueue | hworker
    · obtain ⟨front, back, hqueue⟩ := List.append_of_mem hqueue
      exact isCalled_of_queue hbalanced (hpool ▸ hqueue)
    · obtain ⟨worker, hmem, hworker⟩ := List.mem_flatMap.1 hworker
      obtain ⟨w, hw⟩ := List.mem_iff_getElem?.1 hmem
      cases worker with
      | taken other =>
          obtain rfl := List.mem_singleton.1 hworker
          exact isCalled_of_taken (hpool ▸ hw)
      | running other =>
          obtain rfl := List.mem_singleton.1 hworker
          exact absurd rfl (h.not_called htask hpending job (h.running_begun hw))
      | checking => cases hworker
      | asleep => cases hworker
      | exited => cases hworker

end Pending

/-- A task that is cancelled while it is pending is never run, if and only if its closure is not with
    the pool and the pool is stopped. -/
theorem cancelled_never_called_iff (workers : Nat) {events : List Event} {s : TaskPool}
    (hids : (ids events).Nodup) (hrun : (new workers).run events = some s) {id : String}
    {task : TaskResult} (htask : s.get id = some task) (hpending : task.status = .pending) :
    (s.cancel id).1 = true ∧
      ((∀ more s', (ids (events ++ more)).Nodup → (s.cancel id).2.run more = some s' →
        ∀ job ∈ s'.called, job.id ≠ id) ↔ Refuses id s) := by
  have hfresh : Fresh (events ++ []) (new workers) :=
    fresh_new workers (by rwa [List.append_nil])
  obtain ⟨hplaced, -⟩ := (placed_new workers).run hfresh hrun
  refine ⟨?_, ?_, ?_⟩
  · simp [cancel, htask, hpending]
  · intro hnever
    by_contra hrefuses
    obtain ⟨job, hid, more, s', hmore, hnone, hcalled⟩ :=
      hplaced.isCalled htask hpending hrefuses
    refine hnever more s' ?_ hmore job hcalled hid
    rw [ids_append, hnone, List.append_nil]
    exact hids
  · intro hrefuses more s' _ hmore
    have hcancelled : Refuses id (s.cancel id).2 := by
      rw [Refuses, cancel_pool]
      exact hrefuses
    refine hcancelled.run hmore ?_
    rw [cancel_called]
    exact fun job hjob => hplaced.not_called htask hpending job (hplaced.called job hjob)

/-- The pool is stopped between the two halves of `Submit`. -/
def lateSubmit : List Event := [.add "t" (.dropDatabase "d"), .stop]

theorem cancelled_never_called_lateSubmit : ∃ s, (new 2).run lateSubmit = some s ∧
    ∀ more s', (ids (lateSubmit ++ more)).Nodup → (s.cancel "t").2.run more = some s' →
      ∀ job ∈ s'.called, job.id ≠ "t" := by
  have hrefuses : ∀ s, (new 2).run lateSubmit = some s → Refuses "t" s := by
    rintro _ ⟨⟩
    refine ⟨rfl, fun task htask => ?_⟩
    cases htask
  exact ⟨_, rfl, (cancelled_never_called_iff 2 (by decide) rfl rfl rfl).2.2 (hrefuses _ rfl)⟩

/-- `Cancel` answers that a task in the queue is cancelled, and its statement is run afterwards. -/
theorem cancelled_called : ∃ s s',
    (new 2).run [.add "t" (.dropDatabase "d"), .enqueue 0] = some s ∧
    (s.get "t").map TaskResult.status = some .pending ∧ (s.cancel "t").1 = true ∧
    (s.cancel "t").2.run [.take 0, .start 0, .call 0] = some s' ∧
    s'.called = [⟨"t", .dropDatabase "d"⟩] :=
  ⟨_, _, rfl, rfl, rfl, rfl, rfl⟩

end TaskPool

end QuasarDB.Server
