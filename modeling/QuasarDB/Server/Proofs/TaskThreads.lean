import QuasarDB.Server.Proofs.FinishedTasks

set_option autoImplicit false

/-! # Tasks and their closures

The pool moves closures, and the map of tasks has their results. A task that is not finished has a
closure that is still to be called or to return, and one whose closure has begun is not pending. -/

namespace QuasarDB.Server

open Core

namespace TaskPool

/-! ## What a step does to the threads -/

inductive ThreadEffect (s s' : TaskPool) : Prop where
  | keeps (hpool : s'.pool = s.pool) (hcalled : s'.called = s.called)
      (hrefused : s'.refused ⊆ s.refused)
  | pools {event : ThreadPool.Event Job} (hpool : s.pool.step event = some s'.pool)
      (hbegan : s'.pool.began = s.pool.began) (hcalled : s'.called = s.called)
      (hrefused : s'.refused ⊆ s.refused ∨ s.pool.stopped = true)
  | starts {w n : Nat} {job : Job} (hworker : s.pool.workers[w]? = some (.taken (job, n)))
      (hpool : s.pool.step (.begin w) = some s'.pool)
      (hbegan : s'.pool.began = s.pool.began ++ [(job, n)])
      (htasks : s'.tasks = update job.id { status := .running } s.tasks)
      (hcalled : s'.called = s.called) (hrefused : s'.refused = s.refused)
  | calls {w n : Nat} {job : Job} (hworker : s.pool.workers[w]? = some (.running (job, n)))
      (hpool : s'.pool = s.pool) (hcalled : s'.called = s.called ++ [job])
      (hrefused : s'.refused = s.refused)

section Step

variable {s s' : TaskPool} {event : Event}

theorem onPool_threads (e : ThreadPool.Event Job) (h : s.onPool (s.pool.step e) = some s')
    (he : ∀ w, e ≠ .begin w) : ThreadEffect s s' := by
  obtain ⟨pool, hpool, rfl⟩ := Option.map_eq_some_iff.1 h
  exact .pools hpool (ThreadPool.step_began hpool he) rfl (.inl (List.Subset.refl _))

theorem enqueue_threads {i : Nat} (h : s.enqueue i = some s') : ThreadEffect s s' := by
  cases hjob : s.submitting[i]? with
  | none =>
      rw [enqueue, hjob] at h
      cases h
  | some job =>
      rw [enqueue_eq hjob, Option.some.injEq] at h
      subst h
      have hpool : s.pool.step (.submit job) = some (s.pool.submit job).2 := rfl
      have hbegan := ThreadPool.step_began hpool (fun w heq => by cases heq)
      refine .pools hpool hbegan rfl ?_
      cases hstopped : s.pool.stopped with
      | true => exact .inr rfl
      | false =>
          rw [ThreadPool.submit, hstopped]
          exact .inl (List.Subset.refl _)

theorem giveUp_threads {i : Nat} (h : s.giveUp i = some s') : ThreadEffect s s' := by
  unfold giveUp at h
  split at h
  · cases h
  · cases h
    exact .keeps rfl rfl List.eraseIdx_subset

theorem start_threads {w : Nat} (h : s.start w = some s') : ThreadEffect s s' := by
  unfold start at h
  split at h
  next job n hworker =>
    rw [ThreadPool.begin_eq hworker, Option.map_some, Option.some.injEq] at h
    subst h
    exact .starts hworker (ThreadPool.begin_eq hworker) rfl rfl rfl rfl
  next => cases h

theorem call_threads {w : Nat} (h : s.call w = some s') : ThreadEffect s s' := by
  unfold call at h
  split at h
  next hworker hstage =>
    cases h
    exact .calls hworker rfl rfl rfl
  next => cases h

theorem handled_threads {w : Nat} {result : Except String Response}
    (h : s.handled w result = some s') : ThreadEffect s s' := by
  unfold handled at h
  split at h
  · cases h
    exact .keeps rfl rfl (List.Subset.refl _)
  · cases h

theorem report_threads {w : Nat} (h : s.report w = some s') : ThreadEffect s s' := by
  unfold report at h
  split at h
  next job n result hworker hstage =>
    rw [ThreadPool.finish_eq hworker, Option.map_some, Option.some.injEq] at h
    subst h
    have hpool : s.pool.step (.finish w) = _ := ThreadPool.finish_eq hworker
    exact .pools hpool rfl rfl (.inl (List.Subset.refl _))
  next => cases h

theorem cancel_pool (id : String) (s : TaskPool) : (s.cancel id).2.pool = s.pool := by
  unfold cancel
  split
  · rfl
  · split <;> rfl

theorem cancel_called (id : String) (s : TaskPool) : (s.cancel id).2.called = s.called := by
  unfold cancel
  split
  · rfl
  · split <;> rfl

theorem cancel_refused (id : String) (s : TaskPool) : (s.cancel id).2.refused = s.refused := by
  unfold cancel
  split
  · rfl
  · split <;> rfl

theorem step_threads (h : s.step event = some s') : ThreadEffect s s' := by
  cases event with
  | add id statement =>
      cases h
      exact .keeps rfl rfl (List.Subset.refl _)
  | enqueue i => exact enqueue_threads h
  | giveUp i => exact giveUp_threads h
  | get id =>
      cases h
      exact .keeps rfl rfl (List.Subset.refl _)
  | cancel id =>
      cases h
      refine .keeps (cancel_pool id s) (cancel_called id s) ?_
      rw [cancel_refused]
      exact List.Subset.refl _
  | stop => exact onPool_threads .stop h (fun w heq => by cases heq)
  | sleep w => exact onPool_threads (.sleep w) h (fun w heq => by cases heq)
  | wake w => exact onPool_threads (.wake w) h (fun w heq => by cases heq)
  | take w => exact onPool_threads (.take w) h (fun w heq => by cases heq)
  | start w => exact start_threads h
  | call w => exact call_threads h
  | handled w result => exact handled_threads h
  | report w => exact report_threads h
  | exit w => exact onPool_threads (.exit w) h (fun w heq => by cases heq)

end Step

/-! ## Where an unfinished task is -/

/-- A task that is not finished waits somewhere, and one that a worker has begun is not pending. -/
structure Placed (s : TaskPool) : Prop where
  valid : s.Valid
  balanced : s.pool.Balanced
  refused : s.refused ≠ [] → s.pool.stopped = true
  waiting : ∀ id task, s.get id = some task → ¬ task.Finished → ∃ job ∈ s.pending, job.id = id
  begun : ∀ job ∈ s.pool.began.map Prod.fst, ∃ task,
    s.get job.id = some task ∧ task.status ≠ .pending
  called : ∀ job ∈ s.called, job ∈ s.pool.began.map Prod.fst

theorem placed_new (workers : Nat) : (new workers).Placed where
  valid := valid_new workers
  balanced := ThreadPool.balanced_new workers
  refused := fun h => absurd rfl h
  waiting := fun id task h => by cases h
  begun := fun job hjob => absurd hjob List.not_mem_nil
  called := fun job hjob => absurd hjob List.not_mem_nil

section Placed

variable {s s' : TaskPool} {event : Event} {id : String} {task : TaskResult}

theorem get_cancel_finished (h : (s.cancel id).2.get id = some task) : task.Finished := by
  cases hold : s.get id with
  | none =>
      rw [cancel_of_none hold, hold] at h
      cases h
  | some old =>
      by_cases hstatus : old.status = .completed
      · rw [cancel_of_completed hold hstatus, hold, Option.some.injEq] at h
        exact .inl (h ▸ hstatus)
      · rw [get_cancel hold hstatus, Option.some.injEq] at h
        exact .inr (h ▸ rfl)

/-- A task that has begun does not become pending again. -/
theorem step_begun (hstep : s.step event = some s')
    (hfresh : ∀ id statement, event = .add id statement → s.get id = none)
    (h : ∃ task, s.get id = some task ∧ task.status ≠ .pending) :
    ∃ task, s'.get id = some task ∧ task.status ≠ .pending := by
  obtain ⟨task, htask, hstatus⟩ := h
  have hupdate : ∀ (job : Job) (result : TaskResult), result.status ≠ .pending →
      s'.tasks = update job.id result s.tasks →
      ∃ task, s'.get id = some task ∧ task.status ≠ .pending := by
    intro job result hresult htasks
    have hsome : ((update job.id result s.tasks).lookup id).isSome = true := by
      rw [lookup_update_isSome]
      exact Option.isSome_iff_exists.2 ⟨task, htask⟩
    obtain ⟨new, hnew⟩ := Option.isSome_iff_exists.1 hsome
    refine ⟨new, by rw [get, htasks, hnew], ?_⟩
    by_cases hid : id = job.id
    · subst hid
      rcases lookup_update_cases hnew with rfl | ⟨-, hfailed⟩
      · exact hresult
      · simp [hfailed]
    · rw [lookup_update_ne hid] at hnew
      rw [get, hnew, Option.some.injEq] at htask
      exact htask ▸ hstatus
  cases step_effect hstep with
  | moves htasks _ => exact ⟨task, by rw [get, htasks, ← htask, get], hstatus⟩
  | @adds added statement htasks _ =>
      have hne : id ≠ added := by
        rintro rfl
        rw [hfresh id statement rfl] at htask
        cases htask
      exact ⟨task, by rw [get, htasks, AList.lookup_insert_ne hne, ← htask, get], hstatus⟩
  | starts _ htasks _ => exact hupdate _ _ (by simp) htasks
  | ends hresult htasks _ =>
      refine hupdate _ _ ?_ htasks
      rcases hresult with hresult | hresult <;> simp [hresult]
  | @cancels cancelled htasks _ =>
      by_cases hid : id = cancelled
      · subst hid
        have hsome := step_isSome hstep id (fun statement heq => by cases heq)
        rw [htask] at hsome
        obtain ⟨new, hnew⟩ := Option.isSome_iff_exists.1 hsome
        refine ⟨new, hnew, ?_⟩
        rw [get, htasks] at hnew
        rcases get_cancel_finished hnew with hfinished | hfinished <;> simp [hfinished]
      · exact ⟨task, by rw [get, htasks]; exact (get_cancel_ne hid).trans htask, hstatus⟩

theorem Placed.waiting_step (h : s.Placed) (hstep : s.step event = some s')
    (htask : s'.get id = some task) (hfinished : ¬ task.Finished) :
    ∃ job ∈ s'.pending, job.id = id := by
  have hstays : s'.pending.Perm s.pending → s.get id = some task →
      ∃ job ∈ s'.pending, job.id = id := by
    intro hpending hold
    obtain ⟨job, hjob, hid⟩ := h.waiting id task hold hfinished
    exact ⟨job, hpending.mem_iff.2 hjob, hid⟩
  rw [get] at htask
  cases step_effect hstep with
  | moves htasks hpending =>
      rw [htasks] at htask
      exact hstays hpending htask
  | @adds added statement htasks hpending =>
      rw [htasks] at htask
      by_cases hid : id = added
      · exact ⟨⟨added, statement⟩, hpending.mem_iff.2 List.mem_cons_self, hid.symm⟩
      · rw [AList.lookup_insert_ne hid] at htask
        obtain ⟨job, hjob, hid⟩ := h.waiting id task htask hfinished
        exact ⟨job, hpending.mem_iff.2 (List.mem_cons_of_mem _ hjob), hid⟩
  | @starts _ job hjob htasks hpending =>
      rw [htasks] at htask
      by_cases hid : id = job.id
      · exact ⟨job, hpending.mem_iff.2 hjob, hid.symm⟩
      · rw [lookup_update_ne hid] at htask
        exact hstays hpending htask
  | @ends _ job result hresult htasks hpending =>
      rw [htasks] at htask
      by_cases hid : id = job.id
      · subst hid
        rcases lookup_update_cases htask with rfl | ⟨-, hfailed⟩
        · exact absurd hresult hfinished
        · exact absurd (.inr hfailed) hfinished
      · rw [lookup_update_ne hid] at htask
        obtain ⟨other, hother, rfl⟩ := h.waiting id task htask hfinished
        rcases List.mem_cons.1 (hpending.mem_iff.2 hother) with rfl | hother
        · exact absurd rfl hid
        · exact ⟨other, hother, rfl⟩
  | @cancels cancelled htasks hpending =>
      rw [htasks] at htask
      by_cases hid : id = cancelled
      · subst hid
        exact absurd (get_cancel_finished htask) hfinished
      · exact hstays hpending ((get_cancel_ne hid).symm.trans htask)

/-- The job of a worker that runs it has begun. -/
theorem Placed.running_begun (h : s.Placed) {w n : Nat} {job : Job}
    (hworker : s.pool.workers[w]? = some (.running (job, n))) :
    job ∈ s.pool.began.map Prod.fst := by
  have hmem : (job, n) ∈ s.pool.workers.flatMap Worker.isIn :=
    List.mem_flatMap.2 ⟨_, List.mem_of_getElem? hworker, List.mem_singleton_self _⟩
  have hbegan := h.balanced.ended.subset (List.mem_append_right _ hmem)
  exact List.mem_map_of_mem (f := Prod.fst) hbegan

theorem Placed.step (h : s.Placed) (hstep : s.step event = some s')
    (hfresh : ∀ id statement, event = .add id statement → s.get id = none) : s'.Placed := by
  have hvalid := h.valid.step hstep hfresh
  have hold : ∀ job ∈ s.pool.began.map Prod.fst, ∃ task,
      s'.get job.id = some task ∧ task.status ≠ .pending :=
    fun job hjob => step_begun hstep hfresh (h.begun job hjob)
  have hwaiting : ∀ id task, s'.get id = some task → ¬ task.Finished →
      ∃ job ∈ s'.pending, job.id = id := fun id task => h.waiting_step hstep
  cases step_threads hstep with
  | keeps hpool hcalled hrefused =>
      refine ⟨hvalid, hpool ▸ h.balanced, fun hne => ?_, hwaiting, hpool ▸ hold, ?_⟩
      · rw [hpool]
        exact h.refused (fun hnil => hne (List.subset_nil.1 (hnil ▸ hrefused)))
      · rw [hcalled, hpool]
        exact h.called
  | pools hpool hbegan hcalled hrefused =>
      refine ⟨hvalid, h.balanced.step hpool, fun hne => ?_, hwaiting, hbegan ▸ hold, ?_⟩
      · refine (ThreadPool.step_stopped ?_ hpool).1
        rcases hrefused with hrefused | hstopped
        · exact h.refused (fun hnil => hne (List.subset_nil.1 (hnil ▸ hrefused)))
        · exact hstopped
      · rw [hcalled, hbegan]
        exact h.called
  | @starts w n job hworker hpool hbegan htasks hcalled hrefused =>
      refine ⟨hvalid, h.balanced.step hpool, fun hne => ?_, hwaiting, ?_, ?_⟩
      · rw [hrefused] at hne
        exact (ThreadPool.step_stopped (h.refused hne) hpool).1
      · rw [hbegan, List.map_append]
        intro other hother
        rcases List.mem_append.1 hother with hother | hother
        · exact hold other hother
        · obtain rfl := List.mem_singleton.1 hother
          have hjob := mem_pending_of_worker hworker (List.mem_singleton_self _)
          have hknown : ((update other.id { status := .running } s.tasks).lookup other.id).isSome :=
            lookup_update_isSome.trans (h.valid.known other hjob)
          obtain ⟨task, htask⟩ := Option.isSome_iff_exists.1 hknown
          refine ⟨task, by rw [get, htasks, htask], ?_⟩
          rcases lookup_update_cases htask with rfl | ⟨-, hfailed⟩
          · simp
          · simp [hfailed]
      · rw [hcalled, hbegan, List.map_append]
        exact fun other hother => List.mem_append_left _ (h.called other hother)
  | @calls w n job hworker hpool hcalled hrefused =>
      refine ⟨hvalid, hpool ▸ h.balanced, ?_, hwaiting, hpool ▸ hold, ?_⟩
      · rw [hrefused, hpool]
        exact h.refused
      · rw [hcalled, hpool]
        intro other hother
        rcases List.mem_append.1 hother with hother | hother
        · exact h.called other hother
        · obtain rfl := List.mem_singleton.1 hother
          exact h.running_begun hworker

theorem Placed.run (h : s.Placed) {events more : List Event} (hfresh : Fresh (events ++ more) s)
    (hrun : s.run events = some s') : s'.Placed ∧ Fresh more s' :=
  hfresh.run (fun hplaced => hplaced.step) h hrun

end Placed

end TaskPool

end QuasarDB.Server
