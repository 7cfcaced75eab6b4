import Mathlib.Data.List.Perm.Basic
import QuasarDB.Core.Proofs.ThreadPool
import QuasarDB.Server.TaskPool

set_option autoImplicit false

/-! # What a step does to the tasks

Every task that is not finished is with one call of `Submit`, in the queue or with one worker. A step
moves such tasks, or changes the result of one. -/

namespace QuasarDB.Server

open Core

namespace TaskPool

/-- The tasks that a call of `Submit` or a worker will still come back to. -/
def pending (s : TaskPool) : List Job :=
  s.submitting ++ s.refused ++ s.pool.unfinished.map Prod.fst

/-- What a step changes. -/
inductive Effect (s s' : TaskPool) : Event → Prop where
  | moves {event : Event} (htasks : s'.tasks = s.tasks) (hpending : s'.pending.Perm s.pending) :
      Effect s s' event
  | adds {id : String} {statement : Statement} (htasks : s'.tasks = s.tasks.insert id {})
      (hpending : s'.pending.Perm (⟨id, statement⟩ :: s.pending)) :
      Effect s s' (.add id statement)
  | starts {event : Event} {job : Job} (hjob : job ∈ s.pending)
      (htasks : s'.tasks = update job.id { status := .running } s.tasks)
      (hpending : s'.pending.Perm s.pending) : Effect s s' event
  | ends {event : Event} {job : Job} {result : TaskResult}
      (hresult : result.status = .completed ∨ result.status = .failed)
      (htasks : s'.tasks = update job.id result s.tasks)
      (hpending : (job :: s'.pending).Perm s.pending) : Effect s s' event
  | cancels {id : String} (htasks : s'.tasks = (s.cancel id).2.tasks)
      (hpending : s'.pending.Perm s.pending) : Effect s s' (.cancel id)

section Step

variable {s s' : TaskPool} {event : Event}

/-- A step of a worker in the pool's code. -/
theorem onPool_effect {pool : Option (ThreadPool Job)} (h : s.onPool pool = some s')
    (hpool : ∀ pool', pool = some pool' → pool'.unfinished.Perm s.pool.unfinished) :
    Effect s s' event := by
  obtain ⟨pool', hpool', rfl⟩ := Option.map_eq_some_iff.1 h
  exact .moves rfl (((hpool pool' hpool').map _).append_left _)

theorem enqueue_eq {i : Nat} {job : Job} (h : s.submitting[i]? = some job) :
    s.enqueue i = some { s with
      pool := (s.pool.submit job).2
      submitting := s.submitting.eraseIdx i
      refused := if (s.pool.submit job).1 then s.refused else job :: s.refused } := by
  rw [enqueue, h]

theorem enqueue_effect {i : Nat} (h : s.enqueue i = some s') : Effect s s' event := by
  cases hjob : s.submitting[i]? with
  | none =>
      rw [enqueue, hjob] at h
      cases h
  | some job =>
      rw [enqueue_eq hjob, Option.some.injEq] at h
      subst h
      obtain ⟨hi, rfl⟩ := List.getElem?_eq_some_iff.1 hjob
      have herase := List.getElem_cons_eraseIdx_perm hi
      refine .moves rfl ?_
      unfold pending
      cases hstopped : s.pool.stopped with
      | false =>
          have hunfinished := (ThreadPool.submit_unfinished hstopped s.submitting[i]).map Prod.fst
          have haccepted : (s.pool.submit s.submitting[i]).1 = true := by
            rw [ThreadPool.submit, hstopped]
            rfl
          simp only [haccepted, if_true]
          refine (hunfinished.append_left _).trans ?_
          refine List.perm_middle.trans ?_
          exact (herase.append_right _).append_right _
      | true =>
          rw [ThreadPool.submit_stopped hstopped]
          simp only [Bool.false_eq_true, if_false, List.append_assoc]
          refine List.perm_middle.trans ?_
          exact herase.append_right _

theorem giveUp_effect {i : Nat} (h : s.giveUp i = some s') : Effect s s' event := by
  unfold giveUp at h
  cases hjob : s.refused[i]? with
  | none =>
      rw [hjob] at h
      cases h
  | some job =>
      rw [hjob] at h
      cases h
      obtain ⟨hi, rfl⟩ := List.getElem?_eq_some_iff.1 hjob
      have herase := List.getElem_cons_eraseIdx_perm hi
      have hpending : (s.refused[i] :: (s.submitting ++ s.refused.eraseIdx i ++
          s.pool.unfinished.map Prod.fst)).Perm s.pending := by
        rw [pending, List.append_assoc, List.append_assoc]
        exact List.perm_middle.symm.trans ((herase.append_right _).append_left _)
      exact .ends (.inr rfl) rfl hpending

/-- The task of a worker is not finished. -/
theorem mem_pending_of_worker {w : Nat} {worker : Worker Job} {job : Job} {n : Nat}
    (hworker : s.pool.workers[w]? = some worker) (htask : (job, n) ∈ worker.task) :
    job ∈ s.pending := by
  have hmem : (job, n) ∈ s.pool.workers.flatMap Worker.task :=
    List.mem_flatMap.2 ⟨worker, List.mem_of_getElem? hworker, htask⟩
  have hjob := List.mem_map_of_mem (f := Prod.fst) (List.mem_append_right s.pool.queue hmem)
  exact List.mem_append_right _ hjob

theorem start_effect {w : Nat} (h : s.start w = some s') : Effect s s' event := by
  unfold start at h
  split at h
  next job n hworker =>
    obtain ⟨pool, hpool, rfl⟩ := Option.map_eq_some_iff.1 h
    refine .starts (mem_pending_of_worker hworker (List.mem_singleton_self _)) rfl ?_
    exact ((ThreadPool.begin_unfinished hpool).map _).append_left _
  next => cases h

theorem call_effect {w : Nat} (h : s.call w = some s') : Effect s s' event := by
  unfold call at h
  split at h
  · cases h
    exact .moves rfl (.refl _)
  · cases h

theorem handled_effect {w : Nat} {result : Except String Response}
    (h : s.handled w result = some s') : Effect s s' event := by
  unfold handled at h
  split at h
  · cases h
    exact .moves rfl (.refl _)
  · cases h

theorem report_effect {w : Nat} (h : s.report w = some s') : Effect s s' event := by
  unfold report at h
  split at h
  next job n result hworker hstage =>
    obtain ⟨pool, hpool, rfl⟩ := Option.map_eq_some_iff.1 h
    have hresult : (outcome result).status = .completed ∨ (outcome result).status = .failed := by
      cases result with
      | ok response => exact .inl rfl
      | error what => exact .inr rfl
    refine .ends hresult rfl ?_
    have hunfinished := (ThreadPool.finish_unfinished hworker hpool).map Prod.fst
    exact List.perm_middle.symm.trans (hunfinished.append_left _)
  next => cases h

theorem cancel_effect (id : String) (s : TaskPool) : Effect s (s.cancel id).2 (.cancel id) := by
  refine .cancels rfl ?_
  unfold cancel
  split
  · exact .refl _
  · split <;> exact .refl _

theorem step_effect (h : s.step event = some s') : Effect s s' event := by
  cases event with
  | add id statement =>
      cases h
      exact .adds rfl (.refl _)
  | enqueue i => exact enqueue_effect h
  | giveUp i => exact giveUp_effect h
  | get id =>
      cases h
      exact .moves rfl (.refl _)
  | cancel id =>
      cases h
      exact cancel_effect id s
  | stop =>
      refine onPool_effect h fun pool' hpool => ?_
      cases hpool
      exact .refl _
  | sleep w => exact onPool_effect h fun _ => ThreadPool.sleep_unfinished
  | wake w => exact onPool_effect h fun _ => ThreadPool.wake_unfinished
  | take w => exact onPool_effect h fun _ => ThreadPool.take_unfinished
  | start w => exact start_effect h
  | call w => exact call_effect h
  | handled w result => exact handled_effect h
  | report w => exact report_effect h
  | exit w => exact onPool_effect h fun _ => ThreadPool.exit_unfinished

end Step

/-! ## The results of tasks -/

section Update

variable {id id' : String} {result task : TaskResult} {tasks : Dict TaskResult}

theorem lookup_update_ne (h : id' ≠ id) :
    (update id result tasks).lookup id' = tasks.lookup id' := by
  unfold update
  split
  · rfl
  · split
    · rfl
    · exact AList.lookup_insert_ne h

theorem update_of_failed (h : tasks.lookup id = some task) (hfailed : task.status = .failed) :
    update id result tasks = tasks := by
  rw [update, h]
  exact if_pos hfailed

theorem lookup_update_isSome :
    ((update id result tasks).lookup id').isSome = (tasks.lookup id').isSome := by
  by_cases hid : id' = id
  · subst hid
    unfold update
    split
    · rfl
    next task htask =>
      split
      · rfl
      · rw [AList.lookup_insert, htask]
        rfl
  · rw [lookup_update_ne hid]

/-- An update gives the new result, or leaves a task that has failed. -/
theorem lookup_update_cases (h : (update id result tasks).lookup id = some task) :
    task = result ∨ tasks.lookup id = some task ∧ task.status = .failed := by
  unfold update at h
  split at h
  next hnone =>
    rw [hnone] at h
    cases h
  next old hold =>
    split at h
    next hfailed =>
      rw [hold, Option.some.injEq] at h
      exact .inr ⟨h ▸ hold, h ▸ hfailed⟩
    next =>
      rw [AList.lookup_insert, Option.some.injEq] at h
      exact .inl h.symm

theorem get_cancel_ne {s : TaskPool} (h : id' ≠ id) : (s.cancel id).2.get id' = s.get id' := by
  unfold cancel
  split
  · rfl
  · split
    · rfl
    · exact AList.lookup_insert_ne h

/-- `Cancel` on a task that is not completed. -/
theorem get_cancel {s : TaskPool} (h : s.get id = some task) (hstatus : task.status ≠ .completed) :
    (s.cancel id).2.get id =
      some { task with status := .failed, error := some "cancelled" } := by
  unfold cancel
  rw [h]
  simp only [if_neg hstatus]
  exact AList.lookup_insert _

theorem cancel_of_completed {s : TaskPool} (h : s.get id = some task)
    (hstatus : task.status = .completed) : s.cancel id = (false, s) := by
  rw [cancel, h]
  exact if_pos hstatus

theorem cancel_of_none {s : TaskPool} (h : s.get id = none) : s.cancel id = (false, s) := by
  rw [cancel, h]

end Update

/-! ## The invariant -/

/-- Every unfinished task is in one place and known, and none of them is completed. -/
structure Valid (s : TaskPool) : Prop where
  nodup : (s.pending.map Job.id).Nodup
  known : ∀ job ∈ s.pending, (s.get job.id).isSome = true
  completed : ∀ job ∈ s.pending, ∀ task, s.get job.id = some task → task.status ≠ .completed

theorem valid_new (workers : Nat) : (new workers).Valid := by
  have hpending : (new workers).pending = [] := by
    simp [pending, new, ThreadPool.unfinished, ThreadPool.new, Worker.task]
  refine ⟨?_, ?_, ?_⟩
  · rw [hpending]
    exact List.nodup_nil
  · rw [hpending]
    exact fun job hjob => absurd hjob List.not_mem_nil
  · rw [hpending]
    exact fun job hjob => absurd hjob List.not_mem_nil

section Valid

variable {s s' : TaskPool} {event : Event}

theorem Valid.of_perm (h : s.Valid) (htasks : s'.tasks = s.tasks)
    (hpending : s'.pending.Perm s.pending) : s'.Valid := by
  have hget : ∀ id, s'.get id = s.get id := fun id => by rw [get, htasks, get]
  refine ⟨((hpending.map _).nodup_iff).2 h.nodup, fun job hjob => ?_, fun job hjob => ?_⟩
  · rw [hget]
    exact h.known job (hpending.mem_iff.1 hjob)
  · rw [hget]
    exact h.completed job (hpending.mem_iff.1 hjob)

/-- No unfinished task has the id of a task that is added. -/
theorem Valid.adds (h : s.Valid) {id : String} {statement : Statement} (hid : s.get id = none)
    (htasks : s'.tasks = s.tasks.insert id {})
    (hpending : s'.pending.Perm (⟨id, statement⟩ :: s.pending)) : s'.Valid := by
  have hne : ∀ job ∈ s.pending, job.id ≠ id := by
    rintro job hjob rfl
    have hknown := h.known job hjob
    rw [hid] at hknown
    exact absurd hknown (by decide)
  have hget : ∀ job ∈ s.pending, s'.get job.id = s.get job.id := by
    intro job hjob
    rw [get, htasks, AList.lookup_insert_ne (hne job hjob), get]
  have hnew : s'.get id = some {} := by
    rw [get, htasks, AList.lookup_insert]
  refine ⟨?_, fun job hjob => ?_, fun job hjob task => ?_⟩
  · refine ((hpending.map _).nodup_iff).2 (List.nodup_cons.2 ⟨?_, h.nodup⟩)
    intro hmem
    obtain ⟨job, hjob, heq⟩ := List.mem_map.1 hmem
    exact hne job hjob heq
  · rcases List.mem_cons.1 (hpending.mem_iff.1 hjob) with rfl | hjob
    · rw [hnew]
      rfl
    · rw [hget job hjob]
      exact h.known job hjob
  · rcases List.mem_cons.1 (hpending.mem_iff.1 hjob) with rfl | hjob
    · rw [hnew]
      rintro ⟨⟩
      simp
    · rw [hget job hjob]
      exact h.completed job hjob task

theorem Valid.starts (h : s.Valid) {job : Job} (hjob : job ∈ s.pending)
    (htasks : s'.tasks = update job.id { status := .running } s.tasks)
    (hpending : s'.pending.Perm s.pending) : s'.Valid := by
  refine ⟨((hpending.map _).nodup_iff).2 h.nodup, fun other hother => ?_,
    fun other hother task htask => ?_⟩
  · rw [get, htasks, lookup_update_isSome]
    exact h.known other (hpending.mem_iff.1 hother)
  · rw [get, htasks] at htask
    by_cases hid : other.id = job.id
    · rw [hid] at htask
      rcases lookup_update_cases htask with rfl | ⟨hold, -⟩
      · simp
      · exact h.completed job hjob task hold
    · rw [lookup_update_ne hid] at htask
      exact h.completed other (hpending.mem_iff.1 hother) task htask

/-- The task that ends is the only one with its id, so the result of no other one changes. -/
theorem Valid.ends (h : s.Valid) {job : Job} {result : TaskResult}
    (htasks : s'.tasks = update job.id result s.tasks)
    (hpending : (job :: s'.pending).Perm s.pending) : s'.Valid := by
  have hnodup := ((hpending.map Job.id).nodup_iff).2 h.nodup
  obtain ⟨hnot, hrest⟩ := List.nodup_cons.1 hnodup
  have hmem : ∀ other ∈ s'.pending, other ∈ s.pending :=
    fun other hother => hpending.mem_iff.1 (List.mem_cons_of_mem _ hother)
  refine ⟨hrest, fun other hother => ?_, fun other hother task htask => ?_⟩
  · rw [get, htasks, lookup_update_isSome]
    exact h.known other (hmem other hother)
  · have hid : other.id ≠ job.id := by
      intro heq
      exact hnot (heq ▸ List.mem_map_of_mem hother)
    rw [get, htasks, lookup_update_ne hid] at htask
    exact h.completed other (hmem other hother) task htask

/-- A task that was cancelled before it was finished has failed. -/
theorem Valid.get_cancel (h : s.Valid) {job : Job} (hjob : job ∈ s.pending) :
    ∃ task, (s.cancel job.id).2.get job.id = some task ∧ task.status = .failed := by
  obtain ⟨task, htask⟩ := Option.isSome_iff_exists.1 (h.known job hjob)
  exact ⟨_, TaskPool.get_cancel htask (h.completed job hjob task htask), rfl⟩

theorem Valid.cancels (h : s.Valid) {id : String} (htasks : s'.tasks = (s.cancel id).2.tasks)
    (hpending : s'.pending.Perm s.pending) : s'.Valid := by
  have hget : ∀ other, s'.get other = (s.cancel id).2.get other := by
    intro other
    rw [get, htasks, get]
  refine ⟨((hpending.map _).nodup_iff).2 h.nodup, fun job hjob => ?_, fun job hjob task htask => ?_⟩
  · have hjob' := hpending.mem_iff.1 hjob
    rw [hget]
    by_cases hid : job.id = id
    · subst hid
      obtain ⟨task, htask, -⟩ := h.get_cancel hjob'
      rw [htask]
      rfl
    · rw [get_cancel_ne hid]
      exact h.known job hjob'
  · have hjob' := hpending.mem_iff.1 hjob
    rw [hget] at htask
    by_cases hid : job.id = id
    · subst hid
      obtain ⟨cancelled, hcancelled, hfailed⟩ := h.get_cancel hjob'
      rw [hcancelled, Option.some.injEq] at htask
      rw [← htask, hfailed]
      simp
    · rw [get_cancel_ne hid] at htask
      exact h.completed job hjob' task htask

theorem Valid.step (h : s.Valid) (hstep : s.step event = some s')
    (hfresh : ∀ id statement, event = .add id statement → s.get id = none) : s'.Valid := by
  cases step_effect hstep with
  | moves htasks hpending => exact h.of_perm htasks hpending
  | @adds id statement htasks hpending => exact h.adds (hfresh id statement rfl) htasks hpending
  | @starts _ job hjob htasks hpending => exact h.starts hjob htasks hpending
  | @ends _ job result hresult htasks hpending => exact h.ends htasks hpending
  | @cancels id htasks hpending => exact h.cancels htasks hpending

end Valid

end TaskPool

end QuasarDB.Server
