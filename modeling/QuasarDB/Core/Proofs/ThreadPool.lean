import Mathlib.Data.List.Nodup
import QuasarDB.Core.ThreadPool
import QuasarDB.Library.Runs

set_option autoImplicit false

/-! # The thread pool loses no task

Whatever the order of the steps, the tasks that were accepted have been taken in their order or are in
the queue, and each that was taken is with a worker or has run. A worker returns only when the pool is
stopped and its queue is empty. -/

namespace QuasarDB.Core

variable {τ : Type}

/-! ## Workers -/

namespace Worker

/-- The task that the worker has taken and not begun. -/
def holds : Worker τ → List (τ × Nat)
  | taken task => [task]
  | _ => []

/-- The task that the worker has begun and not ended. -/
def isIn : Worker τ → List (τ × Nat)
  | running task => [task]
  | _ => []

/-- The task that the worker has taken and not ended. -/
def task : Worker τ → List (τ × Nat)
  | taken task => [task]
  | running task => [task]
  | _ => []

end Worker

/-- What one member of a list contributes changes with it. -/
theorem flatMap_set_perm {α β : Type} (f : α → List β) {l : List α} {i : Nat} {old : α}
    (h : l[i]? = some old) (new : α) :
    (f new ++ l.flatMap f).Perm (f old ++ (l.set i new).flatMap f) := by
  obtain ⟨hi, rfl⟩ := List.getElem?_eq_some_iff.1 h
  obtain ⟨front, back, hl, -, hset⟩ := @List.exists_of_set _ i new l hi
  rw [hset]
  generalize l[i] = old at hl ⊢
  rw [hl]
  simp only [List.flatMap_append, List.flatMap_cons]
  refine (List.perm_append_comm_assoc _ _ _).trans ?_
  refine ((List.perm_append_comm_assoc _ _ _).append_left _).trans ?_
  exact List.perm_append_comm_assoc _ _ _

/-- A task comes to a worker. -/
theorem perm_begins {β : Type} {done current current' total : List β} {task : β}
    (h : (done ++ current).Perm total) (hmove : ([task] ++ current).Perm ([] ++ current')) :
    (done ++ current').Perm (total ++ [task]) := by
  refine (hmove.symm.append_left done).trans ?_
  refine List.perm_middle.trans ?_
  exact (h.cons task).trans (List.perm_append_singleton task total).symm

/-- A task leaves a worker. -/
theorem perm_ends {β : Type} {done current current' total : List β} {task : β}
    (h : (done ++ current).Perm total) (hmove : ([] ++ current).Perm ([task] ++ current')) :
    (done ++ [task] ++ current').Perm total := by
  rw [List.append_assoc]
  exact (hmove.symm.append_left done).trans h

namespace ThreadPool

/-! ## The invariant -/

/-- What became of the tasks that were accepted. -/
structure Balanced (pool : ThreadPool τ) : Prop where
  order : pool.taken ++ pool.queue = pool.accepted.zipIdx
  began : (pool.began ++ pool.workers.flatMap Worker.holds).Perm pool.taken
  ended : (pool.ended ++ pool.workers.flatMap Worker.isIn).Perm pool.began
  drained : .exited ∈ pool.workers → pool.stopped = true ∧ pool.queue = []
  workers : pool.workers ≠ []

theorem balanced_new (workers : Nat) : (new workers : ThreadPool τ).Balanced where
  order := rfl
  began := by simp [new, List.flatMap_replicate, Worker.holds]
  ended := by simp [new, List.flatMap_replicate, Worker.isIn]
  drained := fun h => absurd (List.eq_of_mem_replicate h) (by simp)
  workers := by
    unfold new
    split <;> simp [*]

/-! ## Steps -/

section Step

variable {pool pool' : ThreadPool τ} {w : Nat} {old new : Worker τ}

/-- The workers after one of them has gone on. -/
theorem put_perm (f : Worker τ → List (τ × Nat)) (h : pool.workers[w]? = some old)
    (new : Worker τ) :
    (f new ++ pool.workers.flatMap f).Perm (f old ++ (pool.put w new).workers.flatMap f) :=
  flatMap_set_perm f h new

theorem put_workers_ne_nil (h : pool.workers ≠ []) (w : Nat) (new : Worker τ) :
    (pool.put w new).workers ≠ [] := by
  intro hnil
  exact h ((List.set_eq_nil_iff _ _).1 hnil)

theorem Balanced.submit (h : pool.Balanced) (task : τ) : (pool.submit task).2.Balanced := by
  unfold ThreadPool.submit
  split
  · exact h
  · refine ⟨?_, h.began, h.ended, fun hexited => ?_, h.workers⟩
    · show pool.taken ++ (pool.queue ++ [(task, pool.accepted.length)]) = _
      rw [← List.append_assoc, h.order, List.zipIdx_append, Nat.zero_add]
      rfl
    · exact absurd (h.drained hexited).1 ‹_›

theorem Balanced.stop (h : pool.Balanced) : pool.stop.Balanced :=
  ⟨h.order, h.began, h.ended, fun hexited => ⟨rfl, (h.drained hexited).2⟩, h.workers⟩

/-- A worker goes on without a task. -/
theorem Balanced.put (h : pool.Balanced) (hold : pool.workers[w]? = some old)
    (hholds : old.holds = new.holds) (hin : old.isIn = new.isIn)
    (hexited : new = .exited → pool.stopped = true ∧ pool.queue = []) :
    (pool.put w new).Balanced where
  order := h.order
  began := by
    have hperm := put_perm Worker.holds hold new
    rw [hholds, List.perm_append_left_iff] at hperm
    exact (hperm.symm.append_left _).trans h.began
  ended := by
    have hperm := put_perm Worker.isIn hold new
    rw [hin, List.perm_append_left_iff] at hperm
    exact (hperm.symm.append_left _).trans h.ended
  drained := by
    intro hmem
    rcases List.mem_or_eq_of_mem_set hmem with hmem | rfl
    · exact h.drained hmem
    · exact hexited rfl
  workers := put_workers_ne_nil h.workers w new

theorem Balanced.take (h : pool.Balanced) (hstep : pool.take w = some pool') : pool'.Balanced := by
  unfold ThreadPool.take at hstep
  split at hstep
  next task queue hold hqueue =>
    cases hstep
    have hperm := put_perm Worker.holds hold (.taken task)
    have hin := put_perm Worker.isIn hold (.taken task)
    have hnone : .exited ∉ pool.workers := by
      intro hexited
      rw [(h.drained hexited).2] at hqueue
      cases hqueue
    refine ⟨?_, ?_, ?_, ?_, put_workers_ne_nil h.workers w _⟩
    · show pool.taken ++ [task] ++ queue = _
      rw [List.append_assoc, List.singleton_append, ← hqueue]
      exact h.order
    · exact perm_begins h.began hperm
    · exact (hin.symm.append_left _).trans h.ended
    · intro hmem
      rcases List.mem_or_eq_of_mem_set hmem with hmem | heq
      · exact absurd hmem hnone
      · cases heq
  next => cases hstep

theorem Balanced.begin (h : pool.Balanced) (hstep : pool.begin w = some pool') :
    pool'.Balanced := by
  unfold ThreadPool.begin at hstep
  split at hstep
  next task hold =>
    cases hstep
    refine ⟨h.order, ?_, ?_, ?_, put_workers_ne_nil h.workers w _⟩
    · exact perm_ends h.began (put_perm Worker.holds hold (.running task))
    · exact perm_begins h.ended (put_perm Worker.isIn hold (.running task))
    · intro hmem
      rcases List.mem_or_eq_of_mem_set hmem with hmem | heq
      · exact h.drained hmem
      · cases heq
  next => cases hstep

theorem Balanced.finish (h : pool.Balanced) (hstep : pool.finish w = some pool') :
    pool'.Balanced := by
  unfold ThreadPool.finish at hstep
  split at hstep
  next task hold =>
    cases hstep
    have hperm := put_perm Worker.holds hold .checking
    refine ⟨h.order, (hperm.symm.append_left _).trans h.began, ?_, ?_,
      put_workers_ne_nil h.workers w _⟩
    · exact perm_ends h.ended (put_perm Worker.isIn hold .checking)
    · intro hmem
      rcases List.mem_or_eq_of_mem_set hmem with hmem | heq
      · exact h.drained hmem
      · cases heq
  next => cases hstep

theorem Balanced.sleep (h : pool.Balanced) (hstep : pool.sleep w = some pool') :
    pool'.Balanced := by
  unfold ThreadPool.sleep at hstep
  split at hstep
  next hold =>
    split at hstep
    · cases hstep
    · cases hstep
      exact h.put hold rfl rfl (fun heq => by cases heq)
  next => cases hstep

theorem Balanced.wake (h : pool.Balanced) (hstep : pool.wake w = some pool') :
    pool'.Balanced := by
  unfold ThreadPool.wake at hstep
  split at hstep
  next hold =>
    cases hstep
    exact h.put hold rfl rfl (fun heq => by cases heq)
  next => cases hstep

theorem Balanced.exit (h : pool.Balanced) (hstep : pool.exit w = some pool') :
    pool'.Balanced := by
  unfold ThreadPool.exit at hstep
  split at hstep
  next hold =>
    split at hstep
    next hready =>
      cases hstep
      rw [Bool.and_eq_true, List.isEmpty_iff] at hready
      exact h.put hold rfl rfl (fun _ => hready)
    next => cases hstep
  next => cases hstep

theorem Balanced.step (h : pool.Balanced) {event : Event τ} (hstep : pool.step event = some pool') :
    pool'.Balanced := by
  cases event with
  | submit task =>
      cases hstep
      exact h.submit task
  | stop =>
      cases hstep
      exact h.stop
  | sleep w => exact h.sleep hstep
  | wake w => exact h.wake hstep
  | take w => exact h.take hstep
  | begin w => exact h.begin hstep
  | finish w => exact h.finish hstep
  | exit w => exact h.exit hstep

end Step

theorem run_eq_foldlM (events : List (Event τ)) (pool : ThreadPool τ) :
    pool.run events = events.foldlM (fun pool event => pool.step event) pool := by
  induction events generalizing pool with
  | nil => rfl
  | cons event events ih =>
      rw [run, List.foldlM_cons]
      exact congrArg _ (funext ih)

theorem Balanced.run {pool pool' : ThreadPool τ} (h : pool.Balanced) {events : List (Event τ)}
    (hrun : pool.run events = some pool') : pool'.Balanced := by
  rw [run_eq_foldlM] at hrun
  refine List.foldlM_preserves (P := fun _ pool => pool.Balanced) ?_ h hrun
  intro _ _ _ _ hbalanced hstep
  exact hbalanced.step hstep

/-! ## After the stop -/

/-- What a worker does leaves the log of accepted tasks alone, and whether the pool is stopped. -/
structure SameIntake (pool pool' : ThreadPool τ) : Prop where
  stopped : pool'.stopped = pool.stopped
  accepted : pool'.accepted = pool.accepted

section SameIntake

variable {pool pool' : ThreadPool τ} {w : Nat}

theorem sleep_intake (h : pool.sleep w = some pool') : SameIntake pool pool' := by
  unfold ThreadPool.sleep at h
  split at h
  · split at h <;> cases h
    exact ⟨rfl, rfl⟩
  · cases h

theorem wake_intake (h : pool.wake w = some pool') : SameIntake pool pool' := by
  unfold ThreadPool.wake at h
  split at h <;> cases h
  exact ⟨rfl, rfl⟩

theorem take_intake (h : pool.take w = some pool') : SameIntake pool pool' := by
  unfold ThreadPool.take at h
  split at h <;> cases h
  exact ⟨rfl, rfl⟩

theorem begin_intake (h : pool.begin w = some pool') : SameIntake pool pool' := by
  unfold ThreadPool.begin at h
  split at h <;> cases h
  exact ⟨rfl, rfl⟩

theorem finish_intake (h : pool.finish w = some pool') : SameIntake pool pool' := by
  unfold ThreadPool.finish at h
  split at h <;> cases h
  exact ⟨rfl, rfl⟩

theorem exit_intake (h : pool.exit w = some pool') : SameIntake pool pool' := by
  unfold ThreadPool.exit at h
  split at h
  · split at h <;> cases h
    exact ⟨rfl, rfl⟩
  · cases h

end SameIntake

theorem submit_stopped {pool : ThreadPool τ} (h : pool.stopped = true) (task : τ) :
    pool.submit task = (false, pool) := by
  rw [submit, if_pos h]

/-- A pool that is stopped stays so and accepts nothing. -/
theorem step_stopped {pool pool' : ThreadPool τ} {event : Event τ} (h : pool.stopped = true)
    (hstep : pool.step event = some pool') : pool'.stopped = true ∧ pool'.accepted = pool.accepted := by
  have hworker : SameIntake pool pool' → pool'.stopped = true ∧ pool'.accepted = pool.accepted :=
    fun hintake => ⟨hintake.stopped.trans h, hintake.accepted⟩
  cases event with
  | submit task =>
      cases hstep
      rw [submit_stopped h]
      exact ⟨h, rfl⟩
  | stop =>
      cases hstep
      exact ⟨rfl, rfl⟩
  | sleep w => exact hworker (sleep_intake hstep)
  | wake w => exact hworker (wake_intake hstep)
  | take w => exact hworker (take_intake hstep)
  | begin w => exact hworker (begin_intake hstep)
  | finish w => exact hworker (finish_intake hstep)
  | exit w => exact hworker (exit_intake hstep)

theorem run_stopped {pool pool' : ThreadPool τ} {events : List (Event τ)} (h : pool.stopped = true)
    (hrun : pool.run events = some pool') : pool'.accepted = pool.accepted := by
  rw [run_eq_foldlM] at hrun
  have hkept := List.foldlM_preserves
    (P := fun _ later => later.stopped = true ∧ later.accepted = pool.accepted) ?_ ⟨h, rfl⟩ hrun
  · exact hkept.2
  · rintro event _ middle later ⟨hstopped, haccepted⟩ hstep
    obtain ⟨hstill, hsame⟩ := step_stopped hstopped hstep
    exact ⟨hstill, hsame.trans haccepted⟩

/-! ## Unfinished tasks -/

/-- The tasks that were accepted and have not ended. -/
def unfinished (pool : ThreadPool τ) : List (τ × Nat) :=
  pool.queue ++ pool.workers.flatMap Worker.task

section Unfinished

variable {pool pool' : ThreadPool τ} {w : Nat} {old new : Worker τ} {task : τ × Nat}

theorem put_unfinished (hold : pool.workers[w]? = some old) (htask : old.task = new.task) :
    (pool.put w new).unfinished.Perm pool.unfinished := by
  have hperm := put_perm Worker.task hold new
  rw [htask, List.perm_append_left_iff] at hperm
  exact hperm.symm.append_left _

theorem submit_unfinished (h : pool.stopped = false) (task : τ) :
    (pool.submit task).2.unfinished.Perm ((task, pool.accepted.length) :: pool.unfinished) := by
  rw [submit, h, if_neg Bool.false_ne_true]
  show (pool.queue ++ [_] ++ pool.workers.flatMap Worker.task).Perm _
  rw [List.append_assoc]
  exact List.perm_middle

theorem sleep_unfinished (h : pool.sleep w = some pool') :
    pool'.unfinished.Perm pool.unfinished := by
  unfold ThreadPool.sleep at h
  split at h
  next hold =>
    split at h <;> cases h
    exact put_unfinished hold rfl
  next => cases h

theorem wake_unfinished (h : pool.wake w = some pool') :
    pool'.unfinished.Perm pool.unfinished := by
  unfold ThreadPool.wake at h
  split at h
  next hold =>
    cases h
    exact put_unfinished hold rfl
  next => cases h

theorem exit_unfinished (h : pool.exit w = some pool') :
    pool'.unfinished.Perm pool.unfinished := by
  unfold ThreadPool.exit at h
  split at h
  next hold =>
    split at h <;> cases h
    exact put_unfinished hold rfl
  next => cases h

theorem take_unfinished (h : pool.take w = some pool') :
    pool'.unfinished.Perm pool.unfinished := by
  unfold ThreadPool.take at h
  split at h
  next task queue hold hqueue =>
    cases h
    have hperm := put_perm Worker.task hold (.taken task)
    show (queue ++ (pool.put w (.taken task)).workers.flatMap Worker.task).Perm _
    rw [unfinished, hqueue, List.cons_append]
    exact (hperm.symm.append_left queue).trans List.perm_middle
  next => cases h

theorem begin_unfinished (h : pool.begin w = some pool') :
    pool'.unfinished.Perm pool.unfinished := by
  unfold ThreadPool.begin at h
  split at h
  next task hold =>
    cases h
    have hput : (pool.put w (.running task)).unfinished.Perm pool.unfinished :=
      put_unfinished hold rfl
    exact hput
  next => cases h

theorem finish_unfinished (hold : pool.workers[w]? = some (.running task))
    (h : pool.finish w = some pool') : (task :: pool'.unfinished).Perm pool.unfinished := by
  unfold ThreadPool.finish at h
  rw [hold] at h
  cases h
  have hperm := put_perm Worker.task hold .checking
  show (task :: (pool.queue ++ (pool.put w .checking).workers.flatMap Worker.task)).Perm _
  exact List.perm_middle.symm.trans (hperm.symm.append_left _)

/-- A pool that is stopped has no other tasks to finish than before. -/
theorem step_unfinished_subset {event : Event τ} (h : pool.stopped = true)
    (hstep : pool.step event = some pool') : pool'.unfinished ⊆ pool.unfinished := by
  cases event with
  | submit task =>
      cases hstep
      rw [submit_stopped h]
      exact fun task htask => htask
  | stop =>
      cases hstep
      exact fun task htask => htask
  | sleep w => exact (sleep_unfinished hstep).subset
  | wake w => exact (wake_unfinished hstep).subset
  | take w => exact (take_unfinished hstep).subset
  | begin w => exact (begin_unfinished hstep).subset
  | finish w =>
      cases hold : pool.workers[w]? with
      | none =>
          rw [step, ThreadPool.finish, hold] at hstep
          cases hstep
      | some old =>
          cases old with
          | running task =>
              exact fun other hother =>
                (finish_unfinished hold hstep).subset (List.mem_cons_of_mem _ hother)
          | _ =>
              rw [step, ThreadPool.finish, hold] at hstep
              cases hstep
  | exit w => exact (exit_unfinished hstep).subset

end Unfinished

/-- Only a worker that has taken a task begins one. -/
theorem step_began {pool pool' : ThreadPool τ} {event : Event τ}
    (hstep : pool.step event = some pool') (hevent : ∀ w, event ≠ .begin w) :
    pool'.began = pool.began := by
  cases event with
  | submit task =>
      cases hstep
      unfold ThreadPool.submit
      split <;> rfl
  | stop =>
      cases hstep
      rfl
  | sleep w =>
      rw [step, ThreadPool.sleep] at hstep
      split at hstep
      · split at hstep <;> cases hstep
        rfl
      · cases hstep
  | wake w =>
      rw [step, ThreadPool.wake] at hstep
      split at hstep <;> cases hstep
      rfl
  | take w =>
      rw [step, ThreadPool.take] at hstep
      split at hstep <;> cases hstep
      rfl
  | begin w => exact absurd rfl (hevent w)
  | finish w =>
      rw [step, ThreadPool.finish] at hstep
      split at hstep <;> cases hstep
      rfl
  | exit w =>
      rw [step, ThreadPool.exit] at hstep
      split at hstep
      · split at hstep <;> cases hstep
        rfl
      · cases hstep

theorem begin_eq {pool : ThreadPool τ} {w : Nat} {task : τ × Nat}
    (h : pool.workers[w]? = some (.taken task)) :
    pool.begin w = some { pool.put w (.running task) with began := pool.began ++ [task] } := by
  rw [ThreadPool.begin, h]

theorem finish_eq {pool : ThreadPool τ} {w : Nat} {task : τ × Nat}
    (h : pool.workers[w]? = some (.running task)) :
    pool.finish w = some { pool.put w .checking with ended := pool.ended ++ [task] } := by
  rw [ThreadPool.finish, h]

theorem take_eq {pool : ThreadPool τ} {w : Nat} {task : τ × Nat} {queue : List (τ × Nat)}
    (h : pool.workers[w]? = some .checking) (hqueue : pool.queue = task :: queue) :
    pool.take w = some { pool.put w (.taken task) with queue, taken := pool.taken ++ [task] } := by
  rw [ThreadPool.take, h, hqueue]

theorem wake_eq {pool : ThreadPool τ} {w : Nat} (h : pool.workers[w]? = some .asleep) :
    pool.wake w = some (pool.put w .checking) := by
  rw [ThreadPool.wake, h]

theorem put_getElem? {pool : ThreadPool τ} {w : Nat} {old : Worker τ}
    (h : pool.workers[w]? = some old) (new : Worker τ) :
    (pool.put w new).workers[w]? = some new := by
  obtain ⟨hw, -⟩ := List.getElem?_eq_some_iff.1 h
  exact List.getElem?_set_self hw

/-! ## Every task -/

/-- No two tasks that were accepted are the same. -/
theorem nodup_zipIdx (l : List τ) : l.zipIdx.Nodup := by
  refine List.Nodup.of_map Prod.snd ?_
  rw [List.zipIdx_map_snd]
  exact List.nodup_range' ..

theorem flatMap_exited {f : Worker τ → List (τ × Nat)} (hf : f .exited = [])
    {workers : List (Worker τ)} (h : ∀ worker ∈ workers, worker = .exited) :
    workers.flatMap f = [] := by
  rw [List.flatMap_eq_nil_iff]
  intro worker hworker
  rw [h worker hworker, hf]

/-- In every run, no task begins twice, the tasks are taken in the order they were accepted, none is
    accepted after the stop, and when the workers have returned all of them have run. -/
theorem run_accounts (workers : Nat) {events : List (Event τ)} {pool : ThreadPool τ}
    (h : (new workers).run events = some pool) :
    pool.began.Nodup ∧ pool.taken <+: pool.accepted.zipIdx ∧
      (pool.stopped = true → (∀ task, (pool.submit task).1 = false) ∧
        ∀ more pool', pool.run more = some pool' → pool'.accepted = pool.accepted) ∧
      ((∀ worker ∈ pool.workers, worker = .exited) → pool.queue = [] ∧
        pool.began.Perm pool.accepted.zipIdx ∧ pool.ended.Perm pool.accepted.zipIdx) := by
  have hbalanced := (balanced_new workers).run h
  have hprefix : pool.taken <+: pool.accepted.zipIdx := ⟨pool.queue, hbalanced.order⟩
  refine ⟨?_, hprefix, fun hstopped => ⟨fun task => ?_, fun more pool' => run_stopped hstopped⟩, ?_⟩
  · have htaken : pool.taken.Nodup := (nodup_zipIdx _).sublist hprefix.sublist
    exact (List.nodup_append.1 (hbalanced.began.nodup_iff.2 htaken)).1
  · rw [submit_stopped hstopped]
  · intro hexited
    obtain ⟨worker, hworker⟩ := List.exists_mem_of_ne_nil _ hbalanced.workers
    have hqueue := (hbalanced.drained (hexited worker hworker ▸ hworker)).2
    have horder := hbalanced.order
    have hbegan := hbalanced.began
    have hended := hbalanced.ended
    rw [hqueue, List.append_nil] at horder
    rw [flatMap_exited rfl hexited, List.append_nil, horder] at hbegan
    rw [flatMap_exited rfl hexited, List.append_nil] at hended
    exact ⟨hqueue, hbegan, hended.trans hbegan⟩

/-- Two workers share three tasks, one of them submitted while the others run, and return. -/
def busyRun : List (Event String) :=
  [.sleep 0, .submit "a", .submit "b", .wake 0, .take 1, .take 0, .begin 0, .submit "c", .begin 1,
    .finish 0, .stop, .take 0, .finish 1, .exit 1, .begin 0, .finish 0, .exit 0]

def busyEnd : ThreadPool String where
  queue := []
  stopped := true
  workers := [.exited, .exited]
  accepted := ["a", "b", "c"]
  taken := [("a", 0), ("b", 1), ("c", 2)]
  began := [("b", 1), ("a", 0), ("c", 2)]
  ended := [("b", 1), ("a", 0), ("c", 2)]

theorem run_accounts_busyRun :
    (new 2).run busyRun = some busyEnd ∧ busyEnd.ended.Perm busyEnd.accepted.zipIdx := by
  have hrun : (new 2).run busyRun = some busyEnd := rfl
  exact ⟨hrun, ((run_accounts 2 hrun).2.2.2 (by simp [busyEnd])).2.2⟩

end ThreadPool

end QuasarDB.Core
