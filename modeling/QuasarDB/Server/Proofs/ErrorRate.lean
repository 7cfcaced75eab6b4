import QuasarDB.Library.LastValues
import QuasarDB.Server.Telemetry

set_option autoImplicit false

/-! # Errors against requests

The requests of the last minute are differences of `total_requests_`, which `OutputLoop` loads when
an iteration begins; the errors are what it finds in `current_second_errors_` some steps later. The
same program on unbounded counters says how many there are, and the 64-bit counters are these modulo
2^64. What keeps the errors below the requests is an account per iteration: the errors that are
counted with one iteration and whose requests will be counted with the next. -/

namespace QuasarDB.Server

open History

/-! ## Other counters -/

section Map

variable {α β : Type} (f : α → β)

def RollingWindow.map {n : Nat} (window : RollingWindow α n) : RollingWindow β n :=
  { slots := window.slots.map f, index := window.index }

def LoopPosition.map : LoopPosition α → LoopPosition β
  | .waiting => .waiting
  | .loaded rps => .loaded (f rps)
  | .rpsTicked rps => .rpsTicked (f rps)
  | .durationTaken rps duration => .durationTaken (f rps) (f duration)
  | .durationTicked rps => .durationTicked (f rps)
  | .requestsTaken rps requests => .requestsTaken (f rps) (f requests)
  | .requestsTicked rps => .requestsTicked (f rps)
  | .errorsTaken rps errors => .errorsTaken (f rps) (f errors)
  | .errorsTicked rps => .errorsTicked (f rps)

def Telemetry.map (t : Telemetry α) : Telemetry β :=
  { totalRequests := f t.totalRequests
    totalErrors := f t.totalErrors
    currentSecondRequests := f t.currentSecondRequests
    currentSecondErrors := f t.currentSecondErrors
    currentSecondDurationMs := f t.currentSecondDurationMs
    currentRps := f t.currentRps
    lastTotalRequests := f t.lastTotalRequests
    rps10min := t.rps10min.map f
    durationSum10s := t.durationSum10s.map f
    durationCount10s := t.durationCount10s.map f
    errorSum60s := t.errorSum60s.map f
    requestSum60s := t.requestSum60s.map f
    position := t.position.map f }

theorem RollingWindow.map_tick {n : Nat} (window : RollingWindow α n) (value : α) :
    (window.tick value).map f = (window.map f).tick (f value) := by
  rw [tick, map, Vector.map_set]
  rfl

theorem RollingWindow.map_new {n : Nat} [NeZero n] [Zero α] [Zero β] (hf : f 0 = 0) :
    (new n : RollingWindow α n).map f = new n := by
  rw [new, map, Vector.map_replicate, hf]
  rfl

end Map

namespace RollingWindow

variable {n : Nat}

theorem sum_eq (window : RollingWindow ℕ n) : window.sum = window.slots.toList.sum := by
  rw [sum, ← Vector.foldl_toList, List.sum_eq_foldl]

/-- Adding up the slots of 64 bits. -/
theorem sum_map_ofNat (window : RollingWindow ℕ n) :
    (window.map UInt64.ofNat).sum = UInt64.ofNat window.sum := by
  have hfold : ∀ (l : List ℕ) (m : ℕ),
      (l.map UInt64.ofNat).foldl (· + ·) (UInt64.ofNat m) = UInt64.ofNat (l.foldl (· + ·) m) := by
    intro l
    induction l with
    | nil => exact fun _ => rfl
    | cons x l ih =>
        intro m
        rw [List.map_cons, List.foldl_cons, List.foldl_cons, ← UInt64.ofNat_add, ih]
  rw [sum, sum, ← Vector.foldl_toList, ← Vector.foldl_toList, map, Vector.toList_map]
  exact hfold _ 0

/-- The window has the last values of a history in its slots. -/
def Holds (window : RollingWindow ℕ n) (history : List ℕ) : Prop :=
  History.Holds 0 window.slots.toList window.index history

theorem holds_new [NeZero n] : (new n : RollingWindow ℕ n).Holds [] := by
  rw [Holds, new, Vector.toList_replicate]
  exact holds_replicate _ _ _

theorem Holds.tick {window : RollingWindow ℕ n} {history : List ℕ} (h : window.Holds history)
    (value : ℕ) : (window.tick value).Holds (value :: history) := by
  have hset := History.Holds.set h (by simp) value
  rw [Vector.length_toList] at hset
  rw [Holds, RollingWindow.tick, Vector.toList_set]
  exact hset

theorem Holds.sum_eq {window : RollingWindow ℕ n} {history : List ℕ} (h : window.Holds history) :
    window.sum = (history.take n).sum := by
  rw [RollingWindow.sum_eq, History.Holds.sum_eq h, Vector.length_toList]

end RollingWindow

namespace Telemetry

/-! ## The exact counters -/

/-- The step with counters that have no bound. -/
def exactStep (t : Telemetry ℕ) : Event → Telemetry ℕ
  | .recordRequest durationMs success => t.recordRequest durationMs.toNat success
  | .outputLoop => t.outputLoop

def exactly : List Event → Telemetry ℕ
  | [] => new
  | event :: past => (exactly past).exactStep event

/-- What fits into 64 bits of every counter. -/
def truncated (t : Telemetry ℕ) : Telemetry UInt64 := t.map UInt64.ofNat

theorem truncated_recordRequest (t : Telemetry ℕ) (durationMs : UInt64) (success : Bool) :
    (t.recordRequest durationMs.toNat success).truncated
      = t.truncated.recordRequest durationMs success := by
  cases success <;> simp [recordRequest, truncated, map]

/-- The only difference that is taken is that of two totals, the older one first. -/
theorem truncated_outputLoop (t : Telemetry ℕ) (h : t.lastTotalRequests ≤ t.totalRequests) :
    t.outputLoop.truncated = t.truncated.outputLoop := by
  rw [outputLoop, outputLoop]
  cases hposition : t.position <;>
    simp [truncated, map, LoopPosition.map, hposition, RollingWindow.map_tick, UInt64.ofNat_sub h]

theorem lastTotal_le_exactStep {t : Telemetry ℕ} (h : t.lastTotalRequests ≤ t.totalRequests)
    (event : Event) : (t.exactStep event).lastTotalRequests ≤ (t.exactStep event).totalRequests := by
  cases event with
  | recordRequest durationMs success =>
      cases success <;> exact Nat.le_succ_of_le h
  | outputLoop =>
      rw [exactStep, outputLoop]
      cases t.position <;> first | exact le_rfl | exact h

theorem lastTotal_le (past : List Event) :
    (exactly past).lastTotalRequests ≤ (exactly past).totalRequests := by
  induction past with
  | nil => exact le_rfl
  | cons event past ih => exact lastTotal_le_exactStep ih event

/-- The counters of the code are the exact ones modulo 2^64. -/
theorem after_eq_truncated (past : List Event) : after past = (exactly past).truncated := by
  induction past with
  | nil =>
      simp only [after, exactly, truncated, map, new, RollingWindow.map_new UInt64.ofNat rfl]
      rfl
  | cons event past ih =>
      rw [after, ih, exactly]
      cases event with
      | recordRequest durationMs success => exact (truncated_recordRequest _ _ _).symm
      | outputLoop => exact (truncated_outputLoop _ (lastTotal_le past)).symm

/-! ## Runs -/

end Telemetry

/-- The total is loaded and the requests of the second are not yet exchanged. -/
def LoopPosition.beforeExchange {α : Type} : LoopPosition α → Bool
  | .loaded _ | .rpsTicked _ | .durationTaken _ _ | .durationTicked _ => true
  | _ => false

@[simp] theorem LoopPosition.beforeExchange_map {α β : Type} (f : α → β) (p : LoopPosition α) :
    (p.map f).beforeExchange = p.beforeExchange := by
  cases p <;> rfl

/-- The local variable, where the total is loaded. -/
def LoopPosition.rps {α : Type} : LoopPosition α → Option α
  | .waiting => none
  | .loaded rps | .rpsTicked rps | .durationTaken rps _ | .durationTicked rps | .requestsTaken rps _
  | .requestsTicked rps | .errorsTaken rps _ | .errorsTicked rps => some rps

/-- The steps since the last load of the total, that one too. -/
def LoopPosition.sinceLoad {α : Type} : LoopPosition α → ℕ
  | .loaded _ => 1
  | .rpsTicked _ => 2
  | .durationTaken _ _ => 3
  | .durationTicked _ => 4
  | .requestsTaken _ _ => 5
  | .requestsTicked _ => 6
  | .errorsTaken _ _ => 7
  | .errorsTicked _ => 8
  | .waiting => 9

theorem LoopPosition.sinceLoad_pos {α : Type} (p : LoopPosition α) : 0 < p.sinceLoad := by
  cases p <;> exact Nat.succ_pos _

namespace Telemetry

/-- The requests recorded since the `n`-th last step of `OutputLoop`, of which an iteration has
    nine. -/
def recordsSince : ℕ → List Event → ℕ
  | 0, _ => 0
  | _ + 1, [] => 0
  | n + 1, .recordRequest _ _ :: past => recordsSince (n + 1) past + 1
  | n + 1, .outputLoop :: past => recordsSince n past

/-- A next event that does no harm: no request fails between the load of the total and the exchange
    of the requests of the second, and no 61 iterations see as many requests as 64 bits can count.
    -/
structure Harmless (past : List Event) (event : Event) : Prop where
  failure : ∀ durationMs, event = .recordRequest durationMs false →
    (after past).position.beforeExchange = false
  rate : recordsSince (9 * 61) (event :: past) < 2 ^ 64

/-- A run whose events are all harmless. -/
def HarmlessRun : List Event → Prop
  | [] => True
  | event :: past => HarmlessRun past ∧ Harmless past event

/-! ## The account of an iteration -/

/-- What came since the total was loaded. -/
def pending (t : Telemetry ℕ) : ℕ := t.totalRequests - t.lastTotalRequests

/-- The requests and the errors of the iterations so far, as the windows see them. In `excess` are
    the errors among the last `errors` whose requests are not among the last `requests`; in `late`,
    once the requests of the second are exchanged, the errors that came after that. -/
def Balanced (t : Telemetry ℕ) (requests errors : List ℕ) : Prop :=
  match t.position with
  | .waiting => ∃ excess, SumsWithin excess errors requests ∧
      excess + t.currentSecondErrors ≤ t.currentSecondRequests ∧
      t.currentSecondRequests ≤ t.pending
  | .loaded rps | .rpsTicked rps | .durationTaken rps _ | .durationTicked rps =>
      ∃ excess, SumsWithin excess errors requests ∧ excess + t.currentSecondErrors ≤ rps
  | .requestsTaken rps _ | .requestsTicked rps =>
      ∃ excess early late, SumsWithin excess errors requests ∧ excess + early ≤ rps ∧
        t.currentSecondErrors = early + late ∧ late ≤ t.currentSecondRequests ∧
        t.currentSecondRequests ≤ t.pending
  | .errorsTaken rps taken =>
      ∃ excess early late, SumsWithin excess errors requests ∧ excess + early ≤ rps ∧
        taken = early + late ∧ late + t.currentSecondErrors ≤ t.currentSecondRequests ∧
        t.currentSecondRequests ≤ t.pending
  | .errorsTicked rps =>
      ∃ excess early late before, errors = (early + late) :: before ∧
        SumsWithin excess before requests ∧ excess + early ≤ rps ∧
        late + t.currentSecondErrors ≤ t.currentSecondRequests ∧
        t.currentSecondRequests ≤ t.pending

/-- The last iterations have counted no more requests than were recorded in them. -/
def Recent (past : List Event) (t : Telemetry ℕ) (requests : List ℕ) : Prop :=
  ∀ n, ((t.position.rps.toList ++ requests).take n).sum + t.pending
    ≤ recordsSince (9 * n + t.position.sinceLoad) past

/-- The windows hold these histories, which balance. -/
structure Account (past : List Event) (t : Telemetry ℕ) (requests errors : List ℕ) : Prop where
  total : t.lastTotalRequests ≤ t.totalRequests
  requestWindow : t.requestSum60s.Holds requests
  errorWindow : t.errorSum60s.Holds errors
  recent : Recent past t requests
  balanced : t.Balanced requests errors

theorem account_new : Account [] new [] [] := by
  refine ⟨le_rfl, RollingWindow.holds_new, RollingWindow.holds_new, ?_, 0, sumsWithin_nil, le_rfl,
    le_rfl⟩
  intro n
  simp [new, pending, LoopPosition.rps]

section Record

variable (t : Telemetry ℕ) (durationMs : ℕ) (success : Bool)

@[simp] theorem recordRequest_position :
    (t.recordRequest durationMs success).position = t.position := by
  cases success <;> rfl

@[simp] theorem recordRequest_currentSecondRequests :
    (t.recordRequest durationMs success).currentSecondRequests = t.currentSecondRequests + 1 := by
  cases success <;> rfl

@[simp] theorem recordRequest_currentSecondErrors :
    (t.recordRequest durationMs success).currentSecondErrors
      = t.currentSecondErrors + (!success).toNat := by
  cases success <;> rfl

@[simp] theorem recordRequest_totalRequests :
    (t.recordRequest durationMs success).totalRequests = t.totalRequests + 1 := by
  cases success <;> rfl

@[simp] theorem recordRequest_lastTotalRequests :
    (t.recordRequest durationMs success).lastTotalRequests = t.lastTotalRequests := by
  cases success <;> rfl

@[simp] theorem recordRequest_requestSum60s :
    (t.recordRequest durationMs success).requestSum60s = t.requestSum60s := by
  cases success <;> rfl

@[simp] theorem recordRequest_errorSum60s :
    (t.recordRequest durationMs success).errorSum60s = t.errorSum60s := by
  cases success <;> rfl

end Record

theorem pending_recordRequest {t : Telemetry ℕ} (h : t.lastTotalRequests ≤ t.totalRequests)
    (durationMs : ℕ) (success : Bool) :
    (t.recordRequest durationMs success).pending = t.pending + 1 := by
  simp only [pending, recordRequest_totalRequests, recordRequest_lastTotalRequests]
  omega

theorem recordsSince_recordRequest {n : ℕ} (hn : 0 < n) (durationMs : UInt64) (success : Bool)
    (past : List Event) :
    recordsSince n (.recordRequest durationMs success :: past) = recordsSince n past + 1 := by
  cases n with
  | zero => cases hn
  | succ n => rfl

theorem Account.recent_recordRequest {past : List Event} {t : Telemetry ℕ} {requests errors : List ℕ}
    (h : Account past t requests errors) (durationMs : UInt64) (success : Bool) :
    Recent (.recordRequest durationMs success :: past)
      (t.recordRequest durationMs.toNat success) requests := by
  intro n
  have hpos := t.position.sinceLoad_pos
  have hrecent := h.recent n
  rw [pending_recordRequest h.total, recordRequest_position,
    recordsSince_recordRequest (by omega)]
  omega

/-- A request that fails between the load and the exchange is the only one that does not balance. -/
theorem Account.recordRequest {past : List Event} {t : Telemetry ℕ} {requests errors : List ℕ}
    (h : Account past t requests errors) (durationMs : UInt64) {success : Bool}
    (hfailure : success = false → t.position.beforeExchange = false) :
    Account (.recordRequest durationMs success :: past) (t.recordRequest durationMs.toNat success)
      requests errors := by
  have hpending := pending_recordRequest h.total durationMs.toNat success
  have hone : (!success).toNat ≤ 1 := Bool.toNat_le _
  refine ⟨?_, by simpa using h.requestWindow, by simpa using h.errorWindow,
    h.recent_recordRequest durationMs success, ?_⟩
  · have htotal := h.total
    simp only [recordRequest_totalRequests, recordRequest_lastTotalRequests]
    omega
  have hbalanced := h.balanced
  have hsuccess : t.position.beforeExchange = true → (!success).toNat = 0 := by
    intro hgap
    cases success with
    | true => rfl
    | false =>
        rw [hfailure rfl] at hgap
        cases hgap
  rw [Balanced] at hbalanced ⊢
  rw [hpending]
  simp only [recordRequest_position, recordRequest_currentSecondRequests,
    recordRequest_currentSecondErrors]
  cases hposition : t.position with
  | waiting =>
      rw [hposition] at hbalanced
      obtain ⟨excess, hwithin, hcurrent, hrequests⟩ := hbalanced
      exact ⟨excess, hwithin, by omega, by omega⟩
  | requestsTaken rps _ =>
      rw [hposition] at hbalanced
      obtain ⟨excess, early, late, hwithin, hrps, hcurrent, hlate, hrequests⟩ := hbalanced
      exact ⟨excess, early, late + (!success).toNat, hwithin, hrps, by omega, by omega, by omega⟩
  | requestsTicked rps =>
      rw [hposition] at hbalanced
      obtain ⟨excess, early, late, hwithin, hrps, hcurrent, hlate, hrequests⟩ := hbalanced
      exact ⟨excess, early, late + (!success).toNat, hwithin, hrps, by omega, by omega, by omega⟩
  | errorsTaken rps taken =>
      rw [hposition] at hbalanced
      obtain ⟨excess, early, late, hwithin, hrps, htaken, hlate, hrequests⟩ := hbalanced
      exact ⟨excess, early, late, hwithin, hrps, htaken, by omega, by omega⟩
  | errorsTicked rps =>
      rw [hposition] at hbalanced
      obtain ⟨excess, early, late, before, rfl, hwithin, hrps, hlate, hrequests⟩ := hbalanced
      exact ⟨excess, early, late, before, rfl, hwithin, hrps, by omega, by omega⟩
  | _ =>
      -- a request that does not fail
      rw [hposition] at hbalanced hsuccess
      rw [hsuccess rfl]
      exact hbalanced

/-- A step of the output thread; with the last one of an iteration its account is closed. -/
theorem Account.outputLoop {past : List Event} {t : Telemetry ℕ} {requests errors : List ℕ}
    (h : Account past t requests errors) :
    ∃ requests' errors', Account (.outputLoop :: past) t.outputLoop requests' errors' := by
  obtain ⟨htotal, hrequests, herrors, hrecent, hbalanced⟩ := h
  rw [Balanced] at hbalanced
  rw [Recent] at hrecent
  rw [Telemetry.outputLoop]
  cases hposition : t.position with
  | waiting =>
      rw [hposition] at hbalanced hrecent
      obtain ⟨excess, hwithin, hcurrent, hpending⟩ := hbalanced
      refine ⟨requests, errors, le_rfl, hrequests, herrors, ?_, excess, hwithin,
        hcurrent.trans hpending⟩
      -- what was pending is the first of the counts now
      intro n
      cases n with
      | zero => simp [pending]
      | succ n =>
          change (t.pending :: requests.take n).sum + (t.totalRequests - t.totalRequests)
            ≤ recordsSince (9 * n + 9) past
          rw [Nat.sub_self, Nat.add_zero, List.sum_cons, Nat.add_comm]
          exact hrecent n
  | loaded rps =>
      rw [hposition] at hbalanced hrecent
      exact ⟨requests, errors, htotal, hrequests, herrors, hrecent, hbalanced⟩
  | rpsTicked rps =>
      rw [hposition] at hbalanced hrecent
      exact ⟨requests, errors, htotal, hrequests, herrors, hrecent, hbalanced⟩
  | durationTaken rps duration =>
      rw [hposition] at hbalanced hrecent
      exact ⟨requests, errors, htotal, hrequests, herrors, hrecent, hbalanced⟩
  | durationTicked rps =>
      rw [hposition] at hbalanced hrecent
      obtain ⟨excess, hwithin, hrps⟩ := hbalanced
      exact ⟨requests, errors, htotal, hrequests, herrors, hrecent, excess, t.currentSecondErrors, 0,
        hwithin, hrps, rfl, le_rfl, Nat.zero_le _⟩
  | requestsTaken rps _ =>
      rw [hposition] at hbalanced hrecent
      exact ⟨requests, errors, htotal, hrequests, herrors, hrecent, hbalanced⟩
  | requestsTicked rps =>
      rw [hposition] at hbalanced hrecent
      obtain ⟨excess, early, late, hwithin, hrps, hcurrent, hlate, hpending⟩ := hbalanced
      exact ⟨requests, errors, htotal, hrequests, herrors, hrecent, excess, early, late, hwithin, hrps,
        hcurrent, hlate, hpending⟩
  | errorsTaken rps taken =>
      rw [hposition] at hbalanced hrecent
      obtain ⟨excess, early, late, hwithin, hrps, rfl, hlate, hpending⟩ := hbalanced
      exact ⟨requests, (early + late) :: errors, htotal, hrequests, herrors.tick _, hrecent, excess,
        early, late, errors, rfl, hwithin, hrps, hlate, hpending⟩
  | errorsTicked rps =>
      rw [hposition] at hbalanced hrecent
      obtain ⟨excess, early, late, before, rfl, hwithin, hrps, hlate, hpending⟩ := hbalanced
      exact ⟨rps :: requests, (early + late) :: before, htotal, hrequests.tick rps, herrors, hrecent,
        late, hwithin.cons (by omega), hlate, hpending⟩

/-! ## The error rate -/

theorem account_exactly {past : List Event} (h : HarmlessRun past) :
    ∃ requests errors, Account past (exactly past) requests errors := by
  induction past with
  | nil => exact ⟨[], [], account_new⟩
  | cons event past ih =>
      obtain ⟨hpast, hevent⟩ := h
      obtain ⟨requests, errors, haccount⟩ := ih hpast
      cases event with
      | outputLoop => exact haccount.outputLoop
      | recordRequest durationMs success =>
          refine ⟨requests, errors, haccount.recordRequest durationMs ?_⟩
          rintro rfl
          have hposition := hevent.failure durationMs rfl
          rw [after_eq_truncated] at hposition
          simpa [truncated, map] using hposition

/-- Between two iterations the errors balance, and the requests are those of the last 60 iterations
    and of what came after. -/
theorem Account.sums {past : List Event} {t : Telemetry ℕ} {requests errors : List ℕ}
    (h : Account past t requests errors) (hwaiting : t.position = .waiting) :
    t.errorRateErrors ≤ t.errorRateRequests ∧
      t.errorRateRequests ≤ recordsSince (9 * 61) past := by
  obtain ⟨htotal, hrequests, herrors, hrecent, hbalanced⟩ := h
  rw [Balanced, hwaiting] at hbalanced
  rw [Recent, hwaiting] at hrecent
  obtain ⟨excess, hwithin, hcurrent, hpending⟩ := hbalanced
  rw [errorRateErrors, errorRateRequests, hrequests.sum_eq, herrors.sum_eq]
  constructor
  · have := hwithin 60
    omega
  · have hsixty : (requests.take 60).sum + t.pending ≤ recordsSince (9 * 61) past := hrecent 60
    omega

theorem truncated_errorRateErrors (t : Telemetry ℕ) :
    t.truncated.errorRateErrors = UInt64.ofNat t.errorRateErrors := by
  rw [errorRateErrors, errorRateErrors, UInt64.ofNat_add, ← RollingWindow.sum_map_ofNat]
  rfl

theorem truncated_errorRateRequests (t : Telemetry ℕ) :
    t.truncated.errorRateRequests = UInt64.ofNat t.errorRateRequests := by
  rw [errorRateRequests, errorRateRequests, UInt64.ofNat_add, ← RollingWindow.sum_map_ofNat]
  rfl

theorem recordsSince_lt {past : List Event} (h : HarmlessRun past) :
    recordsSince (9 * 61) past < 2 ^ 64 := by
  cases past with
  | nil => decide
  | cons event past => exact h.2.rate

/-- After a whole number of iterations of a harmless run the error rate is not above one. -/
theorem errors_le_requests {past : List Event} (h : HarmlessRun past)
    (hwaiting : (after past).position = .waiting) :
    (after past).errorRateErrors ≤ (after past).errorRateRequests := by
  obtain ⟨requests, errors, haccount⟩ := account_exactly h
  rw [after_eq_truncated] at hwaiting ⊢
  have hexact : (exactly past).position = .waiting := by
    cases hposition : (exactly past).position <;>
      simp [truncated, map, LoopPosition.map, hposition] at hwaiting ⊢
  obtain ⟨hle, hcount⟩ := haccount.sums hexact
  have hlt := recordsSince_lt h
  rw [truncated_errorRateErrors, truncated_errorRateRequests, UInt64.le_iff_toNat_le,
    UInt64.toNat_ofNat', UInt64.toNat_ofNat', Nat.mod_eq_of_lt (hcount.trans_lt hlt)]
  exact (Nat.mod_le _ _).trans hle

theorem recordsSince_le_length (n : ℕ) (past : List Event) : recordsSince n past ≤ past.length := by
  induction past generalizing n with
  | nil => cases n <;> exact le_rfl
  | cons event past ih =>
      cases n with
      | zero => exact Nat.zero_le _
      | succ n =>
          cases event with
          | recordRequest durationMs success => exact Nat.succ_le_succ (ih (n + 1))
          | outputLoop => exact (ih n).trans (Nat.le_succ _)

/-- One failure and the iteration that counts it. -/
def oneFailure : List Event := List.replicate 9 .outputLoop ++ [.recordRequest 1 false]

theorem harmlessRun_oneFailure : HarmlessRun oneFailure := by
  have hloop : ∀ n ≤ 9, HarmlessRun (List.replicate n .outputLoop ++ [.recordRequest 1 false]) := by
    intro n hn
    induction n with
    | zero =>
        refine ⟨trivial, ?_, by decide⟩
        intro _ _
        rfl
    | succ n ih =>
        refine ⟨ih (by omega), ?_, (recordsSince_le_length _ _).trans_lt ?_⟩
        · intro _ hevent
          cases hevent
        · simp
          omega
  exact hloop 9 le_rfl

theorem errors_le_requests_oneFailure :
    (after oneFailure).errorRateErrors ≤ (after oneFailure).errorRateRequests :=
  errors_le_requests harmlessRun_oneFailure rfl

/-! ## Two failures around a load -/

/-- An iteration begins after one failure, and the next request fails right after the load. -/
def failureAfterLoad : List Event :=
  List.replicate 8 .outputLoop ++ [.recordRequest 1 false, .outputLoop, .recordRequest 1 false]

/-- Both failures are counted as errors and only the first one as a request. -/
theorem errors_exceed_requests :
    (after failureAfterLoad).position = .waiting ∧
      (after failureAfterLoad).errorRateErrors = 2 ∧
      (after failureAfterLoad).errorRateRequests = 1 ∧
      ¬ (after failureAfterLoad).errorRateErrors ≤ (after failureAfterLoad).errorRateRequests := by
  have herrors : (after failureAfterLoad).errorRateErrors = 2 := by decide +kernel
  have hrequests : (after failureAfterLoad).errorRateRequests = 1 := by decide +kernel
  refine ⟨rfl, herrors, hrequests, ?_⟩
  rw [herrors, hrequests]
  decide

end Telemetry

end QuasarDB.Server
