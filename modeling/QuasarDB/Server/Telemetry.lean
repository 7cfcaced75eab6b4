import Mathlib.Data.UInt

set_option autoImplicit false

/-! # Telemetry

`telemetry.h` and `telemetry.cpp`. Every counter is an atomic; `OutputLoop` runs beside the threads
that record requests, so the state has the place where its thread stands, and what it holds in its
local variables there, and each load, exchange and `Tick` is a step of its own. The type of the
counters is a parameter: the code has `UInt64`. -/

namespace QuasarDB.Server

/-- `RollingWindow<n>`, without `Avg` and `Max`. -/
structure RollingWindow (α : Type) (n : Nat) where
  slots : Vector α n
  index : Fin n

namespace RollingWindow

variable {α : Type} {n : Nat}

def new (n : Nat) [NeZero n] [Zero α] : RollingWindow α n :=
  { slots := Vector.replicate n 0, index := ⟨0, Nat.pos_of_ne_zero (NeZero.ne n)⟩ }

def tick (window : RollingWindow α n) (value : α) : RollingWindow α n :=
  { slots := window.slots.set window.index value
    index := ⟨(window.index + 1) % n, Nat.mod_lt _ window.index.pos⟩ }

def sum [Zero α] [Add α] (window : RollingWindow α n) : α := window.slots.foldl (· + ·) 0

end RollingWindow

/-- Where the thread of `OutputLoop` stands. `rps` is its local variable of that name; the other
    value is what an exchange has returned to it for the `Tick` that comes next. -/
inductive LoopPosition (α : Type) where
  | waiting
  | loaded (rps : α)
  | rpsTicked (rps : α)
  | durationTaken (rps duration : α)
  | durationTicked (rps : α)
  | requestsTaken (rps requests : α)
  | requestsTicked (rps : α)
  | errorsTaken (rps errors : α)
  | errorsTicked (rps : α)

/-- The counters and windows, and where the output thread stands. -/
structure Telemetry (α : Type) where
  totalRequests : α
  totalErrors : α
  currentSecondRequests : α
  currentSecondErrors : α
  currentSecondDurationMs : α
  currentRps : α
  lastTotalRequests : α
  rps10min : RollingWindow α 600
  durationSum10s : RollingWindow α 10
  durationCount10s : RollingWindow α 10
  errorSum60s : RollingWindow α 60
  requestSum60s : RollingWindow α 60
  position : LoopPosition α

namespace Telemetry

variable {α : Type} [Zero α] [One α] [Add α] [Sub α]

def new : Telemetry α :=
  { totalRequests := 0, totalErrors := 0, currentSecondRequests := 0, currentSecondErrors := 0
    currentSecondDurationMs := 0, currentRps := 0, lastTotalRequests := 0
    rps10min := .new 600, durationSum10s := .new 10, durationCount10s := .new 10
    errorSum60s := .new 60, requestSum60s := .new 60, position := .waiting }

/-- `RecordRequest`, all of it at once. -/
def recordRequest (t : Telemetry α) (durationMs : α) (success : Bool) : Telemetry α :=
  let t := { t with
    totalRequests := t.totalRequests + 1
    currentSecondRequests := t.currentSecondRequests + 1
    currentSecondDurationMs := t.currentSecondDurationMs + durationMs }
  if !success then
    { t with
      totalErrors := t.totalErrors + 1
      currentSecondErrors := t.currentSecondErrors + 1 }
  else t

/-- One step of the thread of `OutputLoop`. The first one is that of an iteration whose second is
    over: it loads the total and works out what came since the last time. -/
def outputLoop (t : Telemetry α) : Telemetry α :=
  match t.position with
  | .waiting =>
      let total := t.totalRequests
      let rps := total - t.lastTotalRequests
      { t with lastTotalRequests := total, currentRps := rps, position := .loaded rps }
  | .loaded rps => { t with rps10min := t.rps10min.tick rps, position := .rpsTicked rps }
  | .rpsTicked rps =>
      { t with
        currentSecondDurationMs := 0
        position := .durationTaken rps t.currentSecondDurationMs }
  | .durationTaken rps duration =>
      { t with durationSum10s := t.durationSum10s.tick duration, position := .durationTicked rps }
  | .durationTicked rps =>
      { t with
        currentSecondRequests := 0
        position := .requestsTaken rps t.currentSecondRequests }
  | .requestsTaken rps requests =>
      { t with durationCount10s := t.durationCount10s.tick requests, position := .requestsTicked rps }
  | .requestsTicked rps =>
      { t with currentSecondErrors := 0, position := .errorsTaken rps t.currentSecondErrors }
  | .errorsTaken rps errors =>
      { t with errorSum60s := t.errorSum60s.tick errors, position := .errorsTicked rps }
  | .errorsTicked rps => { t with requestSum60s := t.requestSum60s.tick rps, position := .waiting }

/-- The requests that `GetErrorRate` divides by. -/
def errorRateRequests (t : Telemetry α) : α := t.requestSum60s.sum + t.currentSecondRequests

/-- The errors that `GetErrorRate` divides; without requests it returns 0 instead. -/
def errorRateErrors (t : Telemetry α) : α := t.errorSum60s.sum + t.currentSecondErrors

/-! ## Interleavings -/

/-- A thread has recorded a request, or the thread of `OutputLoop` makes its next step. -/
inductive Event where
  | recordRequest (durationMs : UInt64) (success : Bool)
  | outputLoop

def step (t : Telemetry UInt64) : Event → Telemetry UInt64
  | .recordRequest durationMs success => t.recordRequest durationMs success
  | .outputLoop => t.outputLoop

/-- The state after some events, the last of which comes first. -/
def after : List Event → Telemetry UInt64
  | [] => new
  | event :: past => (after past).step event

end Telemetry

end QuasarDB.Server
