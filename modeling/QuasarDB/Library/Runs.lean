import Mathlib.Data.List.Basic
import Mathlib.Data.List.Induction

set_option autoImplicit false

/-! # Runs

A machine takes the steps of a list of events, one after the other. Its steps may not always be possible. -/

namespace List

variable {σ ε : Type} {step : ε → σ → Option σ} {events : List ε} {s s' : σ}

/-- What holds before a run and what one step preserves holds after the run. It may speak of the
    events that are still to come. -/
theorem foldlM_preserves {P : List ε → σ → Prop}
    (hstep : ∀ {event later s s'}, P (event :: later) s → step event s = some s' → P later s')
    (h : P events s) (hrun : events.foldlM (fun s event => step event s) s = some s') : P [] s' := by
  induction events generalizing s with
  | nil =>
      cases hrun
      exact h
  | cons event events ih =>
      rw [foldlM_cons] at hrun
      obtain ⟨middle, hfirst, hrest⟩ := Option.bind_eq_some_iff.1 hrun
      exact ih (hstep h hfirst) hrest

/-! ## Histories -/

/-- The events of a run, each with the state that it happens in. -/
def history (step : σ → ε → σ) (s : σ) : List ε → List (σ × ε)
  | [] => []
  | event :: events => (s, event) :: history step (step s event) events

theorem history_append (step : σ → ε → σ) (s : σ) (events more : List ε) :
    history step s (events ++ more) =
      history step s events ++ history step (events.foldl step s) more := by
  induction events generalizing s with
  | nil => rfl
  | cons event events ih =>
      rw [cons_append, history, history, ih]
      rfl

/-- What one step preserves, a run preserves. It may speak of what has happened before. -/
theorem foldl_history {step : σ → ε → σ} {P : List (σ × ε) → σ → Prop}
    (hstep : ∀ past s event, P past s → P (past ++ [(s, event)]) (step s event)) (hstart : P [] s)
    (events : List ε) : P (history step s events) (events.foldl step s) := by
  induction events using List.reverseRecOn with
  | nil => exact hstart
  | append_singleton events event ih =>
      rw [history_append, foldl_append]
      exact hstep _ _ event ih

end List
