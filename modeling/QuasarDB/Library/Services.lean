import Mathlib.Data.List.Forall2

set_option autoImplicit false

/-! # Services and what they are for

A service answers the events of a list one after the other, and may end on the way. A specification says
which answers it allows, with the states that they lead to. A service refines a specification if a relation
between their states goes from each event to the next. -/

variable {ε α σ τ : Type}

/-- An event changes the state and is answered, or the service ends. -/
abbrev Service (ε α σ : Type) : Type := ε → σ → Option (α × σ)

/-- The answers that an event may have, with the states after them. -/
abbrev Specification (ε α τ : Type) : Type := ε → τ → α → τ → Prop

namespace Service

/-- The answers to some events and the state after them, unless the service ends. -/
def run (serve : Service ε α σ) : List ε → σ → Option (List α × σ)
  | [], s => some ([], s)
  | event :: events, s =>
      (serve event s).bind fun (answer, middle) =>
        (run serve events middle).map fun (answers, last) => (answer :: answers, last)

variable {serve : Service ε α σ} {event : ε} {events : List ε} {s middle : σ} {answer : α}

theorem run_cons_of_some (h : serve event s = some (answer, middle)) :
    serve.run (event :: events) s =
      (serve.run events middle).map fun (answers, last) => (answer :: answers, last) := by
  rw [run, h]
  rfl

end Service

namespace Specification

/-- Each event is answered in a way that the specification allows. -/
inductive Allows (spec : Specification ε α τ) : List ε → τ → List α → τ → Prop
  | nil {t : τ} : Allows spec [] t [] t
  | cons {event : ε} {events : List ε} {t middle last : τ} {answer : α} {answers : List α}
      (hfirst : spec event t answer middle) (hrest : Allows spec events middle answers last) :
      Allows spec (event :: events) t (answer :: answers) last

variable {spec : Specification ε α τ} {events : List ε} {t last : τ} {answers : List α}

end Specification

namespace Service

variable {serve : Service ε α σ} {spec : Specification ε α τ} {R : σ → τ → Prop}
  {P : List ε → σ → τ → Prop} {events later : List ε} {s : σ} {t : τ}

/-- What relates a service to a specification, and what the events may ask for: from related states, each
    event is answered as the specification allows, and the states after it are related. -/
structure Refines (serve : Service ε α σ) (spec : Specification ε α τ) (R : σ → τ → Prop)
    (P : List ε → σ → τ → Prop) : Prop where
  step : ∀ {event later s t}, R s t → P (event :: later) s t →
    ∃ answer s' t', serve event s = some (answer, s') ∧ spec event t answer t' ∧ R s' t' ∧ P later s' t'

/-- A service that refines a specification answers every run as this allows, and what may be asked for after
    the run is still what may be asked for. -/
theorem Refines.run_append (h : serve.Refines spec R P) (hstart : R s t)
    (hevents : P (events ++ later) s t) :
    ∃ answers s' t', serve.run events s = some (answers, s') ∧ spec.Allows events t answers t' ∧
      R s' t' ∧ P later s' t' := by
  induction events generalizing s t with
  | nil => exact ⟨[], s, t, rfl, .nil, hstart, hevents⟩
  | cons event events ih =>
      obtain ⟨answer, s₁, t₁, hserve, hspec, hnext, hlater⟩ := h.step hstart hevents
      obtain ⟨answers, s', t', hrun, hallows, hlast⟩ := ih hnext hlater
      refine ⟨answer :: answers, s', t', ?_, .cons hspec hallows, hlast⟩
      rw [run_cons_of_some hserve, hrun]
      rfl

/-- A service that refines a specification answers every run as this allows. -/
theorem Refines.run (h : serve.Refines spec R P) (hstart : R s t) (hevents : P events s t) :
    ∃ answers s' t', serve.run events s = some (answers, s') ∧ spec.Allows events t answers t' ∧
      R s' t' := by
  rw [← List.append_nil events] at hevents
  obtain ⟨answers, s', t', hrun, hallows, hlast, -⟩ := h.run_append hstart hevents
  exact ⟨answers, s', t', hrun, hallows, hlast⟩

/-! ## Services as specifications -/

/-- The answers that a service gives itself. -/
def exactly (serve : Service ε α σ) : Specification ε α σ := fun event s answer s' =>
  serve event s = some (answer, s')

/-- The answers that go with those that a service gives itself. -/
def upTo {β : Type} (V : α → β → Prop) (serve : Service ε β σ) : Specification ε α σ :=
  fun event s answer s' => ∃ own, serve event s = some (own, s') ∧ V answer own

theorem run_of_allows_upTo {β : Type} {V : α → β → Prop} {serve : Service ε β σ} {answers : List α} {s' : σ}
    (h : (upTo V serve).Allows events s answers s') :
    ∃ owns, serve.run events s = some (owns, s') ∧ List.Forall₂ V answers owns := by
  induction h with
  | nil => exact ⟨[], rfl, .nil⟩
  | cons hfirst hrest ih =>
      obtain ⟨own, hserve, hV⟩ := hfirst
      obtain ⟨owns, hrun, hall⟩ := ih
      refine ⟨own :: owns, ?_, .cons hV hall⟩
      rw [run_cons_of_some hserve, hrun]
      rfl

theorem run_of_allows {answers : List α} {s' : σ} (h : (exactly serve).Allows events s answers s') :
    serve.run events s = some (answers, s') := by
  induction h with
  | nil => rfl
  | cons hfirst hrest ih =>
      rw [run_cons_of_some hfirst, ih]
      rfl

end Service
