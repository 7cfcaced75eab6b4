import QuasarDB.Library.Prog
import QuasarDB.Library.Services

set_option autoImplicit false

/-! # Programs on two levels

A program on one kind of state and a program on another agree, from two states, when both return values that
belong together or both fail with failures that belong together, and leave states that are related. Programs
that agree step by step agree as a whole, and so do the services that run them. -/

namespace Prog

variable {σ τ α β γ δ : Type}

/-- Two results that belong together. -/
def Agree (R : σ → τ → Prop) (E : Failure → Failure → Prop) (V : α → β → Prop) :
    EStateM.Result Failure σ α → EStateM.Result Failure τ β → Prop
  | .ok a s, .ok b t => R s t ∧ V a b
  | .error e s, .error f t => R s t ∧ E e f
  | _, _ => False

variable {R : σ → τ → Prop} {E : Failure → Failure → Prop} {V : α → β → Prop} {W : γ → δ → Prop}
  {x : Prog σ α} {y : Prog τ β} {s : σ} {t : τ}

theorem Agree.ok {a : α} {b : β} {s' : σ} {t' : τ} (hx : x s = .ok a s') (hy : y t = .ok b t')
    (hR : R s' t') (hV : V a b) : Agree R E V (x s) (y t) := by
  rw [hx, hy]
  exact ⟨hR, hV⟩

theorem Agree.error {e f : Failure} {s' : σ} {t' : τ} (hx : x s = .error e s')
    (hy : y t = .error f t') (hR : R s' t') (hE : E e f) : Agree R E V (x s) (y t) := by
  rw [hx, hy]
  exact ⟨hR, hE⟩

theorem Agree.pure {a : α} {b : β} (hR : R s t) (hV : V a b) :
    Agree R E V ((pure a : Prog σ α) s) ((pure b : Prog τ β) t) := ⟨hR, hV⟩

/-- What follows two programs that agree has to agree from where they return. -/
theorem Agree.bind {f : α → Prog σ γ} {g : β → Prog τ δ} (h : Agree R E V (x s) (y t))
    (hnext : ∀ a b s' t', x s = .ok a s' → y t = .ok b t' → R s' t' → V a b →
      Agree R E W (f a s') (g b t')) : Agree R E W ((x >>= f) s) ((y >>= g) t) := by
  rw [run_bind, run_bind]
  cases hx : x s with
  | ok a s' =>
      cases hy : y t with
      | ok b t' =>
          rw [hx, hy] at h
          exact hnext a b s' t' hx hy h.1 h.2
      | error e t' =>
          rw [hx, hy] at h
          exact h.elim
  | error e s' =>
      cases hy : y t with
      | ok b t' =>
          rw [hx, hy] at h
          exact h.elim
      | error e' t' =>
          rw [hx, hy] at h
          exact h

/-- What is returned may be changed on both sides. -/
theorem Agree.map {f : α → γ} {g : β → δ} (h : Agree R E V (x s) (y t))
    (hV : ∀ a b, V a b → W (f a) (g b)) : Agree R E W ((f <$> x) s) ((g <$> y) t) := by
  rw [← bind_pure_comp, ← bind_pure_comp]
  exact h.bind fun a b _ _ _ _ hR hab => Agree.pure hR (hV a b hab)

theorem Agree.ite {c d : Prop} [Decidable c] [Decidable d] {x' : Prog σ α} {y' : Prog τ β} (hcd : c ↔ d)
    (hx : c → d → Agree R E V (x s) (y t)) (hy : ¬ c → ¬ d → Agree R E V (x' s) (y' t)) :
    Agree R E V ((if c then x else x') s) ((if d then y else y') t) := by
  by_cases hc : c
  · have hd := hcd.1 hc
    rw [if_pos hc, if_pos hd]
    exact hx hc hd
  · have hd : ¬ d := fun hd => hc (hcd.2 hd)
    rw [if_neg hc, if_neg hd]
    exact hy hc hd

/-- Two outcomes that belong together. -/
def Alike (E : Failure → Failure → Prop) (V : α → β → Prop) : Except Failure α → Except Failure β → Prop
  | .ok a, .ok b => V a b
  | .error e, .error f => E e f
  | _, _ => False

/-- The same values, where any two failures that occur belong together. -/
theorem Alike.of_toOption {result result' : Except Failure α} (h : result.toOption = result'.toOption)
    (hE : ∀ e f, result = .error e → result' = .error f → E e f) : Alike E Eq result result' := by
  cases result with
  | ok a =>
      cases result' with
      | ok b => exact Option.some.inj h
      | error f => cases h
  | error e =>
      cases result' with
      | ok b => cases h
      | error f => exact hE e f rfl rfl

theorem Alike.map {f : α → γ} {g : β → δ} {result : Except Failure α} {result' : Except Failure β}
    (h : Alike E V result result') (hV : ∀ a b, V a b → W (f a) (g b)) :
    Alike E W (result.map f) (result'.map g) := by
  cases result with
  | ok a =>
      cases result' with
      | ok b => exact hV a b h
      | error e => exact h.elim
  | error e =>
      cases result' with
      | ok b => exact h.elim
      | error e' => exact h

/-- Programs agree if their outcomes and their states do. -/
theorem Agree.of_outcome (houtcome : Alike E V (x.outcome s) (y.outcome t))
    (hR : R (x.after s) (y.after t)) : Agree R E V (x s) (y t) := by
  unfold Prog.outcome at houtcome
  unfold Prog.after at hR
  cases hx : x s with
  | ok a s' =>
      cases hy : y t with
      | ok b t' =>
          rw [hx, hy] at houtcome hR
          exact ⟨hR, houtcome⟩
      | error e t' =>
          rw [hx, hy] at houtcome
          exact houtcome.elim
  | error e s' =>
      cases hy : y t with
      | ok b t' =>
          rw [hx, hy] at houtcome
          exact houtcome.elim
      | error e' t' =>
          rw [hx, hy] at houtcome hR
          exact ⟨hR, houtcome⟩

/-- The states that two programs leave, whatever they return. -/
theorem Agree.after (h : Agree R E V (x s) (y t)) : R (x.after s) (y.after t) := by
  unfold Prog.after
  cases hx : x s with
  | ok a s' =>
      cases hy : y t with
      | ok b t' =>
          rw [hx, hy] at h
          exact h.1
      | error e t' =>
          rw [hx, hy] at h
          exact h.elim
  | error e s' =>
      cases hy : y t with
      | ok b t' =>
          rw [hx, hy] at h
          exact h.elim
      | error e' t' =>
          rw [hx, hy] at h
          exact h.1

/-- The outcomes of two programs that agree. -/
theorem Agree.outcome (h : Agree R E V (x s) (y t)) : Alike E V (x.outcome s) (y.outcome t) := by
  unfold Prog.outcome
  cases hx : x s with
  | ok a s' =>
      cases hy : y t with
      | ok b t' =>
          rw [hx, hy] at h
          exact h.2
      | error e t' =>
          rw [hx, hy] at h
          exact h.elim
  | error e s' =>
      cases hy : y t with
      | ok b t' =>
          rw [hx, hy] at h
          exact h.elim
      | error e' t' =>
          rw [hx, hy] at h
          exact h.2

end Prog

namespace Service

variable {ε α β σ τ : Type} {serve : Service ε α σ} {serve' : Service ε β τ} {R : σ → τ → Prop}
  {V : α → β → Prop} {P : List ε → σ → τ → Prop} {events : List ε} {s : σ} {t : τ}

/-- Two services whose answers go together, one event after the other, give answers to a run that do. -/
theorem run_of_refines (h : serve.Refines (serve'.upTo V) R P) (hstart : R s t) (hevents : P events s t) :
    ∃ answers answers' s' t', serve.run events s = some (answers, s') ∧
      serve'.run events t = some (answers', t') ∧ List.Forall₂ V answers answers' ∧ R s' t' := by
  obtain ⟨answers, s', t', hrun, hallows, hlast⟩ := h.run hstart hevents
  obtain ⟨answers', hrun', hall⟩ := run_of_allows_upTo hallows
  exact ⟨answers, answers', s', t', hrun, hrun', hall, hlast⟩

end Service
