import QuasarDB.Library.Prog

set_option autoImplicit false

/-! # Programs in lockstep

Two programs are in lockstep between two relations when, from states that the first one relates,
both return the same value or stop with the same failure, and leave states that the second one
relates. There is one rule for each way to build programs, so that a function which looks at no more
of its state than a relation keeps the same is compared with itself by going along its text. -/

namespace Prog

variable {σ τ α β : Type}

/-- The same value or the same failure, with `Q` between the states. -/
def Same (Q : σ → σ → Prop) : EStateM.Result Failure σ α → EStateM.Result Failure σ α → Prop
  | .ok a s, .ok b t => a = b ∧ Q s t
  | .error e s, .error f t => e = f ∧ Q s t
  | _, _ => False

/-- From states with `R` between them to states with `Q` between them. -/
def Lockstep (R Q : σ → σ → Prop) (x y : Prog σ α) : Prop := ∀ s t, R s t → Same Q (x s) (y t)

/-- The program is in lockstep with itself. -/
abbrev Respects (R : σ → σ → Prop) (x : Prog σ α) : Prop := Lockstep R R x x

variable {R Q T : σ → σ → Prop} {x y : Prog σ α}

theorem Lockstep.of_ok {s s' t : σ} {a : α} (h : Lockstep R Q x y) (hR : R s t)
    (hrun : x s = .ok a s') : ∃ t', y t = .ok a t' ∧ Q s' t' := by
  have hsame := h s t hR
  rw [hrun] at hsame
  cases hy : y t with
  | error e t' =>
      rw [hy] at hsame
      exact hsame.elim
  | ok b t' =>
      rw [hy] at hsame
      obtain ⟨rfl, hQ⟩ := hsame
      exact ⟨t', rfl, hQ⟩

theorem Lockstep.of_error {s s' t : σ} {e : Failure} (h : Lockstep R Q x y) (hR : R s t)
    (hrun : x s = .error e s') : ∃ t', y t = .error e t' ∧ Q s' t' := by
  have hsame := h s t hR
  rw [hrun] at hsame
  cases hy : y t with
  | ok b t' =>
      rw [hy] at hsame
      exact hsame.elim
  | error f t' =>
      rw [hy] at hsame
      obtain ⟨rfl, hQ⟩ := hsame
      exact ⟨t', rfl, hQ⟩

theorem Same.mono {r r' : EStateM.Result Failure σ α} (h : Same R r r')
    (hle : ∀ s t, R s t → Q s t) : Same Q r r' := by
  cases r with
  | ok a s =>
      cases r' with
      | ok b t => exact ⟨h.1, hle s t h.2⟩
      | error e t => exact h.elim
  | error e s =>
      cases r' with
      | ok b t => exact h.elim
      | error f t => exact ⟨h.1, hle s t h.2⟩

theorem Lockstep.mono {R' Q' : σ → σ → Prop} (h : Lockstep R Q x y) (hR : ∀ s t, R' s t → R s t)
    (hQ : ∀ s t, Q s t → Q' s t) : Lockstep R' Q' x y := by
  intro s t hs
  exact (h s t (hR s t hs)).mono hQ

theorem Lockstep.pure (a : α) : Respects R (pure a) := fun _ _ hR => ⟨rfl, hR⟩

theorem Lockstep.throw (e : Failure) : Respects R (throw e : Prog σ α) :=
  fun _ _ hR => ⟨rfl, hR⟩

/-- What the first part leaves is enough for the second one, and is kept when the first one fails.
    -/
theorem Lockstep.bind_mono {f g : α → Prog σ β} (hx : Lockstep R Q x y)
    (hf : ∀ a, Lockstep Q T (f a) (g a)) (hle : ∀ s t, Q s t → T s t) :
    Lockstep R T (x >>= f) (y >>= g) := by
  intro s t hR
  cases hrun : x s with
  | ok a s' =>
      obtain ⟨t', hy, hQ⟩ := hx.of_ok hR hrun
      rw [bind_ok hrun, bind_ok hy]
      exact hf a s' t' hQ
  | error e s' =>
      obtain ⟨t', hy, hQ⟩ := hx.of_error hR hrun
      rw [bind_error hrun, bind_error hy]
      exact ⟨rfl, hle s' t' hQ⟩

theorem Lockstep.bind {f g : α → Prog σ β} (hx : Lockstep R R x y)
    (hf : ∀ a, Lockstep R R (f a) (g a)) : Lockstep R R (x >>= f) (y >>= g) :=
  hx.bind_mono hf fun _ _ h => h

/-- The rest of a program depends on the state that it starts from. -/
theorem Lockstep.get_bind {f g : σ → Prog σ β} (h : ∀ s t, R s t → Lockstep R Q (f s) (g t)) :
    Lockstep R Q (get >>= f) (get >>= g) := fun s t hR => h s t hR s t hR

theorem Lockstep.modify {f g : σ → σ} (h : ∀ s t, R s t → Q (f s) (g t)) :
    Lockstep R Q (modify f : Prog σ PUnit) (modify g) := fun s t hR => ⟨rfl, h s t hR⟩

theorem Lockstep.ite {c : Prop} [Decidable c] {x' y' : Prog σ α} (hx : Lockstep R Q x y)
    (hy : Lockstep R Q x' y') : Lockstep R Q (if c then x else x') (if c then y else y') := by
  split
  · exact hx
  · exact hy

theorem Lockstep.ofExcept (result : Except String α) :
    Respects R (ofExcept result : Prog σ α) := by
  cases result with
  | ok a => exact .pure a
  | error what => exact .throw _

theorem Lockstep.throwIf (b : Bool) (what : String) :
    Respects R (throwIf b what : Prog σ Unit) := by
  cases b with
  | false => exact .pure ()
  | true => exact .throw _

theorem Lockstep.assert (b : Bool) (condition : String) :
    Respects R (assert b condition : Prog σ Unit) := by
  cases b with
  | false => exact .throw _
  | true => exact .pure ()

/-- A program on a part of the state. -/
theorem Lockstep.on {S : τ → τ → Prop} {view : σ → τ} {put : τ → σ → σ} {x y : Prog τ α}
    {S' : τ → τ → Prop} (h : Lockstep S S' x y) (hview : ∀ s t, R s t → S (view s) (view t))
    (hput : ∀ s t s' t', R s t → S' s' t' → Q (put s' s) (put t' t)) :
    Lockstep R Q (on view put x) (on view put y) := by
  intro s t hR
  rw [run_on, run_on]
  cases hrun : x (view s) with
  | ok a s' =>
      obtain ⟨t', hy, hS'⟩ := h.of_ok (hview s t hR) hrun
      rw [hy]
      exact ⟨rfl, hput s t s' t' hR hS'⟩
  | error e s' =>
      obtain ⟨t', hy, hS'⟩ := h.of_error (hview s t hR) hrun
      rw [hy]
      exact ⟨rfl, hput s t s' t' hR hS'⟩

end Prog
