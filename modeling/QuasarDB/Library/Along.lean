import Mathlib.Order.Defs.Unbundled
import QuasarDB.Library.Prog

set_option autoImplicit false

/-! # Programs that fail in known ways

A program that stops with a value or with a failure that is admitted where it occurs, mostly an exception, and
whose state goes along a preorder on the way, whatever it stops with. Such programs compose; that the state
has only grown is known at the end of a chain of them as it is known at the end of each. Where nothing is asked
of the result and any failure will do, `Moves` says the same of all states at once; where nothing is asked of
the state either, `OnlyThrows` is left. -/

namespace Prog

variable {σ τ α β : Type}

/-- The failure is an exception, wherever it occurs. -/
def Throws (e : Failure) (_ : σ) : Prop := ∃ what, e = .exception what

/-- Exceptions are among the failures that are admitted. -/
class AdmitsExceptions (E : Failure → σ → Prop) : Prop where
  admits : ∀ what s, E (.exception what) s

instance : AdmitsExceptions (Throws : Failure → σ → Prop) := ⟨fun what _ => ⟨what, rfl⟩⟩

/-- The program stops with a value, of which `Q` holds, or a failure that `E` admits there, and moves the state
    along `R`. -/
def Along (E : Failure → σ → Prop) (R : σ → σ → Prop) (x : Prog σ α) (s : σ) (Q : α → σ → Prop) : Prop :=
  x.Post s (fun a t => R s t ∧ Q a t) (fun e t => E e t ∧ R s t)

variable {E : Failure → σ → Prop} {R : σ → σ → Prop} {x : Prog σ α} {s : σ} {Q : α → σ → Prop}

theorem Along.of_ok {a : α} {t : σ} (h : Along E R x s Q) (hrun : x s = .ok a t) : R s t ∧ Q a t := by
  unfold Along at h
  exact h.of_ok hrun

theorem Along.of_error {e : Failure} {t : σ} (h : Along E R x s Q) (hrun : x s = .error e t) :
    E e t ∧ R s t := by
  unfold Along at h
  exact h.of_error hrun

/-- The state goes along in any case. -/
theorem Along.of_after (h : Along E R x s Q) : R s (x.after s) :=
  Post.of_after (Post.mono h (fun _ _ ⟨hR, _⟩ => hR) fun _ _ ⟨_, hR⟩ => hR)

theorem Along.mono {Q' : α → σ → Prop} (h : Along E R x s Q) (hQ : ∀ a t, R s t → Q a t → Q' a t) :
    Along E R x s Q' :=
  Post.mono h (fun a t ⟨hR, ha⟩ => ⟨hR, hQ a t hR ha⟩) fun _ _ he => he

/-- What is known of the end, for a program that is run in another way. -/
theorem Along.post {Q' : α → σ → Prop} {E' : Failure → σ → Prop} (h : Along E R x s Q)
    (hQ : ∀ a t, R s t → Q a t → Q' a t) (hE : ∀ e t, E e t → R s t → E' e t) : x.Post s Q' E' :=
  Post.mono h (fun a t ⟨hR, ha⟩ => hQ a t hR ha) fun e t ⟨he, hR⟩ => hE e t he hR

theorem Along.get_bind {f : σ → Prog σ β} {Q : β → σ → Prop} (h : Along E R (f s) s Q) :
    Along E R (get >>= f) s Q := h

theorem Along.ite {c : Prop} [Decidable c] {y : Prog σ α} (hx : c → Along E R x s Q)
    (hy : ¬ c → Along E R y s Q) : Along E R (if c then x else y) s Q :=
  Post.ite hx hy

/-- A program on a part of the state. -/
theorem Along.on {S : τ → τ → Prop} {view : σ → τ} {put : τ → σ → σ} {y : Prog τ α}
    {P : α → τ → Prop} (h : Along Throws S y (view s) P) (hR : ∀ t, S (view s) t → R s (put t s))
    (hQ : ∀ a t, S (view s) t → P a t → Q a (put t s)) : Along Throws R (Prog.on view put y) s Q :=
  Post.on (Post.mono h (fun a t ⟨hS, ha⟩ => ⟨hR t hS, hQ a t hS ha⟩)
    fun _ t ⟨he, hS⟩ => ⟨he, hR t hS⟩)

section Preorder

variable [IsPreorder σ R]

theorem Along.pure {a : α} (h : Q a s) : Along E R (pure a) s Q := ⟨refl_of R s, h⟩

theorem Along.throw [AdmitsExceptions E] (what : String) : Along E R (throw (.exception what)) s Q :=
  ⟨AdmitsExceptions.admits what s, refl_of R s⟩

theorem Along.ofExcept [AdmitsExceptions E] {result : Except String α} (h : ∀ a, result = .ok a → Q a s) :
    Along E R (Prog.ofExcept result) s Q := by
  cases result with
  | ok a => exact Along.pure (h a rfl)
  | error what => exact Along.throw what

theorem Along.ofExcept_bind [AdmitsExceptions E] {result : Except String α} {f : α → Prog σ β}
    {P : β → σ → Prop} (h : ∀ a, result = .ok a → Along E R (f a) s P) :
    Along E R (Prog.ofExcept result >>= f) s P := by
  cases result with
  | ok a => exact h a rfl
  | error what => exact Along.throw what

theorem Along.throwIf_bind [AdmitsExceptions E] {b : Bool} {what : String} {f : Unit → Prog σ β}
    {P : β → σ → Prop} (h : b = false → Along E R (f ()) s P) :
    Along E R (Prog.throwIf b what >>= f) s P := by
  cases b with
  | false => exact h rfl
  | true => exact Along.throw what

theorem Along.bind {f : α → Prog σ β} {P : β → σ → Prop} (h : Along E R x s Q)
    (hf : ∀ a t, R s t → Q a t → Along E R (f a) t P) : Along E R (x >>= f) s P := by
  refine Post.bind (Post.mono h (fun a t ⟨hR, ha⟩ => ?_) fun _ _ he => he)
  exact Post.mono (hf a t hR ha) (fun _ _ ⟨hR', hb⟩ => ⟨trans_of R hR hR', hb⟩)
    fun _ _ ⟨he, hR'⟩ => ⟨he, trans_of R hR hR'⟩

/-- From wherever the program starts, it leaves a state further along `R`, whatever it stops with. -/
def Moves (R : σ → σ → Prop) (x : Prog σ α) : Prop := ∀ s, R s (x.after s)

theorem Moves.pure (a : α) : Moves R (pure a : Prog σ α) := fun s => refl_of R s

theorem Moves.throw (e : Failure) : Moves R (throw e : Prog σ α) := fun s => refl_of R s

theorem Moves.get : Moves R (get : Prog σ σ) := fun s => refl_of R s

theorem Moves.ofExcept (result : Except String α) : Moves R (Prog.ofExcept result : Prog σ α) := by
  cases result with
  | ok a => exact .pure a
  | error what => exact .throw _

theorem Moves.bind {f : α → Prog σ β} (hx : Moves R x) (hf : ∀ a, Moves R (f a)) :
    Moves R (x >>= f) := by
  intro s
  have hs := hx s
  cases hrun : x s with
  | error e t =>
      rw [after_error hrun] at hs
      rw [after_error (bind_error hrun)]
      exact hs
  | ok a t =>
      rw [after_ok hrun] at hs
      rw [after, bind_ok hrun]
      exact trans_of R hs (hf a t)

end Preorder

theorem Moves.ite {c : Prop} [Decidable c] {y : Prog σ α} (hx : c → Moves R x) (hy : ¬ c → Moves R y) :
    Moves R (if c then x else y) := by
  split
  · exact hx ‹_›
  · exact hy ‹_›

/-- A program on a part of the state. -/
theorem Moves.on {S : τ → τ → Prop} {view : σ → τ} {put : τ → σ → σ} {y : Prog τ α}
    (h : Moves S y) (hR : ∀ s t, S (view s) t → R s (put t s)) : Moves R (Prog.on view put y) := by
  intro s
  have hs := h (view s)
  rw [after, run_on]
  cases hrun : y (view s) with
  | error e t =>
      rw [after_error hrun] at hs
      exact hR s t hs
  | ok a t =>
      rw [after_ok hrun] at hs
      exact hR s t hs

/-! ## Whatever becomes of the state -/

/-- From wherever the program starts, it stops with a value or an exception. -/
def OnlyThrows (x : Prog σ α) : Prop :=
  ∀ s, x.Post s (fun _ _ => True) (fun e _ => ∃ what, e = .exception what)

theorem OnlyThrows.pure (a : α) : OnlyThrows (pure a : Prog σ α) := fun _ => trivial

theorem OnlyThrows.throw (what : String) : OnlyThrows (throw (.exception what) : Prog σ α) :=
  fun _ => ⟨what, rfl⟩

theorem OnlyThrows.set (t : σ) : OnlyThrows (set t : Prog σ PUnit) := fun _ => trivial

theorem OnlyThrows.modify (f : σ → σ) : OnlyThrows (modify f : Prog σ PUnit) := fun _ => trivial

theorem OnlyThrows.ofExcept (result : Except String α) :
    OnlyThrows (Prog.ofExcept result : Prog σ α) := by
  cases result with
  | ok a => exact .pure a
  | error what => exact .throw what

theorem OnlyThrows.bind {f : α → Prog σ β} (hx : OnlyThrows x) (hf : ∀ a, OnlyThrows (f a)) :
    OnlyThrows (x >>= f) := by
  intro s
  exact Post.bind ((hx s).mono (fun a t _ => hf a t) fun _ _ he => he)

theorem OnlyThrows.get_bind {f : σ → Prog σ β} (hf : ∀ s, OnlyThrows (f s)) :
    OnlyThrows (get >>= f) :=
  fun s => hf s s

theorem OnlyThrows.ite {c : Prop} [Decidable c] {y : Prog σ α} (hx : OnlyThrows x)
    (hy : OnlyThrows y) : OnlyThrows (if c then x else y) := by
  split
  · exact hx
  · exact hy

theorem OnlyThrows.on {view : σ → τ} {put : τ → σ → σ} {y : Prog τ α} (h : OnlyThrows y) :
    OnlyThrows (Prog.on view put y) := by
  intro s
  exact Post.on (h (view s))

/-- A handler that returns leaves nothing uncaught. -/
theorem OnlyThrows.catch_returns {handle : String → Prog σ α} (h : OnlyThrows x)
    (hhandle : ∀ what s, ∃ a t, handle what s = .ok a t) (s : σ) :
    ∃ a t, catchException x handle s = .ok a t := by
  unfold catchException
  cases hrun : x s with
  | ok a t => exact ⟨a, t, rfl⟩
  | error e t =>
      obtain ⟨what, rfl⟩ := (h s).of_error hrun
      exact hhandle what t

end Prog
