import Mathlib.Algebra.Order.Ring.Int

set_option autoImplicit false

/-! # Programs with a state and C++ failures

A C++ function that works on some state `σ` is modelled as `Prog σ α`: it either returns a value or
stops with a `Failure`, and leaves a state behind in both cases (an exception does not undo what was
written before it was thrown). The lemmas below run such a program one bind at a time, so that a
proof about a caller cites a lemma about the callee and never unfolds it; `Post` states what holds
after a program in either case, with one rule for each way to build programs. -/

/-- Why a function does not return. -/
inductive Failure where
  /-- An exception derived from `std::exception`, with its `what()`. -/
  | exception (what : String)
  /-- A failed `assert`. -/
  | assertion (condition : String)
  /-- The C++ standard gives the execution no meaning from here on. -/
  | undefined (what : String)
  /-- A loop ran out of the rounds that every run it ends on needs. -/
  | endless
  deriving DecidableEq, Repr

/-- A C++ function on the state `σ`. -/
abbrev Prog (σ α : Type) : Type := EStateM Failure σ α

namespace Prog

variable {σ α β : Type}

/-- `assert(b)`. -/
def assert (b : Bool) (condition : String) : Prog σ Unit :=
  if b then pure () else throw (.assertion condition)

/-- `throw std::runtime_error(what)` when `b` holds. -/
def throwIf (b : Bool) (what : String) : Prog σ Unit :=
  if b then throw (.exception what) else pure ()

/-- The difference of two element counts that is used as an element count again. A negative one
    would make the caller move elements from or to places before the array. -/
def sub (a b : Nat) : Prog σ Nat :=
  if b ≤ a then pure (a - b) else throw (.undefined "negative element count")

/-- The result of a function that throws without a state. -/
def ofExcept : Except String α → Prog σ α
  | .ok a => pure a
  | .error what => throw (.exception what)

/-- `try { x } catch (const std::exception& e) { handle(e.what()) }` -/
def catchException (x : Prog σ α) (handle : String → Prog σ α) : Prog σ α := fun s =>
  match x s with
  | .ok a t => .ok a t
  | .error (.exception what) t => handle what t
  | .error e t => .error e t

/-- A function on the part of the state that `view` shows. -/
def on {τ : Type} (view : σ → τ) (put : τ → σ → σ) (x : Prog τ α) : Prog σ α := fun s =>
  match x (view s) with
  | .ok a t => .ok a (put t s)
  | .error e t => .error e (put t s)

/-- The state a program leaves behind, returned or not. -/
def after (x : Prog σ α) (s : σ) : σ :=
  match x s with
  | .ok _ t => t
  | .error _ t => t

/-- The value that a program returns, if it does. -/
def result (x : Prog σ α) (s : σ) : Option α :=
  match x s with
  | .ok a _ => some a
  | .error _ _ => none

/-- The value that a program returns, or why it returns none. -/
def outcome (x : Prog σ α) (s : σ) : Except Failure α :=
  match x s with
  | .ok a _ => .ok a
  | .error e _ => .error e

/-! ## Running programs -/

@[simp] theorem run_pure (a : α) (s : σ) : (pure a : Prog σ α) s = .ok a s := rfl

@[simp] theorem run_throw (e : Failure) (s : σ) : (throw e : Prog σ α) s = .error e s := rfl

@[simp] theorem run_get (s : σ) : (get : Prog σ σ) s = .ok s s := rfl

@[simp] theorem run_set (t s : σ) : (set t : Prog σ PUnit) s = .ok ⟨⟩ t := rfl

@[simp] theorem run_modify (f : σ → σ) (s : σ) :
    (modify f : Prog σ PUnit) s = .ok ⟨⟩ (f s) := rfl

theorem run_bind (x : Prog σ α) (f : α → Prog σ β) (s : σ) :
    (x >>= f) s = match x s with
      | .ok a t => f a t
      | .error e t => .error e t := by
  change EStateM.bind x f s = _
  unfold EStateM.bind
  cases x s <;> rfl

@[simp] theorem run_map (f : α → β) (x : Prog σ α) (s : σ) :
    (f <$> x) s = match x s with
      | .ok a t => .ok (f a) t
      | .error e t => .error e t := by
  rw [← bind_pure_comp, run_bind]
  rfl

/-- The continuation runs from where a successful program stopped. -/
theorem bind_ok {x : Prog σ α} {f : α → Prog σ β} {s t : σ} {a : α} (h : x s = .ok a t) :
    (x >>= f) s = f a t := by
  rw [run_bind, h]

theorem bind_error {x : Prog σ α} {f : α → Prog σ β} {s t : σ} {e : Failure}
    (h : x s = .error e t) : (x >>= f) s = .error e t := by
  rw [run_bind, h]

/-- A successful bind is two successful programs. -/
theorem bind_eq_ok {x : Prog σ α} {f : α → Prog σ β} {s u : σ} {b : β} :
    (x >>= f) s = .ok b u ↔ ∃ a t, x s = .ok a t ∧ f a t = .ok b u := by
  rw [run_bind]
  cases hx : x s with
  | ok a t =>
      constructor
      · exact fun h => ⟨a, t, rfl, h⟩
      · rintro ⟨_, _, ⟨⟩, h⟩
        exact h
  | error e t => simp

theorem pure_eq_ok {a b : α} {s t : σ} :
    (pure a : Prog σ α) s = .ok b t ↔ b = a ∧ t = s := by
  simp [eq_comm]

theorem throwIf_eq_ok {b : Bool} {what : String} {u : Unit} {s t : σ} :
    (throwIf b what : Prog σ Unit) s = .ok u t ↔ b = false ∧ t = s := by
  cases b <;> simp [throwIf, eq_comm]

theorem assert_eq_ok {b : Bool} {condition : String} {u : Unit} {s t : σ} :
    (assert b condition : Prog σ Unit) s = .ok u t ↔ b = true ∧ t = s := by
  cases b <;> simp [assert, eq_comm]

theorem sub_eq_ok {a b n : Nat} {s t : σ} :
    (sub a b : Prog σ Nat) s = .ok n t ↔ b ≤ a ∧ n = a - b ∧ t = s := by
  unfold sub
  split
  · simp [*, eq_comm]
  · simp [*]

@[simp] theorem run_pure_bind (a : α) (f : α → Prog σ β) (s : σ) :
    ((pure a : Prog σ α) >>= f) s = f a s := rfl

@[simp] theorem run_throw_bind (e : Failure) (f : α → Prog σ β) (s : σ) :
    ((throw e : Prog σ α) >>= f) s = .error e s := rfl

@[simp] theorem run_get_bind (f : σ → Prog σ β) (s : σ) :
    ((get : Prog σ σ) >>= f) s = f s s := rfl

@[simp] theorem run_set_bind (t : σ) (f : PUnit → Prog σ β) (s : σ) :
    ((set t : Prog σ PUnit) >>= f) s = f ⟨⟩ t := rfl

@[simp] theorem run_modify_bind (g : σ → σ) (f : PUnit → Prog σ β) (s : σ) :
    ((modify g : Prog σ PUnit) >>= f) s = f ⟨⟩ (g s) := rfl

@[simp] theorem run_ite (c : Prop) [Decidable c] (x y : Prog σ α) (s : σ) :
    (if c then x else y) s = if c then x s else y s := by
  split <;> rfl

@[simp] theorem assert_true (c : String) : (assert true c : Prog σ Unit) = pure () := rfl

@[simp] theorem assert_false (c : String) :
    (assert false c : Prog σ Unit) = throw (.assertion c) := rfl

@[simp] theorem throwIf_false (w : String) : (throwIf false w : Prog σ Unit) = pure () := rfl

@[simp] theorem throwIf_true (w : String) :
    (throwIf true w : Prog σ Unit) = throw (.exception w) := rfl

theorem sub_of_le {a b : Nat} (h : b ≤ a) : (sub a b : Prog σ Nat) = pure (a - b) := by
  simp [sub, h]

@[simp] theorem run_ofExcept_ok (a : α) (s : σ) :
    (ofExcept (.ok a) : Prog σ α) s = .ok a s := rfl

@[simp] theorem run_ofExcept_error (what : String) (s : σ) :
    (ofExcept (.error what) : Prog σ α) s = .error (.exception what) s := rfl

@[simp] theorem run_ofExcept_ok_bind (a : α) (f : α → Prog σ β) (s : σ) :
    ((ofExcept (.ok a) : Prog σ α) >>= f) s = f a s := rfl

@[simp] theorem run_ofExcept_error_bind (what : String) (f : α → Prog σ β) (s : σ) :
    ((ofExcept (.error what) : Prog σ α) >>= f) s = .error (.exception what) s := rfl

theorem run_on {τ : Type} (view : σ → τ) (put : τ → σ → σ) (x : Prog τ α) (s : σ) :
    on view put x s = match x (view s) with
      | .ok a t => .ok a (put t s)
      | .error e t => .error e (put t s) := rfl

theorem result_eq_some {x : Prog σ α} {s : σ} {a : α} :
    x.result s = some a ↔ ∃ t, x s = .ok a t := by
  unfold result
  cases x s with
  | ok b t => simp
  | error e t => simp

theorem result_ok {x : Prog σ α} {s t : σ} {a : α} (h : x s = .ok a t) : x.result s = some a := by
  rw [result, h]

theorem result_error {x : Prog σ α} {s t : σ} {e : Failure} (h : x s = .error e t) :
    x.result s = none := by
  rw [result, h]

theorem result_bind_pure {f : α → β} {x : Prog σ α} {s : σ} :
    (x >>= fun a => pure (f a)).result s = (x.result s).map f := by
  unfold result
  rw [run_bind]
  cases x s <;> rfl

theorem result_bind {f : α → Prog σ β} {x : Prog σ α} {s t : σ} {a : α} (h : x s = .ok a t) :
    (x >>= f).result s = (f a).result t := by
  rw [result, bind_ok h, result]

/-- The result is what the outcome has of a value. -/
theorem result_eq_outcome (x : Prog σ α) (s : σ) : x.result s = (x.outcome s).toOption := by
  unfold result outcome
  cases x s <;> rfl

theorem outcome_on {τ : Type} {view : σ → τ} {put : τ → σ → σ} {x : Prog τ α} {s : σ} :
    (on view put x).outcome s = x.outcome (view s) := by
  unfold outcome
  rw [run_on]
  cases x (view s) <;> rfl

theorem outcome_bind {f : α → Prog σ β} {x : Prog σ α} {s t : σ} {a : α} (h : x s = .ok a t) :
    (x >>= f).outcome s = (f a).outcome t := by
  rw [outcome, bind_ok h, outcome]

theorem outcome_bind_pure {f : α → β} {x : Prog σ α} {s : σ} :
    (x >>= fun a => pure (f a)).outcome s = (x.outcome s).map f := by
  unfold outcome
  rw [run_bind]
  cases x s <;> rfl

theorem after_ok {x : Prog σ α} {s t : σ} {a : α} (h : x s = .ok a t) : x.after s = t := by
  rw [after, h]

theorem after_error {x : Prog σ α} {s t : σ} {e : Failure} (h : x s = .error e t) :
    x.after s = t := by
  rw [after, h]

/-! ## Postconditions -/

/-- After the program on `s`, `Q` holds of the result and the state, or `E` of the failure and the
    state. -/
def Post (x : Prog σ α) (s : σ) (Q : α → σ → Prop) (E : Failure → σ → Prop) : Prop :=
  match x s with
  | .ok a t => Q a t
  | .error e t => E e t

section Post

variable {x : Prog σ α} {s : σ} {Q : α → σ → Prop} {E : Failure → σ → Prop}

theorem Post.of_ok {a : α} {t : σ} (h : x.Post s Q E) (hrun : x s = .ok a t) : Q a t := by
  rwa [Post, hrun] at h

theorem Post.of_error {e : Failure} {t : σ} (h : x.Post s Q E) (hrun : x s = .error e t) :
    E e t := by
  rwa [Post, hrun] at h

theorem Post.ok {a : α} {t : σ} (hrun : x s = .ok a t) (h : Q a t) : x.Post s Q E := by
  rwa [Post, hrun]

theorem Post.error {e : Failure} {t : σ} (hrun : x s = .error e t) (h : E e t) : x.Post s Q E := by
  rwa [Post, hrun]

/-- A program that does not fail returns. -/
theorem Post.exists_ok (h : x.Post s Q (fun _ _ => False)) : ∃ a t, x s = .ok a t ∧ Q a t := by
  cases hrun : x s with
  | ok a t => exact ⟨a, t, rfl, h.of_ok hrun⟩
  | error e t => exact (h.of_error hrun).elim

theorem Post.of_after {P : σ → Prop} (h : x.Post s (fun _ => P) (fun _ => P)) :
    P (x.after s) := by
  cases hrun : x s with
  | ok a t =>
      rw [after_ok hrun]
      exact h.of_ok hrun
  | error e t =>
      rw [after_error hrun]
      exact h.of_error hrun

theorem Post.mono {R : α → σ → Prop} {F : Failure → σ → Prop} (h : x.Post s Q E)
    (hQ : ∀ a t, Q a t → R a t) (hE : ∀ e t, E e t → F e t) : x.Post s R F := by
  unfold Post at h ⊢
  cases hrun : x s with
  | ok a t =>
      rw [hrun] at h
      exact hQ a t h
  | error e t =>
      rw [hrun] at h
      exact hE e t h

theorem Post.and {R : α → σ → Prop} {F : Failure → σ → Prop} (h : x.Post s Q E)
    (h' : x.Post s R F) : x.Post s (fun a t => Q a t ∧ R a t) (fun e t => E e t ∧ F e t) := by
  unfold Post at h h' ⊢
  cases hrun : x s with
  | ok a t =>
      rw [hrun] at h h'
      exact ⟨h, h'⟩
  | error e t =>
      rw [hrun] at h h'
      exact ⟨h, h'⟩

theorem Post.pure {a : α} (h : Q a s) : (pure a : Prog σ α).Post s Q E := h

theorem Post.throw {e : Failure} (h : E e s) : (throw e : Prog σ α).Post s Q E := h

theorem Post.bind {f : α → Prog σ β} {R : β → σ → Prop}
    (h : x.Post s (fun a t => (f a).Post t R E) E) : (x >>= f).Post s R E := by
  unfold Post at h ⊢
  rw [run_bind]
  cases hrun : x s with
  | ok a t =>
      rw [hrun] at h
      exact h
  | error e t =>
      rw [hrun] at h
      exact h

theorem Post.get_bind {f : σ → Prog σ β} {R : β → σ → Prop} (h : (f s).Post s R E) :
    (get >>= f).Post s R E := h

theorem Post.modify {g : σ → σ} {R : PUnit → σ → Prop} (h : R ⟨⟩ (g s)) :
    (modify g : Prog σ PUnit).Post s R E := h

theorem Post.set {t : σ} {R : PUnit → σ → Prop} (h : R ⟨⟩ t) :
    (set t : Prog σ PUnit).Post s R E := h

theorem Post.ite {c : Prop} [Decidable c] {y : Prog σ α} (hx : c → x.Post s Q E)
    (hy : ¬ c → y.Post s Q E) : (if c then x else y).Post s Q E := by
  split
  · exact hx ‹_›
  · exact hy ‹_›

theorem Post.ofExcept {result : Except String α} (hok : ∀ a, result = .ok a → Q a s)
    (herror : ∀ what, result = .error what → E (.exception what) s) :
    (ofExcept result : Prog σ α).Post s Q E := by
  cases result with
  | ok a => exact hok a rfl
  | error what => exact herror what rfl

theorem Post.on {τ : Type} {view : σ → τ} {put : τ → σ → σ} {y : Prog τ α}
    (h : y.Post (view s) (fun a t => Q a (put t s)) (fun e t => E e (put t s))) :
    (on view put y).Post s Q E := by
  unfold Post at h ⊢
  rw [run_on]
  cases hrun : y (view s) with
  | ok a t =>
      rw [hrun] at h
      exact h
  | error e t =>
      rw [hrun] at h
      exact h

/-- A function on a part of the state leaves the rest alone. -/
theorem Post.on_frame {τ : Type} {view : σ → τ} {put : τ → σ → σ} {y : Prog τ α} :
    (Prog.on view put y).Post s (fun _ s' => ∃ t, s' = put t s) (fun _ s' => ∃ t, s' = put t s) := by
  refine Post.on ?_
  unfold Post
  cases y (view s) with
  | ok a t => exact ⟨t, rfl⟩
  | error e t => exact ⟨t, rfl⟩

theorem Post.catchException {handle : String → Prog σ α}
    (h : x.Post s Q (fun e t => match e with
      | .exception what => (handle what).Post t Q E
      | e => E e t)) : (catchException x handle).Post s Q E := by
  unfold Post at h ⊢
  unfold Prog.catchException
  cases hrun : x s with
  | ok a t =>
      rw [hrun] at h
      exact h
  | error e t =>
      rw [hrun] at h
      cases e <;> exact h

end Post

end Prog
