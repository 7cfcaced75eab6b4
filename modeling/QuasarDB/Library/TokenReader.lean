import QuasarDB.Library.Prog
import Mathlib.Computability.Language
import Mathlib.Order.CompletePartialOrder

set_option autoImplicit false

/-! # Programs that read tokens

A recursive-descent parser is a program whose state is the list of tokens still to be read. Its two
control structures are taking the next token if it passes a test, and a loop that goes on as long as
the next token is a separator. Three rules of reasoning come with them: what a successful run has
consumed (`Consumes`), what a run does on a given input (the run lemmas and `Loops`), and that no
loop runs out of rounds (`Ends`). A fourth one, `Returns`, carries a property of all tokens over to
what is built from them. -/

/-- A program that reads tokens from the front of a list. -/
abbrev TokenReader (τ α : Type) : Type := Prog (List τ) α

namespace TokenReader

variable {τ α β : Type}

/-- `if (p(Peek())) Advance();` -/
def takeIf (p : τ → Bool) : TokenReader τ (Option τ)
  | [] => .ok none []
  | t :: ts => if p t then .ok (some t) ts else .ok none (t :: ts)

/-- `while (sep(Peek())) { Advance(); a = step(a); }`, with a bound on the rounds. -/
def loopFor (sep : τ → Bool) (step : α → TokenReader τ α) : Nat → α → TokenReader τ α
  | 0, _ => throw .endless
  | rounds + 1, a => do
      match ← takeIf sep with
      | none => return a
      | some _ => loopFor sep step rounds (← step a)

/-- The loop of `loopFor` with a round for every token. -/
def loop (sep : τ → Bool) (step : α → TokenReader τ α) (a : α) : TokenReader τ α := do
  let tokens ← get
  loopFor sep step (tokens.length + 1) a

/-- One item, and further ones as long as a separator follows. -/
def separated (sep : τ → Bool) (item : TokenReader τ α) : TokenReader τ (List α) := do
  let first ← item
  loop sep (fun items => do return items ++ [← item]) [first]

/-! ## Running the token primitives -/

@[simp] theorem takeIf_nil (p : τ → Bool) : takeIf p [] = .ok none [] := rfl

theorem takeIf_cons (p : τ → Bool) (t : τ) (ts : List τ) :
    takeIf p (t :: ts) = if p t then .ok (some t) ts else .ok none (t :: ts) := rfl

@[simp] theorem takeIf_pos {p : τ → Bool} {t : τ} (h : p t = true) (ts : List τ) :
    takeIf p (t :: ts) = .ok (some t) ts := by
  rw [takeIf_cons, if_pos h]

@[simp] theorem takeIf_neg {p : τ → Bool} {t : τ} (h : p t = false) (ts : List τ) :
    takeIf p (t :: ts) = .ok none (t :: ts) := by
  rw [takeIf_cons, if_neg (by simp [h])]

/-- The next token, if there is one, does not pass the test. -/
def NextIsNot (p : τ → Bool) (tokens : List τ) : Prop := ∀ t ∈ tokens.head?, p t = false

@[simp] theorem nextIsNot_nil (p : τ → Bool) : NextIsNot p [] := by
  simp [NextIsNot]

@[simp] theorem nextIsNot_cons {p : τ → Bool} {t : τ} {ts : List τ} :
    NextIsNot p (t :: ts) ↔ p t = false := by
  simp [NextIsNot]

theorem takeIf_of_nextIsNot {p : τ → Bool} {ts : List τ} (h : NextIsNot p ts) :
    takeIf p ts = .ok none ts := by
  cases ts with
  | nil => rfl
  | cons t ts => exact takeIf_neg (nextIsNot_cons.1 h) ts

/-! ## What a successful run has consumed -/

/-- A successful run takes a prefix of the tokens off, which stands in `R` to the result. -/
def Consumes (p : TokenReader τ α) (R : α → List τ → Prop) : Prop :=
  ∀ ts a rest, p ts = .ok a rest → ∃ used, ts = used ++ rest ∧ R a used

theorem Consumes.mono {p : TokenReader τ α} {R S : α → List τ → Prop} (h : Consumes p R)
    (hRS : ∀ a used, R a used → S a used) : Consumes p S := by
  intro ts a rest hrun
  obtain ⟨used, hts, hR⟩ := h ts a rest hrun
  exact ⟨used, hts, hRS a used hR⟩

theorem Consumes.pure {a : α} {R : α → List τ → Prop} (h : R a []) :
    Consumes (pure a : TokenReader τ α) R := by
  rintro ts _ rest ⟨⟩
  exact ⟨[], rfl, h⟩

theorem Consumes.throw {e : Failure} {R : α → List τ → Prop} :
    Consumes (throw e : TokenReader τ α) R := by
  rintro ts _ rest ⟨⟩

theorem Consumes.bind {p : TokenReader τ α} {f : α → TokenReader τ β} {R : α → List τ → Prop}
    {S : β → List τ → Prop} (hp : Consumes p R)
    (hf : ∀ a used, R a used → Consumes (f a) (fun b more => S b (used ++ more))) :
    Consumes (p >>= f) S := by
  intro ts b rest hrun
  obtain ⟨a, mid, hp', hf'⟩ := Prog.bind_eq_ok.1 hrun
  obtain ⟨used, rfl, hR⟩ := hp ts a mid hp'
  obtain ⟨more, rfl, hS⟩ := hf a used hR mid b rest hf'
  exact ⟨used ++ more, by simp, hS⟩

theorem Consumes.get_bind {f : List τ → TokenReader τ α} {R : α → List τ → Prop}
    (hf : ∀ ts, Consumes (f ts) R) : Consumes (get >>= f) R := by
  intro ts a rest hrun
  exact hf ts ts a rest hrun

theorem Consumes.ite {c : Prop} [Decidable c] {p q : TokenReader τ α} {R : α → List τ → Prop}
    (hp : c → Consumes p R) (hq : ¬ c → Consumes q R) : Consumes (if c then p else q) R := by
  split
  · exact hp ‹_›
  · exact hq ‹_›

/-- Taking a token: the rest of the program goes on with it or without it. -/
theorem Consumes.takeIf_bind {p : τ → Bool} {f : Option τ → TokenReader τ β}
    {S : β → List τ → Prop}
    (hsome : ∀ t, p t = true → Consumes (f (some t)) (fun b more => S b (t :: more)))
    (hnone : Consumes (f none) S) : Consumes (takeIf p >>= f) S := by
  intro ts b rest hrun
  obtain ⟨o, mid, htake, hrest⟩ := Prog.bind_eq_ok.1 hrun
  cases ts with
  | nil =>
      cases htake
      exact hnone _ _ _ hrest
  | cons t ts =>
      rw [takeIf_cons] at htake
      by_cases ht : p t = true
      · rw [if_pos ht] at htake
        cases htake
        obtain ⟨more, rfl, hS⟩ := hsome t ht _ _ _ hrest
        exact ⟨t :: more, rfl, hS⟩
      · rw [if_neg ht] at htake
        cases htake
        exact hnone _ _ _ hrest

theorem Consumes.loopFor {sep : τ → Bool} {step : α → TokenReader τ α} {R : α → List τ → Prop}
    (hstep : ∀ a used t, R a used → sep t = true →
      Consumes (step a) (fun b more => R b (used ++ t :: more)))
    (rounds : Nat) : ∀ (a : α) (used : List τ), R a used →
      Consumes (loopFor sep step rounds a) (fun b more => R b (used ++ more)) := by
  induction rounds with
  | zero => exact fun _ _ _ => Consumes.throw
  | succ rounds ih =>
      intro a used hR
      refine Consumes.takeIf_bind ?_ (Consumes.pure (by simpa using hR))
      intro t ht
      refine Consumes.bind (hstep a used t hR ht) ?_
      intro b more hb
      exact (ih b _ hb).mono (fun c last hc => by simpa using hc)

/-- The loop rule: `R` relates what has been built to all that has been consumed for it. -/
theorem Consumes.loop {sep : τ → Bool} {step : α → TokenReader τ α} {R : α → List τ → Prop}
    {a : α} {used : List τ} (h : R a used)
    (hstep : ∀ a used t, R a used → sep t = true →
      Consumes (step a) (fun b more => R b (used ++ t :: more))) :
    Consumes (loop sep step a) (fun b more => R b (used ++ more)) :=
  Consumes.get_bind (fun ts => Consumes.loopFor hstep (ts.length + 1) a used h)

/-- A successful run leaves no more tokens than it was given. -/
theorem Consumes.length_le {p : TokenReader τ α} {R : α → List τ → Prop} (h : Consumes p R)
    {ts rest : List τ} {a : α} (hrun : p ts = .ok a rest) : rest.length ≤ ts.length := by
  obtain ⟨used, rfl, -⟩ := h ts a rest hrun
  simp

/-! ## Languages -/

/-- Sentences of `A` with sentences of `S` between them. -/
def separatedBy (S A : Language τ) : Language τ := A * KStar.kstar (S * A)

/-- A sentence of `A`, or nothing. -/
def opt (A : Language τ) : Language τ := 1 + A

/-- The one-token sentences whose token passes a test. -/
def oneToken (p : τ → Bool) : Language τ := {used | ∃ t, p t = true ∧ used = [t]}

theorem mem_oneToken {p : τ → Bool} {t : τ} (h : p t = true) : [t] ∈ oneToken p :=
  ⟨t, h, rfl⟩

theorem append_mem_separatedBy {S A : Language τ} {u s v : List τ} (hu : u ∈ separatedBy S A)
    (hs : s ∈ S) (hv : v ∈ A) : u ++ (s ++ v) ∈ separatedBy S A := by
  obtain ⟨x, hx, y, hy, rfl⟩ := Language.mem_mul.1 hu
  rw [List.append_assoc]
  have hlast : y ++ (s ++ v) ∈ KStar.kstar (S * A) * (S * A) :=
    Language.append_mem_mul hy (Language.append_mem_mul hs hv)
  have hstar : KStar.kstar (S * A) * (S * A) ≤ KStar.kstar (S * A) := kstar_mul_le_kstar
  exact Language.append_mem_mul hx (hstar hlast)

theorem mem_separatedBy_of_mem {S A : Language τ} {u : List τ} (hu : u ∈ A) :
    u ∈ separatedBy S A := by
  have h := Language.append_mem_mul hu (Language.nil_mem_kstar (S * A))
  rwa [List.append_nil] at h

theorem cons_mem_separatedBy {S A : Language τ} {u s v : List τ} (hu : u ∈ A) (hs : s ∈ S)
    (hv : v ∈ separatedBy S A) : u ++ (s ++ v) ∈ separatedBy S A := by
  obtain ⟨x, hx, y, hy, rfl⟩ := Language.mem_mul.1 hv
  have hstar : S * A * KStar.kstar (S * A) ≤ KStar.kstar (S * A) := mul_kstar_le_kstar
  have hmore : s ++ (x ++ y) ∈ S * A * KStar.kstar (S * A) := by
    rw [← List.append_assoc]
    exact Language.append_mem_mul (Language.append_mem_mul hs hx) hy
  exact Language.append_mem_mul hu (hstar hmore)

/-- The sentences all of whose tokens have a property. -/
def allTokens (P : τ → Prop) : Language τ := {w | ∀ t ∈ w, P t}

section AllTokens

variable {P : τ → Prop} {L M : Language τ}

theorem one_le_allTokens : 1 ≤ allTokens P := by
  rintro w rfl
  exact fun t ht => absurd ht (by simp)

theorem add_le_allTokens (hL : L ≤ allTokens P) (hM : M ≤ allTokens P) :
    L + M ≤ allTokens P := by
  rintro w (hw | hw)
  · exact hL hw
  · exact hM hw

theorem mul_le_allTokens (hL : L ≤ allTokens P) (hM : M ≤ allTokens P) :
    L * M ≤ allTokens P := by
  intro w hw
  obtain ⟨u, hu, v, hv, rfl⟩ := Language.mem_mul.1 hw
  intro t ht
  rcases List.mem_append.1 ht with ht | ht
  · exact hL hu t ht
  · exact hM hv t ht

theorem opt_le_allTokens (hL : L ≤ allTokens P) : opt L ≤ allTokens P :=
  add_le_allTokens one_le_allTokens hL

theorem kstar_le_allTokens (hL : L ≤ allTokens P) : KStar.kstar L ≤ allTokens P := by
  intro w hw
  obtain ⟨parts, rfl, hparts⟩ := Language.mem_kstar.1 hw
  intro t ht
  obtain ⟨part, hpart, htp⟩ := List.mem_flatten.1 ht
  exact hL (hparts part hpart) t htp

theorem separatedBy_le_allTokens (hL : L ≤ allTokens P) (hM : M ≤ allTokens P) :
    separatedBy L M ≤ allTokens P :=
  mul_le_allTokens hM (kstar_le_allTokens (mul_le_allTokens hL hM))

end AllTokens

/-- A list of items is a list of other items if each of its items is one. -/
theorem separatedBy_mono_of_allTokens {S A B : Language τ} {P : τ → Prop}
    (hAB : ∀ v ∈ A, (∀ t ∈ v, P t) → v ∈ B) {w : List τ} (hw : w ∈ separatedBy S A)
    (hP : ∀ t ∈ w, P t) : w ∈ separatedBy S B := by
  obtain ⟨u, hu, v, hv, rfl⟩ := Language.mem_mul.1 hw
  obtain ⟨parts, rfl, hparts⟩ := Language.mem_kstar.1 hv
  have hfirst := hAB u hu (fun t ht => hP t (by simp [ht]))
  refine Language.append_mem_mul hfirst (Language.mem_kstar.2 ⟨parts, rfl, ?_⟩)
  intro part hpart
  obtain ⟨s, hs, v, hv, rfl⟩ := Language.mem_mul.1 (hparts part hpart)
  refine Language.append_mem_mul hs (hAB v hv (fun t ht => hP t ?_))
  exact List.mem_append.2 (.inr (List.mem_flatten.2 ⟨_, hpart, by simp [ht]⟩))

/-- A successful run takes off a sentence of `L`. -/
def Within (p : TokenReader τ α) (L : Language τ) : Prop := Consumes p (fun _ used => used ∈ L)

theorem Within.mono {p : TokenReader τ α} {L M : Language τ} (h : Within p L) (hLM : L ≤ M) :
    Within p M :=
  Consumes.mono h (fun _ _ hu => hLM hu)

theorem Within.pure (a : α) : Within (pure a : TokenReader τ α) 1 :=
  Consumes.pure Language.nil_mem_one

theorem Within.throw (e : Failure) (L : Language τ) : Within (throw e : TokenReader τ α) L :=
  Consumes.throw

theorem Within.bind {p : TokenReader τ α} {f : α → TokenReader τ β} {L M : Language τ}
    (hp : Within p L) (hf : ∀ a, Within (f a) M) : Within (p >>= f) (L * M) := by
  refine Consumes.bind hp ?_
  intro a used hu
  exact Consumes.mono (hf a) (fun _ _ hm => Language.append_mem_mul hu hm)

/-- What follows the program consumes nothing. -/
theorem Within.bind_pure {p : TokenReader τ α} {f : α → TokenReader τ β} {L : Language τ}
    (hp : Within p L) (hf : ∀ a, Within (f a) 1) : Within (p >>= f) L := by
  have h := Within.bind hp hf
  rwa [mul_one] at h

theorem Within.ite {c : Prop} [Decidable c] {p q : TokenReader τ α} {L : Language τ}
    (hp : c → Within p L) (hq : ¬ c → Within q L) : Within (if c then p else q) L :=
  Consumes.ite hp hq

theorem Within.takeIf_bind {p : τ → Bool} {f : Option τ → TokenReader τ β} {L M : Language τ}
    (hsome : ∀ t, p t = true → Within (f (some t)) L) (hnone : Within (f none) M) :
    Within (takeIf p >>= f) (oneToken p * L + M) := by
  refine Consumes.takeIf_bind ?_ (Consumes.mono hnone (fun _ _ hm => Or.inr hm))
  intro t ht
  refine Consumes.mono (hsome t ht) ?_
  intro _ more hm
  exact Or.inl (Language.append_mem_mul (mem_oneToken ht) hm)

theorem Within.separated {sep : τ → Bool} {item : TokenReader τ α} {A : Language τ}
    (h : Within item A) : Within (separated sep item) (separatedBy (oneToken sep) A) := by
  refine Consumes.bind h ?_
  intro first used hu
  refine Consumes.loop (R := fun _ w => w ∈ separatedBy (oneToken sep) A)
    (mem_separatedBy_of_mem hu) ?_
  intro items used t hused ht
  refine Consumes.bind h ?_
  intro item more hm
  refine Consumes.pure ?_
  have := append_mem_separatedBy hused (mem_oneToken ht) hm
  rwa [List.append_nil]

/-! ## What a run does on a given input -/

/-- What the loop does from `a` on: it stops before a token that is no separator, or goes one round
    further. -/
inductive Loops (sep : τ → Bool) (step : α → TokenReader τ α) :
    α → List τ → α → List τ → Prop where
  | done {a : α} {ts : List τ} (h : NextIsNot sep ts) : Loops sep step a ts a ts
  | round {a b c : α} {t : τ} {ts mid rest : List τ} (hsep : sep t = true)
      (hstep : step a ts = .ok b mid) (hlen : mid.length ≤ ts.length)
      (h : Loops sep step b mid c rest) : Loops sep step a (t :: ts) c rest

theorem Loops.run {sep : τ → Bool} {step : α → TokenReader τ α} {a b : α} {ts rest : List τ}
    (h : Loops sep step a ts b rest) :
    ∀ rounds, ts.length < rounds → loopFor sep step rounds a ts = .ok b rest := by
  induction h with
  | done h =>
      intro rounds hr
      obtain ⟨rounds, rfl⟩ : ∃ n, rounds = n + 1 := ⟨rounds - 1, by omega⟩
      rw [loopFor, Prog.bind_ok (takeIf_of_nextIsNot h)]
      rfl
  | round hsep hstep hlen _ ih =>
      intro rounds hr
      obtain ⟨rounds, rfl⟩ : ∃ n, rounds = n + 1 := ⟨rounds - 1, by omega⟩
      rw [loopFor, Prog.bind_ok (takeIf_pos hsep _)]
      show (step _ >>= loopFor sep step rounds) _ = _
      rw [Prog.bind_ok hstep]
      rw [List.length_cons] at hr
      exact ih rounds (by omega)

/-- A loop has a round for every token, which is more than it can use. -/
theorem Loops.loop_eq {sep : τ → Bool} {step : α → TokenReader τ α} {a b : α} {ts rest : List τ}
    (h : Loops sep step a ts b rest) : loop sep step a ts = .ok b rest := by
  show loopFor sep step (ts.length + 1) a ts = _
  exact h.run _ (Nat.lt_succ_self _)

/-- Items with separators between them are read as the list they are. An item may have to look at
    what follows it: `F` holds of a separator and of the rest. -/
theorem separated_run {sep : τ → Bool} {item : TokenReader τ α} {write : α → List τ}
    {F : List τ → Prop} {s : τ} {a : α} {as : List α} {rest : List τ} (hs : sep s = true)
    (hitem : ∀ x ∈ a :: as, ∀ rest, F rest → item (write x ++ rest) = .ok x rest)
    (hF : ∀ ts, F (s :: ts)) (hrest : F rest) (hstop : NextIsNot sep rest) :
    separated sep item (write a ++ (as.flatMap (fun b => s :: write b) ++ rest)) =
      .ok (a :: as) rest := by
  have hfollow : ∀ bs : List α, F (bs.flatMap (fun b => s :: write b) ++ rest) := by
    intro bs
    cases bs with
    | nil => simpa using hrest
    | cons b bs => simpa using hF _
  have hloops : ∀ (bs done : List α), (∀ x ∈ bs, x ∈ a :: as) →
      Loops sep (fun items => do return items ++ [← item]) done
        (bs.flatMap (fun b => s :: write b) ++ rest) (done ++ bs) rest := by
    intro bs
    induction bs with
    | nil =>
        intro done _
        rw [List.append_nil]
        exact .done hstop
    | cons b bs ih =>
        intro done hbs
        have hb := hitem b (hbs b (by simp)) _ (hfollow bs)
        have hnext := ih (done ++ [b]) (fun x hx => hbs x (by simp [hx]))
        rw [List.append_assoc, List.singleton_append] at hnext
        rw [List.flatMap_cons, List.cons_append, List.cons_append, List.append_assoc]
        refine .round hs ?_ (by simp) hnext
        rw [Prog.bind_ok hb]
        rfl
  unfold separated
  rw [Prog.bind_ok (hitem a (by simp) _ (hfollow as))]
  exact (hloops as [a] (fun x hx => List.mem_cons_of_mem _ hx)).loop_eq

/-! ## Loops do not run out of rounds -/

/-- A run on at most `n` tokens that fails throws an exception: no loop runs out of rounds. -/
def Ends (n : Nat) (p : TokenReader τ α) : Prop :=
  ∀ ts, ts.length ≤ n → ∀ e rest, p ts = .error e rest → ∃ what, e = .exception what

theorem Ends.mono {n m : Nat} {p : TokenReader τ α} (h : Ends m p) (hnm : n ≤ m) : Ends n p :=
  fun ts hts => h ts (by omega)

theorem Ends.pure {n : Nat} {a : α} : Ends n (pure a : TokenReader τ α) := by
  intro ts _ e rest h
  cases h

theorem Ends.throw {n : Nat} {what : String} :
    Ends n (throw (.exception what) : TokenReader τ α) := by
  intro ts _ e rest h
  cases h
  exact ⟨what, rfl⟩

theorem Ends.bind {n : Nat} {p : TokenReader τ α} {f : α → TokenReader τ β}
    {R : α → List τ → Prop} (hp : Ends n p) (hR : Consumes p R) (hf : ∀ a, Ends n (f a)) :
    Ends n (p >>= f) := by
  intro ts hts e rest h
  cases hrun : p ts with
  | ok a mid =>
      rw [Prog.bind_ok hrun] at h
      exact hf a mid ((hR.length_le hrun).trans hts) e rest h
  | error failure mid =>
      rw [Prog.bind_error hrun] at h
      cases h
      exact hp ts hts _ _ hrun

theorem Ends.ite {n : Nat} {c : Prop} [Decidable c] {p q : TokenReader τ α} (hp : Ends n p)
    (hq : Ends n q) : Ends n (if c then p else q) := by
  split
  · exact hp
  · exact hq

theorem Ends.takeIf_bind {n : Nat} {p : τ → Bool} {f : Option τ → TokenReader τ β}
    (hsome : ∀ t, Ends (n - 1) (f (some t))) (hnone : Ends n (f none)) :
    Ends n (takeIf p >>= f) := by
  intro ts hts e rest h
  cases ts with
  | nil => exact hnone [] hts e rest h
  | cons t ts =>
      rw [List.length_cons] at hts
      by_cases ht : p t = true
      · rw [Prog.bind_ok (takeIf_pos ht ts)] at h
        exact hsome t ts (by omega) e rest h
      · rw [Prog.bind_ok (takeIf_neg (by simpa using ht) ts)] at h
        exact hnone (t :: ts) (by simpa using hts) e rest h

theorem Ends.loopFor {sep : τ → Bool} {step : α → TokenReader τ α} {R : List τ → Prop}
    (hR : ∀ a, Consumes (step a) (fun _ used => R used)) (rounds : Nat) :
    ∀ (n : Nat) (a : α), n < rounds → (∀ a, Ends n (step a)) →
      Ends n (loopFor sep step rounds a) := by
  induction rounds with
  | zero => exact fun n a hn => absurd hn (Nat.not_lt_zero n)
  | succ rounds ih =>
      intro n a hn hstep
      rcases Nat.eq_zero_or_pos n with rfl | hpos
      · intro ts hts e rest h
        have hnil : ts = [] := List.length_eq_zero_iff.1 (Nat.le_zero.1 hts)
        subst hnil
        simp [TokenReader.loopFor, Prog.run_bind] at h
      · refine Ends.takeIf_bind ?_ Ends.pure
        intro t
        refine Ends.bind ((hstep a).mono (by omega)) (hR a) ?_
        intro b
        exact ih (n - 1) b (by omega) (fun a => (hstep a).mono (by omega))

theorem Ends.loop {n : Nat} {sep : τ → Bool} {step : α → TokenReader τ α} {R : List τ → Prop}
    (hR : ∀ a, Consumes (step a) (fun _ used => R used)) (hstep : ∀ a, Ends n (step a)) (a : α) :
    Ends n (loop sep step a) := by
  intro ts hts e rest
  exact Ends.loopFor hR (ts.length + 1) ts.length a (by omega) (fun a => (hstep a).mono hts) ts
    le_rfl e rest

/-! ## Results inherit from the tokens -/

/-- On tokens that all have the property `P`, a successful run returns a result with `Q` and leaves
    such tokens behind. -/
def Returns (P : τ → Prop) (p : TokenReader τ α) (Q : α → Prop) : Prop :=
  ∀ ts, (∀ t ∈ ts, P t) → ∀ a rest, p ts = .ok a rest → Q a ∧ ∀ t ∈ rest, P t

section Returns

variable {P : τ → Prop}

theorem Returns.mono {p : TokenReader τ α} {Q S : α → Prop} (h : Returns P p Q)
    (hQS : ∀ a, Q a → S a) : Returns P p S := by
  intro ts hts a rest hrun
  obtain ⟨hQ, hrest⟩ := h ts hts a rest hrun
  exact ⟨hQS a hQ, hrest⟩

theorem Returns.pure {a : α} {Q : α → Prop} (h : Q a) :
    Returns P (pure a : TokenReader τ α) Q := by
  rintro ts hts _ rest ⟨⟩
  exact ⟨h, hts⟩

theorem Returns.throw {e : Failure} {Q : α → Prop} :
    Returns P (throw e : TokenReader τ α) Q := by
  rintro ts _ _ rest ⟨⟩

theorem Returns.bind {p : TokenReader τ α} {f : α → TokenReader τ β} {Q : α → Prop}
    {S : β → Prop} (hp : Returns P p Q) (hf : ∀ a, Q a → Returns P (f a) S) :
    Returns P (p >>= f) S := by
  intro ts hts b rest hrun
  obtain ⟨a, mid, hp', hf'⟩ := Prog.bind_eq_ok.1 hrun
  obtain ⟨hQ, hmid⟩ := hp ts hts a mid hp'
  exact hf a hQ mid hmid b rest hf'

theorem Returns.get_bind {f : List τ → TokenReader τ α} {Q : α → Prop}
    (hf : ∀ ts, Returns P (f ts) Q) : Returns P (get >>= f) Q := by
  intro ts hts a rest hrun
  exact hf ts ts hts a rest hrun

theorem Returns.ite {c : Prop} [Decidable c] {p q : TokenReader τ α} {Q : α → Prop}
    (hp : c → Returns P p Q) (hq : ¬ c → Returns P q Q) : Returns P (if c then p else q) Q := by
  split
  · exact hp ‹_›
  · exact hq ‹_›

theorem Returns.takeIf_bind {p : τ → Bool} {f : Option τ → TokenReader τ β} {S : β → Prop}
    (hsome : ∀ t, P t → p t = true → Returns P (f (some t)) S) (hnone : Returns P (f none) S) :
    Returns P (takeIf p >>= f) S := by
  intro ts hts b rest hrun
  cases ts with
  | nil => exact hnone [] hts b rest hrun
  | cons t ts =>
      by_cases ht : p t = true
      · rw [Prog.bind_ok (takeIf_pos ht ts)] at hrun
        exact hsome t (hts t (by simp)) ht ts (fun u hu => hts u (by simp [hu])) b rest hrun
      · rw [Prog.bind_ok (takeIf_neg (by simpa using ht) ts)] at hrun
        exact hnone (t :: ts) hts b rest hrun

theorem Returns.loopFor {sep : τ → Bool} {step : α → TokenReader τ α} {Q : α → Prop}
    (hstep : ∀ a, Q a → Returns P (step a) Q) (rounds : Nat) :
    ∀ a, Q a → Returns P (loopFor sep step rounds a) Q := by
  induction rounds with
  | zero => exact fun _ _ => Returns.throw
  | succ rounds ih =>
      intro a ha
      refine Returns.takeIf_bind (fun t _ _ => ?_) (Returns.pure ha)
      exact Returns.bind (hstep a ha) ih

theorem Returns.loop {sep : τ → Bool} {step : α → TokenReader τ α} {Q : α → Prop}
    (hstep : ∀ a, Q a → Returns P (step a) Q) {a : α} (ha : Q a) :
    Returns P (loop sep step a) Q :=
  Returns.get_bind (fun ts => Returns.loopFor hstep (ts.length + 1) a ha)

theorem Returns.separated {sep : τ → Bool} {item : TokenReader τ α} {Q : α → Prop}
    (h : Returns P item Q) : Returns P (separated sep item) (fun as => as ≠ [] ∧ ∀ a ∈ as, Q a) := by
  refine Returns.bind h (fun first hfirst => ?_)
  refine Returns.loop ?_ ⟨by simp, by simpa using hfirst⟩
  rintro items ⟨-, hitems⟩
  refine Returns.bind h (fun item hitem => Returns.pure ⟨by simp, ?_⟩)
  intro a ha
  rcases List.mem_append.1 ha with ha | ha
  · exact hitems a ha
  · rwa [List.mem_singleton.1 ha]

end Returns

end TokenReader
