import Mathlib.Algebra.Order.Ring.Int
import Mathlib.Data.List.Basic
import Mathlib.Order.Basic
import Mathlib.Data.List.Pairwise
import Mathlib.Data.List.TakeWhile

set_option autoImplicit false

/-! # Sorted association lists cut into chunks by separators

The entries of a search tree's leaves, read from left to right, are one association list with
strictly increasing keys, cut into chunks; between two neighbouring chunks stands a separator that
is above every key to its left and not above any key to its right (`Separated`). The file has the
two edits of a sorted list (insert and erase an entry), the way a key is routed to its chunk, and
the rule `Separated.replace` by which a run of chunks is rewritten in place while everything before
it keeps its separators. -/

variable {K V : Type} [LinearOrder K]

/-! ## Sorted association lists -/

/-- The keys increase strictly. -/
def SortedKeys (es : List (K × V)) : Prop := es.Pairwise fun a b => a.1 < b.1

namespace SortedKeys

theorem nil : SortedKeys ([] : List (K × V)) := List.Pairwise.nil

theorem append {a b : List (K × V)} :
    SortedKeys (a ++ b) ↔ SortedKeys a ∧ SortedKeys b ∧ ∀ x ∈ a, ∀ y ∈ b, x.1 < y.1 :=
  List.pairwise_append

theorem cons {e : K × V} {es : List (K × V)} :
    SortedKeys (e :: es) ↔ (∀ x ∈ es, e.1 < x.1) ∧ SortedKeys es :=
  List.pairwise_cons

theorem sublist {a b : List (K × V)} (h : SortedKeys b) (hab : a.Sublist b) : SortedKeys a :=
  List.Pairwise.sublist hab h

end SortedKeys

/-- The entries with a smaller key, from the front. -/
def keysBelow (es : List (K × V)) (k : K) : List (K × V) := es.takeWhile fun e => decide (e.1 < k)

/-- What follows `keysBelow`. -/
def keysFrom (es : List (K × V)) (k : K) : List (K × V) := es.dropWhile fun e => decide (e.1 < k)

theorem keysBelow_append_keysFrom (es : List (K × V)) (k : K) :
    keysBelow es k ++ keysFrom es k = es :=
  List.takeWhile_append_dropWhile

theorem lt_of_mem_keysBelow {es : List (K × V)} {k : K} {e : K × V} (h : e ∈ keysBelow es k) :
    e.1 < k := by
  have := List.mem_takeWhile_imp h
  simpa using this

theorem le_of_mem_keysFrom {es : List (K × V)} (hs : SortedKeys es) {k : K} {e : K × V}
    (h : e ∈ keysFrom es k) : k ≤ e.1 := by
  induction es with
  | nil => simp [keysFrom] at h
  | cons x es ih =>
      obtain ⟨hlt, hs'⟩ := SortedKeys.cons.1 hs
      by_cases hx : x.1 < k
      · rw [keysFrom, List.dropWhile_cons_of_pos (by simpa using hx)] at h
        exact ih hs' h
      · rw [keysFrom, List.dropWhile_cons_of_neg (by simpa using hx)] at h
        rcases List.mem_cons.1 h with rfl | h'
        · exact not_lt.1 hx
        · exact (not_lt.1 hx).trans (hlt _ h').le

/-- The entry put at its place in the order. -/
def insertEntry (es : List (K × V)) (k : K) (v : V) : List (K × V) :=
  keysBelow es k ++ (k, v) :: keysFrom es k

theorem mem_insertEntry {es : List (K × V)} {k : K} {v : V} {e : K × V} :
    e ∈ insertEntry es k v ↔ e = (k, v) ∨ e ∈ es := by
  conv_rhs => rw [← keysBelow_append_keysFrom es k]
  simp only [insertEntry, List.mem_append, List.mem_cons]
  tauto

theorem length_insertEntry (es : List (K × V)) (k : K) (v : V) :
    (insertEntry es k v).length = es.length + 1 := by
  conv_rhs => rw [← keysBelow_append_keysFrom es k]
  simp only [insertEntry, List.length_append, List.length_cons]
  omega

theorem SortedKeys.insertEntry {es : List (K × V)} (hs : SortedKeys es) {k : K} (v : V)
    (hk : ∀ e ∈ es, e.1 ≠ k) : SortedKeys (insertEntry es k v) := by
  have hsplit := hs
  rw [← keysBelow_append_keysFrom es k, SortedKeys.append] at hsplit
  obtain ⟨hb, hf, hbf⟩ := hsplit
  have hgt : ∀ e ∈ keysFrom es k, k < e.1 := fun e he =>
    lt_of_le_of_ne (le_of_mem_keysFrom hs he)
      (Ne.symm (hk e (by rw [← keysBelow_append_keysFrom es k]; simp [he])))
  refine SortedKeys.append.2 ⟨hb, SortedKeys.cons.2 ⟨hgt, hf⟩, ?_⟩
  intro x hx y hy
  rcases List.mem_cons.1 hy with rfl | hy'
  · exact lt_of_mem_keysBelow hx
  · exact hbf x hx y hy'

/-- A key that is present heads the entries from it on. -/
theorem keysFrom_of_mem {es : List (K × V)} (hs : SortedKeys es) {k : K} {v : V}
    (h : (k, v) ∈ es) : ∃ rest, keysFrom es k = (k, v) :: rest := by
  rw [← keysBelow_append_keysFrom es k, List.mem_append] at h
  rcases h with h | h
  · exact absurd (lt_of_mem_keysBelow h) (lt_irrefl _)
  · cases hf : keysFrom es k with
    | nil => rw [hf] at h; exact absurd h (by simp)
    | cons e rest =>
        rw [hf] at h
        rcases List.mem_cons.1 h with rfl | h'
        · exact ⟨rest, rfl⟩
        · have hsorted : SortedKeys (e :: rest) :=
            hs.sublist (by rw [← hf]; exact List.dropWhile_sublist _)
          have hle : k ≤ e.1 := le_of_mem_keysFrom hs (by rw [hf]; simp)
          exact absurd ((SortedKeys.cons.1 hsorted).1 _ h') (not_lt.2 hle)

/-- The entry with key `k` taken out. -/
def eraseKey (es : List (K × V)) (k : K) : List (K × V) := keysBelow es k ++ (keysFrom es k).tail

theorem eraseKey_eq {es : List (K × V)} {k : K} {v : V} {rest : List (K × V)}
    (h : keysFrom es k = (k, v) :: rest) : eraseKey es k = keysBelow es k ++ rest := by
  rw [eraseKey, h, List.tail_cons]

theorem mem_eraseKey {es : List (K × V)} (hs : SortedKeys es) {k : K} {v : V} (h : (k, v) ∈ es)
    {e : K × V} : e ∈ eraseKey es k ↔ e ∈ es ∧ e.1 ≠ k := by
  obtain ⟨rest, hf⟩ := keysFrom_of_mem hs h
  have hes : keysBelow es k ++ (k, v) :: rest = es := by
    rw [← hf]; exact keysBelow_append_keysFrom es k
  have hgt : ∀ x ∈ rest, k < x.1 := by
    have : SortedKeys ((k, v) :: rest) := hs.sublist (by rw [← hf]; exact List.dropWhile_sublist _)
    exact fun x hx => (SortedKeys.cons.1 this).1 x hx
  rw [eraseKey_eq hf, ← hes]
  simp only [List.mem_append, List.mem_cons]
  rw [hes]
  constructor
  · rintro (h | h)
    · exact ⟨Or.inl h, (lt_of_mem_keysBelow h).ne⟩
    · exact ⟨Or.inr (Or.inr h), (hgt e h).ne'⟩
  · rintro ⟨h | rfl | h, hne⟩
    · exact Or.inl h
    · exact absurd rfl hne
    · exact Or.inr h

theorem length_eraseKey {es : List (K × V)} (hs : SortedKeys es) {k : K} {v : V}
    (h : (k, v) ∈ es) : (eraseKey es k).length + 1 = es.length := by
  obtain ⟨rest, hf⟩ := keysFrom_of_mem hs h
  rw [eraseKey_eq hf]
  conv_rhs => rw [← keysBelow_append_keysFrom es k, hf]
  simp only [List.length_append, List.length_cons]
  omega

theorem eraseKey_sublist (es : List (K × V)) (k : K) : (eraseKey es k).Sublist es := by
  conv_rhs => rw [← keysBelow_append_keysFrom es k]
  exact List.Sublist.append_left (List.tail_sublist _) _

/-- The entry with key `k` given the value `v`. -/
def setEntry (es : List (K × V)) (k : K) (v : V) : List (K × V) :=
  keysBelow es k ++ (k, v) :: (keysFrom es k).tail

theorem setEntry_eq {es : List (K × V)} {k : K} {w : V} {rest : List (K × V)} (v : V)
    (h : keysFrom es k = (k, w) :: rest) : setEntry es k v = keysBelow es k ++ (k, v) :: rest := by
  rw [setEntry, h, List.tail_cons]

theorem length_setEntry {es : List (K × V)} (hs : SortedKeys es) {k : K} {w : V}
    (h : (k, w) ∈ es) (v : V) : (setEntry es k v).length = es.length := by
  obtain ⟨rest, hf⟩ := keysFrom_of_mem hs h
  rw [setEntry_eq v hf]
  conv_rhs => rw [← keysBelow_append_keysFrom es k, hf]
  simp only [List.length_append, List.length_cons]

theorem SortedKeys.setEntry {es : List (K × V)} (hs : SortedKeys es) {k : K} {w : V}
    (h : (k, w) ∈ es) (v : V) : SortedKeys (setEntry es k v) := by
  obtain ⟨rest, hf⟩ := keysFrom_of_mem hs h
  rw [← keysBelow_append_keysFrom es k, hf] at hs
  rw [setEntry_eq v hf]
  obtain ⟨hb, hr, hbr⟩ := SortedKeys.append.1 hs
  obtain ⟨hlt, hr'⟩ := SortedKeys.cons.1 hr
  refine SortedKeys.append.2 ⟨hb, SortedKeys.cons.2 ⟨hlt, hr'⟩, fun x hx y hy => ?_⟩
  rcases List.mem_cons.1 hy with rfl | hy'
  · exact lt_of_mem_keysBelow hx
  · exact hbr x hx y (List.mem_cons_of_mem _ hy')

theorem mem_setEntry {es : List (K × V)} (hs : SortedKeys es) {k : K} {w : V} (h : (k, w) ∈ es)
    (v : V) {e : K × V} : e ∈ setEntry es k v ↔ e = (k, v) ∨ e ∈ es ∧ e.1 ≠ k := by
  obtain ⟨rest, hf⟩ := keysFrom_of_mem hs h
  rw [← mem_eraseKey hs h, eraseKey_eq hf, setEntry_eq v hf]
  simp only [List.mem_append, List.mem_cons]
  tauto

/-! ## Chunks and separators -/

/-- `ks` separates the chunks: the `i`-th separator is above every key of the chunks up to the
    `i`-th and not above any key after it. There is one chunk more than there are separators. -/
def Separated : List K → List (List (K × V)) → Prop
  | [], [_] => True
  | k :: ks, c :: cs => (∀ e ∈ c, e.1 < k) ∧ (∀ e ∈ cs.flatten, k ≤ e.1) ∧ Separated ks cs
  | _, _ => False

/-- The separators in front of a tail of chunks with entries `tail`: each separator `ks[i]` follows
    the chunk `cs[i]`. -/
def SeparatedBefore : List K → List (List (K × V)) → List (K × V) → Prop
  | [], [], _ => True
  | k :: ks, c :: cs, tail =>
      (∀ e ∈ c, e.1 < k) ∧ (∀ e ∈ cs.flatten ++ tail, k ≤ e.1) ∧ SeparatedBefore ks cs tail
  | _, _, _ => False

theorem Separated.length_eq : ∀ {ks : List K} {cs : List (List (K × V))}, Separated ks cs →
    cs.length = ks.length + 1
  | [], [], h => h.elim
  | [], [_], _ => rfl
  | [], _ :: _ :: _, h => h.elim
  | _ :: _, [], h => h.elim
  | _ :: ks, _ :: cs, h => by
      have hlen : cs.length = ks.length + 1 := Separated.length_eq h.2.2
      simp [hlen]

theorem separated_append : ∀ {ks ks' : List K} {cs cs' : List (List (K × V))},
    ks.length = cs.length →
    (Separated (ks ++ ks') (cs ++ cs') ↔ SeparatedBefore ks cs cs'.flatten ∧ Separated ks' cs')
  | [], ks', [], cs', _ => by simp [SeparatedBefore]
  | [], _, _ :: _, _, h => by simp at h
  | _ :: _, _, [], _, h => by simp at h
  | k :: ks, ks', c :: cs, cs', h => by
      have ih : Separated (ks ++ ks') (cs ++ cs') ↔
          SeparatedBefore ks cs cs'.flatten ∧ Separated ks' cs' :=
        separated_append (by simpa using h)
      simp only [List.cons_append, Separated, SeparatedBefore, List.flatten_append, ih]
      tauto

/-- The separators before a tail stay correct when the tail gets entries only from itself or from
    keys that none of them is above. -/
theorem SeparatedBefore.mono : ∀ {ks : List K} {cs : List (List (K × V))} {t t' : List (K × V)},
    SeparatedBefore ks cs t → (∀ e ∈ t', e ∈ t ∨ ∀ k ∈ ks, k ≤ e.1) → SeparatedBefore ks cs t'
  | [], [], _, _, _, _ => trivial
  | [], _ :: _, _, _, h, _ => h.elim
  | _ :: _, [], _, _, h, _ => h.elim
  | k :: ks, c :: cs, t, t', h, ht => by
      obtain ⟨hc, hk, hrest⟩ := h
      refine ⟨hc, ?_, hrest.mono fun e he => (ht e he).imp id fun hks k' hk' => hks k' (by simp [hk'])⟩
      intro e he
      rcases List.mem_append.1 he with he' | he'
      · exact hk e (List.mem_append_left _ he')
      · rcases ht e he' with hmem | hks
        · exact hk e (List.mem_append_right _ hmem)
        · exact hks k (by simp)

theorem SeparatedBefore.lt_of_le : ∀ {ks : List K} {cs : List (List (K × V))} {t : List (K × V)}
    {x : K}, SeparatedBefore ks cs t → (∀ k ∈ ks, k ≤ x) → ∀ e ∈ cs.flatten, e.1 < x
  | [], [], _, _, _, _, _, he => by simp at he
  | [], _ :: _, _, _, h, _, _, _ => h.elim
  | _ :: _, [], _, _, h, _, _, _ => h.elim
  | k :: ks, c :: cs, t, x, h, hx, e, he => by
      obtain ⟨hc, -, hrest⟩ := h
      simp only [List.flatten_cons, List.mem_append] at he
      rcases he with he' | he'
      · exact (hc e he').trans_le (hx k (by simp))
      · exact hrest.lt_of_le (fun k' hk' => hx k' (by simp [hk'])) e he'

theorem SeparatedBefore.le_tail : ∀ {ks : List K} {cs : List (List (K × V))} {t : List (K × V)},
    SeparatedBefore ks cs t → ∀ k ∈ ks, ∀ e ∈ t, k ≤ e.1
  | [], _, _, _, _, hk, _, _ => by simp at hk
  | _ :: _, [], _, h, _, _, _, _ => h.elim
  | k :: ks, c :: cs, t, h, k', hk', e, he => by
      obtain ⟨-, hk, hrest⟩ := h
      rcases List.mem_cons.1 hk' with rfl | hk''
      · exact hk e (List.mem_append_right _ he)
      · exact hrest.le_tail k' hk'' e he

/-- Rewriting a run of chunks with the same entries leaves the separators before it alone. -/
theorem Separated.replace {ks ks₁ ks₂ : List K} {cs cs₁ cs₂ : List (List (K × V))}
    (hlen : ks.length = cs.length) (h : Separated (ks ++ ks₁) (cs ++ cs₁))
    (hflat : ∀ e ∈ cs₂.flatten, e ∈ cs₁.flatten ∨ ∀ k ∈ ks, k ≤ e.1) (h₂ : Separated ks₂ cs₂) :
    Separated (ks ++ ks₂) (cs ++ cs₂) :=
  (separated_append hlen).2 ⟨((separated_append hlen).1 h).1.mono hflat, h₂⟩

/-- The keys of a chunk are below the separator after it. -/
theorem Separated.lt_getElem : ∀ {ks : List K} {cs : List (List (K × V))} (_ : Separated ks cs)
    {i : Nat} (hi : i < ks.length) (hc : i < cs.length), ∀ e ∈ cs[i], e.1 < ks[i]
  | [], _, _, _, hi, _ => absurd hi (by simp)
  | _ :: _, [], h, _, _, _ => h.elim
  | _ :: _, _ :: _, h, 0, _, _ => h.1
  | _ :: ks, _ :: cs, h, i + 1, hi, hc => by
      simpa using Separated.lt_getElem h.2.2 (by simpa using hi) (by simpa using hc)

/-- The keys of a chunk are not below the separator before it. -/
theorem Separated.getElem_le : ∀ {ks : List K} {cs : List (List (K × V))} (_ : Separated ks cs)
    {i : Nat} (hi : i < ks.length) (hc : i + 1 < cs.length), ∀ e ∈ cs[i + 1], ks[i] ≤ e.1
  | [], _, _, _, hi, _ => absurd hi (by simp)
  | _ :: _, [], h, _, _, _ => h.elim
  | _ :: _, _ :: _, h, 0, _, hc => fun e he =>
      h.2.1 e (List.mem_flatten.2 ⟨_, List.getElem_mem (by simpa using hc), by simpa using he⟩)
  | _ :: ks, _ :: cs, h, i + 1, hi, hc => by
      simpa using Separated.getElem_le h.2.2 (by simpa using hi) (by simpa using hc)

/-- Separators between chunks that are not empty increase strictly. -/
theorem Separated.sorted : ∀ {ks : List K} {cs : List (List (K × V))}, Separated ks cs →
    (∀ c ∈ cs, c ≠ []) → ks.Pairwise (· < ·)
  | [], _, _, _ => List.Pairwise.nil
  | _ :: _, [], h, _ => h.elim
  | k :: ks, c :: cs, h, hne => by
      obtain ⟨-, hk, hrest⟩ := h
      refine List.pairwise_cons.2 ⟨?_, hrest.sorted fun c' hc' => hne c' (by simp [hc'])⟩
      intro k' hk'
      obtain ⟨l, r, rfl⟩ := List.append_of_mem hk'
      have hcs : l.length < cs.length := by
        have := hrest.length_eq
        simp at this
        omega
      have hmem : cs[l.length] ∈ cs := List.getElem_mem hcs
      obtain ⟨e, he⟩ := List.exists_mem_of_ne_nil _ (hne _ (List.mem_cons_of_mem c hmem))
      have hek' : e.1 < k' := by
        rw [← List.take_append_drop l.length cs] at hrest
        have hrest' := ((separated_append (by simp; omega)).1 hrest).2
        rw [List.drop_eq_getElem_cons hcs] at hrest'
        exact hrest'.1 e he
      exact (hk e (List.mem_flatten.2 ⟨_, hmem, he⟩)).trans_lt hek'

/-! ## Routing a key to its chunk -/

/-- The separators up to `x`, from the front. -/
def separatorsUpTo (ks : List K) (x : K) : List K := ks.takeWhile fun k => decide (k ≤ x)

/-- The separators above `x`. -/
def separatorsAbove (ks : List K) (x : K) : List K := ks.dropWhile fun k => decide (k ≤ x)

theorem separatorsUpTo_append (ks : List K) (x : K) :
    separatorsUpTo ks x ++ separatorsAbove ks x = ks :=
  List.takeWhile_append_dropWhile

theorem le_of_mem_separatorsUpTo {ks : List K} {x k : K} (h : k ∈ separatorsUpTo ks x) :
    k ≤ x := by
  have := List.mem_takeWhile_imp h
  simpa using this

theorem lt_of_mem_separatorsAbove {ks : List K} (hs : ks.Pairwise (· < ·)) {x k : K}
    (h : k ∈ separatorsAbove ks x) : x < k := by
  induction ks with
  | nil => simp [separatorsAbove] at h
  | cons y ks ih =>
      obtain ⟨hlt, hs'⟩ := List.pairwise_cons.1 hs
      by_cases hy : y ≤ x
      · rw [separatorsAbove, List.dropWhile_cons_of_pos (by simpa using hy)] at h
        exact ih hs' h
      · rw [separatorsAbove, List.dropWhile_cons_of_neg (by simpa using hy)] at h
        rcases List.mem_cons.1 h with rfl | h'
        · exact not_le.1 hy
        · exact (not_le.1 hy).trans (hlt _ h')

/-- Every entry whose key is `x` lies in the chunk `x` is routed to. -/
theorem Separated.mem_route {ks₁ ks₂ : List K} {pre post : List (List (K × V))}
    {c : List (K × V)} (h : Separated (ks₁ ++ ks₂) (pre ++ c :: post))
    (hpre : ks₁.length = pre.length) {x : K} (h₁ : ∀ k ∈ ks₁, k ≤ x) (h₂ : ∀ k ∈ ks₂, x < k) :
    (∀ e ∈ pre.flatten, e.1 < x) ∧ (∀ e ∈ post.flatten, x < e.1) := by
  obtain ⟨hb, hs⟩ := (separated_append hpre).1 h
  refine ⟨hb.lt_of_le h₁, ?_⟩
  intro e he
  cases ks₂ with
  | nil =>
      have := hs.length_eq
      simp only [List.length_cons, List.length_nil] at this
      have hpost : post = [] := List.eq_nil_of_length_eq_zero (by omega)
      subst hpost
      simp at he
  | cons k ks₂ => exact (h₂ k (by simp)).trans_le (hs.2.1 e he)

/-- No separator at or after the cut is below a key before it. -/
theorem Separated.lt_right {ks₁ ks₂ : List K} {pre post : List (List (K × V))} {c : List (K × V)}
    (h : Separated (ks₁ ++ ks₂) (pre ++ c :: post)) (hpre : ks₁.length = pre.length)
    (hs : (ks₁ ++ ks₂).Pairwise (· < ·)) {k : K} (hk : k ∈ ks₂) :
    (∀ e ∈ pre.flatten, e.1 < k) ∧ ∀ e ∈ c, e.1 < k := by
  obtain ⟨hb, hc⟩ := (separated_append hpre).1 h
  obtain ⟨-, hs₂, hlt⟩ := List.pairwise_append.1 hs
  refine ⟨hb.lt_of_le fun k' hk' => (hlt k' hk' k hk).le, ?_⟩
  intro e he
  cases ks₂ with
  | nil => simp at hk
  | cons k₀ ks₂ =>
      have hek : e.1 < k₀ := hc.1 e he
      rcases List.mem_cons.1 hk with rfl | hk'
      · exact hek
      · exact hek.trans ((List.pairwise_cons.1 hs₂).1 k hk')

/-- The separators after a chunk do not depend on it, as long as its keys are below the first. -/
theorem Separated.setHead {ks : List K} {c c' : List (K × V)} {cs : List (List (K × V))}
    (h : Separated ks (c :: cs)) (hc : ∀ k ∈ ks, ∀ e ∈ c', e.1 < k) : Separated ks (c' :: cs) := by
  cases ks with
  | nil =>
      cases cs with
      | nil => trivial
      | cons _ _ => exact h.elim
  | cons k ks => exact ⟨hc k (by simp), h.2⟩

/-! ## Cutting a run of entries anew -/

/-- The entries start with the key `k`. -/
def StartsWith (es : List (K × V)) (k : K) : Prop := ∃ e rest, es = e :: rest ∧ k = e.1

omit [LinearOrder K] in
theorem startsWith_of_length {es : List (K × V)} {k : K} (hlen : 0 < es.length)
    (h : ∀ e rest, es = e :: rest → k = e.1) : StartsWith es k := by
  obtain ⟨e, rest, rfl⟩ := List.exists_cons_of_length_pos hlen
  exact ⟨e, rest, rfl, h e rest rfl⟩

omit [LinearOrder K] in
theorem StartsWith.append {es : List (K × V)} {k : K} (h : StartsWith es k) (es' : List (K × V)) :
    StartsWith (es ++ es') k := by
  obtain ⟨e, rest, rfl, rfl⟩ := h
  exact ⟨e, rest ++ es', rfl, rfl⟩

/-- Each separator is the first key of the chunk to its right. -/
def FirstKeys : List K → List (List (K × V)) → Prop
  | [], [_] => True
  | k :: ks, _ :: c :: cs => StartsWith c k ∧ FirstKeys ks (c :: cs)
  | _, _ => False

/-- Chunks of a sorted list are separated by their first keys. -/
theorem FirstKeys.separated : ∀ {ks ks' : List K} {cs cs' : List (List (K × V))} {c : List (K × V)},
    FirstKeys ks cs → SortedKeys (cs ++ cs').flatten → Separated ks' (c :: cs') →
    (∀ k ∈ ks', ∀ e ∈ cs.flatten, e.1 < k) → Separated (ks ++ ks') (cs ++ cs')
  | [], _, [], _, _, h, _, _, _ => h.elim
  | [], _, [c₁], _, _, _, _, hpost, hlt => hpost.setHead fun k hk e he => hlt k hk e (by simpa using he)
  | [], _, _ :: _ :: _, _, _, h, _, _, _ => h.elim
  | _ :: _, _, [], _, _, h, _, _, _ => h.elim
  | _ :: _, _, [_], _, _, h, _, _, _ => h.elim
  | k :: ks, ks', c₁ :: c₂ :: cs, cs', c, h, hs, hpost, hlt => by
      obtain ⟨⟨e, rest, rfl, rfl⟩, hrest⟩ := h
      have hs' : SortedKeys (c₁ ++ ((e :: rest) :: cs ++ cs').flatten) := hs
      obtain ⟨-, htail, hfirst⟩ := SortedKeys.append.1 hs'
      refine ⟨fun x hx => hfirst x hx e (by simp), ?_, ?_⟩
      · intro x hx
        have htail' : SortedKeys (e :: (rest ++ (cs ++ cs').flatten)) := htail
        rcases List.mem_cons.1 (show x ∈ e :: (rest ++ (cs ++ cs').flatten) from hx) with rfl | hx'
        · exact le_rfl
        · exact ((SortedKeys.cons.1 htail').1 x hx').le
      · refine hrest.separated htail hpost fun k hk x hx => hlt k hk x ?_
        simp only [List.flatten_cons, List.mem_append] at hx ⊢
        exact Or.inr hx
