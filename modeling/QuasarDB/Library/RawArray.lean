import Mathlib.Algebra.Order.Ring.Int
import Mathlib.Data.List.Basic
import Mathlib.Logic.Function.Basic
import Mathlib.Order.Basic
import Mathlib.Order.Nat

set_option autoImplicit false

/-! # Raw arrays and the algorithms of the C++ standard library on them

A C array is modelled by the function from indices to contents. The code that owns the array keeps
the number of live elements beside it, so the list the array stands for is `toList a n`, its first
`n` elements; what lies behind them stays in the array and may be read later.

The file gives `std::move`, `std::move_backward` (both are `copy`: the ranges are moved as a whole)
and `std::lower_bound`, with one lemma each on what the operation does to the live list. -/

/-- The contents of an array by index. -/
abbrev RawArray (α : Type) := Nat → α

namespace RawArray

variable {α β : Type}

/-! ## The live prefix -/

/-- The first `n` elements. -/
def toList (a : RawArray α) (n : Nat) : List α := (List.range n).map a

@[simp] theorem length_toList (a : RawArray α) (n : Nat) : (a.toList n).length = n := by
  simp [toList]

@[simp] theorem getElem_toList (a : RawArray α) (n i : Nat) (h : i < (a.toList n).length) :
    (a.toList n)[i] = a i := by
  simp [toList]

@[simp] theorem toList_zero (a : RawArray α) : a.toList 0 = [] := rfl

theorem toList_succ (a : RawArray α) (n : Nat) : a.toList (n + 1) = a.toList n ++ [a n] := by
  simp [toList, List.range_succ]

theorem mem_toList {a : RawArray α} {n : Nat} {x : α} :
    x ∈ a.toList n ↔ ∃ i, i < n ∧ a i = x := by
  simp [toList]

theorem toList_congr {a b : RawArray α} {n : Nat} (h : ∀ i, i < n → a i = b i) :
    a.toList n = b.toList n := by
  apply List.ext_getElem <;> simp
  intro i hi
  exact h i hi

/-- Reading an element through the list the prefix is known to be. -/
theorem get_of_toList {a : RawArray α} {n : Nat} {l : List α} (h : a.toList n = l) (i : Nat)
    (hi : i < l.length) : a i = l[i] := by
  subst h
  simp

theorem take_toList (a : RawArray α) {n m : Nat} (h : m ≤ n) :
    (a.toList n).take m = a.toList m := by
  apply List.ext_getElem <;> simp [h]

/-! ## Assignment and the two moves -/

/-- `a[i] = x`. -/
def set (a : RawArray α) (i : Nat) (x : α) : RawArray α := Function.update a i x

/-- The elements `src[first, last)` copied to `dst[dest, ...)`. -/
def copy (src : RawArray α) (first last : Nat) (dst : RawArray α) (dest : Nat) : RawArray α :=
  fun i => if dest ≤ i ∧ i < dest + (last - first) then src (first + (i - dest)) else dst i

/-- `std::move(a + first, a + last, a + dest)`. -/
def move (a : RawArray α) (first last dest : Nat) : RawArray α := copy a first last a dest

/-- `std::move_backward(a + first, a + last, a + destLast)`. -/
def moveBackward (a : RawArray α) (first last destLast : Nat) : RawArray α :=
  copy a first last a (destLast - (last - first))

@[simp] theorem set_self (a : RawArray α) (i : Nat) (x : α) : a.set i x i = x := by
  simp [set]

theorem set_ne (a : RawArray α) {i j : Nat} (x : α) (h : j ≠ i) : a.set i x j = a j := by
  simp [set, h]

/-- Writing behind the live elements does not change the list. -/
theorem toList_set_of_le (a : RawArray α) {n i : Nat} (x : α) (h : n ≤ i) :
    (a.set i x).toList n = a.toList n :=
  toList_congr fun j hj => set_ne a x (by omega)

theorem toList_set (a : RawArray α) (n i : Nat) (x : α) :
    (a.set i x).toList n = (a.toList n).set i x := by
  apply List.ext_getElem <;> simp
  intro j hj
  rw [List.getElem_set]
  by_cases h : i = j
  · subst h; simp
  · rw [if_neg h, set_ne a x (Ne.symm h)]; simp

/-- Opening a gap at `i` by `std::move_backward` and filling it. -/
theorem toList_insert (a : RawArray α) {n i : Nat} (x : α) (h : i ≤ n) :
    ((a.moveBackward i n (n + 1)).set i x).toList (n + 1)
      = (a.toList n).take i ++ x :: (a.toList n).drop i := by
  apply List.ext_getElem
  · simp; omega
  · intro j hj hj'
    simp only [getElem_toList]
    rcases lt_trichotomy j i with hji | hji | hji
    · rw [set_ne _ _ (by omega), List.getElem_append_left (by simp; omega)]
      simp [moveBackward, copy, show ¬ i + 1 ≤ j by omega, show n + 1 - (n - i) = i + 1 by omega]
    · subst hji
      rw [List.getElem_append_right (by rw [List.length_take]; omega)]
      simp [show min j n = j by omega]
    · rw [set_ne _ _ (by omega), List.getElem_append_right (by rw [List.length_take]; omega)]
      simp only [length_toList] at hj
      have hmin : min i n = i := by omega
      obtain ⟨d, rfl⟩ : ∃ d, j = i + (d + 1) := ⟨j - i - 1, by omega⟩
      simp only [List.length_take, length_toList, hmin, Nat.add_sub_cancel_left,
        List.getElem_cons_succ, List.getElem_drop, getElem_toList]
      rw [moveBackward, copy, if_pos (by omega)]
      congr 1
      omega

/-- Closing the gap at `i` by `std::move`. -/
theorem toList_erase (a : RawArray α) {n i : Nat} (h : i < n) :
    (a.move (i + 1) n i).toList (n - 1) = (a.toList n).take i ++ (a.toList n).drop (i + 1) := by
  apply List.ext_getElem
  · simp; omega
  · intro j hj hj'
    simp only [length_toList] at hj
    simp only [getElem_toList, move, copy]
    by_cases hji : j < i
    · rw [if_neg (by omega), List.getElem_append_left (by simp; omega)]
      simp
    · rw [if_pos (by omega), List.getElem_append_right (by simp; omega)]
      simp only [List.getElem_drop, getElem_toList, List.length_take, length_toList]
      congr 1
      omega

/-- Copying the front of `b` behind the live elements of `a`. -/
theorem toList_append (a b : RawArray α) (n c : Nat) :
    (copy b 0 c a n).toList (n + c) = a.toList n ++ b.toList c := by
  apply List.ext_getElem
  · simp
  · intro j hj hj'
    simp only [length_toList] at hj
    simp only [getElem_toList, copy]
    by_cases hjn : j < n
    · rw [if_neg (by omega), List.getElem_append_left (by simpa using hjn)]
      simp
    · rw [if_pos (by omega), List.getElem_append_right (by simp; omega)]
      simp

/-- Making room for `c` elements at the front of `b` and copying the last `c` of `a` there. -/
theorem toList_prepend (a b : RawArray α) {n m c : Nat} (h : c ≤ n) :
    (copy a (n - c) n (b.moveBackward 0 m (m + c)) 0).toList (m + c)
      = (a.toList n).drop (n - c) ++ b.toList m := by
  apply List.ext_getElem
  · simp; omega
  · intro j hj hj'
    simp only [length_toList] at hj
    simp only [getElem_toList]
    by_cases hjc : j < c
    · rw [copy, if_pos (by omega), List.getElem_append_left (by simp; omega)]
      simp
    · rw [copy, if_neg (by omega), moveBackward, copy, if_pos (by omega),
        List.getElem_append_right (by simp; omega)]
      simp only [getElem_toList, List.length_drop, length_toList]
      congr 1
      omega

/-- The same with one element more of room, which is set to `x`. -/
theorem toList_prepend_set (a b : RawArray α) {n m c : Nat} (x : α) (h : c ≤ n) :
    (copy a (n - c) n ((b.moveBackward 0 m (m + (c + 1))).set c x) 0).toList (m + (c + 1))
      = (a.toList n).drop (n - c) ++ x :: b.toList m := by
  apply List.ext_getElem
  · simp; omega
  · intro j hj hj'
    simp only [length_toList] at hj
    simp only [getElem_toList]
    rcases lt_trichotomy j c with hjc | rfl | hjc
    · rw [copy, if_pos (by omega), List.getElem_append_left (by simp; omega)]
      simp
    · rw [copy, if_neg (by omega), set_self, List.getElem_append_right (by simp; omega)]
      simp [show n - (n - j) = j by omega]
    · rw [copy, if_neg (by omega), set_ne _ _ (by omega), moveBackward, copy, if_pos (by omega),
        List.getElem_append_right (by simp; omega)]
      obtain ⟨d, rfl⟩ : ∃ d, j = c + (d + 1) := ⟨j - c - 1, by omega⟩
      have hlen : n - (n - c) = c := by omega
      simp only [List.length_drop, length_toList, hlen, Nat.add_sub_cancel_left,
        List.getElem_cons_succ, getElem_toList]
      congr 1
      omega

/-- Dropping the first `c` live elements by moving the rest to the front. -/
theorem toList_move_front (a : RawArray α) (n c : Nat) :
    (a.move c n 0).toList (n - c) = (a.toList n).drop c := by
  apply List.ext_getElem
  · simp
  · intro j hj hj'
    simp only [length_toList] at hj
    simp only [getElem_toList, move, copy, List.getElem_drop]
    rw [if_pos (by omega)]
    simp

/-! ## Two arrays side by side -/

/-- Parallel arrays read as one array of pairs. -/
def pair (a : RawArray α) (b : RawArray β) : RawArray (α × β) := fun i => (a i, b i)

theorem pair_set (a : RawArray α) (b : RawArray β) (i : Nat) (x : α) (y : β) :
    pair (a.set i x) (b.set i y) = (pair a b).set i (x, y) := by
  funext j
  by_cases h : j = i
  · subst h; simp [pair]
  · simp [pair, set_ne _ _ h]

theorem pair_copy (a a' : RawArray α) (b b' : RawArray β) (f l d : Nat) :
    pair (copy a f l a' d) (copy b f l b' d) = copy (pair a b) f l (pair a' b') d := by
  funext j
  simp only [pair, copy]
  split <;> rfl

theorem pair_move (a : RawArray α) (b : RawArray β) (f l d : Nat) :
    pair (a.move f l d) (b.move f l d) = (pair a b).move f l d :=
  pair_copy a a b b f l d

theorem pair_moveBackward (a : RawArray α) (b : RawArray β) (f l d : Nat) :
    pair (a.moveBackward f l d) (b.moveBackward f l d) = (pair a b).moveBackward f l d :=
  pair_copy a a b b f l _

theorem map_fst_toList_pair (a : RawArray α) (b : RawArray β) (n : Nat) :
    ((pair a b).toList n).map Prod.fst = a.toList n := by
  simp [toList, pair, Function.comp_def]

/-! ## `std::lower_bound` -/

/-- The loop of `std::lower_bound` over `[first, first + len)`; `p x` is `x < value`. Every round
    halves `len`, so `fuel = len` rounds are enough. -/
def lowerBoundLoop (p : α → Bool) (a : RawArray α) : (fuel first len : Nat) → Nat
  | 0, first, _ => first
  | fuel + 1, first, len =>
      if len = 0 then first
      else
        let half := len / 2
        if p (a (first + half)) then lowerBoundLoop p a fuel (first + half + 1) (len - half - 1)
        else lowerBoundLoop p a fuel first half

/-- `std::distance(a, std::lower_bound(a, a + n, value))`. -/
def lowerBound (p : α → Bool) (a : RawArray α) (n : Nat) : Nat := lowerBoundLoop p a n 0 n

theorem lowerBoundLoop_eq (p : α → Bool) (a : RawArray α) (m : Nat) :
    ∀ (fuel first len : Nat), len ≤ fuel → first ≤ m → m ≤ first + len →
      (∀ i, first ≤ i → i < m → p (a i) = true) →
      (∀ i, m ≤ i → i < first + len → p (a i) = false) →
      lowerBoundLoop p a fuel first len = m := by
  intro fuel
  induction fuel with
  | zero => intro first len hf h1 h2 _ _; simp only [lowerBoundLoop]; omega
  | succ fuel ih =>
      intro first len hf h1 h2 hlt hge
      simp only [lowerBoundLoop]
      by_cases hlen : len = 0
      · rw [if_pos hlen]; omega
      · rw [if_neg hlen]
        by_cases hp : p (a (first + len / 2)) = true
        · have hm : first + len / 2 < m := by
            by_contra hcon
            rw [hge (first + len / 2) (by omega) (by omega)] at hp
            exact absurd hp (by simp)
          rw [if_pos hp]
          exact ih _ _ (by omega) (by omega) (by omega)
            (fun i h h' => hlt i (by omega) h') (fun i h h' => hge i h (by omega))
        · have hm : m ≤ first + len / 2 := by
            by_contra hcon
            exact hp (hlt (first + len / 2) (by omega) (by omega))
          rw [if_neg hp]
          exact ih _ _ (by omega) h1 hm hlt (fun i h h' => hge i h (by omega))

/-- On any range `std::lower_bound` stays inside it. -/
theorem lowerBoundLoop_le (p : α → Bool) (a : RawArray α) :
    ∀ fuel first len : Nat, lowerBoundLoop p a fuel first len ≤ first + len := by
  intro fuel
  induction fuel with
  | zero => intro first len; simp only [lowerBoundLoop]; omega
  | succ fuel ih =>
      intro first len
      simp only [lowerBoundLoop]
      split
      · omega
      · split
        · have h := ih (first + len / 2 + 1) (len - len / 2 - 1)
          omega
        · have h := ih first (len / 2)
          omega

theorem lowerBound_le (p : α → Bool) (a : RawArray α) (n : Nat) : lowerBound p a n ≤ n := by
  have h := lowerBoundLoop_le p a n 0 n
  rwa [Nat.zero_add] at h

/-- On a range that is partitioned by `p`, `std::lower_bound` finds the partition point. -/
theorem lowerBound_eq (p : α → Bool) (a : RawArray α) {n m : Nat} (hm : m ≤ n)
    (hlt : ∀ i, i < m → p (a i) = true) (hge : ∀ i, m ≤ i → i < n → p (a i) = false) :
    lowerBound p a n = m :=
  lowerBoundLoop_eq p a m n 0 n le_rfl (Nat.zero_le _) (by omega) (fun i _ h => hlt i h)
    (fun i h h' => hge i h (by omega))

/-- The partition point read off the live list. -/
theorem lowerBound_of_toList (p : α → Bool) {a : RawArray α} {n : Nat} {l r : List α}
    (h : a.toList n = l ++ r) (hl : ∀ x ∈ l, p x = true) (hr : ∀ x ∈ r, p x = false) :
    lowerBound p a n = l.length := by
  have hn : n = l.length + r.length := by
    have := congrArg List.length h
    simpa using this
  apply lowerBound_eq
  · omega
  · intro i hi
    rw [get_of_toList h i (by simp; omega), List.getElem_append_left hi]
    exact hl _ (List.getElem_mem _)
  · intro i hi hi'
    rw [get_of_toList h i (by simp; omega), List.getElem_append_right hi]
    exact hr _ (List.getElem_mem _)

end RawArray
