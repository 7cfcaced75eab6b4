import Mathlib.Algebra.Order.Ring.Int
import Mathlib.Algebra.BigOperators.Group.List.Basic
import Mathlib.Algebra.Order.BigOperators.Group.List
import Mathlib.Data.List.Rotate

set_option autoImplicit false

/-! # The last values of a history

A history is a list with the newest value first. A cyclic buffer of `n` slots that writes every
value over the oldest one holds the last `n` values of its history; before there are so many it
holds what it was filled with. Two histories of counts are compared by the sums of their last
values, whatever their number. -/

namespace History

section Slots

variable {α : Type}

/-- The last `n` values, newest first, of a history that began with any number of `zero`. -/
def last (n : Nat) (zero : α) (history : List α) : List α :=
  (history ++ List.replicate n zero).take n

@[simp] theorem length_last (n : Nat) (zero : α) (history : List α) :
    (last n zero history).length = n := by
  simp [last]

@[simp] theorem last_nil (n : Nat) (zero : α) : last n zero [] = List.replicate n zero := by
  simp [last]

/-- More of what the history began with does not matter. -/
theorem take_append_replicate_succ (n : Nat) (zero : α) (history : List α) :
    (history ++ List.replicate (n + 1) zero).take n = last n zero history := by
  rw [last, List.replicate_succ', ← List.append_assoc, List.take_append_of_le_length]
  simp

theorem last_cons (n : Nat) (zero v : α) (history : List α) :
    last (n + 1) zero (v :: history) = v :: last n zero history := by
  rw [last, List.cons_append, List.take_succ_cons, take_append_replicate_succ]

/-- One value fewer is the front of the list. -/
theorem dropLast_last (n : Nat) (zero : α) (history : List α) :
    (last (n + 1) zero history).dropLast = last n zero history := by
  rw [List.dropLast_eq_take, length_last, Nat.add_sub_cancel, last, List.take_take,
    min_eq_left (Nat.le_succ n), take_append_replicate_succ]

/-- Writing over the slot from which the list is read, and reading from the next one on. -/
theorem rotate_set_succ (slots : List α) {i : Nat} (hi : i < slots.length) (v : α) :
    (slots.set i v).rotate (i + 1) = (slots.rotate i).tail ++ [v] := by
  have hlen : i + 1 ≤ (slots.set i v).length := by
    rw [List.length_set]
    exact hi
  rw [List.rotate_eq_drop_append_take hlen, List.rotate_eq_drop_append_take hi.le,
    List.drop_set_of_lt (Nat.lt_succ_self i), List.take_add_one, List.take_set_of_le le_rfl,
    List.getElem?_set_self hi, List.drop_eq_getElem_cons hi, ← List.append_assoc]
  rfl

/-- Slots of which the `i`-th was written longest ago. -/
def Holds (zero : α) (slots : List α) (i : Nat) (history : List α) : Prop :=
  (slots.rotate i).reverse = last slots.length zero history

theorem holds_replicate (zero : α) (n i : Nat) : Holds zero (List.replicate n zero) i [] := by
  simp [Holds, List.rotate_replicate]

theorem Holds.set {zero : α} {slots history : List α} {i : Nat} (h : Holds zero slots i history)
    (hi : i < slots.length) (v : α) :
    Holds zero (slots.set i v) ((i + 1) % slots.length) (v :: history) := by
  obtain ⟨n, hn⟩ : ∃ n, slots.length = n + 1 := ⟨slots.length - 1, by omega⟩
  have hmod : (slots.set i v).rotate ((i + 1) % slots.length) = (slots.set i v).rotate (i + 1) := by
    rw [← List.length_set, List.rotate_mod]
  rw [Holds, hmod, rotate_set_succ slots hi, List.reverse_append, List.length_set, hn, last_cons,
    ← dropLast_last]
  rw [Holds, hn] at h
  rw [← h, List.dropLast_reverse]
  rfl

end Slots

/-! ## Sums of the last values -/

theorem sum_last (n : Nat) (history : List ℕ) : (last n 0 history).sum = (history.take n).sum := by
  rw [last, List.take_append, List.sum_append, List.take_replicate]
  simp

theorem Holds.sum_eq {slots history : List ℕ} {i : Nat} (h : Holds 0 slots i history) :
    slots.sum = (history.take slots.length).sum := by
  rw [← sum_last, ← h, List.sum_reverse]
  exact (List.rotate_perm slots i).sum_eq.symm

/-- However many of the last values are added up, `xs` sums up to at most `excess` more than `ys`.
    -/
def SumsWithin (excess : ℕ) (xs ys : List ℕ) : Prop :=
  ∀ n, (xs.take n).sum ≤ (ys.take n).sum + excess

theorem sumsWithin_nil : SumsWithin 0 [] [] := fun _ => by simp

/-- What the next values leave over. -/
theorem SumsWithin.cons {excess excess' x y : ℕ} {xs ys : List ℕ} (h : SumsWithin excess xs ys)
    (hxy : x + excess ≤ y + excess') : SumsWithin excess' (x :: xs) (y :: ys) := by
  intro n
  cases n with
  | zero => simp
  | succ n =>
      have := h n
      simp only [List.take_succ_cons, List.sum_cons]
      omega

end History
