import Mathlib.Data.List.Forall2

set_option autoImplicit false

/-! # Results of functions that may throw

What is known of the parts when a function that is put together has returned, or has thrown. -/

/-- An element of the first list has one of the second list. -/
theorem List.Forall₂.exists_of_mem {α β : Type} {R : α → β → Prop} {as : List α} {bs : List β}
    (h : List.Forall₂ R as bs) {a : α} (ha : a ∈ as) : ∃ b ∈ bs, R a b := by
  induction h with
  | nil => cases ha
  | cons hfirst _ ih =>
      rcases List.mem_cons.1 ha with rfl | ha
      · exact ⟨_, List.mem_cons_self, hfirst⟩
      · obtain ⟨b, hb, hR⟩ := ih ha
        exact ⟨b, List.mem_cons_of_mem _ hb, hR⟩

namespace Except

variable {ε α β : Type} {x : Except ε α} {f : α → Except ε β}

/-- Two functions in a row return if both do. -/
theorem bind_eq_ok {b : β} : x >>= f = .ok b ↔ ∃ a, x = .ok a ∧ f a = .ok b := by
  cases x with
  | error e =>
      constructor
      · intro h
        cases h
      · rintro ⟨a, ha, -⟩
        cases ha
  | ok a =>
      constructor
      · intro h
        exact ⟨a, rfl, h⟩
      · rintro ⟨a', ha, h⟩
        cases ha
        exact h

/-- They throw what the first one throws, or what the second one throws after it. -/
theorem bind_eq_error {e : ε} (h : x >>= f = .error e) :
    x = .error e ∨ ∃ a, x = .ok a ∧ f a = .error e := by
  cases x with
  | ok a => exact .inr ⟨a, rfl, h⟩
  | error e' =>
      cases h
      exact .inl rfl

/-- A function on the elements of a list returns if it returns for each of them. -/
theorem mapM_eq_ok {list : List α} : ∀ {results : List β},
    list.mapM f = .ok results ↔ List.Forall₂ (fun a b => f a = .ok b) list results := by
  induction list with
  | nil =>
      intro results
      rw [List.forall₂_nil_left_iff]
      constructor
      · intro h
        cases h
        rfl
      · rintro rfl
        rfl
  | cons a list ih =>
      intro results
      rw [List.mapM_cons, bind_eq_ok, List.forall₂_cons_left_iff]
      constructor
      · rintro ⟨b, hb, h⟩
        obtain ⟨others, hothers, hresults⟩ := bind_eq_ok.1 h
        cases hresults
        exact ⟨b, others, hb, ih.1 hothers, rfl⟩
      · rintro ⟨b, others, hb, hothers, rfl⟩
        exact ⟨b, hb, bind_eq_ok.2 ⟨others, ih.2 hothers, rfl⟩⟩

/-- What is thrown was thrown for one of the elements. -/
theorem exists_of_mapM_eq_error {list : List α} {e : ε} (h : list.mapM f = .error e) :
    ∃ a ∈ list, f a = .error e := by
  induction list with
  | nil => cases h
  | cons a list ih =>
      rw [List.mapM_cons] at h
      rcases bind_eq_error h with ha | ⟨_, -, hrest⟩
      · exact ⟨a, List.mem_cons_self, ha⟩
      · rcases bind_eq_error hrest with hlist | ⟨_, -, hpure⟩
        · obtain ⟨other, hother, hthrows⟩ := ih hlist
          exact ⟨other, List.mem_cons_of_mem a hother, hthrows⟩
        · cases hpure

/-- Each result is that of an element. -/
theorem exists_of_mem_mapM {list : List α} {results : List β} (h : list.mapM f = .ok results) {b : β}
    (hb : b ∈ results) : ∃ a ∈ list, f a = .ok b :=
  (mapM_eq_ok.1 h).flip.exists_of_mem hb

/-- A function on a list returns if it returns for each element. -/
theorem exists_mapM_eq_ok {list : List α} :
    (∃ results, list.mapM f = .ok results) ↔ ∀ a ∈ list, ∃ b, f a = .ok b := by
  constructor
  · rintro ⟨results, hresults⟩ a ha
    obtain ⟨b, -, hb⟩ := (mapM_eq_ok.1 hresults).exists_of_mem ha
    exact ⟨b, hb⟩
  · intro h
    cases hrun : list.mapM f with
    | ok results => exact ⟨results, rfl⟩
    | error e =>
        obtain ⟨a, ha, hthrows⟩ := exists_of_mapM_eq_error hrun
        obtain ⟨b, hb⟩ := h a ha
        rw [hthrows] at hb
        cases hb

end Except
