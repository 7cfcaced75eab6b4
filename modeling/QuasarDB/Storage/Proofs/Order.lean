import QuasarDB.Storage.Proofs.Representation

set_option autoImplicit false

/-! # The order of keys and separators

`Ordered ks leaves` is the search order of a root and its leaves. It is kept when one leaf changes
at the key it was chosen for (`Ordered.setChunk`), and when a window of leaves gets the same entries
cut anew, with the first keys as separators (`Ordered.recut`). -/

namespace QuasarDB.Storage

variable {K V : Type} [LinearOrder K]

/-- The separators route every key to its leaf, keys increase, no leaf is empty. -/
structure Ordered (ks : List K) (leaves : List (LeafRecord K V)) : Prop where
  separated : Separated ks (leaves.map Prod.snd)
  sorted : SortedKeys (leafEntries leaves)
  nonempty : ∀ leaf ∈ leaves, leaf.2 ≠ []

namespace Ordered

variable {a b : List K} {t z w w' : List (LeafRecord K V)} {id : Int}
  {es es' : List (K × V)} {key : K}

theorem sortedSeparators {ks : List K} (h : Ordered ks w) : ks.Pairwise (· < ·) := by
  refine h.separated.sorted fun c hc => ?_
  obtain ⟨leaf, hleaf, rfl⟩ := List.mem_map.1 hc
  exact h.nonempty leaf hleaf

theorem length_leaves {ks : List K} (h : Ordered ks w) : w.length = ks.length + 1 := by
  have hlen := h.separated.length_eq
  rwa [List.length_map] at hlen

/-- The leaf a key is routed to, with the separators on both sides. -/
theorem route {ks : List K} (h : Ordered ks w) (key : K) :
    ∃ a b t leaf z, ks = a ++ b ∧ w = t ++ leaf :: z ∧ a.length = t.length
      ∧ (∀ k ∈ a, k ≤ key) ∧ ∀ k ∈ b, key < k := by
  refine ⟨separatorsUpTo ks key, separatorsAbove ks key, ?_⟩
  have hsplit := separatorsUpTo_append ks key
  have hlt : (separatorsUpTo ks key).length < w.length := by
    have hlen := congrArg List.length hsplit
    rw [List.length_append] at hlen
    rw [h.length_leaves]
    omega
  refine ⟨w.take (separatorsUpTo ks key).length, w[(separatorsUpTo ks key).length],
    w.drop ((separatorsUpTo ks key).length + 1), hsplit.symm, ?_, ?_,
    fun k hk => le_of_mem_separatorsUpTo hk,
    fun k hk => lt_of_mem_separatorsAbove h.sortedSeparators hk⟩
  · rw [← List.drop_eq_getElem_cons, List.take_append_drop]
  · rw [List.length_take]; omega

theorem sorted_leaf (h : Ordered (a ++ b) (t ++ (id, es) :: z)) : SortedKeys es := by
  have hs := h.sorted
  rw [leafEntries_append, leafEntries_cons] at hs
  exact (SortedKeys.append.1 (SortedKeys.append.1 hs).2.1).1

/-- Entries outside the leaf a key is routed to have other keys. -/
theorem route_ne (h : Ordered (a ++ b) (t ++ (id, es) :: z)) (ha : a.length = t.length)
    (hle : ∀ k ∈ a, k ≤ key) (hlt : ∀ k ∈ b, key < k) :
    (∀ e ∈ leafEntries t, e.1 < key) ∧ ∀ e ∈ leafEntries z, key < e.1 := by
  have hsep := h.separated
  rw [List.map_append, List.map_cons] at hsep
  exact hsep.mem_route (by rw [ha, List.length_map]) hle hlt

/-- An entry with the key lies in the leaf the key is routed to. -/
theorem mem_routed {v : V} (h : Ordered (a ++ b) (t ++ (id, es) :: z))
    (ha : a.length = t.length) (hle : ∀ k ∈ a, k ≤ key) (hlt : ∀ k ∈ b, key < k)
    (hk : (key, v) ∈ leafEntries (t ++ (id, es) :: z)) : (key, v) ∈ es := by
  obtain ⟨hpre, hpost⟩ := h.route_ne ha hle hlt
  simp only [leafEntries_append, leafEntries_cons, List.mem_append] at hk
  rcases hk with hk | hk | hk
  · exact absurd (hpre _ hk) (lt_irrefl _)
  · exact hk
  · exact absurd (hpost _ hk) (lt_irrefl _)

/-- A key that is above an entry of every leaf is above every separator. -/
theorem separator_lt {ks : List K} (h : Ordered ks w) (hlt : ∀ leaf ∈ w, ∃ e ∈ leaf.2, e.1 < key) :
    ∀ k ∈ ks, k < key := by
  intro k hk
  obtain ⟨a, b, rfl⟩ := List.append_of_mem hk
  have hlen := h.length_leaves
  have hsep := h.separated
  rw [List.length_append, List.length_cons] at hlen
  have hlt' : a.length + 1 < w.length := by omega
  rw [← List.take_append_drop a.length w, List.map_append] at hsep
  have hpre : a.length = ((w.take a.length).map Prod.snd).length := by
    rw [List.length_map, List.length_take]
    omega
  have hafter := ((separated_append hpre).1 hsep).2
  rw [List.drop_eq_getElem_cons (by omega : a.length < w.length), List.drop_eq_getElem_cons hlt']
    at hafter
  -- the leaf behind the separator
  obtain ⟨e, he, hek⟩ := hlt _ (List.getElem_mem hlt')
  exact (hafter.2.1 e (List.mem_append_left _ he)).trans_lt hek

/-- The keys of a leaf change at most by the key that is routed to it. The leaf may become empty. -/
theorem setChunk_sorted (h : Ordered (a ++ b) (t ++ (id, es) :: z)) (ha : a.length = t.length)
    (hle : ∀ k ∈ a, k ≤ key) (hlt : ∀ k ∈ b, key < k)
    (hes' : ∀ e ∈ es', e.1 = key ∨ ∃ e₀ ∈ es, e₀.1 = e.1) (hs' : SortedKeys es') :
    Separated (a ++ b) ((t ++ (id, es') :: z).map Prod.snd) ∧
      SortedKeys (leafEntries (t ++ (id, es') :: z)) := by
  have hsep := h.separated
  have hsorted := h.sorted
  obtain ⟨hpre, hpost⟩ := h.route_ne ha hle hlt
  rw [List.map_append, List.map_cons] at hsep
  rw [leafEntries_append, leafEntries_cons] at hsorted
  obtain ⟨hsp, hsep', hsp'⟩ := SortedKeys.append.1 hsorted
  obtain ⟨-, hspost, hsp''⟩ := SortedKeys.append.1 hsep'
  have ha' : a.length = (t.map Prod.snd).length := by rw [ha, List.length_map]
  obtain ⟨hbefore, hafter⟩ := (separated_append ha').1 hsep
  constructor
  · rw [List.map_append, List.map_cons]
    refine Separated.replace ha' hsep ?_ (hafter.setHead ?_)
    · intro e he
      rcases List.mem_append.1 (show e ∈ es' ++ leafEntries z from he) with he' | he'
      · refine Or.inr fun k hk => ?_
        rcases hes' e he' with heq | ⟨e₀, he₀, heq⟩
        · exact heq ▸ hle k hk
        · exact heq ▸ hbefore.le_tail k hk e₀ (by simp [he₀])
      · exact Or.inl (List.mem_append_right es he')
    · intro k hk e he
      rcases hes' e he with heq | ⟨e₀, he₀, heq⟩
      · exact heq ▸ hlt k hk
      · exact heq ▸ (hsep.lt_right ha' h.sortedSeparators hk).2 e₀ he₀
  · rw [leafEntries_append, leafEntries_cons]
    refine SortedKeys.append.2 ⟨hsp, SortedKeys.append.2 ⟨hs', hspost, ?_⟩, ?_⟩
    · intro x hx y hy
      rcases hes' x hx with heq | ⟨e₀, he₀, heq⟩
      · exact heq ▸ hpost y hy
      · exact heq ▸ hsp'' e₀ he₀ y hy
    · intro x hx y hy
      rcases List.mem_append.1 hy with hy' | hy'
      · rcases hes' y hy' with heq | ⟨e₀, he₀, heq⟩
        · exact heq ▸ hpre x hx
        · exact heq ▸ hsp' x hx e₀ (List.mem_append_left _ he₀)
      · exact hsp' x hx y (List.mem_append_right _ hy')

/-- The leaves stay in order if the leaf does not become empty. -/
theorem setChunk (h : Ordered (a ++ b) (t ++ (id, es) :: z)) (ha : a.length = t.length)
    (hle : ∀ k ∈ a, k ≤ key) (hlt : ∀ k ∈ b, key < k)
    (hes' : ∀ e ∈ es', e.1 = key ∨ ∃ e₀ ∈ es, e₀.1 = e.1) (hs' : SortedKeys es')
    (hne : es' ≠ []) : Ordered (a ++ b) (t ++ (id, es') :: z) := by
  obtain ⟨hsep, hsorted⟩ := h.setChunk_sorted ha hle hlt hes' hs'
  refine ⟨hsep, hsorted, fun leaf hleaf => ?_⟩
  rcases List.mem_append.1 hleaf with hleaf' | hleaf'
  · exact h.nonempty leaf (List.mem_append_left _ hleaf')
  · rcases List.mem_cons.1 hleaf' with rfl | hleaf''
    · exact hne
    · exact h.nonempty leaf (by simp [hleaf''])

/-- The separators around a window of leaves, and the entries in it. -/
theorem window_bounds (kw : List K) (h : Ordered (a ++ (kw ++ b)) (t ++ (w ++ z)))
    (ha : a.length = t.length) (hkw : w.length = kw.length + 1) :
    (∀ k ∈ a, ∀ e ∈ leafEntries w, k ≤ e.1) ∧ ∀ k ∈ b, ∀ e ∈ leafEntries w, e.1 < k := by
  have hsep := h.separated
  have hpair := h.sortedSeparators
  rw [List.map_append, List.map_append] at hsep
  have ha' : a.length = (t.map Prod.snd).length := by rw [ha, List.length_map]
  obtain ⟨hbefore, hsepw⟩ := (separated_append ha').1 hsep
  refine ⟨fun k hk e he => hbefore.le_tail k hk e ?_, fun k hk => ?_⟩
  · rw [List.flatten_append]
    exact List.mem_append_left _ he
  · rcases List.eq_nil_or_concat w with rfl | ⟨w₀, last, rfl⟩
    · simp at hkw
    · rw [List.concat_eq_append] at hkw hsepw ⊢
      rw [List.map_append, List.append_assoc] at hsepw
      have hlen : kw.length = (w₀.map Prod.snd).length := by
        rw [List.length_append, List.length_singleton] at hkw
        rw [List.length_map]
        omega
      obtain ⟨hlt₀, hlast⟩ := hsepw.lt_right hlen (List.pairwise_append.1 hpair).2.1 hk
      intro e he
      rw [leafEntries_append, leafEntries_cons, leafEntries_nil, List.append_nil] at he
      rcases List.mem_append.1 he with he' | he'
      · exact hlt₀ e he'
      · exact hlast e he'

/-- A window of leaves gets the same entries cut anew. -/
theorem recut (kw kw' : List K) (h : Ordered (a ++ (kw ++ b)) (t ++ (w ++ z))) (ha : a.length = t.length)
    (hkw : w.length = kw.length + 1) (hes : leafEntries w' = leafEntries w)
    (hfirst : FirstKeys kw' (w'.map Prod.snd)) (hne : ∀ leaf ∈ w', leaf.2 ≠ []) :
    Ordered (a ++ (kw' ++ b)) (t ++ (w' ++ z)) := by
  have hsep := h.separated
  have hsorted := h.sorted
  obtain ⟨-, habove⟩ := h.window_bounds kw ha hkw
  rw [List.map_append, List.map_append] at hsep
  have ha' : a.length = (t.map Prod.snd).length := by rw [ha, List.length_map]
  obtain ⟨-, hsepw⟩ := (separated_append ha').1 hsep
  have hentries : leafEntries (t ++ (w' ++ z)) = leafEntries (t ++ (w ++ z)) := by
    simp only [leafEntries_append, hes]
  refine ⟨?_, hentries ▸ hsorted, ?_⟩
  · rw [List.map_append, List.map_append]
    refine Separated.replace ha' hsep ?_ ?_
    · intro e he
      refine Or.inl ?_
      rw [List.flatten_append, List.mem_append] at he ⊢
      exact he.imp_left fun he' => (show e ∈ leafEntries w from hes ▸ he')
    · rcases List.eq_nil_or_concat w with rfl | ⟨w₀, last, rfl⟩
      · simp at hkw
      · rw [List.concat_eq_append] at hkw hsepw
        rw [List.map_append, List.append_assoc] at hsepw
        have hlen : kw.length = (w₀.map Prod.snd).length := by
          rw [List.length_append, List.length_singleton] at hkw
          rw [List.length_map]
          omega
        refine hfirst.separated ?_ ((separated_append hlen).1 hsepw).2 ?_
        · rw [leafEntries_append, leafEntries_append, ← hes] at hsorted
          rw [List.flatten_append]
          exact (SortedKeys.append.1 hsorted).2.1
        · intro k hk e he
          exact habove k hk e (hes ▸ he)
  · intro leaf hleaf
    simp only [List.mem_append] at hleaf
    rcases hleaf with hleaf | hleaf | hleaf
    · exact h.nonempty leaf (by simp [hleaf])
    · exact hne leaf hleaf
    · exact h.nonempty leaf (by simp [hleaf])

end Ordered

end QuasarDB.Storage
