import QuasarDB.Storage.Proofs.Rebalance

set_option autoImplicit false

/-! # Leaves that are too small

What `handleLeafUnderflow` does below a root: a neighbour lends, or three leaves share their entries
or become two, or the two leaves of a root become the root. The last case is the one with a
precondition the code does not establish: it asserts that the two leaves fit in one. -/

namespace QuasarDB.Storage

open NodePage BStarPlusTree

variable {K V : Type} (L : Instantiation K V)

section Run

variable {file file' : TreeFile K V} {parentId id l r ll rr next : Int} {ks : List K}
  {es es₁ es₂ es₃ : List (K × V)} {t z leaves : List (LeafRecord K V)} {others : List Int}
  {parentStack : ParentStack}

/-- A leaf lends when it has more entries than a leaf below this root must have. -/
theorem LeafLevel.canLend_eq (h : LeafLevel file parentId ks leaves next others) {p : NodePage K V}
    {next' : Int} (hp : p.IsLeaf id es next') :
    p.canLend L ((file.page parentId).childrenSize == 2)
      = decide (minLeafSize L leaves.length < es.length) := by
  rw [hp.canLend_eq, h.parentPage.childrenSize_eq, List.length_map, minLeafSize]
  by_cases htwo : leaves.length = 2 <;> simp [htwo]

theorem LeafLevel.filter_canLend_eq_none (h : LeafLevel file parentId ks leaves next others)
    {o : Option (LeafRecord K V)} (ho : ∀ leaf ∈ o, leaf ∈ leaves)
    (hpoor : ∀ leaf ∈ o, leaf.2.length ≤ minLeafSize L leaves.length) :
    (o.map fun leaf => file.page leaf.1).filter
      (fun p => p.canLend L ((file.page parentId).childrenSize == 2)) = none := by
  cases o with
  | none => rfl
  | some leaf =>
      obtain ⟨next', hleaf⟩ := h.run.isLeaf (ho leaf rfl)
      have hno : ¬ minLeafSize L leaves.length < leaf.2.length := not_lt.2 (hpoor leaf rfl)
      simp [Option.filter, h.canLend_eq L hleaf, hno]

/-- The neighbours `handleLeafUnderflow` reads, if they are there. -/
def leftSibling (file : TreeFile K V) (t : List (LeafRecord K V)) : Option (NodePage K V) :=
  t.getLast?.map fun leaf => file.page leaf.1

def rightSibling (file : TreeFile K V) (z : List (LeafRecord K V)) : Option (NodePage K V) :=
  z.head?.map fun leaf => file.page leaf.1

theorem LeafLevel.leaf_bne_root (h : LeafLevel file parentId ks (t ++ (id, es) :: z) next others) :
    ((file.page id).nodeId != file.rootId) = true := by
  simpa using h.leaf_ne_root

theorem handleLeafUnderflow_left
    (h : LeafLevel file parentId ks (t ++ (l, es₁) :: (id, es) :: z) next others)
    (hlend : minLeafSize L (t ++ (l, es₁) :: (id, es) :: z).length < es₁.length)
    {nodes : NodePage K V × NodePage K V × NodePage K V}
    (hrun : redistributeLeaves2to2 L (file.page l) (file.page id) (file.page parentId) t.length file
      = .ok nodes file') :
    handleLeafUnderflow L (file.page id) ((parentId, t.length + 1) :: parentStack) file
      = .ok () file' := by
  have h' : LeafLevel file parentId ks ((t ++ [(l, es₁)]) ++ (id, es) :: z) next others := by
    simpa using h
  have hleft := h'.openLeft
  simp only [List.length_append, List.length_singleton, List.getLast?_concat, Option.map_some,
    Nat.add_sub_cancel] at hleft
  rw [handleLeafUnderflow, Prog.bind_ok (run_rootId _), h'.leaf_bne_root, Prog.assert_true,
    Prog.run_pure_bind, Prog.bind_ok (run_top _ _ _)]
  simp only [Nat.add_sub_cancel]
  rw [Prog.bind_ok (h.openParent rfl le_rfl), Prog.bind_ok hleft]
  simp only [Option.filter, h.canLend_eq L h.isLeaf, hlend, decide_true, if_true]
  exact Prog.bind_ok hrun

theorem handleLeafUnderflow_right
    (h : LeafLevel file parentId ks (t ++ (id, es) :: (r, es₂) :: z) next others)
    (hpoor : ∀ leaf ∈ t.getLast?,
      leaf.2.length ≤ minLeafSize L (t ++ (id, es) :: (r, es₂) :: z).length)
    (hlend : minLeafSize L (t ++ (id, es) :: (r, es₂) :: z).length < es₂.length)
    {nodes : NodePage K V × NodePage K V × NodePage K V}
    (hrun : redistributeLeaves2to2 L (file.page id) (file.page r) (file.page parentId) t.length file
      = .ok nodes file') :
    handleLeafUnderflow L (file.page id) ((parentId, t.length) :: parentStack) file = .ok () file' := by
  have hno := h.filter_canLend_eq_none L
    (fun leaf hleaf => List.mem_append_left _ (List.mem_of_getLast? hleaf)) hpoor
  obtain ⟨next', hr⟩ := h.run.isLeaf (show (r, es₂) ∈ _ by simp)
  have hright := h.openRight
  simp only [List.head?_cons, Option.map_some] at hright
  rw [handleLeafUnderflow, Prog.bind_ok (run_rootId _), h.leaf_bne_root, Prog.assert_true,
    Prog.run_pure_bind, Prog.bind_ok (run_top _ _ _)]
  simp only
  rw [Prog.bind_ok (h.openParent rfl le_rfl), Prog.bind_ok h.openLeft, hno]
  simp only
  rw [Prog.bind_ok hright]
  simp only [Option.filter, h.canLend_eq L hr, hlend, decide_true, if_true]
  exact Prog.bind_ok hrun

/-- Neither neighbour lends. -/
theorem handleLeafUnderflow_join (h : LeafLevel file parentId ks (t ++ (id, es) :: z) next others)
    (hpre : ∀ leaf ∈ t.getLast?,
      leaf.2.length ≤ minLeafSize L (t ++ (id, es) :: z).length)
    (hpost : ∀ leaf ∈ z.head?,
      leaf.2.length ≤ minLeafSize L (t ++ (id, es) :: z).length) :
    handleLeafUnderflow L (file.page id) ((parentId, t.length) :: parentStack) file
      = joinLeaves L (file.page id) (file.page parentId) (leftSibling file t)
          (rightSibling file z) ((parentId, t.length) :: parentStack) t.length file := by
  have hleft := h.filter_canLend_eq_none L
    (fun leaf hleaf => List.mem_append_left _ (List.mem_of_getLast? hleaf)) hpre
  have hright := h.filter_canLend_eq_none L
    (fun leaf hleaf => by
      have := List.mem_of_mem_head? hleaf
      simp [this]) hpost
  rw [handleLeafUnderflow, Prog.bind_ok (run_rootId _), h.leaf_bne_root, Prog.assert_true,
    Prog.run_pure_bind, Prog.bind_ok (run_top _ _ _)]
  simp only
  rw [Prog.bind_ok (h.openParent rfl le_rfl), Prog.bind_ok h.openLeft, hleft]
  simp only
  rw [Prog.bind_ok h.openRight, hright]
  rfl

/-! ## Joining leaves -/

/-- The two leaves of a root: the assertion that they fit in one, then the merge. -/
theorem run_joinLeaves_right (h : LeafLevel file parentId ks [(id, es), (r, es₂)] next others) :
    joinLeaves L (file.page id) (file.page parentId) (leftSibling file []) (rightSibling file [(r, es₂)])
        ((parentId, 0) :: parentStack) 0 file
      = if es.length + es₂.length ≤ L.maxKeysLeaf then
          mergeLeaves2to1 L (file.page id) (file.page r) ((parentId, 0) :: parentStack) file
        else .error (.assertion "leaf.size() + right->size() <= MAX_KEYS_LEAF") file := by
  have hkids : (file.page parentId).childrenSize = 2 := by rw [h.parentPage.childrenSize_eq]; rfl
  obtain ⟨next₁, hid⟩ := h.run.isLeaf (show (id, es) ∈ _ by simp)
  obtain ⟨next₂, hr⟩ := h.run.isLeaf (show (r, es₂) ∈ _ by simp)
  unfold joinLeaves
  rw [if_pos hkids]
  simp only [rightSibling, List.head?_cons, Option.map_some, hid.size_eq, hr.size_eq]
  by_cases hfit : es.length + es₂.length ≤ L.maxKeysLeaf <;> simp [hfit]

theorem run_joinLeaves_left (h : LeafLevel file parentId ks [(l, es₁), (id, es)] next others) :
    joinLeaves L (file.page id) (file.page parentId) (leftSibling file [(l, es₁)]) (rightSibling file [])
        ((parentId, 1) :: parentStack) 1 file
      = if es₁.length + es.length ≤ L.maxKeysLeaf then
          mergeLeaves2to1 L (file.page l) (file.page id) ((parentId, 1) :: parentStack) file
        else .error (.assertion "left->size() + leaf.size() <= MAX_KEYS_LEAF") file := by
  have hkids : (file.page parentId).childrenSize = 2 := by rw [h.parentPage.childrenSize_eq]; rfl
  obtain ⟨next₁, hid⟩ := h.run.isLeaf (show (id, es) ∈ _ by simp)
  obtain ⟨next₂, hl⟩ := h.run.isLeaf (show (l, es₁) ∈ _ by simp)
  unfold joinLeaves
  rw [if_pos hkids]
  simp only [leftSibling, rightSibling, List.getLast?_singleton, List.head?_nil, Option.map_none,
    Option.map_some, hid.size_eq, hl.size_eq]
  by_cases hfit : es₁.length + es.length ≤ L.maxKeysLeaf <;> simp [hfit]

/-- The first leaf of three or more. -/
theorem run_joinLeaves_first
    (h : LeafLevel file parentId ks ((id, es) :: (r, es₂) :: (rr, es₃) :: z) next others) :
    joinLeaves L (file.page id) (file.page parentId) (leftSibling file [])
        (rightSibling file ((r, es₂) :: (rr, es₃) :: z)) ((parentId, 0) :: parentStack) 0 file
      = if L.minKeysLeaf < es₃.length then
          redistributeLeaves3to3 L (file.page id) (file.page r) (file.page rr) (file.page parentId) 0
            file
        else mergeLeaves3to2 L (file.page id) (file.page r) (file.page rr)
          ((parentId, 0) :: parentStack) 0 file := by
  have hkids : ¬ (file.page parentId).childrenSize = 2 := by rw [h.parentPage.childrenSize_eq]; simp
  obtain ⟨next', hrr⟩ := h.run.isLeaf (show (rr, es₃) ∈ _ by simp)
  have h' : LeafLevel file parentId ks ([(id, es), (r, es₂)] ++ (rr, es₃) :: z) next others := h
  have hopen : openChild (file.page parentId) 2 file = .ok (file.page rr) file := h'.openChild
  unfold joinLeaves
  rw [if_neg hkids, if_pos rfl, Prog.bind_ok hopen]
  simp only [rightSibling, List.head?_cons, Option.map_some, hrr.canLend_eq, Bool.false_eq_true,
    if_false, decide_eq_true_eq]
  split <;> rfl

/-- The last leaf of three or more. -/
theorem run_joinLeaves_last
    (h : LeafLevel file parentId ks (t ++ [(ll, es₁), (l, es₂), (id, es)]) next others) :
    joinLeaves L (file.page id) (file.page parentId) (leftSibling file (t ++ [(ll, es₁), (l, es₂)]))
        (rightSibling file []) ((parentId, t.length + 2) :: parentStack) (t.length + 2) file
      = if L.minKeysLeaf < es₁.length then
          redistributeLeaves3to3 L (file.page ll) (file.page l) (file.page id) (file.page parentId)
            t.length file
        else mergeLeaves3to2 L (file.page ll) (file.page l) (file.page id)
          ((parentId, t.length + 2) :: parentStack) t.length file := by
  have hkids : (file.page parentId).childrenSize = t.length + 3 := by
    rw [h.parentPage.childrenSize_eq]; simp
  obtain ⟨next', hll⟩ := h.run.isLeaf (show (ll, es₁) ∈ _ by simp)
  have hopen : openChild (file.page parentId) t.length file = .ok (file.page ll) file := h.openChild
  unfold joinLeaves
  rw [hkids, if_neg (by omega), if_neg (by omega), if_pos (by omega),
    Prog.sub_of_le (by omega), Prog.run_pure_bind, Nat.add_sub_cancel, Prog.bind_ok hopen]
  have hlast : (t ++ [(ll, es₁), (l, es₂)]).getLast? = some (l, es₂) := by simp
  simp only [leftSibling, hlast, Option.map_some, hll.canLend_eq, Bool.false_eq_true, if_false,
    decide_eq_true_eq]
  split <;> rfl

/-- A leaf between two others. -/
theorem run_joinLeaves_middle
    (h : LeafLevel file parentId ks (t ++ (l, es₁) :: (id, es) :: (r, es₂) :: z) next others) :
    joinLeaves L (file.page id) (file.page parentId) (leftSibling file (t ++ [(l, es₁)]))
        (rightSibling file ((r, es₂) :: z)) ((parentId, t.length + 1) :: parentStack) (t.length + 1)
        file
      = mergeLeaves3to2 L (file.page l) (file.page id) (file.page r)
          ((parentId, t.length + 1) :: parentStack) t.length file := by
  have hkids : (file.page parentId).childrenSize = t.length + (z.length + 3) := by
    rw [h.parentPage.childrenSize_eq]; simp
  unfold joinLeaves
  rw [hkids, if_neg (by omega), if_neg (by omega), if_neg (by omega)]
  simp [leftSibling, rightSibling]

end Run

/-! ## Three leaves or more -/

variable [LinearOrder K]

/-- The leaves below a node after a leaf that was too small is dealt with: they are rebalanced, on
    pages that were leaves before, one less at most, in a file of the same length. -/
structure Refilled (file file' : TreeFile K V) (parentId : Int) (leaves leaves' : List (LeafRecord K V))
    (ks' : List K) (next : Int) (others : List Int) : Prop extends
    LevelRebalanced L file file' parentId leaves leaves' ks' next others where
  totalPages : file'.totalPages = file.totalPages
  ids : leaves'.map Prod.fst ⊆ leaves.map Prod.fst
  count : leaves.length ≤ leaves'.length + 1

section Many

variable {file file' : TreeFile K V} {parentId id next : Int} {a b ks ks' : List K}
  {es : List (K × V)} {t z leaves leaves' : List (LeafRecord K V)} {others : List Int}
  {parentStack : ParentStack}

/-- The pages marked deleted are those that were, and the leaves that are no leaves any more. -/
theorem Refilled.deleted_iff (h' : Refilled L file file' parentId leaves leaves' ks' next others)
    (h : LeafLevel file parentId ks leaves next others) (i : Int) :
    (file'.page i).deleted = true ↔
      (file.page i).deleted = true ∨ i ∈ leaves.map Prod.fst ∧ i ∉ leaves'.map Prod.fst := by
  have hlive := h.owned.live i
  have hlive' := h'.level.owned.live i
  simp only [List.mem_cons, List.mem_append] at hlive hlive'
  by_cases hold : i ∈ leaves.map Prod.fst
  · rw [hlive (.inr (.inl hold))]
    by_cases hnew : i ∈ leaves'.map Prod.fst
    · simp [hlive' (.inr (.inl hnew)), hnew]
    · -- a page no leaf lies on any more is owned by nobody
      have hrange := h.owned.range i (by simp [hold])
      have hother : i ≠ parentId ∧ i ∉ others := by
        have hnd := h.owned.nodup
        rw [List.nodup_cons, List.mem_append, not_or] at hnd
        exact ⟨fun he => hnd.1.1 (he ▸ hold),
          fun hmem => (List.nodup_append.1 hnd.2).2.2 i hold i hmem rfl⟩
      have hfree := h'.level.owned.free i hrange.1 (h'.totalPages ▸ hrange.2) (by
        simp only [List.mem_cons, List.mem_append, not_or]
        exact ⟨hother.1, hnew, hother.2⟩)
      simp only [hfree.1, hold, hnew, not_false_eq_true, and_self, or_true]
  · by_cases hparent : i = parentId
    · simp [hlive (.inl hparent), hlive' (.inl hparent), hold]
    · have hnew : i ∉ leaves'.map Prod.fst := fun hmem => hold (h'.ids hmem)
      rw [h'.same.page i (by simp [hparent, hold, hnew])]
      simp [hold]

/-- No neighbour of the first leaf lends. -/
theorem joinLeaves_first {r rr : Int} {es₂ es₃ : List (K × V)}
    (h : LeafLevel file parentId b ((id, es) :: (r, es₂) :: (rr, es₃) :: z) next others)
    (ho : Ordered b ((id, es) :: (r, es₂) :: (rr, es₃) :: z))
    (hspare : file.rootId = parentId ∨ L.minKeysInternal < b.length)
    (hes : es.length + 1 = L.minKeysLeaf) (hr : es₂.length = L.minKeysLeaf)
    (hrr : L.minKeysLeaf ≤ es₃.length ∧ es₃.length ≤ L.maxKeysLeaf)
    (hsizes : ∀ leaf ∈ z, L.minKeysLeaf ≤ leaf.2.length ∧ leaf.2.length ≤ L.maxKeysLeaf) :
    ∃ file' ks' leaves',
      joinLeaves L (file.page id) (file.page parentId) (leftSibling file [])
          (rightSibling file ((r, es₂) :: (rr, es₃) :: z)) ((parentId, 0) :: parentStack) 0 file
        = .ok () file'
      ∧ Refilled L file file' parentId ((id, es) :: (r, es₂) :: (rr, es₃) :: z) leaves' ks' next
          others
      ∧ ks'.length ≤ b.length := by
  obtain ⟨x, y, b, rfl⟩ : ∃ x y b', b = x :: y :: b' := by
    have hb : b.length = z.length + 2 := by simpa using ho.length_leaves.symm
    match b, hb with
    | x :: y :: b, _ => exact ⟨x, y, b, rfl⟩
  have hcount := minLeafSize_le_minKeysLeaf L (([] : List (LeafRecord K V)).length + z.length + 3)
  have hothers : ∀ leaf ∈ [] ++ z,
      minLeafSize L (([] : List (LeafRecord K V)).length + z.length + 3) ≤ leaf.2.length ∧
        leaf.2.length ≤ L.maxKeysLeaf := fun leaf hleaf => (hsizes leaf hleaf).imp_left hcount.trans
  rw [run_joinLeaves_first L h]
  by_cases hlend : L.minKeysLeaf < es₃.length
  · obtain ⟨file', ks', cs₁, cs₂, cs₃, hrun, hbalanced, hpages, hlen⟩ :=
      LeafLevel.rebalanced_redistribute₃ L (a := []) (t := []) h ho rfl hr
        (Or.inl ⟨hes, hlend, hrr.2⟩) hothers
    rw [if_pos hlend]
    exact ⟨file', ks', _, hrun, ⟨hbalanced, hpages, by simp, by simp⟩, hlen.le⟩
  · obtain ⟨file', ks', cs₁, cs₂, hrun, hbalanced, hpages, hlen⟩ :=
      LeafLevel.rebalanced_merge₃ L (a := []) (t := []) h ho rfl (by omega) hr.le (by omega)
        (by omega) hspare hothers 0 parentStack
    rw [if_neg hlend]
    refine ⟨file', ks', _, hrun, ⟨hbalanced, hpages, ?_, by simp⟩, (Nat.le_succ _).trans hlen.le⟩
    intro i hi
    simp only [List.nil_append, List.cons_append, List.map_cons, List.mem_cons] at hi ⊢
    tauto

/-- No neighbour of the last leaf lends. -/
theorem joinLeaves_last {ll l : Int} {es₁ es₂ : List (K × V)}
    (h : LeafLevel file parentId a (t ++ [(ll, es₁), (l, es₂), (id, es)]) next others)
    (ho : Ordered a (t ++ [(ll, es₁), (l, es₂), (id, es)]))
    (hspare : file.rootId = parentId ∨ L.minKeysInternal < a.length)
    (hes : es.length + 1 = L.minKeysLeaf) (hl : es₂.length = L.minKeysLeaf)
    (hll : L.minKeysLeaf ≤ es₁.length ∧ es₁.length ≤ L.maxKeysLeaf)
    (hsizes : ∀ leaf ∈ t, L.minKeysLeaf ≤ leaf.2.length ∧ leaf.2.length ≤ L.maxKeysLeaf) :
    ∃ file' ks' leaves',
      joinLeaves L (file.page id) (file.page parentId)
          (leftSibling file (t ++ [(ll, es₁), (l, es₂)])) (rightSibling file [])
          ((parentId, t.length + 2) :: parentStack) (t.length + 2) file = .ok () file'
      ∧ Refilled L file file' parentId (t ++ [(ll, es₁), (l, es₂), (id, es)]) leaves' ks' next others
      ∧ ks'.length ≤ a.length := by
  have hlen := ho.length_leaves
  simp only [List.length_append, List.length_cons, List.length_nil] at hlen
  obtain ⟨a, y, rfl, ha⟩ := exists_concat_of_length (l := a) (n := t.length + 1) (by omega)
  obtain ⟨a, x, rfl, ha'⟩ := exists_concat_of_length ha
  rw [List.append_assoc] at h ho hspare ⊢
  have hcount := minLeafSize_le_minKeysLeaf L (t.length + ([] : List (LeafRecord K V)).length + 3)
  have hothers : ∀ leaf ∈ t ++ [],
      minLeafSize L (t.length + ([] : List (LeafRecord K V)).length + 3) ≤ leaf.2.length ∧
        leaf.2.length ≤ L.maxKeysLeaf := fun leaf hleaf =>
    (hsizes leaf (by simpa using hleaf)).imp_left hcount.trans
  rw [run_joinLeaves_last L h]
  by_cases hlend : L.minKeysLeaf < es₁.length
  · obtain ⟨file', ks', cs₁, cs₂, cs₃, hrun, hbalanced, hpages, hlen⟩ :=
      LeafLevel.rebalanced_redistribute₃ L (b := []) (z := []) h ho ha' hl
        (Or.inr ⟨hes, hlend, hll.2⟩) hothers
    rw [if_pos hlend]
    exact ⟨file', ks', _, hrun, ⟨hbalanced, hpages, by simp, by simp⟩, hlen.le⟩
  · obtain ⟨file', ks', cs₁, cs₂, hrun, hbalanced, hpages, hlen⟩ :=
      LeafLevel.rebalanced_merge₃ L (b := []) (z := []) h ho ha' (by omega) hl.le (by omega)
        (by omega) hspare hothers (t.length + 2) parentStack
    rw [if_neg hlend]
    refine ⟨file', ks', _, hrun, ⟨hbalanced, hpages, ?_, by simp⟩, (Nat.le_succ _).trans hlen.le⟩
    intro i hi
    simp only [List.append_nil, List.map_append, List.map_cons, List.map_nil, List.mem_append,
      List.mem_cons] at hi ⊢
    tauto

/-- No neighbour of a leaf between two others lends. -/
theorem joinLeaves_middle {l r : Int} {es₁ es₂ : List (K × V)}
    (h : LeafLevel file parentId ks (t ++ (l, es₁) :: (id, es) :: (r, es₂) :: z) next others)
    (ho : Ordered ks (t ++ (l, es₁) :: (id, es) :: (r, es₂) :: z))
    (hspare : file.rootId = parentId ∨ L.minKeysInternal < ks.length)
    (hes : es.length + 1 = L.minKeysLeaf) (hl : es₁.length = L.minKeysLeaf)
    (hr : es₂.length = L.minKeysLeaf)
    (hsizes : ∀ leaf ∈ t ++ z,
      L.minKeysLeaf ≤ leaf.2.length ∧ leaf.2.length ≤ L.maxKeysLeaf) :
    ∃ file' ks' leaves',
      joinLeaves L (file.page id) (file.page parentId) (leftSibling file (t ++ [(l, es₁)]))
          (rightSibling file ((r, es₂) :: z)) ((parentId, t.length + 1) :: parentStack)
          (t.length + 1) file
        = .ok () file'
      ∧ Refilled L file file' parentId (t ++ (l, es₁) :: (id, es) :: (r, es₂) :: z) leaves' ks' next
          others
      ∧ ks'.length ≤ ks.length := by
  have hlen := ho.length_leaves
  simp only [List.length_append, List.length_cons] at hlen
  obtain ⟨a, b, rfl, ha, hb⟩ := exists_split ks (n := t.length) (by omega)
  have hb' : b.length = z.length + 2 := by omega
  obtain ⟨x, y, b, rfl⟩ : ∃ x y b', b = x :: y :: b' := by
    match b, hb' with
    | x :: y :: b, _ => exact ⟨x, y, b, rfl⟩
  have hcount := minLeafSize_le_minKeysLeaf L (t.length + z.length + 3)
  obtain ⟨file', ks', cs₁, cs₂, hrun, hbalanced, hpages, hlen⟩ :=
    LeafLevel.rebalanced_merge₃ L h ho ha hl.le (by omega) hr.le (by omega) hspare
      (fun leaf hleaf => (hsizes leaf hleaf).imp_left hcount.trans) (t.length + 1) parentStack
  rw [run_joinLeaves_middle L h]
  refine ⟨file', ks', _, hrun, ⟨hbalanced, hpages, ?_, by simp; omega⟩, (Nat.le_succ _).trans hlen.le⟩
  intro i hi
  simp only [List.map_append, List.map_cons, List.map_nil, List.mem_append, List.mem_cons] at hi ⊢
  tauto

/-- A leaf that is one entry too small, below a node with three leaves or more that is the root or
    has a key to spare. -/
theorem handleLeafUnderflow_many
    (h : LeafLevel file parentId (a ++ b) (t ++ (id, es) :: z) next others)
    (ho : Ordered (a ++ b) (t ++ (id, es) :: z)) (ha : a.length = t.length)
    (hspare : file.rootId = parentId ∨ L.minKeysInternal < (a ++ b).length)
    (hthree : 2 ≤ t.length + z.length) (hes : es.length + 1 = L.minKeysLeaf)
    (hsizes : ∀ leaf ∈ t ++ z,
      L.minKeysLeaf ≤ leaf.2.length ∧ leaf.2.length ≤ L.maxKeysLeaf) :
    ∃ file' ks' leaves',
      handleLeafUnderflow L (file.page id) ((parentId, t.length) :: parentStack) file = .ok () file'
      ∧ Refilled L file file' parentId (t ++ (id, es) :: z) leaves' ks' next others
      ∧ ks'.length ≤ (a ++ b).length := by
  have hle := minKeysLeaf_le_maxKeysLeaf L
  have hmin : minLeafSize L (t ++ (id, es) :: z).length = L.minKeysLeaf := by
    rw [minLeafSize, if_neg]
    simp
    omega
  by_cases hleft : ∃ leaf ∈ t.getLast?, L.minKeysLeaf < leaf.2.length
  · -- the left neighbour lends
    obtain ⟨⟨l, es₁⟩, hlast, hlend⟩ := hleft
    obtain ⟨t, rfl⟩ := List.getLast?_eq_some_iff.1 hlast
    obtain ⟨a, x, rfl, ha'⟩ := exists_concat_of_length (n := t.length) (by simpa using ha)
    have hl : es₁.length ≤ L.maxKeysLeaf := (hsizes (l, es₁) (by simp)).2
    have hlend' : L.minKeysLeaf < es₁.length := hlend
    rw [List.length_append, List.length_singleton] at hthree
    simp only [List.append_assoc, List.singleton_append] at h ho hmin ⊢
    have hcount := minLeafSize_le_minKeysLeaf L (t.length + z.length + 2)
    obtain ⟨nodes, file', ks', cs₁, cs₂, hrun, hbalanced, hpages, hlen⟩ :=
      h.rebalanced_redistribute₂ L ho ha' (by omega) (by omega)
        fun leaf hleaf => (hsizes leaf (by simp at hleaf ⊢; tauto)).imp_left hcount.trans
    refine ⟨file', ks', _, ?_, ⟨hbalanced, hpages, by simp, by simp⟩, hlen.le⟩
    rw [List.length_append, List.length_singleton]
    exact handleLeafUnderflow_left L h (by rw [hmin]; exact hlend') hrun
  have hpre : ∀ leaf ∈ t.getLast?, leaf.2.length ≤ L.minKeysLeaf := fun leaf hleaf =>
    not_lt.1 fun hlt => hleft ⟨leaf, hleaf, hlt⟩
  by_cases hright : ∃ leaf ∈ z.head?, L.minKeysLeaf < leaf.2.length
  · -- the right neighbour lends
    obtain ⟨⟨r, es₂⟩, hhead, hlend⟩ := hright
    obtain ⟨z, rfl⟩ := List.head?_eq_some_iff.1 hhead
    rcases b with - | ⟨x, b⟩
    · have hlen := ho.length_leaves
      simp at hlen
      omega
    have hr : es₂.length ≤ L.maxKeysLeaf := (hsizes (r, es₂) (by simp)).2
    have hlend' : L.minKeysLeaf < es₂.length := hlend
    have hcount := minLeafSize_le_minKeysLeaf L (t.length + z.length + 2)
    obtain ⟨nodes, file', ks', cs₁, cs₂, hrun, hbalanced, hpages, hlen⟩ :=
      h.rebalanced_redistribute₂ L ho ha (by omega) (by omega)
        fun leaf hleaf => (hsizes leaf (by simp at hleaf ⊢; tauto)).imp_left hcount.trans
    refine ⟨file', ks', _, ?_, ⟨hbalanced, hpages, by simp, by simp⟩, hlen.le⟩
    exact handleLeafUnderflow_right L h (by rw [hmin]; exact hpre) (by rw [hmin]; exact hlend') hrun
  have hpost : ∀ leaf ∈ z.head?, leaf.2.length ≤ L.minKeysLeaf := fun leaf hleaf =>
    not_lt.1 fun hlt => hright ⟨leaf, hleaf, hlt⟩
  rw [handleLeafUnderflow_join L h (by rw [hmin]; exact hpre) (by rw [hmin]; exact hpost)]
  rcases List.eq_nil_or_concat t with rfl | ⟨t, ⟨l, es₁⟩, rfl⟩
  · -- the first leaf
    obtain rfl := List.eq_nil_of_length_eq_zero ha
    rcases z with - | ⟨⟨r, es₂⟩, - | ⟨⟨rr, es₃⟩, z⟩⟩
    · simp at hthree
    · simp at hthree
    have hr : es₂.length = L.minKeysLeaf :=
      le_antisymm (hpost (r, es₂) (by simp)) (hsizes (r, es₂) (by simp)).1
    exact joinLeaves_first L h ho hspare hes hr (hsizes (rr, es₃) (by simp))
      fun leaf hleaf => hsizes leaf (by simp [hleaf])
  rw [List.concat_eq_append] at h ho ha hthree hpre hsizes ⊢
  have hl : es₁.length = L.minKeysLeaf :=
    le_antisymm (hpre (l, es₁) (by simp)) (hsizes (l, es₁) (by simp)).1
  rw [List.append_assoc] at h ho ⊢
  rcases z with - | ⟨⟨r, es₂⟩, z⟩
  · -- the last leaf
    rcases List.eq_nil_or_concat t with rfl | ⟨t, ⟨ll, es₀⟩, rfl⟩
    · simp at hthree
    rw [List.concat_eq_append] at h ho hsizes ⊢
    have hlen : (t ++ [(ll, es₀)] ++ [(l, es₁)]).length = t.length + 2 := by simp
    rw [hlen]
    simp only [List.append_assoc, List.singleton_append] at h ho hsizes ⊢
    exact joinLeaves_last L h ho hspare hes hl (hsizes (ll, es₀) (by simp))
      fun leaf hleaf => hsizes leaf (by simp [hleaf])
  · -- a leaf between two others
    have hr : es₂.length = L.minKeysLeaf :=
      le_antisymm (hpost (r, es₂) (by simp)) (hsizes (r, es₂) (by simp)).1
    rw [List.length_append, List.length_singleton]
    exact joinLeaves_middle L h ho hspare hes hl hr
      fun leaf hleaf => hsizes leaf (by simp at hleaf ⊢; tauto)

end Many

end QuasarDB.Storage
