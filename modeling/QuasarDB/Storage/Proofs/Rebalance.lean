import QuasarDB.Storage.Proofs.LeafBalance
import QuasarDB.Storage.Proofs.Search

set_option autoImplicit false

/-! # Rebalancing keeps the order and the sizes

The operations on a window of leaves, now in an ordered tree whose other leaves have allowed sizes:
each ends in such a tree with the same entries (`Rebalanced`). -/

namespace QuasarDB.Storage

open NodePage BStarPlusTree

variable {K V : Type} [LinearOrder K] (L : Instantiation K V)

namespace LeafLevel

variable {file : TreeFile K V} {parentId l m r next : Int} {a b : List K} {x y : K}
  {t z : List (LeafRecord K V)} {es₁ es₂ es₃ : List (K × V)}
  {others : List Int}

theorem redistribute₂
    (h : LeafLevel file parentId (a ++ x :: b) (t ++ ([(l, es₁), (r, es₂)] ++ z)) next others)
    (ho : Ordered (a ++ x :: b) (t ++ ([(l, es₁), (r, es₂)] ++ z)))
    (hlen : a.length = t.length) (hmax : es₁.length + es₂.length ≤ 2 * L.maxKeysLeaf)
    (hmin : 2 ≤ es₁.length + es₂.length) :
    ∃ nodes file' x' cs₁ cs₂,
      BStarPlusTree.redistributeLeaves2to2 L (file.page l) (file.page r) (file.page parentId)
        t.length file = .ok nodes file'
      ∧ Rewritten file file' parentId (a ++ x' :: b) t [(l, es₁), (r, es₂)] [(l, cs₁), (r, cs₂)] z
          next others
      ∧ Ordered (a ++ x' :: b) (t ++ ([(l, cs₁), (r, cs₂)] ++ z))
      ∧ file'.totalPages = file.totalPages ∧ cs₁ ++ cs₂ = es₁ ++ es₂
      ∧ cs₁.length = (es₁.length + es₂.length) / 2
      ∧ cs₁.length + cs₂.length = es₁.length + es₂.length := by
  obtain ⟨nodes, file', x', cs₁, cs₂, hrun, hrep, htotal, hes, hsize, hx⟩ :=
    h.redistributeLeaves2to2 L hlen hmax hmin
  have hsum : cs₁.length + cs₂.length = es₁.length + es₂.length := by
    rw [← List.length_append, hes, List.length_append]
  refine ⟨nodes, file', x', cs₁, cs₂, hrun, hrep, ?_, htotal, hes, hsize, hsum⟩
  rcases hx with ⟨rfl, rfl, rfl⟩ | hx
  · exact ho
  · refine ho.recut [x] [x'] hlen rfl ?_ ⟨hx, trivial⟩ ?_
    · simpa using hes
    · simp only [List.forall_mem_cons]
      exact ⟨List.ne_nil_of_length_pos (by omega), List.ne_nil_of_length_pos (by omega), by simp⟩

theorem redistribute₃
    (h : LeafLevel file parentId (a ++ x :: y :: b)
      (t ++ ([(l, es₁), (m, es₂), (r, es₃)] ++ z)) next others)
    (ho : Ordered (a ++ x :: y :: b) (t ++ ([(l, es₁), (m, es₂), (r, es₃)] ++ z)))
    (hlen : a.length = t.length) (hm : es₂.length = L.minKeysLeaf)
    (hsize : es₁.length + 1 = L.minKeysLeaf ∧ L.minKeysLeaf < es₃.length ∧
        es₃.length ≤ L.maxKeysLeaf ∨
      es₃.length + 1 = L.minKeysLeaf ∧ L.minKeysLeaf < es₁.length ∧
        es₁.length ≤ L.maxKeysLeaf) :
    ∃ file' x' y' cs₁ cs₂ cs₃,
      BStarPlusTree.redistributeLeaves3to3 L (file.page l) (file.page m) (file.page r)
        (file.page parentId) t.length file = .ok () file'
      ∧ Rewritten file file' parentId (a ++ x' :: y' :: b) t [(l, es₁), (m, es₂), (r, es₃)]
          [(l, cs₁), (m, cs₂), (r, cs₃)] z next others
      ∧ file'.totalPages = file.totalPages
      ∧ Ordered (a ++ x' :: y' :: b) (t ++ ([(l, cs₁), (m, cs₂), (r, cs₃)] ++ z))
      ∧ cs₁ ++ cs₂ ++ cs₃ = es₁ ++ es₂ ++ es₃
      ∧ (∀ c ∈ [cs₁, cs₂, cs₃], L.minKeysLeaf ≤ c.length ∧ c.length ≤ L.maxKeysLeaf) := by
  obtain ⟨file', x', y', cs₁, cs₂, cs₃, hrun, hrep, htotal, hes, hsizes, hx, hy⟩ :=
    h.redistributeLeaves3to3 L hlen hm hsize
  refine ⟨file', x', y', cs₁, cs₂, cs₃, hrun, hrep, htotal, ?_, hes, hsizes⟩
  refine ho.recut [x, y] [x', y'] hlen rfl ?_ ⟨hx, hy, trivial⟩ ?_
  · simpa using hes
  · have hpos : ∀ c ∈ [cs₁, cs₂, cs₃], c ≠ [] := fun c hc => by
      have := (hsizes c hc).1
      have := L.minKeysLeaf_bounds
      have := L.three_le_maxKeysLeaf
      exact List.ne_nil_of_length_pos (by omega)
    simpa using hpos

theorem merge₃
    (h : LeafLevel file parentId (a ++ x :: y :: b)
      (t ++ ([(l, es₁), (m, es₂), (r, es₃)] ++ z)) next others)
    (ho : Ordered (a ++ x :: y :: b) (t ++ ([(l, es₁), (m, es₂), (r, es₃)] ++ z)))
    (hlen : a.length = t.length) (hle₁ : es₁.length ≤ L.minKeysLeaf)
    (hle₂ : es₂.length ≤ L.minKeysLeaf) (hle₃ : es₃.length ≤ L.minKeysLeaf)
    (htotal : es₁.length + es₂.length + es₃.length + 1 = 3 * L.minKeysLeaf)
    (hspare : file.rootId = parentId ∨ L.minKeysInternal < (a ++ x :: y :: b).length) (i : Nat)
    (parentStack : ParentStack) :
    ∃ file' x' cs₁ cs₂,
      BStarPlusTree.mergeLeaves3to2 L (file.page l) (file.page m) (file.page r) ((parentId, i) :: parentStack)
        t.length file = .ok () file'
      ∧ Rewritten file file' parentId (a ++ x' :: b) t [(l, es₁), (m, es₂), (r, es₃)]
          [(l, cs₁), (m, cs₂)] z next others
      ∧ file'.totalPages = file.totalPages
      ∧ Ordered (a ++ x' :: b) (t ++ ([(l, cs₁), (m, cs₂)] ++ z))
      ∧ cs₁ ++ cs₂ = es₁ ++ es₂ ++ es₃
      ∧ (∀ c ∈ [cs₁, cs₂], L.minKeysLeaf ≤ c.length ∧ c.length ≤ L.maxKeysLeaf) := by
  obtain ⟨file', x', cs₁, cs₂, hrun, hrep, hpages, hes, hsize, hx⟩ :=
    h.mergeLeaves3to2 L hlen hle₁ hle₂ hle₃ htotal hspare i parentStack
  obtain ⟨hmin, hmin'⟩ := L.minKeysLeaf_bounds
  have hmax := L.three_le_maxKeysLeaf
  have hsum : cs₁.length + cs₂.length = es₁.length + es₂.length + es₃.length := by
    rw [← List.length_append, hes, List.length_append, List.length_append]
  have hsizes : ∀ c ∈ [cs₁, cs₂], L.minKeysLeaf ≤ c.length ∧ c.length ≤ L.maxKeysLeaf := by
    simp only [List.forall_mem_cons]
    exact ⟨by omega, by omega, by simp⟩
  refine ⟨file', x', cs₁, cs₂, hrun, hrep, hpages, ?_, hes, hsizes⟩
  refine ho.recut [x, y] [x'] hlen rfl ?_ ⟨hx, trivial⟩ ?_
  · simpa using hes
  · simp only [List.forall_mem_cons]
    exact ⟨List.ne_nil_of_length_pos (by omega), List.ne_nil_of_length_pos (by omega), by simp⟩

theorem split₂ [Inhabited K]
    (h : LeafLevel file parentId (a ++ x :: b) (t ++ ([(l, es₁), (r, es₂)] ++ z)) next others)
    (ho : Ordered (a ++ x :: b) (t ++ ([(l, es₁), (r, es₂)] ++ z)))
    (hlen : a.length = t.length) (htotal : es₁.length + es₂.length = 2 * L.maxKeysLeaf + 1)
    (hle₁ : es₁.length ≤ L.maxKeysLeaf + 1) (hle₂ : es₂.length ≤ L.maxKeysLeaf + 1)
    (hkeys : (a ++ x :: b).length ≤ L.maxKeysInternal) (i : Nat)
    (parentStack : ParentStack) :
    ∃ file' f x' y' cs₁ cs₂ cs₃,
      BStarPlusTree.splitLeaves2to3 L (file.page l) (file.page r) ((parentId, i) :: parentStack) t.length file
        = (if L.maxKeysInternal < (a ++ x :: b).length + 1 then
            handleInternalOverflow L parentStack (file'.page parentId) file'
          else .ok () file')
      ∧ Rewritten file file' parentId (a ++ x' :: y' :: b) t [(l, es₁), (r, es₂)]
          [(l, cs₁), (r, cs₂), (f, cs₃)] z next others
      ∧ Ordered (a ++ x' :: y' :: b) (t ++ ([(l, cs₁), (r, cs₂), (f, cs₃)] ++ z))
      ∧ file'.totalPages ≤ file.totalPages + 1
      ∧ cs₁ ++ cs₂ ++ cs₃ = es₁ ++ es₂
      ∧ (∀ c ∈ [cs₁, cs₂, cs₃], L.minKeysLeaf ≤ c.length ∧ c.length ≤ L.maxKeysLeaf) := by
  have hentries : leafEntries [(l, es₁), (r, es₂)] = es₁ ++ es₂ := by simp
  have hsorted : SortedKeys (es₁ ++ es₂) := by
    have hs := ho.sorted
    rw [leafEntries_append, leafEntries_append, hentries] at hs
    exact (SortedKeys.append.1 (SortedKeys.append.1 hs).2.1).1
  obtain ⟨hbelow, habove⟩ := ho.window_bounds [x] hlen rfl
  rw [hentries] at hbelow habove
  obtain ⟨file', f, x', y', cs₁, cs₂, cs₃, hrun, hrep, hpages, hes, hsizes, hx, hy⟩ :=
    h.splitLeaves2to3 L hlen htotal hle₁ hle₂ hkeys hsorted hbelow habove i parentStack
  refine ⟨file', f, x', y', cs₁, cs₂, cs₃, hrun, hrep, ?_, hpages, hes, hsizes⟩
  refine ho.recut [x] [x', y'] hlen rfl ?_ ⟨hx, hy, trivial⟩ ?_
  · simpa using hes
  · have hpos : ∀ c ∈ [cs₁, cs₂, cs₃], c ≠ [] := fun c hc => by
      have := (hsizes c hc).1
      have := L.minKeysLeaf_bounds
      have := L.three_le_maxKeysLeaf
      exact List.ne_nil_of_length_pos (by omega)
    simpa using hpos

end LeafLevel

/-! ## Sizes -/

omit [LinearOrder K] in
theorem minLeafSize_le_minKeysLeaf (count : Nat) : minLeafSize L count ≤ L.minKeysLeaf := by
  obtain ⟨-, hmin⟩ := L.minKeysLeaf_bounds
  have hmax := L.three_le_maxKeysLeaf
  unfold minLeafSize
  split <;> omega

omit [LinearOrder K] in
theorem half_le_minLeafSize (count : Nat) : L.maxKeysLeaf / 2 ≤ minLeafSize L count := by
  obtain ⟨-, hmin⟩ := L.minKeysLeaf_bounds
  have hmax := L.three_le_maxKeysLeaf
  unfold minLeafSize
  split <;> omega

omit [LinearOrder K] in
theorem minKeysLeaf_le_maxKeysLeaf : L.minKeysLeaf ≤ L.maxKeysLeaf := by
  obtain ⟨hmin, -⟩ := L.minKeysLeaf_bounds
  have hmax := L.three_le_maxKeysLeaf
  omega

/-- A root and its leaves after a leaf that was too large or too small is dealt with: the same entries
    in leaves of allowed sizes. -/
structure Rebalanced (file' : TreeFile K V) (root : Int) (leaves leaves' : List (LeafRecord K V))
    (ks' : List K) : Prop where
  represents : Represents file' (.level root ks' leaves')
  ordered : Ordered ks' leaves'
  entries : leafEntries leaves' = leafEntries leaves
  two : 2 ≤ leaves'.length
  sizes : ∀ leaf ∈ leaves',
    minLeafSize L leaves'.length ≤ leaf.2.length ∧ leaf.2.length ≤ L.maxKeysLeaf

/-- The same for the leaves below any node: they are chained where they were, each has the minimal
    size of a leaf of a wide node, and no page outside them and the node is written. -/
structure LevelRebalanced (file file' : TreeFile K V) (parentId : Int)
    (leaves leaves' : List (LeafRecord K V)) (ks' : List K) (next : Int) (others : List Int) :
    Prop where
  level : LeafLevel file' parentId ks' leaves' next others
  same : SameOutside file file' (parentId :: (leaves.map Prod.fst ++ leaves'.map Prod.fst))
  head : headId leaves' next = headId leaves next
  ordered : Ordered ks' leaves'
  entries : leafEntries leaves' = leafEntries leaves
  two : 2 ≤ leaves'.length
  sizes : ∀ leaf ∈ leaves', L.minKeysLeaf ≤ leaf.2.length ∧ leaf.2.length ≤ L.maxKeysLeaf

/-- Below a root. -/
theorem LevelRebalanced.rebalanced {file file' : TreeFile K V} {root : Int} {ks ks' : List K}
    {leaves leaves' : List (LeafRecord K V)}
    (h' : LevelRebalanced L file file' root leaves leaves' ks' (-1) [])
    (h : Represents file (.level root ks leaves)) :
    Rebalanced L file' root leaves leaves' ks' := by
  have hmin := minLeafSize_le_minKeysLeaf L leaves'.length
  refine ⟨⟨⟨h'.same.rootId.trans h.onDisk.rootId, ?_, h'.level.parentPage, h'.level.run⟩, ?_⟩,
    h'.ordered, h'.entries, h'.two, fun leaf hleaf => (h'.sizes leaf hleaf).imp_left hmin.trans⟩
  · rw [h'.same.firstLeafId, h.onDisk.firstLeafId, h'.head]
  · simpa [Shape.ids] using h'.level.owned

section Sizes

variable {file file' : TreeFile K V} {parentId l m r next : Int} {a b ks' : List K} {x y : K}
  {t z w w' : List (LeafRecord K V)} {es₁ es₂ es₃ : List (K × V)} {others : List Int}

omit [LinearOrder K] in
/-- The sizes of the other leaves, after one leaf is written. -/
theorem sizes_writeLeaf {t z : List (LeafRecord K V)} {id : Int} {es es' : List (K × V)}
    (h : ∀ leaf ∈ t ++ (id, es) :: z,
      minLeafSize L (t ++ (id, es) :: z).length ≤ leaf.2.length ∧
        leaf.2.length ≤ L.maxKeysLeaf)
    (hlow : es.length ≤ es'.length) (hhigh : es'.length ≤ L.maxKeysLeaf) :
    ∀ leaf ∈ t ++ (id, es') :: z,
      minLeafSize L (t ++ (id, es') :: z).length ≤ leaf.2.length ∧
        leaf.2.length ≤ L.maxKeysLeaf := by
  have hcount : (t ++ (id, es') :: z).length = (t ++ (id, es) :: z).length := by simp
  rw [hcount]
  refine forall_window (w := [(id, es)]) (v := [(id, es')]) h ?_
  simp only [List.forall_mem_cons]
  exact ⟨⟨(h (id, es) (by simp)).1.trans hlow, hhigh⟩, by simp⟩

omit [LinearOrder K] in
/-- A window whose leaves have the minimal size of a wide node fits beside any leaves that had
    allowed sizes beside a window of two or more. -/
theorem sizes_window {n : Nat} (hn : 2 ≤ n)
    (hsizes : ∀ leaf ∈ t ++ z, minLeafSize L (t.length + z.length + n) ≤ leaf.2.length ∧
      leaf.2.length ≤ L.maxKeysLeaf)
    (hw : ∀ leaf ∈ w', L.minKeysLeaf ≤ leaf.2.length ∧ leaf.2.length ≤ L.maxKeysLeaf) :
    ∀ leaf ∈ t ++ (w' ++ z), L.minKeysLeaf ≤ leaf.2.length ∧ leaf.2.length ≤ L.maxKeysLeaf := by
  refine forall_window (w := []) ?_ hw
  intro leaf hleaf
  obtain ⟨hlow, hhigh⟩ := hsizes leaf hleaf
  -- a leaf outside the window is one of three at least
  have hpos : 0 < t.length + z.length := by
    rw [← List.length_append]
    exact List.length_pos_of_mem hleaf
  rw [minLeafSize, if_neg (by omega)] at hlow
  exact ⟨hlow, hhigh⟩

omit [LinearOrder K] in
theorem SameOutside.mono {ids ids' : List Int} (h : SameOutside file file' ids)
    (hsub : ids ⊆ ids') : SameOutside file file' ids' :=
  ⟨h.rootId, h.firstLeafId, fun i hi => h.page i fun hmem => hi (hsub hmem)⟩

/-- A window of two leaves or more that is rewritten with its entries in leaves of allowed sizes. -/
theorem Rewritten.rebalanced (h : Rewritten file file' parentId ks' t w w' z next others)
    (ho : Ordered ks' (t ++ (w' ++ z))) (hes : leafEntries w' = leafEntries w) (htwo : 2 ≤ w.length)
    (htwo' : 2 ≤ w'.length)
    (hsizes : ∀ leaf ∈ t ++ z, minLeafSize L (t.length + z.length + w.length) ≤ leaf.2.length ∧
      leaf.2.length ≤ L.maxKeysLeaf)
    (hw : ∀ leaf ∈ w', L.minKeysLeaf ≤ leaf.2.length ∧ leaf.2.length ≤ L.maxKeysLeaf) :
    LevelRebalanced L file file' parentId (t ++ (w ++ z)) (t ++ (w' ++ z)) ks' next others where
  level := h.level
  same := by
    refine h.same.mono fun i hi => ?_
    simp only [List.map_append, List.mem_cons, List.mem_append] at hi ⊢
    tauto
  head := by simp only [headId_append, h.head]
  ordered := ho
  entries := by simp only [leafEntries_append, hes]
  two := by
    simp only [List.length_append]
    omega
  sizes := sizes_window L htwo hsizes hw

namespace LeafLevel

/-- Two leaves share their entries. -/
theorem rebalanced_redistribute₂
    (h : LeafLevel file parentId (a ++ x :: b) (t ++ ([(l, es₁), (r, es₂)] ++ z)) next others)
    (ho : Ordered (a ++ x :: b) (t ++ ([(l, es₁), (r, es₂)] ++ z)))
    (ha : a.length = t.length) (hmax : es₁.length + es₂.length ≤ 2 * L.maxKeysLeaf)
    (hmin : 2 * L.minKeysLeaf ≤ es₁.length + es₂.length)
    (hsizes : ∀ leaf ∈ t ++ z, minLeafSize L (t.length + z.length + 2) ≤ leaf.2.length ∧
      leaf.2.length ≤ L.maxKeysLeaf) :
    ∃ nodes file' ks' cs₁ cs₂,
      BStarPlusTree.redistributeLeaves2to2 L (file.page l) (file.page r) (file.page parentId) t.length file
        = .ok nodes file'
      ∧ LevelRebalanced L file file' parentId (t ++ ([(l, es₁), (r, es₂)] ++ z))
        (t ++ ([(l, cs₁), (r, cs₂)] ++ z)) ks' next others
      ∧ file'.totalPages = file.totalPages ∧ ks'.length = (a ++ x :: b).length := by
  obtain ⟨-, hmin₀⟩ := L.minKeysLeaf_bounds
  have hmax₀ := L.three_le_maxKeysLeaf
  obtain ⟨nodes, file', x', cs₁, cs₂, hrun, hrep, ho', hpages, hes, hsize, hsum⟩ :=
    h.redistribute₂ L ho ha hmax (by omega)
  refine ⟨nodes, file', _, cs₁, cs₂, hrun, hrep.rebalanced L ho' ?_ le_rfl le_rfl hsizes ?_, hpages,
    by simp⟩
  · simpa using hes
  · simp only [List.forall_mem_cons]
    exact ⟨by omega, by omega, by simp⟩

/-- Three leaves share their entries. -/
theorem rebalanced_redistribute₃
    (h : LeafLevel file parentId (a ++ x :: y :: b)
      (t ++ ([(l, es₁), (m, es₂), (r, es₃)] ++ z)) next others)
    (ho : Ordered (a ++ x :: y :: b) (t ++ ([(l, es₁), (m, es₂), (r, es₃)] ++ z)))
    (ha : a.length = t.length) (hm : es₂.length = L.minKeysLeaf)
    (hsize : es₁.length + 1 = L.minKeysLeaf ∧ L.minKeysLeaf < es₃.length ∧
        es₃.length ≤ L.maxKeysLeaf ∨
      es₃.length + 1 = L.minKeysLeaf ∧ L.minKeysLeaf < es₁.length ∧
        es₁.length ≤ L.maxKeysLeaf)
    (hsizes : ∀ leaf ∈ t ++ z, minLeafSize L (t.length + z.length + 3) ≤ leaf.2.length ∧
      leaf.2.length ≤ L.maxKeysLeaf) :
    ∃ file' ks' cs₁ cs₂ cs₃,
      BStarPlusTree.redistributeLeaves3to3 L (file.page l) (file.page m) (file.page r)
        (file.page parentId) t.length file = .ok () file'
      ∧ LevelRebalanced L file file' parentId (t ++ ([(l, es₁), (m, es₂), (r, es₃)] ++ z))
        (t ++ ([(l, cs₁), (m, cs₂), (r, cs₃)] ++ z)) ks' next others
      ∧ file'.totalPages = file.totalPages ∧ ks'.length = (a ++ x :: y :: b).length := by
  obtain ⟨file', x', y', cs₁, cs₂, cs₃, hrun, hrep, hpages, ho', hes, hsizes'⟩ :=
    h.redistribute₃ L ho ha hm hsize
  refine ⟨file', _, cs₁, cs₂, cs₃, hrun,
    hrep.rebalanced L ho' ?_ (by simp) (by simp) hsizes (by simpa using hsizes'), hpages, by simp⟩
  simpa using hes

/-- Three leaves become two. -/
theorem rebalanced_merge₃
    (h : LeafLevel file parentId (a ++ x :: y :: b)
      (t ++ ([(l, es₁), (m, es₂), (r, es₃)] ++ z)) next others)
    (ho : Ordered (a ++ x :: y :: b) (t ++ ([(l, es₁), (m, es₂), (r, es₃)] ++ z)))
    (ha : a.length = t.length) (hle₁ : es₁.length ≤ L.minKeysLeaf)
    (hle₂ : es₂.length ≤ L.minKeysLeaf) (hle₃ : es₃.length ≤ L.minKeysLeaf)
    (htotal : es₁.length + es₂.length + es₃.length + 1 = 3 * L.minKeysLeaf)
    (hspare : file.rootId = parentId ∨ L.minKeysInternal < (a ++ x :: y :: b).length)
    (hsizes : ∀ leaf ∈ t ++ z, minLeafSize L (t.length + z.length + 3) ≤ leaf.2.length ∧
      leaf.2.length ≤ L.maxKeysLeaf) (i : Nat) (parentStack : ParentStack) :
    ∃ file' ks' cs₁ cs₂,
      BStarPlusTree.mergeLeaves3to2 L (file.page l) (file.page m) (file.page r)
        ((parentId, i) :: parentStack) t.length file = .ok () file'
      ∧ LevelRebalanced L file file' parentId (t ++ ([(l, es₁), (m, es₂), (r, es₃)] ++ z))
        (t ++ ([(l, cs₁), (m, cs₂)] ++ z)) ks' next others
      ∧ file'.totalPages = file.totalPages ∧ ks'.length + 1 = (a ++ x :: y :: b).length := by
  obtain ⟨file', x', cs₁, cs₂, hrun, hrep, hpages, ho', hes, hsizes'⟩ :=
    h.merge₃ L ho ha hle₁ hle₂ hle₃ htotal hspare i parentStack
  refine ⟨file', _, cs₁, cs₂, hrun,
    hrep.rebalanced L ho' ?_ (by simp) (by simp) hsizes (by simpa using hsizes'), hpages,
    by simp; omega⟩
  simpa using hes

/-- Two full leaves become three; the parent may get a separator too many. -/
theorem rebalanced_split₂ [Inhabited K]
    (h : LeafLevel file parentId (a ++ x :: b) (t ++ ([(l, es₁), (r, es₂)] ++ z)) next others)
    (ho : Ordered (a ++ x :: b) (t ++ ([(l, es₁), (r, es₂)] ++ z)))
    (ha : a.length = t.length) (htotal : es₁.length + es₂.length = 2 * L.maxKeysLeaf + 1)
    (hle₁ : es₁.length ≤ L.maxKeysLeaf + 1) (hle₂ : es₂.length ≤ L.maxKeysLeaf + 1)
    (hkeys : (a ++ x :: b).length ≤ L.maxKeysInternal)
    (hsizes : ∀ leaf ∈ t ++ z, minLeafSize L (t.length + z.length + 2) ≤ leaf.2.length ∧
      leaf.2.length ≤ L.maxKeysLeaf) (i : Nat) (parentStack : ParentStack) :
    ∃ file' ks' f cs₁ cs₂ cs₃,
      BStarPlusTree.splitLeaves2to3 L (file.page l) (file.page r) ((parentId, i) :: parentStack)
          t.length file
        = (if L.maxKeysInternal < ks'.length then
            handleInternalOverflow L parentStack (file'.page parentId) file'
          else .ok () file')
      ∧ LevelRebalanced L file file' parentId (t ++ ([(l, es₁), (r, es₂)] ++ z))
        (t ++ ([(l, cs₁), (r, cs₂), (f, cs₃)] ++ z)) ks' next others
      ∧ file'.totalPages ≤ file.totalPages + 1 ∧ ks'.length = (a ++ x :: b).length + 1 := by
  obtain ⟨file', f, x', y', cs₁, cs₂, cs₃, hrun, hrep, ho', hpages, hes, hsizes'⟩ :=
    h.split₂ L ho ha htotal hle₁ hle₂ hkeys i parentStack
  have hkeys' : (a ++ x' :: y' :: b).length = (a ++ x :: b).length + 1 := by simp; omega
  refine ⟨file', _, f, cs₁, cs₂, cs₃, by rw [hkeys']; exact hrun,
    hrep.rebalanced L ho' ?_ (by simp) (by simp) hsizes (by simpa using hsizes'), hpages, hkeys'⟩
  simpa using hes

end LeafLevel

/-- Two leaves that are separated and large enough are a valid level. -/
theorem levelValid_two {l r : Int} {cs₁ cs₂ : List (K × V)} {x : K}
    (hsep : Separated [x] [cs₁, cs₂]) (hs : SortedKeys (cs₁ ++ cs₂))
    (h₁ : L.maxKeysLeaf / 2 ≤ cs₁.length ∧ cs₁.length ≤ L.maxKeysLeaf)
    (h₂ : L.maxKeysLeaf / 2 ≤ cs₂.length ∧ cs₂.length ≤ L.maxKeysLeaf) :
    LevelValid L [x] [(l, cs₁), (r, cs₂)] := by
  have hmax := L.three_le_maxKeysLeaf
  have hphys := L.three_le_physKeysInternal
  refine ⟨⟨hsep, by simpa using hs, ?_⟩, le_rfl, ?_, ?_⟩
  · simp only [List.forall_mem_cons]
    exact ⟨List.ne_nil_of_length_pos (by omega), List.ne_nil_of_length_pos (by omega), by simp⟩
  · rw [Instantiation.maxKeysInternal, List.length_singleton]
    omega
  · simp only [List.forall_mem_cons, minLeafSize, List.length_cons, List.length_nil]
    exact ⟨h₁, h₂, by simp⟩

theorem separated_of_startsWith {cs₁ cs₂ : List (K × V)} {x : K}
    (hs : SortedKeys (cs₁ ++ cs₂)) (hx : StartsWith cs₂ x) : Separated [x] [cs₁, cs₂] := by
  have hfirst : FirstKeys [x] [cs₁, cs₂] := ⟨hx, trivial⟩
  have hsep : Separated ([x] ++ []) ([cs₁, cs₂] ++ []) :=
    hfirst.separated (by simpa using hs) (show Separated [] [[]] from trivial) (by simp)
  exact hsep

end Sizes

end QuasarDB.Storage
