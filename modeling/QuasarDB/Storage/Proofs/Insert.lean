import QuasarDB.Storage.Proofs.Rebalance

set_option autoImplicit false

/-! # Inserting a key

An insert of a new key into a valid tree of at most one internal level succeeds and leaves such a
tree, with the new entry and the old ones, unless it has to split the root (`splitsRoot`). -/

namespace QuasarDB.Storage

open NodePage BStarPlusTree

variable {K V : Type} [LinearOrder K] (L : Instantiation K V)

/-- What a successful insert does: the file holds a valid tree with one more entry, and has grown by
    no more pages than the tree has. -/
structure Inserted (file file' : TreeFile K V) (shape : Shape K V) (k : K) (v : V)
    (shape' : Shape K V) : Prop where
  represents : Represents file' shape'
  valid : shape'.Valid L
  entries : ∀ e, e ∈ shape'.entries ↔ e = (k, v) ∨ e ∈ shape.entries
  pages : file'.totalPages + shape.ids.length ≤ file.totalPages + shape'.ids.length

variable [Inhabited K]

section Empty

variable {file : TreeFile K V} {shape : Shape K V}

/-- The first insert creates a root leaf. -/
theorem insert_empty (h : Represents file .empty) (k : K) (v : V) :
    ∃ file' id, BStarPlusTree.insert L k v file = .ok () file'
      ∧ Inserted L file file' .empty k v (.leaf id (insertEntry [] k v)) := by
  obtain ⟨f, stale, hnew, hfresh⟩ := run_newNode L true h.owned
  have hleaf := isLeaf_initNode L f stale
  let file₁ : TreeFile K V := { (file.reserve f).write f (initNode L true f stale)
    with rootId := f, firstLeafId := f }
  have hcreate : createRoot L file = .ok (initNode L true f stale) file₁ := by
    simp only [createRoot]
    rw [Prog.bind_ok hnew, hleaf.nodeId]
    rfl
  have hpage : file₁.page f = initNode L true f stale := by simp [file₁]
  have h₁ : Represents file₁ (.leaf f []) :=
    ⟨⟨rfl, rfl, by rw [hpage]; exact hleaf⟩,
      (h.owned.writeFresh hfresh hleaf.deleted).withMetadata f f⟩
  have hphys := L.four_le_physSizeLeaf
  have hmax := L.three_le_maxKeysLeaf
  obtain ⟨leaf, hins, hleaf'⟩ := hleaf.insertInLeaf L SortedKeys.nil (by simp; omega) k v
  have hover : leaf.overflow L = false := by
    rw [hleaf'.overflow_eq, length_insertEntry]
    simp
    omega
  refine ⟨file₁.write f leaf, f, ?_, h₁.writeRootLeaf hleaf', ⟨?_, ?_, ?_⟩,
    ?_, ?_⟩
  · rw [BStarPlusTree.insert, Prog.bind_ok (run_rootId file), if_pos h.onDisk.1,
      Prog.bind_ok hcreate, insertBelowRoot, Prog.bind_ok h₁.findLeaf_leaf]
    simp only [hpage]
    rw [Prog.bind_ok (hins file₁), hover]
    simp
  · simp [insertEntry]
  · exact SortedKeys.nil.insertEntry v (by simp)
  · rw [length_insertEntry]
    simp
    omega
  · intro e
    simp [Shape.entries, mem_insertEntry]
  · have := (reserve_totalPages file f).2
    simpa [Shape.ids, file₁] using this

end Empty

section Leaf

variable {file : TreeFile K V} {id : Int} {es : List (K × V)} {k : K}

/-- An insert into a tree with a root puts the entry into the leaf `findLeaf` returns. -/
theorem run_insert {leafId : Int} {stack : ParentStack} {next : Int} {es' : List (K × V)} (k : K) (v : V)
    (hroot : file.rootId ≠ -1)
    (hfind : findLeaf k file = .ok (some (file.page leafId), stack) file)
    (hleaf : (file.page leafId).IsLeaf leafId es' next) (hs : SortedKeys es')
    (hlen : es'.length ≤ L.maxKeysLeaf) :
    ∃ leaf, leaf.IsLeaf leafId (insertEntry es' k v) next
      ∧ BStarPlusTree.insert L k v file
        = (if L.maxKeysLeaf < es'.length + 1 then
            handleLeafOverflow L leaf stack (file.write leafId leaf)
          else .ok () (file.write leafId leaf)) := by
  obtain ⟨leaf, hins, hleaf'⟩ :=
    hleaf.insertInLeaf L hs (by rw [L.physSizeLeaf_eq]; omega) k v
  refine ⟨leaf, hleaf', ?_⟩
  rw [BStarPlusTree.insert, Prog.bind_ok (run_rootId file), if_neg hroot, insertBelowRoot,
    Prog.bind_ok hfind]
  simp only
  rw [Prog.bind_ok (hins file), hleaf'.overflow_eq, length_insertEntry]
  by_cases hover : L.maxKeysLeaf < es'.length + 1
  · simp [hover]
  · simp [hover]

theorem insert_leaf (h : Represents file (.leaf id es)) (hv : (Shape.leaf id es).Valid L)
    (hk : ∀ e ∈ es, e.1 ≠ k) (hlen : es.length < L.maxKeysLeaf) (v : V) :
    ∃ file', BStarPlusTree.insert L k v file = .ok () file'
      ∧ Inserted L file file' (.leaf id es) k v (.leaf id (insertEntry es k v)) := by
  obtain ⟨leaf, hleaf, hrun⟩ := run_insert L k v h.leaf_id_ne h.findLeaf_leaf h.onDisk.2.2 hv.2.1 hv.2.2
  rw [if_neg (by omega)] at hrun
  refine ⟨_, hrun, h.writeRootLeaf hleaf, ⟨?_, hv.2.1.insertEntry v hk, ?_⟩, ?_, le_rfl⟩
  · simp [insertEntry]
  · rw [length_insertEntry]; omega
  · intro e
    simp [Shape.entries, mem_insertEntry]

theorem insert_fullLeaf (h : Represents file (.leaf id es)) (hv : (Shape.leaf id es).Valid L)
    (hk : ∀ e ∈ es, e.1 ≠ k) (hlen : es.length = L.maxKeysLeaf) (v : V) :
    ∃ file' newRoot right x cs₁ cs₂, BStarPlusTree.insert L k v file = .ok () file'
      ∧ Inserted L file file' (.leaf id es) k v (.level newRoot [x] [(id, cs₁), (right, cs₂)])
      ∧ cs₁ ++ cs₂ = insertEntry es k v ∧ cs₁.length = (L.maxKeysLeaf + 1) / 2 := by
  obtain ⟨leaf, hleaf, hrun⟩ := run_insert L k v h.leaf_id_ne h.findLeaf_leaf h.onDisk.2.2 hv.2.1 hv.2.2
  rw [if_pos (by omega)] at hrun
  have h₁ := h.writeRootLeaf hleaf
  have hmax := L.three_le_maxKeysLeaf
  have hlen' : (insertEntry es k v).length = L.maxKeysLeaf + 1 := by rw [length_insertEntry, hlen]
  obtain ⟨file', newRoot, right, x, cs₁, cs₂, hsplit, hrep, hpages, hes, hsize, hx⟩ :=
    h₁.splitLeaf1to2 L (by omega) (by omega)
  rw [TreeFile.write_page_self] at hsplit
  have hsum : cs₁.length + cs₂.length = L.maxKeysLeaf + 1 := by
    rw [← List.length_append, hes, hlen']
  refine ⟨file', newRoot, right, x, cs₁, cs₂, ?_, ⟨hrep, ?_, ?_, ?_⟩, hes, by rw [hsize, hlen']⟩
  · rw [hrun]
    have hroot : leaf.nodeId = (file.write id leaf).rootId := by
      rw [hleaf.nodeId]; exact h.onDisk.1.symm
    rw [handleLeafOverflow, Prog.bind_ok (run_rootId _), if_pos hroot]
    exact hsplit
  · have hs : SortedKeys (cs₁ ++ cs₂) := by
      rw [hes]
      exact hv.2.1.insertEntry v hk
    exact levelValid_two L (separated_of_startsWith hs hx) hs (by omega) (by omega)
  · intro e
    simp only [Shape.entries, leafEntries_cons, leafEntries_nil, List.append_nil, hes,
      mem_insertEntry]
  · simp only [Shape.ids, TreeFile.write_totalPages] at hpages ⊢
    simp only [List.length_cons, List.length_map, List.length_nil]
    omega

end Leaf

/-! ## A leaf that is too large -/

section Level

variable {file : TreeFile K V} {parentId id l r next : Int} {ks : List K} {es es₁ es₂ : List (K × V)}
  {t z : List (LeafRecord K V)} {others : List Int} {parentStack : ParentStack}

theorem handleLeafOverflow_left
    (h : LeafLevel file parentId ks (t ++ (l, es₁) :: (id, es) :: z) next others)
    (hroom : es₁.length < L.maxKeysLeaf) {nodes : NodePage K V × NodePage K V × NodePage K V}
    {file' : TreeFile K V}
    (hrun : redistributeLeaves2to2 L (file.page l) (file.page id) (file.page parentId) t.length file
      = .ok nodes file') :
    handleLeafOverflow L (file.page id) ((parentId, t.length + 1) :: parentStack) file = .ok () file' := by
  have h' : LeafLevel file parentId ks ((t ++ [(l, es₁)]) ++ (id, es) :: z) next others := by
    simpa using h
  have hleft := h'.openLeft
  simp only [List.length_append, List.length_singleton, List.getLast?_concat, Option.map_some,
    Nat.add_sub_cancel] at hleft
  rw [handleLeafOverflow, Prog.bind_ok (run_rootId _), if_neg (h'.leaf_ne_root),
    Prog.bind_ok (run_top _ _ _)]
  simp only [Nat.add_sub_cancel]
  rw [Prog.bind_ok (h.openParent rfl le_rfl), Prog.bind_ok hleft]
  simp [Option.filter, h.isLeaf.canTake_eq, hroom, Prog.run_bind, hrun]

theorem handleLeafOverflow_right
    (h : LeafLevel file parentId ks (t ++ (id, es) :: (r, es₂) :: z) next others)
    (hfull : ∀ leaf ∈ t.getLast?, L.maxKeysLeaf ≤ leaf.2.length)
    (hroom : es₂.length < L.maxKeysLeaf) {nodes : NodePage K V × NodePage K V × NodePage K V}
    {file' : TreeFile K V}
    (hrun : redistributeLeaves2to2 L (file.page id) (file.page r) (file.page parentId) t.length file
      = .ok nodes file') :
    handleLeafOverflow L (file.page id) ((parentId, t.length) :: parentStack) file = .ok () file' := by
  have hno := filter_canTake_eq_none L h.run
    (fun leaf hleaf => List.mem_append_left _ (List.mem_of_getLast? hleaf)) hfull
  obtain ⟨next', hr⟩ := h.run.isLeaf (show (r, es₂) ∈ _ by simp)
  have hright := h.openRight
  simp only [List.head?_cons, Option.map_some] at hright
  rw [handleLeafOverflow, Prog.bind_ok (run_rootId _), if_neg (h.leaf_ne_root),
    Prog.bind_ok (run_top _ _ _)]
  simp only
  rw [Prog.bind_ok (h.openParent rfl le_rfl), Prog.bind_ok h.openLeft, hno]
  simp only
  rw [Prog.bind_ok hright]
  simp [Option.filter, hr.canTake_eq, hroom, Prog.run_bind, hrun]

theorem handleLeafOverflow_splitLeft
    (h : LeafLevel file parentId ks (t ++ (l, es₁) :: (id, es) :: z) next others)
    (hfull : L.maxKeysLeaf ≤ es₁.length)
    (hfull' : ∀ leaf ∈ z.head?, L.maxKeysLeaf ≤ leaf.2.length) :
    handleLeafOverflow L (file.page id) ((parentId, t.length + 1) :: parentStack) file
      = splitLeaves2to3 L (file.page l) (file.page id) ((parentId, t.length + 1) :: parentStack) t.length
          file := by
  have h' : LeafLevel file parentId ks ((t ++ [(l, es₁)]) ++ (id, es) :: z) next others := by
    simpa using h
  have hleft := h'.openLeft
  have hright := h'.openRight
  have hno := filter_canTake_eq_none L h.run
    (fun leaf hleaf => by
      have := List.mem_of_mem_head? hleaf
      simp [this]) hfull'
  simp only [List.length_append, List.length_singleton, List.getLast?_concat, Option.map_some,
    Nat.add_sub_cancel] at hleft hright
  rw [handleLeafOverflow, Prog.bind_ok (run_rootId _), if_neg (h'.leaf_ne_root),
    Prog.bind_ok (run_top _ _ _)]
  simp only [Nat.add_sub_cancel]
  rw [Prog.bind_ok (h.openParent rfl le_rfl), Prog.bind_ok hleft]
  simp only [Option.filter, h.isLeaf.canTake_eq, not_lt.2 hfull, decide_false, Bool.false_eq_true,
    if_false]
  rw [Prog.bind_ok hright]
  simp only [Option.filter] at hno
  rw [hno]

theorem handleLeafOverflow_splitRight
    (h : LeafLevel file parentId ks ((id, es) :: (r, es₂) :: z) next others)
    (hfull : L.maxKeysLeaf ≤ es₂.length) :
    handleLeafOverflow L (file.page id) ((parentId, 0) :: parentStack) file
      = splitLeaves2to3 L (file.page id) (file.page r) ((parentId, 0) :: parentStack) 0 file := by
  have h' : LeafLevel file parentId ks ([] ++ (id, es) :: (r, es₂) :: z) next others := h
  have hleft := h'.openLeft
  have hright := h'.openRight
  obtain ⟨next', hr⟩ := h.run.isLeaf (show (r, es₂) ∈ _ by simp)
  simp only [List.length_nil, List.getLast?_nil, List.head?_cons, Option.map_none,
    Option.map_some] at hleft hright
  rw [handleLeafOverflow, Prog.bind_ok (run_rootId _), if_neg (h'.leaf_ne_root),
    Prog.bind_ok (run_top _ _ _)]
  simp only
  rw [Prog.bind_ok (h.openParent rfl le_rfl), Prog.bind_ok hleft]
  simp only [Option.filter]
  rw [Prog.bind_ok hright]
  simp only [hr.canTake_eq, not_lt.2 hfull, decide_false, Bool.false_eq_true, if_false]

/-- The neighbours of a leaf have no room. -/
def NeighboursFull (t z : List (LeafRecord K V)) : Prop :=
  (∀ leaf ∈ t.getLast?, L.maxKeysLeaf ≤ leaf.2.length) ∧
    ∀ leaf ∈ z.head?, L.maxKeysLeaf ≤ leaf.2.length

/-- The overflow of the leaf `id` in the place `place` ends with the level rebalanced, with `grown` separators
    more in the parent and at most as many pages more as there are leaves more. A parent with one separator too
    many is handed on. -/
def RebalancesOverflow (file : TreeFile K V) (parentId id : Int) (place : Nat) (parentStack : ParentStack)
    (ks : List K) (leaves : List (LeafRecord K V)) (next : Int) (others : List Int) (grown : Nat) : Prop :=
  ∃ file' ks' leaves',
    handleLeafOverflow L (file.page id) ((parentId, place) :: parentStack) file
      = (if L.maxKeysInternal < ks'.length then
          handleInternalOverflow L parentStack (file'.page parentId) file'
        else .ok () file')
    ∧ LevelRebalanced L file file' parentId leaves leaves' ks' next others
    ∧ file'.totalPages + leaves.length ≤ file.totalPages + leaves'.length
    ∧ ks'.length = ks.length + grown

section Outcomes

variable {a b : List K} {x : K}

/-- The left neighbour takes entries. -/
theorem handleLeafOverflow_takesLeft
    (h : LeafLevel file parentId (a ++ x :: b) (t ++ (l, es₁) :: (id, es) :: z) next others)
    (ho : Ordered (a ++ x :: b) (t ++ (l, es₁) :: (id, es) :: z)) (ha : a.length = t.length)
    (hes : es.length = L.maxKeysLeaf + 1) (hroom : es₁.length < L.maxKeysLeaf)
    (hkeys : (a ++ x :: b).length ≤ L.maxKeysInternal)
    (hsizes : ∀ leaf ∈ t ++ (l, es₁) :: z, minLeafSize L (t.length + z.length + 2) ≤ leaf.2.length ∧
      leaf.2.length ≤ L.maxKeysLeaf) :
    RebalancesOverflow L file parentId id (t.length + 1) parentStack (a ++ x :: b)
      (t ++ (l, es₁) :: (id, es) :: z) next others 0 := by
  -- the neighbour has at least half the entries of a full leaf
  have hmin := half_le_minLeafSize L (t.length + z.length + 2)
  obtain ⟨hbound, -⟩ := L.minKeysLeaf_bounds
  have hl : minLeafSize L (t.length + z.length + 2) ≤ es₁.length := (hsizes (l, es₁) (by simp)).1
  obtain ⟨nodes, file', ks', cs₁, cs₂, hrun, hbalanced, hpages, hlen⟩ :=
    h.rebalanced_redistribute₂ L ho ha (by omega) (by omega)
      fun leaf hleaf => hsizes leaf (by simp at hleaf ⊢; tauto)
  refine ⟨file', ks', _, ?_, hbalanced, by simp [hpages], hlen⟩
  rw [hlen, if_neg (not_lt.2 hkeys)]
  exact handleLeafOverflow_left L h hroom hrun

/-- The left neighbour is full or not there, and the right one takes entries. -/
theorem handleLeafOverflow_takesRight
    (h : LeafLevel file parentId (a ++ x :: b) (t ++ (id, es) :: (r, es₂) :: z) next others)
    (ho : Ordered (a ++ x :: b) (t ++ (id, es) :: (r, es₂) :: z)) (ha : a.length = t.length)
    (hes : es.length = L.maxKeysLeaf + 1)
    (hfull : ∀ leaf ∈ t.getLast?, L.maxKeysLeaf ≤ leaf.2.length) (hroom : es₂.length < L.maxKeysLeaf)
    (hkeys : (a ++ x :: b).length ≤ L.maxKeysInternal)
    (hsizes : ∀ leaf ∈ t ++ (r, es₂) :: z, minLeafSize L (t.length + z.length + 2) ≤ leaf.2.length ∧
      leaf.2.length ≤ L.maxKeysLeaf) :
    RebalancesOverflow L file parentId id t.length parentStack (a ++ x :: b)
      (t ++ (id, es) :: (r, es₂) :: z) next others 0 := by
  have hmin := half_le_minLeafSize L (t.length + z.length + 2)
  obtain ⟨hbound, -⟩ := L.minKeysLeaf_bounds
  have hr : minLeafSize L (t.length + z.length + 2) ≤ es₂.length := (hsizes (r, es₂) (by simp)).1
  obtain ⟨nodes, file', ks', cs₁, cs₂, hrun, hbalanced, hpages, hlen⟩ :=
    h.rebalanced_redistribute₂ L ho ha (by omega) (by omega)
      fun leaf hleaf => hsizes leaf (by simp at hleaf ⊢; tauto)
  refine ⟨file', ks', _, ?_, hbalanced, by simp [hpages], hlen⟩
  rw [hlen, if_neg (not_lt.2 hkeys)]
  exact handleLeafOverflow_right L h hfull hroom hrun

/-- The first leaf and its right neighbour become three. -/
theorem handleLeafOverflow_splitsRight
    (h : LeafLevel file parentId (x :: b) ((id, es) :: (r, es₂) :: z) next others)
    (ho : Ordered (x :: b) ((id, es) :: (r, es₂) :: z)) (hes : es.length = L.maxKeysLeaf + 1)
    (hfull : es₂.length = L.maxKeysLeaf) (hkeys : (x :: b).length ≤ L.maxKeysInternal)
    (hsizes : ∀ leaf ∈ z, minLeafSize L (z.length + 2) ≤ leaf.2.length ∧ leaf.2.length ≤ L.maxKeysLeaf) :
    RebalancesOverflow L file parentId id 0 parentStack (x :: b) ((id, es) :: (r, es₂) :: z) next others 1 := by
  have hmax := L.three_le_maxKeysLeaf
  have h' : LeafLevel file parentId ([] ++ x :: b) ([] ++ (id, es) :: (r, es₂) :: z) next others := h
  obtain ⟨file', ks', f, cs₁, cs₂, cs₃, hrun, hbalanced, hpages, hlen⟩ :=
    h'.rebalanced_split₂ L ho rfl (by omega) (by omega) (by omega) hkeys
      (fun leaf hleaf => by simpa using hsizes leaf hleaf) 0 parentStack
  refine ⟨file', ks', _, ?_, hbalanced, by simp; omega, hlen⟩
  rw [handleLeafOverflow_splitRight L h hfull.ge]
  exact hrun

/-- The left neighbour and the leaf become three. -/
theorem handleLeafOverflow_splitsLeft
    (h : LeafLevel file parentId (a ++ x :: b) (t ++ (l, es₁) :: (id, es) :: z) next others)
    (ho : Ordered (a ++ x :: b) (t ++ (l, es₁) :: (id, es) :: z)) (ha : a.length = t.length)
    (hes : es.length = L.maxKeysLeaf + 1) (hfull : es₁.length = L.maxKeysLeaf)
    (hfull' : ∀ leaf ∈ z.head?, L.maxKeysLeaf ≤ leaf.2.length)
    (hkeys : (a ++ x :: b).length ≤ L.maxKeysInternal)
    (hsizes : ∀ leaf ∈ t ++ z, minLeafSize L (t.length + z.length + 2) ≤ leaf.2.length ∧
      leaf.2.length ≤ L.maxKeysLeaf) :
    RebalancesOverflow L file parentId id (t.length + 1) parentStack (a ++ x :: b)
      (t ++ (l, es₁) :: (id, es) :: z) next others 1 := by
  have hmax := L.three_le_maxKeysLeaf
  obtain ⟨file', ks', f, cs₁, cs₂, cs₃, hrun, hbalanced, hpages, hlen⟩ :=
    h.rebalanced_split₂ L ho ha (by omega) (by omega) (by omega) hkeys hsizes (t.length + 1) parentStack
  refine ⟨file', ks', _, ?_, hbalanced, by simp; omega, hlen⟩
  rw [handleLeafOverflow_splitLeft L h hfull.ge hfull']
  exact hrun

end Outcomes

/-- What an overflowing leaf leads to. The parent gets one separator more exactly when no neighbour of
    the leaf has room, and if that is one too many it is handed on. -/
theorem handleLeafOverflow_spec {a b : List K}
    (h : LeafLevel file parentId (a ++ b) (t ++ (id, es) :: z) next others)
    (ho : Ordered (a ++ b) (t ++ (id, es) :: z)) (ha : a.length = t.length)
    (hes : es.length = L.maxKeysLeaf + 1) (htwo : 2 ≤ (t ++ (id, es) :: z).length)
    (hkeys : (a ++ b).length ≤ L.maxKeysInternal)
    (hsizes : ∀ leaf ∈ t ++ z, minLeafSize L (t.length + z.length + 1) ≤ leaf.2.length ∧
      leaf.2.length ≤ L.maxKeysLeaf) :
    ∃ file' ks' leaves',
      handleLeafOverflow L (file.page id) ((parentId, t.length) :: parentStack) file
        = (if L.maxKeysInternal < ks'.length then
            handleInternalOverflow L parentStack (file'.page parentId) file'
          else .ok () file')
      ∧ LevelRebalanced L file file' parentId (t ++ (id, es) :: z) leaves' ks' next others
      ∧ file'.totalPages + (t ++ (id, es) :: z).length ≤ file.totalPages + leaves'.length
      ∧ (NeighboursFull L t z ∧ ks'.length = (a ++ b).length + 1
        ∨ ¬ NeighboursFull L t z ∧ ks'.length = (a ++ b).length) := by
  by_cases hleft : ∃ leaf ∈ t.getLast?, leaf.2.length < L.maxKeysLeaf
  · obtain ⟨⟨l, es₁⟩, hlast, hroom⟩ := hleft
    obtain ⟨t, rfl⟩ := List.getLast?_eq_some_iff.1 hlast
    obtain ⟨a, x, rfl, ha'⟩ := exists_concat_of_length (n := t.length) (by simpa using ha)
    have hcount : (t ++ [(l, es₁)]).length + z.length + 1 = t.length + z.length + 2 := by
      simp
      omega
    rw [hcount] at hsizes
    have hplace : (t ++ [(l, es₁)]).length = t.length + 1 := by simp
    rw [hplace]
    simp only [List.append_assoc, List.singleton_append] at h ho hkeys hsizes ⊢
    obtain ⟨file', ks', leaves', hrun, hbalanced, hpages, hlen⟩ :=
      handleLeafOverflow_takesLeft L h ho ha' hes hroom hkeys hsizes
    exact ⟨file', ks', leaves', hrun, hbalanced, hpages, .inr ⟨fun hfull =>
      absurd (hfull.1 (l, es₁) hlast) (not_le.2 hroom), hlen⟩⟩
  have hfull : ∀ leaf ∈ t.getLast?, L.maxKeysLeaf ≤ leaf.2.length := fun leaf hleaf =>
    not_lt.1 fun hlt => hleft ⟨leaf, hleaf, hlt⟩
  by_cases hright : ∃ leaf ∈ z.head?, leaf.2.length < L.maxKeysLeaf
  · obtain ⟨⟨r, es₂⟩, hhead, hroom⟩ := hright
    obtain ⟨z, rfl⟩ := List.head?_eq_some_iff.1 hhead
    rcases b with - | ⟨x, b⟩
    · have hlen := ho.length_leaves
      simp at hlen
      omega
    obtain ⟨file', ks', leaves', hrun, hbalanced, hpages, hlen⟩ :=
      handleLeafOverflow_takesRight L h ho ha hes hfull hroom hkeys hsizes
    exact ⟨file', ks', leaves', hrun, hbalanced, hpages, .inr ⟨fun hfull' =>
      absurd (hfull'.2 (r, es₂) hhead) (not_le.2 hroom), hlen⟩⟩
  have hfull' : ∀ leaf ∈ z.head?, L.maxKeysLeaf ≤ leaf.2.length := fun leaf hleaf =>
    not_lt.1 fun hlt => hright ⟨leaf, hleaf, hlt⟩
  rcases List.eq_nil_or_concat t with rfl | ⟨t, ⟨l, es₁⟩, rfl⟩
  · obtain rfl := List.eq_nil_of_length_eq_zero ha
    rcases z with - | ⟨⟨r, es₂⟩, z⟩
    · simp at htwo
    rcases b with - | ⟨x, b⟩
    · simpa using ho.length_leaves
    have hr : es₂.length = L.maxKeysLeaf :=
      le_antisymm (hsizes (r, es₂) (by simp)).2 (hfull' (r, es₂) (by simp))
    obtain ⟨file', ks', leaves', hrun, hbalanced, hpages, hlen⟩ :=
      handleLeafOverflow_splitsRight L h ho hes hr hkeys fun leaf hleaf => by
        simpa using hsizes leaf (by simp [hleaf])
    exact ⟨file', ks', leaves', hrun, hbalanced, hpages, .inl ⟨⟨hfull, hfull'⟩, hlen⟩⟩
  · rw [List.concat_eq_append] at h ho ha hsizes hfull ⊢
    obtain ⟨a, x, rfl, ha'⟩ := exists_concat_of_length (n := t.length) (by simpa using ha)
    have hcount : (t ++ [(l, es₁)]).length + z.length + 1 = t.length + z.length + 2 := by
      simp
      omega
    rw [hcount] at hsizes
    have hl : es₁.length = L.maxKeysLeaf :=
      le_antisymm (hsizes (l, es₁) (by simp)).2 (hfull (l, es₁) (by simp))
    have hother : ∀ leaf ∈ t ++ z, minLeafSize L (t.length + z.length + 2) ≤ leaf.2.length ∧
        leaf.2.length ≤ L.maxKeysLeaf :=
      fun leaf hleaf => hsizes leaf (by simp at hleaf ⊢; tauto)
    rw [List.length_append, List.length_singleton]
    simp only [List.append_assoc, List.singleton_append] at h ho hkeys ⊢
    obtain ⟨file', ks', leaves', hrun, hbalanced, hpages, hlen⟩ :=
      handleLeafOverflow_splitsLeft L h ho ha' hes hl hfull' hkeys hother
    exact ⟨file', ks', leaves', hrun, hbalanced, hpages, .inl ⟨⟨hfull, hfull'⟩, hlen⟩⟩

end Level

/-! ## The condition under which the root is split -/

/-- An insert of `key` would split the root: the root has as many keys as it can, and the leaf the
    key is routed to and its neighbours are full. -/
def SplitsRoot (file : TreeFile K V) (key : K) : Prop :=
  file.rootId ≠ -1 ∧ (file.page file.rootId).isLeaf = false ∧
    (file.page file.rootId).size = L.maxKeysInternal ∧
    ∀ i < (file.page file.rootId).childrenSize,
      (file.page file.rootId).childIdx key ≤ i + 1 → i ≤ (file.page file.rootId).childIdx key + 1 →
        (file.page ((file.page file.rootId).children i)).canTake L = false

section SplitsRoot

variable {file : TreeFile K V} {root id : Int} {ks a b : List K} {es : List (K × V)} {key : K}
  {t z leaves : List (LeafRecord K V)}

omit [LinearOrder K] [Inhabited K] in
theorem canTake_child (h : Represents file (.level root ks (t ++ (id, es) :: z))) :
    (file.page ((file.page root).children t.length)).canTake L = false
      ↔ L.maxKeysLeaf ≤ es.length := by
  have hchild := h.rootPage.child (i := t.length) (by simp)
  simp only [List.map_append, List.map_cons] at hchild
  rw [List.getElem_append_right (by simp)] at hchild
  simp only [List.length_map, Nat.sub_self, List.getElem_cons_zero] at hchild
  rw [hchild, h.isLeaf.canTake_eq, decide_eq_false_iff_not, not_lt]

omit [Inhabited K] in
theorem splitsRoot_iff (h : Represents file (.level root (a ++ b) (t ++ (id, es) :: z)))
    (ho : Ordered (a ++ b) (t ++ (id, es) :: z)) (ha : a.length = t.length)
    (hle : ∀ k ∈ a, k ≤ key) (hlt : ∀ k ∈ b, key < k) :
    SplitsRoot L file key ↔ (a ++ b).length = L.maxKeysInternal ∧ L.maxKeysLeaf ≤ es.length ∧
      NeighboursFull L t z := by
  have hp := h.rootPage
  have hidx : (file.page root).childIdx key = t.length := by
    rw [← ha]; exact hp.childIdx ho.sortedSeparators hle hlt
  have hcount : (file.page root).childrenSize = t.length + (z.length + 1) := by
    rw [hp.childrenSize_eq]; simp
  rw [SplitsRoot, h.onDisk.rootId, hidx, hcount, hp.size_eq]
  have hne : root ≠ -1 := by
    have := h.root_ne
    rwa [h.onDisk.rootId] at this
  simp only [hne, hp.isLeaf, ne_eq, not_false_eq_true, true_and]
  refine and_congr_right fun _ => ⟨fun hfull => ⟨?_, ?_, ?_⟩, ?_⟩
  · exact (canTake_child L h).1 (hfull t.length (by omega) (by omega) (by omega))
  · rintro ⟨l, es₁⟩ hlast
    obtain ⟨t, rfl⟩ := List.getLast?_eq_some_iff.1 hlast
    simp only [List.length_append, List.length_singleton] at hfull
    rw [List.append_assoc] at h
    exact (canTake_child L h).1 (hfull t.length (by omega) (by omega) (by omega))
  · rintro ⟨r, es₂⟩ hhead
    obtain ⟨z, rfl⟩ := List.head?_eq_some_iff.1 hhead
    rw [List.append_cons] at h
    have hright := canTake_child L h
    rw [List.length_append, List.length_singleton] at hright
    exact hright.1 (hfull (t.length + 1) (by simp) (by omega) (by omega))
  · rintro ⟨hself, hpre, hpost⟩ i hi h1 h2
    rcases lt_trichotomy i t.length with hlt' | rfl | hgt
    · rcases List.eq_nil_or_concat t with rfl | ⟨t, ⟨l, es₁⟩, rfl⟩
      · simp at hlt'
      rw [List.concat_eq_append] at h hpre hlt' h1
      rw [List.append_assoc] at h
      rw [List.length_append, List.length_singleton] at hlt' h1
      obtain rfl : i = t.length := by omega
      exact (canTake_child L h).2 (hpre (l, es₁) (by simp))
    · exact (canTake_child L h).2 hself
    · obtain rfl : i = t.length + 1 := by omega
      rcases z with - | ⟨⟨r, es₂⟩, z⟩
      · simp at hi
      rw [List.append_cons] at h
      have hright := canTake_child L h
      rw [List.length_append, List.length_singleton] at hright
      exact hright.2 (hpost (r, es₂) (by simp))

end SplitsRoot

/-! ## An insert into a valid tree -/

section Insert

variable {file : TreeFile K V} {root : Int} {ks : List K} {leaves : List (LeafRecord K V)}
  {shape : Shape K V} {k : K}

/-- An insert below a root writes the entry into its leaf first. -/
theorem insert_write {a b : List K} {t z : List (LeafRecord K V)} {id : Int}
    {es : List (K × V)} (h : Represents file (.level root (a ++ b) (t ++ (id, es) :: z)))
    (ho : Ordered (a ++ b) (t ++ (id, es) :: z)) (ha : a.length = t.length)
    (hle : ∀ k' ∈ a, k' ≤ k) (hlt : ∀ k' ∈ b, k < k') (hmax : es.length ≤ L.maxKeysLeaf)
    (hk : ∀ e ∈ es, e.1 ≠ k) (v : V) :
    ∃ file₁, Represents file₁ (.level root (a ++ b) (t ++ (id, insertEntry es k v) :: z))
      ∧ Ordered (a ++ b) (t ++ (id, insertEntry es k v) :: z)
      ∧ file₁.totalPages = file.totalPages
      ∧ BStarPlusTree.insert L k v file
        = (if L.maxKeysLeaf < es.length + 1 then
            handleLeafOverflow L (file₁.page id) [(root, t.length)] file₁
          else .ok () file₁) := by
  have hs := ho.sorted_leaf
  obtain ⟨leaf, hleaf, hrun⟩ := run_insert L k v h.root_ne (h.findLeaf_level ho ha hle hlt) h.isLeaf
    hs hmax
  refine ⟨file.write id leaf, h.writeLeaf hleaf, ?_, rfl, ?_⟩
  · refine ho.setChunk ha hle hlt ?_ (hs.insertEntry v hk) (by simp [insertEntry])
    intro e he
    rcases mem_insertEntry.1 he with rfl | he'
    · exact Or.inl rfl
    · exact Or.inr ⟨e, he', rfl⟩
  · rw [TreeFile.write_page_self]
    exact hrun

omit [Inhabited K] in
theorem mem_leafEntries_insertEntry {t z : List (LeafRecord K V)} {id : Int}
    {es : List (K × V)} {v : V} (e : K × V) :
    e ∈ leafEntries (t ++ (id, insertEntry es k v) :: z) ↔
      e = (k, v) ∨ e ∈ leafEntries (t ++ (id, es) :: z) := by
  simp only [leafEntries_append, leafEntries_cons, List.mem_append, mem_insertEntry]
  tauto

/-- An insert below a root, up to the split of the root. -/
theorem insert_level (h : Represents file (.level root ks leaves)) (hv : LevelValid L ks leaves)
    (hk : ∀ e ∈ leafEntries leaves, e.1 ≠ k) (v : V) :
    ∃ file' leaves₁ ks' leaves',
      BStarPlusTree.insert L k v file
        = (if L.maxKeysInternal < ks'.length then
            handleInternalOverflow L [] (file'.page root) file'
          else .ok () file')
      ∧ Rebalanced L file' root leaves₁ leaves' ks'
      ∧ file'.totalPages + leaves.length ≤ file.totalPages + leaves'.length
      ∧ (∀ e, e ∈ leafEntries leaves₁ ↔ e = (k, v) ∨ e ∈ leafEntries leaves)
      ∧ (SplitsRoot L file k ↔ L.maxKeysInternal < ks'.length)
      ∧ ks'.length ≤ L.maxKeysInternal + 1 := by
  obtain ⟨a, b, t, ⟨id, es⟩, z, rfl, rfl, ha, hle, hlt⟩ := hv.ordered.route k
  have hsplit := splitsRoot_iff L h hv.ordered ha hle hlt
  have hmax : es.length ≤ L.maxKeysLeaf := (hv.sizes (id, es) (by simp)).2
  have hkeys := hv.keys
  obtain ⟨file₁, h₁, ho₁, htotal, hrun⟩ :=
    insert_write L h hv.ordered ha hle hlt hmax (fun e he => hk e (by simp [he])) v
  by_cases hover : L.maxKeysLeaf < es.length + 1
  · have hcount : (t ++ (id, es) :: z).length = t.length + z.length + 1 := by simp; omega
    rw [if_pos hover] at hrun
    obtain ⟨file', ks', leaves', hhandle, hbalanced, hpages, hfull⟩ :=
      handleLeafOverflow_spec L h₁.level ho₁ ha (by rw [length_insertEntry]; omega)
        (by simpa using hv.two) hkeys
        (fun leaf hleaf => hcount ▸ hv.sizes leaf (by simp at hleaf ⊢; tauto))
    refine ⟨file', _, ks', leaves', hrun.trans hhandle, hbalanced.rebalanced L h₁, by simp at hpages ⊢; omega,
      mem_leafEntries_insertEntry, ?_, ?_⟩
    · rw [hsplit]
      constructor
      · rintro ⟨hroot, -, hneighbours⟩
        rcases hfull with ⟨-, hlen⟩ | ⟨hroom, -⟩
        · omega
        · exact absurd hneighbours hroom
      · intro hlt'
        rcases hfull with ⟨hneighbours, hlen⟩ | ⟨-, hlen⟩
        · exact ⟨by omega, by omega, hneighbours⟩
        · omega
    · rcases hfull with ⟨-, hlen⟩ | ⟨-, hlen⟩ <;> omega
  · rw [if_neg hover] at hrun
    refine ⟨file₁, _, _, _, ?_, ⟨h₁, ho₁, rfl, by simpa using hv.two, ?_⟩, by simp [htotal],
      mem_leafEntries_insertEntry, ?_, Nat.le_succ_of_le hkeys⟩
    · rw [if_neg (not_lt.2 hkeys)]
      exact hrun
    · exact sizes_writeLeaf L hv.sizes (by rw [length_insertEntry]; omega)
        (by rw [length_insertEntry]; omega)
    · rw [hsplit]
      constructor
      · rintro ⟨-, hfull, -⟩
        omega
      · intro hlt'
        exact absurd hlt' (not_lt.2 hkeys)

/-- An insert of a new key into a valid tree, if it does not split the root. -/
theorem insert_spec (h : Represents file shape) (hv : shape.Valid L)
    (hk : ∀ e ∈ shape.entries, e.1 ≠ k) (hroot : ¬ SplitsRoot L file k) (v : V) :
    ∃ file' shape', BStarPlusTree.insert L k v file = .ok () file'
      ∧ Inserted L file file' shape k v shape' := by
  cases shape with
  | empty =>
      obtain ⟨file', id, hrun, hins⟩ := insert_empty L h k v
      exact ⟨file', _, hrun, hins⟩
  | leaf id es =>
      rcases hv.2.2.lt_or_eq with hlt | heq
      · obtain ⟨file', hrun, hins⟩ := insert_leaf L h hv hk hlt v
        exact ⟨file', _, hrun, hins⟩
      · obtain ⟨file', newRoot, right, x, cs₁, cs₂, hrun, hins, -, -⟩ :=
          insert_fullLeaf L h hv hk heq v
        exact ⟨file', _, hrun, hins⟩
  | level root ks leaves =>
      obtain ⟨file', leaves₁, ks', leaves', hrun, hbalanced, hpages, hentries, hsplit, -⟩ :=
        insert_level L h hv hk v
      have hkeys : ¬ L.maxKeysInternal < ks'.length := fun hlt => hroot (hsplit.2 hlt)
      rw [if_neg hkeys] at hrun
      refine ⟨file', .level root ks' leaves', hrun, hbalanced.represents,
        ⟨hbalanced.ordered, hbalanced.two, not_lt.1 hkeys, hbalanced.sizes⟩, ?_, ?_⟩
      · intro e
        have hmem := hentries e
        rw [← hbalanced.entries] at hmem
        exact hmem
      · simp only [Shape.ids, List.length_cons, List.length_map]
        omega

end Insert

end QuasarDB.Storage
