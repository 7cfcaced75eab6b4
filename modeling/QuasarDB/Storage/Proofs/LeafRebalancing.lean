import QuasarDB.Storage.Proofs.Insert
import QuasarDB.Storage.Proofs.Underflow

set_option autoImplicit false

/-! # Leaves that are too large or too small, below any node

`handleLeafOverflow` and `handleLeafUnderflow` below an internal node at any height. `LeafLevel` is what
the code may rely on: the node has its leaves as children, the leaves are chained in that order, and
every page of the file belongs to them, to the rest of the tree (`others`) or is deleted. Both end in
`LevelRebalanced`: the same entries in the same order, in leaves of allowed sizes, with separators that
route every key to its leaf. -/

namespace QuasarDB.Storage

open NodePage BStarPlusTree

variable {K V : Type} [LinearOrder K] (L : Instantiation K V)

section Level

variable {file : TreeFile K V} {parentId id next : Int} {ks : List K} {es : List (K × V)}
  {t z : List (LeafRecord K V)} {others : List Int}

/-- A leaf has one entry too many. The other leaves have at least the minimal size, or half of a full
    leaf if there are two, and the node has room for a separator: the leaves are rebalanced, and the
    node gets one separator more at most. -/
theorem handleLeafOverflow_rebalances [Inhabited K] (parentStack : ParentStack)
    (h : LeafLevel file parentId ks (t ++ (id, es) :: z) next others)
    (ho : Ordered ks (t ++ (id, es) :: z)) (htwo : 2 ≤ (t ++ (id, es) :: z).length)
    (hkeys : ks.length < L.maxKeysInternal) (hes : es.length = L.maxKeysLeaf + 1)
    (hsizes : ∀ leaf ∈ t ++ z, minLeafSize L (t ++ (id, es) :: z).length ≤ leaf.2.length ∧
      leaf.2.length ≤ L.maxKeysLeaf) :
    ∃ file' ks' leaves',
      handleLeafOverflow L (file.page id) ((parentId, t.length) :: parentStack) file = .ok () file'
      ∧ LevelRebalanced L file file' parentId (t ++ (id, es) :: z) leaves' ks' next others
      ∧ ks.length ≤ ks'.length ∧ ks'.length ≤ ks.length + 1 := by
  have hlen := ho.length_leaves
  rw [List.length_append, List.length_cons] at hlen hsizes
  obtain ⟨a, b, rfl, ha, -⟩ := exists_split ks (n := t.length) (by omega)
  obtain ⟨file', ks', leaves', hrun, hbalanced, -, hcount⟩ :=
    handleLeafOverflow_spec L h ho ha hes htwo hkeys.le hsizes
  have hle : (a ++ b).length ≤ ks'.length ∧ ks'.length ≤ (a ++ b).length + 1 := by
    rcases hcount with ⟨-, hlen'⟩ | ⟨-, hlen'⟩ <;> omega
  -- a separator more still fits
  rw [if_neg (by omega)] at hrun
  exact ⟨file', ks', leaves', hrun, hbalanced, hle⟩

/-- A leaf has one entry too few, below a node with three leaves or more that is the root or has a key
    to spare: the leaves are rebalanced, and if one is given up its page is the one that is marked
    deleted. -/
theorem handleLeafUnderflow_rebalances (parentStack : ParentStack)
    (h : LeafLevel file parentId ks (t ++ (id, es) :: z) next others)
    (ho : Ordered ks (t ++ (id, es) :: z)) (hthree : 3 ≤ (t ++ (id, es) :: z).length)
    (hspare : file.rootId = parentId ∨ L.minKeysInternal < ks.length)
    (hes : es.length + 1 = L.minKeysLeaf)
    (hsizes : ∀ leaf ∈ t ++ z, L.minKeysLeaf ≤ leaf.2.length ∧ leaf.2.length ≤ L.maxKeysLeaf) :
    ∃ file' ks' leaves',
      handleLeafUnderflow L (file.page id) ((parentId, t.length) :: parentStack) file = .ok () file'
      ∧ LevelRebalanced L file file' parentId (t ++ (id, es) :: z) leaves' ks' next others
      ∧ leaves'.map Prod.fst ⊆ (t ++ (id, es) :: z).map Prod.fst
      ∧ (t ++ (id, es) :: z).length ≤ leaves'.length + 1
      ∧ ∀ i, (file'.page i).deleted = true ↔
        (file.page i).deleted = true ∨
          i ∈ (t ++ (id, es) :: z).map Prod.fst ∧ i ∉ leaves'.map Prod.fst := by
  have hlen := ho.length_leaves
  rw [List.length_append, List.length_cons] at hlen hthree
  obtain ⟨a, b, rfl, ha, -⟩ := exists_split ks (n := t.length) (by omega)
  obtain ⟨file', ks', leaves', hrun, hrefilled, -⟩ :=
    handleLeafUnderflow_many L h ho ha hspare (by omega) hes hsizes
  exact ⟨file', ks', leaves', hrun, hrefilled.toLevelRebalanced, hrefilled.ids, hrefilled.count,
    hrefilled.deleted_iff L h⟩

end Level

/-! ## A small tree -/

/-- Nodes whose leaves have two or three entries. -/
def threeEntryLeaves : Instantiation Nat Nat where
  keySize := 4
  valueSize := 1000
  keySize_pos := Nat.succ_pos 3
  valueSize_pos := Nat.succ_pos 999
  fourEntries := by decide
  indeterminate :=
    { header := "", nodeId := 0, isLeaf := false, keysSize := 0, deleted := false, nextLeaf := 0,
      keys := fun _ => 0, children := fun _ => 0, values := fun _ => 0 }
  overlay := id

/-- A leaf in use with the keys `ks`, each its own value. -/
def smallLeaf (id : Int) (ks : List Nat) (next : Int) : NodePage Nat Nat :=
  { header := nodeHeader, nodeId := id, isLeaf := true, keysSize := ks.length, deleted := false,
    nextLeaf := next, keys := fun i => ks.getD i 0, children := fun _ => 0,
    values := fun i => ks.getD i 0 }

/-- A root on page 1 with its leaves on the pages from 2 on. -/
def smallTree (ks : List Nat) (leaves : List (List Nat)) : TreeFile Nat Nat where
  rootId := 1
  firstLeafId := 2
  totalPages := leaves.length + 2
  page i :=
    if i = 1 then
      { header := nodeHeader, nodeId := 1, isLeaf := false, keysSize := ks.length, deleted := false,
        nextLeaf := 0, keys := fun j => ks.getD j 0, children := fun j => j + 2, values := fun _ => 0 }
    else
      smallLeaf i (leaves.getD (i - 2).toNat [])
        (if (i - 2).toNat + 1 < leaves.length then i + 1 else -1)

theorem handleLeafOverflow_rebalances_two :
    ∃ file' ks' leaves',
      handleLeafOverflow threeEntryLeaves ((smallTree [3] [[1, 2], [3, 4, 5, 6]]).page 3) [(1, 1)]
          (smallTree [3] [[1, 2], [3, 4, 5, 6]]) = .ok () file'
      ∧ LevelRebalanced threeEntryLeaves (smallTree [3] [[1, 2], [3, 4, 5, 6]]) file' 1
          ([(2, [(1, 1), (2, 2)])] ++ (3, [(3, 3), (4, 4), (5, 5), (6, 6)]) :: []) leaves' ks' (-1) []
      ∧ 1 ≤ ks'.length ∧ ks'.length ≤ 2 := by
  have h : LeafLevel (smallTree [3] [[1, 2], [3, 4, 5, 6]]) 1 [3]
      ([(2, [(1, 1), (2, 2)])] ++ (3, [(3, 3), (4, 4), (5, 5), (6, 6)]) :: []) (-1) [] := by
    refine ⟨⟨rfl, rfl, rfl, rfl, rfl, rfl, rfl⟩, ⟨⟨rfl, rfl, rfl, rfl, rfl, rfl, rfl⟩,
      ⟨rfl, rfl, rfl, rfl, rfl, rfl, rfl⟩, trivial⟩, ⟨by decide, by decide, by decide, by decide, ?_⟩,
      .inl rfl⟩
    intro i h1 h2 hi
    simp [smallTree] at h2 hi
    omega
  have ho : Ordered [3] ([(2, [(1, 1), (2, 2)])] ++ (3, [(3, 3), (4, 4), (5, 5), (6, 6)]) :: []) :=
    ⟨by simp [Separated], by simp [SortedKeys], by simp⟩
  exact handleLeafOverflow_rebalances threeEntryLeaves [] h ho (by decide) (by decide) rfl (by decide)

theorem handleLeafUnderflow_rebalances_three :
    ∃ file' ks' leaves',
      handleLeafUnderflow threeEntryLeaves ((smallTree [2, 4] [[1], [2, 3], [4, 5]]).page 2) [(1, 0)]
          (smallTree [2, 4] [[1], [2, 3], [4, 5]]) = .ok () file'
      ∧ LevelRebalanced threeEntryLeaves (smallTree [2, 4] [[1], [2, 3], [4, 5]]) file' 1
          ([] ++ (2, [(1, 1)]) :: [(3, [(2, 2), (3, 3)]), (4, [(4, 4), (5, 5)])]) leaves' ks' (-1) []
      ∧ leaves'.map Prod.fst ⊆ [2, 3, 4] ∧ 3 ≤ leaves'.length + 1
      ∧ ∀ i, (file'.page i).deleted = true ↔
        ((smallTree [2, 4] [[1], [2, 3], [4, 5]]).page i).deleted = true ∨
          i ∈ [2, 3, 4] ∧ i ∉ leaves'.map Prod.fst := by
  have h : LeafLevel (smallTree [2, 4] [[1], [2, 3], [4, 5]]) 1 [2, 4]
      ([] ++ (2, [(1, 1)]) :: [(3, [(2, 2), (3, 3)]), (4, [(4, 4), (5, 5)])]) (-1) [] := by
    refine ⟨⟨rfl, rfl, rfl, rfl, rfl, rfl, rfl⟩, ⟨⟨rfl, rfl, rfl, rfl, rfl, rfl, rfl⟩,
      ⟨rfl, rfl, rfl, rfl, rfl, rfl, rfl⟩, ⟨rfl, rfl, rfl, rfl, rfl, rfl, rfl⟩, trivial⟩,
      ⟨by decide, by decide, by decide, by decide, ?_⟩, .inl rfl⟩
    intro i h1 h2 hi
    simp [smallTree] at h2 hi
    omega
  have ho : Ordered [2, 4]
      ([] ++ (2, [(1, 1)]) :: [(3, [(2, 2), (3, 3)]), (4, [(4, 4), (5, 5)])]) :=
    ⟨by simp [Separated], by simp [SortedKeys], by simp⟩
  exact handleLeafUnderflow_rebalances threeEntryLeaves [] h ho (by decide) (.inl rfl) rfl (by decide)

end QuasarDB.Storage
