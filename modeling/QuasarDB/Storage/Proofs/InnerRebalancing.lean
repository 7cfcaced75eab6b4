import QuasarDB.Storage.Proofs.InnerBalance
import QuasarDB.Storage.Proofs.LeafRebalancing

set_option autoImplicit false

/-! # Internal nodes that are too large or too small

`handleInternalOverflow` never keeps the grandchildren of the node it splits or evens out: every way
it can end without a failure adds one, two or three to their number or takes one away.
`handleInternalUnderflow` keeps them only when there is nothing to move. Both count the keys of one
node and the children of the other. -/

namespace QuasarDB.Storage

open NodePage BStarPlusTree

variable {K V : Type} [LinearOrder K] (L : Instantiation K V)

namespace InnerLevel

variable {file file' : TreeFile K V} {parentId : Int} {ks : List K} {cs others : List Int} {i j : Nat}
  {id : Int}

omit [LinearOrder K] in
theorem child_mem (h : InnerLevel file parentId ks cs others)
    (hj : j < (file.page parentId).childrenSize) : (file.page parentId).children j ∈ cs := by
  rw [h.parentPage.childrenSize_eq] at hj
  rw [h.parentPage.child hj]
  exact List.getElem_mem hj

omit [LinearOrder K] in
theorem child_eq (h : InnerLevel file parentId ks cs others) (hi : cs[i]? = some id) :
    i < (file.page parentId).childrenSize ∧ (file.page parentId).children i = id := by
  obtain ⟨hlt, rfl⟩ := List.getElem?_eq_some_iff.1 hi
  exact ⟨by rw [h.parentPage.childrenSize_eq]; exact hlt, h.parentPage.child hlt⟩

omit [LinearOrder K] in
/-- No page is a child twice. -/
theorem child_ne (h : InnerLevel file parentId ks cs others)
    (hi : i < (file.page parentId).childrenSize) (hj : j < (file.page parentId).childrenSize)
    (hne : i ≠ j) : (file.page parentId).children i ≠ (file.page parentId).children j := by
  rw [h.parentPage.childrenSize_eq] at hi hj
  rw [h.parentPage.child hi, h.parentPage.child hj]
  exact fun heq => hne (h.nodup.getElem_inj_iff.1 heq)

omit [LinearOrder K] in
theorem sibling (h : InnerLevel file parentId ks cs others) (hi : cs[i]? = some id)
    (hj : j < (file.page parentId).childrenSize) (hne : j ≠ i) :
    (file.page parentId).children j ∈ cs ∧ (file.page parentId).children j ≠ id := by
  obtain ⟨hlt, hid⟩ := h.child_eq hi
  refine ⟨h.child_mem hj, ?_⟩
  rw [← hid]
  exact h.child_ne hj hlt hne

end InnerLevel

/-! ## A small tree of height three -/

/-- Nodes with two or three keys. -/
def threeKeyNodes : Instantiation Nat Nat where
  keySize := 1000
  valueSize := 1
  keySize_pos := by decide
  valueSize_pos := Nat.one_pos
  fourEntries := by decide
  indeterminate :=
    { header := "", nodeId := 0, isLeaf := false, keysSize := 0, deleted := false, nextLeaf := 0,
      keys := fun _ => 0, children := fun _ => 0, values := fun _ => 0 }
  overlay := id

/-- An internal node in use. -/
def smallNode (id : Int) (ks : List Nat) (cs : List Int) : NodePage Nat Nat :=
  { header := nodeHeader, nodeId := id, isLeaf := false, keysSize := ks.length, deleted := false,
    nextLeaf := 0, keys := fun i => ks.getD i 0, children := fun i => cs.getD i 0,
    values := fun _ => 0 }

/-- The pages of `n` leaves. -/
def leafIds (n : Nat) : List Int := (List.range n).map fun (j : Nat) => (j : Int) + 4

/-- A root on page 1 with two nodes below it that have `m` and `n` children, and the leaves from page 4
    on, the one on page `i` with the keys `2 * i` and `2 * i + 1`. -/
def heightThree (m n : Nat) : TreeFile Nat Nat where
  rootId := 1
  firstLeafId := 4
  totalPages := m + n + 4
  page i :=
    let keys := (leafIds (m + n)).map fun i => 2 * i.toNat
    if i = 1 then smallNode 1 [2 * (m + 4)] [2, 3]
    else if i = 2 then smallNode 2 ((keys.take m).drop 1) ((leafIds (m + n)).take m)
    else if i = 3 then smallNode 3 (keys.drop (m + 1)) ((leafIds (m + n)).drop m)
    else smallLeaf i [2 * i.toNat, 2 * i.toNat + 1] (if i < m + n + 3 then i + 1 else -1)

theorem innerLevel_heightThree {m n : Nat} (hm : (m, n) ∈ [(5, 3), (2, 3), (2, 4)]) :
    InnerLevel (heightThree m n) 1 [2 * (m + 4)] [2, 3] (leafIds (m + n)) := by
  have hcases : m = 5 ∧ n = 3 ∨ m = 2 ∧ n = 3 ∨ m = 2 ∧ n = 4 := by simpa using hm
  refine ⟨⟨rfl, rfl, rfl, rfl, rfl, rfl, rfl⟩, ?_, Nat.succ_pos _, ?_, ?_, ?_, ?_⟩
  · intro c hc
    obtain rfl | rfl : c = 2 ∨ c = 3 := by simpa using hc
    · obtain ⟨rfl, rfl⟩ | ⟨rfl, rfl⟩ | ⟨rfl, rfl⟩ := hcases <;>
        exact ⟨_, _, rfl, rfl, rfl, rfl, rfl, rfl, rfl⟩
    · obtain ⟨rfl, rfl⟩ | ⟨rfl, rfl⟩ | ⟨rfl, rfl⟩ := hcases <;>
        exact ⟨_, _, rfl, rfl, rfl, rfl, rfl, rfl, rfl⟩
  · obtain ⟨rfl, rfl⟩ | ⟨rfl, rfl⟩ | ⟨rfl, rfl⟩ := hcases <;> decide
  · obtain ⟨rfl, rfl⟩ | ⟨rfl, rfl⟩ | ⟨rfl, rfl⟩ := hcases <;> decide
  · obtain ⟨rfl, rfl⟩ | ⟨rfl, rfl⟩ | ⟨rfl, rfl⟩ := hcases <;> decide
  · intro i h1 h2 hi
    obtain ⟨rfl, rfl⟩ | ⟨rfl, rfl⟩ | ⟨rfl, rfl⟩ := hcases
    all_goals
      simp [heightThree, leafIds, List.range_succ] at h2 hi
      omega

/-! ## Too many keys -/

section Overflow

variable [Inhabited K] {file : TreeFile K V} {id : Int} {parentStack : ParentStack}

/-- An internal node with a key too many: the root, or a child of a node with room for a separator. -/
def Overflowing (file : TreeFile K V) (id : Int) : ParentStack → Prop
  | [] => file.rootId = id ∧ ∃ ks cs ids, (file.page id).IsInternal id ks cs ∧
      ks.length = L.maxKeysInternal + 1 ∧ PagesOwned file ids ∧ id ∈ ids
  | (parentId, i) :: _ => file.rootId ≠ id ∧ ∃ ks cs others, InnerLevel file parentId ks cs others ∧
      ks.length < L.maxKeysInternal ∧ cs[i]? = some id ∧ (file.page id).size = L.maxKeysInternal + 1

/-- The node is taken care of without a failure, and the children and the keys of its level, which may
    be the children and the keys below a new root, are the same as before. -/
def OverflowKeeps (file : TreeFile K V) (id : Int) (parentStack : ParentStack) : Prop :=
  ∃ file', handleInternalOverflow L parentStack (file.page id) file = .ok () file' ∧
    match parentStack with
    | [] => grandchildren file' file'.rootId = childIds (file.page id) ∧
        levelKeys file' file'.rootId = separators (file.page id)
    | (parentId, _) :: _ => grandchildren file' parentId = grandchildren file parentId ∧
        levelKeys file' parentId = levelKeys file parentId

/-- A split of the root leaves one child on both sides and adds one. -/
theorem length_grandchildren_splitRoot {ks : List K} {cs ids : List Int} {file' : TreeFile K V}
    (howned : PagesOwned file ids) (hmem : id ∈ ids) (hroot : file.rootId = id)
    (hp : (file.page id).IsInternal id ks cs) (hlen : ks.length = L.maxKeysInternal + 1)
    (hrun : handleInternalOverflow L [] (file.page id) file = .ok () file') :
    (grandchildren file' file'.rootId).length = (childIds (file.page id)).length + 2 := by
  have hphys := L.physKeysInternal_eq
  have hthree := L.three_le_physKeysInternal
  have hcs := hp.length_children
  obtain ⟨a, b, rfl, ha, hb⟩ := exists_split ks (n := ks.length / 2 + 1) (by omega)
  obtain ⟨ca, cb, rfl, hca, hcb⟩ := exists_split cs (n := a.length) (by omega)
  rw [List.length_append] at hcs hlen
  rcases b with - | ⟨x, b⟩
  · simp only [List.length_nil] at hlen hb
    omega
  rcases cb with - | ⟨y, cb⟩
  · simp only [List.length_nil, List.length_cons] at hcs hcb hb
    omega
  simp only [List.length_append, List.length_cons] at hcs
  obtain ⟨file'', f, g, c, hrun', hsplit, -⟩ := run_splitRoot L howned hmem hroot hp (by omega) ha
    (by rw [List.length_append, hlen])
  rw [hrun] at hrun'
  cases hrun'
  rw [length_grandchildren, hsplit.rootId, hsplit.newRoot.childIds_eq, length_childIds,
    hp.childrenSize_eq]
  simp [hsplit.left.childrenSize_eq, hsplit.right.childrenSize_eq]
  omega

/-- Below a node with room for a separator, whichever neighbour takes part. -/
theorem InnerLevel.miscounted_overflow {parentId : Int} {ks : List K} {cs others : List Int} {i : Nat}
    {rest : ParentStack} {file' : TreeFile K V} (h : InnerLevel file parentId ks cs others)
    (hroot : file.rootId ≠ id) (hkeys : ks.length < L.maxKeysInternal) (hi : cs[i]? = some id)
    (hsize : (file.page id).size = L.maxKeysInternal + 1)
    (hrun : handleInternalOverflow L ((parentId, i) :: rest) (file.page id) file = .ok () file') :
    Miscounted file file' parentId := by
  have hmem : id ∈ cs := List.mem_of_getElem? hi
  rw [handleInternalOverflow] at hrun
  obtain ⟨root, file₁, hroot', h₁⟩ := Prog.bind_eq_ok.1 hrun
  obtain ⟨rfl, rfl⟩ := rootId_eq_ok hroot'
  rw [h.nodeId hmem, if_neg hroot.symm] at h₁
  obtain ⟨parent, file₂, hopen, h₂⟩ := Prog.bind_eq_ok.1 h₁
  obtain ⟨rfl, rfl, -⟩ := openNode_eq_ok hopen
  obtain ⟨left, file₃, hopenLeft, h₃⟩ := Prog.bind_eq_ok.1 h₂
  obtain ⟨rfl, hleft⟩ := openSibling_eq_ok hopenLeft
  have hleft : ∀ l, left = some l → ∃ c ∈ cs, c ≠ id ∧ l = file₃.page c := fun l hl => by
    obtain ⟨hpos, hlt, rfl⟩ := hleft l hl
    rw [decide_eq_true_eq] at hpos
    obtain ⟨hc, hne⟩ := h.sibling hi hlt (by omega)
    exact ⟨_, hc, hne, rfl⟩
  cases htakes : left.filter (·.canTake L) with
  | some l =>
      simp only [htakes] at h₃
      obtain ⟨hsome, htake⟩ := Option.filter_eq_some_iff.1 htakes
      obtain ⟨c, hc, hne, rfl⟩ := hleft l hsome
      refine h.miscounted_redistribute₂ L hc hmem hne ?_ h₃
      simp only [canTake, h.isLeaf hc, Bool.false_eq_true, if_false, decide_eq_true_eq] at htake
      omega
  | none =>
      simp only [htakes] at h₃
      obtain ⟨right, file₄, hopenRight, h₄⟩ := Prog.bind_eq_ok.1 h₃
      obtain ⟨rfl, hright⟩ := openSibling_eq_ok hopenRight
      have hright : ∀ r, right = some r → ∃ c ∈ cs, id ≠ c ∧ r = file₄.page c := fun r hr => by
        obtain ⟨-, hlt, rfl⟩ := hright r hr
        obtain ⟨hc, hne⟩ := h.sibling hi hlt (by omega)
        exact ⟨_, hc, hne.symm, rfl⟩
      cases htakes' : right.filter (·.canTake L) with
      | some r =>
          simp only [htakes'] at h₄
          obtain ⟨hsome, htake⟩ := Option.filter_eq_some_iff.1 htakes'
          obtain ⟨c, hc, hne, rfl⟩ := hright r hsome
          refine h.miscounted_redistribute₂ L hmem hc hne ?_ h₄
          simp only [canTake, h.isLeaf hc, Bool.false_eq_true, if_false, decide_eq_true_eq] at htake
          omega
      | none =>
          -- both neighbours are full, or there is none
          simp only [htakes'] at h₄
          cases left with
          | some l =>
              obtain ⟨c, hc, hne, rfl⟩ := hleft l rfl
              exact h.miscounted_split L hc hmem hne hkeys h₄
          | none =>
              cases right with
              | some r =>
                  obtain ⟨c, hc, hne, rfl⟩ := hright r rfl
                  exact h.miscounted_split L hmem hc hne hkeys h₄
              | none => cases h₄

/-- Taking care of an internal node with a key too many never keeps the children of its level. -/
theorem handleInternalOverflow_never_keeps (h : Overflowing L file id parentStack) :
    ¬ OverflowKeeps L file id parentStack := by
  rintro ⟨file', hrun, hkept⟩
  rcases parentStack with - | ⟨⟨parentId, i⟩, rest⟩
  · obtain ⟨hroot, ks, cs, ids, hp, hlen, howned, hmem⟩ := h
    have hcount := length_grandchildren_splitRoot L howned hmem hroot hp hlen hrun
    rw [hkept.1] at hcount
    omega
  · obtain ⟨hroot, ks, cs, others, hlevel, hkeys, hi, hsize⟩ := h
    have hmis := hlevel.miscounted_overflow L hroot hkeys hi hsize hrun
    exact hmis.count (congrArg List.length hkept.1)

end Overflow

/-- A root with four keys, and its leaves. -/
theorem overflowing_fourKeys :
    Overflowing threeKeyNodes (smallTree [3, 5, 7, 9] [[1, 2], [3, 4], [5, 6], [7, 8], [9, 10]]) 1 [] := by
  refine ⟨rfl, [3, 5, 7, 9], [2, 3, 4, 5, 6], [1, 2, 3, 4, 5, 6], ⟨rfl, rfl, rfl, rfl, rfl, rfl, rfl⟩,
    rfl, ⟨by decide, by decide, by decide, by decide, ?_⟩, by decide⟩
  intro i h1 h2 hi
  simp [smallTree] at h2 hi
  omega

theorem handleInternalOverflow_never_keeps_root :
    ¬ OverflowKeeps threeKeyNodes
      (smallTree [3, 5, 7, 9] [[1, 2], [3, 4], [5, 6], [7, 8], [9, 10]]) 1 [] :=
  handleInternalOverflow_never_keeps threeKeyNodes overflowing_fourKeys

/-- The last leaf of the overfull node is given to its neighbour and kept. -/
theorem handleInternalOverflow_doubles :
    Overflowing threeKeyNodes (heightThree 5 3) 2 [(1, 0)] ∧
      grandchildren (heightThree 5 3) 1 = [4, 5, 6, 7, 8, 9, 10, 11] ∧
      grandchildren ((handleInternalOverflow threeKeyNodes [(1, 0)] ((heightThree 5 3).page 2)).after
        (heightThree 5 3)) 1 = [4, 5, 6, 7, 8, 8, 9, 10, 11] ∧
      ¬ OverflowKeeps threeKeyNodes (heightThree 5 3) 2 [(1, 0)] := by
  have hafter : grandchildren ((handleInternalOverflow threeKeyNodes [(1, 0)]
      ((heightThree 5 3).page 2)).after (heightThree 5 3)) 1 = [4, 5, 6, 7, 8, 8, 9, 10, 11] := by
    decide
  refine ⟨⟨by decide, [18], [2, 3], leafIds 8, innerLevel_heightThree (by decide),
    by decide, rfl, rfl⟩, by decide, hafter, ?_⟩
  rintro ⟨file', hrun, hchildren, -⟩
  rw [Prog.after_ok hrun, hchildren] at hafter
  revert hafter
  decide

/-! ## Too few keys -/

section Underflow

variable {file file' : TreeFile K V} {parentId id : Int} {ks : List K} {cs others : List Int} {i : Nat}
  {rest : ParentStack}

/-- How many keys an internal node must have next to `count - 1` others. -/
def minInnerSize (count : Nat) : Nat :=
  if count = 1 then 0 else if count = 2 then L.maxKeysInternal / 2 else L.minKeysInternal

/-- An internal node with a key too few among siblings of allowed sizes, below the root or a node with
    a key to spare. -/
structure Underflowing (file : TreeFile K V) (parentId : Int) (ks : List K) (cs others : List Int)
    (i : Nat) (id : Int) : Prop where
  level : InnerLevel file parentId ks cs others
  spare : file.rootId = parentId ∨ L.minKeysInternal < ks.length
  node : cs[i]? = some id
  size : (file.page id).size + 1 = L.minKeysInternal
  siblings : ∀ c ∈ cs, c ≠ id →
    minInnerSize L cs.length ≤ (file.page c).size ∧ (file.page c).size ≤ L.maxKeysInternal

/-- The nodes below a node, or the one that took its place. -/
def levelIds (file : TreeFile K V) (parentId : Int) : List Int :=
  if (file.page parentId).deleted then [file.rootId] else childIds (file.page parentId)

/-- The separators between the nodes of a level. -/
def levelSeparators (file : TreeFile K V) (parentId : Int) : List K :=
  if (file.page parentId).deleted then [] else separators (file.page parentId)

/-- The level below a node has the children and keys it had, in nodes of allowed sizes. -/
structure LevelKept (file file' : TreeFile K V) (parentId : Int) : Prop where
  children : ((levelIds file' parentId).flatMap fun c => childIds (file'.page c))
    = grandchildren file parentId
  keys : interleave ((levelIds file' parentId).map fun c => separators (file'.page c))
    (levelSeparators file' parentId) = levelKeys file parentId
  sizes : ∀ c ∈ levelIds file' parentId,
    minInnerSize L (levelIds file' parentId).length ≤ (file'.page c).size ∧
      (file'.page c).size ≤ L.maxKeysInternal

/-- The node is taken care of without a failure and its level is kept. -/
def UnderflowKeeps (file : TreeFile K V) (parentId : Int) (i : Nat) (id : Int) (rest : ParentStack) :
    Prop :=
  ∃ file', handleInternalUnderflow L ((parentId, i) :: rest) (file.page id) file = .ok () file' ∧
    LevelKept L file file' parentId

/-- Of two children the one that is not at `i` can lend a key, and the left one has half of their keys
    already. -/
def NothingToMove (file : TreeFile K V) (parentId : Int) (i : Nat) : Prop :=
  (file.page parentId).childrenSize = 2 ∧
    L.maxKeysInternal / 2 < (file.page ((file.page parentId).children (1 - i))).size ∧
    (file.page ((file.page parentId).children 0)).size =
      ((file.page ((file.page parentId).children 0)).size +
        (file.page ((file.page parentId).children 1)).size) / 2

omit [LinearOrder K] in
theorem Miscounted.not_kept (h : Miscounted file file' parentId) :
    ¬ LevelKept L file file' parentId := fun hkept => by
  have hchildren := hkept.children
  rw [levelIds, if_neg (by simp [h.parent])] at hchildren
  exact h.count (congrArg List.length hchildren)

omit [LinearOrder K] in
theorem Underflowing.canLend_iff (h : Underflowing L file parentId ks cs others i id) {c : Int}
    (hc : c ∈ cs) : (file.page c).canLend L ((file.page parentId).childrenSize == 2) = true ↔
      (if (file.page parentId).childrenSize = 2 then L.maxKeysInternal / 2 else L.minKeysInternal)
        < (file.page c).size := by
  rw [canLend, h.level.isLeaf hc]
  simp only [beq_iff_eq, Bool.false_eq_true, if_false]
  split <;> simp

omit [LinearOrder K] in
/-- The left neighbour lends: children are moved, or the two halves are even. -/
theorem Underflowing.left_lends (h : Underflowing L file parentId ks cs others i id) (hpos : 0 < i)
    (hlt : i - 1 < (file.page parentId).childrenSize)
    (hlend : (file.page ((file.page parentId).children (i - 1))).canLend L
      ((file.page parentId).childrenSize == 2) = true)
    (hrun : redistributeInternal2to2 L (file.page ((file.page parentId).children (i - 1)))
      (file.page id) (file.page parentId) (i - 1) file = .ok () file') :
    Miscounted file file' parentId ∨ NothingToMove L file parentId i := by
  obtain ⟨hc, hne⟩ := h.level.sibling h.node hlt (by omega)
  obtain ⟨hi, hid⟩ := h.level.child_eq h.node
  have hsize := h.size
  rw [h.canLend_iff L hc] at hlend
  by_cases hmoved : (file.page ((file.page parentId).children (i - 1))).size =
      ((file.page ((file.page parentId).children (i - 1))).size + (file.page id).size) / 2
  · refine Or.inr ?_
    have htwo : (file.page parentId).childrenSize = 2 := by
      by_contra htwo
      rw [if_neg htwo] at hlend
      omega
    obtain rfl : i = 1 := by omega
    rw [if_pos htwo] at hlend
    rw [NothingToMove, hid]
    exact ⟨htwo, hlend, hmoved⟩
  · exact Or.inl (h.level.miscounted_redistribute₂ L hc (List.mem_of_getElem? h.node) hne hmoved hrun)

omit [LinearOrder K] in
/-- The right neighbour lends. -/
theorem Underflowing.right_lends (h : Underflowing L file parentId ks cs others i id)
    (hlt : i + 1 < (file.page parentId).childrenSize)
    (hlend : (file.page ((file.page parentId).children (i + 1))).canLend L
      ((file.page parentId).childrenSize == 2) = true)
    (hrun : redistributeInternal2to2 L (file.page id)
      (file.page ((file.page parentId).children (i + 1))) (file.page parentId) i file
      = .ok () file') :
    Miscounted file file' parentId ∨ NothingToMove L file parentId i := by
  obtain ⟨hc, hne⟩ := h.level.sibling h.node hlt (by omega)
  obtain ⟨hi, hid⟩ := h.level.child_eq h.node
  have hsize := h.size
  rw [h.canLend_iff L hc] at hlend
  by_cases hmoved : (file.page id).size =
      ((file.page id).size + (file.page ((file.page parentId).children (i + 1))).size) / 2
  · refine Or.inr ?_
    have htwo : (file.page parentId).childrenSize = 2 := by
      by_contra htwo
      rw [if_neg htwo] at hlend
      omega
    obtain rfl : i = 0 := by omega
    rw [if_pos htwo] at hlend
    rw [NothingToMove, hid]
    exact ⟨htwo, hlend, hmoved⟩
  · exact Or.inl
      (h.level.miscounted_redistribute₂ L (List.mem_of_getElem? h.node) hc hne.symm hmoved hrun)

omit [LinearOrder K] in
/-- However the node is taken care of, children get lost or doubled, unless there is nothing to move.
    Merges fail. -/
theorem Underflowing.miscounted_or_nothingToMove (h : Underflowing L file parentId ks cs others i id)
    (hrun : handleInternalUnderflow L ((parentId, i) :: rest) (file.page id) file = .ok () file') :
    Miscounted file file' parentId ∨ NothingToMove L file parentId i := by
  obtain ⟨hi, hid⟩ := h.level.child_eq h.node
  have hmem := List.mem_of_getElem? h.node
  rw [handleInternalUnderflow] at hrun
  obtain ⟨parent, file₁, hopen, h₁⟩ := Prog.bind_eq_ok.1 hrun
  obtain ⟨rfl, rfl, -⟩ := openNode_eq_ok hopen
  obtain ⟨left, file₂, hopenLeft, h₂⟩ := Prog.bind_eq_ok.1 h₁
  obtain ⟨rfl, hleft⟩ := openSibling_eq_ok hopenLeft
  cases hlends : left.filter (·.canLend L ((file₂.page parentId).childrenSize == 2)) with
  | some l =>
      -- the left sibling lends
      simp only [hlends] at h₂
      obtain ⟨hsome, hlend⟩ := Option.filter_eq_some_iff.1 hlends
      obtain ⟨hpos, hlt, rfl⟩ := hleft l hsome
      exact h.left_lends L (of_decide_eq_true hpos) hlt hlend h₂
  | none =>
      simp only [hlends] at h₂
      obtain ⟨right, file₃, hopenRight, h₃⟩ := Prog.bind_eq_ok.1 h₂
      obtain ⟨rfl, hright⟩ := openSibling_eq_ok hopenRight
      cases hlends' : right.filter (·.canLend L ((file₃.page parentId).childrenSize == 2)) with
      | some r =>
          -- the right sibling lends
          simp only [hlends'] at h₃
          obtain ⟨hsome, hlend⟩ := Option.filter_eq_some_iff.1 hlends'
          obtain ⟨-, hlt, rfl⟩ := hright r hsome
          exact h.right_lends L hlt hlend h₃
      | none =>
          simp only [hlends'] at h₃
          by_cases htwo : (file₃.page parentId).childrenSize = 2
          · -- a merge of the two children of the root
            rw [if_pos htwo] at h₃
            cases right with
            | some r =>
                obtain ⟨_, file₄, -, h₄⟩ := Prog.bind_eq_ok.1 h₃
                exact absurd h₄ (mergeInternal2to1_ne_ok L)
            | none =>
                cases left with
                | some l =>
                    obtain ⟨_, file₄, -, h₄⟩ := Prog.bind_eq_ok.1 h₃
                    exact absurd h₄ (mergeInternal2to1_ne_ok L)
                | none => cases h₃
          · rw [if_neg htwo] at h₃
            by_cases hzero : i = 0
            · -- three nodes from the first child on
              rw [if_pos hzero] at h₃
              obtain ⟨rr, file₄, hopen', h₄⟩ := Prog.bind_eq_ok.1 h₃
              obtain ⟨rfl, hlt, rfl⟩ := openChild_eq_ok hopen'
              cases right with
              | none => cases h₄
              | some r =>
                  obtain ⟨-, hlt', rfl⟩ := hright r rfl
                  dsimp only at h₄
                  split at h₄
                  · obtain ⟨hr, hrne⟩ := h.level.sibling h.node hlt' (by omega)
                    obtain ⟨hrr, hrrne⟩ := h.level.sibling h.node hlt (by omega)
                    exact .inl (h.level.miscounted_redistribute₃ L hmem hr hrr hrne.symm
                      (h.level.child_ne hlt' hlt (by omega)) hrrne.symm h₄)
                  · exact absurd h₄ (mergeInternal3to2_ne_ok L)
            · rw [if_neg hzero] at h₃
              by_cases hlast : i = (file₃.page parentId).childrenSize - 1
              · -- three nodes up to the last child
                rw [if_pos hlast] at h₃
                obtain ⟨j, file₄, hsub, h₄⟩ := Prog.bind_eq_ok.1 h₃
                obtain ⟨hle, rfl, rfl⟩ := Prog.sub_eq_ok.1 hsub
                obtain ⟨ll, file₅, hopen', h₅⟩ := Prog.bind_eq_ok.1 h₄
                obtain ⟨rfl, hlt, rfl⟩ := openChild_eq_ok hopen'
                cases left with
                | none => cases h₅
                | some l =>
                    obtain ⟨-, hlt', rfl⟩ := hleft l rfl
                    dsimp only at h₅
                    split at h₅
                    · obtain ⟨hl, hlne⟩ := h.level.sibling h.node hlt' (by omega)
                      obtain ⟨hll, hllne⟩ := h.level.sibling h.node hlt (by omega)
                      exact .inl (h.level.miscounted_redistribute₃ L hll hl hmem
                        (h.level.child_ne hlt hlt' (by omega)) hlne hllne h₅)
                    · exact absurd h₅ (mergeInternal3to2_ne_ok L)
              · -- a child between two others is merged with both of them
                rw [if_neg hlast] at h₃
                cases left with
                | none => cases h₃
                | some l =>
                    cases right with
                    | none => cases h₃
                    | some r => exact absurd h₃ (mergeInternal3to2_ne_ok L)

omit [LinearOrder K] in
theorem InnerLevel.openChild (h : InnerLevel file parentId ks cs others)
    (hi : i < (file.page parentId).childrenSize) :
    BStarPlusTree.openChild (file.page parentId) i file
      = .ok (file.page ((file.page parentId).children i)) file := by
  have hmem := h.child_mem hi
  obtain ⟨cks, ccs, hpage⟩ := h.children _ hmem
  have hlt : i < cs.length := by rwa [h.parentPage.childrenSize_eq] at hi
  rw [BStarPlusTree.openChild, Prog.bind_ok (h.parentPage.getChildId hlt file),
    ← h.parentPage.child hlt]
  exact h.owned.openNode (List.mem_cons_of_mem _ (List.mem_append_left _ hmem)) hpage.header
    hpage.nodeId

omit [LinearOrder K] in
/-- With nothing to move nothing is written. -/
theorem Underflowing.run_of_nothingToMove (h : Underflowing L file parentId ks cs others i id)
    (hmove : NothingToMove L file parentId i) :
    handleInternalUnderflow L ((parentId, i) :: rest) (file.page id) file = .ok () file := by
  obtain ⟨htwo, hlend, heven⟩ := hmove
  obtain ⟨hi, hid⟩ := h.level.child_eq h.node
  have hparent := h.level.parentPage
  have hopen : openNode parentId file = .ok (file.page parentId) file :=
    h.level.owned.openNode List.mem_cons_self hparent.header hparent.nodeId
  have hks : 0 < ks.length := by
    rw [childrenSize, hparent.size_eq] at htwo
    omega
  have hredistribute : redistributeInternal2to2 L (file.page ((file.page parentId).children 0))
      (file.page ((file.page parentId).children 1)) (file.page parentId) 0 file = .ok () file := by
    rw [redistributeInternal2to2, Prog.bind_ok (hparent.getKey hks file), if_pos heven]
    rfl
  obtain rfl | rfl : i = 0 ∨ i = 1 := by omega
  · have hc := (h.level.sibling h.node (j := 1) (by omega) (by omega)).1
    have hcanLend := (h.canLend_iff L hc).2 (by rwa [if_pos htwo])
    have hsibling : openSibling (0 + 1 < (file.page parentId).childrenSize) (file.page parentId)
        (0 + 1) file = .ok (some (file.page ((file.page parentId).children 1))) file := by
      rw [decide_eq_true (by omega)]
      exact run_openSibling_true (h.level.openChild (by omega))
    rw [handleInternalUnderflow, Prog.bind_ok hopen]
    refine (Prog.bind_ok (run_openSibling_false _ _ _)).trans ?_
    refine (Prog.bind_ok hsibling).trans ?_
    simp only [Option.filter_some, hcanLend, if_true]
    rwa [← hid]
  · have hc := (h.level.sibling h.node (j := 0) (by omega) (by omega)).1
    have hcanLend := (h.canLend_iff L hc).2 (by rwa [if_pos htwo])
    rw [handleInternalUnderflow, Prog.bind_ok hopen]
    refine (Prog.bind_ok (run_openSibling_true (h.level.openChild (by omega)))).trans ?_
    simp only [Option.filter_some, hcanLend, if_true]
    rwa [← hid]

omit [LinearOrder K] in
/-- With nothing to move the node is not too small for one of two. -/
theorem Underflowing.kept_of_nothingToMove (h : Underflowing L file parentId ks cs others i id)
    (hmove : NothingToMove L file parentId i) : LevelKept L file file parentId := by
  obtain ⟨htwo, hlend, heven⟩ := hmove
  obtain ⟨hi, hid⟩ := h.level.child_eq h.node
  have hparent := h.level.parentPage
  have hids : levelIds file parentId = cs := by
    rw [levelIds, if_neg (by simp [hparent.deleted]), hparent.childIds_eq]
  have hseparators : levelSeparators file parentId = separators (file.page parentId) := by
    rw [levelSeparators, if_neg (by simp [hparent.deleted])]
  have hcount : cs.length = 2 := by rw [← hparent.childrenSize_eq, htwo]
  have hsize := h.size
  have hmin : L.minKeysInternal ≤ L.maxKeysInternal := by
    have hphys := L.physKeysInternal_eq
    have hthree := L.three_le_physKeysInternal
    rw [Instantiation.minKeysInternal]
    omega
  have hnode : L.maxKeysInternal / 2 ≤ (file.page id).size := by
    obtain rfl | rfl : i = 0 ∨ i = 1 := by omega
    · rw [hid] at heven
      rw [Nat.sub_zero] at hlend
      omega
    · rw [hid] at heven
      rw [Nat.sub_self] at hlend
      omega
  refine ⟨?_, ?_, ?_⟩
  · rw [hids, grandchildren, hparent.childIds_eq]
  · rw [hids, hseparators, levelKeys, hparent.childIds_eq]
  · intro c hc
    rw [hids] at hc ⊢
    by_cases hcid : c = id
    · subst hcid
      rw [hcount]
      exact ⟨hnode, by omega⟩
    · exact h.siblings c hc hcid

omit [LinearOrder K] in
/-- An internal node with a key too few is taken care of as it should be if and only if nothing is
    moved for it. -/
theorem handleInternalUnderflow_keeps_iff (h : Underflowing L file parentId ks cs others i id) :
    UnderflowKeeps L file parentId i id rest ↔ NothingToMove L file parentId i := by
  constructor
  · rintro ⟨file', hrun, hkept⟩
    exact (h.miscounted_or_nothingToMove L hrun).resolve_left fun hmis => hmis.not_kept L hkept
  · intro hmove
    exact ⟨file, h.run_of_nothingToMove L hmove, h.kept_of_nothingToMove L hmove⟩

end Underflow

/-- A node with two children next to one with three or four. -/
theorem underflowing_heightThree {n : Nat} (hn : n ∈ [3, 4]) :
    Underflowing threeKeyNodes (heightThree 2 n) 1 [12] [2, 3] (leafIds (2 + n)) 0 2 := by
  obtain rfl | rfl : n = 3 ∨ n = 4 := by simpa using hn
  · exact ⟨innerLevel_heightThree (by decide), .inl rfl, rfl, rfl, by decide⟩
  · exact ⟨innerLevel_heightThree (by decide), .inl rfl, rfl, rfl, by decide⟩

theorem handleInternalUnderflow_keeps_even :
    UnderflowKeeps threeKeyNodes (heightThree 2 3) 1 0 2 [] ↔
      NothingToMove threeKeyNodes (heightThree 2 3) 1 0 :=
  handleInternalUnderflow_keeps_iff threeKeyNodes (underflowing_heightThree (by decide))

example : NothingToMove threeKeyNodes (heightThree 2 3) 1 0 := ⟨by decide, by decide, by decide⟩

/-- The first leaf of the neighbour is taken away and given to nobody. -/
theorem handleInternalUnderflow_loses :
    Underflowing threeKeyNodes (heightThree 2 4) 1 [12] [2, 3] (leafIds 6) 0 2 ∧
      grandchildren (heightThree 2 4) 1 = [4, 5, 6, 7, 8, 9] ∧
      grandchildren ((handleInternalUnderflow threeKeyNodes [(1, 0)] ((heightThree 2 4).page 2)).after
        (heightThree 2 4)) 1 = [4, 5, 7, 8, 9] ∧
      ¬ UnderflowKeeps threeKeyNodes (heightThree 2 4) 1 0 2 [] := by
  have hafter : grandchildren ((handleInternalUnderflow threeKeyNodes [(1, 0)]
      ((heightThree 2 4).page 2)).after (heightThree 2 4)) 1 = [4, 5, 7, 8, 9] := by
    decide
  have hlive : (((handleInternalUnderflow threeKeyNodes [(1, 0)]
      ((heightThree 2 4).page 2)).after (heightThree 2 4)).page 1).deleted = false := by
    decide
  refine ⟨underflowing_heightThree (by decide), by decide, hafter, ?_⟩
  rintro ⟨file', hrun, hkept⟩
  have hchildren := hkept.children
  rw [Prog.after_ok hrun] at hafter hlive
  rw [levelIds, if_neg (by simp [hlive])] at hchildren
  rw [← grandchildren, hafter] at hchildren
  revert hchildren
  decide

end QuasarDB.Storage
