import Mathlib.Order.Interval.Finset.Defs
import Mathlib.Data.Int.Interval
import QuasarDB.Storage.Proofs.Insert

set_option autoImplicit false

/-! # The split of the root

`splitInternal1to2` gives the new right node the default key as its last separator and leaves the
child behind it as it was found. From then on a key above all others is routed back to the old root
and not found. -/

namespace QuasarDB.Storage

open NodePage BStarPlusTree

variable {K V : Type} [LinearOrder K] (L : Instantiation K V)

/-! ## Appending pages -/

omit [LinearOrder K] in
/-- Without deleted pages the pages of a tree are all pages but the first. -/
theorem PagesOwned.mem_of_full {file : TreeFile K V} {ids : List Int} (h : PagesOwned file ids)
    (hlen : file.totalPages ≤ ids.length + 1) {i : Int} (h1 : 1 ≤ i) (h2 : i < file.totalPages) :
    i ∈ ids := by
  have hsub : ids.toFinset ⊆ Finset.Ico (1 : Int) file.totalPages := by
    intro j hj
    rw [List.mem_toFinset] at hj
    exact Finset.mem_Ico.2 (h.range j hj)
  have hcard : (Finset.Ico (1 : Int) file.totalPages).card ≤ ids.toFinset.card := by
    rw [List.toFinset_card_of_nodup h.nodup, Int.card_Ico]
    omega
  have heq := Finset.eq_of_subset_of_card_le hsub hcard
  rw [← List.mem_toFinset, heq]
  exact Finset.mem_Ico.2 ⟨h1, h2⟩

/-- The file with one page more at its end. -/
def TreeFile.append (file : TreeFile K V) (p : NodePage K V) : TreeFile K V :=
  { file with totalPages := file.totalPages + 1 }.write file.totalPages p

omit [LinearOrder K] in
/-- Without deleted pages a new node comes to lie behind the last page, whose contents it takes
    over. -/
theorem run_newNode_append (leaf : Bool) {file : TreeFile K V} (htotal : 2 ≤ file.totalPages)
    (hlive : ∀ i : Int, 1 ≤ i → i < file.totalPages → (file.page i).deleted = false) :
    newNode L leaf file
      = .ok (initNode L leaf file.totalPages (file.page (file.totalPages - 1)))
          (file.append (initNode L leaf file.totalPages (file.page (file.totalPages - 1)))) := by
  rcases findDeleted_spec file.page (file.totalPages - 1) 1 L.indeterminate with
    ⟨j, hj1, hj2, hdel, -⟩ | hfind
  · rw [hlive j hj1 (by omega)] at hdel
    exact absurd hdel (by simp)
  · have hlast : (1 : Int) + ((file.totalPages - 1 : Nat) : Int) - 1 = file.totalPages - 1 := by
      omega
    rw [if_neg (by omega), hlast] at hfind
    simp [newNode, hfind, appendNewPage, initNode, TreeFile.append]

variable [Inhabited K]

/-! ## The split -/

/-- What the split leaves: of the separators `a ++ x :: b` and children `ca ++ y :: cb` of the old
    root, the old root keeps `a` and `ca ++ [y]`, and the new node `g` gets `y :: cb` again, with the
    default key as a last separator and some child `c` behind it. -/
structure RootSplit (file file' : TreeFile K V) (ids : List Int) (root f g c : Int) (a : List K)
    (x : K) (b : List K) (ca : List Int) (y : Int) (cb : List Int) : Prop where
  owned : PagesOwned file' (g :: f :: ids)
  rootId : file'.rootId = f
  newRoot : (file'.page f).IsInternal f [x] [root, g]
  left : (file'.page root).IsInternal root a (ca ++ [y])
  right : (file'.page g).IsInternal g (x :: b ++ [default]) (y :: (cb ++ [c]))
  others : ∀ i ∈ ids, i ≠ root → file'.page i = file.page i

variable {file : TreeFile K V} {ids : List Int} {root : Int} {a b : List K} {x : K}
  {ca cb : List Int} {y : Int}

/-- The two new nodes `splitInternal1to2` makes before it moves anything. The child of the second one
    is what was found there; in a file without deleted pages it is the old root. -/
theorem run_newNodes (h : PagesOwned file ids) (hroot : root ∈ ids) :
    ∃ f g c n₀ p₁ n₁ p₂ file₁ file₂ file₃,
      newNode L false file = .ok n₀ file₁ ∧ n₀.nodeId = f
      ∧ n₀.pushBackToInternal root { file₁ with rootId := f } = .ok p₁ file₂
      ∧ newNode L false file₂ = .ok n₁ file₃ ∧ n₁.IsInternal g [] [c]
      ∧ p₁.insertInInternal L default g file₃ = .ok p₂ (file₃.write f p₂)
      ∧ p₂.IsInternal f [default] [root, g] ∧ PagesOwned (file₃.write f p₂) (g :: f :: ids)
      ∧ file₃.rootId = f ∧ (∀ i ∈ ids, file₃.page i = file.page i)
      ∧ (file.totalPages ≤ ids.length + 1 → c = root) := by
  obtain ⟨f, stale, hnew, hfresh⟩ := run_newNode L false h
  obtain ⟨child, hn₀⟩ := isInternal_initNode L f stale
  have howned := h.writeFresh hfresh hn₀.deleted
  have hf : f ∉ ids := h.not_mem_of_fresh hfresh
  obtain ⟨p₁, hpush, hp₁⟩ := hn₀.pushBackToInternal root
  let file₁ : TreeFile K V := (file.reserve f).write f (initNode L false f stale)
  let file₂ : TreeFile K V := ({ file₁ with rootId := f } : TreeFile K V).write f p₁
  have howned₂ : PagesOwned file₂ (f :: ids) :=
    (howned.withMetadata f file₁.firstLeafId).write (by simp) hp₁.deleted
  obtain ⟨g, stale', hnew₂, hfresh₂⟩ := run_newNode L false howned₂
  obtain ⟨c, hn₁⟩ := isInternal_initNode L g stale'
  have howned₃ := howned₂.writeFresh hfresh₂ hn₁.deleted
  have hg : g ∉ f :: ids := howned₂.not_mem_of_fresh hfresh₂
  have hphys := L.three_le_physKeysInternal
  -- a key that is still to be set stands between the root and the second new node
  have hnew₁ : p₁.IsInternal f ([] ++ []) ([root] ++ []) := hp₁
  obtain ⟨p₂, hins, hp₂⟩ := hnew₁.insertInInternal L rfl (by simp; omega) (by simp) (by simp) g
  refine ⟨f, g, c, _, p₁, _, p₂, _, file₂, _, hnew, rfl, hpush _, hnew₂, hn₁, hins _, hp₂,
    howned₃.write (by simp) hp₂.deleted, by simp [file₂, file₁], fun i hi => ?_, fun hfull => ?_⟩
  · have hif : i ≠ f := fun he => hf (he ▸ hi)
    have hig : i ≠ g := fun he => hg (by simp [← he, hi])
    rw [TreeFile.write_page_ne _ _ _ hig, reserve_page, TreeFile.write_page_ne _ _ _ hif]
    simp [file₁, TreeFile.write, hif]
  · -- the page read last before the second new node is the first one
    have htotal : file₂.totalPages = file.totalPages + 1 ∧ f = file.totalPages := by
      have hend : ¬ f < file.totalPages := fun hlt =>
        hf (h.mem_of_full hfull hfresh.low hlt)
      have hhigh := hfresh.high
      refine ⟨by simp [file₂, file₁, TreeFile.reserve, hend], by omega⟩
    have hpos := List.length_pos_of_mem hroot
    have hrange := h.range root hroot
    have hlive : ∀ i : Int, 1 ≤ i → i < file₂.totalPages → (file₂.page i).deleted = false :=
      fun i h1 h2 => howned₂.live i (howned₂.mem_of_full (by simp; omega) h1 h2)
    have happend := run_newNode_append L false (by omega) hlive
    rw [hnew₂] at happend
    have hpage : file₂.page (file₂.totalPages - 1) = p₁ := by
      rw [htotal.1, show ((file.totalPages + 1 : Nat) : Int) - 1 = f by rw [htotal.2]; push_cast; omega]
      simp [file₂]
    have hchildren := congrArg NodePage.children (EStateM.Result.ok.inj happend).1
    rw [hpage] at hchildren
    have hc := hn₁.children
    rw [hchildren] at hc
    have hc' := hp₁.children
    simp only [initNode, hp₁.isLeaf, if_true] at hc
    exact List.singleton_inj.1 (hc.symm.trans hc')

/-- The split of a root with a key too many. -/
theorem run_splitRoot (h : PagesOwned file ids) (hroot : root ∈ ids) (hid : file.rootId = root)
    (hp : (file.page root).IsInternal root (a ++ x :: b) (ca ++ y :: cb))
    (hcb : cb.length = b.length + 1) (ha : a.length = (a ++ x :: b).length / 2 + 1)
    (hlen : (a ++ x :: b).length = L.maxKeysInternal + 1) :
    ∃ file' f g c, handleInternalOverflow L [] (file.page root) file = .ok () file'
      ∧ RootSplit file file' ids root f g c a x b ca y cb
      ∧ (file.totalPages ≤ ids.length + 1 → c = root) := by
  obtain ⟨f, g, c, n₀, p₁, n₁, p₂, file₁, file₂, file₃, hnew, hn₀, hpush, hnew₂, hright, hins, hp₂,
    howned, hroot₃, hsame, hc⟩ := run_newNodes L h hroot
  have hphys := L.physKeysInternal_eq
  have hthree := L.three_le_physKeysInternal
  have hchildren : L.maxChildren = L.maxKeysInternal + 1 := by
    rw [Instantiation.maxChildren, Instantiation.childrenSize]
    omega
  simp only [List.length_append, List.length_cons] at ha hlen
  obtain ⟨mid, left', right', hsend, hleft', hright', hmid⟩ :=
    hp.sendToRightInternal L (b := x :: b) hright (by simpa using hcb)
      (by simp only [List.length_cons, List.length_nil]; omega) default
  -- the middle key goes up, and the second new node keeps its child before those it gets
  obtain rfl : mid = x := hmid x b rfl
  obtain ⟨p₃, hset, hp₃⟩ := IsInternal.setKey (a := []) (b := []) hp₂ mid
  let file₄ := file₃.write f p₂
  let file₅ := ((file₄.write g right').write root left').write f p₃
  obtain ⟨hgf, hnd⟩ := List.nodup_cons.1 howned.nodup
  have hfi := (List.nodup_cons.1 hnd).1
  have hne : g ≠ f ∧ g ≠ root ∧ root ≠ f := by
    refine ⟨fun he => hgf (by simp [he]), fun he => hgf (by simp [he, hroot]), ?_⟩
    rintro rfl
    exact hfi hroot
  refine ⟨file₅, f, g, c, ?_, ⟨?_, hroot₃, ?_, ?_, ?_, ?_⟩, hc⟩
  · have htotal : (file.page root).size + n₁.size = a.length + (b.length + 1) := by
      rw [hp.size_eq, hright.size_eq]; simp
    have hsize : (file.page root).size = a.length + (b.length + 1) := by
      rw [hp.size_eq]; simp
    have hne : ¬ a.length + (b.length + 1) = (a.length + (b.length + 1)) / 2 := by omega
    have hlt : (a.length + (b.length + 1)) / 2 < a.length + (b.length + 1) := by omega
    have hcount : a.length + (b.length + 1) - (a.length + (b.length + 1)) / 2
        = (mid :: b).length + 1 := by simp; omega
    have hkey : p₂.getKey 0 file₄ = .ok default file₄ := hp₂.getKey (by simp) file₄
    have hredistribute : redistributeInternal2to2 L (file.page root) n₁ p₂ 0 file₄
        = .ok () file₅ := by
      rw [redistributeInternal2to2, Prog.bind_ok hkey, htotal, hsize, if_neg hne, if_pos hlt, hcount]
      rw [Prog.bind_ok (hsend file₄)]
      simp only [List.length_nil] at hset
      exact Prog.bind_ok (hset _)
    rw [handleInternalOverflow, Prog.bind_ok (run_rootId _), hp.nodeId, if_pos hid.symm,
      splitInternal1to2, Prog.bind_ok (run_rootId _), hp.nodeId, hid, beq_self_eq_true,
      Prog.assert_true, Prog.run_pure_bind, Prog.bind_ok hnew, hn₀, Prog.bind_ok (run_setRootId _ _),
      Prog.bind_ok hpush, Prog.bind_ok hnew₂, hright.nodeId, Prog.bind_ok hins]
    exact hredistribute
  · exact ((howned.write (by simp) hright'.deleted).write (by simp [hroot]) hleft'.deleted).write
      (by simp) hp₃.deleted
  · simpa [file₅] using hp₃
  · simpa [file₅, TreeFile.write_page_ne, hne.2.2] using hleft'
  · have hpage : file₅.page g = right' := by
      rw [TreeFile.write_page_ne _ _ _ hne.1, TreeFile.write_page_ne _ _ _ hne.2.1,
        TreeFile.write_page_self]
    rw [hpage]
    exact hright'
  · intro i hi hir
    have hif : i ≠ f := fun he => hfi (he ▸ hi)
    have hig : i ≠ g := fun he => hgf (by simp [← he, hi])
    rw [← hsame i hi, TreeFile.write_page_ne _ _ _ hif, TreeFile.write_page_ne _ _ _ hir,
      TreeFile.write_page_ne _ _ _ hig, TreeFile.write_page_ne _ _ _ hif]

/-! ## The lost key -/

omit [Inhabited K] in
/-- One round of the descent to the last child of a node. -/
theorem descend_last {key : K} {p : NodePage K V} {id child : Int} {ks : List K} {cs : List Int}
    (hp : p.IsInternal id ks (cs ++ [child])) (hks : ∀ k ∈ ks, k < key)
    (hopen : openNode child file = .ok (file.page child) file) (fuel : Nat) (stack : ParentStack) :
    descend key (fuel + 1) p stack file
      = descend key fuel (file.page child) ((id, ks.length) :: stack) file := by
  have hlen := hp.length_children
  rw [List.length_append, List.length_singleton] at hlen
  have hfind : p.findChildIdx key file = .ok ks.length file := by
    simp [findChildIdx, hp.isLeaf, hp.childIdx_of_lt hks]
  have hchild : openChild p ks.length file = .ok (file.page child) file := by
    have hget := hp.getChildId (i := ks.length) (by simp; omega) file
    rw [List.getElem_append_right (by omega)] at hget
    simp only [List.getElem_singleton] at hget
    rw [openChild, Prog.bind_ok hget, hopen]
  rw [descend, hp.isLeaf]
  simp only [Bool.false_eq_true, if_false]
  rw [Prog.bind_ok hfind, Prog.bind_ok hchild, hp.nodeId]

/-- After a split of the root whose new node got the old root as its last child, a key above every
    separator and above the default key is looked for in the leaf `y`. -/
theorem RootSplit.search_eq_nil {file' : TreeFile K V} {f g : Int} {key : K} {es : List (K × V)}
    {next : Int} (h : RootSplit file file' ids root f g root a x b ca y cb) (hroot : root ∈ ids)
    (hy : y ∈ ids ∧ y ≠ root) (hleaf : (file.page y).IsLeaf y es next)
    (hkeys : ∀ k ∈ a ++ x :: b, k < key) (hdefault : default < key)
    (hes : ∀ e ∈ es, e.1 ≠ key) : search L key file' = .ok [] file' := by
  have hpage : file'.page y = file.page y := h.others y hy.1 hy.2
  have hkeys' : (∀ k ∈ a, k < key) ∧ x < key ∧ ∀ k ∈ b, k < key := by
    simpa only [List.forall_mem_append, List.forall_mem_cons] using hkeys
  obtain ⟨ha, hx, hb⟩ := hkeys'
  have hopenNew : openNode f file' = .ok (file'.page f) file' :=
    h.owned.openNode (by simp) h.newRoot.header h.newRoot.nodeId
  have hopenRight : openNode g file' = .ok (file'.page g) file' :=
    h.owned.openNode (by simp) h.right.header h.right.nodeId
  have hopenLeft : openNode root file' = .ok (file'.page root) file' :=
    h.owned.openNode (by simp [hroot]) h.left.header h.left.nodeId
  have hopenLeaf : openNode y file' = .ok (file'.page y) file' :=
    h.owned.openNode (by simp [hy.1]) (hpage ▸ hleaf.header) (hpage ▸ hleaf.nodeId)
  obtain ⟨n, hn⟩ : ∃ n, file'.totalPages + 1 = n + 3 + 1 := by
    have hrf := h.owned.range f (by simp)
    have hrg := h.owned.range g (by simp)
    have hne : g ≠ f := fun he => (List.nodup_cons.1 h.owned.nodup).1 (by simp [he])
    exact ⟨file'.totalPages - 3, by omega⟩
  have hright : ∀ k ∈ x :: b ++ [default], k < key := by
    simp only [List.forall_mem_append, List.forall_mem_cons]
    exact ⟨⟨hx, hb⟩, hdefault, by simp⟩
  -- the way down: new root, new right node, old root, leaf
  obtain ⟨stack, hdescend⟩ : ∃ stack, descend key (file'.totalPages + 1)
      (file'.page f) [] file' = .ok (file'.page y, stack) file' := by
    have hnewRoot : (file'.page f).IsInternal f [x] ([root] ++ [g]) := h.newRoot
    have hnewRight : (file'.page g).IsInternal g (x :: b ++ [default]) (y :: cb ++ [root]) := h.right
    rw [hn, descend_last hnewRoot (by simpa using hx) hopenRight,
      descend_last hnewRight hright hopenLeft, descend_last h.left ha hopenLeaf, descend, hpage,
      hleaf.isLeaf]
    exact ⟨_, rfl⟩
  have hne : file'.rootId ≠ -1 := by
    have hrf := h.owned.range f (by simp)
    rw [h.rootId]
    omega
  have hfind : findLeaf key file' = .ok (some (file'.page y), stack) file' := by
    rw [h.rootId] at hne
    simp [findLeaf, h.rootId, hne, Prog.run_bind, hopenNew, hdescend]
  rw [hpage] at hfind
  simp [search, Prog.run_bind, hfind, hleaf.findKeyIdx_of_not_mem hes]

omit [Inhabited K] in
/-- The first entry of a leaf with two entries is below a key that no entry is above. -/
theorem Ordered.exists_lt {ks : List K} {leaves : List (LeafRecord K V)} {key : K}
    (h : Ordered ks leaves) (hkey : ∀ e ∈ leafEntries leaves, e.1 ≤ key) {leaf : LeafRecord K V}
    (hleaf : leaf ∈ leaves) (htwo : 2 ≤ leaf.2.length) : ∃ e ∈ leaf.2, e.1 < key := by
  obtain ⟨t, z, rfl⟩ := List.append_of_mem hleaf
  obtain ⟨id, es⟩ := leaf
  rcases es with - | ⟨e₁, - | ⟨e₂, es⟩⟩
  · simp at htwo
  · simp at htwo
  have hsorted := h.sorted
  rw [leafEntries_append, leafEntries_cons] at hsorted
  have hs := (SortedKeys.append.1 (SortedKeys.append.1 hsorted).2.1).1
  have hlt : e₁.1 < e₂.1 := (SortedKeys.cons.1 hs).1 e₂ (by simp)
  exact ⟨e₁, by simp, hlt.trans_le (hkey e₂ (by simp))⟩

/-- An insert that splits the root: the leaf that overflowed and a neighbour become three, then the
    root is split after its `ks'.length / 2 + 1` first separators. -/
theorem insert_splitsRoot {ks : List K} {leaves : List (LeafRecord K V)} {k : K}
    (h : Represents file (.level root ks leaves)) (hv : LevelValid L ks leaves)
    (hk : ∀ e ∈ leafEntries leaves, e.1 ≠ k) (hsplit : SplitsRoot L file k) (v : V) :
    ∃ file₁ file' leaves₁ a x b t y es z f g c,
      BStarPlusTree.insert L k v file = .ok () file'
      ∧ Rebalanced L file₁ root leaves₁ (t ++ (y, es) :: z) (a ++ x :: b)
      ∧ file₁.totalPages + leaves.length ≤ file.totalPages + (t ++ (y, es) :: z).length
      ∧ (∀ e, e ∈ leafEntries leaves₁ ↔ e = (k, v) ∨ e ∈ leafEntries leaves)
      ∧ 3 ≤ (t ++ (y, es) :: z).length ∧ a.length = t.length
      ∧ RootSplit file₁ file' (Shape.level root (a ++ x :: b) (t ++ (y, es) :: z)).ids root f g c
          a x b (t.map Prod.fst) y (z.map Prod.fst)
      ∧ (file₁.totalPages ≤ (t ++ (y, es) :: z).length + 2 → c = root) := by
  obtain ⟨file₁, leaves₁, ks', leaves', hrun, hbalanced, hpages, hentries, hiff, hle⟩ :=
    insert_level L h hv hk v
  rw [if_pos (hiff.1 hsplit)] at hrun
  have hfull := hiff.1 hsplit
  have hlen := hbalanced.ordered.length_leaves
  have hphys := L.three_le_physKeysInternal
  have hphys' := L.physKeysInternal_eq
  obtain ⟨a, rest, rfl, ha, hrest⟩ := exists_split ks' (n := ks'.length / 2 + 1) (by omega)
  rcases rest with - | ⟨x, b⟩
  · simp at ha hrest hfull
    omega
  obtain ⟨t, rest', rfl, hpre, hrest'⟩ := exists_split leaves' (n := a.length) (by
    rw [hlen, List.length_append]; omega)
  rcases rest' with - | ⟨⟨y, es⟩, z⟩
  · simp only [List.length_append, List.length_cons, List.length_nil] at hlen hrest'
    omega
  have hrep := hbalanced.represents
  have hp := hrep.rootPage
  rw [List.map_append, List.map_cons] at hp
  obtain ⟨file', f, g, c, hrun', hsplit', hc⟩ := run_splitRoot L hrep.owned (by simp [Shape.ids])
    hrep.onDisk.rootId hp (by simp at hlen ⊢; omega) ha (by omega)
  refine ⟨file₁, file', leaves₁, a, x, b, t, y, es, z, f, g, c, hrun.trans hrun', hbalanced,
    hpages, hentries, by omega, hpre.symm, hsplit', fun htotal => hc ?_⟩
  simp only [Shape.ids, List.length_cons, List.length_map]
  omega

/-- If the key is the greatest one, it is lost. -/
theorem insert_splitsRoot_search {ks : List K} {leaves : List (LeafRecord K V)} {k : K}
    (h : Represents file (.level root ks leaves)) (hv : LevelValid L ks leaves)
    (hpages : file.totalPages ≤ leaves.length + 2) (hk : ∀ e ∈ leafEntries leaves, e.1 < k)
    (hdefault : default < k) (hsplit : SplitsRoot L file k) (v : V) :
    ∃ file', BStarPlusTree.insert L k v file = .ok () file' ∧ search L k file' = .ok [] file' := by
  obtain ⟨file₁, file', leaves₁, a, x, b, t, y, es, z, f, g, c, hrun, hbalanced, hpages₁,
    hentries, hthree, ha, hsplit', hc⟩ := insert_splitsRoot L h hv (fun e he => (hk e he).ne) hsplit v
  obtain rfl := hc (by omega)
  refine ⟨file', hrun, ?_⟩
  have hmax : ∀ e ∈ leafEntries (t ++ (y, es) :: z), e.1 ≤ k := by
    intro e he
    rw [hbalanced.entries, hentries] at he
    rcases he with rfl | he
    · exact le_rfl
    · exact (hk e he).le
  have htwo : ∀ leaf ∈ t ++ (y, es) :: z, 2 ≤ leaf.2.length := fun leaf hleaf => by
    have hsize := (hbalanced.sizes leaf hleaf).1
    have hmax := L.three_le_maxKeysLeaf
    obtain ⟨-, hbound⟩ := L.minKeysLeaf_bounds
    rw [minLeafSize, if_neg (by omega)] at hsize
    omega
  have hkeys := hbalanced.ordered.separator_lt fun leaf hleaf =>
    hbalanced.ordered.exists_lt hmax hleaf (htwo leaf hleaf)
  have hrep := hbalanced.represents
  have hne := hrep.level.leaf_ne_root
  rw [hrep.isLeaf.nodeId, hrep.onDisk.rootId] at hne
  refine hsplit'.search_eq_nil L (by simp [Shape.ids]) ⟨by simp [Shape.ids], hne⟩ hrep.isLeaf hkeys
    hdefault ?_
  intro e he
  have hsep := hbalanced.ordered.separated
  rw [List.map_append] at hsep
  have hlt := ((separated_append (by rw [List.length_map, ha])).1 hsep).2.1 e he
  exact (hlt.trans (hkeys x (by simp))).ne

end QuasarDB.Storage
