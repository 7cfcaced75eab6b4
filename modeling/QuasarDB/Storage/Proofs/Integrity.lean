import QuasarDB.Storage.Proofs.RemoveRuns

set_option autoImplicit false

/-! # The integrity of a tree

`check_integrity` returns true on every valid tree, its leaves lie at one depth and are chained in key
order, and its pages are owned once. This holds after every run of operations none of which splits
the root or merges two leaves that do not fit in one. -/

namespace QuasarDB.Storage

open NodePage BStarPlusTree

variable {K V : Type} [LinearOrder K] [Inhabited K] (L : Instantiation K V)

/-! ## The integrity check -/

section Check

variable {file : TreeFile K V} {shape : Shape K V} {p : NodePage K V} {id next : Int}
  {es : List (K × V)}

omit [Inhabited K] in
/-- The keys of a leaf pass the check for strict order. -/
theorem all_keys_lt (h : p.IsLeaf id es next) (hs : SortedKeys es) :
    ((List.range (p.size - 1)).all fun i => decide (p.keys i < p.keys (i + 1))) = true := by
  rw [List.all_eq_true]
  intro i hi
  rw [List.mem_range, h.size_eq] at hi
  rw [decide_eq_true_iff, (h.get (by omega)).1, (h.get (by omega)).1]
  exact List.pairwise_iff_getElem.1 hs i (i + 1) (by omega) (by omega) (Nat.lt_succ_self i)

omit [LinearOrder K] in
/-- The fewest entries `check_node_integrity` admits in a leaf that is not the root. -/
def minAllowedLeaf (isRootChild : Bool) : Nat :=
  if isRootChild then L.maxKeysLeaf / 2 else L.minKeysLeaf

/-- The check of a leaf returns its least and its greatest key. -/
theorem checkNodeIntegrity_leaf (hopen : openNode id file = .ok p file) (h : p.IsLeaf id es next)
    (hs : SortedKeys es) (hpos : 0 < es.length) (hmax : es.length ≤ L.maxKeysLeaf)
    (isRootChild : Bool) (hmin : id = file.rootId ∨ minAllowedLeaf L isRootChild ≤ es.length)
    (fuel : Nat) :
    checkNodeIntegrity L (fuel + 1) id isRootChild file
      = .ok (es[0].1, (es.get ⟨es.length - 1, by omega⟩).1, true) file := by
  have hempty : p.empty = false := by
    rw [NodePage.empty, h.size_eq, beq_eq_false_iff_ne]
    omega
  have hsize : (p.nodeId == file.rootId || !decide (p.size < minAllowedLeaf L isRootChild)) = true := by
    rw [h.nodeId, h.size_eq]
    rcases hmin with hroot | hmin
    · simp [hroot]
    · simp [not_lt.2 hmin]
  have hover : p.overflow L = false := by
    rw [h.overflow_eq, decide_eq_false_iff_not]
    omega
  rw [checkNodeIntegrity, Prog.bind_ok hopen, Prog.bind_ok (run_rootId _)]
  simp only [h.isLeaf, if_true, hempty, Bool.false_eq_true, if_false]
  rw [minAllowedLeaf] at hsize
  simp only [hsize, hover, all_keys_lt h hs]
  rw [(h.get hpos).1, h.size_eq, (h.get (show es.length - 1 < es.length by omega)).1]
  rfl

/-- The loop over the children of a root holds no check against them. -/
theorem foldlM_checkChild {root : Int} {ks : List K} {leaves : List (LeafRecord K V)}
    (h : p.IsInternal root ks (leaves.map Prod.fst)) (ho : Ordered ks leaves) {fuel : Nat}
    (hcheck : ∀ (i : Nat) (hi : i < leaves.length), ∃ lo ∈ leaves[i].2, ∃ hi' ∈ leaves[i].2,
      checkNodeIntegrity L fuel leaves[i].1 true file = .ok (lo.1, hi'.1, true) file)
    {n : Nat} (hn : n ≤ leaves.length) (lo hi : K) :
    ∃ lo' hi', (List.range n).foldlM (checkChild (checkNodeIntegrity L fuel) root p) (lo, hi, true) file
      = .ok (lo', hi', true) file := by
  induction n with
  | zero => exact ⟨lo, hi, rfl⟩
  | succ n ih =>
      obtain ⟨lo', hi', hrun⟩ := ih (by omega)
      have hlen := ho.length_leaves
      obtain ⟨e₁, he₁, e₂, he₂, hchild⟩ := hcheck n (by omega)
      have hleft : (n == 0 || decide (p.keys (n - 1) ≤ e₁.1)) = true := by
        rcases n with - | i
        · rfl
        · have hle := ho.separated.getElem_le (i := i) (by omega)
            (by rw [List.length_map]; omega) e₁ (by simpa using he₁)
          rw [Nat.add_sub_cancel, RawArray.get_of_toList h.keys i (by omega)]
          simpa using hle
      have hright : (decide (p.size ≤ n) || decide (e₂.1 < p.keys n)) = true := by
        rw [h.size_eq]
        rcases Nat.lt_or_ge n ks.length with hlt | hge
        · have hlt' := ho.separated.lt_getElem hlt (by rw [List.length_map]; omega) e₂ (by simpa using he₂)
          rw [RawArray.get_of_toList h.keys n hlt]
          simp [hlt']
        · simp [hge]
      have hget := h.getChildId (i := n) (by rw [List.length_map]; omega) file
      rw [List.getElem_map] at hget
      refine ⟨if n = 0 then e₁.1 else lo', if n = p.childrenSize - 1 then e₂.1 else hi', ?_⟩
      rw [List.range_succ, List.foldlM_append, Prog.bind_ok hrun, List.foldlM_cons]
      simp only [List.foldlM_nil, bind_pure]
      rw [checkChild, Prog.bind_ok hget, h.nodeId, beq_self_eq_true, Prog.bind_ok hchild]
      simp only [hleft, hright]
      rfl

omit [Inhabited K] in
/-- Separators pass the check for strict order. -/
theorem all_separators_lt {ks : List K} {cs : List Int} (h : p.IsInternal id ks cs)
    (hs : ks.Pairwise (· < ·)) :
    ((List.range (p.size - 1)).all fun i => decide (p.keys i < p.keys (i + 1))) = true := by
  rw [List.all_eq_true]
  intro i hi
  rw [List.mem_range, h.size_eq] at hi
  rw [decide_eq_true_iff, RawArray.get_of_toList h.keys i (by omega),
    RawArray.get_of_toList h.keys (i + 1) (by omega)]
  exact List.pairwise_iff_getElem.1 hs i (i + 1) (by omega) (by omega) (Nat.lt_succ_self i)

namespace Represents

/-- Every leaf below the root passes the check. -/
theorem checkLeaf {root : Int} {ks : List K} {leaves : List (LeafRecord K V)}
    (h : Represents file (.level root ks leaves)) (hv : LevelValid L ks leaves) (fuel i : Nat)
    (hi : i < leaves.length) : ∃ lo ∈ leaves[i].2, ∃ hi' ∈ leaves[i].2,
      checkNodeIntegrity L (fuel + 1) leaves[i].1 true file = .ok (lo.1, hi'.1, true) file := by
  have hmem := List.getElem_mem hi
  obtain ⟨hlow, hhigh⟩ := hv.sizes _ hmem
  obtain ⟨next, hleaf⟩ := h.onDisk.run.isLeaf hmem
  have hpos := List.length_pos_of_ne_nil (hv.nonempty L _ hmem)
  have hsorted : SortedKeys leaves[i].2 :=
    hv.ordered.sorted.sublist (List.sublist_flatten_of_mem (List.mem_map_of_mem hmem))
  have hopen := h.owned.openNode (by simp [Shape.ids, List.mem_map_of_mem hmem]) hleaf.header hleaf.nodeId
  have hmin : minAllowedLeaf L true ≤ leaves[i].2.length := by
    obtain ⟨-, hbound⟩ := L.minKeysLeaf_bounds
    rw [minLeafSize] at hlow
    rw [minAllowedLeaf, if_pos rfl]
    split at hlow <;> omega
  exact ⟨_, List.getElem_mem hpos, _, List.getElem_mem (by omega),
    checkNodeIntegrity_leaf L hopen hleaf hsorted hpos hhigh true (Or.inr hmin) fuel⟩

/-- `check_integrity` returns true on a valid tree. -/
theorem checkIntegrity_eq_true (h : Represents file shape) (hv : shape.Valid L) :
    checkIntegrity L file = .ok true file := by
  cases shape with
  | empty => simp [checkIntegrity, h.onDisk.1]
  | leaf id es =>
      obtain ⟨hroot, -, hleaf⟩ := h.onDisk
      obtain ⟨hlow, hhigh⟩ := h.owned.range id (by simp [Shape.ids])
      have hopen := h.owned.openNode (by simp [Shape.ids]) hleaf.header hleaf.nodeId
      have hcheck := checkNodeIntegrity_leaf L hopen hleaf hv.2.1 (List.length_pos_of_ne_nil hv.1) hv.2.2
        false (Or.inl hroot.symm) (file.totalPages - 1)
      have hne := h.leaf_id_ne
      rw [Nat.sub_add_cancel (by omega), ← hroot] at hcheck
      simp only [checkIntegrity, Prog.run_get_bind, if_neg hne]
      rw [Prog.bind_ok hcheck]
      rfl
  | level root ks leaves =>
      have hv' : LevelValid L ks leaves := hv
      have hne := h.root_ne
      have hopen := h.level.openParent rfl le_rfl
      obtain ⟨hlow, hhigh⟩ := h.owned.range root (by simp [Shape.ids])
      have hp := h.rootPage
      have hover : (file.page root).overflow L = false := by
        rw [hp.overflow_eq, decide_eq_false_iff_not]
        exact not_lt.2 hv'.keys
      obtain ⟨fuel, hfuel⟩ : ∃ fuel, file.totalPages = fuel + 1 + 1 :=
        ⟨file.totalPages - 2, by omega⟩
      obtain ⟨lo, hi, hfold⟩ := foldlM_checkChild L hp hv'.ordered (h.checkLeaf L hv' fuel)
        (n := leaves.length) le_rfl default default
      have hcheck : checkNodeIntegrity L (fuel + 1 + 1) root false file = .ok (lo, hi, true) file := by
        rw [checkNodeIntegrity, Prog.bind_ok hopen, Prog.bind_ok (run_rootId _)]
        simp only [hp.isLeaf, hover, all_separators_lt hp hv'.ordered.sortedSeparators, hp.nodeId,
          h.onDisk.rootId, beq_self_eq_true, hp.childrenSize_eq, List.length_map]
        exact hfold
      simp only [checkIntegrity, Prog.run_get_bind, if_neg hne]
      rw [hfuel, h.onDisk.rootId, Prog.bind_ok hcheck]
      rfl

end Represents

end Check

/-! ## The representation invariant -/

section Invariant

variable (file : TreeFile K V)

/-- `leaf` is a leaf of the file, `depth` levels below the page `id`. -/
inductive LeafBelow : (id : Int) → (depth : Nat) → (leaf : Int) → Prop
  | here {id : Int} (h : (file.page id).isLeaf = true) : LeafBelow id 0 id
  | child {id leaf : Int} {i depth : Nat} (h : (file.page id).isLeaf = false)
      (hi : i < (file.page id).childrenSize) (hrest : LeafBelow ((file.page id).children i) depth leaf) :
      LeafBelow id (depth + 1) leaf

/-- An internal node in use, with the index of one of its children: the page `id`. -/
def ParentSlot (id : Int) (slot : Int × Nat) : Prop :=
  1 ≤ slot.1 ∧ slot.1 < file.totalPages ∧ (file.page slot.1).deleted = false ∧
    (file.page slot.1).isLeaf = false ∧ slot.2 < (file.page slot.1).childrenSize ∧
    (file.page slot.1).children slot.2 = id

/-- Following `next_leaf` from a page visits these leaves and ends at -1. -/
inductive NextLeaves : (id : Int) → List Int → Prop
  | done : NextLeaves (-1) []
  | leaf {id : Int} {rest : List Int} (h : (file.page id).isLeaf = true)
      (hrest : NextLeaves (file.page id).nextLeaf rest) : NextLeaves id (id :: rest)

/-- The representation invariant of a tree file. -/
structure WellRepresented : Prop where
  integrity : checkIntegrity L file = .ok true file
  sameDepth : file.rootId ≠ -1 → ∀ d d' l l', LeafBelow file file.rootId d l →
    LeafBelow file file.rootId d' l' → d = d'
  owned : ∀ id : Int, 1 ≤ id → id < file.totalPages →
    (file.page id).deleted = true ∧ (∀ slot, ¬ ParentSlot file id slot) ∨
    (file.page id).deleted = false ∧ id = file.rootId ∧ (∀ slot, ¬ ParentSlot file id slot) ∨
    (file.page id).deleted = false ∧ ∃! slot, ParentSlot file id slot
  chain : ∃ ids, NextLeaves file file.firstLeafId ids ∧ ids.Nodup
    ∧ (∀ l, l ∈ ids ↔ file.rootId ≠ -1 ∧ ∃ d, LeafBelow file file.rootId d l)
    ∧ ids.Pairwise fun l r => ∀ i < (file.page l).size, ∀ j < (file.page r).size,
        (file.page l).keys i < (file.page r).keys j

variable {file} {shape : Shape K V}

omit [LinearOrder K] [Inhabited K] in
theorem PagesOwned.mem_of_live {ids : List Int} (h : PagesOwned file ids) {id : Int} (h1 : 1 ≤ id)
    (h2 : id < file.totalPages) (hlive : (file.page id).deleted = false) : id ∈ ids := by
  by_contra hid
  rw [(h.free id h1 h2 hid).1] at hlive
  exact absurd hlive (by simp)

omit [LinearOrder K] [Inhabited K] in
theorem LeafRun.nextLeaves {leaves : List (LeafRecord K V)} (h : LeafRun file.page leaves (-1)) :
    NextLeaves file (headId leaves (-1)) (leaves.map Prod.fst) := by
  induction leaves with
  | nil => exact .done
  | cons leaf leaves ih =>
      rw [headId_cons, List.map_cons]
      refine .leaf h.1.isLeaf ?_
      rw [h.1.nextLeaf]
      exact ih h.2

namespace Represents

variable {root id : Int} {ks : List K} {es : List (K × V)} {leaves : List (LeafRecord K V)}

omit [LinearOrder K] [Inhabited K] in
theorem leafBelow_leaf (h : Represents file (.leaf id es)) (d : Nat) (l : Int) :
    LeafBelow file id d l ↔ d = 0 ∧ l = id := by
  have hleaf := h.onDisk.2.2.isLeaf
  constructor
  · rintro (_ | ⟨hinternal, _, _⟩)
    · exact ⟨rfl, rfl⟩
    · rw [hleaf] at hinternal
      exact absurd hinternal (by simp)
  · rintro ⟨rfl, rfl⟩
    exact .here hleaf

omit [LinearOrder K] [Inhabited K] in
theorem leafBelow_level (h : Represents file (.level root ks leaves)) (d : Nat) (l : Int) :
    LeafBelow file root d l ↔ d = 1 ∧ l ∈ leaves.map Prod.fst := by
  have hp := h.rootPage
  have hleaf : ∀ l ∈ leaves.map Prod.fst, (file.page l).isLeaf = true := by
    intro l hl
    obtain ⟨leaf, hmem, rfl⟩ := List.mem_map.1 hl
    obtain ⟨next, hleaf⟩ := h.onDisk.run.isLeaf hmem
    exact hleaf.isLeaf
  constructor
  · rintro (hroot | ⟨-, hi, hrest⟩)
    · rw [hp.isLeaf] at hroot
      exact absurd hroot (by simp)
    · rw [hp.childrenSize_eq] at hi
      have hmem := List.getElem_mem hi
      rw [hp.child hi] at hrest
      cases hrest with
      | here _ => exact ⟨rfl, hmem⟩
      | child hinternal _ _ =>
          rw [hleaf _ hmem] at hinternal
          exact absurd hinternal (by simp)
  · rintro ⟨rfl, hl⟩
    obtain ⟨i, hi, rfl⟩ := List.getElem_of_mem hl
    refine .child (i := i) hp.isLeaf (by rwa [hp.childrenSize_eq]) ?_
    rw [hp.child hi]
    exact .here (hleaf _ hl)

omit [LinearOrder K] [Inhabited K] in
/-- Only the root has child slots, one for each leaf. -/
theorem parentSlot_level (h : Represents file (.level root ks leaves)) (id : Int) (slot : Int × Nat) :
    ParentSlot file id slot ↔ slot.1 = root ∧ (leaves.map Prod.fst)[slot.2]? = some id := by
  have hp := h.rootPage
  obtain ⟨q, i⟩ := slot
  constructor
  · rintro ⟨h1, h2, hlive, hinternal, hi, hchild⟩
    have hmem := h.owned.mem_of_live h1 h2 hlive
    rcases List.mem_cons.1 hmem with hroot | hleaf
    · subst hroot
      rw [hp.childrenSize_eq] at hi
      rw [hp.child hi] at hchild
      exact ⟨rfl, by rw [List.getElem?_eq_getElem hi, hchild]⟩
    · obtain ⟨leaf, hl, rfl⟩ := List.mem_map.1 hleaf
      obtain ⟨next, hleaf'⟩ := h.onDisk.run.isLeaf hl
      rw [hleaf'.isLeaf] at hinternal
      exact absurd hinternal (by simp)
  · rintro ⟨rfl, hget⟩
    obtain ⟨hi, hid⟩ := List.getElem?_eq_some_iff.1 hget
    obtain ⟨h1, h2⟩ := h.owned.range q (by simp [Shape.ids])
    exact ⟨h1, h2, hp.deleted, hp.isLeaf, by rwa [hp.childrenSize_eq], (hp.child hi).trans hid⟩

omit [LinearOrder K] [Inhabited K] in
/-- A tree without an internal node has no child slots. -/
theorem not_parentSlot (h : Represents file shape)
    (hshape : ∀ id ∈ shape.ids, (file.page id).isLeaf = true) (id : Int) (slot : Int × Nat) :
    ¬ ParentSlot file id slot := by
  rintro ⟨h1, h2, hlive, hinternal, -⟩
  rw [hshape _ (h.owned.mem_of_live h1 h2 hlive)] at hinternal
  exact absurd hinternal (by simp)

omit [LinearOrder K] [Inhabited K] in
/-- Every page apart from page 0 is deleted, or the root, or the child in one slot. -/
theorem pageOwned (h : Represents file shape) (id : Int) (h1 : 1 ≤ id) (h2 : id < file.totalPages) :
    (file.page id).deleted = true ∧ (∀ slot, ¬ ParentSlot file id slot) ∨
    (file.page id).deleted = false ∧ id = file.rootId ∧ (∀ slot, ¬ ParentSlot file id slot) ∨
    (file.page id).deleted = false ∧ ∃! slot, ParentSlot file id slot := by
  by_cases hid : id ∈ shape.ids
  · have hlive := h.owned.live id hid
    refine Or.inr ?_
    cases shape with
    | empty => simp [Shape.ids] at hid
    | leaf leafId es =>
        obtain rfl : id = leafId := by simpa [Shape.ids] using hid
        refine Or.inl ⟨hlive, h.onDisk.1.symm, fun slot => h.not_parentSlot ?_ id slot⟩
        intro i hi
        obtain rfl : i = id := by simpa [Shape.ids] using hi
        exact h.onDisk.2.2.isLeaf
    | level root ks leaves =>
        have hnodup := h.owned.nodup
        rw [Shape.ids, List.nodup_cons] at hnodup
        rcases List.mem_cons.1 hid with rfl | hleaf
        · refine Or.inl ⟨hlive, h.onDisk.rootId.symm, fun slot hslot => hnodup.1 ?_⟩
          exact List.mem_of_getElem? ((h.parentSlot_level id slot).1 hslot).2
        · obtain ⟨i, hi, heq⟩ := List.getElem_of_mem hleaf
          refine Or.inr ⟨hlive, (root, i), (h.parentSlot_level id _).2 ⟨rfl, ?_⟩, ?_⟩
          · rw [List.getElem?_eq_getElem hi, heq]
          · rintro slot hslot
            obtain ⟨hroot, hget⟩ := (h.parentSlot_level id slot).1 hslot
            obtain ⟨hj, hjd⟩ := List.getElem?_eq_some_iff.1 hget
            exact Prod.ext hroot (hnodup.2.getElem_inj_iff.1 (hjd.trans heq.symm))
  · refine Or.inl ⟨(h.owned.free id h1 h2 hid).1, fun slot hslot => ?_⟩
    cases shape with
    | empty => exact h.not_parentSlot (by simp [Shape.ids]) id slot hslot
    | leaf leafId es =>
        refine h.not_parentSlot (fun i hi => ?_) id slot hslot
        obtain rfl : i = leafId := by simpa [Shape.ids] using hi
        exact h.onDisk.2.2.isLeaf
    | level root ks leaves =>
        exact hid (List.mem_cons_of_mem _
          (List.mem_of_getElem? ((h.parentSlot_level id slot).1 hslot).2))

omit [Inhabited K] in
/-- The leaves are chained in key order. -/
theorem chained (h : Represents file shape) (hv : shape.Valid L) :
    ∃ ids, NextLeaves file file.firstLeafId ids ∧ ids.Nodup
      ∧ (∀ l, l ∈ ids ↔ file.rootId ≠ -1 ∧ ∃ d, LeafBelow file file.rootId d l)
      ∧ ids.Pairwise fun l r => ∀ i < (file.page l).size, ∀ j < (file.page r).size,
          (file.page l).keys i < (file.page r).keys j := by
  cases shape with
  | empty =>
      obtain ⟨hroot, hfirst⟩ := h.onDisk
      refine ⟨[], ?_, List.nodup_nil, by simp [hroot], List.Pairwise.nil⟩
      rw [hfirst]
      exact .done
  | leaf id es =>
      have hne := h.leaf_id_ne
      obtain ⟨hroot, hfirst, hleaf⟩ := h.onDisk
      refine ⟨[id], ?_, by simp, fun l => ?_, List.pairwise_singleton _ _⟩
      · rw [hfirst]
        refine .leaf hleaf.isLeaf ?_
        rw [hleaf.nextLeaf]
        exact .done
      · rw [hroot] at hne ⊢
        simp [hne, h.leafBelow_leaf]
  | level root ks leaves =>
      have hne := h.root_ne
      have hnodup := h.owned.nodup
      rw [Shape.ids, List.nodup_cons] at hnodup
      refine ⟨leaves.map Prod.fst, ?_, hnodup.2, fun l => ?_, ?_⟩
      · rw [h.onDisk.firstLeafId]
        exact h.onDisk.run.nextLeaves
      · rw [h.onDisk.rootId] at hne ⊢
        simp only [h.leafBelow_level, ne_eq, hne, not_false_eq_true, true_and, exists_eq_left]
      · have hsorted := (List.pairwise_flatten.1 (LevelValid.ordered hv).sorted).2
        rw [List.pairwise_map] at hsorted ⊢
        refine hsorted.imp_of_mem fun {l r} hl hr hlt i hi j hj => ?_
        obtain ⟨_, hl⟩ := h.onDisk.run.isLeaf hl
        obtain ⟨_, hr⟩ := h.onDisk.run.isLeaf hr
        rw [hl.size_eq] at hi
        rw [hr.size_eq] at hj
        rw [(hl.get hi).1, (hr.get hj).1]
        exact hlt _ (List.getElem_mem hi) _ (List.getElem_mem hj)

/-- A valid tree keeps the representation invariant. -/
theorem wellRepresented (h : Represents file shape) (hv : shape.Valid L) : WellRepresented L file where
  integrity := h.checkIntegrity_eq_true L hv
  sameDepth hne d d' l l' hd hd' := by
    cases shape with
    | empty => exact absurd h.onDisk.1 hne
    | leaf id es =>
        rw [h.onDisk.1, h.leafBelow_leaf] at hd hd'
        exact hd.1.trans hd'.1.symm
    | level root ks leaves =>
        rw [h.onDisk.rootId, h.leafBelow_level] at hd hd'
        exact hd.1.trans hd'.1.symm
  owned := h.pageOwned
  chain := h.chained L hv

end Represents

end Invariant

end QuasarDB.Storage
