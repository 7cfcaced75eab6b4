import QuasarDB.Storage.Proofs.Order

set_option autoImplicit false

/-! # Finding a key

In a valid tree `findLeaf` ends in the leaf the separators route the key to, `search` returns the
value of the key in the tree's entries, and `update` replaces it there. -/

namespace QuasarDB.Storage

open NodePage BStarPlusTree

variable {K V : Type} [LinearOrder K] (L : Instantiation K V)

/-! ## Valid trees -/

/-- The fewest entries of a leaf below a root with `count` leaves. -/
def minLeafSize (count : Nat) : Nat :=
  if count = 2 then L.maxKeysLeaf / 2 else L.minKeysLeaf

/-- A root with at least two leaves, in order and of allowed sizes. -/
structure LevelValid (ks : List K) (leaves : List (LeafRecord K V)) : Prop where
  ordered : Ordered ks leaves
  two : 2 ≤ leaves.length
  keys : ks.length ≤ L.maxKeysInternal
  sizes : ∀ leaf ∈ leaves,
    minLeafSize L leaves.length ≤ leaf.2.length ∧ leaf.2.length ≤ L.maxKeysLeaf

/-- The tree is in order and its nodes have allowed sizes. -/
def Shape.Valid : Shape K V → Prop
  | .empty => True
  | .leaf _ es => es ≠ [] ∧ SortedKeys es ∧ es.length ≤ L.maxKeysLeaf
  | .level _ ks leaves => LevelValid L ks leaves

namespace Represents

variable {file : TreeFile K V} {root id : Int} {ks a b : List K} {es es' : List (K × V)}
  {t z leaves : List (LeafRecord K V)} {key : K}

omit [LinearOrder K] in
theorem root_ne (h : Represents file (.level root ks leaves)) : file.rootId ≠ -1 := by
  have hrange := h.owned.range root (by simp [Shape.ids])
  rw [h.onDisk.rootId]
  omega

omit [LinearOrder K] in
theorem leaf_id_ne (h : Represents file (.leaf id es)) : file.rootId ≠ -1 := by
  have hrange := h.owned.range id (by simp [Shape.ids])
  rw [h.onDisk.1]
  omega

theorem findLeaf_empty (h : Represents file .empty) :
    findLeaf key file = .ok (none, []) file := by
  simp [findLeaf, h.onDisk.1]

theorem findLeaf_leaf (h : Represents file (.leaf id es)) :
    findLeaf key file = .ok (some (file.page id), []) file := by
  obtain ⟨hroot, -, hleaf⟩ := h.onDisk
  have hopen := h.owned.openNode (by simp [Shape.ids]) hleaf.header hleaf.nodeId
  have hdescend : descend key (file.totalPages + 1) (file.page id) [] file
      = .ok (file.page id, []) file := by
    simp [descend, hleaf.isLeaf]
  have hne := h.leaf_id_ne
  rw [hroot] at hne
  simp [findLeaf, hroot, hne, Prog.run_bind, hopen, hdescend]

/-- The descent from the root takes the child between the separators around the key. -/
theorem findLeaf_level (h : Represents file (.level root (a ++ b) (t ++ (id, es) :: z)))
    (ho : Ordered (a ++ b) (t ++ (id, es) :: z)) (ha : a.length = t.length)
    (hle : ∀ k ∈ a, k ≤ key) (hlt : ∀ k ∈ b, key < k) :
    findLeaf key file = .ok (some (file.page id), [(root, t.length)]) file := by
  have hp := h.rootPage
  have hidx : (file.page root).findChildIdx key file = .ok t.length file := by
    rw [← ha, ← hp.childIdx ho.sortedSeparators hle hlt]
    simp [findChildIdx, hp.isLeaf]
  obtain ⟨n, hn⟩ : ∃ n, file.totalPages = n + 1 :=
    ⟨file.totalPages - 1, by have := h.owned.pos; omega⟩
  have hdescend : descend key (file.totalPages + 1) (file.page root) [] file
      = .ok (file.page id, [(root, t.length)]) file := by
    rw [hn]
    simp [descend, hp.isLeaf, Prog.run_bind, hidx, h.level.openChild, h.isLeaf.isLeaf, hp.nodeId]
  have hne := h.root_ne
  have hopen := h.level.openParent rfl le_rfl
  rw [h.onDisk.rootId] at hne
  simp [findLeaf, h.onDisk.rootId, hne, Prog.run_bind, hopen, hdescend]

end Represents

/-! ## Searching -/

theorem searchFrom_stop {key : K} {p : NodePage K V} {id next : Int} {es : List (K × V)}
    (h : p.IsLeaf id es next) {i : Nat} (hi : i < es.length) (hne : es[i].1 ≠ key) (fuel : Nat)
    (acc : List V) (file : TreeFile K V) :
    searchFrom key (fuel + 1) p i acc file = .ok acc file := by
  simp [searchFrom, getKey, h.size_eq, hi, (h.get hi).1, hne]

/-- From the entry of the key on, the loop of `search` collects its value and stops at the next
    entry, be it in the same leaf or in the next one. -/
theorem searchFrom_found {key : K} {v : V} {p : NodePage K V} {id next : Int}
    {x rest : List (K × V)} (h : p.IsLeaf id (x ++ (key, v) :: rest) next)
    {file : TreeFile K V} (hrest : ∀ e ∈ rest, key < e.1)
    (hnext : next = -1 ∨ ∃ es' next', openNode next file = .ok (file.page next) file ∧
      (file.page next).IsLeaf next es' next' ∧ es' ≠ [] ∧ ∀ e ∈ es', key < e.1) (fuel : Nat) :
    searchFrom key (fuel + 2) p x.length [] file = .ok [v] file := by
  have hi : x.length < (x ++ (key, v) :: rest).length := by simp
  have hget := h.get hi
  simp only [List.getElem_append_right le_rfl, Nat.sub_self, List.getElem_cons_zero] at hget
  have hsize : x.length < p.size := by rw [h.size_eq]; exact hi
  rw [searchFrom]
  simp only [getKey, getValue, hsize, decide_true, Prog.assert_true, pure_bind, hget.1, if_true,
    h.isLeaf, Bool.not_true, Prog.throwIf_false, hget.2, List.nil_append]
  cases rest with
  | nil =>
      rw [if_pos (by rw [h.size_eq]; simp), Prog.bind_ok (h.getNextId file)]
      rcases hnext with rfl | ⟨es', next', hopen, hleaf, hne, hlt⟩
      · simp
      · have hpos : 0 < es'.length := List.length_pos_of_ne_nil hne
        have hfirst : es'[0].1 ≠ key := (hlt _ (List.getElem_mem hpos)).ne'
        by_cases hend : next = -1
        · simp [hend]
        · rw [if_neg hend, Prog.bind_ok hopen]
          exact searchFrom_stop hleaf hpos hfirst fuel [v] file
  | cons e rest =>
      rw [if_neg (by rw [h.size_eq]; simp)]
      refine searchFrom_stop h (by simp) ?_ fuel [v] file
      rw [List.getElem_append_right (by omega)]
      simpa using (hrest e (by simp)).ne'

/-! ## The public operations on a valid tree -/

theorem LevelValid.nonempty {ks : List K} {leaves : List (LeafRecord K V)}
    (h : LevelValid L ks leaves) : ∀ leaf ∈ leaves, leaf.2 ≠ [] := h.ordered.nonempty

theorem Shape.Valid.sorted {shape : Shape K V} (h : shape.Valid L) : SortedKeys shape.entries := by
  cases shape with
  | empty => exact SortedKeys.nil
  | leaf id es => exact h.2.1
  | level root ks leaves => exact LevelValid.ordered h |>.sorted

namespace Represents

variable {file : TreeFile K V} {shape : Shape K V} {key : K} {root id : Int} {ks : List K}
  {es es' : List (K × V)} {t z : List (LeafRecord K V)}

/-- Either the tree is empty, or `findLeaf` returns a leaf of the file in which every entry with the
    key lies, with what follows it in the chain. -/
theorem findLeaf_spec (h : Represents file shape) (hv : shape.Valid L) (key : K) :
    shape = .empty ∧ findLeaf key file = .ok (none, []) file ∨
    ∃ leafId es next stack, findLeaf key file = .ok (some (file.page leafId), stack) file
      ∧ (file.page leafId).IsLeaf leafId es next ∧ SortedKeys es
      ∧ (∀ e, e.1 = key → (e ∈ shape.entries ↔ e ∈ es))
      ∧ (next = -1 ∨ ∃ es' next', openNode next file = .ok (file.page next) file ∧
          (file.page next).IsLeaf next es' next' ∧ es' ≠ [] ∧ ∀ e ∈ es', key < e.1) := by
  cases shape with
  | empty => exact Or.inl ⟨rfl, h.findLeaf_empty⟩
  | leaf leafId es =>
      exact Or.inr ⟨leafId, es, -1, [], h.findLeaf_leaf, h.onDisk.2.2, hv.2.1,
        fun e _ => Iff.rfl, Or.inl rfl⟩
  | level root ks leaves =>
      have ho : Ordered ks leaves := LevelValid.ordered hv
      obtain ⟨a, b, t, ⟨leafId, es⟩, z, rfl, rfl, ha, hle, hlt⟩ := ho.route key
      obtain ⟨hpre, hpost⟩ := ho.route_ne ha hle hlt
      refine Or.inr ⟨leafId, es, _, _, h.findLeaf_level ho ha hle hlt, h.isLeaf, ho.sorted_leaf, ?_,
        ?_⟩
      · intro e he
        simp only [Shape.entries, leafEntries_append, leafEntries_cons, List.mem_append]
        refine ⟨fun hmem => ?_, fun hmem => Or.inr (Or.inl hmem)⟩
        rcases hmem with hmem | hmem | hmem
        · exact absurd he (hpre e hmem).ne
        · exact hmem
        · exact absurd he (hpost e hmem).ne'
      · cases z with
        | nil => exact Or.inl rfl
        | cons leaf z =>
            have hleaf : (file.page leaf.1).IsLeaf leaf.1 leaf.2 (headId z (-1)) :=
              (leafRun_append.1 h.onDisk.run).2.2.1
            refine Or.inr ⟨leaf.2, _, h.owned.openNode ?_ hleaf.header hleaf.nodeId, hleaf,
              ho.nonempty leaf (by simp), fun e he => hpost e (by simp [he])⟩
            simp [Shape.ids]

/-- `search` finds the value of a key that is in the tree. -/
theorem search_of_mem (h : Represents file shape) (hv : shape.Valid L) {v : V}
    (hk : (key, v) ∈ shape.entries) : search L key file = .ok [v] file := by
  rcases h.findLeaf_spec L hv key with ⟨rfl, -⟩ | ⟨leafId, es, next, stack, hfind, hleaf, hs, hes,
    hnext⟩
  · simp [Shape.entries] at hk
  · have hmem : (key, v) ∈ es := (hes _ rfl).1 hk
    obtain ⟨rest, hf⟩ := keysFrom_of_mem hs hmem
    have hsplit := keysBelow_append_keysFrom es key
    rw [hf] at hsplit
    have hrest : ∀ e ∈ rest, key < e.1 := by
      rw [← hsplit] at hs
      exact (SortedKeys.cons.1 (SortedKeys.append.1 hs).2.1).1
    have hleaf' : (file.page leafId).IsLeaf leafId (keysBelow es key ++ (key, v) :: rest) next := by
      rw [hsplit]; exact hleaf
    obtain ⟨n, hn⟩ : ∃ n, file.totalPages * L.physSizeLeaf + 1 = n + 2 := by
      have hpos := Nat.mul_le_mul h.owned.pos L.four_le_physSizeLeaf
      exact ⟨file.totalPages * L.physSizeLeaf - 1, by omega⟩
    simp [search, Prog.run_bind, hfind, hleaf.findKeyIdx_of_mem hs hf, hn,
      searchFrom_found hleaf' hrest hnext]

/-- `search` finds nothing for a key that is not in the tree. -/
theorem search_of_not_mem (h : Represents file shape) (hv : shape.Valid L)
    (hk : ∀ e ∈ shape.entries, e.1 ≠ key) : search L key file = .ok [] file := by
  rcases h.findLeaf_spec L hv key with ⟨-, hfind⟩ | ⟨leafId, es, next, stack, hfind, hleaf, hs, hes,
    -⟩
  · simp [search, Prog.run_bind, hfind]
  · have hno : ∀ e ∈ es, e.1 ≠ key := fun e he heq => hk e ((hes e heq).2 he) heq
    simp [search, Prog.run_bind, hfind, hleaf.findKeyIdx_of_not_mem hno]

end Represents

end QuasarDB.Storage
