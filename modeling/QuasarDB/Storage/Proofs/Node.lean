import QuasarDB.Library.SortedChunks
import QuasarDB.Storage.Node

set_option autoImplicit false

/-! # What the node operations do to the entries of a page

A page in use is a leaf with a list of entries (`IsLeaf`) or an internal node with a list of keys
and a list of children (`IsInternal`). Each node operation has one lemma that says, in these lists,
what page it returns and which pages it writes; callers never unfold the operation. -/

namespace QuasarDB.Storage

variable {K V : Type}

/-! ## Sizes -/

namespace Instantiation

variable (L : Instantiation K V)

theorem four_le_physSizeLeaf : 4 ≤ L.physSizeLeaf := by
  rw [physSizeLeaf, Nat.le_div_iff_mul_le (Nat.add_pos_left L.keySize_pos _)]
  exact L.fourEntries

theorem physSizeLeaf_eq : L.physSizeLeaf = L.maxKeysLeaf + 1 := by
  have := L.four_le_physSizeLeaf
  rw [maxKeysLeaf]
  omega

theorem three_le_maxKeysLeaf : 3 ≤ L.maxKeysLeaf := by
  have := L.four_le_physSizeLeaf
  rw [maxKeysLeaf]
  omega

/-- The minimum is two thirds of the maximum, as near as can be. -/
theorem minKeysLeaf_bounds :
    3 * L.minKeysLeaf ≤ 2 * L.maxKeysLeaf + 1 ∧ 2 * L.maxKeysLeaf ≤ 3 * L.minKeysLeaf + 1 := by
  rw [minKeysLeaf, physSizeLeaf_eq]
  omega

theorem three_le_physKeysInternal : 3 ≤ L.physKeysInternal := by
  rw [physKeysInternal, Nat.le_div_iff_mul_le (Nat.add_pos_left L.keySize_pos _)]
  have h4 := L.fourEntries
  have hv := L.valueSize_pos
  simp only [pageSize, nodeHeaderSize, pageIdSize] at h4 ⊢
  omega

theorem physKeysInternal_eq : L.physKeysInternal = L.maxKeysInternal + 1 := by
  have := L.three_le_physKeysInternal
  rw [maxKeysInternal]
  omega

end Instantiation

/-! ## Writing pages -/

namespace TreeFile

variable (file : TreeFile K V) (id : Int) (p : NodePage K V)

@[simp] theorem write_page_self : (file.write id p).page id = p := by
  simp [write]

theorem write_page_ne {i : Int} (h : i ≠ id) : (file.write id p).page i = file.page i := by
  simp [write, h]

theorem write_page : file.write id (file.page id) = file := by
  rw [TreeFile.write, Function.update_eq_self]

@[simp] theorem write_write (q : NodePage K V) :
    (file.write id p).write id q = file.write id q := by
  simp [write]

@[simp] theorem write_rootId : (file.write id p).rootId = file.rootId := rfl

@[simp] theorem write_firstLeafId : (file.write id p).firstLeafId = file.firstLeafId := rfl

@[simp] theorem write_totalPages : (file.write id p).totalPages = file.totalPages := rfl

end TreeFile

@[simp] theorem run_writePage (id : Int) (p : NodePage K V) (file : TreeFile K V) :
    writePage id p file = .ok () (file.write id p) := rfl

namespace NodePage

/-- A leaf in use. -/
structure IsLeaf (p : NodePage K V) (id : Int) (es : List (K × V)) (next : Int) : Prop where
  header : p.header = nodeHeader
  nodeId : p.nodeId = id
  isLeaf : p.isLeaf = true
  deleted : p.deleted = false
  keysSize : p.keysSize = es.length
  nextLeaf : p.nextLeaf = next
  entries : (RawArray.pair p.keys p.values).toList es.length = es

/-- An internal node in use. -/
structure IsInternal (p : NodePage K V) (id : Int) (ks : List K) (cs : List Int) : Prop where
  header : p.header = nodeHeader
  nodeId : p.nodeId = id
  isLeaf : p.isLeaf = false
  deleted : p.deleted = false
  keysSize : p.keysSize = ks.length
  keys : p.keys.toList ks.length = ks
  children : p.children.toList (ks.length + 1) = cs

@[simp] theorem run_saveToDisk (p : NodePage K V) (file : TreeFile K V) :
    p.saveToDisk file = .ok () (file.write p.nodeId p) := rfl

/-- The page after `mark_deleted`. -/
def asDeleted (p : NodePage K V) : NodePage K V := { p with deleted := true }

@[simp] theorem asDeleted_size (p : NodePage K V) : p.asDeleted.size = p.size := rfl

@[simp] theorem asDeleted_nodeId (p : NodePage K V) : p.asDeleted.nodeId = p.nodeId := rfl

@[simp] theorem asDeleted_deleted (p : NodePage K V) : p.asDeleted.deleted = true := rfl

@[simp] theorem run_markDeleted (p : NodePage K V) (file : TreeFile K V) :
    p.markDeleted file = .ok p.asDeleted (file.write p.nodeId p.asDeleted) := rfl

theorem run_openNode {file : TreeFile K V} {id : Int} (hid : 0 ≤ id ∧ id < file.totalPages)
    (hh : (file.page id).header = nodeHeader) (hn : (file.page id).nodeId = id)
    (hd : (file.page id).deleted = false) : openNode id file = .ok (file.page id) file := by
  simp [openNode, readPage, hid, hh, hn, hd]

/-- A node that could be opened is a live page of the file under its own id. -/
theorem openNode_eq_ok {file file' : TreeFile K V} {id : Int} {p : NodePage K V}
    (h : openNode id file = .ok p file') :
    file' = file ∧ p = file.page id ∧ (0 ≤ id ∧ id < file.totalPages) ∧ p.header = nodeHeader
      ∧ p.nodeId = id ∧ p.deleted = false := by
  rw [openNode] at h
  obtain ⟨page, file₁, hread, h₁⟩ := Prog.bind_eq_ok.1 h
  obtain ⟨_, file₂, hheader, h₂⟩ := Prog.bind_eq_ok.1 h₁
  obtain ⟨_, file₃, hid, h₃⟩ := Prog.bind_eq_ok.1 h₂
  obtain ⟨_, file₄, hdeleted, h₄⟩ := Prog.bind_eq_ok.1 h₃
  obtain ⟨hsame, rfl⟩ := Prog.throwIf_eq_ok.1 hheader
  obtain ⟨hown, rfl⟩ := Prog.throwIf_eq_ok.1 hid
  obtain ⟨hlive, rfl⟩ := Prog.throwIf_eq_ok.1 hdeleted
  obtain ⟨rfl, rfl⟩ := Prog.pure_eq_ok.1 h₄
  rw [readPage, Prog.run_get_bind] at hread
  split at hread
  · obtain ⟨rfl, rfl⟩ := Prog.pure_eq_ok.1 hread
    rename_i hrange
    exact ⟨rfl, rfl, hrange, by simpa using hsame, (by simpa using hown : id = _).symm, hlive⟩
  · exact absurd hread (by simp)

section Leaf

variable {p : NodePage K V} {id next : Int} {es : List (K × V)}

theorem IsLeaf.size_eq (h : p.IsLeaf id es next) : p.size = es.length := h.keysSize

section Sizes

variable (L : Instantiation K V)

theorem IsLeaf.underflow_eq (h : p.IsLeaf id es next) :
    p.underflow L = decide (es.length < L.minKeysLeaf) := by
  simp [NodePage.underflow, h.isLeaf, h.size_eq]

theorem IsLeaf.overflow_eq (h : p.IsLeaf id es next) :
    p.overflow L = decide (L.maxKeysLeaf < es.length) := by
  simp [NodePage.overflow, h.isLeaf, h.size_eq]

theorem IsLeaf.canTake_eq (h : p.IsLeaf id es next) :
    p.canTake L = decide (es.length < L.maxKeysLeaf) := by
  simp [NodePage.canTake, h.isLeaf, h.size_eq]

/-- What a leaf keeps when it lends: half of a full leaf beside one sibling, else the minimum. -/
theorem IsLeaf.canLend_eq (h : p.IsLeaf id es next) (two : Bool) :
    p.canLend L two
      = decide ((if two then L.maxKeysLeaf / 2 else L.minKeysLeaf) < es.length) := by
  cases two <;> simp [NodePage.canLend, h.isLeaf, h.size_eq]

end Sizes

theorem IsLeaf.keys_eq (h : p.IsLeaf id es next) : p.keys.toList es.length = es.map Prod.fst := by
  rw [← RawArray.map_fst_toList_pair p.keys p.values, h.entries]

theorem IsLeaf.get (h : p.IsLeaf id es next) {i : Nat} (hi : i < es.length) :
    p.keys i = es[i].1 ∧ p.values i = es[i].2 := by
  have hpair : RawArray.pair p.keys p.values i = es[i] := RawArray.get_of_toList h.entries i hi
  exact ⟨congrArg Prod.fst hpair, congrArg Prod.snd hpair⟩

theorem IsLeaf.getNextId (h : p.IsLeaf id es next) (file : TreeFile K V) :
    p.getNextId file = .ok next file := by
  simp [NodePage.getNextId, h.isLeaf, h.nextLeaf]

theorem IsLeaf.setNext (h : p.IsLeaf id es next) (next' : Int) :
    ∃ p', (∀ file, p.setNext next' file = .ok p' (file.write id p')) ∧ p'.IsLeaf id es next' := by
  refine ⟨{ p with nextLeaf := next' }, ?_, { h with nextLeaf := rfl }⟩
  simp [NodePage.setNext, h.isLeaf, h.nodeId]

end Leaf

section Internal

variable {p : NodePage K V} {id : Int} {ks : List K} {cs : List Int}

theorem IsInternal.size_eq (h : p.IsInternal id ks cs) : p.size = ks.length := h.keysSize

theorem IsInternal.underflow_eq (h : p.IsInternal id ks cs) (L : Instantiation K V) :
    p.underflow L = decide (ks.length < L.minKeysInternal) := by
  simp [NodePage.underflow, h.isLeaf, h.size_eq]

theorem IsInternal.overflow_eq (h : p.IsInternal id ks cs) (L : Instantiation K V) :
    p.overflow L = decide (L.maxKeysInternal < ks.length) := by
  simp [NodePage.overflow, h.isLeaf, h.size_eq]

theorem IsInternal.length_children (h : p.IsInternal id ks cs) : cs.length = ks.length + 1 := by
  rw [← h.children, RawArray.length_toList]

theorem IsInternal.childrenSize_eq (h : p.IsInternal id ks cs) : p.childrenSize = cs.length := by
  rw [NodePage.childrenSize, h.size_eq, h.length_children]

theorem IsInternal.child (h : p.IsInternal id ks cs) {i : Nat} (hi : i < cs.length) :
    p.children i = cs[i] := by
  have hch := h.children
  rw [← h.length_children] at hch
  exact RawArray.get_of_toList hch i hi

theorem IsInternal.getChildId (h : p.IsInternal id ks cs) {i : Nat} (hi : i < cs.length)
    (file : TreeFile K V) : p.getChildId i file = .ok cs[i] file := by
  simp [NodePage.getChildId, h.isLeaf, h.childrenSize_eq, hi, h.child hi]

theorem IsInternal.getKey (h : p.IsInternal id ks cs) {i : Nat} (hi : i < ks.length)
    (file : TreeFile K V) : p.getKey i file = .ok ks[i] file := by
  simp [NodePage.getKey, h.size_eq, hi, RawArray.get_of_toList h.keys i hi]

/-- Replacing the separator `x`. -/
theorem IsInternal.setKey {a b : List K} {x : K} (h : p.IsInternal id (a ++ x :: b) cs) (key : K)
    :
    ∃ p', (∀ file, p.setKey key a.length file = .ok p' (file.write id p'))
      ∧ p'.IsInternal id (a ++ key :: b) cs := by
  have hlen : (a ++ key :: b).length = (a ++ x :: b).length := by simp
  refine ⟨{ p with keys := p.keys.set a.length key }, ?_,
    ⟨h.header, h.nodeId, h.isLeaf, h.deleted, ?_, ?_, ?_⟩⟩
  · have hlt : ¬ a.length + (b.length + 1) ≤ a.length := by omega
    simp [NodePage.setKey, h.size_eq, h.nodeId, hlt]
  · rw [hlen]; exact h.keysSize
  · rw [hlen, RawArray.toList_set, h.keys]; simp
  · rw [hlen]; exact h.children

/-- Replacing two neighbouring separators, one after the other. -/
theorem IsInternal.setKey₂ {a b : List K} {x y : K} (h : p.IsInternal id (a ++ x :: y :: b) cs)
    (x' y' : K) :
    ∃ p' p'', (∀ file, p.setKey x' a.length file = .ok p' (file.write id p'))
      ∧ (∀ file, p'.setKey y' (a.length + 1) file = .ok p'' (file.write id p''))
      ∧ p''.IsInternal id (a ++ x' :: y' :: b) cs := by
  obtain ⟨p', hset, hp'⟩ := h.setKey x'
  rw [List.append_cons] at hp'
  obtain ⟨p'', hset', hp''⟩ := hp'.setKey y'
  rw [List.length_append] at hset'
  exact ⟨p', p'', hset, hset', by rw [List.append_cons]; exact hp''⟩

theorem IsInternal.pushBackToInternal (h : p.IsInternal id [] cs) (childId : Int)
    :
    ∃ p', (∀ file, p.pushBackToInternal childId file = .ok p' (file.write id p'))
      ∧ p'.IsInternal id [] [childId] := by
  refine ⟨{ p with children := p.children.set 0 childId }, ?_, { h with children := ?_ }⟩
  · simp [NodePage.pushBackToInternal, h.size_eq, h.nodeId]
  · simp [RawArray.toList_succ]

end Internal

/-! ## Searching in a node -/

section Search

variable [LinearOrder K] {p : NodePage K V} {id next : Int}

theorem IsLeaf.lowerBound {es : List (K × V)} (h : p.IsLeaf id es next) (hs : SortedKeys es)
    (k : K) : p.lowerBound k = (keysBelow es k).length := by
  have hkeys : p.keys.toList es.length
      = (keysBelow es k).map Prod.fst ++ (keysFrom es k).map Prod.fst := by
    rw [h.keys_eq, ← List.map_append, keysBelow_append_keysFrom]
  rw [NodePage.lowerBound, h.size_eq, RawArray.lowerBound_of_toList _ hkeys, List.length_map]
  · intro x hx
    obtain ⟨e, he, rfl⟩ := List.mem_map.1 hx
    simpa using lt_of_mem_keysBelow he
  · intro x hx
    obtain ⟨e, he, rfl⟩ := List.mem_map.1 hx
    simpa using le_of_mem_keysFrom hs he

theorem IsLeaf.findKeyIdx_of_mem {es : List (K × V)} (h : p.IsLeaf id es next)
    (hs : SortedKeys es) {k : K} {v : V} {rest : List (K × V)}
    (hf : keysFrom es k = (k, v) :: rest) :
    p.findKeyIdxByExactCmp k = some (keysBelow es k).length := by
  have hopt : es[(keysBelow es k).length]? = some (k, v) := by
    have hget : (keysBelow es k ++ keysFrom es k)[(keysBelow es k).length]? = some (k, v) := by
      simp [hf]
    rwa [keysBelow_append_keysFrom] at hget
  obtain ⟨hlt, hget⟩ := List.getElem?_eq_some_iff.1 hopt
  have hkey : p.keys (keysBelow es k).length = k := by
    rw [(h.get hlt).1, hget]
  rw [findKeyIdxByExactCmp, h.lowerBound hs, if_neg]
  rw [h.size_eq]
  rintro (hle | hne)
  · omega
  · exact hne hkey

theorem IsLeaf.findKeyIdx_ne_none {es : List (K × V)} (h : p.IsLeaf id es next)
    (hs : SortedKeys es) {k : K} {v : V} (hk : (k, v) ∈ es) :
    p.findKeyIdxByExactCmp k ≠ none := by
  obtain ⟨rest, hf⟩ := keysFrom_of_mem hs hk
  rw [h.findKeyIdx_of_mem hs hf]
  exact Option.some_ne_none _

theorem IsLeaf.findKeyIdx_of_not_mem {es : List (K × V)} (h : p.IsLeaf id es next) {k : K}
    (hk : ∀ e ∈ es, e.1 ≠ k) : p.findKeyIdxByExactCmp k = none := by
  rw [findKeyIdxByExactCmp, if_pos]
  rw [h.size_eq]
  rcases Nat.lt_or_ge (p.lowerBound k) es.length with hlt | hge
  · refine Or.inr ?_
    rw [(h.get hlt).1]
    exact hk _ (List.getElem_mem hlt)
  · exact Or.inl hge

theorem IsInternal.lowerBound {ks a b : List K} {cs : List Int} (h : p.IsInternal id ks cs)
    {key : K} (hks : ks = a ++ b) (ha : ∀ k ∈ a, k < key) (hb : ∀ k ∈ b, key ≤ k) :
    p.lowerBound key = a.length := by
  rw [NodePage.lowerBound, h.size_eq]
  have hkeys : p.keys.toList ks.length = a ++ b := by rw [h.keys, hks]
  rw [RawArray.lowerBound_of_toList _ hkeys]
  · intro x hx
    simpa using ha x hx
  · intro x hx
    simpa using hb x hx

/-- A key above every separator is routed to the last child, in whatever order they stand. -/
theorem IsInternal.childIdx_of_lt {ks : List K} {cs : List Int} (h : p.IsInternal id ks cs)
    {key : K} (hks : ∀ k ∈ ks, k < key) : p.childIdx key = ks.length := by
  have hlb : p.lowerBound key = ks.length :=
    h.lowerBound (List.append_nil ks).symm hks (by simp)
  rw [NodePage.childIdx, hlb, if_neg]
  rintro ⟨hsize, -⟩
  rw [h.size_eq] at hsize
  exact lt_irrefl _ hsize

/-- The child taken has as many separators before it as are not above the key. -/
theorem IsInternal.childIdx {a b : List K} {cs : List Int} (h : p.IsInternal id (a ++ b) cs)
    (hs : (a ++ b).Pairwise (· < ·)) {key : K} (ha : ∀ k ∈ a, k ≤ key) (hb : ∀ k ∈ b, key < k) :
    p.childIdx key = a.length := by
  by_cases hmem : key ∈ a
  · obtain ⟨a, c, rfl⟩ := List.append_of_mem hmem
    obtain ⟨-, hkc, hac⟩ := List.pairwise_append.1 (List.pairwise_append.1 hs).1
    -- nothing can stand between `key` and the first separator above it
    have hc : c = [] := by
      rcases c with - | ⟨y, c⟩
      · rfl
      · have hy : y ≤ key := ha y (by simp)
        exact absurd ((List.pairwise_cons.1 hkc).1 y (by simp)) (not_lt.2 hy)
    subst hc
    have hlb : p.lowerBound key = a.length := by
      refine h.lowerBound (by rw [List.append_assoc]) (fun k hk => hac k hk key (by simp)) ?_
      intro k hk
      rcases List.mem_cons.1 hk with rfl | hk'
      · exact le_rfl
      · exact (hb k hk').le
    have hkey : p.keys a.length = key := by
      rw [RawArray.get_of_toList h.keys _ (by simp)]
      simp
    rw [NodePage.childIdx, hlb, if_pos ⟨by rw [h.size_eq]; simp, hkey⟩]
    simp
  · have hlb : p.lowerBound key = a.length :=
      h.lowerBound rfl (fun k hk => lt_of_le_of_ne (ha k hk) fun he => hmem (he ▸ hk))
        fun k hk => (hb k hk).le
    rw [NodePage.childIdx, hlb, if_neg]
    rintro ⟨hsize, heq⟩
    rw [h.size_eq] at hsize
    rw [RawArray.get_of_toList h.keys _ hsize, List.getElem_append_right le_rfl] at heq
    exact absurd (hb _ (List.getElem_mem _)) (by rw [heq]; exact lt_irrefl _)

end Search

/-! ## Changing the entries of a leaf -/

section LeafUpdate

variable {p : NodePage K V} {id next : Int} {es : List (K × V)}

/-- New arrays and a new size in an old leaf. -/
theorem IsLeaf.withEntries (h : p.IsLeaf id es next) {keys : RawArray K} {values : RawArray V}
    {n : Nat} {es' : List (K × V)} (hes : (RawArray.pair keys values).toList n = es') :
    IsLeaf { p with keys := keys, values := values, keysSize := n } id es' next := by
  have hn : n = es'.length := by rw [← hes, RawArray.length_toList]
  exact ⟨h.header, h.nodeId, h.isLeaf, h.deleted, hn, h.nextLeaf, by rw [← hn]; exact hes⟩

theorem IsLeaf.size_entries (h : p.IsLeaf id es next) :
    (RawArray.pair p.keys p.values).toList p.size = es := by
  rw [h.size_eq, h.entries]

theorem IsLeaf.removeFromLeafByIdx {a b : List (K × V)} {e : K × V}
    (h : p.IsLeaf id (a ++ e :: b) next) :
    ∃ p', (∀ file, p.removeFromLeafByIdx a.length file = .ok p' (file.write id p'))
      ∧ p'.IsLeaf id (a ++ b) next := by
  have hlt : a.length < p.size := by rw [h.size_eq]; simp
  refine ⟨{ p with
    keys := p.keys.move (a.length + 1) p.size a.length
    values := p.values.move (a.length + 1) p.size a.length
    keysSize := p.size - 1 }, ?_, h.withEntries ?_⟩
  · simp [NodePage.removeFromLeafByIdx, h.isLeaf, h.nodeId, not_le.2 hlt]
  · rw [RawArray.pair_move, RawArray.toList_erase _ hlt, h.size_entries]
    simp

theorem IsLeaf.updateValueByIdx {a b : List (K × V)} {k : K} {w : V}
    (h : p.IsLeaf id (a ++ (k, w) :: b) next) (v : V) :
    ∃ p', (∀ file, p.updateValueByIdx a.length v file = .ok p' (file.write id p'))
      ∧ p'.IsLeaf id (a ++ (k, v) :: b) next := by
  have hlt : a.length < p.size := by rw [h.size_eq]; simp
  have hkey : p.keys.set a.length k = p.keys := by
    have hget : p.keys a.length = k := by rw [(h.get (by simp)).1]; simp
    rw [RawArray.set, ← hget, Function.update_eq_self]
  refine ⟨{ p with values := p.values.set a.length v }, ?_, ?_⟩
  · simp [NodePage.updateValueByIdx, h.isLeaf, h.nodeId, not_le.2 hlt]
  · have hpair : (RawArray.pair p.keys (p.values.set a.length v)).toList p.size
        = a ++ (k, v) :: b := by
      conv_lhs => rw [← hkey, RawArray.pair_set, RawArray.toList_set, h.size_entries]
      simp
    exact h.withEntries hpair

variable [LinearOrder K] (L : Instantiation K V)

theorem IsLeaf.insertInLeaf (h : p.IsLeaf id es next) (hs : SortedKeys es)
    (hlen : es.length < L.physSizeLeaf) (k : K) (v : V) :
    ∃ p', (∀ file, p.insertInLeaf L k v file = .ok p' (file.write id p'))
      ∧ p'.IsLeaf id (insertEntry es k v) next := by
  have hle : (keysBelow es k).length ≤ es.length := (List.takeWhile_prefix _).length_le
  have hidx : (keysBelow es k).length < L.physSizeLeaf := by omega
  let i := (keysBelow es k).length
  refine ⟨{ p with
    keys := (p.keys.moveBackward i p.size (p.size + 1)).set i k
    values := (p.values.moveBackward i p.size (p.size + 1)).set i v
    keysSize := p.size + 1 }, ?_, h.withEntries ?_⟩
  · simp [NodePage.insertInLeaf, findKeyIdxToInsert, h.isLeaf, h.lowerBound hs, hidx, h.nodeId, i]
  · rw [RawArray.pair_set, RawArray.pair_moveBackward,
      RawArray.toList_insert _ _ (by rw [h.size_eq]; exact hle), h.size_entries]
    conv_lhs =>
      rw [← keysBelow_append_keysFrom es k, List.take_left, List.drop_left]
    rfl

theorem IsLeaf.removeFromLeaf (h : p.IsLeaf id es next) (hs : SortedKeys es) {k : K} {v : V}
    (hk : (k, v) ∈ es) :
    ∃ p', (∀ file, p.removeFromLeaf k file = .ok (true, p') (file.write id p'))
      ∧ p'.IsLeaf id (eraseKey es k) next := by
  obtain ⟨rest, hf⟩ := keysFrom_of_mem hs hk
  have hes := keysBelow_append_keysFrom es k
  rw [hf] at hes
  obtain ⟨p', hrun, hp'⟩ := IsLeaf.removeFromLeafByIdx (hes.symm ▸ h)
  refine ⟨p', ?_, ?_⟩
  · simp [NodePage.removeFromLeaf, h.isLeaf, h.findKeyIdx_of_mem hs hf, hrun]
  · rw [eraseKey_eq hf]
    exact hp'

theorem IsLeaf.removeFromLeaf_of_not_mem (h : p.IsLeaf id es next) {k : K}
    (hk : ∀ e ∈ es, e.1 ≠ k) (file : TreeFile K V) :
    p.removeFromLeaf k file = .ok (false, p) file := by
  simp [NodePage.removeFromLeaf, h.isLeaf, h.findKeyIdx_of_not_mem hk]

theorem IsLeaf.updateValue (h : p.IsLeaf id es next) (hs : SortedKeys es) {k : K} {w : V}
    (hk : (k, w) ∈ es) (v : V) :
    ∃ p', (∀ file, p.updateValue k v file = .ok (true, p') (file.write id p'))
      ∧ p'.IsLeaf id (setEntry es k v) next := by
  obtain ⟨rest, hf⟩ := keysFrom_of_mem hs hk
  have hes := keysBelow_append_keysFrom es k
  rw [hf] at hes
  obtain ⟨p', hrun, hp'⟩ := IsLeaf.updateValueByIdx (hes.symm ▸ h) v
  refine ⟨p', ?_, ?_⟩
  · simp [NodePage.updateValue, h.isLeaf, h.findKeyIdx_of_mem hs hf, hrun]
  · rw [setEntry, hf]
    exact hp'

theorem IsLeaf.updateValue_of_not_mem (h : p.IsLeaf id es next) {k : K}
    (hk : ∀ e ∈ es, e.1 ≠ k) (v : V) (file : TreeFile K V) :
    p.updateValue k v file = .ok (false, p) file := by
  simp [NodePage.updateValue, h.isLeaf, h.findKeyIdx_of_not_mem hk]

end LeafUpdate

/-! ## Moving entries between two leaves -/

section LeafTransfer

variable (L : Instantiation K V) {left right : NodePage K V} {l r n n' : Int}
  {a b c : List (K × V)}

/-- The last entries `b` of the left leaf go to the front of the right one. -/
theorem IsLeaf.sendToRightLeaf (hl : left.IsLeaf l (a ++ b) n) (hr : right.IsLeaf r c n')
    (hlen : b.length + c.length ≤ L.maxKeysLeaf) :
    ∃ mid left' right',
      (∀ file, left.sendToRightLeaf L right b.length file
        = .ok (mid, left', right') ((file.write r right').write l left'))
      ∧ left'.IsLeaf l a n ∧ right'.IsLeaf r (b ++ c) n'
      ∧ ∀ e rest, b ++ c = e :: rest → mid = e.1 := by
  have hfull : ¬ L.maxKeysLeaf < c.length + b.length := by omega
  have hsub : b.length ≤ left.size := by rw [hl.size_eq]; simp
  let right' : NodePage K V := { right with
    keys := RawArray.copy left.keys (left.size - b.length) left.size
      (right.keys.moveBackward 0 right.size (right.size + b.length)) 0
    values := RawArray.copy left.values (left.size - b.length) left.size
      (right.values.moveBackward 0 right.size (right.size + b.length)) 0
    keysSize := right.size + b.length }
  have hright : right'.IsLeaf r (b ++ c) n' := by
    refine hr.withEntries ?_
    rw [RawArray.pair_copy, RawArray.pair_moveBackward, RawArray.toList_prepend _ _ hsub,
      hl.size_entries, hr.size_entries, hl.size_eq]
    simp
  have hleft : (left.setSize (left.size - b.length)).IsLeaf l a n := by
    refine hl.withEntries ?_
    rw [← RawArray.take_toList _ (Nat.sub_le _ _), hl.size_entries, hl.size_eq]
    simp
  refine ⟨right'.keys 0, _, right', ?_, hleft, hright, ?_⟩
  · have hleaf : (!left.isLeaf || !right.isLeaf) = false := by rw [hl.isLeaf, hr.isLeaf]; rfl
    have hroom : right.moveRightLeaf L b.length = pure { right with
        keys := right.keys.moveBackward 0 right.size (right.size + b.length)
        values := right.values.moveBackward 0 right.size (right.size + b.length)
        keysSize := right.size + b.length } := by
      simp [moveRightLeaf, hr.size_eq, hfull]
    intro file
    rw [NodePage.sendToRightLeaf, hleaf, hroom, Prog.sub_of_le hsub, ← hr.nodeId, ← hl.nodeId]
    rfl
  · intro e rest he
    rw [he] at hright
    exact (hright.get (by simp)).1

/-- The first entries `a` of the right leaf go behind those of the left one. -/
theorem IsLeaf.takeFromRightLeaf (hl : left.IsLeaf l c n) (hr : right.IsLeaf r (a ++ b) n')
    (hlen : c.length + a.length ≤ L.maxKeysLeaf) :
    ∃ mid left' right',
      (∀ file, left.takeFromRightLeaf L right a.length file
        = .ok (mid, left', right') ((file.write r right').write l left'))
      ∧ left'.IsLeaf l (c ++ a) n ∧ right'.IsLeaf r b n'
      ∧ ∀ e rest, b = e :: rest → mid = e.1 := by
  have hfull : ¬ L.maxKeysLeaf < left.size + a.length := by rw [hl.size_eq]; omega
  have hsub : ¬ right.size < a.length := by rw [hr.size_eq]; simp
  let left' : NodePage K V := { left with
    keys := RawArray.copy right.keys 0 a.length left.keys left.size
    values := RawArray.copy right.values 0 a.length left.values left.size
    keysSize := left.size + a.length }
  let right' : NodePage K V :=
    if a.length = 0 then right
    else { right with
      keys := right.keys.move a.length right.size 0
      values := right.values.move a.length right.size 0
      keysSize := right.size - a.length }
  have hleft : left'.IsLeaf l (c ++ a) n := by
    refine hl.withEntries ?_
    have htake : (RawArray.pair right.keys right.values).toList a.length = a := by
      rw [← RawArray.take_toList _ (not_lt.1 hsub), hr.size_entries, List.take_left]
    rw [RawArray.pair_copy, RawArray.toList_append, hl.size_entries, htake]
  have hright : right'.IsLeaf r b n' := by
    by_cases ha : a.length = 0
    · simp only [right', if_pos ha]
      rw [List.eq_nil_of_length_eq_zero ha] at hr
      exact hr
    · simp only [right', if_neg ha]
      refine hr.withEntries ?_
      rw [RawArray.pair_move, RawArray.toList_move_front, hr.size_entries, List.drop_left]
  refine ⟨right.keys a.length, left', right', ?_, hleft, hright, ?_⟩
  · have hleaf : (!left.isLeaf || !right.isLeaf) = false := by rw [hl.isLeaf, hr.isLeaf]; rfl
    have hmove : right.moveLeftLeaf a.length = pure (right.keys a.length, right') := by
      by_cases ha : a.length = 0 <;> simp [moveLeftLeaf, right', ha, hsub]
    have hid : right'.nodeId = right.nodeId := by rw [hright.nodeId, hr.nodeId]
    intro file
    rw [NodePage.takeFromRightLeaf, hleaf, decide_eq_false hfull, hmove, ← hr.nodeId, ← hl.nodeId]
    rw [← hid]
    rfl
  · intro e rest he
    have hlt : a.length < (a ++ b).length := by rw [he]; simp
    rw [(hr.get hlt).1, List.getElem_append_right le_rfl]
    simp [he]

end LeafTransfer

/-! ## Changing the children of an internal node -/

section InternalUpdate

variable {p : NodePage K V} {id : Int} {ks a b : List K} {cs cl cr : List Int}

/-- New arrays and a new size in an old internal node. -/
theorem IsInternal.withChildren (h : p.IsInternal id ks cs) {keys : RawArray K}
    {children : RawArray Int} {n : Nat} {ks' : List K} {cs' : List Int}
    (hks : keys.toList n = ks') (hcs : children.toList (n + 1) = cs') :
    IsInternal { p with keys := keys, children := children, keysSize := n } id ks' cs' := by
  have hn : n = ks'.length := by rw [← hks, RawArray.length_toList]
  subst hn
  exact ⟨h.header, h.nodeId, h.isLeaf, h.deleted, rfl, hks, hcs⟩

theorem IsInternal.size_keys (h : p.IsInternal id ks cs) : p.keys.toList p.size = ks := by
  rw [h.size_eq, h.keys]

theorem IsInternal.size_children (h : p.IsInternal id ks cs) :
    p.children.toList p.childrenSize = cs := by
  rw [NodePage.childrenSize, h.size_eq, h.children]

/-- A separator and the child to its right are taken out. -/
theorem IsInternal.removeFromInternal {x : K} {y : Int}
    (h : p.IsInternal id (a ++ x :: b) (cl ++ y :: cr)) (hcl : cl.length = a.length + 1)
    :
    ∃ p', (∀ file, p.removeFromInternal a.length file = .ok p' (file.write id p'))
      ∧ p'.IsInternal id (a ++ b) (cl ++ cr) := by
  have hlt : a.length < p.size := by rw [h.size_eq]; simp
  refine ⟨{ p with
    keys := p.keys.move (a.length + 1) p.size a.length
    children := p.children.move (a.length + 2) p.childrenSize (a.length + 1)
    keysSize := p.size - 1 }, ?_, h.withChildren ?_ ?_⟩
  · simp [NodePage.removeFromInternal, h.isLeaf, h.nodeId, not_le.2 hlt]
  · rw [RawArray.toList_erase _ hlt, h.size_keys]
    simp
  · have hlt' : a.length + 1 < p.childrenSize := by rw [NodePage.childrenSize]; omega
    have hsize : p.size - 1 + 1 = p.childrenSize - 1 := by rw [NodePage.childrenSize]; omega
    rw [hsize, RawArray.toList_erase _ hlt', h.size_children, ← hcl]
    simp [List.drop_append]

variable [LinearOrder K] (L : Instantiation K V)

/-- A separator and the child to its right are put behind the separators `a` and their children. -/
theorem IsInternal.insertInInternal (h : p.IsInternal id (a ++ b) (cl ++ cr))
    (hcl : cl.length = a.length + 1) (hlen : (a ++ b).length < L.physKeysInternal) {key : K}
    (ha : ∀ k ∈ a, k < key) (hb : ∀ k ∈ b, key ≤ k) (childId : Int) :
    ∃ p', (∀ file, p.insertInInternal L key childId file = .ok p' (file.write id p'))
      ∧ p'.IsInternal id (a ++ key :: b) (cl ++ childId :: cr) := by
  have hlb : p.lowerBound key = a.length := h.lowerBound rfl ha hb
  have hidx : a.length < L.physKeysInternal := by rw [List.length_append] at hlen; omega
  have hle : a.length ≤ p.size := by rw [h.size_eq]; simp
  refine ⟨{ p with
    keys := (p.keys.moveBackward a.length p.size (p.size + 1)).set a.length key
    children := (p.children.moveBackward (a.length + 1) p.childrenSize
      (p.childrenSize + 1)).set (a.length + 1) childId
    keysSize := p.size + 1 }, ?_, h.withChildren ?_ ?_⟩
  · simp [NodePage.insertInInternal, findKeyIdxToInsert, h.isLeaf, hlb, hidx, h.nodeId]
  · rw [RawArray.toList_insert _ _ hle, h.size_keys]
    simp
  · have hle' : a.length + 1 ≤ p.childrenSize := by rw [NodePage.childrenSize]; omega
    have hsize : p.size + 1 + 1 = p.childrenSize + 1 := rfl
    rw [hsize, RawArray.toList_insert _ _ hle', h.size_children, ← hcl]
    simp

end InternalUpdate

/-! ## Moving children between two internal nodes -/

section InternalTransfer

variable (L : Instantiation K V) {left right : NodePage K V} {l r : Int} {a b c : List K}
  {ca cb cc : List Int} {y : Int}

/-- The children `y :: cb` of the left node go to the front of the right one, with `midKey` behind
    their separators. The left node keeps `y` as well, since its size shrinks by the number of keys
    sent and not by the number of children. -/
theorem IsInternal.sendToRightInternal (hl : left.IsInternal l (a ++ b) (ca ++ y :: cb))
    (hr : right.IsInternal r c cc) (hcb : cb.length = b.length)
    (hlen : cc.length + (b.length + 1) ≤ L.maxChildren) (midKey : K) :
    ∃ mid left' right',
      (∀ file, left.sendToRightInternal L right (b.length + 1) midKey file
        = .ok (mid, left', right') ((file.write r right').write l left'))
      ∧ left'.IsInternal l a (ca ++ [y])
      ∧ right'.IsInternal r (b ++ midKey :: c) (y :: (cb ++ cc))
      ∧ ∀ e rest, b = e :: rest → mid = e := by
  have hsize : left.size = a.length + b.length := by rw [hl.size_eq, List.length_append]
  have hca : ca.length = a.length := by
    have hlen := hl.length_children
    simp only [List.length_append, List.length_cons] at hlen
    omega
  have hroom : ¬ L.maxChildren < right.childrenSize + (b.length + 1) := by
    rw [hr.childrenSize_eq]; omega
  let right' : NodePage K V := { right with
    keys := RawArray.copy left.keys (left.size - b.length) left.size
      ((right.keys.moveBackward 0 right.size (right.size + (b.length + 1))).set b.length midKey) 0
    children := RawArray.copy left.children (left.childrenSize - (b.length + 1)) left.childrenSize
      (right.children.moveBackward 0 right.childrenSize (right.childrenSize + (b.length + 1))) 0
    keysSize := right.size + (b.length + 1) }
  have hchildren : left.childrenSize = a.length + (b.length + 1) := by
    rw [NodePage.childrenSize, hsize]; omega
  have hright : right'.IsInternal r (b ++ midKey :: c) (y :: (cb ++ cc)) := by
    refine hr.withChildren ?_ ?_
    · rw [RawArray.toList_prepend_set _ _ _ (by omega), hl.size_keys, hr.size_keys, hsize]
      simp
    · have hsucc : right.size + (b.length + 1) + 1 = right.childrenSize + (b.length + 1) := by
        rw [NodePage.childrenSize]; omega
      rw [hsucc, RawArray.toList_prepend _ _ (by omega), hl.size_children, hr.size_children,
        hchildren, Nat.add_sub_cancel, ← hca]
      simp
  have hleft : (left.setSize (left.size - b.length)).IsInternal l a (ca ++ [y]) := by
    rw [hsize, Nat.add_sub_cancel]
    refine hl.withChildren ?_ ?_
    · rw [← RawArray.take_toList _ (by rw [hsize]; omega : a.length ≤ left.size), hl.size_keys]
      simp
    · rw [← RawArray.take_toList _ (by rw [hchildren]; omega : a.length + 1 ≤ left.childrenSize),
        hl.size_children, ← hca]
      simp [List.take_append, List.take_of_length_le]
  have hkeep : left.size - b.length = a.length := by omega
  refine ⟨left.keys (left.size - b.length), _, right', ?_, hleft, hright, ?_⟩
  · have hinternal : (left.isLeaf || right.isLeaf) = false := by rw [hl.isLeaf, hr.isLeaf]; rfl
    have hmove : right.moveRightInternal L (b.length + 1) = pure { right with
        keys := right.keys.moveBackward 0 right.size (right.size + (b.length + 1))
        children := right.children.moveBackward 0 right.childrenSize
          (right.childrenSize + (b.length + 1))
        keysSize := right.size + (b.length + 1) } := by
      simp [moveRightInternal, hroom]
    have hsub₁ : b.length ≤ left.size := by omega
    have hsub₂ : b.length + 1 ≤ left.childrenSize := by omega
    intro file
    rw [← hr.nodeId, ← hl.nodeId]
    simp only [NodePage.sendToRightInternal, hinternal, hmove, Prog.throwIf_false, pure_bind,
      Prog.sub_of_le (Nat.le_add_left 1 b.length), Nat.add_sub_cancel, Prog.sub_of_le hsub₁,
      Prog.sub_of_le hsub₂]
    rfl
  · intro e rest he
    have hlt : a.length < (a ++ b).length := by rw [he]; simp
    rw [hkeep, RawArray.get_of_toList hl.keys _ hlt, List.getElem_append_right le_rfl]
    simp [he]

end InternalTransfer

end NodePage

end QuasarDB.Storage
