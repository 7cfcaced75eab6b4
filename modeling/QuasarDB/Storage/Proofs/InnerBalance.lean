import QuasarDB.Storage.Proofs.RootSplit

set_option autoImplicit false

/-! # What moving children between internal nodes does to their number

A transfer of `n` children moves `n - 1` keys, but the sizes of the two nodes change by `n - 1` and by
`n`: `send_to_right_internal` keeps one child that it also gives away, and `take_from_right_internal`
loses one. Here a successful step is taken apart into the pages it wrote and their sizes. -/

namespace QuasarDB.Storage

open NodePage BStarPlusTree

variable {K V : Type}

/-! ## Children and keys below a node -/

/-- The live children of an internal node. -/
def childIds (p : NodePage K V) : List Int := p.children.toList p.childrenSize

/-- The live keys of an internal node. -/
def separators (p : NodePage K V) : List K := p.keys.toList p.size

/-- Lists with the elements of another list between them. -/
def interleave {α : Type} : List (List α) → List α → List α
  | c :: cs, s :: ss => c ++ s :: interleave cs ss
  | cs, _ => cs.flatten

/-- The children of the children of a page, from left to right. -/
def grandchildren (file : TreeFile K V) (parentId : Int) : List Int :=
  (childIds (file.page parentId)).flatMap fun id => childIds (file.page id)

/-- The keys of the children of a page, with its separators between them. -/
def levelKeys (file : TreeFile K V) (parentId : Int) : List K :=
  interleave ((childIds (file.page parentId)).map fun id => separators (file.page id))
    (separators (file.page parentId))

/-- How many children the pages `ids` have. -/
def fanOut (file : TreeFile K V) (ids : List Int) : Nat :=
  (ids.map fun id => (file.page id).childrenSize).sum

@[simp] theorem length_childIds (p : NodePage K V) : (childIds p).length = p.childrenSize :=
  RawArray.length_toList _ _

theorem NodePage.IsInternal.childIds_eq {p : NodePage K V} {id : Int} {ks : List K} {cs : List Int}
    (h : p.IsInternal id ks cs) : childIds p = cs :=
  h.size_children

theorem length_grandchildren (file : TreeFile K V) (parentId : Int) :
    (grandchildren file parentId).length = fanOut file (childIds (file.page parentId)) := by
  simp [grandchildren, fanOut, List.length_flatMap]

@[simp] theorem fanOut_nil (file : TreeFile K V) : fanOut file [] = 0 := rfl

@[simp] theorem fanOut_cons (file : TreeFile K V) (id : Int) (ids : List Int) :
    fanOut file (id :: ids) = (file.page id).childrenSize + fanOut file ids := rfl

theorem fanOut_congr {file file' : TreeFile K V} {ids : List Int}
    (h : ∀ id ∈ ids, file'.page id = file.page id) : fanOut file' ids = fanOut file ids := by
  rw [fanOut, fanOut, List.map_congr_left fun id hid => by rw [h id hid]]

theorem fanOut_perm {file : TreeFile K V} {ids ids' : List Int} (h : ids.Perm ids') :
    fanOut file ids = fanOut file ids' :=
  (h.map _).sum_eq

theorem fanOut_write_of_not_mem {file : TreeFile K V} {ids : List Int} {id : Int}
    {p : NodePage K V} (hid : id ∉ ids) : fanOut (file.write id p) ids = fanOut file ids :=
  fanOut_congr fun _ hi => TreeFile.write_page_ne _ _ _ fun he => hid (he ▸ hi)

/-- Writing one page exchanges its number of children. -/
theorem fanOut_write {file : TreeFile K V} {id : Int} {p : NodePage K V} :
    ∀ {ids : List Int}, ids.Nodup → id ∈ ids →
      fanOut (file.write id p) ids + (file.page id).childrenSize = fanOut file ids + p.childrenSize
  | [], _, hid => by cases hid
  | i :: ids, hnodup, hid => by
      obtain ⟨hi, hnodup⟩ := List.nodup_cons.1 hnodup
      rw [fanOut_cons, fanOut_cons]
      by_cases hii : id = i
      · subst hii
        rw [fanOut_write_of_not_mem hi, TreeFile.write_page_self]
        omega
      · have hmem : id ∈ ids := (List.mem_cons.1 hid).resolve_left hii
        have h := @fanOut_write file _ p _ hnodup hmem
        rw [TreeFile.write_page_ne _ _ _ (Ne.symm hii)]
        omega

/-! ## Steps that succeed -/

variable [LinearOrder K] (L : Instantiation K V)

section Steps

variable {file file' : TreeFile K V} {left right left' right' parent parent' p : NodePage K V}
  {mid key : K} {count i : Nat} {id : Int}

omit [LinearOrder K] in
theorem openChild_eq_ok (h : openChild parent i file = .ok p file') :
    file' = file ∧ i < parent.childrenSize ∧ p = file.page (parent.children i) := by
  rw [openChild] at h
  obtain ⟨childId, file₁, hchild, hopen⟩ := Prog.bind_eq_ok.1 h
  obtain ⟨_, file₂, hleaf, hchild₁⟩ := Prog.bind_eq_ok.1 hchild
  obtain ⟨_, file₃, hindex, hchild₂⟩ := Prog.bind_eq_ok.1 hchild₁
  obtain ⟨-, rfl⟩ := Prog.throwIf_eq_ok.1 hleaf
  obtain ⟨hi, rfl⟩ := Prog.assert_eq_ok.1 hindex
  obtain ⟨rfl, rfl⟩ := Prog.pure_eq_ok.1 hchild₂
  obtain ⟨rfl, rfl, -⟩ := openNode_eq_ok hopen
  exact ⟨rfl, by simpa using hi, rfl⟩

omit [LinearOrder K] in
theorem openSibling_eq_ok {exists_ : Bool} {sibling : Option (NodePage K V)}
    (h : openSibling exists_ parent i file = .ok sibling file') :
    file' = file ∧ ∀ p, sibling = some p →
      exists_ = true ∧ i < parent.childrenSize ∧ p = file.page (parent.children i) := by
  rw [openSibling] at h
  by_cases he : exists_ = true
  · rw [if_pos he] at h
    obtain ⟨q, file₁, hopen, h₁⟩ := Prog.bind_eq_ok.1 h
    obtain ⟨rfl, rfl⟩ := Prog.pure_eq_ok.1 h₁
    obtain ⟨rfl, hi, rfl⟩ := openChild_eq_ok hopen
    refine ⟨rfl, fun p hp => ⟨he, hi, ?_⟩⟩
    exact (Option.some.inj hp).symm
  · rw [if_neg he] at h
    obtain ⟨rfl, rfl⟩ := Prog.pure_eq_ok.1 h
    exact ⟨rfl, fun p hp => absurd hp (by simp)⟩

omit [LinearOrder K] in
theorem getKey_eq_ok (h : parent.getKey i file = .ok key file') : file' = file := by
  rw [getKey] at h
  obtain ⟨_, file₁, hi, h₁⟩ := Prog.bind_eq_ok.1 h
  obtain ⟨-, rfl⟩ := Prog.assert_eq_ok.1 hi
  exact (Prog.pure_eq_ok.1 h₁).2

omit [LinearOrder K] in
theorem rootId_eq_ok {root : Int} (h : rootId file = .ok root file') :
    file' = file ∧ root = file.rootId := by
  cases h
  exact ⟨rfl, rfl⟩

/-- A node was written over the page of `p` and keeps its place and its children. -/
structure KeysWritten (file file' : TreeFile K V) (p p' : NodePage K V) : Prop where
  file_eq : file' = file.write p.nodeId p'
  nodeId : p'.nodeId = p.nodeId
  children : childIds p' = childIds p
  deleted : p'.deleted = p.deleted
  isLeaf : p'.isLeaf = p.isLeaf
  size : p'.size = p.size

omit [LinearOrder K] in
theorem setKey_eq_ok (h : parent.setKey key i file = .ok parent' file') :
    KeysWritten file file' parent parent' := by
  rw [setKey] at h
  obtain ⟨_, file₁, hi, h₁⟩ := Prog.bind_eq_ok.1 h
  obtain ⟨_, file₂, hsave, h₂⟩ := Prog.bind_eq_ok.1 h₁
  obtain ⟨-, rfl⟩ := Prog.throwIf_eq_ok.1 hi
  obtain ⟨rfl, rfl⟩ := Prog.pure_eq_ok.1 h₂
  rw [run_saveToDisk] at hsave
  cases hsave
  exact ⟨rfl, rfl, rfl, rfl, rfl, rfl⟩

/-- The new child is inserted somewhere. -/
theorem insertInInternal_eq_ok {c : Int} (h : parent.insertInInternal L key c file = .ok parent' file') :
    file' = file.write parent.nodeId parent' ∧ (childIds parent').Perm (c :: childIds parent) ∧
      parent'.size = parent.size + 1 ∧ parent'.isLeaf = parent.isLeaf ∧
      parent'.deleted = parent.deleted := by
  rw [insertInInternal] at h
  obtain ⟨_, file₁, hleaf, h₁⟩ := Prog.bind_eq_ok.1 h
  obtain ⟨index, file₂, hindex, h₂⟩ := Prog.bind_eq_ok.1 h₁
  obtain ⟨_, file₃, hsave, h₃⟩ := Prog.bind_eq_ok.1 h₂
  obtain ⟨rfl, rfl⟩ := Prog.pure_eq_ok.1 h₃
  rw [run_saveToDisk] at hsave
  cases hsave
  obtain ⟨-, rfl⟩ := Prog.throwIf_eq_ok.1 hleaf
  rw [findKeyIdxToInsert] at hindex
  obtain ⟨_, file₄, hroom, h₄⟩ := Prog.bind_eq_ok.1 hindex
  obtain ⟨rfl, rfl⟩ := Prog.pure_eq_ok.1 h₄
  obtain ⟨-, rfl⟩ := Prog.assert_eq_ok.1 hroom
  have hle : parent.lowerBound key + 1 ≤ parent.childrenSize :=
    Nat.succ_le_succ (RawArray.lowerBound_le _ _ _)
  refine ⟨rfl, ?_, rfl, rfl, rfl⟩
  change (((parent.children.moveBackward _ _ _).set _ c).toList (parent.childrenSize + 1)).Perm _
  rw [RawArray.toList_insert _ _ hle]
  refine List.perm_middle.trans ?_
  rw [List.take_append_drop]
  rfl

/-- Two internal nodes were written after children were moved between them. -/
structure Transferred (file file' : TreeFile K V) (left right left' right' : NodePage K V) : Prop where
  file_eq : file' = (file.write right.nodeId right').write left.nodeId left'
  left_nodeId : left'.nodeId = left.nodeId
  right_nodeId : right'.nodeId = right.nodeId
  right_isLeaf : right'.isLeaf = false

omit [LinearOrder K] in
/-- The two nodes end up with one child more than they had. -/
theorem sendToRightInternal_eq_ok
    (h : left.sendToRightInternal L right count key file = .ok (mid, left', right') file') :
    Transferred file file' left right left' right' ∧ left'.size + count = left.size + 1 ∧
      right'.size = right.size + count := by
  rw [sendToRightInternal] at h
  obtain ⟨_, file₁, hleaf, h₁⟩ := Prog.bind_eq_ok.1 h
  obtain ⟨sendKeysCount, file₂, hcount, h₂⟩ := Prog.bind_eq_ok.1 h₁
  obtain ⟨right₁, file₃, hmove, h₃⟩ := Prog.bind_eq_ok.1 h₂
  obtain ⟨keysFrom, file₄, hkeys, h₄⟩ := Prog.bind_eq_ok.1 h₃
  obtain ⟨childrenFrom, file₅, hchildren, h₅⟩ := Prog.bind_eq_ok.1 h₄
  obtain ⟨-, rfl, rfl⟩ := Prog.sub_eq_ok.1 hchildren
  obtain ⟨hkept, rfl, rfl⟩ := Prog.sub_eq_ok.1 hkeys
  obtain ⟨_, file₆, hroom, hmove₁⟩ := Prog.bind_eq_ok.1 hmove
  obtain ⟨rfl, rfl⟩ := Prog.pure_eq_ok.1 hmove₁
  obtain ⟨-, rfl⟩ := Prog.throwIf_eq_ok.1 hroom
  obtain ⟨hpos, rfl, rfl⟩ := Prog.sub_eq_ok.1 hcount
  obtain ⟨hinner, rfl⟩ := Prog.throwIf_eq_ok.1 hleaf
  rw [Prog.bind_ok (run_saveToDisk _ _), Prog.bind_ok (run_saveToDisk _ _), Prog.run_pure] at h₅
  cases h₅
  refine ⟨⟨rfl, rfl, rfl, (Bool.or_eq_false_iff.1 hinner).2⟩, ?_, rfl⟩
  simp only [setSize, size] at hkept ⊢
  omega

omit [LinearOrder K] in
/-- The two nodes end up with one child less than they had. -/
theorem takeFromRightInternal_eq_ok
    (h : left.takeFromRightInternal L right count key file = .ok (mid, left', right') file') :
    Transferred file file' left right left' right' ∧ left'.size + 1 = left.size + count ∧
      right'.size + count = right.size := by
  rw [takeFromRightInternal] at h
  obtain ⟨_, file₁, hleaf, h₁⟩ := Prog.bind_eq_ok.1 h
  obtain ⟨_, file₂, hroom, h₂⟩ := Prog.bind_eq_ok.1 h₁
  obtain ⟨takeKeysCount, file₃, hcount, h₃⟩ := Prog.bind_eq_ok.1 h₂
  obtain ⟨⟨newMidKey, right₁⟩, file₄, hmove, h₄⟩ := Prog.bind_eq_ok.1 h₃
  rw [moveLeftInternal] at hmove
  obtain ⟨_, file₅, hzero, hmove₁⟩ := Prog.bind_eq_ok.1 hmove
  obtain ⟨_, file₆, hmany, hmove₂⟩ := Prog.bind_eq_ok.1 hmove₁
  obtain ⟨newSize, file₇, hsize, hmove₃⟩ := Prog.bind_eq_ok.1 hmove₂
  obtain ⟨hpair, rfl⟩ := Prog.pure_eq_ok.1 hmove₃
  cases hpair
  obtain ⟨hkept, rfl, rfl⟩ := Prog.sub_eq_ok.1 hsize
  obtain ⟨-, rfl⟩ := Prog.throwIf_eq_ok.1 hmany
  obtain ⟨-, rfl⟩ := Prog.throwIf_eq_ok.1 hzero
  obtain ⟨hpos, rfl, rfl⟩ := Prog.sub_eq_ok.1 hcount
  obtain ⟨-, rfl⟩ := Prog.throwIf_eq_ok.1 hroom
  obtain ⟨hinner, rfl⟩ := Prog.throwIf_eq_ok.1 hleaf
  dsimp only at h₄
  rw [Prog.bind_ok (run_saveToDisk _ _), Prog.bind_ok (run_saveToDisk _ _), Prog.run_pure] at h₄
  cases h₄
  refine ⟨⟨rfl, rfl, rfl, (Bool.or_eq_false_iff.1 hinner).2⟩, ?_, ?_⟩
  · simp only [setSize, size]
    omega
  · simp only [size] at hkept ⊢
    omega

namespace Transferred

variable (h : Transferred file file' left right left' right')

include h

omit [LinearOrder K]

theorem page_left : file'.page left.nodeId = left' := by
  rw [h.file_eq, TreeFile.write_page_self]

theorem page_right (hne : left.nodeId ≠ right.nodeId) : file'.page right.nodeId = right' := by
  rw [h.file_eq, TreeFile.write_page_ne _ _ _ hne.symm, TreeFile.write_page_self]

theorem page_ne {j : Int} (hl : j ≠ left.nodeId) (hr : j ≠ right.nodeId) :
    file'.page j = file.page j := by
  rw [h.file_eq, TreeFile.write_page_ne _ _ _ hl, TreeFile.write_page_ne _ _ _ hr]

theorem fanOut_eq {ids : List Int} (hnodup : ids.Nodup) (hl : left.nodeId ∈ ids)
    (hr : right.nodeId ∈ ids) (hne : left.nodeId ≠ right.nodeId)
    (hleft : (file.page left.nodeId).size = left.size)
    (hright : (file.page right.nodeId).size = right.size) :
    fanOut file' ids + (left.size + right.size) = fanOut file ids + (left'.size + right'.size) := by
  have h₁ := @fanOut_write _ _ file _ right' _ hnodup hr
  have h₂ := @fanOut_write _ _ (file.write right.nodeId right') _ left' _ hnodup hl
  rw [TreeFile.write_page_ne _ _ _ hne] at h₂
  rw [h.file_eq]
  simp only [childrenSize] at h₁ h₂
  omega

end Transferred

/-- Three different nodes among the pages `ids`, as they are in the file. -/
structure Neighbours (file : TreeFile K V) (ids : List Int) (left middle right : NodePage K V) :
    Prop where
  nodup : ids.Nodup
  left_mem : left.nodeId ∈ ids
  middle_mem : middle.nodeId ∈ ids
  right_mem : right.nodeId ∈ ids
  left_ne_middle : left.nodeId ≠ middle.nodeId
  middle_ne_right : middle.nodeId ≠ right.nodeId
  left_ne_right : left.nodeId ≠ right.nodeId
  left_size : (file.page left.nodeId).size = left.size
  middle_size : (file.page middle.nodeId).size = middle.size
  right_size : (file.page right.nodeId).size = right.size

namespace Neighbours

variable {ids : List Int} {middle middle' middle'' : NodePage K V} {file₁ : TreeFile K V}

omit [LinearOrder K] in
/-- From the left pair to the right pair. -/
theorem fanOut_rightward (h : Neighbours file ids left middle right)
    (ht : Transferred file file₁ left middle left' middle')
    (ht' : Transferred file₁ file' middle' right middle'' right') :
    fanOut file' ids + (left.size + middle.size + right.size)
      = fanOut file ids + (left'.size + middle''.size + right'.size) := by
  have hid : middle'.nodeId = middle.nodeId := ht.right_nodeId
  have hmiddle : file₁.page middle'.nodeId = middle' := by
    rw [hid, ht.page_right h.left_ne_middle]
  have hright : file₁.page right.nodeId = file.page right.nodeId :=
    ht.page_ne h.left_ne_right.symm h.middle_ne_right.symm
  have hcount := ht.fanOut_eq h.nodup h.left_mem h.middle_mem h.left_ne_middle h.left_size
    h.middle_size
  have hcount' := ht'.fanOut_eq h.nodup (hid ▸ h.middle_mem) h.right_mem (hid ▸ h.middle_ne_right)
    (by rw [hmiddle]) (by rw [hright, h.right_size])
  omega

omit [LinearOrder K] in
/-- From the right pair to the left pair. -/
theorem fanOut_leftward (h : Neighbours file ids left middle right)
    (ht : Transferred file file₁ middle right middle' right')
    (ht' : Transferred file₁ file' left middle' left' middle'') :
    fanOut file' ids + (left.size + middle.size + right.size)
      = fanOut file ids + (left'.size + middle''.size + right'.size) := by
  have hid : middle'.nodeId = middle.nodeId := ht.left_nodeId
  have hmiddle : file₁.page middle'.nodeId = middle' := by
    rw [hid, ht.page_left]
  have hleft : file₁.page left.nodeId = file.page left.nodeId :=
    ht.page_ne h.left_ne_middle h.left_ne_right
  have hcount := ht.fanOut_eq h.nodup h.middle_mem h.right_mem h.middle_ne_right h.middle_size
    h.right_size
  have hcount' := ht'.fanOut_eq h.nodup h.left_mem (hid ▸ h.middle_mem) (hid ▸ h.left_ne_middle)
    (by rw [hleft, h.left_size]) (by rw [hmiddle])
  omega

end Neighbours

end Steps

/-! ## Merges -/

section Merges

variable {file file' : TreeFile K V} {left middle right : NodePage K V} {parentId : Int} {i : Nat}

omit [LinearOrder K] in
/-- The next page of an internal node is asked for. -/
theorem mergeInternal3to2_ne_ok {handle : NodePage K V → TreeM K V Unit} :
    mergeInternal3to2 L handle left middle right parentId i file ≠ .ok () file' := by
  intro hrun
  rw [mergeInternal3to2] at hrun
  obtain ⟨parent, file₁, hopen, h₁⟩ := Prog.bind_eq_ok.1 hrun
  obtain ⟨key₁, file₂, hkey₁, h₂⟩ := Prog.bind_eq_ok.1 h₁
  obtain ⟨key₂, file₃, hkey₂, h₃⟩ := Prog.bind_eq_ok.1 h₂
  obtain ⟨count, file₄, hsub, h₄⟩ := Prog.bind_eq_ok.1 h₃
  obtain ⟨⟨mid, left', middle'⟩, file₅, hmove, h₅⟩ := Prog.bind_eq_ok.1 h₄
  obtain ⟨count', file₆, hsub', h₆⟩ := Prog.bind_eq_ok.1 h₅
  obtain ⟨⟨mid', middle'', right'⟩, file₇, hmove', h₇⟩ := Prog.bind_eq_ok.1 h₆
  obtain ⟨nextId, file₈, hnext, -⟩ := Prog.bind_eq_ok.1 h₇
  rw [getNextId] at hnext
  obtain ⟨_, file₉, hleaf, -⟩ := Prog.bind_eq_ok.1 hnext
  obtain ⟨ht, -⟩ := takeFromRightInternal_eq_ok L hmove'
  rw [ht.right_isLeaf] at hleaf
  cases hleaf

omit [LinearOrder K] in
/-- A node has one key less than it has children, and loses as many as children. -/
theorem mergeInternal2to1_ne_ok :
    mergeInternal2to1 L left right parentId file ≠ .ok () file' := by
  intro hrun
  rw [mergeInternal2to1] at hrun
  obtain ⟨parent, file₁, hopen, h₁⟩ := Prog.bind_eq_ok.1 hrun
  obtain ⟨root, file₂, hroot, h₂⟩ := Prog.bind_eq_ok.1 h₁
  obtain ⟨_, file₃, hassert, h₃⟩ := Prog.bind_eq_ok.1 h₂
  obtain ⟨key, file₄, hkey, h₄⟩ := Prog.bind_eq_ok.1 h₃
  obtain ⟨⟨mid, left', right'⟩, file₅, hmove, -⟩ := Prog.bind_eq_ok.1 h₄
  obtain ⟨-, -, hsize⟩ := takeFromRightInternal_eq_ok L hmove
  rw [childrenSize] at hsize
  omega

end Merges

/-! ## A level of internal nodes -/

/-- An internal node with internal nodes as children. Every page of the file belongs to them, to the
    rest of the tree (`others`) or is deleted. -/
structure InnerLevel (file : TreeFile K V) (parentId : Int) (ks : List K) (cs others : List Int) :
    Prop where
  parentPage : (file.page parentId).IsInternal parentId ks cs
  children : ∀ c ∈ cs, ∃ cks ccs, (file.page c).IsInternal c cks ccs
  owned : PagesOwned file (parentId :: (cs ++ others))

/-- The node is still there, and its children have more or fewer children than before. -/
structure Miscounted (file file' : TreeFile K V) (parentId : Int) : Prop where
  parent : (file'.page parentId).deleted = false
  count : (grandchildren file' parentId).length ≠ (grandchildren file parentId).length

namespace InnerLevel

variable {file file' file₁ : TreeFile K V} {parentId l m r : Int} {ks : List K}
  {cs others : List Int} {p p' left middle right : NodePage K V} {i : Nat}

section

variable (h : InnerLevel file parentId ks cs others)

include h

omit [LinearOrder K]

theorem nodup : cs.Nodup :=
  (List.nodup_append.1 (List.nodup_cons.1 h.owned.nodup).2).1

theorem parent_not_mem : parentId ∉ cs := fun hmem =>
  (List.nodup_cons.1 h.owned.nodup).1 (List.mem_append_left _ hmem)

theorem nodeId (hl : l ∈ cs) : (file.page l).nodeId = l := by
  obtain ⟨cks, ccs, hpage⟩ := h.children l hl
  exact hpage.nodeId

theorem isLeaf (hl : l ∈ cs) : (file.page l).isLeaf = false := by
  obtain ⟨cks, ccs, hpage⟩ := h.children l hl
  exact hpage.isLeaf

/-- The children of the node are counted, and then its own page is written. -/
theorem miscounted (hw : KeysWritten file₁ file' p p') (hid : p.nodeId = parentId)
    (hchildren : childIds p = cs) (hlive : p.deleted = false)
    (hcount : fanOut file₁ cs ≠ fanOut file cs) : Miscounted file file' parentId := by
  have hpage : file'.page parentId = p' := by
    rw [hw.file_eq, hid, TreeFile.write_page_self]
  refine ⟨by rw [hpage, hw.deleted, hlive], ?_⟩
  rw [length_grandchildren, length_grandchildren, hpage, hw.children, hchildren,
    h.parentPage.childIds_eq, hw.file_eq, hid, fanOut_write_of_not_mem h.parent_not_mem]
  exact hcount

end

omit [LinearOrder K] in
/-- Whatever is moved between two children changes the number of grandchildren. -/
theorem miscounted_redistribute₂ (h : InnerLevel file parentId ks cs others) (hl : l ∈ cs)
    (hr : r ∈ cs) (hne : l ≠ r)
    (hmoved : (file.page l).size ≠ ((file.page l).size + (file.page r).size) / 2)
    (hrun : redistributeInternal2to2 L (file.page l) (file.page r) (file.page parentId) i file
      = .ok () file') : Miscounted file file' parentId := by
  have hlid := h.nodeId hl
  have hrid := h.nodeId hr
  rw [redistributeInternal2to2] at hrun
  obtain ⟨oldMidKey, file₁, hkey, h₁⟩ := Prog.bind_eq_ok.1 hrun
  obtain rfl := getKey_eq_ok hkey
  rw [if_neg hmoved] at h₁
  obtain ⟨mid, left', right', file₂, ht, hsize, h₂⟩ : ∃ mid left' right' file₂,
      Transferred file₁ file₂ (file₁.page l) (file₁.page r) left' right' ∧
      left'.size + right'.size ≠ (file₁.page l).size + (file₁.page r).size ∧
      ((file₁.page parentId).setKey mid i >>= fun _ => pure ()) file₂ = .ok () file' := by
    split at h₁
    · obtain ⟨⟨mid, left', right'⟩, file₂, hmove, h₂⟩ := Prog.bind_eq_ok.1 h₁
      obtain ⟨ht, hleft, hright⟩ := sendToRightInternal_eq_ok L hmove
      exact ⟨mid, left', right', file₂, ht, by omega, h₂⟩
    · obtain ⟨⟨mid, left', right'⟩, file₂, hmove, h₂⟩ := Prog.bind_eq_ok.1 h₁
      obtain ⟨ht, hleft, hright⟩ := takeFromRightInternal_eq_ok L hmove
      exact ⟨mid, left', right', file₂, ht, by omega, h₂⟩
  obtain ⟨parent', file₃, hset, h₃⟩ := Prog.bind_eq_ok.1 h₂
  obtain ⟨-, rfl⟩ := Prog.pure_eq_ok.1 h₃
  have hparent := h.parentPage
  refine h.miscounted (setKey_eq_ok hset) hparent.nodeId hparent.childIds_eq hparent.deleted ?_
  have hcount := ht.fanOut_eq h.nodup (by rwa [hlid]) (by rwa [hrid]) (by rwa [hlid, hrid])
    (by rw [hlid]) (by rw [hrid])
  omega

omit [LinearOrder K] in
/-- The two transfers between three neighbours both lose a child, or both give one away twice. -/
theorem miscounted_redistribute₃ (h : InnerLevel file parentId ks cs others) (hl : l ∈ cs)
    (hm : m ∈ cs) (hr : r ∈ cs) (hlm : l ≠ m) (hmr : m ≠ r) (hlr : l ≠ r)
    (hrun : redistributeInternal3to3 L (file.page l) (file.page m) (file.page r)
      (file.page parentId) i file = .ok () file') : Miscounted file file' parentId := by
  have hlid := h.nodeId hl
  have hmid := h.nodeId hm
  have hrid := h.nodeId hr
  have hthree : Neighbours file cs (file.page l) (file.page m) (file.page r) := by
    refine ⟨h.nodup, ?_, ?_, ?_, ?_, ?_, ?_, ?_, ?_, ?_⟩ <;> simp only [hlid, hmid, hrid] <;>
      assumption
  obtain ⟨s1, s2, s3, hthirds, -⟩ := exists_thirds
    ((file.page l).childrenSize + (file.page m).childrenSize + (file.page r).childrenSize)
  rw [redistributeInternal3to3, hthirds] at hrun
  obtain ⟨oldMid1, file₁, hkey₁, h₁⟩ := Prog.bind_eq_ok.1 hrun
  obtain ⟨oldMid2, file₂, hkey₂, h₂⟩ := Prog.bind_eq_ok.1 h₁
  obtain rfl := getKey_eq_ok hkey₂
  obtain rfl := getKey_eq_ok hkey₁
  obtain ⟨mid1, mid2, file₄, hcount, h₄⟩ : ∃ mid1 mid2 file₄,
      fanOut file₄ cs ≠ fanOut file₂ cs ∧
      ((file₂.page parentId).setKey mid1 i >>= fun parent =>
        parent.setKey mid2 (i + 1) >>= fun _ => pure ()) file₄ = .ok () file' := by
    split at h₂
    · obtain ⟨_, file₃, hassert, h₃⟩ := Prog.bind_eq_ok.1 h₂
      obtain ⟨count, file₄, hsub, h₄⟩ := Prog.bind_eq_ok.1 h₃
      obtain ⟨⟨mid1, left', middle'⟩, file₅, hmove, h₅⟩ := Prog.bind_eq_ok.1 h₄
      obtain ⟨count', file₆, hsub', h₆⟩ := Prog.bind_eq_ok.1 h₅
      obtain ⟨⟨mid2, middle'', right'⟩, file₇, hmove', h₇⟩ := Prog.bind_eq_ok.1 h₆
      obtain ⟨-, -, rfl⟩ := Prog.sub_eq_ok.1 hsub'
      obtain ⟨-, -, rfl⟩ := Prog.sub_eq_ok.1 hsub
      obtain ⟨-, rfl⟩ := Prog.assert_eq_ok.1 hassert
      obtain ⟨ht, hleft, hmiddle⟩ := takeFromRightInternal_eq_ok L hmove
      obtain ⟨ht', hmiddle', hright⟩ := takeFromRightInternal_eq_ok L hmove'
      have hcount := hthree.fanOut_rightward ht ht'
      exact ⟨mid1, mid2, file₇, by omega, h₇⟩
    · split at h₂
      · obtain ⟨_, file₃, hassert, h₃⟩ := Prog.bind_eq_ok.1 h₂
        obtain ⟨count, file₄, hsub, h₄⟩ := Prog.bind_eq_ok.1 h₃
        obtain ⟨⟨mid2, middle', right'⟩, file₅, hmove, h₅⟩ := Prog.bind_eq_ok.1 h₄
        obtain ⟨count', file₆, hsub', h₆⟩ := Prog.bind_eq_ok.1 h₅
        obtain ⟨⟨mid1, left', middle''⟩, file₇, hmove', h₇⟩ := Prog.bind_eq_ok.1 h₆
        obtain ⟨-, -, rfl⟩ := Prog.sub_eq_ok.1 hsub'
        obtain ⟨-, -, rfl⟩ := Prog.sub_eq_ok.1 hsub
        obtain ⟨-, rfl⟩ := Prog.assert_eq_ok.1 hassert
        obtain ⟨ht, hmiddle, hright⟩ := sendToRightInternal_eq_ok L hmove
        obtain ⟨ht', hleft, hmiddle'⟩ := sendToRightInternal_eq_ok L hmove'
        have hcount := hthree.fanOut_leftward ht ht'
        exact ⟨mid1, mid2, file₇, by omega, h₇⟩
      · cases h₂
  obtain ⟨parent₁, file₅, hset, h₅⟩ := Prog.bind_eq_ok.1 h₄
  obtain ⟨parent₂, file₆, hset', h₆⟩ := Prog.bind_eq_ok.1 h₅
  obtain ⟨-, rfl⟩ := Prog.pure_eq_ok.1 h₆
  have hparent := h.parentPage
  have hw := setKey_eq_ok hset
  refine h.miscounted (setKey_eq_ok hset') (hw.nodeId.trans hparent.nodeId)
    (hw.children.trans hparent.childIds_eq) (hw.deleted.trans hparent.deleted) ?_
  rwa [hw.file_eq, hparent.nodeId, fanOut_write_of_not_mem h.parent_not_mem]

/-- The two transfers of a split give two children away twice, and the new node keeps the child it
    was made with. -/
theorem miscounted_split (h : InnerLevel file parentId ks cs others) (hl : l ∈ cs) (hr : r ∈ cs)
    (hlr : l ≠ r) (hkeys : ks.length < L.maxKeysInternal) {handle : NodePage K V → TreeM K V Unit}
    (hrun : splitInternal2to3 L handle (file.page l) (file.page r) parentId i file = .ok () file') :
    Miscounted file file' parentId := by
  have hlid := h.nodeId hl
  have hrid := h.nodeId hr
  have hparent := h.parentPage
  obtain ⟨s1, s2, s3, hthirds, -⟩ := exists_thirds
    ((file.page l).childrenSize + (file.page r).childrenSize)
  rw [splitInternal2to3, hthirds] at hrun
  obtain ⟨parent, file₁, hopen, h₁⟩ := Prog.bind_eq_ok.1 hrun
  obtain ⟨rfl, rfl, -⟩ := openNode_eq_ok hopen
  obtain ⟨oldMid1, file₂, hkey₁, h₂⟩ := Prog.bind_eq_ok.1 h₁
  obtain ⟨oldMid2, file₃, hkey₂, h₃⟩ := Prog.bind_eq_ok.1 h₂
  obtain rfl := getKey_eq_ok hkey₂
  obtain rfl := getKey_eq_ok hkey₁
  -- the new node
  obtain ⟨g, stale, hnew, hfresh⟩ := run_newNode L false h.owned
  obtain ⟨child, hn⟩ := isInternal_initNode L g stale
  have hg : g ∉ parentId :: cs := fun hmem =>
    h.owned.not_mem_of_fresh hfresh (List.mem_append_left others hmem)
  have hgcs : g ∉ cs := fun hmem => hg (List.mem_cons_of_mem _ hmem)
  have hgp : parentId ≠ g := fun he => hg (he ▸ List.mem_cons_self)
  rw [Prog.bind_ok hnew] at h₃
  generalize initNode L false g stale = n3 at h₃ hn
  let file₄ := (file₃.reserve g).write g n3
  have hsame : ∀ j, j ≠ g → file₄.page j = file₃.page j := fun j hj => by
    rw [TreeFile.write_page_ne _ _ _ hj, reserve_page]
  have hlg : l ≠ g := fun he => hgcs (he ▸ hl)
  have hrg : r ≠ g := fun he => hgcs (he ▸ hr)
  have hthree : Neighbours file₄ (g :: cs) (file₃.page l) (file₃.page r) n3 := by
    refine ⟨List.nodup_cons.2 ⟨hgcs, h.nodup⟩, ?_, ?_, ?_, ?_, ?_, ?_, ?_, ?_, ?_⟩ <;>
      simp only [hlid, hrid, hn.nodeId, hsame l hlg, hsame r hrg]
    · exact List.mem_cons_of_mem _ hl
    · exact List.mem_cons_of_mem _ hr
    · exact List.mem_cons_self
    · exact hlr
    · exact hrg
    · exact hlg
    · rw [TreeFile.write_page_self]
  obtain ⟨⟨mid2, right', n3'⟩, file₅, hmove, h₅⟩ := Prog.bind_eq_ok.1 h₃
  obtain ⟨count, file₆, hsub, h₆⟩ := Prog.bind_eq_ok.1 h₅
  obtain ⟨-, -, rfl⟩ := Prog.sub_eq_ok.1 hsub
  obtain ⟨⟨mid1, left', right''⟩, file₇, hmove', h₇⟩ := Prog.bind_eq_ok.1 h₆
  obtain ⟨ht, hright, hthird⟩ := sendToRightInternal_eq_ok L hmove
  obtain ⟨ht', hleft, hright'⟩ := sendToRightInternal_eq_ok L hmove'
  have hcount : fanOut file₇ (g :: cs) = fanOut file₃ cs + 3 := by
    have htotal := hthree.fanOut_leftward ht ht'
    have hbefore : fanOut file₄ (g :: cs) = 1 + fanOut file₃ cs := by
      rw [fanOut_cons, fanOut_congr fun j hj => hsame j fun he => hgcs (he ▸ hj),
        TreeFile.write_page_self, hn.childrenSize_eq]
      rfl
    omega
  -- the parent takes the new node and does not overflow
  obtain ⟨parent', file₈, hset, h₈⟩ := Prog.bind_eq_ok.1 h₇
  obtain ⟨parent'', file₉, hins, h₉⟩ := Prog.bind_eq_ok.1 h₈
  have hw := setKey_eq_ok hset
  obtain ⟨rfl, hperm, hsize, hleaf, hlive⟩ := insertInInternal_eq_ok L hins
  have hover : parent''.overflow L = false := by
    rw [overflow, hleaf, hw.isLeaf, hparent.isLeaf, hsize, hw.size, hparent.size_eq]
    simp only [Bool.false_eq_true, if_false, decide_eq_false_iff_not]
    omega
  rw [hover] at h₉
  obtain ⟨-, rfl⟩ := Prog.pure_eq_ok.1 h₉
  have hpid : parent'.nodeId = parentId := hw.nodeId.trans hparent.nodeId
  rw [hw.children, hparent.childIds_eq, ht.right_nodeId, hn.nodeId] at hperm
  have hpage : (file₈.write parent'.nodeId parent'').page parentId = parent'' := by
    rw [hpid, TreeFile.write_page_self]
  refine ⟨by rw [hpage, hlive, hw.deleted, hparent.deleted], ?_⟩
  rw [length_grandchildren, length_grandchildren, hpage, hparent.childIds_eq, fanOut_perm hperm, hpid,
    hw.file_eq, hparent.nodeId]
  have hmem : parentId ∉ g :: cs := by
    rw [List.mem_cons, not_or]
    exact ⟨hgp, h.parent_not_mem⟩
  rw [fanOut_write_of_not_mem hmem, fanOut_write_of_not_mem hmem, hcount]
  omega

end InnerLevel

end QuasarDB.Storage
