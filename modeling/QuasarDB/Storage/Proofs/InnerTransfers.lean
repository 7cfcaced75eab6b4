import QuasarDB.Storage.Proofs.InnerRebalancing

set_option autoImplicit false

/-! # What one transfer between internal nodes moves

`send_to_right_internal` and `take_from_right_internal` are asked for a number of children and
change the size of the node they are called on by the number of keys that lie between them, one
less. So a child that is sent is also kept, and a child that is taken is lost, whatever the two
nodes hold. -/

namespace QuasarDB.Storage

open NodePage BStarPlusTree

variable {K V : Type} (L : Instantiation K V)

/-! ## Taking the first children of the right node -/

section Take

variable {left right : NodePage K V} {l r : Int} {a b c : List K} {ca cb cc : List Int} {k : K}
  {y : Int}

/-- The children `ca ++ [y]` leave the right node, with the separators `a` between them and `k`
    behind them. The left node gets `ca` only, since its size grows by the number of keys taken, of
    which `midKey` is the first. -/
theorem NodePage.IsInternal.takeFromRightInternal (hl : left.IsInternal l c cc)
    (hr : right.IsInternal r (a ++ k :: b) (ca ++ y :: cb)) (hca : ca.length = a.length)
    (hlen : cc.length + (a.length + 1) ≤ L.maxChildren) (midKey : K) :
    ∃ left' right',
      (∀ file, left.takeFromRightInternal L right (a.length + 1) midKey file
        = .ok (k, left', right') ((file.write r right').write l left'))
      ∧ left'.IsInternal l (c ++ (midKey :: a).take a.length) (cc ++ ca)
      ∧ right'.IsInternal r b cb := by
  have hroom : ¬ L.maxChildren < left.childrenSize + (a.length + 1) := by
    rw [hl.childrenSize_eq]
    omega
  have hsize : right.size = a.length + (b.length + 1) := by
    rw [hr.size_eq, List.length_append, List.length_cons]
  have hcount : ¬ right.childrenSize < a.length + 1 := by
    rw [NodePage.childrenSize, hsize]
    omega
  let left' : NodePage K V := { left with
    keys := RawArray.copy right.keys 0 a.length (left.keys.set left.size midKey) (left.size + 1)
    children := RawArray.copy right.children 0 (a.length + 1) left.children (left.size + 1)
    keysSize := left.size + a.length }
  let right' : NodePage K V := { right with
    keys := right.keys.move (a.length + 1) right.size 0
    children := right.children.move (a.length + 1) right.childrenSize 0
    keysSize := right.size - (a.length + 1) }
  have hleft : left'.IsInternal l (c ++ (midKey :: a).take a.length) (cc ++ ca) := by
    refine hl.withChildren ?_ ?_
    · -- of the separators `c ++ midKey :: a` in the array the last one is not counted
      have htaken : right.keys.toList a.length = a := by
        rw [← RawArray.take_toList _ (by omega : a.length ≤ right.size), hr.size_keys,
          List.take_left]
      have hmid : (left.keys.set left.size midKey).toList (left.size + 1) = c ++ [midKey] := by
        rw [RawArray.toList_succ, RawArray.set_self, RawArray.toList_set_of_le _ _ le_rfl,
          hl.size_keys]
      rw [← RawArray.take_toList _ (by omega : left.size + a.length ≤ left.size + 1 + a.length),
        RawArray.toList_append, hmid, htaken, hl.size_eq, List.append_assoc, List.singleton_append,
        List.take_length_add_append]
    · have htaken : right.children.toList (a.length + 1) = ca ++ [y] := by
        rw [← RawArray.take_toList _ (not_lt.1 hcount), hr.size_children, ← hca,
          List.take_length_add_append]
        rfl
      have hcc : left.size + a.length + 1 = (cc ++ ca).length := by
        rw [List.length_append, hca, ← hl.childrenSize_eq, NodePage.childrenSize]
        omega
      rw [hcc, ← RawArray.take_toList _ (by rw [← hcc]; omega :
          (cc ++ ca).length ≤ left.size + 1 + (a.length + 1)), RawArray.toList_append,
        ← NodePage.childrenSize, hl.size_children, htaken, ← List.append_assoc, List.take_left]
  have hright : right'.IsInternal r b cb := by
    refine hr.withChildren ?_ ?_
    · rw [RawArray.toList_move_front, hr.size_keys, List.drop_length_add_append]
      rfl
    · have hrest : right.size - (a.length + 1) + 1 = right.childrenSize - (a.length + 1) := by
        rw [NodePage.childrenSize]
        omega
      rw [hrest, RawArray.toList_move_front, hr.size_children, ← hca, List.drop_length_add_append]
      rfl
  refine ⟨left', right', ?_, hleft, hright⟩
  have hinternal : (left.isLeaf || right.isLeaf) = false := by rw [hl.isLeaf, hr.isLeaf]; rfl
  have hkey : right.keys a.length = k := by
    rw [RawArray.get_of_toList hr.keys _ (by simp), List.getElem_append_right le_rfl]
    simp
  have hsub : a.length + 1 ≤ right.size := by omega
  intro file
  rw [← hr.nodeId, ← hl.nodeId, ← hkey]
  simp only [NodePage.takeFromRightInternal, moveLeftInternal, hinternal, hroom, hcount,
    decide_false, Prog.throwIf_false, pure_bind, Prog.sub_of_le (Nat.le_add_left 1 a.length),
    Nat.add_sub_cancel, Prog.sub_of_le hsub]
  rfl

end Take

/-! ## Exactly the requested children -/

/-- What a transfer of `count` children from `giver` to `taker` may be asked for. -/
structure Admitted (giver taker : NodePage K V) (count : Nat) : Prop where
  pos : 1 ≤ count
  rest : count < giver.childrenSize
  room : taker.childrenSize + count ≤ L.maxChildren

/-- The children of two neighbours, and their separators with the one between them, are those of the
    two nodes before. -/
structure SameContents (left right : NodePage K V) (m : K) (left' right' : NodePage K V) (m' : K) :
    Prop where
  children : childIds left' ++ childIds right' = childIds left ++ childIds right
  keys : separators left' ++ [m'] ++ separators right'
    = separators left ++ [m] ++ separators right

/-- `send_to_right_internal` returns, and `count` children have gone from left to right. -/
def SendsExactly (left right : NodePage K V) (count : Nat) (m : K) (file : TreeFile K V) : Prop :=
  ∃ m' left' right' file',
    left.sendToRightInternal L right count m file = .ok (m', left', right') file' ∧
      SameContents left right m left' right' m' ∧
      left'.childrenSize + count = left.childrenSize ∧
      right'.childrenSize = right.childrenSize + count

/-- `take_from_right_internal` returns, and `count` children have gone from right to left. -/
def TakesExactly (left right : NodePage K V) (count : Nat) (m : K) (file : TreeFile K V) : Prop :=
  ∃ m' left' right' file',
    left.takeFromRightInternal L right count m file = .ok (m', left', right') file' ∧
      SameContents left right m left' right' m' ∧
      right'.childrenSize + count = right.childrenSize ∧
      left'.childrenSize = left.childrenSize + count

section

variable {left right : NodePage K V} {l r : Int} {ks ks' : List K} {cs cs' : List Int} {count : Nat}

/-- The child at the seam is on both sides afterwards. -/
theorem sendToRightInternal_doubles (hl : left.IsInternal l ks cs) (hr : right.IsInternal r ks' cs')
    (h : Admitted L left right count) (m : K) (file : TreeFile K V) :
    ∃ m' left' right' file',
      left.sendToRightInternal L right count m file = .ok (m', left', right') file' ∧
        childIds left' = cs.take (cs.length - count + 1) ∧
        childIds right' = cs.drop (cs.length - count) ++ cs' := by
  obtain ⟨hpos, hrest, hroom⟩ := h
  rw [hl.childrenSize_eq] at hrest
  rw [hr.childrenSize_eq] at hroom
  have hlen := hl.length_children
  obtain ⟨a, b, rfl, ha, hb⟩ := exists_split ks (n := ks.length - (count - 1)) (by omega)
  obtain ⟨ca, cb, rfl, hca, hcb⟩ := exists_split cs (n := cs.length - count) (by omega)
  rcases cb with - | ⟨y, cb⟩
  · simp only [List.append_nil, List.length_nil] at hcb hrest
    omega
  simp only [List.length_append, List.length_cons] at hlen ha hb hca hcb hrest
  obtain rfl : count = b.length + 1 := by omega
  obtain ⟨m', left', right', hrun, hleft, hright, -⟩ :=
    hl.sendToRightInternal L hr (by omega) hroom m
  refine ⟨m', left', right', _, hrun file, ?_, ?_⟩
  · rw [hleft.childIds_eq, List.length_append, List.length_cons,
      show ca.length + (cb.length + 1) - (b.length + 1) + 1 = ca.length + 1 by omega,
      List.take_length_add_append]
    rfl
  · rw [hright.childIds_eq, List.length_append, List.length_cons,
      show ca.length + (cb.length + 1) - (b.length + 1) = ca.length by omega, List.drop_left,
      List.cons_append]

/-- The child at the seam is on neither side afterwards. -/
theorem takeFromRightInternal_loses (hl : left.IsInternal l ks cs) (hr : right.IsInternal r ks' cs')
    (h : Admitted L right left count) (m : K) (file : TreeFile K V) :
    ∃ m' left' right' file',
      left.takeFromRightInternal L right count m file = .ok (m', left', right') file' ∧
        childIds left' = cs ++ cs'.take (count - 1) ∧
        childIds right' = cs'.drop count := by
  obtain ⟨hpos, hrest, hroom⟩ := h
  rw [hr.childrenSize_eq] at hrest
  rw [hl.childrenSize_eq] at hroom
  have hlen := hr.length_children
  obtain ⟨a, b, rfl, ha, hb⟩ := exists_split ks' (n := count - 1) (by omega)
  obtain ⟨ca, cb, rfl, hca, hcb⟩ := exists_split cs' (n := count - 1) (by omega)
  simp only [List.length_append] at hlen hb hcb hrest
  rcases b with - | ⟨k, b⟩
  · simp only [List.length_nil] at hb hlen
    omega
  rcases cb with - | ⟨y, cb⟩
  · simp only [List.length_nil] at hcb hrest
    omega
  obtain rfl : count = a.length + 1 := by omega
  have hseam : ca.length = a.length := by omega
  obtain ⟨left', right', hrun, hleft, hright⟩ := hl.takeFromRightInternal L hr hseam hroom m
  refine ⟨k, left', right', _, hrun file, ?_, ?_⟩
  · rw [hleft.childIds_eq, Nat.add_sub_cancel, ← hseam, List.take_left]
  · rw [hright.childIds_eq, ← hseam, List.drop_length_add_append]
    rfl

/-- Both transfers return for everything they may be asked for, and neither ever moves exactly the
    requested children. -/
theorem innerTransfers_never_exact (hl : left.IsInternal l ks cs) (hr : right.IsInternal r ks' cs')
    (count : Nat) (m : K) (file : TreeFile K V) :
    (Admitted L left right count →
      (∃ result file', left.sendToRightInternal L right count m file = .ok result file') ∧
        ¬ SendsExactly L left right count m file) ∧
    (Admitted L right left count →
      (∃ result file', left.takeFromRightInternal L right count m file = .ok result file') ∧
        ¬ TakesExactly L left right count m file) := by
  constructor
  · intro h
    obtain ⟨m', left', right', file', hrun, -⟩ := sendToRightInternal_doubles L hl hr h m file
    refine ⟨⟨_, file', hrun⟩, ?_⟩
    rintro ⟨m₁, left₁, right₁, file₁, hrun₁, -, hgiver, -⟩
    obtain ⟨-, hsize, -⟩ := sendToRightInternal_eq_ok L hrun₁
    rw [NodePage.childrenSize, NodePage.childrenSize] at hgiver
    omega
  · intro h
    obtain ⟨m', left', right', file', hrun, -⟩ := takeFromRightInternal_loses L hl hr h m file
    refine ⟨⟨_, file', hrun⟩, ?_⟩
    rintro ⟨m₁, left₁, right₁, file₁, hrun₁, -, -, htaker⟩
    obtain ⟨-, hsize, -⟩ := takeFromRightInternal_eq_ok L hrun₁
    rw [NodePage.childrenSize, NodePage.childrenSize] at htaker
    omega

end

/-! ## Two neighbours of the small tree -/

theorem isInternal_heightThree :
    ((heightThree 2 3).page 2).IsInternal 2 [10] [4, 5] ∧
      ((heightThree 2 3).page 3).IsInternal 3 [14, 16] [6, 7, 8] :=
  ⟨⟨rfl, rfl, rfl, rfl, rfl, rfl, rfl⟩, ⟨rfl, rfl, rfl, rfl, rfl, rfl, rfl⟩⟩

theorem admitted_heightThree :
    Admitted threeKeyNodes ((heightThree 2 3).page 2) ((heightThree 2 3).page 3) 1 ∧
      Admitted threeKeyNodes ((heightThree 2 3).page 3) ((heightThree 2 3).page 2) 1 :=
  ⟨⟨by decide, by decide, by decide⟩, ⟨by decide, by decide, by decide⟩⟩

theorem innerTransfers_never_exact_heightThree :
    ((∃ result file', ((heightThree 2 3).page 2).sendToRightInternal threeKeyNodes
        ((heightThree 2 3).page 3) 1 12 (heightThree 2 3) = .ok result file') ∧
      ¬ SendsExactly threeKeyNodes ((heightThree 2 3).page 2) ((heightThree 2 3).page 3) 1 12
        (heightThree 2 3)) ∧
    ((∃ result file', ((heightThree 2 3).page 2).takeFromRightInternal threeKeyNodes
        ((heightThree 2 3).page 3) 1 12 (heightThree 2 3) = .ok result file') ∧
      ¬ TakesExactly threeKeyNodes ((heightThree 2 3).page 2) ((heightThree 2 3).page 3) 1 12
        (heightThree 2 3)) := by
  obtain ⟨hsend, htake⟩ := innerTransfers_never_exact threeKeyNodes isInternal_heightThree.1
    isInternal_heightThree.2 1 12 (heightThree 2 3)
  exact ⟨hsend admitted_heightThree.1, htake admitted_heightThree.2⟩

/-- One child is asked for: child 5 is sent and kept, or child 6 is taken and lost. -/
theorem innerTransfers_inexact :
    (Admitted threeKeyNodes ((heightThree 2 3).page 2) ((heightThree 2 3).page 3) 1 ∧
      (∃ m' left' right' file', ((heightThree 2 3).page 2).sendToRightInternal threeKeyNodes
        ((heightThree 2 3).page 3) 1 12 (heightThree 2 3) = .ok (m', left', right') file' ∧
        childIds left' ++ childIds right' = [4, 5, 5, 6, 7, 8]) ∧
      ¬ SendsExactly threeKeyNodes ((heightThree 2 3).page 2) ((heightThree 2 3).page 3) 1 12
        (heightThree 2 3)) ∧
    (Admitted threeKeyNodes ((heightThree 2 3).page 3) ((heightThree 2 3).page 2) 1 ∧
      (∃ m' left' right' file', ((heightThree 2 3).page 2).takeFromRightInternal threeKeyNodes
        ((heightThree 2 3).page 3) 1 12 (heightThree 2 3) = .ok (m', left', right') file' ∧
        childIds left' ++ childIds right' = [4, 5, 7, 8]) ∧
      ¬ TakesExactly threeKeyNodes ((heightThree 2 3).page 2) ((heightThree 2 3).page 3) 1 12
        (heightThree 2 3)) := by
  constructor
  · refine ⟨admitted_heightThree.1, ⟨_, _, _, _, rfl, by decide⟩, ?_⟩
    rintro ⟨m', left', right', file', hrun, -, hgiver, -⟩
    cases hrun
    revert hgiver
    decide
  · refine ⟨admitted_heightThree.2, ⟨_, _, _, _, rfl, by decide⟩, ?_⟩
    rintro ⟨m', left', right', file', hrun, -, -, htaker⟩
    cases hrun
    revert htaker
    decide

end QuasarDB.Storage
