import QuasarDB.Storage.Proofs.TreeRuns

set_option autoImplicit false

/-! # Range search

The tree of a file that keeps the representation invariant may have any height. Its order is read off
the integrity check (`Subtree`), the descent is followed through it to one leaf, and from that leaf
on the loop of `rangeSearch` follows the chain. It returns only at a key above the range: the loop
asks for the leaf behind the last one and fails. -/

namespace QuasarDB.Storage

open NodePage BStarPlusTree

variable {K V : Type} [LinearOrder K] [Inhabited K] (L : Instantiation K V)

/-! ## The entries of a page -/

namespace NodePage

/-- The live entries of a leaf. -/
def entries (p : NodePage K V) : List (K × V) := (RawArray.pair p.keys p.values).toList p.size

omit [LinearOrder K] [Inhabited K] in
@[simp] theorem length_entries (p : NodePage K V) : p.entries.length = p.size :=
  RawArray.length_toList _ _

omit [LinearOrder K] [Inhabited K] in
theorem mem_entries {p : NodePage K V} {e : K × V} :
    e ∈ p.entries ↔ ∃ i, i < p.size ∧ (p.keys i, p.values i) = e :=
  RawArray.mem_toList

omit [LinearOrder K] [Inhabited K] in
theorem IsLeaf.entries_eq {p : NodePage K V} {id next : Int} {es : List (K × V)}
    (h : p.IsLeaf id es next) : p.entries = es := by
  rw [NodePage.entries, h.size_eq, h.entries]

omit [LinearOrder K] [Inhabited K] in
/-- A live leaf page under its own id is a leaf with its entries. -/
theorem isLeaf_entries {p : NodePage K V} {id : Int} (hheader : p.header = nodeHeader)
    (hid : p.nodeId = id) (hdeleted : p.deleted = false) (hleaf : p.isLeaf = true) :
    p.IsLeaf id p.entries p.nextLeaf := by
  refine ⟨hheader, hid, hleaf, hdeleted, p.length_entries.symm, rfl, ?_⟩
  rw [length_entries]
  rfl

omit [LinearOrder K] [Inhabited K] in
theorem isInternal_toList {p : NodePage K V} {id : Int} (hheader : p.header = nodeHeader)
    (hid : p.nodeId = id) (hdeleted : p.deleted = false) (hinternal : p.isLeaf = false) :
    p.IsInternal id (p.keys.toList p.size) (p.children.toList (p.size + 1)) := by
  refine ⟨hheader, hid, hinternal, hdeleted, ?_, ?_, ?_⟩
  · rw [RawArray.length_toList]; rfl
  · rw [RawArray.length_toList]
  · rw [RawArray.length_toList]

end NodePage

/-! ## What the integrity check has seen -/

/-- Page `id` is a leaf that can be read, with its keys in order and from `lo` to `hi`. -/
structure LeafBetween (file : TreeFile K V) (id : Int) (lo hi : K) : Prop where
  opens : openNode id file = .ok (file.page id) file
  isLeaf : (file.page id).IsLeaf id (file.page id).entries (file.page id).nextLeaf
  sorted : SortedKeys (file.page id).entries
  nonempty : (file.page id).entries ≠ []
  bounds : ∀ e ∈ (file.page id).entries, lo ≤ e.1 ∧ e.1 ≤ hi

/-- The tree below page `id`, of at most `rounds` levels, is in order: its keys lie from `lo` to `hi`,
    and the separators of each node between the keys of its children. -/
inductive Subtree (file : TreeFile K V) : (rounds : Nat) → (id : Int) → (lo hi : K) → Prop
  | leaf {rounds : Nat} {id : Int} {lo hi : K} (h : LeafBetween file id lo hi) :
      Subtree file (rounds + 1) id lo hi
  | node {rounds : Nat} {id : Int} {ks : List K} {cs : List Int} (low high : Nat → K)
      (hopen : openNode id file = .ok (file.page id) file)
      (hnode : (file.page id).IsInternal id ks cs) (hsorted : ks.Pairwise (· < ·))
      (hchild : ∀ (i : Nat) (h : i < cs.length), Subtree file rounds cs[i] (low i) (high i))
      (hleft : ∀ (i : Nat) (h : i < ks.length), ks[i] ≤ low (i + 1))
      (hright : ∀ (i : Nat) (h : i < ks.length), high i < ks[i]) :
      Subtree file (rounds + 1) id (low 0) (high ks.length)

omit [Inhabited K] in
/-- Neighbouring keys in order are all keys in order. -/
theorem lt_of_all {a : RawArray K} {n i j : Nat}
    (h : ((List.range (n - 1)).all fun i => decide (a i < a (i + 1))) = true) (hij : i < j)
    (hj : j < n) : a i < a j := by
  rw [List.all_eq_true] at h
  induction j with
  | zero => omega
  | succ j ih =>
      have hstep : a j < a (j + 1) := by simpa using h j (List.mem_range.2 (by omega))
      rcases Nat.lt_succ_iff_lt_or_eq.1 hij with hlt | rfl
      · exact (ih hlt (by omega)).trans hstep
      · exact hstep

omit [Inhabited K] in
theorem le_of_all {a : RawArray K} {n i j : Nat}
    (h : ((List.range (n - 1)).all fun i => decide (a i < a (i + 1))) = true) (hij : i ≤ j)
    (hj : j < n) : a i ≤ a j := by
  rcases Nat.lt_or_eq_of_le hij with hlt | rfl
  · exact (lt_of_all h hlt hj).le
  · exact le_rfl

omit [Inhabited K] in
theorem pairwise_of_all {a : RawArray K} {n : Nat}
    (h : ((List.range (n - 1)).all fun i => decide (a i < a (i + 1))) = true) :
    (a.toList n).Pairwise (· < ·) := by
  rw [List.pairwise_iff_getElem]
  intro i j hi hj hij
  rw [RawArray.length_toList] at hj
  rw [RawArray.getElem_toList, RawArray.getElem_toList]
  exact lt_of_all h hij hj

section Check

variable {file : TreeFile K V}

omit [Inhabited K] in
/-- One round of the loop over the children that keeps the result true. -/
theorem checkChild_true {check : Int → Bool → TreeM K V (K × K × Bool)} {root : Int}
    {p : NodePage K V} {acc : K × K × Bool} {i : Nat} {lo hi : K} {file' : TreeFile K V}
    (h : checkChild check root p acc i file = .ok (lo, hi, true) file') :
    acc.2.2 = true ∧ ∃ low high, check (p.children i) (p.nodeId == root) file
        = .ok (low, high, true) file' ∧ (i = 0 ∨ p.keys (i - 1) ≤ low)
      ∧ (p.size ≤ i ∨ high < p.keys i) ∧ lo = (if i = 0 then low else acc.1)
      ∧ hi = (if i = p.childrenSize - 1 then high else acc.2.1) := by
  obtain ⟨gmin, gmax, result⟩ := acc
  rw [checkChild] at h
  obtain ⟨childId, file₁, hget, h₁⟩ := Prog.bind_eq_ok.1 h
  obtain ⟨⟨low, high, valid⟩, file₂, hcheck, h₂⟩ := Prog.bind_eq_ok.1 h₁
  rw [getChildId] at hget
  obtain ⟨_, file₃, hinternal, hget₁⟩ := Prog.bind_eq_ok.1 hget
  obtain ⟨_, file₄, hindex, hget₂⟩ := Prog.bind_eq_ok.1 hget₁
  obtain ⟨-, rfl⟩ := Prog.throwIf_eq_ok.1 hinternal
  obtain ⟨-, rfl⟩ := Prog.assert_eq_ok.1 hindex
  obtain ⟨rfl, rfl⟩ := Prog.pure_eq_ok.1 hget₂
  obtain ⟨heq, rfl⟩ := Prog.pure_eq_ok.1 h₂
  simp only [Prod.mk.injEq] at heq
  obtain ⟨rfl, rfl, hall⟩ := heq
  have hall' := hall.symm
  simp only [Bool.and_eq_true, Bool.or_eq_true, beq_iff_eq, decide_eq_true_eq] at hall'
  obtain ⟨⟨⟨hresult, rfl⟩, hleft⟩, hright⟩ := hall'
  exact ⟨hresult, low, high, hcheck, hleft, hright, rfl, rfl⟩

omit [Inhabited K] in
/-- The loop over the first `n` children held no check against them. -/
theorem foldlM_checkChild_true {check : Int → Bool → TreeM K V (K × K × Bool)} {root : Int}
    {p : NodePage K V} {acc : K × K × Bool} {n : Nat} {lo hi : K} {file' : TreeFile K V}
    (hcheck : ∀ id b low high file', check id b file = .ok (low, high, true) file' → file' = file)
    (h : (List.range n).foldlM (checkChild check root p) acc file = .ok (lo, hi, true) file') :
    file' = file ∧ acc.2.2 = true ∧ ∀ i < n, ∃ low high,
      check (p.children i) (p.nodeId == root) file = .ok (low, high, true) file
        ∧ (i = 0 ∨ p.keys (i - 1) ≤ low) ∧ (p.size ≤ i ∨ high < p.keys i)
        ∧ (i = 0 → lo = low) ∧ (i = p.childrenSize - 1 → hi = high) := by
  induction n generalizing lo hi file' with
  | zero =>
      obtain ⟨rfl, rfl⟩ := Prog.pure_eq_ok.1 h
      exact ⟨rfl, rfl, by simp⟩
  | succ n ih =>
      rw [List.range_succ, List.foldlM_append] at h
      obtain ⟨⟨lo₁, hi₁, result⟩, file₁, hfold, hlast⟩ := Prog.bind_eq_ok.1 h
      simp only [List.foldlM_cons, List.foldlM_nil, bind_pure] at hlast
      obtain ⟨rfl, low, high, hchild, hleft, hright, hlo, hhi⟩ := checkChild_true hlast
      obtain ⟨rfl, hacc, hall⟩ := ih hfold
      obtain rfl := hcheck _ _ _ _ _ hchild
      refine ⟨rfl, hacc, fun i hi' => ?_⟩
      rcases Nat.lt_succ_iff_lt_or_eq.1 hi' with hlt | rfl
      · obtain ⟨low', high', hchild', hleft', hright', hlo', hhi'⟩ := hall i hlt
        refine ⟨low', high', hchild', hleft', hright', fun hzero => ?_, fun hlast => ?_⟩
        · rw [hlo, if_neg (by omega)]
          exact hlo' hzero
        · rw [hhi, if_neg (by omega)]
          exact hhi' hlast
      · refine ⟨low, high, hchild, hleft, hright, fun hzero => ?_, fun hlast => ?_⟩
        · rw [hlo, if_pos hzero]
        · rw [hhi, if_pos hlast]

/-- A part of the tree that passes the check is in order. -/
theorem subtree_of_check {rounds : Nat} {id : Int} {isRootChild : Bool} {lo hi : K}
    {file' : TreeFile K V}
    (h : checkNodeIntegrity L rounds id isRootChild file = .ok (lo, hi, true) file') :
    file' = file ∧ Subtree file rounds id lo hi := by
  induction rounds generalizing id isRootChild lo hi file' with
  | zero => exact absurd h (by simp [checkNodeIntegrity])
  | succ rounds ih =>
      rw [checkNodeIntegrity] at h
      obtain ⟨node, file₁, hopen, -⟩ := Prog.bind_eq_ok.1 h
      obtain ⟨hfile, rfl, -, hheader, hid, hdeleted⟩ := openNode_eq_ok hopen
      rw [hfile] at hopen
      rw [Prog.bind_ok hopen, Prog.bind_ok (run_rootId _)] at h
      by_cases hleaf : (file.page id).isLeaf = true
      · simp only [hleaf, if_true] at h
        by_cases hempty : (file.page id).empty = true
        · simp [hempty] at h
        · rw [if_neg hempty] at h
          obtain ⟨heq, rfl⟩ := Prog.pure_eq_ok.1 h
          simp only [Prod.mk.injEq] at heq
          obtain ⟨rfl, rfl, hok⟩ := heq
          obtain ⟨-, hkeys⟩ := (Bool.and_eq_true_iff).1 hok.symm
          have hpos : 0 < (file'.page id).size := by
            rw [NodePage.empty, beq_iff_eq] at hempty
            omega
          have hsorted := pairwise_of_all hkeys
          rw [← RawArray.map_fst_toList_pair _ (file'.page id).values, List.pairwise_map] at hsorted
          refine ⟨rfl, .leaf ⟨hopen, isLeaf_entries hheader hid hdeleted hleaf, hsorted, ?_, ?_⟩⟩
          · rw [← List.length_pos_iff, length_entries]
            exact hpos
          · intro e he
            obtain ⟨i, hi, rfl⟩ := mem_entries.1 he
            exact ⟨le_of_all hkeys (Nat.zero_le i) hi, le_of_all hkeys (by omega) (by omega)⟩
      · rw [if_neg hleaf] at h
        obtain ⟨rfl, hok, hall⟩ := foldlM_checkChild_true
          (fun _ _ _ _ _ hchild => (ih hchild).1) h
        obtain ⟨-, hkeys⟩ := (Bool.and_eq_true_iff).1 hok
        have hnode := isInternal_toList hheader hid hdeleted (by simpa using hleaf)
        choose! low high hchild hleft hright hlo hhi using hall
        have hlast : hi = high ((file'.page id).keys.toList (file'.page id).size).length := by
          rw [RawArray.length_toList]
          exact hhi _ (Nat.lt_succ_self _) rfl
        rw [hlo 0 (Nat.succ_pos _) rfl, hlast]
        refine ⟨rfl, .node low high hopen hnode (pairwise_of_all hkeys) ?_ ?_ ?_⟩
        · intro i hi
          rw [RawArray.getElem_toList]
          rw [RawArray.length_toList] at hi
          exact (ih (hchild i hi)).2
        · intro i hi
          rw [RawArray.getElem_toList]
          rw [RawArray.length_toList] at hi
          exact (hleft (i + 1) (Nat.succ_lt_succ hi)).resolve_left (by omega)
        · intro i hi
          rw [RawArray.getElem_toList]
          rw [RawArray.length_toList] at hi
          exact (hright i (Nat.lt_succ_of_lt hi)).resolve_left (by omega)

end Check

/-! ## The way down to a leaf -/

omit [Inhabited K] in
/-- The bounds of the children increase from left to right. -/
theorem childBounds_mono {ks : List K} {low high : Nat → K}
    (hle : ∀ i ≤ ks.length, low i ≤ high i)
    (hleft : ∀ (i : Nat) (h : i < ks.length), ks[i] ≤ low (i + 1))
    (hright : ∀ (i : Nat) (h : i < ks.length), high i < ks[i]) {i j : Nat} (hij : i ≤ j)
    (hj : j ≤ ks.length) : low i ≤ low j ∧ high i ≤ high j := by
  induction j with
  | zero =>
      obtain rfl : i = 0 := by omega
      exact ⟨le_rfl, le_rfl⟩
  | succ j ih =>
      rcases Nat.lt_or_eq_of_le hij with hlt | rfl
      · obtain ⟨hlow, hhigh⟩ := ih (by omega) (by omega)
        have hstep : high j < low (j + 1) := (hright j hj).trans_le (hleft j hj)
        constructor
        · exact (hlow.trans (hle j (by omega))).trans hstep.le
        · exact (hhigh.trans hstep.le).trans (hle (j + 1) hj)
      · exact ⟨le_rfl, le_rfl⟩

/-- Every key of leaf `l` is below every key of leaf `l'`. -/
def KeysBefore (file : TreeFile K V) (l l' : Int) : Prop :=
  ∀ e ∈ (file.page l).entries, ∀ e' ∈ (file.page l').entries, e.1 < e'.1

namespace Subtree

variable {file : TreeFile K V} {rounds d : Nat} {id l : Int} {lo hi : K}

omit [Inhabited K] in
theorem opens (h : Subtree file rounds id lo hi) :
    openNode id file = .ok (file.page id) file := by
  cases h with
  | leaf h => exact h.opens
  | node low high hopen => exact hopen

omit [Inhabited K] in
theorem le (h : Subtree file rounds id lo hi) : lo ≤ hi := by
  induction h with
  | leaf h =>
      obtain ⟨e, he⟩ := List.exists_mem_of_ne_nil _ h.nonempty
      exact (h.bounds e he).1.trans (h.bounds e he).2
  | node low high hopen hnode hsorted hchild hleft hright ih =>
      have hlen := hnode.length_children
      have hle := fun i hi => ih i (by omega : i < _)
      exact (childBounds_mono (fun i hi => hle i (by omega)) hleft hright (Nat.zero_le _)
        le_rfl).1.trans (hle _ (by omega))

omit [Inhabited K] in
/-- The leaves below a page keep its bounds. -/
theorem leafBelow (h : Subtree file rounds id lo hi) (hl : LeafBelow file id d l) :
    LeafBetween file l lo hi := by
  induction h generalizing d with
  | leaf h =>
      cases hl with
      | here _ => exact h
      | child hinternal _ _ =>
          rw [h.isLeaf.isLeaf] at hinternal
          exact absurd hinternal (by simp)
  | node low high hopen hnode hsorted hchild hleft hright ih =>
      cases hl with
      | here hleaf =>
          rw [hnode.isLeaf] at hleaf
          exact absurd hleaf (by simp)
      | @child _ _ i _ _ hi hrest =>
          rw [hnode.childrenSize_eq] at hi
          rw [hnode.child hi] at hrest
          have hlen := hnode.length_children
          have hle := fun i hi => (hchild i (by omega : i < _)).le
          have hmono := fun i j => @childBounds_mono _ _ _ low high
            (fun i hi => hle i (by omega)) hleft hright i j
          have hbetween := ih i hi hrest
          refine { hbetween with bounds := fun e he => ?_ }
          obtain ⟨hlow, hhigh⟩ := hbetween.bounds e he
          exact ⟨(hmono 0 i (Nat.zero_le i) (by omega)).1.trans hlow,
            hhigh.trans (hmono i _ (by omega) le_rfl).2⟩

omit [Inhabited K] in
/-- The descent ends in a leaf `l`: every other leaf has smaller keys than the one looked for, or
    comes after `l`. -/
theorem run_descend (h : Subtree file rounds id lo hi) (key : K) {fuel : Nat}
    (hfuel : rounds ≤ fuel) (stack : ParentStack) :
    ∃ l d stack', descend key fuel (file.page id) stack file = .ok (file.page l, stack') file
      ∧ LeafBelow file id d l ∧ ∀ d' l', LeafBelow file id d' l' →
        l' = l ∨ (∀ e ∈ (file.page l').entries, e.1 < key) ∨ KeysBefore file l l' := by
  induction h generalizing fuel stack with
  | @leaf rounds id lo hi h =>
      obtain ⟨fuel, rfl⟩ : ∃ n, fuel = n + 1 := ⟨fuel - 1, by omega⟩
      have hleaf := h.isLeaf.isLeaf
      refine ⟨id, 0, stack, by simp [descend, hleaf], .here hleaf, fun d' l' hl' => ?_⟩
      cases hl' with
      | here _ => exact Or.inl rfl
      | child hinternal _ _ =>
          rw [hleaf] at hinternal
          exact absurd hinternal (by simp)
  | @node rounds id ks cs low high hopen hnode hsorted hchild hleft hright ih =>
      obtain ⟨fuel, rfl⟩ : ∃ n, fuel = n + 1 := ⟨fuel - 1, by omega⟩
      have hlen := hnode.length_children
      have hsplit := separatorsUpTo_append ks key
      have hle := congrArg List.length hsplit
      rw [List.length_append] at hle
      have hidx : (file.page id).childIdx key = (separatorsUpTo ks key).length := by
        have hnode' := hnode
        have hsorted' := hsorted
        rw [← hsplit] at hnode' hsorted'
        exact hnode'.childIdx hsorted' (fun k hk => le_of_mem_separatorsUpTo hk)
          fun k hk => lt_of_mem_separatorsAbove hsorted hk
      -- the child that the descent takes, behind the separators up to the key
      generalize hi : (separatorsUpTo ks key).length = i at hidx hle
      have hics : i < cs.length := by omega
      obtain ⟨l, d, stack', hrun, hbelow, hothers⟩ :=
        ih i hics (by omega : rounds ≤ fuel) ((id, i) :: stack)
      refine ⟨l, d + 1, stack', ?_, .child (i := i) hnode.isLeaf ?_ ?_, fun d' l' hl' => ?_⟩
      · have hfind : (file.page id).findChildIdx key file = .ok i file := by
          simp [findChildIdx, hnode.isLeaf, hidx]
        have hopenChild : openChild (file.page id) i file = .ok (file.page cs[i]) file := by
          rw [openChild, Prog.bind_ok (hnode.getChildId hics file)]
          exact (hchild i hics).opens
        rw [descend, if_neg (by simp [hnode.isLeaf]), Prog.bind_ok hfind, Prog.bind_ok hopenChild,
          hnode.nodeId]
        exact hrun
      · rwa [hnode.childrenSize_eq]
      · rwa [hnode.child hics]
      · cases hl' with
        | here hleaf =>
            rw [hnode.isLeaf] at hleaf
            exact absurd hleaf (by simp)
        | @child _ _ j _ _ hj hrest =>
            rw [hnode.childrenSize_eq] at hj
            rw [hnode.child hj] at hrest
            rcases Nat.lt_trichotomy j i with hlt | rfl | hgt
            · -- a child before the one taken
              refine Or.inr (Or.inl fun e he => ?_)
              have hsep : ks[j] ≤ key := by
                have hget : (separatorsUpTo ks key ++ separatorsAbove ks key)[j]? = some ks[j] := by
                  rw [hsplit, List.getElem?_eq_getElem]
                rw [List.getElem?_append_left (by omega)] at hget
                exact le_of_mem_separatorsUpTo (List.mem_of_getElem? hget)
              have hbounds := ((hchild j hj).leafBelow hrest).bounds e he
              exact (hbounds.2.trans_lt (hright j (by omega))).trans_le hsep
            · exact hothers _ _ hrest
            · -- a child behind the one taken
              refine Or.inr (Or.inr fun e he e' he' => ?_)
              have hbounds := ((hchild i hics).leafBelow hbelow).bounds e he
              have hbounds' := ((hchild j hj).leafBelow hrest).bounds e' he'
              have hmono : low (i + 1) ≤ low j :=
                (childBounds_mono (fun i hi => (hchild i (by omega)).le) hleft hright
                  (by omega : i + 1 ≤ j) (by omega)).1
              calc e.1 ≤ high i := hbounds.2
                _ < ks[i] := hright i (by omega)
                _ ≤ low (i + 1) := hleft i (by omega)
                _ ≤ low j := hmono
                _ ≤ e'.1 := hbounds'.1

end Subtree

/-! ## The chain of leaves -/

section Chain

variable {file : TreeFile K V} {l : Int} {ids t z : List Int}

/-- The entries of the leaves `ids` from left to right. -/
def chainEntries (file : TreeFile K V) (ids : List Int) : List (K × V) :=
  ids.flatMap fun l => (file.page l).entries

/-- Leaves that can be read, with their keys in the order of the list. -/
structure SoundChain (file : TreeFile K V) (ids : List Int) : Prop where
  leaves : ∀ l ∈ ids, ∃ lo hi, LeafBetween file l lo hi
  ordered : ids.Pairwise (KeysBefore file)

omit [LinearOrder K] [Inhabited K] in
theorem chainEntries_cons (l : Int) (ids : List Int) :
    chainEntries file (l :: ids) = (file.page l).entries ++ chainEntries file ids :=
  List.flatMap_cons

omit [LinearOrder K] [Inhabited K] in
theorem chainEntries_append (a b : List Int) :
    chainEntries file (a ++ b) = chainEntries file a ++ chainEntries file b :=
  List.flatMap_append

omit [LinearOrder K] [Inhabited K] in
theorem mem_chainEntries {e : K × V} :
    e ∈ chainEntries file ids ↔ ∃ l ∈ ids, e ∈ (file.page l).entries :=
  List.mem_flatMap

omit [Inhabited K] in
theorem SoundChain.suffix (h : SoundChain file (t ++ z)) : SoundChain file z :=
  ⟨fun l hl => h.leaves l (List.mem_append_right t hl), (List.pairwise_append.1 h.ordered).2.1⟩

omit [Inhabited K] in
theorem SoundChain.tail (h : SoundChain file (l :: z)) : SoundChain file z :=
  SoundChain.suffix (t := [l]) h

omit [Inhabited K] in
theorem SoundChain.sorted (h : SoundChain file ids) : SortedKeys (chainEntries file ids) := by
  induction ids with
  | nil => exact SortedKeys.nil
  | cons l ids ih =>
      obtain ⟨lo, hi, hleaf⟩ := h.leaves l List.mem_cons_self
      rw [chainEntries_cons]
      refine SortedKeys.append.2 ⟨hleaf.sorted, ih h.tail, fun x hx y hy => ?_⟩
      obtain ⟨l', hl', hy'⟩ := mem_chainEntries.1 hy
      exact (List.pairwise_cons.1 h.ordered).1 l' hl' x hx y hy'

omit [LinearOrder K] [Inhabited K] in
/-- The chain goes on from each of its leaves. -/
theorem NextLeaves.suffix {id : Int} (h : NextLeaves file id (t ++ l :: z)) :
    NextLeaves file l (l :: z) := by
  induction t generalizing id with
  | nil =>
      cases h with
      | leaf hleaf hrest => exact .leaf hleaf hrest
  | cons x t ih =>
      cases h with
      | leaf hleaf hrest => exact ih hrest

omit [LinearOrder K] [Inhabited K] in
theorem NextLeaves.nextLeaf_eq (h : NextLeaves file l (l :: z)) :
    (file.page l).nextLeaf = z.headD (-1) := by
  cases h with
  | leaf _ hrest =>
      generalize (file.page l).nextLeaf = id at hrest
      cases hrest with
      | done => rfl
      | leaf _ _ => rfl

omit [Inhabited K] in
/-- Leaves that can be read, each once, are no more than the pages of the file. -/
theorem SoundChain.length_le (h : SoundChain file ids) (hnodup : ids.Nodup) :
    ids.length ≤ file.totalPages := by
  have hsub : ids ⊆ (List.range file.totalPages).map Int.ofNat := by
    intro l hl
    obtain ⟨lo, hi, hleaf⟩ := h.leaves l hl
    obtain ⟨-, -, ⟨hlow, hhigh⟩, -⟩ := openNode_eq_ok hleaf.opens
    rw [List.mem_map]
    exact ⟨l.toNat, List.mem_range.2 (by omega), Int.toNat_of_nonneg hlow⟩
  have hlen := (hnodup.subperm hsub).length_le
  rwa [List.length_map, List.length_range] at hlen

end Chain

/-! ## The loops of the range search -/

section Loops

variable {file : TreeFile K V} {low high : K}

/-- The pairs with a key from `low` to `high`. -/
def between (low high : K) (es : List (K × V)) : List (K × V) :=
  es.filter fun e => decide (low ≤ e.1 ∧ e.1 ≤ high)

omit [Inhabited K] in
theorem mem_between {es : List (K × V)} {e : K × V} :
    e ∈ between low high es ↔ e ∈ es ∧ low ≤ e.1 ∧ e.1 ≤ high := by
  rw [between, List.mem_filter, decide_eq_true_iff]

omit [Inhabited K] in
theorem between_append (a b : List (K × V)) :
    between low high (a ++ b) = between low high a ++ between low high b :=
  List.filter_append ..

omit [Inhabited K] in
theorem between_eq_nil {es : List (K × V)} (h : ∀ e ∈ es, e.1 < low ∨ high < e.1) :
    between low high es = [] := by
  rw [List.eq_nil_iff_forall_not_mem]
  intro e he
  obtain ⟨hmem, hlow, hhigh⟩ := mem_between.1 he
  rcases h e hmem with hlt | hlt
  · exact absurd hlow (not_le.2 hlt)
  · exact absurd hhigh (not_le.2 hlt)

omit [Inhabited K] in
/-- Behind a key above `high` nothing of the range follows. -/
theorem between_eq_nil_of_sorted {e : K × V} {es : List (K × V)} (h : SortedKeys (e :: es))
    (he : high < e.1) : between low high (e :: es) = [] := by
  refine between_eq_nil fun x hx => Or.inr ?_
  rcases List.mem_cons.1 hx with rfl | hx'
  · exact he
  · exact he.trans ((SortedKeys.cons.1 h).1 x hx')

omit [Inhabited K] in
/-- The inner loop from the entries `rest` of a leaf on. -/
theorem run_scanLeaf {p : NodePage K V} {id next : Int} {pre rest : List (K × V)}
    (h : p.IsLeaf id (pre ++ rest) next) (hs : SortedKeys rest) (acc : List (K × V)) :
    scanLeaf low high p rest.length pre.length acc file
      = .ok (rest.any fun e => decide (high < e.1), acc ++ between low high rest) file := by
  induction rest generalizing pre acc with
  | nil => simp [scanLeaf, between]
  | cons e rest ih =>
      have hi : pre.length < (pre ++ e :: rest).length := by simp
      have hget := h.get hi
      simp only [List.getElem_append_right le_rfl, Nat.sub_self, List.getElem_cons_zero] at hget
      have hsize : pre.length < p.size := by rw [h.size_eq]; exact hi
      have hkey : p.getKey pre.length file = .ok e.1 file := by
        simp [getKey, hsize, hget.1]
      have hvalue : p.getValue pre.length file = .ok e.2 file := by
        simp [getValue, h.isLeaf, hsize, hget.2]
      have h' : p.IsLeaf id ((pre ++ [e]) ++ rest) next := by
        rw [List.append_assoc]; exact h
      have hrec := fun acc => ih h' (SortedKeys.cons.1 hs).2 acc
      rw [List.length_append, List.length_singleton] at hrec
      rw [List.length_cons, scanLeaf, Prog.bind_ok hkey]
      by_cases habove : high < e.1
      · rw [if_pos habove, between_eq_nil_of_sorted hs habove]
        simp [habove]
      · rw [if_neg habove]
        by_cases hlow : low ≤ e.1
        · rw [if_pos hlow, Prog.bind_ok hvalue, hrec]
          have hfilter : between low high (e :: rest) = e :: between low high rest :=
            List.filter_cons_of_pos (by simpa [hlow] using habove)
          simp [hfilter, habove]
        · rw [if_neg hlow, hrec]
          have hfilter : between low high (e :: rest) = between low high rest :=
            List.filter_cons_of_neg (by simp [hlow])
          simp [hfilter, habove]

omit [Inhabited K] in
theorem LeafBetween.scanLeaf {l : Int} {lo hi : K} (h : LeafBetween file l lo hi)
    (acc : List (K × V)) :
    BStarPlusTree.scanLeaf low high (file.page l) (file.page l).size 0 acc file
      = .ok ((file.page l).entries.any fun e => decide (high < e.1),
          acc ++ between low high (file.page l).entries) file := by
  have hleaf : (file.page l).IsLeaf l ([] ++ (file.page l).entries) (file.page l).nextLeaf :=
    h.isLeaf
  have hscan := @run_scanLeaf _ _ _ file low high _ _ _ _ _ hleaf h.sorted acc
  rwa [length_entries] at hscan

omit [Inhabited K] in
/-- A round that meets a key above the range is the last one. -/
theorem rangeFrom_stop {l : Int} {lo hi : K} (h : LeafBetween file l lo hi)
    (habove : ∃ e ∈ (file.page l).entries, high < e.1) (fuel : Nat) (acc : List (K × V)) :
    rangeFrom low high (fuel + 1) (file.page l) acc file
      = .ok (acc ++ between low high (file.page l).entries) file := by
  have hany : ((file.page l).entries.any fun e => decide (high < e.1)) = true := by
    simpa [List.any_eq_true] using habove
  rw [rangeFrom, Prog.bind_ok (h.scanLeaf acc), hany]
  rfl

omit [Inhabited K] in
/-- A round that meets none asks for the next leaf. -/
theorem rangeFrom_next {l : Int} {lo hi : K} (h : LeafBetween file l lo hi)
    (hnone : ∀ e ∈ (file.page l).entries, e.1 ≤ high) (fuel : Nat) (acc : List (K × V)) :
    rangeFrom low high (fuel + 1) (file.page l) acc file
      = (openNode (file.page l).nextLeaf >>= fun next =>
          rangeFrom low high fuel next (acc ++ between low high (file.page l).entries)) file := by
  have hany : ((file.page l).entries.any fun e => decide (high < e.1)) = false := by
    simpa [List.any_eq_false] using hnone
  rw [rangeFrom, Prog.bind_ok (h.scanLeaf acc), hany]
  exact Prog.bind_ok (h.isLeaf.getNextId file)

omit [Inhabited K] in
/-- The loop returns the pairs of the range if there is a key above it. -/
theorem run_rangeFrom {l : Int} {z : List Int} (hnext : NextLeaves file l (l :: z))
    (h : SoundChain file (l :: z)) {fuel : Nat} (hfuel : z.length < fuel) (acc : List (K × V))
    (habove : ∃ e ∈ chainEntries file (l :: z), high < e.1) :
    rangeFrom low high fuel (file.page l) acc file
      = .ok (acc ++ between low high (chainEntries file (l :: z))) file := by
  induction z generalizing l fuel acc with
  | nil =>
      obtain ⟨fuel, rfl⟩ : ∃ n, fuel = n + 1 := ⟨fuel - 1, by omega⟩
      obtain ⟨lo, hi, hleaf⟩ := h.leaves l List.mem_cons_self
      have hone : chainEntries file [l] = (file.page l).entries := List.flatMap_singleton _ _
      rw [hone] at habove ⊢
      exact rangeFrom_stop hleaf habove fuel acc
  | cons l' z ih =>
      obtain ⟨fuel, rfl⟩ : ∃ n, fuel = n + 1 := ⟨fuel - 1, by omega⟩
      obtain ⟨lo, hi, hleaf⟩ := h.leaves l List.mem_cons_self
      rw [chainEntries_cons, between_append]
      by_cases hstop : ∃ e ∈ (file.page l).entries, high < e.1
      · -- the keys of the leaves behind are above the range, too
        obtain ⟨e, he, hlt⟩ := hstop
        have hrest : between low high (chainEntries file (l' :: z)) = [] := by
          refine between_eq_nil fun x hx => Or.inr (hlt.trans ?_)
          have hsorted := h.sorted
          rw [chainEntries_cons] at hsorted
          exact (SortedKeys.append.1 hsorted).2.2 e he x hx
        rw [hrest, List.append_nil]
        exact rangeFrom_stop hleaf ⟨e, he, hlt⟩ fuel acc
      · have hnone : ∀ e ∈ (file.page l).entries, e.1 ≤ high := by
          intro e he
          by_contra hlt
          exact hstop ⟨e, he, not_le.1 hlt⟩
        have habove' : ∃ e ∈ chainEntries file (l' :: z), high < e.1 := by
          obtain ⟨e, he, hlt⟩ := habove
          rw [chainEntries_cons] at he
          rcases List.mem_append.1 he with he' | he'
          · exact absurd hlt (not_lt.2 (hnone e he'))
          · exact ⟨e, he', hlt⟩
        obtain ⟨lo', hi', hleaf'⟩ := h.leaves l' (by simp)
        rw [rangeFrom_next hleaf hnone, hnext.nextLeaf_eq, List.headD_cons,
          Prog.bind_ok hleaf'.opens,
          ih (NextLeaves.suffix (t := [l]) hnext) h.tail (by rw [List.length_cons] at hfuel; omega) _
            habove', List.append_assoc]

omit [Inhabited K] in
/-- Without one it goes past the last leaf and fails. -/
theorem run_rangeFrom_end {l : Int} {z : List Int} (hnext : NextLeaves file l (l :: z))
    (h : SoundChain file (l :: z)) {fuel : Nat} (hfuel : z.length < fuel) (acc : List (K × V))
    (hnone : ∀ e ∈ chainEntries file (l :: z), e.1 ≤ high) :
    rangeFrom low high fuel (file.page l) acc file
      = .error (.exception "Failed to read complete page 4294967295") file := by
  induction z generalizing l fuel acc with
  | nil =>
      obtain ⟨fuel, rfl⟩ : ∃ n, fuel = n + 1 := ⟨fuel - 1, by omega⟩
      obtain ⟨lo, hi, hleaf⟩ := h.leaves l List.mem_cons_self
      rw [rangeFrom_next hleaf (fun e he => hnone e (by rw [chainEntries_cons]; simp [he])),
        hnext.nextLeaf_eq]
      exact Prog.bind_error rfl
  | cons l' z ih =>
      obtain ⟨fuel, rfl⟩ : ∃ n, fuel = n + 1 := ⟨fuel - 1, by omega⟩
      obtain ⟨lo, hi, hleaf⟩ := h.leaves l List.mem_cons_self
      obtain ⟨lo', hi', hleaf'⟩ := h.leaves l' (by simp)
      rw [chainEntries_cons] at hnone
      rw [rangeFrom_next hleaf (fun e he => hnone e (List.mem_append_left _ he)),
        hnext.nextLeaf_eq, List.headD_cons, Prog.bind_ok hleaf'.opens]
      exact ih (NextLeaves.suffix (t := [l]) hnext) h.tail
        (by rw [List.length_cons] at hfuel; omega) _
        fun e he => hnone e (List.mem_append_right _ he)

end Loops

/-! ## Range search on a well represented tree -/

section RangeSearch

variable {file : TreeFile K V} {low high : K}

/-- The tree of the file holds this pair. -/
def HasEntry (file : TreeFile K V) (e : K × V) : Prop :=
  file.rootId ≠ -1 ∧ ∃ d l, LeafBelow file file.rootId d l ∧ e ∈ (file.page l).entries

/-- `rangeSearch` raises nothing and returns exactly the pairs of the range, in increasing key
    order. -/
def RangeExact (file : TreeFile K V) (low high : K) : Prop :=
  ∃ es, rangeSearch low high file = .ok es file ∧ SortedKeys es
    ∧ ∀ e, e ∈ es ↔ HasEntry file e ∧ low ≤ e.1 ∧ e.1 ≤ high

/-- A tree with a root is in order below it. -/
theorem WellRepresented.subtree (h : WellRepresented L file) (hroot : file.rootId ≠ -1) :
    ∃ lo hi, Subtree file file.totalPages file.rootId lo hi := by
  have hcheck := h.integrity
  rw [checkIntegrity, Prog.run_get_bind, if_neg hroot] at hcheck
  obtain ⟨⟨lo, hi, valid⟩, file', hnode, hvalid⟩ := Prog.bind_eq_ok.1 hcheck
  obtain ⟨rfl, rfl⟩ := Prog.pure_eq_ok.1 hvalid
  obtain ⟨-, hsub⟩ := subtree_of_check L hnode
  exact ⟨lo, hi, hsub⟩

/-- The leaf `findLeaf` ends in, and the leaves before and behind it in the chain: those before it have keys
    below the one looked for. -/
theorem WellRepresented.findLeaf (h : WellRepresented L file) (hroot : file.rootId ≠ -1) (key : K) :
    ∃ l t z stack, BStarPlusTree.findLeaf key file = .ok (some (file.page l), stack) file
      ∧ NextLeaves file l (l :: z) ∧ SoundChain file (t ++ l :: z)
      ∧ (∀ e, HasEntry file e ↔ e ∈ chainEntries file (t ++ l :: z))
      ∧ (∀ e ∈ chainEntries file t, e.1 < key) ∧ z.length < file.totalPages := by
  obtain ⟨lo, hi, hsub⟩ := h.subtree L hroot
  obtain ⟨ids, hnext, hnodup, hmem, hpairs⟩ := h.chain
  have hchain : SoundChain file ids := by
    refine ⟨fun l hl => ?_, ?_⟩
    · obtain ⟨-, d, hbelow⟩ := (hmem l).1 hl
      exact ⟨lo, hi, hsub.leafBelow hbelow⟩
    · refine hpairs.imp fun {l r} hlt e he e' he' => ?_
      obtain ⟨i, hi, rfl⟩ := mem_entries.1 he
      obtain ⟨j, hj, rfl⟩ := mem_entries.1 he'
      exact hlt i hi j hj
  obtain ⟨l, d, stack, hrun, hbelow, hothers⟩ :=
    hsub.run_descend key (Nat.le_succ _) ([] : ParentStack)
  have hl : l ∈ ids := (hmem l).2 ⟨hroot, d, hbelow⟩
  have hentry : ∀ e, HasEntry file e ↔ e ∈ chainEntries file ids := by
    intro e
    rw [mem_chainEntries]
    constructor
    · rintro ⟨-, d, l, hbelow, he⟩
      exact ⟨l, (hmem l).2 ⟨hroot, d, hbelow⟩, he⟩
    · rintro ⟨l, hl, he⟩
      obtain ⟨-, d, hbelow⟩ := (hmem l).1 hl
      exact ⟨hroot, d, l, hbelow, he⟩
  obtain ⟨t, z, rfl⟩ := List.append_of_mem hl
  refine ⟨l, t, z, stack, ?_, hnext.suffix, hchain, hentry, ?_, ?_⟩
  · rw [BStarPlusTree.findLeaf, Prog.run_get_bind, if_neg hroot, Prog.bind_ok hsub.opens,
      Prog.bind_ok hrun]
    rfl
  · intro e he
    obtain ⟨l', hl', he'⟩ := mem_chainEntries.1 he
    obtain ⟨-, d', hbelow'⟩ := (hmem l').1 (List.mem_append_left _ hl')
    -- a leaf before `l` in the chain does not come after it in the tree
    have hbefore : KeysBefore file l' l :=
      (List.pairwise_append.1 hchain.ordered).2.2 l' hl' l List.mem_cons_self
    rcases hothers d' l' hbelow' with rfl | hless | hafter
    · exact absurd (hbefore e he' e he') (lt_irrefl _)
    · exact hless e he'
    · obtain ⟨x, hx⟩ := List.exists_mem_of_ne_nil _ (hsub.leafBelow hbelow).nonempty
      exact absurd ((hbefore e he' x hx).trans (hafter x hx e he')) (lt_irrefl _)
  · have hlen := hchain.length_le hnodup
    rw [List.length_append, List.length_cons] at hlen
    omega

/-- A range below some key of the tree is found. -/
theorem WellRepresented.rangeExact (h : WellRepresented L file)
    (habove : ∃ e, HasEntry file e ∧ high < e.1) : RangeExact file low high := by
  obtain ⟨e, he, hlt⟩ := habove
  obtain ⟨l, t, z, stack, hfind, hnext, hchain, hentry, hbefore, hlen⟩ := h.findLeaf L he.1 low
  rw [hentry, chainEntries_append] at he
  have habove : ∃ e ∈ chainEntries file (l :: z), high < e.1 := by
    rcases List.mem_append.1 he with he' | he'
    · -- the keys of `l` are above that of a leaf before it
      obtain ⟨lo, hi, hleaf⟩ := hchain.leaves l (by simp)
      obtain ⟨x, hx⟩ := List.exists_mem_of_ne_nil _ hleaf.nonempty
      have hsorted := hchain.sorted
      rw [chainEntries_append] at hsorted
      have hmem : x ∈ chainEntries file (l :: z) := by
        rw [chainEntries_cons]
        exact List.mem_append_left _ hx
      exact ⟨x, hmem, hlt.trans ((SortedKeys.append.1 hsorted).2.2 e he' x hmem)⟩
    · exact ⟨e, he', hlt⟩
  refine ⟨between low high (chainEntries file (l :: z)), ?_, ?_, fun e => ?_⟩
  · rw [rangeSearch, Prog.bind_ok hfind]
    exact run_rangeFrom hnext hchain.suffix (Nat.lt_succ_of_lt hlen) [] habove
  · exact hchain.suffix.sorted.sublist List.filter_sublist
  · rw [mem_between, hentry, chainEntries_append, List.mem_append]
    constructor
    · rintro ⟨hmem, hrange⟩
      exact ⟨Or.inr hmem, hrange⟩
    · rintro ⟨hmem | hmem, hrange⟩
      · exact absurd hrange.1 (not_le.2 (hbefore e hmem))
      · exact ⟨hmem, hrange⟩

/-- A range that no key of the tree lies above runs past the last leaf. -/
theorem WellRepresented.rangeSearch_end (h : WellRepresented L file) (hroot : file.rootId ≠ -1)
    (hnone : ∀ e, HasEntry file e → e.1 ≤ high) :
    rangeSearch low high file
      = .error (.exception "Failed to read complete page 4294967295") file := by
  obtain ⟨l, t, z, stack, hfind, hnext, hchain, hentry, -, hlen⟩ := h.findLeaf L hroot low
  rw [rangeSearch, Prog.bind_ok hfind]
  refine run_rangeFrom_end hnext hchain.suffix (Nat.lt_succ_of_lt hlen) [] fun e he => hnone e ?_
  rw [hentry, chainEntries_append]
  exact List.mem_append_right _ he

omit [Inhabited K] in
/-- A tree without a root has no range. -/
theorem rangeExact_of_empty (hroot : file.rootId = -1) : RangeExact file low high := by
  refine ⟨[], ?_, SortedKeys.nil, fun e => ?_⟩
  · have hfind : BStarPlusTree.findLeaf low file = .ok (none, []) file := by
      rw [BStarPlusTree.findLeaf, Prog.run_get_bind, if_pos hroot]
      rfl
    rw [rangeSearch, Prog.bind_ok hfind]
    rfl
  · exact iff_of_false (by simp) fun he => he.1.1 hroot

/-- Range search is exact if and only if the tree is empty or has a key above the range. -/
theorem rangeExact_iff (h : WellRepresented L file) :
    RangeExact file low high ↔ file.rootId = -1 ∨ ∃ e, HasEntry file e ∧ high < e.1 := by
  constructor
  · rintro ⟨es, hrun, -⟩
    by_contra hno
    obtain ⟨hroot, hnone⟩ := not_or.1 hno
    have hfail : rangeSearch low high file
        = .error (.exception "Failed to read complete page 4294967295") file :=
      h.rangeSearch_end L hroot fun e he => by
        by_contra hlt
        exact hnone ⟨e, he, not_le.1 hlt⟩
    rw [hrun] at hfail
    exact absurd hfail (by simp)
  · rintro (hroot | habove)
    · exact rangeExact_of_empty hroot
    · exact h.rangeExact L habove

end RangeSearch

/-! ## The trees of the repository -/

omit [LinearOrder K] [Inhabited K] in
/-- The entries of a tree with at most one internal level. -/
theorem Represents.hasEntry_iff {file : TreeFile K V} {shape : Shape K V}
    (h : Represents file shape) (e : K × V) : HasEntry file e ↔ e ∈ shape.entries := by
  cases shape with
  | empty => exact iff_of_false (fun he => he.1 h.onDisk.1) (by simp [Shape.entries])
  | leaf id es =>
      have hne := h.leaf_id_ne
      rw [h.onDisk.1] at hne
      rw [HasEntry, h.onDisk.1]
      simp only [h.leafBelow_leaf, hne, ne_eq, not_false_eq_true, true_and]
      rw [← h.onDisk.2.2.entries_eq]
      constructor
      · rintro ⟨d, l, ⟨-, rfl⟩, he⟩
        exact he
      · exact fun he => ⟨0, id, ⟨rfl, rfl⟩, he⟩
  | level root ks leaves =>
      have hne := h.root_ne
      rw [h.onDisk.rootId] at hne
      rw [HasEntry, h.onDisk.rootId]
      simp only [h.leafBelow_level, hne, ne_eq, not_false_eq_true, true_and]
      have hleaf : ∀ leaf ∈ leaves, (file.page leaf.1).entries = leaf.2 := by
        intro leaf hleaf
        obtain ⟨next, hleaf'⟩ := h.onDisk.run.isLeaf hleaf
        exact hleaf'.entries_eq
      rw [Shape.entries, leafEntries, List.mem_flatten]
      constructor
      · rintro ⟨d, l, ⟨-, hl⟩, he⟩
        obtain ⟨leaf, hmem, rfl⟩ := List.mem_map.1 hl
        rw [hleaf leaf hmem] at he
        exact ⟨leaf.2, List.mem_map_of_mem hmem, he⟩
      · rintro ⟨es, hes, he⟩
        obtain ⟨leaf, hmem, rfl⟩ := List.mem_map.1 hes
        refine ⟨1, leaf.1, ⟨rfl, List.mem_map_of_mem hmem⟩, ?_⟩
        rwa [hleaf leaf hmem]

/-- A run of few inserts from the empty tree. -/
theorem represents_insertAll {kvs : List (K × V)} (hd : (kvs.map Prod.fst).Nodup)
    (hlen : kvs.length ≤ splitSize L) :
    ∃ file shape, insertAll L kvs (create L) = .ok () file ∧ Represents file shape
      ∧ shape.Valid L ∧ ∀ e, HasEntry file e ↔ e ∈ kvs := by
  have hroot : NeverSplitsRoot L kvs (create L) :=
    neverSplitsRoot_of_length L (represents_create L) trivial hd (by simp [Shape.entries])
      (by simpa [Shape.entries] using hlen)
  obtain ⟨file, shape, hrun, h, hv, hentries⟩ :=
    insertAll_spec L (represents_create L) trivial hd (by simp [Shape.entries]) hroot
  refine ⟨file, shape, hrun, h, hv, fun e => ?_⟩
  rw [h.hasEntry_iff, hentries]
  simp [Shape.entries]

theorem rangeExact_iff_two :
    ∃ file, insertAll uint32Tree [(7, ⟨0, 1⟩), (9, ⟨0, 2⟩)] (create uint32Tree) = .ok () file
      ∧ RangeExact file 3 8 := by
  obtain ⟨file, shape, hrun, hshape, hv, hentries⟩ :=
    represents_insertAll uint32Tree
      (by decide : ([((7 : Fin (2 ^ 32)), (⟨0, 1⟩ : RecordAddress)), (9, ⟨0, 2⟩)].map
        Prod.fst).Nodup) (by decide)
  have h := hshape.wellRepresented uint32Tree hv
  refine ⟨file, hrun, (rangeExact_iff uint32Tree h).2 (Or.inr ⟨(9, ⟨0, 2⟩), ?_, ?_⟩)⟩
  · rw [hentries]
    simp
  · decide

/-- The range from 3 to 9 reaches the end of a tree with the keys 7 and 9. -/
theorem rangeSearch_uint32_fails :
    ∃ file, insertAll uint32Tree [(7, ⟨0, 1⟩), (9, ⟨0, 2⟩)] (create uint32Tree) = .ok () file
      ∧ WellRepresented uint32Tree file
      ∧ rangeSearch 3 9 file
        = .error (.exception "Failed to read complete page 4294967295") file
      ∧ ¬ RangeExact file 3 9 := by
  obtain ⟨file, shape, hrun, hshape, hv, hentries⟩ :=
    represents_insertAll uint32Tree
      (by decide : ([((7 : Fin (2 ^ 32)), (⟨0, 1⟩ : RecordAddress)), (9, ⟨0, 2⟩)].map
        Prod.fst).Nodup) (by decide)
  have h := hshape.wellRepresented uint32Tree hv
  have hroot : file.rootId ≠ -1 := ((hentries (7, ⟨0, 1⟩)).2 (by simp)).1
  have hfail : rangeSearch 3 9 file
      = .error (.exception "Failed to read complete page 4294967295") file := by
    refine h.rangeSearch_end uint32Tree hroot fun e he => ?_
    rw [hentries] at he
    rcases List.mem_pair.1 he with rfl | rfl
    · decide
    · decide
  refine ⟨file, hrun, h, hfail, ?_⟩
  rintro ⟨es, hok, -⟩
  rw [hfail] at hok
  exact absurd hok (by simp)

end QuasarDB.Storage
