import QuasarDB.Storage.Proofs.InsertRuns
import QuasarDB.Storage.Proofs.Remove

set_option autoImplicit false

/-! # Removing from a tree reached by inserts and removes

In every tree reached by inserts of new keys and removes, all of at most one internal level, a remove
takes exactly its key out, unless it has to merge the two leaves of the root and they do not fit in
one leaf. -/

namespace QuasarDB.Storage

open NodePage BStarPlusTree

variable {K V : Type} [LinearOrder K] [Inhabited K] (L : Instantiation K V)

/-! ## Reached trees -/

/-- The tree has at most one internal level: there is no root, or the root is a leaf, or all its
    children are. -/
def AtMostOneLevel (file : TreeFile K V) : Prop :=
  file.rootId = -1 ∨ (file.page file.rootId).isLeaf = true ∨
    ∀ i < (file.page file.rootId).childrenSize,
      (file.page ((file.page file.rootId).children i)).isLeaf = true

/-- The trees reached from the empty one by inserts of keys that are not present and by removes,
    as long as no tree has more than one internal level. -/
inductive Reached : TreeFile K V → Prop
  | create : Reached (create L)
  | insert {file file' : TreeFile K V} {k : K} {v : V} (h : Reached file)
      (hnew : search L k file = .ok [] file)
      (hrun : BStarPlusTree.insert L k v file = .ok () file') (hlevel : AtMostOneLevel file') :
      Reached file'
  | remove {file file' : TreeFile K V} {k : K} {removed : Bool} (h : Reached file)
      (hrun : remove L k file = .ok removed file') (hlevel : AtMostOneLevel file') : Reached file'

/-- A remove of `k` fails nowhere, says whether `k` was there, and takes only `k` out. -/
def RemovesKey (file : TreeFile K V) (k : K) : Prop :=
  ∃ removed file', remove L k file = .ok removed file'
    ∧ (removed = true ↔ ∃ vs, vs ≠ [] ∧ search L k file = .ok vs file)
    ∧ search L k file' = .ok [] file'
    ∧ ∀ k', k' ≠ k → ∀ vs, search L k' file = .ok vs file ↔ search L k' file' = .ok vs file'

section Reached

variable {file file' : TreeFile K V} {shape shape' : Shape K V} {k : K} {v : V}

omit [LinearOrder K] [Inhabited K] in
theorem Represents.atMostOneLevel (h : Represents file shape) : AtMostOneLevel file := by
  cases shape with
  | empty => exact Or.inl h.onDisk.1
  | leaf id es =>
      refine Or.inr (Or.inl ?_)
      rw [h.onDisk.1]
      exact h.onDisk.2.2.isLeaf
  | level root ks leaves =>
      refine Or.inr (Or.inr fun i hi => ?_)
      rw [h.onDisk.rootId] at hi ⊢
      have hlen : i < (leaves.map Prod.fst).length := by rwa [h.rootPage.childrenSize_eq] at hi
      rw [h.rootPage.child hlen, List.getElem_map]
      obtain ⟨next, hleaf⟩ := h.onDisk.run.isLeaf (List.getElem_mem (by simpa using hlen))
      exact hleaf.isLeaf

omit [Inhabited K] in
theorem Represents.search_eq_nil_iff (h : Represents file shape) (hv : shape.Valid L) :
    search L k file = .ok [] file ↔ ∀ e ∈ shape.entries, e.1 ≠ k := by
  refine ⟨fun hsearch e he hek => ?_, h.search_of_not_mem L hv⟩
  subst hek
  rw [h.search_of_mem L hv he] at hsearch
  exact absurd hsearch (by simp)

omit [Inhabited K] in
/-- The result of a search depends only on the entries with the key. -/
theorem Represents.search_congr (h : Represents file shape) (hv : shape.Valid L)
    (h' : Represents file' shape') (hv' : shape'.Valid L)
    (hentries : ∀ v, (k, v) ∈ shape'.entries ↔ (k, v) ∈ shape.entries) (vs : List V) :
    search L k file = .ok vs file ↔ search L k file' = .ok vs file' := by
  by_cases hk : ∃ v, (k, v) ∈ shape.entries
  · obtain ⟨v, hv₁⟩ := hk
    rw [h.search_of_mem L hv hv₁, h'.search_of_mem L hv' ((hentries v).2 hv₁)]
    simp
  · have hno : ∀ e ∈ shape.entries, e.1 ≠ k := by
      rintro ⟨_, v⟩ he rfl
      exact hk ⟨v, he⟩
    have hno' : ∀ e ∈ shape'.entries, e.1 ≠ k := by
      rintro ⟨_, v⟩ he rfl
      exact hk ⟨v, (hentries v).1 he⟩
    rw [h.search_of_not_mem L hv hno, h'.search_of_not_mem L hv' hno']
    simp

/-- An insert that splits the root makes a second internal level. -/
theorem not_atMostOneLevel_of_splitsRoot (h : Represents file shape) (hv : shape.Valid L)
    (hk : ∀ e ∈ shape.entries, e.1 ≠ k) (hsplit : SplitsRoot L file k)
    (hrun : BStarPlusTree.insert L k v file = .ok () file') : ¬ AtMostOneLevel file' := by
  cases shape with
  | empty => exact absurd h.onDisk.1 hsplit.1
  | leaf id es =>
      have hleaf := hsplit.2.1
      rw [h.onDisk.1, h.onDisk.2.2.isLeaf] at hleaf
      exact absurd hleaf (by simp)
  | level root ks leaves =>
      obtain ⟨file₁, file₂, leaves₁, a, x, b, t, y, es, z, f, g, c, hrun', -, -, -, -, -,
        hsplit', -⟩ := insert_splitsRoot L h hv hk hsplit v
      obtain rfl : file' = file₂ := by
        rw [hrun] at hrun'
        exact (EStateM.Result.ok.inj hrun').2
      have hf := hsplit'.owned.range f (by simp)
      intro hlevel
      rw [AtMostOneLevel, hsplit'.rootId, hsplit'.newRoot.isLeaf] at hlevel
      rcases hlevel with hnone | hleaf | hchildren
      · omega
      · exact absurd hleaf (by simp)
      · have hchild := hchildren 0 (by rw [hsplit'.newRoot.childrenSize_eq]; simp)
        rw [hsplit'.newRoot.child (i := 0) (by simp)] at hchild
        simp [hsplit'.left.isLeaf] at hchild

/-- Every reached tree is a valid tree. -/
theorem Reached.represents (h : Reached L file) :
    ∃ shape, Represents file shape ∧ shape.Valid L := by
  induction h with
  | create => exact ⟨.empty, represents_create L, trivial⟩
  | @insert file file' k v _ hnew hrun hlevel ih =>
      obtain ⟨shape, h, hv⟩ := ih
      have hk := (h.search_eq_nil_iff L hv).1 hnew
      have hroot : ¬ SplitsRoot L file k := fun hsplit =>
        not_atMostOneLevel_of_splitsRoot L h hv hk hsplit hrun hlevel
      obtain ⟨file₁, shape', hrun', hins⟩ := insert_spec L h hv hk hroot v
      obtain rfl : file' = file₁ := by
        rw [hrun] at hrun'
        exact (EStateM.Result.ok.inj hrun').2
      exact ⟨shape', hins.represents, hins.valid⟩
  | @remove file file' k removed _ hrun hlevel ih =>
      obtain ⟨shape, h, hv⟩ := ih
      by_cases hk : ∃ v, (k, v) ∈ shape.entries
      · obtain ⟨v, hk⟩ := hk
        rcases remove_of_mem L h hv hk with ⟨-, file₁, shape', hrun', hremoved⟩ |
          ⟨-, c, file₁, -, hrun', -⟩
        · obtain rfl : file' = file₁ := by
            rw [hrun] at hrun'
            exact (EStateM.Result.ok.inj hrun').2
          exact ⟨shape', hremoved.represents, hremoved.valid⟩
        · rw [hrun] at hrun'
          exact absurd hrun' (by simp)
      · have hno : ∀ e ∈ shape.entries, e.1 ≠ k := by
          rintro ⟨_, v⟩ he rfl
          exact hk ⟨v, he⟩
        rw [remove_of_not_mem L h hv hno] at hrun
        obtain rfl := (EStateM.Result.ok.inj hrun).2
        exact ⟨shape, h, hv⟩

/-- A remove of any key from a reached tree is right exactly if it does not merge two leaves that do
    not fit in one. -/
theorem removesKey_iff (h : Reached L file) (k : K) : RemovesKey L file k ↔ ¬ MergeTooBig L file k := by
  obtain ⟨shape, h, hv⟩ := h.represents
  by_cases hk : ∃ v, (k, v) ∈ shape.entries
  · obtain ⟨v, hk⟩ := hk
    rcases remove_of_mem L h hv hk with ⟨hbig, file', shape', hrun, hremoved⟩ |
      ⟨hbig, c, file₁, -, hrun, -⟩
    · refine iff_of_true ⟨true, file', hrun, ?_, ?_, fun k' hne vs => ?_⟩ hbig
      · simp [h.search_of_mem L hv hk]
      · exact hremoved.represents.search_of_not_mem L hremoved.valid fun e he =>
          ((hremoved.entries e).1 he).2
      · refine h.search_congr L hv hremoved.represents hremoved.valid (fun v' => ?_) vs
        rw [hremoved.entries]
        exact and_iff_left hne
    · refine iff_of_false ?_ (not_not_intro hbig)
      rintro ⟨removed, file', hrun', -⟩
      rw [hrun] at hrun'
      exact absurd hrun' (by simp)
  · have hno : ∀ e ∈ shape.entries, e.1 ≠ k := by
      rintro ⟨_, v⟩ he rfl
      exact hk ⟨v, he⟩
    have hsearch := h.search_of_not_mem L hv hno
    refine iff_of_true ⟨false, file, remove_of_not_mem L h hv hno, ?_, hsearch, fun _ _ _ => Iff.rfl⟩
      (not_mergeTooBig_of_not_mem L h hv hno)
    simp [hsearch]

end Reached

/-! ## Two leaves that can be neither refilled nor merged

A full leaf is split into two. A remove from the left one brings it to half of a leaf, and inserts
then let the right one grow until a remove makes it smaller than two thirds again. -/

section TooBig

variable {file : TreeFile K V} {root l r : Int} {x : K} {es₁ es₂ : List (K × V)} {k : K} {v : V}

/-- The first keys of an ascending run all go to one leaf. -/
theorem ascending_leaf {key : Nat → K} (hkey : ∀ i j, i < j → j ≤ L.maxKeysLeaf → key i < key j)
    (v : V) {n : Nat} (hn : n < L.maxKeysLeaf) :
    ∃ file id es, insertAll L (firstPairs key v (n + 1)) (create L) = .ok () file
      ∧ Represents file (.leaf id es) ∧ (Shape.leaf id es).Valid L ∧ es.length = n + 1
      ∧ ∀ e, e ∈ es ↔ ∃ i ≤ n, e = (key i, v) := by
  induction n with
  | zero =>
      obtain ⟨file, id, hrun, hins⟩ := insert_empty L (represents_create L) (key 0) v
      refine ⟨file, id, _, ?_, hins.represents, hins.valid, by rw [length_insertEntry]; rfl, ?_⟩
      · exact Prog.bind_ok hrun
      · intro e
        simp [mem_insertEntry]
  | succ n ih =>
      obtain ⟨file, id, es, hrun, h, hv, hlen, hes⟩ := ih (by omega)
      have hk : ∀ e ∈ es, e.1 ≠ key (n + 1) := by
        intro e he
        obtain ⟨i, hi, rfl⟩ := (hes e).1 he
        exact (hkey i (n + 1) (by omega) (by omega)).ne
      obtain ⟨file', hrun', hins⟩ := insert_leaf L h hv hk (by omega) v
      refine ⟨file', id, _, ?_, hins.represents, hins.valid, by rw [length_insertEntry, hlen], ?_⟩
      · rw [firstPairs, List.range_succ, List.map_append, insertAll_append, ← firstPairs,
          Prog.bind_ok hrun]
        exact Prog.bind_ok hrun'
      · intro e
        rw [mem_insertEntry, hes]
        constructor
        · rintro (rfl | ⟨i, hi, rfl⟩)
          · exact ⟨n + 1, le_rfl, rfl⟩
          · exact ⟨i, by omega, rfl⟩
        · rintro ⟨i, hi, rfl⟩
          rcases Nat.lt_or_ge i (n + 1) with hlt | hge
          · exact Or.inr ⟨i, by omega, rfl⟩
          · obtain rfl : i = n + 1 := by omega
            exact Or.inl rfl

omit [Inhabited K] in
/-- The left leaf of two takes entries from the right one. -/
theorem remove_left_lends (h : Represents file (.level root [x] [(l, es₁), (r, es₂)]))
    (hv : LevelValid L [x] [(l, es₁), (r, es₂)]) (hk : (k, v) ∈ es₁)
    (hsmall : es₁.length - 1 < L.minKeysLeaf) (hlend : L.maxKeysLeaf / 2 < es₂.length) :
    ∃ file' y cs₁ cs₂, remove L k file = .ok true file'
      ∧ Represents file' (.level root [y] [(l, cs₁), (r, cs₂)])
      ∧ LevelValid L [y] [(l, cs₁), (r, cs₂)]
      ∧ cs₁ ++ cs₂ = eraseKey es₁ k ++ es₂ ∧ cs₁.length = (es₁.length - 1 + es₂.length) / 2 := by
  have hmax := L.three_le_maxKeysLeaf
  have hl : L.maxKeysLeaf / 2 ≤ es₁.length ∧ es₁.length ≤ L.maxKeysLeaf := hv.sizes (l, es₁) (by simp)
  have hr : L.maxKeysLeaf / 2 ≤ es₂.length ∧ es₂.length ≤ L.maxKeysLeaf := hv.sizes (r, es₂) (by simp)
  have hlt : ∀ k' ∈ [x], k < k' := by
    have hsep := hv.ordered.separated
    intro k' hk'
    rw [List.mem_singleton.1 hk']
    exact hsep.1 (k, v) hk
  have hlen := length_eraseKey (hv.ordered.sorted_leaf (a := []) (b := [x]) (t := [])) hk
  obtain ⟨file₁, h₁, hsep₁, hs₁, hrun⟩ := remove_write L (a := []) (b := [x]) (t := []) h hv.ordered
    rfl (by simp) hlt hk
  rw [if_pos hsmall] at hrun
  obtain ⟨nodes, file', y, cs₁, cs₂, hshare, hrep, hvalid, hes, hsize⟩ :=
    redistribute_two L h₁ hsep₁ (by simpa using hs₁) (by omega) (by omega)
  have hhandle : handleLeafUnderflow L (file₁.page l) [(root, 0)] file₁ = .ok () file' :=
    handleLeafUnderflow_right L (t := []) (z := []) h₁.level (by simp)
      (by simpa [minLeafSize] using hlend) hshare
  refine ⟨file', y, cs₁, cs₂, ?_, hrep, hvalid, hes, by omega⟩
  rw [hrun]
  exact Prog.bind_ok hhandle

/-- The right leaf of two takes a new greatest key. -/
theorem insert_right_fits (h : Represents file (.level root [x] [(l, es₁), (r, es₂)]))
    (hv : LevelValid L [x] [(l, es₁), (r, es₂)]) (hk : ∀ e ∈ es₁ ++ es₂, e.1 < k)
    (hroom : es₂.length < L.maxKeysLeaf) (v : V) :
    ∃ file', BStarPlusTree.insert L k v file = .ok () file'
      ∧ Represents file' (.level root [x] [(l, es₁), (r, insertEntry es₂ k v)])
      ∧ LevelValid L [x] [(l, es₁), (r, insertEntry es₂ k v)] := by
  have hks : ∀ k' ∈ [x], k' ≤ k := fun k' hk' =>
    (hv.ordered.separator_lt (fun leaf hleaf => by
      obtain ⟨e, he⟩ := List.exists_mem_of_ne_nil _ (hv.ordered.nonempty leaf hleaf)
      refine ⟨e, he, hk e ?_⟩
      simp only [List.mem_cons, List.not_mem_nil, or_false] at hleaf
      rcases hleaf with rfl | rfl
      · exact List.mem_append_left _ he
      · exact List.mem_append_right _ he) k' hk').le
  obtain ⟨file', h', ho', -, hrun⟩ := insert_write L (a := [x]) (b := []) (t := [(l, es₁)]) h
    hv.ordered rfl hks (by simp) hroom.le (fun e he => (hk e (List.mem_append_right _ he)).ne) v
  rw [if_neg (by omega)] at hrun
  exact ⟨file', hrun, h', ho', le_rfl, hv.keys, sizes_writeLeaf L (t := [(l, es₁)]) hv.sizes
    (by rw [length_insertEntry]; omega) (by rw [length_insertEntry]; omega)⟩

omit [Inhabited K] in
/-- A remove from the right leaf of two that can be neither refilled nor merged. -/
theorem mergeTooBig_right (h : Represents file (.level root [x] [(l, es₁), (r, es₂)]))
    (hv : LevelValid L [x] [(l, es₁), (r, es₂)]) (hk : (k, v) ∈ es₂)
    (hsmall : es₂.length - 1 < L.minKeysLeaf) (hpoor : es₁.length ≤ L.maxKeysLeaf / 2)
    (hbig : L.maxKeysLeaf < es₂.length - 1 + es₁.length) : MergeTooBig L file k := by
  have hsep := hv.ordered.separated
  have hle : ∀ k' ∈ [x], k' ≤ k := by
    intro k' hk'
    rw [List.mem_singleton.1 hk']
    exact hsep.2.1 (k, v) (by simpa using hk)
  obtain ⟨hidx, hrouted⟩ :=
    routedLeaf_eq (a := [x]) (b := []) (t := [(l, es₁)]) h hv.ordered rfl hle (by simp)
  have hother : otherLeaf file k = file.page l := by
    rw [otherLeaf, hidx, h.onDisk.rootId]
    exact congrArg file.page (children_two h).1
  have hs := hv.ordered.sorted_leaf (a := [x]) (b := []) (t := [(l, es₁)])
  refine (mergeTooBig_iff L h hrouted hother (h.onDisk.run.2.1.findKeyIdx_ne_none hs hk) ?_).2 ?_
  · rw [h.onDisk.run.2.1.size_eq]
    exact hsmall
  · rw [h.onDisk.run.1.size_eq, h.onDisk.run.2.1.size_eq]
    exact ⟨hpoor, hbig⟩

end TooBig

/-! ## Runs from one reached tree to another -/

/-- A run of inserts that never splits the root reaches its tree. -/
theorem Reached.insertAll {kvs : List (K × V)} {file file' : TreeFile K V} (h : Reached L file)
    (hd : (kvs.map Prod.fst).Nodup) (hnew : ∀ kv ∈ kvs, search L kv.1 file = .ok [] file)
    (hroot : NeverSplitsRoot L kvs file) (hrun : insertAll L kvs file = .ok () file') :
    Reached L file' := by
  induction kvs generalizing file with
  | nil =>
      obtain rfl := (EStateM.Result.ok.inj hrun).2
      exact h
  | cons kv kvs ih =>
      obtain ⟨k, v⟩ := kv
      obtain ⟨hfirst, hrest⟩ := hroot
      obtain ⟨hk, hd'⟩ := List.nodup_cons.1 hd
      obtain ⟨shape, hrep, hv⟩ := h.represents
      have hkey := (hrep.search_eq_nil_iff L hv).1 (hnew (k, v) (by simp))
      obtain ⟨file₁, shape₁, hrun₁, hins⟩ := insert_spec L hrep hv hkey hfirst v
      rw [QuasarDB.Storage.insertAll, Prog.bind_ok hrun₁] at hrun
      refine ih (h.insert (hnew (k, v) (by simp)) hrun₁ hins.represents.atMostOneLevel) hd' ?_
        (hrest file₁ hrun₁) hrun
      intro kv hkv
      refine (hins.represents.search_eq_nil_iff L hins.valid).2 fun e he => ?_
      rcases (hins.entries e).1 he with rfl | he'
      · rintro rfl
        exact hk (List.mem_map.2 ⟨kv, hkv, rfl⟩)
      · exact (hrep.search_eq_nil_iff L hv).1 (hnew kv (by simp [hkv])) e he'

/-! ## A remove that fails -/

section Fails

variable {m : Nat} {key : Nat → K}

/-- Ascending keys fill a leaf, and one more splits it into halves. -/
theorem ascending_two_leaves (hodd : L.maxKeysLeaf = 2 * m + 1)
    (hkey : ∀ i j, i < j → j ≤ L.maxKeysLeaf + 2 → key i < key j) (v : V) :
    ∃ file root l r x cs₁ cs₂,
      insertAll L (firstPairs key v (L.maxKeysLeaf + 1)) (create L) = .ok () file
      ∧ Represents file (.level root [x] [(l, cs₁), (r, cs₂)])
      ∧ LevelValid L [x] [(l, cs₁), (r, cs₂)]
      ∧ cs₁.length = m + 1 ∧ cs₂.length = m + 1
      ∧ ∀ e, e ∈ cs₁ ++ cs₂ ↔ ∃ i ≤ L.maxKeysLeaf, e = (key i, v) := by
  obtain ⟨file, id, es, hrun, h, hv, hlen, hes⟩ :=
    ascending_leaf L (fun i j hij hj => hkey i j hij (by omega)) v (n := L.maxKeysLeaf - 1) (by omega)
  rw [Nat.sub_add_cancel (by omega)] at hrun hlen
  have hk : ∀ e ∈ es, e.1 ≠ key L.maxKeysLeaf := by
    intro e he
    obtain ⟨i, hi, rfl⟩ := (hes e).1 he
    exact (hkey i _ (by omega) (by omega)).ne
  obtain ⟨file₁, root, r, x, cs₁, cs₂, hrun₁, hins, hcs, hcs₁⟩ := insert_fullLeaf L h hv hk hlen v
  have hsum : cs₁.length + cs₂.length = L.maxKeysLeaf + 1 := by
    rw [← List.length_append, hcs, length_insertEntry, hlen]
  refine ⟨file₁, root, id, r, x, cs₁, cs₂, ?_, hins.represents, hins.valid, by omega, by omega,
    fun e => ?_⟩
  · rw [firstPairs, List.range_succ, List.map_append, insertAll_append, ← firstPairs,
      Prog.bind_ok hrun]
    exact Prog.bind_ok hrun₁
  · rw [hcs, mem_insertEntry, hes]
    constructor
    · rintro (rfl | ⟨i, hi, rfl⟩)
      · exact ⟨_, le_rfl, rfl⟩
      · exact ⟨i, by omega, rfl⟩
    · rintro ⟨i, hi, rfl⟩
      rcases Nat.lt_or_ge i L.maxKeysLeaf with hlt | hge
      · exact Or.inr ⟨i, by omega, rfl⟩
      · obtain rfl : i = L.maxKeysLeaf := by omega
        exact Or.inl rfl

omit [Inhabited K] in
/-- The least entry is in the left leaf. -/
theorem mem_left_of_least {cs₁ cs₂ : List (K × V)} {e : K × V} (hs : SortedKeys (cs₁ ++ cs₂))
    (hne : cs₁ ≠ []) (he : e ∈ cs₁ ++ cs₂) (hleast : ∀ e' ∈ cs₁ ++ cs₂, e.1 ≤ e'.1) : e ∈ cs₁ := by
  rcases List.mem_append.1 he with hleft | hright
  · exact hleft
  · obtain ⟨e', he'⟩ := List.exists_mem_of_ne_nil _ hne
    have hlt := (SortedKeys.append.1 hs).2.2 e' he' e hright
    exact absurd (hleast e' (List.mem_append_left _ he')) (not_le.2 hlt)

/-- The least key is removed: the left leaf has half of a full leaf then, the right one an entry
    more. -/
theorem ascending_remove_first (hodd : L.maxKeysLeaf = 2 * m + 1) (hmin : m + 2 < L.minKeysLeaf)
    (hkey : ∀ i j, i < j → j ≤ L.maxKeysLeaf + 2 → key i < key j) (v : V) :
    ∃ file₁ file₂ root l r x cs₁ cs₂,
      insertAll L (firstPairs key v (L.maxKeysLeaf + 1)) (create L) = .ok () file₁
      ∧ remove L (key 0) file₁ = .ok true file₂
      ∧ Represents file₂ (.level root [x] [(l, cs₁), (r, cs₂)])
      ∧ LevelValid L [x] [(l, cs₁), (r, cs₂)]
      ∧ cs₁.length = m ∧ cs₂.length = m + 1
      ∧ ∀ e ∈ cs₁ ++ cs₂, ∃ i ≤ L.maxKeysLeaf, e = (key i, v) := by
  obtain ⟨file₁, root, l, r, x, es₁, es₂, hrun, h, hv, hl, hr, hes⟩ :=
    ascending_two_leaves L hodd hkey v
  have hs : SortedKeys (es₁ ++ es₂) := by
    have hsorted := hv.ordered.sorted
    simpa using hsorted
  have hzero : (key 0, v) ∈ es₁ := by
    refine mem_left_of_least hs (List.ne_nil_of_length_pos (by omega))
      ((hes _).2 ⟨0, Nat.zero_le _, rfl⟩) fun e he => ?_
    obtain ⟨i, hi, rfl⟩ := (hes e).1 he
    rcases Nat.eq_zero_or_pos i with rfl | hpos
    · exact le_rfl
    · exact (hkey 0 i hpos (by omega)).le
  obtain ⟨file₂, y, cs₁, cs₂, hrun₂, h₂, hv₂, hcs, hcs₁⟩ :=
    remove_left_lends L h hv hzero (by omega) (by omega)
  have hlen := length_eraseKey (SortedKeys.append.1 hs).1 hzero
  have hsum : cs₁.length + cs₂.length = (eraseKey es₁ (key 0)).length + es₂.length := by
    rw [← List.length_append, hcs, List.length_append]
  refine ⟨file₁, file₂, root, l, r, y, cs₁, cs₂, hrun, hrun₂, h₂, hv₂, by omega, by omega,
    fun e he => (hes e).1 ?_⟩
  rw [hcs] at he
  rcases List.mem_append.1 he with hleft | hright
  · exact List.mem_append_left _ ((eraseKey_sublist es₁ _).subset hleft)
  · exact List.mem_append_right _ hright

/-- Ascending keys fill two leaves (`file₁`), the least key is removed (`file₂`), and two more keys are inserted
    (`file₃` and `file₄`). -/
structure Ascends (key : Nat → K) (v : V) (file₁ file₂ file₃ file₄ : TreeFile K V) : Prop where
  fills : insertAll L (firstPairs key v (L.maxKeysLeaf + 1)) (create L) = .ok () file₁
  reached₁ : Reached L file₁
  lends : remove L (key 0) file₁ = .ok true file₂
  reached₂ : Reached L file₂
  new₃ : search L (key (L.maxKeysLeaf + 1)) file₂ = .ok [] file₂
  insert₃ : BStarPlusTree.insert L (key (L.maxKeysLeaf + 1)) v file₂ = .ok () file₃
  reached₃ : Reached L file₃
  new₄ : search L (key (L.maxKeysLeaf + 2)) file₃ = .ok [] file₃
  insert₄ : BStarPlusTree.insert L (key (L.maxKeysLeaf + 2)) v file₃ = .ok () file₄
  reached₄ : Reached L file₄

/-- The run ends in a tree from which the greatest key cannot be removed. -/
theorem exists_ascends (hodd : L.maxKeysLeaf = 2 * m + 1) (hmin : m + 2 < L.minKeysLeaf)
    (hkey : ∀ i j, i < j → j ≤ L.maxKeysLeaf + 2 → key i < key j) (v : V) :
    ∃ file₁ file₂ file₃ file₄, Ascends L key v file₁ file₂ file₃ file₄ ∧
      MergeTooBig L file₄ (key (L.maxKeysLeaf + 2)) := by
  obtain ⟨file₁, file₂, root, l, r, x, cs₁, cs₂, hrun₁, hrun₂, h₂, hv₂, hl, hr, hes⟩ :=
    ascending_remove_first L hodd hmin hkey v
  have hmax := L.three_le_maxKeysLeaf
  obtain ⟨hbound, -⟩ := L.minKeysLeaf_bounds
  have hbelow : ∀ j, L.maxKeysLeaf < j → j ≤ L.maxKeysLeaf + 2 → ∀ e ∈ cs₁ ++ cs₂, e.1 < key j := by
    intro j hj hj' e he
    obtain ⟨i, hi, rfl⟩ := hes e he
    exact hkey i j (by omega) hj'
  obtain ⟨file₃, hrun₃, h₃, hv₃⟩ := insert_right_fits L h₂ hv₂
    (hbelow (L.maxKeysLeaf + 1) (by omega) (by omega)) (by omega) v
  have hbelow₃ : ∀ e ∈ cs₁ ++ insertEntry cs₂ (key (L.maxKeysLeaf + 1)) v,
      e.1 < key (L.maxKeysLeaf + 2) := by
    intro e he
    rw [List.mem_append, mem_insertEntry] at he
    rcases he with he | rfl | he
    · exact hbelow _ (by omega) le_rfl e (List.mem_append_left _ he)
    · exact hkey _ _ (by omega) le_rfl
    · exact hbelow _ (by omega) le_rfl e (List.mem_append_right _ he)
  obtain ⟨file₄, hrun₄, h₄, hv₄⟩ := insert_right_fits L h₃ hv₃ hbelow₃
    (by rw [length_insertEntry]; omega) v
  have hreached₁ : Reached L file₁ := by
    have hnodup : ((firstPairs key v (L.maxKeysLeaf + 1)).map Prod.fst).Nodup :=
      nodup_firstPairs (fun i j hij hj => hkey i j hij (by omega)) v
    refine Reached.create.insertAll L hnodup (fun kv _ => ?_) ?_ hrun₁
    · exact (represents_create L).search_of_not_mem L trivial (by simp [Shape.entries])
    · refine neverSplitsRoot_of_length L (represents_create L) trivial hnodup (by simp [Shape.entries]) ?_
      simp only [Shape.entries, firstPairs, splitSize, List.length_nil, List.length_map,
        List.length_range]
      omega
  have hnew₃ := h₂.search_of_not_mem L hv₂ fun e he =>
    (hbelow (L.maxKeysLeaf + 1) (by omega) (by omega) e (by simpa [Shape.entries] using he)).ne
  have hnew₄ := h₃.search_of_not_mem L hv₃ fun e he =>
    (hbelow₃ e (by simpa [Shape.entries] using he)).ne
  have hreached₂ := hreached₁.remove hrun₂ h₂.atMostOneLevel
  have hreached₃ := hreached₂.insert hnew₃ hrun₃ h₃.atMostOneLevel
  have hreached₄ := hreached₃.insert hnew₄ hrun₄ h₄.atMostOneLevel
  refine ⟨file₁, file₂, file₃, file₄,
    ⟨hrun₁, hreached₁, hrun₂, hreached₂, hnew₃, hrun₃, hreached₃, hnew₄, hrun₄, hreached₄⟩,
    mergeTooBig_right L h₄ hv₄ (mem_insertEntry.2 (Or.inl rfl)) ?_ ?_ ?_⟩
  · simp only [length_insertEntry]
    omega
  · omega
  · simp only [length_insertEntry]
    omega

end Fails

/-! ## The trees of the repository -/

/-- The keys of the repository's trees, in ascending order. -/
theorem ascending_uint32 : ∃ file₁ file₂ file₃ file₄,
    Ascends uint32Tree (Fin.ofNat (2 ^ 32)) ⟨0, 0⟩ file₁ file₂ file₃ file₄ ∧
      MergeTooBig uint32Tree file₄ 339 := by
  have hmax : uint32Tree.maxKeysLeaf = 337 := by decide
  have hkey : ∀ i j, i < j → j ≤ uint32Tree.maxKeysLeaf + 2 →
      Fin.ofNat (2 ^ 32) i < Fin.ofNat (2 ^ 32) j := by
    intro i j hij hj
    rw [hmax] at hj
    rw [Fin.lt_def, Fin.val_ofNat, Fin.val_ofNat, Nat.mod_eq_of_lt (by omega),
      Nat.mod_eq_of_lt (by omega)]
    exact hij
  obtain ⟨file₁, file₂, file₃, file₄, h, hbig⟩ :=
    exists_ascends uint32Tree (m := 168) hmax (by decide) hkey ⟨0, 0⟩
  rw [hmax] at hbig
  exact ⟨file₁, file₂, file₃, file₄, h, hbig⟩

/-- The keys 0 to 337 split the root, and the remove of 0 makes the left leaf take an entry from the right
    one. -/
theorem removesKey_iff_lends :
    ∃ file₁ file₂,
      insertAll uint32Tree (firstPairs (Fin.ofNat (2 ^ 32)) ⟨0, 0⟩ 338) (create uint32Tree)
        = .ok () file₁
      ∧ remove uint32Tree 0 file₁ = .ok true file₂
      ∧ (RemovesKey uint32Tree file₁ 0 ↔ ¬ MergeTooBig uint32Tree file₁ 0)
      ∧ RemovesKey uint32Tree file₁ 0 := by
  obtain ⟨file₁, file₂, file₃, file₄, h, -⟩ := ascending_uint32
  have hiff := removesKey_iff uint32Tree h.reached₁ 0
  refine ⟨file₁, file₂, h.fills, h.lends, hiff, hiff.2 fun hbig => ?_⟩
  obtain ⟨shape, hrep, hv⟩ := h.reached₁.represents
  obtain ⟨condition, file, hfails⟩ := remove_of_mergeTooBig uint32Tree hrep hv hbig
  have hlends : remove uint32Tree 0 file₁ = .ok true file₂ := h.lends
  rw [hlends] at hfails
  exact absurd hfails (by simp)

/-- The keys 0 to 337 are inserted, 0 is removed, 338 and 339 are inserted: the remove of 339 fails an
    assertion. -/
theorem remove_uint32_fails :
    ∃ file₁ file₂ file₃ condition file₄,
      insertAll uint32Tree (firstPairs (Fin.ofNat (2 ^ 32)) ⟨0, 0⟩ 338) (create uint32Tree)
        = .ok () file₁
      ∧ remove uint32Tree 0 file₁ = .ok true file₂
      ∧ insertAll uint32Tree [(338, ⟨0, 0⟩), (339, ⟨0, 0⟩)] file₂ = .ok () file₃
      ∧ Reached uint32Tree file₃
      ∧ remove uint32Tree 339 file₃ = .error (.assertion condition) file₄
      ∧ ¬ RemovesKey uint32Tree file₃ 339 := by
  obtain ⟨file₁, file₂, file₃, file₄, h, hbig⟩ := ascending_uint32
  obtain ⟨shape, hrep, hv⟩ := h.reached₄.represents
  obtain ⟨condition, file₅, hfails⟩ := remove_of_mergeTooBig uint32Tree hrep hv hbig
  have hrun : insertAll uint32Tree [(338, ⟨0, 0⟩), (339, ⟨0, 0⟩)] file₂ = .ok () file₄ := by
    have hinsert₃ : BStarPlusTree.insert uint32Tree 338 ⟨0, 0⟩ file₂ = .ok () file₃ := h.insert₃
    have hinsert₄ : BStarPlusTree.insert uint32Tree 339 ⟨0, 0⟩ file₃ = .ok () file₄ := h.insert₄
    rw [insertAll, Prog.bind_ok hinsert₃, insertAll, Prog.bind_ok hinsert₄]
    rfl
  refine ⟨file₁, file₂, file₄, condition, file₅, h.fills, h.lends, hrun, h.reached₄, hfails, ?_⟩
  rintro ⟨removed, file', hremove, -⟩
  rw [hremove] at hfails
  exact absurd hfails (by simp)

end QuasarDB.Storage
