import QuasarDB.Storage.Proofs.RootSplit

set_option autoImplicit false

/-! # Runs of inserts

A run of inserts of distinct keys into an empty tree makes the tree a finite map, as long as no
insert splits the root. A tree of fewer than `splitSize` entries has no such insert. -/

namespace QuasarDB.Storage

open NodePage BStarPlusTree

variable {K V : Type} [LinearOrder K] [Inhabited K] (L : Instantiation K V)

omit [LinearOrder K] [Inhabited K] in
theorem represents_create : Represents (create L) .empty :=
  ⟨⟨rfl, rfl⟩, ⟨Nat.one_pos, List.nodup_nil, by simp [Shape.ids], by simp [Shape.ids],
    fun id h1 h2 => absurd h2 (by simp only [create]; omega)⟩⟩

/-- The inserts of a list of pairs, one after the other. -/
def insertAll : List (K × V) → TreeM K V Unit
  | [] => pure ()
  | (k, v) :: kvs => do
      BStarPlusTree.insert L k v
      insertAll kvs

/-- No insert of the run splits the root. -/
def NeverSplitsRoot : List (K × V) → TreeFile K V → Prop
  | [], _ => True
  | (k, v) :: kvs, file => ¬ SplitsRoot L file k ∧
      ∀ file', BStarPlusTree.insert L k v file = .ok () file' → NeverSplitsRoot kvs file'

theorem insertAll_append (xs ys : List (K × V)) (file : TreeFile K V) :
    insertAll L (xs ++ ys) file = (insertAll L xs >>= fun _ => insertAll L ys) file := by
  induction xs generalizing file with
  | nil => rfl
  | cons kv xs ih =>
      simp only [List.cons_append, insertAll, Prog.run_bind]
      cases BStarPlusTree.insert L kv.1 kv.2 file with
      | ok _ file' => simp only [ih, Prog.run_bind]
      | error e file' => rfl

/-- A run of inserts that never splits the root adds all its pairs. -/
theorem insertAll_spec {kvs : List (K × V)} {file : TreeFile K V} {shape : Shape K V}
    (h : Represents file shape) (hv : shape.Valid L) (hd : (kvs.map Prod.fst).Nodup)
    (hnew : ∀ kv ∈ kvs, ∀ e ∈ shape.entries, e.1 ≠ kv.1) (hroot : NeverSplitsRoot L kvs file) :
    ∃ file' shape', insertAll L kvs file = .ok () file' ∧ Represents file' shape' ∧ shape'.Valid L
      ∧ ∀ e, e ∈ shape'.entries ↔ e ∈ kvs ∨ e ∈ shape.entries := by
  induction kvs generalizing file shape with
  | nil => exact ⟨file, shape, rfl, h, hv, by simp⟩
  | cons kv kvs ih =>
      obtain ⟨k, v⟩ := kv
      obtain ⟨hfirst, hrest⟩ := hroot
      obtain ⟨hk, hd'⟩ := List.nodup_cons.1 hd
      obtain ⟨file₁, shape₁, hrun, hins⟩ :=
        insert_spec L h hv (hnew (k, v) (by simp)) hfirst v
      have hnew₁ : ∀ kv ∈ kvs, ∀ e ∈ shape₁.entries, e.1 ≠ kv.1 := by
        intro kv hkv e he
        rcases (hins.entries e).1 he with rfl | he'
        · rintro rfl
          exact hk (List.mem_map.2 ⟨kv, hkv, rfl⟩)
        · exact hnew kv (by simp [hkv]) e he'
      obtain ⟨file', shape', hrun', h', hv', hentries⟩ :=
        ih hins.represents hins.valid hd' hnew₁ (hrest file₁ hrun)
      refine ⟨file', shape', ?_, h', hv', fun e => ?_⟩
      · rw [insertAll, Prog.bind_ok hrun, hrun']
      · rw [hentries e, hins.entries e, List.mem_cons]
        tauto

/-- Runs of inserts of distinct keys that never split the root: no call fails, and the tree is the
    finite map of the pairs. -/
theorem insertAll_search {kvs : List (K × V)} (hd : (kvs.map Prod.fst).Nodup)
    (hroot : NeverSplitsRoot L kvs (create L)) :
    ∃ file, insertAll L kvs (create L) = .ok () file
      ∧ (∀ kv ∈ kvs, search L kv.1 file = .ok [kv.2] file)
      ∧ ∀ k, (∀ kv ∈ kvs, kv.1 ≠ k) → search L k file = .ok [] file := by
  obtain ⟨file, shape, hrun, h, hv, hentries⟩ :=
    insertAll_spec L (represents_create L) trivial hd (by simp [Shape.entries]) hroot
  simp only [Shape.entries, List.not_mem_nil, or_false] at hentries
  refine ⟨file, hrun, fun kv hkv => ?_, fun k hk => ?_⟩
  · exact h.search_of_mem L hv ((hentries kv).2 hkv)
  · exact h.search_of_not_mem L hv fun e he => hk e ((hentries e).1 he)

/-! ## How large a tree is when its root is split -/

/-- The fewest entries of a tree with one level below the root whose root an insert can split: two
    neighbouring leaves are full, the others have the minimum. -/
def splitSize : Nat := (L.maxKeysInternal - 1) * L.minKeysLeaf + 2 * L.maxKeysLeaf

omit [LinearOrder K] [Inhabited K] in
theorem mul_length_le_leafEntries {m : Nat} {leaves : List (LeafRecord K V)}
    (h : ∀ leaf ∈ leaves, m ≤ leaf.2.length) : m * leaves.length ≤ (leafEntries leaves).length := by
  induction leaves with
  | nil => simp
  | cons leaf leaves ih =>
      have hleaf := h leaf (by simp)
      have hrest := ih fun leaf' hleaf' => h leaf' (by simp [hleaf'])
      rw [leafEntries_cons, List.length_append, List.length_cons, Nat.mul_succ]
      omega

omit [LinearOrder K] [Inhabited K] in
theorem leafEntries_le_mul_length {m : Nat} {leaves : List (LeafRecord K V)}
    (h : ∀ leaf ∈ leaves, leaf.2.length ≤ m) : (leafEntries leaves).length ≤ m * leaves.length := by
  induction leaves with
  | nil => simp
  | cons leaf leaves ih =>
      have hleaf := h leaf (by simp)
      have hrest := ih fun leaf' hleaf' => h leaf' (by simp [hleaf'])
      rw [leafEntries_cons, List.length_append, List.length_cons, Nat.mul_succ]
      omega

variable {file : TreeFile K V} {shape : Shape K V} {k : K} {v : V}

omit [Inhabited K] in
theorem splitSize_le (h : Represents file shape) (hv : shape.Valid L) (hs : SplitsRoot L file k) :
    splitSize L ≤ shape.entries.length := by
  cases shape with
  | empty => exact absurd h.onDisk.1 hs.1
  | leaf id es =>
      have hleaf := hs.2.1
      rw [h.onDisk.1, h.onDisk.2.2.isLeaf] at hleaf
      exact absurd hleaf (by simp)
  | level root ks leaves =>
      have hv' : LevelValid L ks leaves := hv
      obtain ⟨a, b, t, ⟨id, es⟩, z, rfl, rfl, ha, hle, hlt⟩ := hv'.ordered.route k
      obtain ⟨hkeys, hes, hpre, hpost⟩ := (splitsRoot_iff L h hv'.ordered ha hle hlt).1 hs
      have hlen := hv'.ordered.length_leaves
      have hthree := L.three_le_physKeysInternal
      have hphys := L.physKeysInternal_eq
      have hcount : minLeafSize L (t ++ (id, es) :: z).length = L.minKeysLeaf :=
        if_neg (by omega)
      have hmin : ∀ leaf ∈ t ++ (id, es) :: z, L.minKeysLeaf ≤ leaf.2.length := fun leaf hleaf =>
        hcount ▸ (hv'.sizes leaf hleaf).1
      rw [hkeys] at hlen
      -- the full leaf has a full neighbour, on the right or on the left
      rcases z with - | ⟨⟨r, es₂⟩, z⟩
      · rcases List.eq_nil_or_concat t with rfl | ⟨t, ⟨l, es₁⟩, rfl⟩
        · simp at hlen; omega
        rw [List.concat_eq_append] at hpre hlen hmin ⊢
        have hl : L.maxKeysLeaf ≤ es₁.length := hpre (l, es₁) (by simp)
        have hrest : L.minKeysLeaf * t.length ≤ (leafEntries t).length :=
          mul_length_le_leafEntries fun leaf hleaf => hmin leaf (by simp [hleaf])
        have hpos : t.length = L.maxKeysInternal - 1 := by simp at hlen; omega
        rw [hpos, Nat.mul_comm] at hrest
        simp only [splitSize, Shape.entries, leafEntries_append, leafEntries_cons, leafEntries_nil,
          List.length_append, List.length_nil]
        omega
      · have hr : L.maxKeysLeaf ≤ es₂.length := hpost (r, es₂) (by simp)
        have hrest : L.minKeysLeaf * (t ++ z).length ≤ (leafEntries (t ++ z)).length :=
          mul_length_le_leafEntries fun leaf hleaf => hmin leaf (by simp at hleaf ⊢; tauto)
        have hpos : (t ++ z).length = L.maxKeysInternal - 1 := by simp at hlen ⊢; omega
        rw [hpos, Nat.mul_comm, leafEntries_append, List.length_append] at hrest
        simp only [splitSize, Shape.entries, leafEntries_append, leafEntries_cons,
          List.length_append]
        omega

omit [Inhabited K] in
theorem Inserted.length_entries {file' : TreeFile K V} {shape' : Shape K V}
    (h : Inserted L file file' shape k v shape') (hv : shape.Valid L)
    (hk : ∀ e ∈ shape.entries, e.1 ≠ k) : shape'.entries.length = shape.entries.length + 1 := by
  have hnodup : ∀ {es : List (K × V)}, SortedKeys es → es.Nodup := fun hs =>
    List.Pairwise.imp (fun hlt heq => (ne_of_lt hlt) (congrArg Prod.fst heq)) hs
  have hperm : shape'.entries.Perm ((k, v) :: shape.entries) := by
    refine (List.perm_ext_iff_of_nodup (hnodup h.valid.sorted) ?_).2 fun e => ?_
    · exact List.nodup_cons.2 ⟨fun hmem => hk _ hmem rfl, hnodup hv.sorted⟩
    · rw [h.entries e, List.mem_cons]
  rw [hperm.length_eq, List.length_cons]

/-- A run of at most `splitSize` inserts never splits the root. -/
theorem neverSplitsRoot_of_length {kvs : List (K × V)} (h : Represents file shape)
    (hv : shape.Valid L) (hd : (kvs.map Prod.fst).Nodup)
    (hnew : ∀ kv ∈ kvs, ∀ e ∈ shape.entries, e.1 ≠ kv.1)
    (hlen : shape.entries.length + kvs.length ≤ splitSize L) : NeverSplitsRoot L kvs file := by
  induction kvs generalizing file shape with
  | nil => trivial
  | cons kv kvs ih =>
      obtain ⟨k, v⟩ := kv
      obtain ⟨hk, hd'⟩ := List.nodup_cons.1 hd
      rw [List.length_cons] at hlen
      have hfirst : ¬ SplitsRoot L file k := fun hs => by
        have := splitSize_le L h hv hs
        omega
      refine ⟨hfirst, fun file₁ hrun => ?_⟩
      obtain ⟨file₂, shape₁, hrun', hins⟩ := insert_spec L h hv (hnew (k, v) (by simp)) hfirst v
      obtain rfl : file₁ = file₂ := by
        rw [hrun] at hrun'
        exact (EStateM.Result.ok.inj hrun').2
      have hcount := hins.length_entries L hv (hnew (k, v) (by simp))
      refine ih hins.represents hins.valid hd' ?_ (by omega)
      intro kv hkv e he
      rcases (hins.entries e).1 he with rfl | he'
      · rintro rfl
        exact hk (List.mem_map.2 ⟨kv, hkv, rfl⟩)
      · exact hnew kv (by simp [hkv]) e he'

/-! ## Ascending keys

Inserts of ascending keys all go to the last leaf, so that every leaf but the last two keeps the
minimal size it got when it was split off. -/

/-- All leaves but the last two have the minimal size. -/
def Ascended : Shape K V → Prop
  | .level _ _ leaves => ∃ t l r, leaves = t ++ [l, r] ∧
      ∀ leaf ∈ t, leaf.2.length = L.minKeysLeaf
  | _ => True

/-- An insert of a key above all others into a tree below whose root the leaves `l` and `r` are the
    last. -/
theorem ascended_insert_level {root : Int} {a : List K} {x : K} {t : List (LeafRecord K V)}
    {l r : Int} {es₁ es₂ : List (K × V)} (hthirds : 3 * L.minKeysLeaf = 2 * L.maxKeysLeaf + 1)
    (h : Represents file (.level root (a ++ [x] ++ []) ((t ++ [(l, es₁)]) ++ [(r, es₂)])))
    (hv : LevelValid L (a ++ [x] ++ []) ((t ++ [(l, es₁)]) ++ [(r, es₂)]))
    (ha : a.length = t.length) (hpre : ∀ leaf ∈ t, leaf.2.length = L.minKeysLeaf)
    (hk : ∀ e ∈ leafEntries ((t ++ [(l, es₁)]) ++ [(r, es₂)]), e.1 < k)
    (hs : ¬ SplitsRoot L file k) (v : V) :
    ∃ file' ks' leaves', BStarPlusTree.insert L k v file = .ok () file'
      ∧ Rebalanced L file' root ((t ++ [(l, es₁)]) ++ [(r, insertEntry es₂ k v)]) leaves' ks'
      ∧ file'.totalPages + (t.length + 2) ≤ file.totalPages + leaves'.length
      ∧ ks'.length ≤ L.maxKeysInternal ∧ Ascended L (.level root ks' leaves') := by
  have hks : ∀ k' ∈ a ++ [x], k' ≤ k := by
    intro k' hk'
    refine (hv.ordered.separator_lt (fun leaf hleaf => ?_) k' (by simpa using hk')).le
    obtain ⟨e, he⟩ := List.exists_mem_of_ne_nil _ (hv.ordered.nonempty leaf hleaf)
    exact ⟨e, he, hk e (List.mem_flatten.2 ⟨_, List.mem_map_of_mem hleaf, he⟩)⟩
  have hlen : (a ++ [x]).length = (t ++ [(l, es₁)]).length := by simp [ha]
  have hl : es₁.length ≤ L.maxKeysLeaf := (hv.sizes (l, es₁) (by simp)).2
  have hr : es₂.length ≤ L.maxKeysLeaf := (hv.sizes (r, es₂) (by simp)).2
  have hkeys := hv.keys
  have hsplit := splitsRoot_iff L h hv.ordered hlen hks (by simp)
  obtain ⟨file₁, h₁, ho₁, htotal, hrun⟩ := insert_write L h hv.ordered hlen hks (by simp) hr
    (fun e he => (hk e (by simp [he])).ne) v
  by_cases hover : L.maxKeysLeaf < es₂.length + 1
  · have hes : (insertEntry es₂ k v).length = L.maxKeysLeaf + 1 := by rw [length_insertEntry]; omega
    have hcount : ((t ++ [(l, es₁)]) ++ [(r, es₂)]).length
        = t.length + ([] : List (LeafRecord K V)).length + 2 := by simp
    have hsizes := hv.sizes
    rw [hcount] at hsizes
    have hmin := half_le_minLeafSize L (t.length + ([] : List (LeafRecord K V)).length + 2)
    have hmax := L.three_le_maxKeysLeaf
    have hl' : minLeafSize L (t.length + ([] : List (LeafRecord K V)).length + 2) ≤ es₁.length :=
      (hsizes (l, es₁) (by simp)).1
    have hothers : ∀ leaf ∈ t ++ [], minLeafSize L
        (t.length + ([] : List (LeafRecord K V)).length + 2) ≤ leaf.2.length ∧
          leaf.2.length ≤ L.maxKeysLeaf := fun leaf hleaf => hsizes leaf (by simp at hleaf; simp [hleaf])
    have hwindow : (t ++ [(l, es₁)]) ++ [(r, insertEntry es₂ k v)]
        = t ++ ([(l, es₁), (r, insertEntry es₂ k v)] ++ []) := by simp
    rw [if_pos hover, List.length_append, List.length_singleton] at hrun
    rw [List.append_nil] at h₁ ho₁ hkeys hsplit
    rw [hwindow] at h₁ ho₁ ⊢
    by_cases hroom : es₁.length < L.maxKeysLeaf
    · obtain ⟨nodes, file', ks', cs₁, cs₂, hrun', hbalanced, hpages, hlen'⟩ :=
        h₁.level.rebalanced_redistribute₂ L ho₁ ha (by omega) (by omega) hothers
      exact ⟨file', ks', _, hrun.trans (handleLeafOverflow_left L h₁.level hroom hrun'),
        hbalanced.rebalanced L h₁, by simp [hpages, htotal], hlen'.trans_le hkeys, t, (l, cs₁),
        (r, cs₂), by simp, hpre⟩
    · have hfull : L.maxKeysLeaf ≤ es₁.length := not_lt.1 hroom
      have hroot : ¬ (a ++ [x]).length = L.maxKeysInternal := fun heq =>
        hs (hsplit.2 ⟨heq, by omega, by simpa [NeighboursFull] using hfull⟩)
      obtain ⟨file', ks', f, cs₁, cs₂, cs₃, hrun', hbalanced, hpages, hlen'⟩ :=
        h₁.level.rebalanced_split₂ L ho₁ ha (by omega) (by omega) (by omega) hkeys hothers
          (t.length + 1) []
      have hkeys' : ks'.length ≤ L.maxKeysInternal := by omega
      rw [if_neg (not_lt.2 hkeys')] at hrun'
      refine ⟨file', ks', _,
        hrun.trans ((handleLeafOverflow_splitLeft L h₁.level hfull (by simp)).trans hrun'),
        hbalanced.rebalanced L h₁, by simp; omega, hkeys', t ++ [(l, cs₁)], (r, cs₂),
        (f, cs₃), by simp, ?_⟩
      -- three leaves of the minimal size at least share three times the minimal size
      have hthree : ∀ c ∈ [(l, cs₁), (r, cs₂), (f, cs₃)], L.minKeysLeaf ≤ c.2.length := fun c hc =>
        (hbalanced.sizes c (by simp at hc ⊢; tauto)).1
      simp only [List.forall_mem_cons] at hthree
      have htotal' := congrArg List.length hbalanced.entries
      simp only [leafEntries_append, leafEntries_cons, leafEntries_nil, List.length_append,
        List.length_nil] at htotal'
      simp only [List.forall_mem_append, List.forall_mem_cons]
      exact ⟨hpre, by omega, by simp⟩
  · rw [if_neg hover] at hrun
    refine ⟨file₁, _, _, hrun, ⟨h₁, ho₁, rfl, by simp, ?_⟩, by simp [htotal], hkeys, t, (l, es₁),
      (r, insertEntry es₂ k v), List.append_assoc _ _ _, hpre⟩
    exact sizes_writeLeaf L hv.sizes (by rw [length_insertEntry]; omega)
      (by rw [length_insertEntry]; omega)

/-- An insert of a key above all others that does not split the root. -/
theorem ascended_insert (hthirds : 3 * L.minKeysLeaf = 2 * L.maxKeysLeaf + 1)
    (h : Represents file shape) (hv : shape.Valid L) (hasc : Ascended L shape)
    (hk : ∀ e ∈ shape.entries, e.1 < k) (hs : ¬ SplitsRoot L file k) (v : V) :
    ∃ file' shape', BStarPlusTree.insert L k v file = .ok () file'
      ∧ Inserted L file file' shape k v shape' ∧ Ascended L shape' := by
  have hk' : ∀ e ∈ shape.entries, e.1 ≠ k := fun e he => (hk e he).ne
  cases shape with
  | empty =>
      obtain ⟨file', id, hrun, hins⟩ := insert_empty L h k v
      exact ⟨file', _, hrun, hins, trivial⟩
  | leaf id es =>
      rcases hv.2.2.lt_or_eq with hlt | heq
      · obtain ⟨file', hrun, hins⟩ := insert_leaf L h hv hk' hlt v
        exact ⟨file', _, hrun, hins, trivial⟩
      · obtain ⟨file', newRoot, right, x, cs₁, cs₂, hrun, hins, -, -⟩ :=
          insert_fullLeaf L h hv hk' heq v
        exact ⟨file', _, hrun, hins, [], (id, cs₁), (right, cs₂), rfl, by simp⟩
  | level root ks leaves =>
      obtain ⟨t, ⟨l, es₁⟩, ⟨r, es₂⟩, rfl, hpre⟩ := hasc
      have hv' : LevelValid L ks (t ++ [(l, es₁), (r, es₂)]) := hv
      have hlen := hv'.ordered.length_leaves
      obtain ⟨a, x, rfl, ha⟩ := exists_concat_of_length (l := ks) (n := t.length)
        (by simp at hlen; omega)
      have hlast : t ++ [(l, es₁), (r, es₂)] = (t ++ [(l, es₁)]) ++ [(r, es₂)] := by simp
      rw [hlast, ← List.append_nil (a ++ [x])] at h hv'
      rw [Shape.entries, hlast] at hk
      obtain ⟨file', ks', leaves', hrun, hbalanced, hpages, hkeys, hasc'⟩ :=
        ascended_insert_level L hthirds h hv' ha hpre hk hs v
      refine ⟨file', _, hrun, ⟨hbalanced.represents,
        ⟨hbalanced.ordered, hbalanced.two, hkeys, hbalanced.sizes⟩, fun e => ?_, ?_⟩, hasc'⟩
      · have hmem : e ∈ leafEntries (t ++ [(l, es₁)] ++ [(r, insertEntry es₂ k v)]) ↔
            e = (k, v) ∨ e ∈ leafEntries (t ++ [(l, es₁)] ++ [(r, es₂)]) :=
          mem_leafEntries_insertEntry e
        rw [← hbalanced.entries, ← hlast] at hmem
        exact hmem
      · simp only [Shape.ids, List.length_cons, List.length_map, List.length_append,
          List.length_nil] at hpages ⊢
        omega

/-- The first `n` pairs of a sequence of keys. -/
def firstPairs (key : Nat → K) (v : V) (n : Nat) : List (K × V) :=
  (List.range n).map fun i => (key i, v)

omit [Inhabited K] in
theorem nodup_firstPairs {key : Nat → K} {n : Nat} (hkey : ∀ i j, i < j → j < n → key i < key j)
    (v : V) : ((firstPairs key v n).map Prod.fst).Nodup := by
  rw [firstPairs, List.map_map]
  refine List.nodup_range.map_on ?_
  intro i hi j hj heq
  have heq' : key i = key j := heq
  rcases lt_trichotomy i j with hlt | rfl | hgt
  · exact absurd heq' (hkey i j hlt (List.mem_range.1 hj)).ne
  · rfl
  · exact absurd heq' (hkey j i hgt (List.mem_range.1 hi)).ne'

/-- A run of ascending keys up to the size at which the root can be split. -/
theorem ascending_run (hthirds : 3 * L.minKeysLeaf = 2 * L.maxKeysLeaf + 1) {key : Nat → K}
    (hkey : ∀ i j, i < j → j ≤ splitSize L → key i < key j) (v : V) {n : Nat}
    (hn : n ≤ splitSize L) :
    ∃ file shape, insertAll L (firstPairs key v n) (create L) = .ok () file
      ∧ Represents file shape ∧ shape.Valid L ∧ Ascended L shape ∧ shape.entries.length = n
      ∧ (∀ e ∈ shape.entries, ∃ i < n, e.1 = key i)
      ∧ file.totalPages ≤ shape.ids.length + 1 := by
  induction n with
  | zero =>
      exact ⟨create L, .empty, rfl, represents_create L, trivial, trivial, rfl,
        by simp [Shape.entries], le_rfl⟩
  | succ n ih =>
      obtain ⟨file, shape, hrun, h, hv, hasc, hcount, hkeys, hpages⟩ := ih (by omega)
      have hk : ∀ e ∈ shape.entries, e.1 < key n := by
        intro e he
        obtain ⟨i, hi, heq⟩ := hkeys e he
        rw [heq]
        exact hkey i n hi (by omega)
      have hs : ¬ SplitsRoot L file (key n) := fun hs => by
        have := splitSize_le L h hv hs
        omega
      obtain ⟨file', shape', hrun', hins, hasc'⟩ := ascended_insert L hthirds h hv hasc hk hs v
      have hcount' := hins.length_entries L hv fun e he => (hk e he).ne
      have hpages' := hins.pages
      refine ⟨file', shape', ?_, hins.represents, hins.valid, hasc', by omega, ?_, by omega⟩
      · rw [firstPairs, List.range_succ, List.map_append, insertAll_append]
        rw [firstPairs] at hrun
        rw [Prog.bind_ok hrun, List.map_singleton, insertAll, Prog.bind_ok hrun']
        rfl
      · intro e he
        rcases (hins.entries e).1 he with rfl | he'
        · exact ⟨n, Nat.lt_succ_self n, rfl⟩
        · obtain ⟨i, hi, heq⟩ := hkeys e he'
          exact ⟨i, hi.trans (Nat.lt_succ_self n), heq⟩

omit [Inhabited K] in
/-- At that size the next ascending key splits the root. -/
theorem ascended_splitsRoot (h : Represents file shape) (hv : shape.Valid L)
    (hasc : Ascended L shape) (hk : ∀ e ∈ shape.entries, e.1 < k)
    (hcount : shape.entries.length = splitSize L) : SplitsRoot L file k := by
  have hmax := L.three_le_maxKeysLeaf
  obtain ⟨-, hmin⟩ := L.minKeysLeaf_bounds
  cases shape with
  | empty =>
      simp only [Shape.entries, splitSize, List.length_nil] at hcount
      omega
  | leaf id es =>
      have hes : es.length ≤ L.maxKeysLeaf := hv.2.2
      simp only [Shape.entries, splitSize] at hcount
      omega
  | level root ks leaves =>
      obtain ⟨t, ⟨l, es₁⟩, ⟨r, es₂⟩, rfl, hpre⟩ := hasc
      have hv' : LevelValid L ks (t ++ [(l, es₁), (r, es₂)]) := hv
      have hlen := hv'.ordered.length_leaves
      have hl : es₁.length ≤ L.maxKeysLeaf := (hv'.sizes (l, es₁) (by simp)).2
      have hr : es₂.length ≤ L.maxKeysLeaf := (hv'.sizes (r, es₂) (by simp)).2
      have hkeys := hv'.keys
      have hrest : (leafEntries t).length ≤ L.minKeysLeaf * t.length :=
        leafEntries_le_mul_length fun leaf hleaf => (hpre leaf hleaf).le
      simp only [Shape.entries, leafEntries_append, leafEntries_cons, leafEntries_nil,
        List.length_append, List.length_nil] at hcount
      simp only [List.length_append, List.length_cons, List.length_nil] at hlen
      -- with fewer leaves there would be fewer entries
      have hfull : t.length = L.maxKeysInternal - 1 := by
        by_contra hne
        have hlt : t.length + 1 ≤ L.maxKeysInternal - 1 := by omega
        have hmul := Nat.mul_le_mul_left L.minKeysLeaf hlt
        rw [Nat.mul_succ] at hmul
        rw [splitSize, Nat.mul_comm] at hcount
        omega
      rw [hfull] at hrest
      rw [splitSize, Nat.mul_comm] at hcount
      have hlast : t ++ [(l, es₁), (r, es₂)] = (t ++ [(l, es₁)]) ++ [(r, es₂)] := by simp
      have hks : ∀ k' ∈ ks, k' ≤ k := by
        intro k' hk'
        refine (hv'.ordered.separator_lt (fun leaf hleaf => ?_) k' hk').le
        obtain ⟨e, he⟩ := List.exists_mem_of_ne_nil _ (hv'.ordered.nonempty leaf hleaf)
        exact ⟨e, he, hk e (List.mem_flatten.2 ⟨_, List.mem_map_of_mem hleaf, he⟩)⟩
      rw [hlast, ← List.append_nil ks] at h hv'
      have hl' : L.maxKeysLeaf ≤ es₁.length := by omega
      exact (splitsRoot_iff L h hv'.ordered (by simp; omega) hks (by simp)).2
        ⟨by simp; omega, by omega, by simpa [NeighboursFull] using hl'⟩

/-- The next ascending key is lost. -/
theorem ascending_loses_key (hthirds : 3 * L.minKeysLeaf = 2 * L.maxKeysLeaf + 1) {key : Nat → K}
    (hkey : ∀ i j, i < j → j ≤ splitSize L → key i < key j) (hdefault : default < key (splitSize L))
    (v : V) :
    ∃ file, insertAll L (firstPairs key v (splitSize L + 1)) (create L) = .ok () file
      ∧ search L (key (splitSize L)) file = .ok [] file := by
  obtain ⟨file, shape, hrun, h, hv, hasc, hcount, hkeys, hpages⟩ :=
    ascending_run L hthirds hkey v le_rfl
  have hk : ∀ e ∈ shape.entries, e.1 < key (splitSize L) := by
    intro e he
    obtain ⟨i, hi, heq⟩ := hkeys e he
    rw [heq]
    exact hkey i _ hi le_rfl
  have hs := ascended_splitsRoot L h hv hasc hk hcount
  cases shape with
  | empty => exact absurd h.onDisk.1 hs.1
  | leaf id es =>
      have hleaf := hs.2.1
      rw [h.onDisk.1, h.onDisk.2.2.isLeaf] at hleaf
      exact absurd hleaf (by simp)
  | level root ks leaves =>
      simp only [Shape.ids, List.length_cons, List.length_map] at hpages
      obtain ⟨file', hrun', hsearch⟩ :=
        insert_splitsRoot_search L h hv hpages hk hdefault hs v
      refine ⟨file', ?_, hsearch⟩
      rw [firstPairs, List.range_succ, List.map_append, insertAll_append]
      rw [firstPairs] at hrun
      rw [Prog.bind_ok hrun, List.map_singleton, insertAll, Prog.bind_ok hrun']
      rfl

/-! ## The trees of the repository -/

theorem insertAll_search_three :
    ∃ file, insertAll uint32Tree [(3, ⟨0, 1⟩), (1, ⟨0, 2⟩), (2, ⟨0, 0⟩)] (create uint32Tree)
        = .ok () file
      ∧ (∀ kv ∈ [((3 : Fin (2 ^ 32)), (⟨0, 1⟩ : RecordAddress)), (1, ⟨0, 2⟩), (2, ⟨0, 0⟩)],
          search uint32Tree kv.1 file = .ok [kv.2] file)
      ∧ ∀ k, (∀ kv ∈ [((3 : Fin (2 ^ 32)), (⟨0, 1⟩ : RecordAddress)), (1, ⟨0, 2⟩), (2, ⟨0, 0⟩)],
          kv.1 ≠ k) → search uint32Tree k file = .ok [] file := by
  refine insertAll_search uint32Tree (by decide) ?_
  exact neverSplitsRoot_of_length uint32Tree (represents_create uint32Tree) trivial (by decide)
    (by simp [Shape.entries]) (by decide)

/-- The keys 0 to 114299 in ascending order: the last one is inserted and not found. -/
theorem ascending_uint32_loses_key :
    ∃ file, insertAll uint32Tree (firstPairs (Fin.ofNat (2 ^ 32)) ⟨0, 0⟩ 114300)
        (create uint32Tree) = .ok () file
      ∧ ((firstPairs (Fin.ofNat (2 ^ 32)) (⟨0, 0⟩ : RecordAddress) 114300).map Prod.fst).Nodup
      ∧ (114299, ⟨0, 0⟩) ∈ firstPairs (Fin.ofNat (2 ^ 32)) (⟨0, 0⟩ : RecordAddress) 114300
      ∧ search uint32Tree 114299 file = .ok [] file := by
  have hsize : splitSize uint32Tree = 114299 := by decide
  have hval : ∀ i < 114300, (Fin.ofNat (2 ^ 32) i).val = i := fun i hi =>
    Nat.mod_eq_of_lt (by omega)
  have hkey : ∀ i j, i < j → j ≤ splitSize uint32Tree →
      Fin.ofNat (2 ^ 32) i < Fin.ofNat (2 ^ 32) j := by
    intro i j hij hj
    rw [hsize] at hj
    rw [Fin.lt_def, hval i (by omega), hval j (by omega)]
    exact hij
  obtain ⟨file, hrun, hsearch⟩ := ascending_loses_key uint32Tree (by decide) hkey
    (by rw [hsize]; decide) ⟨0, 0⟩
  rw [hsize] at hrun hsearch
  refine ⟨file, hrun, ?_, ?_, hsearch⟩
  · exact nodup_firstPairs (fun i j hij hj => hkey i j hij (by omega)) _
  · exact List.mem_map.2 ⟨114299, by simp, rfl⟩

end QuasarDB.Storage
