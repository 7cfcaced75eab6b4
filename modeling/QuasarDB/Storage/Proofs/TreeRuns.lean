import QuasarDB.Storage.Proofs.Integrity

set_option autoImplicit false

/-! # Runs of inserts, updates and removes

A run from the empty tree keeps the representation invariant in every file it reaches exactly if no
insert of it splits the root. A run goes on after an operation that fails, from the file the
operation left. -/

namespace QuasarDB.Storage

open NodePage BStarPlusTree

variable {K V : Type} [LinearOrder K] [Inhabited K] (L : Instantiation K V)

/-- An operation on a tree. -/
inductive TreeOp (K V : Type) where
  | insert (k : K) (v : V)
  | update (k : K) (v : V)
  | remove (k : K)

/-- The file an operation leaves, whether it fails or not. -/
def fileAfter {α : Type} : EStateM.Result Failure (TreeFile K V) α → TreeFile K V
  | .ok _ file => file
  | .error _ file => file

namespace TreeOp

def apply (file : TreeFile K V) : TreeOp K V → TreeFile K V
  | .insert k v => fileAfter (BStarPlusTree.insert L k v file)
  | .update k v => fileAfter (BStarPlusTree.update k v file)
  | .remove k => fileAfter (BStarPlusTree.remove L k file)

/-- An insert is of a key that is not present. -/
def KeyIsNew (file : TreeFile K V) : TreeOp K V → Prop
  | .insert k _ => search L k file = .ok [] file
  | _ => True

/-- The operation is an insert that splits the root. -/
def SplitsRoot (file : TreeFile K V) : TreeOp K V → Prop
  | .insert k _ => QuasarDB.Storage.SplitsRoot L file k
  | _ => False

end TreeOp

/-- The file after a run. -/
def runOps (file : TreeFile K V) (ops : List (TreeOp K V)) : TreeFile K V :=
  ops.foldl (TreeOp.apply L) file

/-- Every operation of the run has the property in the file it starts from. -/
def EveryStep (P : TreeFile K V → TreeOp K V → Prop) : List (TreeOp K V) → TreeFile K V → Prop
  | [], _ => True
  | op :: ops, file => P file op ∧ EveryStep P ops (op.apply L file)

/-! ## One operation -/

section Step

variable {file : TreeFile K V} {shape : Shape K V} {k : K}

/-- An operation that splits no root leaves a valid tree. -/
theorem TreeOp.apply_represents (h : Represents file shape) (hv : shape.Valid L) {op : TreeOp K V}
    (hnew : op.KeyIsNew L file) (hroot : ¬ op.SplitsRoot L file) :
    ∃ shape', Represents (op.apply L file) shape' ∧ shape'.Valid L := by
  cases op with
  | insert k v =>
      obtain ⟨file', shape', hrun, hins⟩ :=
        insert_spec L h hv ((h.search_eq_nil_iff L hv).1 hnew) hroot v
      rw [TreeOp.apply, hrun]
      exact ⟨shape', hins.represents, hins.valid⟩
  | update k v =>
      by_cases hk : ∃ w, (k, w) ∈ shape.entries
      · obtain ⟨w, hk⟩ := hk
        obtain ⟨file', shape', hrun, hup⟩ := update_of_mem L h hv hk v
        rw [TreeOp.apply, hrun]
        exact ⟨shape', hup.represents, hup.valid⟩
      · have hno : ∀ e ∈ shape.entries, e.1 ≠ k := by
          rintro ⟨_, w⟩ he rfl
          exact hk ⟨w, he⟩
        rcases update_of_not_mem L h hv hno v with hrun | ⟨what, hrun⟩
        · rw [TreeOp.apply, hrun]
          exact ⟨shape, h, hv⟩
        · rw [TreeOp.apply, hrun]
          exact ⟨shape, h, hv⟩
  | remove k =>
      by_cases hk : ∃ w, (k, w) ∈ shape.entries
      · obtain ⟨w, hk⟩ := hk
        rcases remove_of_mem L h hv hk with ⟨-, file', shape', hrun, hremoved⟩ |
          ⟨-, condition, file', shape', hrun, hremoved⟩
        · rw [TreeOp.apply, hrun]
          exact ⟨shape', hremoved.represents, hremoved.valid⟩
        · rw [TreeOp.apply, hrun]
          exact ⟨shape', hremoved.represents, hremoved.valid⟩
      · have hno : ∀ e ∈ shape.entries, e.1 ≠ k := by
          rintro ⟨_, w⟩ he rfl
          exact hk ⟨w, he⟩
        rw [TreeOp.apply, remove_of_not_mem L h hv hno]
        exact ⟨shape, h, hv⟩

omit [LinearOrder K] in
/-- The leaf in the middle gets two parents when the root is split. -/
theorem RootSplit.parentSlots {file' : TreeFile K V} {ids : List Int} {root f g c : Int}
    {a b : List K} {x : K} {ca cb : List Int} {y : Int}
    (h : RootSplit file file' ids root f g c a x b ca y cb) (hroot : root ∈ ids) :
    ParentSlot file' y (root, ca.length) ∧ ParentSlot file' y (g, 0) := by
  obtain ⟨hr1, hr2⟩ := h.owned.range root (by simp [hroot])
  obtain ⟨hg1, hg2⟩ := h.owned.range g (by simp)
  constructor
  · refine ⟨hr1, hr2, h.left.deleted, h.left.isLeaf, ?_, ?_⟩
    · rw [h.left.childrenSize_eq]
      simp
    · rw [h.left.child (i := ca.length) (by simp)]
      simp
  · refine ⟨hg1, hg2, h.right.deleted, h.right.isLeaf, ?_, h.right.child (i := 0) (by simp)⟩
    rw [h.right.childrenSize_eq]
    simp

/-- An insert that splits the root breaks the representation invariant. -/
theorem not_wellRepresented_of_splitsRoot (h : Represents file shape) (hv : shape.Valid L)
    (hk : ∀ e ∈ shape.entries, e.1 ≠ k) (hsplit : SplitsRoot L file k) (v : V) :
    ¬ WellRepresented L (fileAfter (BStarPlusTree.insert L k v file)) := by
  cases shape with
  | empty => exact absurd h.onDisk.1 hsplit.1
  | leaf id es =>
      have hleaf := hsplit.2.1
      rw [h.onDisk.1, h.onDisk.2.2.isLeaf] at hleaf
      exact absurd hleaf (by simp)
  | level root ks leaves =>
      obtain ⟨file₁, file', leaves₁, a, x, b, t, y, es, z, f, g, c, hrun, hbalanced, -, -, -, -,
        hsplit', -⟩ := insert_splitsRoot L h hv hk hsplit v
      have hids : root ∈ (Shape.level root (a ++ x :: b) (t ++ (y, es) :: z)).ids := by
        simp [Shape.ids]
      have hy : y ∈ (Shape.level root (a ++ x :: b) (t ++ (y, es) :: z)).ids := by
        simp [Shape.ids]
      obtain ⟨hy1, hy2⟩ := hsplit'.owned.range y (by simp [hy])
      have hlive := hsplit'.owned.live y (by simp [hy])
      obtain ⟨hslot₁, hslot₂⟩ := hsplit'.parentSlots hids
      have hne : root ≠ g := by
        rintro rfl
        exact (List.nodup_cons.1 hsplit'.owned.nodup).1 (by simp [hids])
      intro hwell
      rw [hrun] at hwell
      rcases hwell.owned y hy1 hy2 with ⟨hdead, -⟩ | ⟨-, -, hnone⟩ | ⟨-, hone⟩
      · rw [show fileAfter (.ok () file') = file' from rfl, hlive] at hdead
        exact absurd hdead (by simp)
      · exact hnone _ hslot₁
      · exact hne (congrArg Prod.fst (hone.unique hslot₁ hslot₂))

end Step

/-! ## Runs -/

/-- A run from a valid tree keeps the invariant in every file exactly if it splits no root. -/
theorem everyStep_iff {file : TreeFile K V} {shape : Shape K V} (h : Represents file shape)
    (hv : shape.Valid L) {ops : List (TreeOp K V)}
    (hnew : EveryStep L (fun file op => op.KeyIsNew L file) ops file) :
    (∀ done, done <+: ops → WellRepresented L (runOps L file done)) ↔
      EveryStep L (fun file op => ¬ op.SplitsRoot L file) ops file := by
  induction ops generalizing file shape with
  | nil =>
      refine iff_of_true (fun done hdone => ?_) trivial
      rw [List.prefix_nil.1 hdone]
      exact h.wellRepresented L hv
  | cons op ops ih =>
      obtain ⟨hop, hrest⟩ := hnew
      by_cases hroot : op.SplitsRoot L file
      · refine iff_of_false (fun hall => ?_) fun hsteps => hsteps.1 hroot
        have hone := hall [op] (by simp)
        cases op with
        | insert k v =>
            exact not_wellRepresented_of_splitsRoot L h hv ((h.search_eq_nil_iff L hv).1 hop) hroot v
              hone
        | update k v => exact hroot
        | remove k => exact hroot
      · obtain ⟨shape', h', hv'⟩ := TreeOp.apply_represents L h hv hop hroot
        have ih' := ih h' hv' hrest
        constructor
        · intro hall
          refine ⟨hroot, ih'.1 fun done hdone => ?_⟩
          exact hall (op :: done) (by simpa using hdone)
        · rintro ⟨-, hsteps⟩ done hdone
          cases done with
          | nil => exact h.wellRepresented L hv
          | cons op' done =>
              obtain ⟨rfl, hdone'⟩ := List.cons_prefix_cons.1 hdone
              exact ih'.2 hsteps done hdone'

/-- A run of inserts of new keys, updates and removes from the empty tree keeps the representation
    invariant in every file it reaches exactly if no insert splits the root. -/
theorem runOps_wellRepresented {ops : List (TreeOp K V)}
    (hnew : EveryStep L (fun file op => op.KeyIsNew L file) ops (create L)) :
    (∀ done, done <+: ops → WellRepresented L (runOps L (create L) done)) ↔
      EveryStep L (fun file op => ¬ op.SplitsRoot L file) ops (create L) :=
  everyStep_iff L (represents_create L) trivial hnew

/-! ## Runs of inserts -/

/-- The inserts of a list of pairs as operations of a run. -/
def insertOps (kvs : List (K × V)) : List (TreeOp K V) := kvs.map fun kv => .insert kv.1 kv.2

theorem runOps_insertOps {kvs : List (K × V)} {file file' : TreeFile K V}
    (hrun : insertAll L kvs file = .ok () file') : runOps L file (insertOps kvs) = file' := by
  induction kvs generalizing file with
  | nil => exact (EStateM.Result.ok.inj hrun).2
  | cons kv kvs ih =>
      obtain ⟨_, file₁, hrun₁, hrest⟩ := Prog.bind_eq_ok.1 hrun
      rw [insertOps, List.map_cons, runOps, List.foldl_cons, TreeOp.apply, hrun₁]
      exact ih hrest

/-- In a run of inserts of distinct keys every key is new as long as no insert but the last one
    splits the root. -/
theorem keyIsNew_insertOps {kvs : List (K × V)} {last : K × V} {file : TreeFile K V}
    {shape : Shape K V} (h : Represents file shape) (hv : shape.Valid L)
    (hd : ((kvs ++ [last]).map Prod.fst).Nodup)
    (hnew : ∀ kv ∈ kvs ++ [last], ∀ e ∈ shape.entries, e.1 ≠ kv.1)
    (hroot : NeverSplitsRoot L kvs file) :
    EveryStep L (fun file op => op.KeyIsNew L file) (insertOps (kvs ++ [last])) file := by
  induction kvs generalizing file shape with
  | nil => exact ⟨h.search_of_not_mem L hv (hnew last (by simp)), trivial⟩
  | cons kv kvs ih =>
      obtain ⟨k, v⟩ := kv
      obtain ⟨hfirst, hrest⟩ := hroot
      obtain ⟨hk, hd'⟩ := List.nodup_cons.1 hd
      have hkey := hnew (k, v) (by simp)
      obtain ⟨file₁, shape₁, hrun, hins⟩ := insert_spec L h hv hkey hfirst v
      refine ⟨h.search_of_not_mem L hv hkey, ?_⟩
      rw [TreeOp.apply, hrun]
      refine ih hins.represents hins.valid hd' (fun kv hkv e he => ?_) (hrest file₁ hrun)
      rcases (hins.entries e).1 he with rfl | he'
      · rintro rfl
        exact hk (List.mem_map.2 ⟨kv, hkv, rfl⟩)
      · exact hnew kv (List.mem_cons_of_mem _ hkv) e he'

/-- A run of ascending inserts breaks the invariant when the root is split. -/
theorem ascending_breaks (hthirds : 3 * L.minKeysLeaf = 2 * L.maxKeysLeaf + 1) {key : Nat → K}
    (hkey : ∀ i j, i < j → j ≤ splitSize L → key i < key j) (v : V) :
    EveryStep L (fun file op => op.KeyIsNew L file)
        (insertOps (firstPairs key v (splitSize L + 1))) (create L)
      ∧ ¬ WellRepresented L
          (runOps L (create L) (insertOps (firstPairs key v (splitSize L + 1)))) := by
  obtain ⟨file, shape, hrun, h, hv, hasc, hcount, hkeys, -⟩ :=
    ascending_run L hthirds hkey v le_rfl
  have hk : ∀ e ∈ shape.entries, e.1 < key (splitSize L) := by
    intro e he
    obtain ⟨i, hi, heq⟩ := hkeys e he
    rw [heq]
    exact hkey i _ hi le_rfl
  have hpairs : firstPairs key v (splitSize L + 1)
      = firstPairs key v (splitSize L) ++ [(key (splitSize L), v)] := by
    rw [firstPairs, List.range_succ, List.map_append, List.map_singleton, ← firstPairs]
  have hnodup := nodup_firstPairs (n := splitSize L + 1) (fun i j hij hj => hkey i j hij (by omega)) v
  constructor
  · rw [hpairs] at hnodup ⊢
    refine keyIsNew_insertOps L (represents_create L) trivial hnodup (by simp [Shape.entries]) ?_
    refine neverSplitsRoot_of_length L (represents_create L) trivial ?_ (by simp [Shape.entries]) ?_
    · rw [List.map_append] at hnodup
      exact (List.nodup_append.1 hnodup).1
    · simp [Shape.entries, firstPairs]
  · have hdone : (insertOps (firstPairs key v (splitSize L))).foldl (TreeOp.apply L) (create L) = file :=
      runOps_insertOps L hrun
    rw [hpairs, insertOps, List.map_append, runOps, List.foldl_append, ← insertOps, hdone]
    exact not_wellRepresented_of_splitsRoot L h hv (fun e he => (hk e he).ne)
      (ascended_splitsRoot L h hv hasc hk hcount) v

/-! ## A run that rebalances -/

theorem everyStep_append {P : TreeFile K V → TreeOp K V → Prop} {ops ops' : List (TreeOp K V)}
    {file : TreeFile K V} (h : EveryStep L P ops file) (h' : EveryStep L P ops' (runOps L file ops)) :
    EveryStep L P (ops ++ ops') file := by
  induction ops generalizing file with
  | nil => exact h'
  | cons op ops ih => exact ⟨h.1, ih h.2 h'⟩

/-- The inserts of a run that never splits the root, as operations. -/
theorem not_splitsRoot_insertOps {kvs : List (K × V)} {file file' : TreeFile K V}
    (hroot : NeverSplitsRoot L kvs file) (hrun : insertAll L kvs file = .ok () file') :
    EveryStep L (fun file op => ¬ op.SplitsRoot L file) (insertOps kvs) file := by
  induction kvs generalizing file with
  | nil => trivial
  | cons kv kvs ih =>
      obtain ⟨_, file₁, hrun₁, hrest⟩ := Prog.bind_eq_ok.1 hrun
      refine ⟨hroot.1, ?_⟩
      rw [TreeOp.apply, hrun₁]
      exact ih (hroot.2 file₁ hrun₁) hrest

/-- An insert from one reached tree to another does not split the root. -/
theorem Reached.not_splitsRoot {file file' : TreeFile K V} {k : K} {v : V} (h : Reached L file)
    (h' : Reached L file') (hnew : search L k file = .ok [] file)
    (hrun : BStarPlusTree.insert L k v file = .ok () file') : ¬ SplitsRoot L file k := by
  obtain ⟨shape, hrep, hv⟩ := h.represents
  obtain ⟨shape', hrep', -⟩ := h'.represents
  have hnew := (hrep.search_eq_nil_iff L hv).1 hnew
  exact fun hsplit => not_atMostOneLevel_of_splitsRoot L hrep hv hnew hsplit hrun hrep'.atMostOneLevel

/-- Two leaves are filled in ascending order, the least key is removed, two more keys are inserted, the greatest
    key is removed and one is updated. -/
def ascendingOps (key : Nat → K) (v : V) : List (TreeOp K V) :=
  insertOps (firstPairs key v (L.maxKeysLeaf + 1)) ++
    [.remove (key 0), .insert (key (L.maxKeysLeaf + 1)) v, .insert (key (L.maxKeysLeaf + 2)) v,
      .remove (key (L.maxKeysLeaf + 2)), .update (key 1) v]

theorem ascendingOps_everyStep {key : Nat → K} {v : V} {file₁ file₂ file₃ file₄ : TreeFile K V}
    (h : Ascends L key v file₁ file₂ file₃ file₄)
    (hkey : ∀ i j, i < j → j ≤ L.maxKeysLeaf → key i < key j) :
    EveryStep L (fun file op => op.KeyIsNew L file) (ascendingOps L key v) (create L) ∧
      EveryStep L (fun file op => ¬ op.SplitsRoot L file) (ascendingOps L key v) (create L) := by
  have hmax := L.three_le_maxKeysLeaf
  have hpairs : firstPairs key v (L.maxKeysLeaf + 1)
      = firstPairs key v L.maxKeysLeaf ++ [(key L.maxKeysLeaf, v)] := by
    rw [firstPairs, List.range_succ, List.map_append, List.map_singleton, ← firstPairs]
  have hnodup := nodup_firstPairs (n := L.maxKeysLeaf + 1) (fun i j hij hj => hkey i j hij (by omega)) v
  have hroot : ∀ n ≤ L.maxKeysLeaf + 1, NeverSplitsRoot L (firstPairs key v n) (create L) := fun n hn => by
    refine neverSplitsRoot_of_length L (represents_create L) trivial
      (nodup_firstPairs (fun i j hij hj => hkey i j hij (by omega)) v) (by simp [Shape.entries]) ?_
    simp only [Shape.entries, firstPairs, splitSize, List.length_nil, List.length_map, List.length_range]
    omega
  have hfills := runOps_insertOps L h.fills
  have h₂ : (TreeOp.remove (key 0)).apply L file₁ = file₂ := by rw [TreeOp.apply, h.lends]; rfl
  have h₃ : (TreeOp.insert (key (L.maxKeysLeaf + 1)) v).apply L file₂ = file₃ := by
    rw [TreeOp.apply, h.insert₃]
    rfl
  have h₄ : (TreeOp.insert (key (L.maxKeysLeaf + 2)) v).apply L file₃ = file₄ := by
    rw [TreeOp.apply, h.insert₄]
    rfl
  constructor
  · refine everyStep_append L ?_ ?_
    · rw [hpairs] at hnodup ⊢
      exact keyIsNew_insertOps L (represents_create L) trivial hnodup (by simp [Shape.entries])
        (hroot _ (Nat.le_succ _))
    · rw [hfills]
      refine ⟨trivial, ?_⟩
      rw [h₂]
      refine ⟨h.new₃, ?_⟩
      rw [h₃]
      exact ⟨h.new₄, trivial, trivial, trivial⟩
  · refine everyStep_append L (not_splitsRoot_insertOps L (hroot _ le_rfl) h.fills) ?_
    rw [hfills]
    refine ⟨id, ?_⟩
    rw [h₂]
    refine ⟨h.reached₂.not_splitsRoot L h.reached₃ h.new₃ h.insert₃, ?_⟩
    rw [h₃]
    exact ⟨h.reached₃.not_splitsRoot L h.reached₄ h.new₄ h.insert₄, id, id, trivial⟩

/-! ## The trees of the repository -/

/-- The keys 0 to 337 split the root, the remove of 0 makes one leaf take an entry from the other, and the remove
    of 339 fails. -/
theorem runOps_wellRepresented_lends :
    EveryStep uint32Tree (fun file op => ¬ op.SplitsRoot uint32Tree file)
        (ascendingOps uint32Tree (Fin.ofNat (2 ^ 32)) ⟨0, 0⟩) (create uint32Tree) ∧
      ∀ done, done <+: ascendingOps uint32Tree (Fin.ofNat (2 ^ 32)) ⟨0, 0⟩ →
        WellRepresented uint32Tree (runOps uint32Tree (create uint32Tree) done) := by
  have hmax : uint32Tree.maxKeysLeaf = 337 := by decide
  have hkey : ∀ i j, i < j → j ≤ uint32Tree.maxKeysLeaf → Fin.ofNat (2 ^ 32) i < Fin.ofNat (2 ^ 32) j := by
    intro i j hij hj
    rw [hmax] at hj
    rw [Fin.lt_def, Fin.val_ofNat, Fin.val_ofNat, Nat.mod_eq_of_lt (by omega),
      Nat.mod_eq_of_lt (by omega)]
    exact hij
  obtain ⟨file₁, file₂, file₃, file₄, h, -⟩ := ascending_uint32
  obtain ⟨hnew, hroot⟩ := ascendingOps_everyStep uint32Tree h hkey
  exact ⟨hroot, (runOps_wellRepresented uint32Tree hnew).2 hroot⟩

/-- The keys 0 to 114299 in ascending order: the last insert breaks the invariant. -/
theorem ascending_uint32_breaks :
    EveryStep uint32Tree (fun file op => op.KeyIsNew uint32Tree file)
        (insertOps (firstPairs (Fin.ofNat (2 ^ 32)) ⟨0, 0⟩ 114300)) (create uint32Tree)
      ∧ ¬ WellRepresented uint32Tree (runOps uint32Tree (create uint32Tree)
          (insertOps (firstPairs (Fin.ofNat (2 ^ 32)) ⟨0, 0⟩ 114300))) := by
  have hsize : splitSize uint32Tree = 114299 := by decide
  have hkey : ∀ i j, i < j → j ≤ splitSize uint32Tree →
      Fin.ofNat (2 ^ 32) i < Fin.ofNat (2 ^ 32) j := by
    intro i j hij hj
    rw [hsize] at hj
    rw [Fin.lt_def, Fin.val_ofNat, Fin.val_ofNat, Nat.mod_eq_of_lt (by omega),
      Nat.mod_eq_of_lt (by omega)]
    exact hij
  have hbreaks := ascending_breaks uint32Tree (by decide) hkey ⟨0, 0⟩
  rwa [hsize] at hbreaks

end QuasarDB.Storage
