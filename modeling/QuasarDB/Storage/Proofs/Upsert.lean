import QuasarDB.Storage.Proofs.RangeSearch

set_option autoImplicit false

/-! # Update or insert

`update_or_insert` asks `findLeaf` for a leaf and takes one as a sign that the key is in the tree. So
it updates whenever there is a root, and an update of a key that is not there changes nothing. -/

namespace QuasarDB.Storage

open NodePage BStarPlusTree

variable {K V : Type} [LinearOrder K] [Inhabited K] (L : Instantiation K V)

section Upsert

variable {file file' : TreeFile K V} {shape shape' : Shape K V} {k : K} {v w : V}

/-- The law of an upsert: the key has the value afterwards, and every other key what it had. -/
def Upserts (file : TreeFile K V) (k : K) (v : V) : Prop :=
  ∃ file', updateOrInsert L k v file = .ok () file' ∧ search L k file' = .ok [v] file'
    ∧ ∀ k', k' ≠ k → ∃ vs, search L k' file = .ok vs file ∧ search L k' file' = .ok vs file'

/-! ## The two branches -/

theorem updateOrInsert_insert (hroot : file.rootId = -1) (k : K) (v : V) :
    updateOrInsert L k v file = BStarPlusTree.insert L k v file := by
  have hfind : BStarPlusTree.findLeaf k file = .ok (none, []) file := by
    rw [BStarPlusTree.findLeaf, Prog.run_get_bind, if_pos hroot]
    rfl
  rw [updateOrInsert, Prog.bind_ok hfind]

/-- With a root it is an update whose answer is thrown away. -/
theorem updateOrInsert_update (h : Represents file shape) (hv : shape.Valid L)
    (hroot : file.rootId ≠ -1) (k : K) (v : V) :
    updateOrInsert L k v file = (BStarPlusTree.update k v >>= fun _ => pure ()) file := by
  rcases h.findLeaf_spec L hv k with ⟨rfl, -⟩ | ⟨leafId, es, next, stack, hfind, -⟩
  · exact absurd h.onDisk.1 hroot
  · rw [updateOrInsert, Prog.bind_ok hfind, BStarPlusTree.update, bind_assoc, Prog.bind_ok hfind,
      bind_assoc]
    rfl

/-! ## What the searches return afterwards -/

omit [Inhabited K] in
/-- Two trees with the same values for a key answer a search for it alike. -/
theorem search_unchanged (h : Represents file shape) (hv : shape.Valid L)
    (h' : Represents file' shape') (hv' : shape'.Valid L)
    (heq : ∀ w, (k, w) ∈ shape'.entries ↔ (k, w) ∈ shape.entries) :
    ∃ vs, search L k file = .ok vs file ∧ search L k file' = .ok vs file' := by
  by_cases hk : ∃ w, (k, w) ∈ shape.entries
  · obtain ⟨w, hw⟩ := hk
    exact ⟨[w], h.search_of_mem L hv hw, h'.search_of_mem L hv' ((heq w).2 hw)⟩
  · have hno : ∀ e ∈ shape.entries, e.1 ≠ k := by
      rintro ⟨_, w⟩ he rfl
      exact hk ⟨w, he⟩
    have hno' : ∀ e ∈ shape'.entries, e.1 ≠ k := by
      rintro ⟨_, w⟩ he rfl
      exact hk ⟨w, (heq w).1 he⟩
    exact ⟨[], h.search_of_not_mem L hv hno, h'.search_of_not_mem L hv' hno'⟩

/-- An empty tree gets the key by an insert. -/
theorem upserts_of_empty (h : Represents file shape) (hv : shape.Valid L)
    (hroot : file.rootId = -1) (k : K) (v : V) : Upserts L file k v := by
  have hempty : ∀ e, e ∉ shape.entries := fun e he => ((h.hasEntry_iff e).2 he).1 hroot
  have hsplit : ¬ SplitsRoot L file k := fun hs => hs.1 hroot
  obtain ⟨file', shape', hrun, hins⟩ :=
    insert_spec L h hv (fun e he => absurd he (hempty e)) hsplit v
  refine ⟨file', ?_, ?_, fun k' hk' => ?_⟩
  · rw [updateOrInsert_insert L hroot, hrun]
  · exact hins.represents.search_of_mem L hins.valid ((hins.entries _).2 (Or.inl rfl))
  · refine search_unchanged L h hv hins.represents hins.valid fun w => ?_
    rw [hins.entries]
    constructor
    · rintro (heq | he)
      · exact absurd (congrArg Prod.fst heq) hk'
      · exact he
    · exact Or.inr

/-- A key that is there gets the value by an update. -/
theorem upserts_of_mem (h : Represents file shape) (hv : shape.Valid L)
    (hk : (k, w) ∈ shape.entries) (v : V) : Upserts L file k v := by
  have hroot : file.rootId ≠ -1 := ((h.hasEntry_iff _).2 hk).1
  obtain ⟨file', shape', hrun, hup⟩ := update_of_mem L h hv hk v
  refine ⟨file', ?_, ?_, fun k' hk' => ?_⟩
  · rw [updateOrInsert_update L h hv hroot, Prog.bind_ok hrun]
    rfl
  · exact hup.represents.search_of_mem L hup.valid ((hup.entries _).2 (Or.inl rfl))
  · refine search_unchanged L h hv hup.represents hup.valid fun w => ?_
    rw [hup.entries]
    constructor
    · rintro (heq | he)
      · exact absurd (congrArg Prod.fst heq) hk'
      · exact he.1
    · exact fun he => Or.inr ⟨he, hk'⟩

/-- A key that is not in a tree with a root is not inserted: the call returns and the file is what it
    was. -/
theorem updateOrInsert_of_not_mem (h : Represents file shape) (hv : shape.Valid L)
    (hroot : file.rootId ≠ -1) (hk : ∀ e ∈ shape.entries, e.1 ≠ k) (v : V) :
    updateOrInsert L k v file = .ok () file := by
  rcases h.findLeaf_spec L hv k with ⟨rfl, -⟩ | ⟨leafId, es, next, stack, hfind, hleaf, -, hes, -⟩
  · exact absurd h.onDisk.1 hroot
  · have hno : ∀ e ∈ es, e.1 ≠ k := fun e he heq => hk e ((hes e heq).2 he) heq
    rw [updateOrInsert, Prog.bind_ok hfind]
    exact Prog.bind_ok (hleaf.updateValue_of_not_mem hno v file)

/-- `update_or_insert` is an upsert if and only if the tree is empty or holds the key. -/
theorem upserts_iff (h : Represents file shape) (hv : shape.Valid L) (k : K) (v : V) :
    Upserts L file k v ↔ file.rootId = -1 ∨ ∃ w, HasEntry file (k, w) := by
  constructor
  · rintro ⟨file', hrun, hsearch, -⟩
    by_contra hno
    obtain ⟨hroot, hnone⟩ := not_or.1 hno
    have hk : ∀ e ∈ shape.entries, e.1 ≠ k := by
      rintro ⟨_, w⟩ he rfl
      exact hnone ⟨w, (h.hasEntry_iff _).2 he⟩
    rw [updateOrInsert_of_not_mem L h hv hroot hk] at hrun
    obtain rfl := (EStateM.Result.ok.inj hrun).2
    rw [h.search_of_not_mem L hv hk] at hsearch
    exact absurd hsearch (by simp)
  · rintro (hroot | ⟨w, hw⟩)
    · exact upserts_of_empty L h hv hroot k v
    · exact upserts_of_mem L h hv ((h.hasEntry_iff _).1 hw) v

end Upsert

/-! ## The trees of the repository -/

/-- The one key of a tree gets another value. -/
theorem upserts_iff_present :
    ∃ file, insertAll uint32Tree [(7, ⟨0, 1⟩)] (create uint32Tree) = .ok () file
      ∧ Upserts uint32Tree file 7 ⟨0, 2⟩ := by
  obtain ⟨file, shape, hrun, h, hv, hentries⟩ :=
    represents_insertAll uint32Tree
      (by decide : ([((7 : Fin (2 ^ 32)), (⟨0, 1⟩ : RecordAddress))].map Prod.fst).Nodup)
      (by decide)
  refine ⟨file, hrun, (upserts_iff uint32Tree h hv 7 ⟨0, 2⟩).2 (Or.inr ⟨⟨0, 1⟩, ?_⟩)⟩
  rw [hentries]
  simp

/-- Another key is not inserted beside it. -/
theorem updateOrInsert_uint32_drops :
    ∃ file, insertAll uint32Tree [(7, ⟨0, 1⟩)] (create uint32Tree) = .ok () file
      ∧ WellRepresented uint32Tree file
      ∧ updateOrInsert uint32Tree 9 ⟨0, 2⟩ file = .ok () file
      ∧ search uint32Tree 9 file = .ok [] file
      ∧ ¬ Upserts uint32Tree file 9 ⟨0, 2⟩ := by
  obtain ⟨file, shape, hrun, h, hv, hentries⟩ :=
    represents_insertAll uint32Tree
      (by decide : ([((7 : Fin (2 ^ 32)), (⟨0, 1⟩ : RecordAddress))].map Prod.fst).Nodup)
      (by decide)
  have hroot : file.rootId ≠ -1 := ((hentries (7, ⟨0, 1⟩)).2 (by simp)).1
  have hno : ∀ e ∈ shape.entries, e.1 ≠ 9 := by
    intro e he
    rw [← h.hasEntry_iff, hentries, List.mem_singleton] at he
    rw [he]
    decide
  have hkeep := updateOrInsert_of_not_mem uint32Tree h hv hroot hno ⟨0, 2⟩
  have hsearch := h.search_of_not_mem uint32Tree hv hno
  refine ⟨file, hrun, h.wellRepresented uint32Tree hv, hkeep, hsearch, ?_⟩
  rintro ⟨file', hrun', hfound, -⟩
  rw [hkeep] at hrun'
  obtain rfl := (EStateM.Result.ok.inj hrun').2
  rw [hsearch] at hfound
  exact absurd hfound (by simp)

end QuasarDB.Storage
