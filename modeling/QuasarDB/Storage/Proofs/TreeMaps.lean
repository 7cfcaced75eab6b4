import QuasarDB.Storage.TreeCalls
import QuasarDB.Storage.Proofs.Upsert

set_option autoImplicit false

/-! # A tree is a map over whole runs

Calls of every kind in every order, as long as no tree gets so large that its root may be split: each is
answered as the map answers it, and after each the file holds the map. -/

namespace QuasarDB.Storage

open NodePage BStarPlusTree

variable {K V : Type} [LinearOrder K] [Inhabited K] (L : Instantiation K V)

/-- The file holds a tree of at most one internal level with the entries of a map. -/
def Implements (file : TreeFile K V) (map : AList fun _ : K => V) : Prop :=
  ∃ shape : Shape K V, Represents file shape ∧ shape.Valid L ∧
    ∀ k v, (k, v) ∈ shape.entries ↔ map.lookup k = some v

section Map

variable {map : AList fun _ : K => V} {shape : Shape K V} {k : K}

omit [Inhabited K] in
/-- A map has as many keys as the tree has entries. -/
theorem length_keys (hv : shape.Valid L)
    (hentries : ∀ k v, (k, v) ∈ shape.entries ↔ map.lookup k = some v) :
    map.keys.length = shape.entries.length := by
  have hnodup : (shape.entries.map Prod.fst).Nodup :=
    List.pairwise_map.2 (hv.sorted.imp fun hlt => hlt.ne)
  have hperm : map.keys.Perm (shape.entries.map Prod.fst) := by
    refine (List.perm_ext_iff_of_nodup map.keys_nodup hnodup).2 fun k => ?_
    rw [← AList.mem_keys, ← AList.lookup_isSome, Option.isSome_iff_exists, List.mem_map]
    constructor
    · rintro ⟨v, hlookup⟩
      exact ⟨(k, v), (hentries k v).2 hlookup, rfl⟩
    · rintro ⟨⟨_, v⟩, he, rfl⟩
      exact ⟨v, (hentries _ v).1 he⟩
  rw [hperm.length_eq, List.length_map]

omit [Inhabited K] in
theorem mem_map_iff (hentries : ∀ k v, (k, v) ∈ shape.entries ↔ map.lookup k = some v) :
    k ∈ map ↔ ∃ v, (k, v) ∈ shape.entries := by
  rw [← AList.lookup_isSome, Option.isSome_iff_exists]
  exact exists_congr fun v => (hentries k v).symm

omit [Inhabited K] in
theorem entries_ne (hentries : ∀ k v, (k, v) ∈ shape.entries ↔ map.lookup k = some v) (hk : k ∉ map) :
    ∀ e ∈ shape.entries, e.1 ≠ k := by
  rintro ⟨_, v⟩ he rfl
  exact hk ((mem_map_iff hentries).2 ⟨v, he⟩)

omit [Inhabited K] in
/-- A tree has a root if the map has a key. -/
theorem rootId_iff {file : TreeFile K V} (h : Represents file shape) (hv : shape.Valid L)
    (hentries : ∀ k v, (k, v) ∈ shape.entries ↔ map.lookup k = some v) :
    file.rootId = -1 ↔ map.keys = [] := by
  rw [← List.length_eq_zero_iff, length_keys L hv hentries, List.length_eq_zero_iff]
  constructor
  · intro hroot
    refine List.eq_nil_iff_forall_not_mem.2 fun e he => ?_
    exact ((h.hasEntry_iff e).2 he).1 hroot
  · intro hempty
    cases shape with
    | empty => exact h.onDisk.1
    | leaf id es => exact absurd hempty hv.1
    | level root ks leaves =>
        obtain ⟨leaf, hleaf⟩ := List.exists_mem_of_length_pos (Nat.lt_of_lt_of_le Nat.zero_lt_two hv.two)
        obtain ⟨e, he⟩ := List.exists_mem_of_ne_nil _ (hv.nonempty L leaf hleaf)
        have hmem : e ∈ leafEntries leaves :=
          List.mem_flatten.2 ⟨leaf.2, List.mem_map_of_mem hleaf, he⟩
        exact absurd hmem (List.eq_nil_iff_forall_not_mem.1 hempty e)

end Map

/-! ## One call -/

namespace Implements

variable {file : TreeFile K V} {map : AList fun _ : K => V} {k : K}

theorem wellRepresented (h : Implements L file map) : WellRepresented L file := by
  obtain ⟨shape, hrep, hv, -⟩ := h
  exact hrep.wellRepresented L hv

omit [Inhabited K] in
theorem create : Implements L (BStarPlusTree.create L) ∅ :=
  ⟨.empty, represents_create L, trivial, fun k v => by simp [Shape.entries]⟩

omit [Inhabited K] in
theorem search (h : Implements L file map) (k : K) :
    BStarPlusTree.search L k file = .ok (map.lookup k).toList file := by
  obtain ⟨shape, hrep, hv, hentries⟩ := h
  cases hlookup : map.lookup k with
  | none => exact hrep.search_of_not_mem L hv (entries_ne hentries (AList.lookup_eq_none.1 hlookup))
  | some v => exact hrep.search_of_mem L hv ((hentries k v).2 hlookup)

theorem insert (h : Implements L file map) (hk : k ∉ map) (hsize : map.keys.length < splitSize L)
    (v : V) : ∃ file', BStarPlusTree.insert L k v file = .ok () file' ∧
      Implements L file' (map.insert k v) := by
  obtain ⟨shape, hrep, hv, hentries⟩ := h
  have hroot : ¬ SplitsRoot L file k := by
    intro hs
    have hle := splitSize_le L hrep hv hs
    rw [length_keys L hv hentries] at hsize
    omega
  obtain ⟨file', shape', hrun, hins⟩ := insert_spec L hrep hv (entries_ne hentries hk) hroot v
  refine ⟨file', hrun, shape', hins.represents, hins.valid, fun k' v' => ?_⟩
  rw [hins.entries, hentries, Prod.mk.injEq]
  by_cases heq : k' = k
  · subst heq
    simp [AList.lookup_eq_none.2 hk, eq_comm]
  · simp [heq, AList.lookup_insert_ne heq]

omit [Inhabited K] in
/-- A key that is there gets another value. -/
theorem update_of_mem (h : Implements L file map) (hk : k ∈ map) (v : V) :
    ∃ file', BStarPlusTree.update k v file = .ok true file' ∧ Implements L file' (map.insert k v) := by
  obtain ⟨shape, hrep, hv, hentries⟩ := h
  obtain ⟨w, hw⟩ := (mem_map_iff hentries).1 hk
  obtain ⟨file', shape', hrun, hup⟩ := QuasarDB.Storage.update_of_mem L hrep hv hw v
  refine ⟨file', hrun, shape', hup.represents, hup.valid, fun k' v' => ?_⟩
  rw [hup.entries, hentries, Prod.mk.injEq]
  by_cases heq : k' = k
  · subst heq
    simp [eq_comm]
  · simp [heq, AList.lookup_insert_ne heq]

omit [Inhabited K] in
/-- A key that is not there gets no value, and an empty tree throws. -/
theorem update_of_not_mem (h : Implements L file map) (hk : k ∉ map) (v : V) :
    BStarPlusTree.update k v file =
      if map.keys = [] then .error (.exception "Key not found in b*+-tree.") file else .ok false file := by
  obtain ⟨shape, hrep, hv, hentries⟩ := h
  rcases hrep.findLeaf_spec L hv k with ⟨rfl, hfind⟩ | ⟨leafId, es, next, stack, hfind, hleaf, hs, hes, -⟩
  · rw [if_pos ((rootId_iff L hrep hv hentries).1 hrep.onDisk.1), BStarPlusTree.update, Prog.bind_ok hfind]
    rfl
  · have hroot : file.rootId ≠ -1 := by
      intro hroot
      rw [BStarPlusTree.findLeaf, Prog.run_get_bind, if_pos hroot] at hfind
      exact absurd hfind (by simp)
    have hno : ∀ e ∈ es, e.1 ≠ k := fun e he heq =>
      entries_ne hentries hk e ((hes e heq).2 he) heq
    rw [if_neg fun hempty => hroot ((rootId_iff L hrep hv hentries).2 hempty), BStarPlusTree.update,
      Prog.bind_ok hfind]
    simp [hleaf.updateValue_of_not_mem hno]

theorem updateOrInsert (h : Implements L file map) (hk : map.keys = [] ∨ k ∈ map) (v : V) :
    ∃ file', BStarPlusTree.updateOrInsert L k v file = .ok () file' ∧
      Implements L file' (map.insert k v) := by
  obtain ⟨shape, hrep, hv, hentries⟩ := h
  by_cases hroot : file.rootId = -1
  · have hempty := (rootId_iff L hrep hv hentries).1 hroot
    have hnot : k ∉ map := by
      rw [AList.mem_keys, hempty]
      exact List.not_mem_nil
    have hsize : map.keys.length < splitSize L := by
      have hmax := L.three_le_maxKeysLeaf
      rw [hempty, splitSize, List.length_nil]
      omega
    rw [updateOrInsert_insert L hroot]
    exact insert L ⟨shape, hrep, hv, hentries⟩ hnot hsize v
  · have hmem : k ∈ map := hk.resolve_left fun hempty => hroot ((rootId_iff L hrep hv hentries).2 hempty)
    obtain ⟨file', hrun, hmap⟩ := update_of_mem L ⟨shape, hrep, hv, hentries⟩ hmem v
    refine ⟨file', ?_, hmap⟩
    rw [updateOrInsert_update L hrep hv hroot, Prog.bind_ok hrun]
    rfl

omit [Inhabited K] in
theorem erased {file' : TreeFile K V} {shape shape' : Shape K V}
    (hentries : ∀ k v, (k, v) ∈ shape.entries ↔ map.lookup k = some v)
    (hremoved : Removed L file' shape k shape') : Implements L file' (map.erase k) := by
  refine ⟨shape', hremoved.represents, hremoved.valid, fun k' v' => ?_⟩
  rw [hremoved.entries, hentries]
  by_cases heq : k' = k
  · subst heq
    simp
  · simp [heq, AList.lookup_erase_ne heq]

omit [Inhabited K] in
theorem remove_of_not_mem (h : Implements L file map) (hk : k ∉ map) :
    BStarPlusTree.remove L k file = .ok false file := by
  obtain ⟨shape, hrep, hv, hentries⟩ := h
  exact QuasarDB.Storage.remove_of_not_mem L hrep hv (entries_ne hentries hk)

omit [Inhabited K] in
/-- Two leaves that cannot be merged have an awkward number of entries. -/
theorem awkward_of_mergeTooBig {shape : Shape K V} (hrep : Represents file shape)
    (hv : shape.Valid L) (hbig : MergeTooBig L file k) :
    TreeCall.Awkward L (shape.entries.length - 1) := by
  obtain ⟨hroot, hinner, htwo, -, hsmall, hpoor, hmany⟩ := hbig
  cases shape with
  | empty => exact absurd hrep.onDisk.1 hroot
  | leaf id es =>
      rw [hrep.onDisk.1, hrep.onDisk.2.2.isLeaf] at hinner
      exact absurd hinner (by simp)
  | level root ks leaves =>
      rw [hrep.onDisk.rootId, hrep.rootPage.childrenSize_eq, List.length_map] at htwo
      obtain ⟨a, b, t, ⟨id, es⟩, z, rfl, rfl, ha, hle, hlt⟩ := hv.ordered.route k
      obtain ⟨hidx, hrouted⟩ := routedLeaf_eq hrep hv.ordered ha hle hlt
      have hpos : 0 < es.length := List.length_pos_of_ne_nil (hv.nonempty L (id, es) (by simp))
      rw [List.length_append, List.length_cons] at htwo
      -- the other leaf is the one before or the one behind
      have hother : ∃ id' es', leafEntries t ++ leafEntries z = es' ∧ otherLeaf file k = file.page id' ∧
          (file.page id').size = es'.length := by
        rw [otherLeaf, hidx, hrep.onDisk.rootId]
        cases t with
        | nil =>
            obtain ⟨⟨id', es'⟩, rfl⟩ := List.length_eq_one_iff.1 (Nat.succ.inj (by simpa using htwo))
            have hmem : (id', es') ∈ [] ++ (id, es) :: [(id', es')] := by simp
            obtain ⟨next, hleaf⟩ := hrep.onDisk.run.isLeaf hmem
            refine ⟨id', es', by simp [leafEntries], ?_, hleaf.size_eq⟩
            exact congrArg file.page (hrep.rootPage.child (i := 1) (by simp))
        | cons leaf t =>
            obtain ⟨rfl, rfl⟩ : t = [] ∧ z = [] := by
              rw [List.length_cons] at htwo
              exact ⟨List.eq_nil_of_length_eq_zero (by omega), List.eq_nil_of_length_eq_zero (by omega)⟩
            have hmem : leaf ∈ [leaf] ++ (id, es) :: [] := by simp
            obtain ⟨next, hleaf⟩ := hrep.onDisk.run.isLeaf hmem
            refine ⟨leaf.1, leaf.2, by simp [leafEntries], ?_, hleaf.size_eq⟩
            exact congrArg file.page (hrep.rootPage.child (i := 0) (by simp))
      obtain ⟨id', es', hes', hpage, hsize⟩ := hother
      have hcount : (Shape.level root (a ++ b) (t ++ (id, es) :: z)).entries.length =
          es.length + es'.length := by
        rw [← hes']
        simp only [Shape.entries, leafEntries_append, leafEntries_cons, List.length_append]
        omega
      rw [hrouted, hrep.isLeaf.size_eq, hpage, hsize] at hmany
      rw [hrouted, hrep.isLeaf.size_eq] at hsmall
      rw [hpage, hsize] at hpoor
      rw [hcount]
      exact ⟨by omega, by omega⟩

omit [Inhabited K] in
/-- A key that is there is taken out, also where the two leaves of the root cannot be merged then. -/
theorem remove_of_mem (h : Implements L file map) (hk : k ∈ map) :
    ∃ file', Implements L file' (map.erase k) ∧
      (BStarPlusTree.remove L k file = .ok true file' ∨
        ∃ condition, BStarPlusTree.remove L k file = .error (.assertion condition) file' ∧
          TreeCall.Awkward L (map.erase k).keys.length) := by
  obtain ⟨shape, hrep, hv, hentries⟩ := h
  obtain ⟨v, hkv⟩ := (mem_map_iff hentries).1 hk
  rcases QuasarDB.Storage.remove_of_mem L hrep hv hkv with ⟨-, file', shape', hrun, hremoved⟩ |
    ⟨hbig, condition, file', shape', hrun, hremoved⟩
  · exact ⟨file', erased L hentries hremoved, .inl hrun⟩
  · refine ⟨file', erased L hentries hremoved, .inr ⟨condition, hrun, ?_⟩⟩
    have hawkward := awkward_of_mergeTooBig L hrep hv hbig
    rwa [← length_keys L hv hentries, ← List.length_erase_of_mem hk, ← AList.keys_erase] at hawkward

theorem rangeSearch (low high : K) (h : Implements L file map) :
    if map.keys = [] ∨ ∃ k ∈ map, high < k then
      ∃ es, BStarPlusTree.rangeSearch low high file = .ok es file ∧ TreeCall.Lists map low high es
    else BStarPlusTree.rangeSearch low high file =
      .error (.exception "Failed to read complete page 4294967295") file := by
  obtain ⟨shape, hrep, hv, hentries⟩ := h
  have hwell := hrep.wellRepresented L hv
  have hhas : ∀ e, HasEntry file e ↔ map.lookup e.1 = some e.2 := fun e =>
    (hrep.hasEntry_iff e).trans (hentries e.1 e.2)
  have hroot := rootId_iff L hrep hv hentries
  have habove : (∃ e, HasEntry file e ∧ high < e.1) ↔ ∃ k ∈ map, high < k := by
    constructor
    · rintro ⟨e, he, hlt⟩
      exact ⟨e.1, (mem_map_iff hentries).2 ⟨e.2, (hrep.hasEntry_iff e).1 he⟩, hlt⟩
    · rintro ⟨k, hk, hlt⟩
      obtain ⟨v, hkv⟩ := (mem_map_iff hentries).1 hk
      exact ⟨(k, v), (hrep.hasEntry_iff _).2 hkv, hlt⟩
  split
  case isTrue hor =>
    rw [← hroot, ← habove] at hor
    have hexact : RangeExact file low high := hor.elim rangeExact_of_empty (hwell.rangeExact L)
    obtain ⟨es, hrun, hsorted, hes⟩ := hexact
    exact ⟨es, hrun, hsorted, fun k v => by rw [hes, hhas]⟩
  case isFalse hnor =>
    rw [not_or, ← hroot, ← habove] at hnor
    refine hwell.rangeSearch_end L hnor.1 fun e he => ?_
    by_contra hlt
    exact hnor.2 ⟨e, he, not_le.1 hlt⟩

end Implements

/-! ## Runs -/

namespace TreeCall

/-- An insert is of a key that is not there, into a tree whose root cannot be split yet; an upsert is of a key
    that is there, or into an empty tree. -/
def AsUsed (map : AList fun _ : K => V) : TreeCall K V → Prop
  | insert k _ => k ∉ map ∧ map.keys.length < splitSize L
  | updateOrInsert k _ => map.keys = [] ∨ k ∈ map
  | _ => True

def AllAsUsed : List (TreeCall K V) → (AList fun _ : K => V) → Prop
  | [], _ => True
  | call :: calls, map => call.AsUsed L map ∧ AllAsUsed calls (call.after map)

/-- What one call does to the tree and to the map. -/
theorem perform_means {file : TreeFile K V} {map : AList fun _ : K => V} {call : TreeCall K V}
    (h : Implements L file map) (hused : call.AsUsed L map) :
    call.MayAnswer L map (call.perform L file).1 ∧
      Implements L (call.perform L file).2 (call.after map) := by
  cases call with
  | insert k v =>
      obtain ⟨file', hrun, h'⟩ := h.insert L hused.1 hused.2 v
      rw [perform, hrun]
      exact ⟨rfl, h'⟩
  | update k v =>
      by_cases hk : k ∈ map
      · obtain ⟨file', hrun, h'⟩ := h.update_of_mem L hk v
        rw [perform, hrun, after, if_pos hk]
        refine ⟨?_, h'⟩
        rw [MayAnswer, if_neg (List.ne_nil_of_mem (AList.mem_keys.1 hk)), decide_eq_true hk]
        rfl
      · rw [perform, h.update_of_not_mem L hk v, after, if_neg hk, MayAnswer]
        split
        · exact ⟨rfl, h⟩
        · rw [decide_eq_false hk]
          exact ⟨rfl, h⟩
  | updateOrInsert k v =>
      obtain ⟨file', hrun, h'⟩ := h.updateOrInsert L hused v
      rw [perform, hrun]
      exact ⟨rfl, h'⟩
  | remove k =>
      by_cases hk : k ∈ map
      · obtain ⟨file', h', hrun | ⟨condition, hrun, hawkward⟩⟩ := h.remove_of_mem L hk
        · rw [perform, hrun]
          refine ⟨.inl ?_, h'⟩
          rw [decide_eq_true hk]
          rfl
        · rw [perform, hrun]
          exact ⟨.inr ⟨condition, rfl, hk, hawkward⟩, h'⟩
      · rw [perform, h.remove_of_not_mem L hk]
        refine ⟨.inl ?_, ?_⟩
        · rw [decide_eq_false hk]
          rfl
        · have herase : map.erase k = map := AList.ext (List.kerase_of_notMem_keys hk)
          rw [after, herase]
          exact h
  | search k =>
      rw [perform, h.search L k]
      exact ⟨rfl, h⟩
  | rangeSearch low high =>
      have hrange := h.rangeSearch L low high
      rw [perform, MayAnswer]
      split at hrange
      case isTrue hor =>
        obtain ⟨es, hrun, hes⟩ := hrange
        rw [hrun, if_pos hor]
        exact ⟨⟨es, rfl, hes⟩, h⟩
      case isFalse hnor =>
        rw [hrange, if_neg hnor]
        exact ⟨rfl, h⟩

/-- A tree refines a map. -/
theorem serve_refines :
    (serve L).Refines (Means L) (Implements L) fun calls _ map => AllAsUsed L calls map := by
  constructor
  intro call later file map h hused
  obtain ⟨hanswer, hnext⟩ := perform_means L h hused.1
  exact ⟨(call.perform L file).1, (call.perform L file).2, call.after map, rfl, ⟨hanswer, rfl⟩, hnext,
    hused.2⟩

/-- A tree that starts empty is a map in every run of inserts, updates, upserts, removes, searches and range
    searches. -/
theorem run_means {calls : List (TreeCall K V)} (hused : AllAsUsed L calls ∅) :
    ∃ answers file map, (serve L).run calls (BStarPlusTree.create L) = some (answers, file) ∧
      (Means L).Allows calls ∅ answers map ∧ Implements L file map ∧ WellRepresented L file := by
  obtain ⟨answers, file, map, hrun, hallows, h⟩ := (serve_refines L).run (Implements.create L) hused
  exact ⟨answers, file, map, hrun, hallows, h, h.wellRepresented L⟩

/-- A run with calls of every kind. -/
theorem run_means_uint32 :
    ∃ answers file map,
      (serve uint32Tree).run
          [.insert 7 ⟨0, 1⟩, .updateOrInsert 7 ⟨0, 2⟩, .insert 9 ⟨0, 3⟩, .update 9 ⟨0, 4⟩,
            .rangeSearch 3 8, .remove 7, .search 7]
          (BStarPlusTree.create uint32Tree) = some (answers, file) ∧
        (Means uint32Tree).Allows
          [.insert 7 ⟨0, 1⟩, .updateOrInsert 7 ⟨0, 2⟩, .insert 9 ⟨0, 3⟩, .update 9 ⟨0, 4⟩,
            .rangeSearch 3 8, .remove 7, .search 7] ∅ answers map ∧
        Implements uint32Tree file map ∧ WellRepresented uint32Tree file := by
  refine run_means uint32Tree ⟨⟨?_, ?_⟩, .inr ?_, ⟨?_, ?_⟩, trivial, trivial, trivial, trivial, trivial⟩
  · exact List.not_mem_nil
  · decide
  · decide
  · decide
  · decide

end TreeCall

end QuasarDB.Storage
