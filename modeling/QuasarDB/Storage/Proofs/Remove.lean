import QuasarDB.Storage.Proofs.Underflow

set_option autoImplicit false

/-! # Removing a key, giving a key another value

A remove from a valid tree of at most one internal level leaves such a tree without the key, unless
the two leaves of a root are to be merged and do not fit in one (`MergeTooBig`). -/

namespace QuasarDB.Storage

open NodePage BStarPlusTree

variable {K V : Type} [LinearOrder K] (L : Instantiation K V)

/-! ## A root with two leaves -/

section Two

variable {file : TreeFile K V} {root l r : Int} {x : K} {es₁ es₂ : List (K × V)}

/-- The root and its leaves after a leaf below a root of two leaves became too small. -/
structure Settled (file' : TreeFile K V) (shape' : Shape K V) (es : List (K × V)) : Prop where
  represents : Represents file' shape'
  valid : shape'.Valid L
  entries : shape'.entries = es

/-- The two leaves of a root share their entries; one may have been empty. -/
theorem redistribute_two (h : Represents file (.level root [x] [(l, es₁), (r, es₂)]))
    (hsep : Separated [x] [es₁, es₂]) (hs : SortedKeys (es₁ ++ es₂))
    (hmax : es₁.length + es₂.length ≤ 2 * L.maxKeysLeaf)
    (hmin : 2 * (L.maxKeysLeaf / 2) ≤ es₁.length + es₂.length) :
    ∃ nodes file' y cs₁ cs₂,
      redistributeLeaves2to2 L (file.page l) (file.page r) (file.page root) 0 file = .ok nodes file'
      ∧ Represents file' (.level root [y] [(l, cs₁), (r, cs₂)])
      ∧ LevelValid L [y] [(l, cs₁), (r, cs₂)] ∧ cs₁ ++ cs₂ = es₁ ++ es₂
      ∧ cs₁.length = (es₁.length + es₂.length) / 2 := by
  have hmax₀ := L.three_le_maxKeysLeaf
  obtain ⟨nodes, file', y, cs₁, cs₂, hrun, hrep, -, hes, hsize, hy⟩ :=
    LeafLevel.redistributeLeaves2to2 L (a := []) (b := []) (t := []) (z := []) h.level rfl hmax
      (by omega)
  have h' : Represents file (.level root [x] ([] ++ ([(l, es₁), (r, es₂)] ++ []))) := h
  have hsum : cs₁.length + cs₂.length = es₁.length + es₂.length := by
    rw [← List.length_append, hes, List.length_append]
  have hs' : SortedKeys (cs₁ ++ cs₂) := hes ▸ hs
  refine ⟨nodes, file', y, cs₁, cs₂, hrun, h'.rewritten hrep,
    levelValid_two L ?_ hs' (by omega) (by omega), hes, hsize⟩
  rcases hy with ⟨rfl, rfl, rfl⟩ | hy
  · exact hsep
  · exact separated_of_startsWith hs' hy

/-- Two leaves that have at least half of a full one may stay as they are. -/
theorem settled_two (h : Represents file (.level root [x] [(l, es₁), (r, es₂)]))
    (hsep : Separated [x] [es₁, es₂]) (hs : SortedKeys (es₁ ++ es₂))
    (hl : L.maxKeysLeaf / 2 ≤ es₁.length ∧ es₁.length ≤ L.maxKeysLeaf)
    (hr : L.maxKeysLeaf / 2 ≤ es₂.length ∧ es₂.length ≤ L.maxKeysLeaf) :
    Settled L file (.level root [x] [(l, es₁), (r, es₂)]) (es₁ ++ es₂) :=
  ⟨h, levelValid_two L hsep hs hl hr, by simp [Shape.entries]⟩

theorem settled_merge (h : Represents file (.level root [x] [(l, es₁), (r, es₂)]))
    (hs : SortedKeys (es₁ ++ es₂)) (hpos : 0 < es₁.length + es₂.length)
    (hfit : es₁.length + es₂.length ≤ L.maxKeysLeaf) (i : Nat) :
    ∃ file', mergeLeaves2to1 L (file.page l) (file.page r) [(root, i)] file = .ok () file'
      ∧ Settled L file' (.leaf l (es₁ ++ es₂)) (es₁ ++ es₂) := by
  obtain ⟨file', hrun, hrep⟩ := h.mergeLeaves2to1 L hfit i
  refine ⟨file', hrun, hrep, ⟨?_, hs, ?_⟩, rfl⟩
  · exact List.ne_nil_of_length_pos (by rw [List.length_append]; exact hpos)
  · rw [List.length_append]
    exact hfit

/-- The left leaf is too small. -/
theorem handleLeafUnderflow_two_left (h : Represents file (.level root [x] [(l, es₁), (r, es₂)]))
    (hsep : Separated [x] [es₁, es₂]) (hs : SortedKeys (es₁ ++ es₂))
    (hl : L.maxKeysLeaf / 2 ≤ es₁.length + 1)
    (hl' : es₁.length ≤ L.maxKeysLeaf)
    (hr : L.maxKeysLeaf / 2 ≤ es₂.length ∧ es₂.length ≤ L.maxKeysLeaf) :
    (¬ (es₂.length ≤ L.maxKeysLeaf / 2 ∧ L.maxKeysLeaf < es₁.length + es₂.length) ∧
      ∃ file' shape', handleLeafUnderflow L (file.page l) [(root, 0)] file = .ok () file'
        ∧ Settled L file' shape' (es₁ ++ es₂)) ∨
    ((es₂.length ≤ L.maxKeysLeaf / 2 ∧ L.maxKeysLeaf < es₁.length + es₂.length) ∧
      ∃ condition, handleLeafUnderflow L (file.page l) [(root, 0)] file
        = .error (.assertion condition) file) := by
  have h' : Represents file (.level root [x] ([] ++ (l, es₁) :: (r, es₂) :: [])) := h
  by_cases hlend : L.maxKeysLeaf / 2 < es₂.length
  · refine Or.inl ⟨fun hbig => absurd hbig.1 (not_le.2 hlend), ?_⟩
    obtain ⟨nodes, file', y, cs₁, cs₂, hrun, hrep, hvalid, hes, -⟩ :=
      redistribute_two L h hsep hs (by omega) (by omega)
    refine ⟨file', _, ?_, hrep, hvalid, by simpa [Shape.entries] using hes⟩
    exact handleLeafUnderflow_right (t := []) (z := []) L h'.level (by simp)
      (by simpa [minLeafSize] using hlend) hrun
  · have hpoor : es₂.length ≤ L.maxKeysLeaf / 2 := not_lt.1 hlend
    have hmax := L.three_le_maxKeysLeaf
    have hjoin : handleLeafUnderflow L (file.page l) [(root, 0)] file = _ :=
      (handleLeafUnderflow_join L h'.level (by simp) (by simpa [minLeafSize] using hpoor)).trans
      (run_joinLeaves_right L h.level)
    by_cases hfit : es₁.length + es₂.length ≤ L.maxKeysLeaf
    · obtain ⟨file', hrun, hsettled⟩ := settled_merge L h hs (by omega) hfit 0
      rw [if_pos hfit] at hjoin
      exact Or.inl ⟨fun hbig => absurd hbig.2 (not_lt.2 hfit), file', _, hjoin.trans hrun, hsettled⟩
    · rw [if_neg hfit] at hjoin
      exact Or.inr ⟨⟨hpoor, not_le.1 hfit⟩, _, hjoin⟩

/-- The right leaf is too small. -/
theorem handleLeafUnderflow_two_right (h : Represents file (.level root [x] [(l, es₁), (r, es₂)]))
    (hsep : Separated [x] [es₁, es₂]) (hs : SortedKeys (es₁ ++ es₂))
    (hr : L.maxKeysLeaf / 2 ≤ es₂.length + 1)
    (hr' : es₂.length ≤ L.maxKeysLeaf)
    (hl : L.maxKeysLeaf / 2 ≤ es₁.length ∧ es₁.length ≤ L.maxKeysLeaf) :
    (¬ (es₁.length ≤ L.maxKeysLeaf / 2 ∧ L.maxKeysLeaf < es₁.length + es₂.length) ∧
      ∃ file' shape', handleLeafUnderflow L (file.page r) [(root, 1)] file = .ok () file'
        ∧ Settled L file' shape' (es₁ ++ es₂)) ∨
    ((es₁.length ≤ L.maxKeysLeaf / 2 ∧ L.maxKeysLeaf < es₁.length + es₂.length) ∧
      ∃ condition, handleLeafUnderflow L (file.page r) [(root, 1)] file
        = .error (.assertion condition) file) := by
  have h' : Represents file (.level root [x] ([] ++ (l, es₁) :: (r, es₂) :: [])) := h
  have h'' : Represents file (.level root [x] ([(l, es₁)] ++ (r, es₂) :: [])) := h
  by_cases hlend : L.maxKeysLeaf / 2 < es₁.length
  · refine Or.inl ⟨fun hbig => absurd hbig.1 (not_le.2 hlend), ?_⟩
    obtain ⟨nodes, file', y, cs₁, cs₂, hrun, hrep, hvalid, hes, -⟩ :=
      redistribute_two L h hsep hs (by omega) (by omega)
    refine ⟨file', _, ?_, hrep, hvalid, by simpa [Shape.entries] using hes⟩
    exact handleLeafUnderflow_left (t := []) (z := []) L h'.level (by simpa [minLeafSize] using hlend)
      hrun
  · have hpoor : es₁.length ≤ L.maxKeysLeaf / 2 := not_lt.1 hlend
    have hmax := L.three_le_maxKeysLeaf
    have hjoin : handleLeafUnderflow L (file.page r) [(root, 1)] file = _ :=
      (handleLeafUnderflow_join L h''.level (by simpa [minLeafSize] using hpoor) (by simp)).trans
      (run_joinLeaves_left L h.level)
    by_cases hfit : es₁.length + es₂.length ≤ L.maxKeysLeaf
    · obtain ⟨file', hrun, hsettled⟩ := settled_merge L h hs (by omega) hfit 1
      rw [if_pos hfit] at hjoin
      exact Or.inl ⟨fun hbig => absurd hbig.2 (not_lt.2 hfit), file', _, hjoin.trans hrun, hsettled⟩
    · rw [if_neg hfit] at hjoin
      exact Or.inr ⟨⟨hpoor, not_le.1 hfit⟩, _, hjoin⟩

end Two

/-! ## The condition under which a remove fails -/

/-- The leaf below the root that `key` is routed to. -/
def routedLeaf (file : TreeFile K V) (key : K) : NodePage K V :=
  file.page ((file.page file.rootId).children ((file.page file.rootId).childIdx key))

/-- The other leaf below a root with two leaves. -/
def otherLeaf (file : TreeFile K V) (key : K) : NodePage K V :=
  file.page ((file.page file.rootId).children (1 - (file.page file.rootId).childIdx key))

/-- A remove of `key` would merge the two leaves of the root, and they do not fit in one: the leaf
    of the key becomes smaller than two thirds, the other one has only the half it may have, and
    together they have more entries than a leaf. -/
def MergeTooBig (file : TreeFile K V) (key : K) : Prop :=
  file.rootId ≠ -1 ∧ (file.page file.rootId).isLeaf = false ∧
    (file.page file.rootId).childrenSize = 2 ∧
    (routedLeaf file key).findKeyIdxByExactCmp key ≠ none ∧
    (routedLeaf file key).size - 1 < L.minKeysLeaf ∧
    (otherLeaf file key).size ≤ L.maxKeysLeaf / 2 ∧
    L.maxKeysLeaf < (routedLeaf file key).size - 1 + (otherLeaf file key).size

section Level

variable {file : TreeFile K V} {root id : Int} {ks a b : List K} {es : List (K × V)}
  {t z leaves : List (LeafRecord K V)} {k : K} {v : V}

theorem routedLeaf_eq (h : Represents file (.level root (a ++ b) (t ++ (id, es) :: z)))
    (ho : Ordered (a ++ b) (t ++ (id, es) :: z)) (ha : a.length = t.length)
    (hle : ∀ k' ∈ a, k' ≤ k) (hlt : ∀ k' ∈ b, k < k') :
    (file.page file.rootId).childIdx k = t.length ∧ routedLeaf file k = file.page id := by
  have hidx : (file.page root).childIdx k = t.length := by
    rw [← ha]; exact h.rootPage.childIdx ho.sortedSeparators hle hlt
  have hchild := h.rootPage.child (i := t.length) (by simp)
  have hbound : t.length < ((t ++ (id, es) :: z).map Prod.fst).length := by simp
  have hget : ((t ++ (id, es) :: z).map Prod.fst)[t.length] = id := by simp
  rw [hget] at hchild
  rw [routedLeaf, h.onDisk.rootId, hidx, hchild]
  exact ⟨rfl, rfl⟩

/-- A remove below a root takes the entry out of its leaf first. -/
theorem remove_write (h : Represents file (.level root (a ++ b) (t ++ (id, es) :: z)))
    (ho : Ordered (a ++ b) (t ++ (id, es) :: z)) (ha : a.length = t.length)
    (hle : ∀ k' ∈ a, k' ≤ k) (hlt : ∀ k' ∈ b, k < k') (hk : (k, v) ∈ es) :
    ∃ file₁, Represents file₁ (.level root (a ++ b) (t ++ (id, eraseKey es k) :: z))
      ∧ Separated (a ++ b) ((t ++ (id, eraseKey es k) :: z).map Prod.snd)
      ∧ SortedKeys (leafEntries (t ++ (id, eraseKey es k) :: z))
      ∧ remove L k file
        = (if es.length - 1 < L.minKeysLeaf then
            handleLeafUnderflow L (file₁.page id) [(root, t.length)] >>= fun _ => pure true
          else pure true) file₁ := by
  have hs := ho.sorted_leaf
  have hlen := length_eraseKey hs hk
  obtain ⟨leaf, hrem, hleaf⟩ := h.isLeaf.removeFromLeaf hs hk
  have h₁ := h.writeLeaf hleaf
  have hnotRoot := h₁.level.leaf_ne_root
  rw [TreeFile.write_page_self] at hnotRoot
  obtain ⟨hsep₁, hs₁⟩ := ho.setChunk_sorted ha hle hlt
    (fun e he => Or.inr ⟨e, ((mem_eraseKey hs hk).1 he).1, rfl⟩)
    (hs.sublist (eraseKey_sublist es k))
  refine ⟨file.write id leaf, h₁, hsep₁, hs₁, ?_⟩
  have hunder : leaf.underflow L = decide (es.length - 1 < L.minKeysLeaf) := by
    rw [hleaf.underflow_eq, ← hlen, Nat.add_sub_cancel]
  rw [remove, Prog.bind_ok (h.findLeaf_level ho ha hle hlt)]
  simp only
  rw [Prog.bind_ok (hrem file)]
  simp only [if_true]
  rw [Prog.bind_ok (run_rootId _), if_neg hnotRoot, hunder, TreeFile.write_page_self]
  by_cases hsmall : es.length - 1 < L.minKeysLeaf
  · simp [hsmall]
  · simp [hsmall]

theorem mem_leafEntries_eraseKey (ho : Ordered (a ++ b) (t ++ (id, es) :: z))
    (ha : a.length = t.length) (hle : ∀ k' ∈ a, k' ≤ k) (hlt : ∀ k' ∈ b, k < k')
    (hk : (k, v) ∈ es) (e : K × V) :
    e ∈ leafEntries (t ++ (id, eraseKey es k) :: z) ↔
      e ∈ leafEntries (t ++ (id, es) :: z) ∧ e.1 ≠ k := by
  obtain ⟨hpre, hpost⟩ := ho.route_ne ha hle hlt
  have hpre' : e ∈ leafEntries t → e.1 ≠ k := fun he => (hpre e he).ne
  have hpost' : e ∈ leafEntries z → e.1 ≠ k := fun he => (hpost e he).ne'
  simp only [leafEntries_append, leafEntries_cons, List.mem_append,
    mem_eraseKey ho.sorted_leaf hk]
  tauto

/-- What a successful remove of a key that is there does. -/
structure Removed (file' : TreeFile K V) (shape : Shape K V) (k : K) (shape' : Shape K V) :
    Prop where
  represents : Represents file' shape'
  valid : shape'.Valid L
  entries : ∀ e, e ∈ shape'.entries ↔ e ∈ shape.entries ∧ e.1 ≠ k

/-- The two leaves of a root are merged when neither can do otherwise. -/
theorem mergeTooBig_iff {l r : Int} {es₁ es₂ : List (K × V)} {x : K} {leaf other : NodePage K V}
    (h : Represents file (.level root [x] [(l, es₁), (r, es₂)]))
    (hleaf : routedLeaf file k = leaf) (hother : otherLeaf file k = other)
    (hfind : leaf.findKeyIdxByExactCmp k ≠ none) (hsmall : leaf.size - 1 < L.minKeysLeaf) :
    MergeTooBig L file k ↔
      other.size ≤ L.maxKeysLeaf / 2 ∧ L.maxKeysLeaf < leaf.size - 1 + other.size := by
  have hkids : (file.page root).childrenSize = 2 := by rw [h.rootPage.childrenSize_eq]; rfl
  have hne := h.root_ne
  rw [MergeTooBig, hleaf, hother, h.onDisk.rootId]
  rw [h.onDisk.rootId] at hne
  simp [hne, h.rootPage.isLeaf, hkids, hfind, hsmall]

omit [LinearOrder K] in
/-- The children of a root with two leaves. -/
theorem children_two {l r : Int} {es₁ es₂ : List (K × V)} {x : K}
    (h : Represents file (.level root [x] [(l, es₁), (r, es₂)])) :
    (file.page root).children 0 = l ∧ (file.page root).children 1 = r :=
  ⟨h.rootPage.child (i := 0) (by simp), h.rootPage.child (i := 1) (by simp)⟩

end Level

/-! ## A remove from a valid tree -/

section Remove

variable {file : TreeFile K V} {root : Int} {ks : List K} {leaves : List (LeafRecord K V)} {k : K}
  {v : V} {shape : Shape K V}

/-- What a remove of a key that is there does: it succeeds, or it meets the two leaves that are to be
    merged and do not fit in one. The entry is gone from the file in both cases. -/
def RemoveOutcome (file : TreeFile K V) (shape : Shape K V) (k : K) : Prop :=
  (¬ MergeTooBig L file k ∧ ∃ file' shape', remove L k file = .ok true file'
    ∧ Removed L file' shape k shape') ∨
  (MergeTooBig L file k ∧ ∃ condition file' shape',
    remove L k file = .error (.assertion condition) file' ∧ Removed L file' shape k shape')

/-- From what `handleLeafUnderflow` did to the leaf of the removed key. -/
theorem removeOutcome_of_settled {file₁ : TreeFile K V} {leaf : NodePage K V}
    {stack : ParentStack} {tooBig : Prop}
    (hrun : remove L k file = (handleLeafUnderflow L leaf stack >>= fun _ => pure true) file₁)
    (hbig : MergeTooBig L file k ↔ tooBig) (es : List (K × V))
    (hentries : ∀ e, e ∈ es ↔ e ∈ shape.entries ∧ e.1 ≠ k)
    (hleft : tooBig → ∃ shape', Settled L file₁ shape' es)
    (h : (¬ tooBig ∧ ∃ file' shape', handleLeafUnderflow L leaf stack file₁ = .ok () file'
        ∧ Settled L file' shape' es) ∨
      (tooBig ∧ ∃ condition, handleLeafUnderflow L leaf stack file₁
        = .error (.assertion condition) file₁)) : RemoveOutcome L file shape k := by
  rcases h with ⟨hsmall, file', shape', hhandle, hsettled⟩ | ⟨hlarge, condition, hhandle⟩
  · refine Or.inl ⟨fun hm => hsmall (hbig.1 hm), file', shape', ?_, hsettled.represents,
      hsettled.valid, ?_⟩
    · rw [hrun, Prog.bind_ok hhandle]
      rfl
    · rw [hsettled.entries]
      exact hentries
  · obtain ⟨shape', hsettled⟩ := hleft hlarge
    refine Or.inr ⟨hbig.2 hlarge, condition, file₁, shape', ?_, hsettled.represents,
      hsettled.valid, ?_⟩
    · rw [hrun, Prog.bind_error hhandle]
    · rw [hsettled.entries]
      exact hentries

section Two

variable {l r : Int} {x : K} {es₁ es₂ : List (K × V)}

theorem remove_two_left (h : Represents file (.level root [x] [(l, es₁), (r, es₂)]))
    (hv : LevelValid L [x] [(l, es₁), (r, es₂)]) (hk : (k, v) ∈ es₁) (hlt : k < x)
    (hsmall : es₁.length - 1 < L.minKeysLeaf) :
    RemoveOutcome L file (.level root [x] [(l, es₁), (r, es₂)]) k := by
  have hle : ∀ k' ∈ ([] : List K), k' ≤ k := by simp
  have hlt' : ∀ k' ∈ [x], k < k' := by simpa using hlt
  have hpre : ([] : List K).length = ([] : List (LeafRecord K V)).length := rfl
  have hl : L.maxKeysLeaf / 2 ≤ es₁.length ∧ es₁.length ≤ L.maxKeysLeaf := hv.sizes (l, es₁) (by simp)
  have hr : L.maxKeysLeaf / 2 ≤ es₂.length ∧ es₂.length ≤ L.maxKeysLeaf := hv.sizes (r, es₂) (by simp)
  have hmax := L.three_le_maxKeysLeaf
  have hs := hv.ordered.sorted_leaf (a := []) (b := [x]) (t := [])
  have hlen := length_eraseKey hs hk
  obtain ⟨hidx, hrouted⟩ := routedLeaf_eq (a := []) (b := [x]) (t := []) h hv.ordered hpre hle hlt'
  have hother : otherLeaf file k = file.page r := by
    rw [otherLeaf, hidx, h.onDisk.rootId]
    exact congrArg file.page (children_two h).2
  have hbig := mergeTooBig_iff L h hrouted hother (h.onDisk.run.1.findKeyIdx_ne_none hs hk)
    (by rw [h.onDisk.run.1.size_eq]; exact hsmall)
  rw [h.onDisk.run.1.size_eq, h.onDisk.run.2.1.size_eq] at hbig
  obtain ⟨file₁, h₁, hsep₁, hs₁, hrun⟩ := remove_write L (a := []) (b := [x]) (t := []) h hv.ordered
    hpre hle hlt' hk
  have hs₁' : SortedKeys (eraseKey es₁ k ++ es₂) := by simpa using hs₁
  rw [if_pos hsmall] at hrun
  refine removeOutcome_of_settled L hrun hbig (eraseKey es₁ k ++ es₂) ?_ (fun hlarge => ?_) ?_
  · have hentries := mem_leafEntries_eraseKey (a := []) (b := [x]) (t := []) hv.ordered hpre hle hlt' hk
    simpa [Shape.entries] using hentries
  · have hpoor : es₂.length ≤ L.maxKeysLeaf / 2 := hlarge.1
    have hsum : L.maxKeysLeaf < es₁.length - 1 + es₂.length := hlarge.2
    exact ⟨_, settled_two L h₁ hsep₁ hs₁' ⟨by omega, by omega⟩ hr⟩
  · have hunder := handleLeafUnderflow_two_left L h₁ hsep₁ hs₁' (by omega) (by omega) hr
    rwa [show (eraseKey es₁ k).length = es₁.length - 1 by omega] at hunder

theorem remove_two_right (h : Represents file (.level root [x] [(l, es₁), (r, es₂)]))
    (hv : LevelValid L [x] [(l, es₁), (r, es₂)]) (hk : (k, v) ∈ es₂) (hle : x ≤ k)
    (hsmall : es₂.length - 1 < L.minKeysLeaf) :
    RemoveOutcome L file (.level root [x] [(l, es₁), (r, es₂)]) k := by
  have hle' : ∀ k' ∈ [x], k' ≤ k := by simpa using hle
  have hlt : ∀ k' ∈ ([] : List K), k < k' := by simp
  have hpre : [x].length = [(l, es₁)].length := rfl
  have hl : L.maxKeysLeaf / 2 ≤ es₁.length ∧ es₁.length ≤ L.maxKeysLeaf := hv.sizes (l, es₁) (by simp)
  have hr : L.maxKeysLeaf / 2 ≤ es₂.length ∧ es₂.length ≤ L.maxKeysLeaf := hv.sizes (r, es₂) (by simp)
  have hmax := L.three_le_maxKeysLeaf
  have hs := hv.ordered.sorted_leaf (a := [x]) (b := []) (t := [(l, es₁)])
  have hlen := length_eraseKey hs hk
  obtain ⟨hidx, hrouted⟩ :=
    routedLeaf_eq (a := [x]) (b := []) (t := [(l, es₁)]) h hv.ordered hpre hle' hlt
  have hother : otherLeaf file k = file.page l := by
    rw [otherLeaf, hidx, h.onDisk.rootId]
    exact congrArg file.page (children_two h).1
  have hbig := mergeTooBig_iff L h hrouted hother (h.onDisk.run.2.1.findKeyIdx_ne_none hs hk)
    (by rw [h.onDisk.run.2.1.size_eq]; exact hsmall)
  rw [h.onDisk.run.1.size_eq, h.onDisk.run.2.1.size_eq] at hbig
  obtain ⟨file₁, h₁, hsep₁, hs₁, hrun⟩ := remove_write L (a := [x]) (b := []) (t := [(l, es₁)]) h
    hv.ordered hpre hle' hlt hk
  have hs₁' : SortedKeys (es₁ ++ eraseKey es₂ k) := by simpa using hs₁
  rw [if_pos hsmall] at hrun
  refine removeOutcome_of_settled L hrun hbig (es₁ ++ eraseKey es₂ k) ?_ (fun hlarge => ?_) ?_
  · have hentries := mem_leafEntries_eraseKey (a := [x]) (b := []) (t := [(l, es₁)]) hv.ordered
      hpre hle' hlt hk
    simpa [Shape.entries] using hentries
  · have hpoor : es₁.length ≤ L.maxKeysLeaf / 2 := hlarge.1
    have hsum : L.maxKeysLeaf < es₂.length - 1 + es₁.length := hlarge.2
    exact ⟨_, settled_two L h₁ hsep₁ hs₁' hl ⟨by omega, by omega⟩⟩
  · have hunder := handleLeafUnderflow_two_right L h₁ hsep₁ hs₁' (by omega) (by omega) hl
    rwa [show (eraseKey es₂ k).length = es₂.length - 1 by omega, Nat.add_comm es₁.length] at hunder

end Two

/-- A remove below a root. -/
theorem remove_level (h : Represents file (.level root ks leaves)) (hv : LevelValid L ks leaves)
    (hk : (k, v) ∈ leafEntries leaves) : RemoveOutcome L file (.level root ks leaves) k := by
  obtain ⟨a, b, t, ⟨id, es⟩, z, rfl, rfl, ha, hle, hlt⟩ := hv.ordered.route k
  obtain ⟨hidx, hrouted⟩ := routedLeaf_eq h hv.ordered ha hle hlt
  have hsize : minLeafSize L (t ++ (id, es) :: z).length ≤ es.length ∧
      es.length ≤ L.maxKeysLeaf := hv.sizes (id, es) (by simp)
  have hkes := hv.ordered.mem_routed ha hle hlt hk
  have hlen := length_eraseKey hv.ordered.sorted_leaf hkes
  have hentries := mem_leafEntries_eraseKey hv.ordered ha hle hlt hkes
  have hcount : (t ++ (id, es) :: z).length = t.length + z.length + 1 := by simp; omega
  obtain ⟨file₁, h₁, hsep₁, hs₁, hrun⟩ := remove_write L h hv.ordered ha hle hlt hkes
  have hmax := L.three_le_maxKeysLeaf
  obtain ⟨-, hbound⟩ := L.minKeysLeaf_bounds
  -- the leaf is not empty unless it was one of two leaves
  have ho₁ (hpos : 2 ≤ es.length) : Ordered (a ++ b) (t ++ (id, eraseKey es k) :: z) :=
    ⟨hsep₁, hs₁, forall_window (w := [(id, es)]) (v := [(id, eraseKey es k)]) hv.ordered.nonempty (by
      simp only [List.forall_mem_cons]
      exact ⟨List.ne_nil_of_length_pos (by omega), by simp⟩)⟩
  by_cases hsmall : es.length - 1 < L.minKeysLeaf
  · rcases Nat.lt_or_ge (t.length + z.length) 2 with hone | hmany
    · -- the root has two leaves, and the key is in one of them
      have hks := hv.ordered.length_leaves
      have htwo' := hv.two
      rw [List.length_append] at hks
      rcases Nat.eq_zero_or_pos t.length with hpre | hpre
      · obtain rfl := List.eq_nil_of_length_eq_zero hpre
        obtain rfl := List.eq_nil_of_length_eq_zero ha
        obtain ⟨⟨r, es₂⟩, rfl⟩ := List.length_eq_one_iff.1 (by simp at hone htwo'; omega : z.length = 1)
        obtain ⟨x, rfl⟩ := List.length_eq_one_iff.1 (by simpa using hks.symm : b.length = 1)
        exact remove_two_left L h hv hkes (hlt x (by simp)) hsmall
      · obtain rfl := List.eq_nil_of_length_eq_zero (by omega : z.length = 0)
        obtain ⟨⟨l, es₁⟩, rfl⟩ := List.length_eq_one_iff.1 (by simp at hone; omega : t.length = 1)
        obtain ⟨x, rfl⟩ := List.length_eq_one_iff.1 (by simpa using ha : a.length = 1)
        obtain rfl : b = [] := by simpa using hks
        exact remove_two_right L h hv hkes (hle x (by simp)) hsmall
    · have hmin : minLeafSize L (t ++ (id, es) :: z).length = L.minKeysLeaf := if_neg (by omega)
      have hkids : (file.page file.rootId).childrenSize ≠ 2 := by
        rw [h.onDisk.rootId, h.rootPage.childrenSize_eq, List.length_map]
        omega
      obtain ⟨file', ks', leaves', hhandle, hrefilled, hkeys⟩ :=
        handleLeafUnderflow_many L h₁.level (ho₁ (by omega)) ha (.inl h₁.onDisk.rootId) hmany (by omega)
          (fun leaf hleaf => hmin ▸ hv.sizes leaf (by simp at hleaf ⊢; tauto))
      have hbalanced := hrefilled.rebalanced L h₁
      rw [if_pos hsmall] at hrun
      refine Or.inl ⟨fun hbig => hkids hbig.2.2.1, file', .level root ks' leaves', ?_,
        hbalanced.represents, ⟨hbalanced.ordered, hbalanced.two, hkeys.trans hv.keys,
          hbalanced.sizes⟩, fun e => ?_⟩
      · rw [hrun, Prog.bind_ok hhandle]
        rfl
      · have hmem := hentries e
        rw [← hbalanced.entries] at hmem
        exact hmem
  · refine Or.inl ⟨fun hbig => hsmall ?_, file₁, _, ?_, h₁, ⟨ho₁ (by omega), ?_, hv.keys, ?_⟩,
      hentries⟩
    · have hbig' := hbig.2.2.2.2.1
      rw [hrouted, h.isLeaf.size_eq] at hbig'
      exact hbig'
    · rw [if_neg hsmall] at hrun
      exact hrun
    · simpa using hv.two
    · have hcount : (t ++ (id, eraseKey es k) :: z).length
          = (t ++ (id, es) :: z).length := by simp
      have hmin := minLeafSize_le_minKeysLeaf L (t ++ (id, es) :: z).length
      rw [hcount]
      refine forall_window (w := [(id, es)]) (v := [(id, eraseKey es k)]) hv.sizes ?_
      simp only [List.forall_mem_cons]
      exact ⟨by omega, by simp⟩

/-- A remove of the only leaf's key; with the last key the tree becomes empty. -/
theorem remove_leaf {id : Int} {es : List (K × V)} (h : Represents file (.leaf id es))
    (hv : (Shape.leaf id es).Valid L) (hk : (k, v) ∈ es) : RemoveOutcome L file (.leaf id es) k := by
  obtain ⟨hroot, hfirst, hleaf⟩ := h.onDisk
  obtain ⟨leaf, hrem, hleaf'⟩ := hleaf.removeFromLeaf hv.2.1 hk
  have hlen := length_eraseKey hv.2.1 hk
  have hmem := fun e : K × V => mem_eraseKey hv.2.1 hk (e := e)
  have hbig : ¬ MergeTooBig L file k := fun hbig => by
    have hinternal := hbig.2.1
    rw [hroot, hleaf.isLeaf] at hinternal
    exact absurd hinternal (by simp)
  have hrun : remove L k file = (if (eraseKey es k).length = 0 then
        (do let _ ← leaf.markDeleted; setNullRoot; pure true) else pure true) (file.write id leaf) := by
    have hempty : leaf.empty = decide ((eraseKey es k).length = 0) := by
      rw [NodePage.empty, hleaf'.size_eq]
      rfl
    have hisRoot : leaf.nodeId = (file.write id leaf).rootId := by
      rw [hleaf'.nodeId]; exact hroot.symm
    rw [remove, Prog.bind_ok h.findLeaf_leaf]
    simp only
    rw [Prog.bind_ok (hrem file)]
    simp only [if_true]
    rw [Prog.bind_ok (run_rootId _), if_pos hisRoot, hempty]
    by_cases hzero : (eraseKey es k).length = 0 <;> simp [hzero]
  by_cases hzero : (eraseKey es k).length = 0
  · -- the leaf is deleted and there is no root any more
    rw [if_pos hzero] at hrun
    let file' : TreeFile K V :=
      { (file.write id leaf).write id leaf.asDeleted with rootId := -1, firstLeafId := -1 }
    refine Or.inl ⟨hbig, file', .empty, ?_, ⟨⟨rfl, rfl⟩, ?_⟩, trivial, fun e => ?_⟩
    · rw [hrun]
      simp [Prog.run_bind, setNullRoot, hleaf'.nodeId, file']
    · have howned : PagesOwned ((file.write id leaf).write id leaf.asDeleted) [] := by
        refine PagesOwned.rewrite [id] h.owned rfl ?_ (by simp) ?_
        · simp [hleaf'.nodeId]
        · intro i hi _
          have hne : i ≠ id := by simpa using hi
          rw [TreeFile.write_page_ne _ _ _ hne, TreeFile.write_page_ne _ _ _ hne]
      exact howned.withMetadata (-1) (-1)
    · have hnil := List.eq_nil_of_length_eq_zero hzero
      rw [hnil] at hmem
      exact hmem e
  · rw [if_neg hzero] at hrun
    refine Or.inl ⟨hbig, _, .leaf id (eraseKey es k), hrun, h.writeRootLeaf hleaf', ⟨?_, ?_, ?_⟩, hmem⟩
    · exact List.ne_nil_of_length_pos (Nat.pos_of_ne_zero hzero)
    · exact hv.2.1.sublist (eraseKey_sublist es k)
    · have hmax := hv.2.2
      omega

/-- A remove of a key that is in the tree. -/
theorem remove_of_mem (h : Represents file shape) (hv : shape.Valid L) (hk : (k, v) ∈ shape.entries) :
    RemoveOutcome L file shape k := by
  cases shape with
  | empty => simp [Shape.entries] at hk
  | leaf id es => exact remove_leaf L h hv hk
  | level root ks leaves => exact remove_level L h hv hk

/-- A remove of a key that is not in the tree changes nothing. -/
theorem remove_of_not_mem (h : Represents file shape) (hv : shape.Valid L)
    (hk : ∀ e ∈ shape.entries, e.1 ≠ k) : remove L k file = .ok false file := by
  rcases h.findLeaf_spec L hv k with ⟨-, hfind⟩ | ⟨leafId, es, next, stack, hfind, hleaf, hs, hes, -⟩
  · simp [remove, Prog.run_bind, hfind]
  · have hno : ∀ e ∈ es, e.1 ≠ k := fun e he heq => hk e ((hes e heq).2 he) heq
    simp [remove, Prog.run_bind, hfind, hleaf.removeFromLeaf_of_not_mem hno]

/-- No remove of a missing key merges anything. -/
theorem not_mergeTooBig_of_not_mem (h : Represents file shape) (hv : shape.Valid L)
    (hk : ∀ e ∈ shape.entries, e.1 ≠ k) : ¬ MergeTooBig L file k := by
  intro hbig
  cases shape with
  | empty => exact hbig.1 h.onDisk.1
  | leaf id es =>
      have hinternal := hbig.2.1
      rw [h.onDisk.1, h.onDisk.2.2.isLeaf] at hinternal
      exact absurd hinternal (by simp)
  | level root ks leaves =>
      have hv' : LevelValid L ks leaves := hv
      obtain ⟨a, b, t, ⟨id, es⟩, z, rfl, rfl, ha, hle, hlt⟩ := hv'.ordered.route k
      obtain ⟨-, hrouted⟩ := routedLeaf_eq h hv'.ordered ha hle hlt
      have hfind := hbig.2.2.2.1
      rw [hrouted] at hfind
      exact hfind (h.isLeaf.findKeyIdx_of_not_mem fun e he => hk e (by simp [Shape.entries, he]))

/-- A remove that is to merge two leaves that do not fit in one fails an assertion. -/
theorem remove_of_mergeTooBig (h : Represents file shape) (hv : shape.Valid L)
    (hbig : MergeTooBig L file k) :
    ∃ condition file', remove L k file = .error (.assertion condition) file' := by
  by_cases hk : ∃ v, (k, v) ∈ shape.entries
  · obtain ⟨v, hk⟩ := hk
    rcases remove_of_mem L h hv hk with ⟨hfits, -⟩ | ⟨-, condition, file', -, hfails, -⟩
    · exact absurd hbig hfits
    · exact ⟨condition, file', hfails⟩
  · have hno : ∀ e ∈ shape.entries, e.1 ≠ k := by
      rintro ⟨_, v⟩ he rfl
      exact hk ⟨v, he⟩
    exact absurd hbig (not_mergeTooBig_of_not_mem L h hv hno)

/-! ## Giving a key another value -/

/-- What an update of a key that is there does. -/
structure Updated (file' : TreeFile K V) (shape : Shape K V) (k : K) (v : V) (shape' : Shape K V) :
    Prop where
  represents : Represents file' shape'
  valid : shape'.Valid L
  entries : ∀ e, e ∈ shape'.entries ↔ e = (k, v) ∨ e ∈ shape.entries ∧ e.1 ≠ k

theorem update_leaf {id : Int} {es : List (K × V)} (h : Represents file (.leaf id es))
    (hv : (Shape.leaf id es).Valid L) (hk : (k, v) ∈ es) (v' : V) :
    ∃ file' shape', BStarPlusTree.update k v' file = .ok true file'
      ∧ Updated L file' (.leaf id es) k v' shape' := by
  obtain ⟨leaf, hupdate, hleaf⟩ := h.onDisk.2.2.updateValue hv.2.1 hk v'
  have hlen := length_setEntry hv.2.1 hk v'
  refine ⟨file.write id leaf, .leaf id (setEntry es k v'), ?_, h.writeRootLeaf hleaf,
    ⟨?_, hv.2.1.setEntry hk v', ?_⟩, fun e => mem_setEntry hv.2.1 hk v'⟩
  · rw [BStarPlusTree.update, Prog.bind_ok h.findLeaf_leaf]
    exact Prog.bind_ok (hupdate file)
  · exact List.ne_nil_of_length_pos (hlen ▸ List.length_pos_of_mem hk)
  · exact hlen.trans_le hv.2.2

theorem update_level (h : Represents file (.level root ks leaves)) (hv : LevelValid L ks leaves)
    (hk : (k, v) ∈ leafEntries leaves) (v' : V) :
    ∃ file' shape', BStarPlusTree.update k v' file = .ok true file'
      ∧ Updated L file' (.level root ks leaves) k v' shape' := by
  obtain ⟨a, b, t, ⟨id, es⟩, z, rfl, rfl, ha, hle, hlt⟩ := hv.ordered.route k
  have hs := hv.ordered.sorted_leaf
  have hkes := hv.ordered.mem_routed ha hle hlt hk
  obtain ⟨leaf, hupdate, hleaf⟩ := h.isLeaf.updateValue hs hkes v'
  have hlen := length_setEntry hs hkes v'
  refine ⟨file.write id leaf, .level root (a ++ b) (t ++ (id, setEntry es k v') :: z), ?_,
    h.writeLeaf hleaf, ⟨?_, ?_, hv.keys, ?_⟩, fun e => ?_⟩
  · rw [BStarPlusTree.update, Prog.bind_ok (h.findLeaf_level hv.ordered ha hle hlt)]
    exact Prog.bind_ok (hupdate file)
  · refine hv.ordered.setChunk ha hle hlt (fun e he => ?_) (hs.setEntry hkes v')
      (List.ne_nil_of_length_pos (hlen ▸ List.length_pos_of_mem hkes))
    rcases (mem_setEntry hs hkes v').1 he with rfl | ⟨he', -⟩
    · exact Or.inl rfl
    · exact Or.inr ⟨e, he', rfl⟩
  · simpa using hv.two
  · exact sizes_writeLeaf L hv.sizes hlen.ge (hlen.trans_le (hv.sizes (id, es) (by simp)).2)
  · obtain ⟨hpre, hpost⟩ := hv.ordered.route_ne ha hle hlt
    have hpre' : e ∈ leafEntries t → e.1 ≠ k := fun he => (hpre e he).ne
    have hpost' : e ∈ leafEntries z → e.1 ≠ k := fun he => (hpost e he).ne'
    simp only [Shape.entries, leafEntries_append, leafEntries_cons, List.mem_append,
      mem_setEntry hs hkes v']
    tauto

/-- An update of a key that is in the tree. -/
theorem update_of_mem (h : Represents file shape) (hv : shape.Valid L)
    (hk : (k, v) ∈ shape.entries) (v' : V) :
    ∃ file' shape', BStarPlusTree.update k v' file = .ok true file'
      ∧ Updated L file' shape k v' shape' := by
  cases shape with
  | empty => simp [Shape.entries] at hk
  | leaf id es => exact update_leaf L h hv hk v'
  | level root ks leaves => exact update_level L h hv hk v'

/-- An update of a key that is not in the tree changes nothing. -/
theorem update_of_not_mem (h : Represents file shape) (hv : shape.Valid L)
    (hk : ∀ e ∈ shape.entries, e.1 ≠ k) (v : V) :
    BStarPlusTree.update k v file = .ok false file ∨
      ∃ what, BStarPlusTree.update k v file = .error (.exception what) file := by
  rcases h.findLeaf_spec L hv k with ⟨-, hfind⟩ | ⟨leafId, es, next, stack, hfind, hleaf, hs, hes, -⟩
  · exact Or.inr ⟨_, by rw [BStarPlusTree.update, Prog.bind_ok hfind]; rfl⟩
  · have hno : ∀ e ∈ es, e.1 ≠ k := fun e he heq => hk e ((hes e heq).2 he) heq
    refine Or.inl ?_
    rw [BStarPlusTree.update, Prog.bind_ok hfind]
    simp [hleaf.updateValue_of_not_mem hno]

end Remove

end QuasarDB.Storage
