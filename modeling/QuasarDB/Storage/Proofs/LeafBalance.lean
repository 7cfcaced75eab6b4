import QuasarDB.Storage.Proofs.Representation

set_option autoImplicit false

/-! # Moving entries between neighbouring leaves

What `redistributeLeaves2to2`, `redistributeLeaves3to3`, the splits and the merges of leaves do to
the tree a file represents: a window of neighbouring leaves gets the same entries, cut at other
places, and the separator at each new cut is the first key to its right. -/

namespace QuasarDB.Storage

open NodePage BStarPlusTree

variable {K V : Type} (L : Instantiation K V)

theorem exists_split {α : Type} (l : List α) {n : Nat} (h : n ≤ l.length) :
    ∃ u v, l = u ++ v ∧ u.length = n ∧ v.length = l.length - n :=
  ⟨l.take n, l.drop n, (List.take_append_drop n l).symm, List.length_take_of_le h,
    List.length_drop⟩

theorem exists_concat_of_length {α : Type} {l : List α} {n : Nat} (h : l.length = n + 1) :
    ∃ l₀ x, l = l₀ ++ [x] ∧ l₀.length = n := by
  rcases List.eq_nil_or_concat l with rfl | ⟨l₀, x, rfl⟩
  · simp at h
  · rw [List.concat_eq_append] at h ⊢
    exact ⟨l₀, x, rfl, by simpa using h⟩

theorem exists_thirds (total : Nat) : ∃ s1 s2 s3, thirds total = (s1, s2, s3) ∧
    s1 + s2 + s3 = total ∧ s1 ≤ s2 ∧ s2 ≤ s3 ∧ s3 ≤ s1 + 1 := by
  refine ⟨_, _, _, rfl, ?_⟩
  omega

/-- Even shares are within the bounds that hold on average. -/
theorem thirds_within {s1 s2 s3 low high : Nat} (hs12 : s1 ≤ s2) (hs23 : s2 ≤ s3)
    (hs31 : s3 ≤ s1 + 1) (hlow : 3 * low ≤ s1 + s2 + s3) (hhigh : s1 + s2 + s3 ≤ 3 * high) :
    (low ≤ s1 ∧ s1 ≤ high) ∧ (low ≤ s2 ∧ s2 ≤ high) ∧ (low ≤ s3 ∧ s3 ≤ high) := by
  omega

/-- The two leaves share their entries evenly; if they do so already nothing is written. -/
theorem run_redistributeLeaves2to2 {file : TreeFile K V} {l r p n n' : Int}
    {es₁ es₂ : List (K × V)} {a b : List K} {x : K} {cs : List Int}
    (hl : (file.page l).IsLeaf l es₁ n) (hr : (file.page r).IsLeaf r es₂ n')
    (hp : (file.page p).IsInternal p (a ++ x :: b) cs)
    (hmax : es₁.length + es₂.length ≤ 2 * L.maxKeysLeaf) (hmin : 2 ≤ es₁.length + es₂.length) :
    ∃ left right parent x' cs₁ cs₂,
      redistributeLeaves2to2 L (file.page l) (file.page r) (file.page p) a.length file
        = .ok (left, right, parent) (((file.write r right).write l left).write p parent)
      ∧ left.IsLeaf l cs₁ n ∧ right.IsLeaf r cs₂ n' ∧ parent.IsInternal p (a ++ x' :: b) cs
      ∧ cs₁ ++ cs₂ = es₁ ++ es₂ ∧ cs₁.length = (es₁.length + es₂.length) / 2
      ∧ (cs₁ = es₁ ∧ cs₂ = es₂ ∧ x' = x ∨ StartsWith cs₂ x') := by
  let s1 := (es₁.length + es₂.length) / 2
  rcases lt_trichotomy es₁.length s1 with hlt | heq | hgt
  · -- entries come from the right leaf
    have hsplit : es₂ = es₂.take (s1 - es₁.length) ++ es₂.drop (s1 - es₁.length) :=
      (List.take_append_drop _ _).symm
    have hcount : (es₂.take (s1 - es₁.length)).length = s1 - es₁.length := by
      rw [List.length_take]; omega
    obtain ⟨mid, left, right, hrun, hleft, hright, hmid⟩ := hl.takeFromRightLeaf L (hsplit ▸ hr)
      (by rw [hcount]; omega)
    obtain ⟨parent, hset, hparent⟩ := hp.setKey mid
    refine ⟨left, right, parent, mid, _, _, ?_, hleft, hright, hparent, ?_, ?_, Or.inr ?_⟩
    · rw [hcount] at hrun
      have hne : ¬ es₁.length = s1 := by omega
      have hnlt : ¬ s1 < es₁.length := by omega
      simp only [redistributeLeaves2to2, hl.size_eq, hr.size_eq]
      rw [if_neg hne, if_neg hnlt, Prog.bind_ok (hrun file)]
      simp [Prog.run_bind, hset]
    · rw [List.append_assoc, List.take_append_drop]
    · rw [List.length_append, hcount]; omega
    · exact startsWith_of_length (by rw [List.length_drop]; omega) hmid
  · refine ⟨_, _, _, x, es₁, es₂, ?_, hl, hr, hp, rfl, heq, Or.inl ⟨rfl, rfl, rfl⟩⟩
    simp only [redistributeLeaves2to2, hl.size_eq, hr.size_eq, TreeFile.write_page]
    rw [if_pos heq]
    rfl
  · -- entries go to the right leaf
    have hsplit : es₁ = es₁.take s1 ++ es₁.drop s1 := (List.take_append_drop _ _).symm
    have hcount : (es₁.drop s1).length = es₁.length - s1 := List.length_drop
    obtain ⟨mid, left, right, hrun, hleft, hright, hmid⟩ :=
      IsLeaf.sendToRightLeaf L (hsplit ▸ hl) hr (by rw [hcount]; omega)
    obtain ⟨parent, hset, hparent⟩ := hp.setKey mid
    refine ⟨left, right, parent, mid, _, _, ?_, hleft, hright, hparent, ?_, ?_, Or.inr ?_⟩
    · rw [hcount] at hrun
      have hne : ¬ es₁.length = s1 := by omega
      simp only [redistributeLeaves2to2, hl.size_eq, hr.size_eq]
      rw [if_neg hne, if_pos hgt, Prog.bind_ok (hrun file)]
      simp [Prog.run_bind, hset]
    · rw [← List.append_assoc, List.take_append_drop]
    · rw [List.length_take]; omega
    · exact startsWith_of_length (by rw [List.length_append, hcount]; omega) hmid

/-- The leaves `w'` below `parent`, whose children are `ids`, in a file that has the other pages of
    `file`. -/
structure Recut (file file' : TreeFile K V) (parent : Int) (ks' : List K) (ids : List Int)
    (w' : List (LeafRecord K V)) (next : Int) : Prop where
  parentPage : (file'.page parent).IsInternal parent ks' ids
  run : LeafRun file'.page w' next
  same : SameOutside file file' (parent :: w'.map Prod.fst)
  totalPages : file'.totalPages = file.totalPages

namespace LeafLevel

variable {file : TreeFile K V} {parentId : Int} {a b : List K} {t z : List (LeafRecord K V)}
  {l r next : Int} {es₁ es₂ : List (K × V)} {x : K} {others : List Int}

/-- Two neighbouring leaves share their entries evenly. -/
theorem redistributeLeaves2to2
    (h : LeafLevel file parentId (a ++ x :: b) (t ++ ([(l, es₁), (r, es₂)] ++ z)) next others)
    (hlen : a.length = t.length) (hmax : es₁.length + es₂.length ≤ 2 * L.maxKeysLeaf)
    (hmin : 2 ≤ es₁.length + es₂.length) :
    ∃ nodes file' x' cs₁ cs₂,
      BStarPlusTree.redistributeLeaves2to2 L (file.page l) (file.page r) (file.page parentId)
        t.length file = .ok nodes file'
      ∧ Rewritten file file' parentId (a ++ x' :: b) t [(l, es₁), (r, es₂)] [(l, cs₁), (r, cs₂)] z
          next others
      ∧ file'.totalPages = file.totalPages ∧ cs₁ ++ cs₂ = es₁ ++ es₂
      ∧ cs₁.length = (es₁.length + es₂.length) / 2
      ∧ (cs₁ = es₁ ∧ cs₂ = es₂ ∧ x' = x ∨ StartsWith cs₂ x') := by
  obtain ⟨hl, hr, -⟩ := h.leafRun
  obtain ⟨left, right, parent, x', cs₁, cs₂, hrun, hleft, hright, hparent, hes, hsize, hx⟩ :=
    run_redistributeLeaves2to2 L hl hr h.parentPage hmax hmin
  rw [hlen] at hrun
  refine ⟨_, _, x', cs₁, cs₂, hrun, ?_, rfl, hes, hsize, hx⟩
  have hnd := h.window_nodup
  simp only [List.map_cons, List.map_nil, List.nodup_cons, List.mem_cons] at hnd
  have hlr : l ≠ r := by tauto
  have hparentId : parentId ≠ l ∧ parentId ≠ r := by tauto
  refine h.rewrite [] (.refl _) rfl ⟨rfl, rfl, rfl⟩ ?_ (by simp) ?_ ⟨?_, ?_, trivial⟩
  · intro i hi1 hi2
    simp only [List.map_cons, List.map_nil, List.mem_cons] at hi2
    rw [TreeFile.write_page_ne _ _ _ hi1, TreeFile.write_page_ne, TreeFile.write_page_ne] <;> tauto
  · rw [TreeFile.write_page_self]
    simpa using hparent
  · rw [TreeFile.write_page_ne _ _ _ hparentId.1.symm, TreeFile.write_page_self]
    exact hleft
  · rw [TreeFile.write_page_ne _ _ _ hparentId.2.symm, TreeFile.write_page_ne _ _ _ hlr.symm,
      TreeFile.write_page_self]
    exact hright

/-- The parent and three neighbouring leaves are four pages. -/
theorem window₃_ne {m : Int} {es₃ : List (K × V)} {ks : List K}
    (h : LeafLevel file parentId ks (t ++ ([(l, es₁), (m, es₂), (r, es₃)] ++ z)) next others) :
    (l ≠ m ∧ l ≠ r ∧ m ≠ r) ∧ parentId ≠ l ∧ parentId ≠ m ∧ parentId ≠ r := by
  have hnd := h.window_nodup
  simp only [List.map_cons, List.map_nil, List.nodup_cons, List.mem_cons] at hnd
  tauto

/-- A window of leaves whose entries were cut at other places. -/
theorem recut {file' : TreeFile K V} {ks ks' : List K} {w w' : List (LeafRecord K V)}
    (h : LeafLevel file parentId ks (t ++ (w ++ z)) next others)
    (hw : Recut file file' parentId ks' ((t ++ (w ++ z)).map Prod.fst) w' (headId z next))
    (hids : w.map Prod.fst = w'.map Prod.fst)
    (hhead : headId w' (headId z next) = headId w (headId z next)) :
    Rewritten file file' parentId ks' t w w' z next others := by
  refine h.rewrite [] ?_ hhead ⟨hw.same.rootId, hw.same.firstLeafId, hw.totalPages⟩ ?_ (by simp) ?_
    hw.run
  · rw [hids]
    exact .refl _
  · intro i hi1 hi2
    apply hw.same.page i
    rw [← hids, List.mem_cons, not_or]
    exact ⟨hi1, hi2⟩
  · simpa [hids] using hw.parentPage

/-- The left leaf is too small: it takes from the middle one, the middle one from the right one. -/
theorem redistributeLeaves3to3_takes {m : Int} {es₃ : List (K × V)} {y : K}
    (h : LeafLevel file parentId (a ++ x :: y :: b)
      (t ++ ([(l, es₁), (m, es₂), (r, es₃)] ++ z)) next others)
    (hlen : a.length = t.length) (hm : es₂.length = L.minKeysLeaf)
    (hleftSize : es₁.length + 1 = L.minKeysLeaf) (hlends : L.minKeysLeaf < es₃.length)
    (hfits : es₃.length ≤ L.maxKeysLeaf) :
    ∃ file' x' y' cs₁ cs₂ cs₃,
      BStarPlusTree.redistributeLeaves3to3 L (file.page l) (file.page m) (file.page r)
        (file.page parentId) t.length file = .ok () file'
      ∧ Recut file file' parentId (a ++ x' :: y' :: b)
          ((t ++ ([(l, es₁), (m, es₂), (r, es₃)] ++ z)).map Prod.fst)
          [(l, cs₁), (m, cs₂), (r, cs₃)] (headId z next)
      ∧ cs₁ ++ cs₂ ++ cs₃ = es₁ ++ es₂ ++ es₃
      ∧ (∀ c ∈ [cs₁, cs₂, cs₃], L.minKeysLeaf ≤ c.length ∧ c.length ≤ L.maxKeysLeaf)
      ∧ StartsWith cs₂ x' ∧ StartsWith cs₃ y' := by
  have hl : (file.page l).IsLeaf l es₁ m := h.leafRun.1
  have hmid : (file.page m).IsLeaf m es₂ r := h.leafRun.2.1
  have hr : (file.page r).IsLeaf r es₃ (headId z next) := h.leafRun.2.2.1
  obtain ⟨hmin, hmin'⟩ := L.minKeysLeaf_bounds
  have hmax := L.three_le_maxKeysLeaf
  obtain ⟨⟨hlm, hlr, hmr⟩, hpl, hpm, hpr⟩ := h.window₃_ne
  obtain ⟨s1, s2, s3, hs, hsum, hs12, hs23, hs31⟩ :=
    exists_thirds (es₁.length + es₂.length + es₃.length)
  obtain ⟨u, v, hes₂, hu, hv⟩ := exists_split es₂ (n := s1 - es₁.length) (by omega)
  obtain ⟨p, q, hes₃, hp, hq⟩ := exists_split es₃ (n := s2 - v.length) (by omega)
  have hleftLength : es₁.length + u.length = s1 := by omega
  have hmiddleLength : v.length + p.length = s2 := by omega
  have hrightLength : q.length = s3 := by omega
  obtain ⟨hwithin1, hwithin2, hwithin3⟩ :
      (L.minKeysLeaf ≤ s1 ∧ s1 ≤ L.maxKeysLeaf) ∧ (L.minKeysLeaf ≤ s2 ∧ s2 ≤ L.maxKeysLeaf) ∧
        (L.minKeysLeaf ≤ s3 ∧ s3 ≤ L.maxKeysLeaf) :=
    thirds_within hs12 hs23 hs31 (by omega) (by omega)
  rw [hes₂] at hmid
  rw [hes₃] at hr
  obtain ⟨x', left, middle, hrun1, hleft, hmiddle, hx⟩ := hl.takeFromRightLeaf L hmid (by omega)
  obtain ⟨y', middle', right, hrun2, hmiddle', hright, hy⟩ :=
    hmiddle.takeFromRightLeaf L hr (by omega)
  obtain ⟨parent, parent', hset1, hset2, hparent⟩ := h.parentPage.setKey₂ x' y'
  rw [hu] at hrun1
  rw [hp] at hrun2
  rw [hlen] at hset1 hset2
  refine ⟨((((file.write m middle).write l left).write r right).write m middle').write parentId
    parent', x', y', es₁ ++ u, v ++ p, q, ?_, ⟨?_, ⟨?_, ?_, ?_, trivial⟩, ⟨rfl, rfl, ?_⟩, rfl⟩, ?_,
    ?_, ?_, ?_⟩
  · have hunder : es₁.length < L.minKeysLeaf := by omega
    have hmiddleSize : (es₂.length == L.minKeysLeaf) = true := by rw [hm]; exact beq_self_eq_true _
    have hsub1 : es₁.length ≤ s1 := by omega
    have hsub2 : v.length ≤ s2 := by omega
    simp only [BStarPlusTree.redistributeLeaves3to3, hl.underflow_eq, hr.canLend_eq, hl.size_eq,
      hmid.size_eq, hr.size_eq, ← hes₂, ← hes₃, hs]
    simp [hunder, hmiddleSize, hlends, Prog.run_bind, Prog.sub_of_le hsub1, Prog.sub_of_le hsub2,
      hmiddle.size_eq, hrun1, hrun2, hset1, hset2]
  · simpa using hparent
  · simpa [TreeFile.write_page_ne, hpl.symm, hlm, hlr] using hleft
  · simpa [TreeFile.write_page_ne, hpm.symm] using hmiddle'
  · simpa [TreeFile.write_page_ne, hpr.symm, hmr.symm] using hright
  · intro i hi
    simp only [List.map_cons, List.map_nil, List.mem_cons, not_or] at hi
    simp [TreeFile.write_page_ne, hi]
  · simp [hes₂, hes₃]
  · simp only [List.forall_mem_cons, List.length_append]
    rw [hleftLength, hmiddleLength, hrightLength]
    exact ⟨hwithin1, hwithin2, hwithin3, List.forall_mem_nil _⟩
  · exact (startsWith_of_length (by omega) hx).append p
  · exact startsWith_of_length (by omega) hy

/-- The right leaf is too small: the middle one gives to it, the left one to the middle one. -/
theorem redistributeLeaves3to3_sends {m : Int} {es₃ : List (K × V)} {y : K}
    (h : LeafLevel file parentId (a ++ x :: y :: b)
      (t ++ ([(l, es₁), (m, es₂), (r, es₃)] ++ z)) next others)
    (hlen : a.length = t.length) (hm : es₂.length = L.minKeysLeaf)
    (hrightSize : es₃.length + 1 = L.minKeysLeaf) (hlends : L.minKeysLeaf < es₁.length)
    (hfits : es₁.length ≤ L.maxKeysLeaf) :
    ∃ file' x' y' cs₁ cs₂ cs₃,
      BStarPlusTree.redistributeLeaves3to3 L (file.page l) (file.page m) (file.page r)
        (file.page parentId) t.length file = .ok () file'
      ∧ Recut file file' parentId (a ++ x' :: y' :: b)
          ((t ++ ([(l, es₁), (m, es₂), (r, es₃)] ++ z)).map Prod.fst)
          [(l, cs₁), (m, cs₂), (r, cs₃)] (headId z next)
      ∧ cs₁ ++ cs₂ ++ cs₃ = es₁ ++ es₂ ++ es₃
      ∧ (∀ c ∈ [cs₁, cs₂, cs₃], L.minKeysLeaf ≤ c.length ∧ c.length ≤ L.maxKeysLeaf)
      ∧ StartsWith cs₂ x' ∧ StartsWith cs₃ y' := by
  have hl : (file.page l).IsLeaf l es₁ m := h.leafRun.1
  have hmid : (file.page m).IsLeaf m es₂ r := h.leafRun.2.1
  have hr : (file.page r).IsLeaf r es₃ (headId z next) := h.leafRun.2.2.1
  obtain ⟨hmin, hmin'⟩ := L.minKeysLeaf_bounds
  have hmax := L.three_le_maxKeysLeaf
  obtain ⟨⟨hlm, hlr, hmr⟩, hpl, hpm, hpr⟩ := h.window₃_ne
  obtain ⟨s1, s2, s3, hs, hsum, hs12, hs23, hs31⟩ :=
    exists_thirds (es₁.length + es₂.length + es₃.length)
  obtain ⟨u, v, hes₂, hu, hv⟩ := exists_split es₂ (n := es₂.length - (s3 - es₃.length)) (by omega)
  obtain ⟨p, q, hes₁, hp, hq⟩ := exists_split es₁ (n := s1) (by omega)
  have hmiddleLength : q.length + u.length = s2 := by omega
  have hrightLength : v.length + es₃.length = s3 := by omega
  obtain ⟨hwithin1, hwithin2, hwithin3⟩ :
      (L.minKeysLeaf ≤ s1 ∧ s1 ≤ L.maxKeysLeaf) ∧ (L.minKeysLeaf ≤ s2 ∧ s2 ≤ L.maxKeysLeaf) ∧
        (L.minKeysLeaf ≤ s3 ∧ s3 ≤ L.maxKeysLeaf) :=
    thirds_within hs12 hs23 hs31 (by omega) (by omega)
  rw [hes₂] at hmid
  rw [hes₁] at hl
  obtain ⟨y', middle, right, hrun1, hmiddle, hright, hy⟩ :=
    IsLeaf.sendToRightLeaf L hmid hr (by omega)
  obtain ⟨x', left, middle', hrun2, hleft, hmiddle', hx⟩ :=
    IsLeaf.sendToRightLeaf L hl hmiddle (by omega)
  obtain ⟨parent, parent', hset1, hset2, hparent⟩ := h.parentPage.setKey₂ x' y'
  rw [show v.length = s3 - es₃.length by omega] at hrun1
  rw [show q.length = s2 - u.length by omega] at hrun2
  rw [hlen] at hset1 hset2
  refine ⟨((((file.write r right).write m middle).write m middle').write l left).write parentId
    parent', x', y', p, q ++ u, v ++ es₃, ?_, ⟨?_, ⟨?_, ?_, ?_, trivial⟩, ⟨rfl, rfl, ?_⟩, rfl⟩, ?_,
    ?_, ?_, ?_⟩
  · have hunder : ¬ es₁.length < L.minKeysLeaf := by omega
    have hunder' : es₃.length < L.minKeysLeaf := by omega
    have hmiddleSize : (es₂.length == L.minKeysLeaf) = true := by rw [hm]; exact beq_self_eq_true _
    have hsub1 : es₃.length ≤ s3 := by omega
    have hsub2 : u.length ≤ s2 := by omega
    simp only [BStarPlusTree.redistributeLeaves3to3, hl.underflow_eq, hr.underflow_eq,
      hl.canLend_eq, hl.size_eq, hmid.size_eq, hr.size_eq, ← hes₁, ← hes₂, hs]
    simp [hunder, hunder', hmiddleSize, hlends, Prog.run_bind, Prog.sub_of_le hsub1,
      Prog.sub_of_le hsub2, hmiddle.size_eq, hrun1, hrun2, hset1, hset2]
  · simpa using hparent
  · simpa [TreeFile.write_page_ne, hpl.symm] using hleft
  · simpa [TreeFile.write_page_ne, hpm.symm, hlm.symm] using hmiddle'
  · simpa [TreeFile.write_page_ne, hpr.symm, hmr.symm, hlr.symm] using hright
  · intro i hi
    simp only [List.map_cons, List.map_nil, List.mem_cons, not_or] at hi
    simp [TreeFile.write_page_ne, hi]
  · simp [hes₁, hes₂]
  · simp only [List.forall_mem_cons, List.length_append]
    rw [hp, hmiddleLength, hrightLength]
    exact ⟨hwithin1, hwithin2, hwithin3, List.forall_mem_nil _⟩
  · exact startsWith_of_length (by rw [List.length_append]; omega) hx
  · exact startsWith_of_length (by rw [List.length_append]; omega) hy

/-- Three neighbouring leaves, an outer one too small and the other outer one able to lend, share
    their entries evenly. -/
theorem redistributeLeaves3to3 {m : Int} {es₃ : List (K × V)} {y : K}
    (h : LeafLevel file parentId (a ++ x :: y :: b)
      (t ++ ([(l, es₁), (m, es₂), (r, es₃)] ++ z)) next others)
    (hlen : a.length = t.length) (hm : es₂.length = L.minKeysLeaf)
    (hsize : es₁.length + 1 = L.minKeysLeaf ∧ L.minKeysLeaf < es₃.length ∧
        es₃.length ≤ L.maxKeysLeaf ∨
      es₃.length + 1 = L.minKeysLeaf ∧ L.minKeysLeaf < es₁.length ∧
        es₁.length ≤ L.maxKeysLeaf) :
    ∃ file' x' y' cs₁ cs₂ cs₃,
      BStarPlusTree.redistributeLeaves3to3 L (file.page l) (file.page m) (file.page r)
        (file.page parentId) t.length file = .ok () file'
      ∧ Rewritten file file' parentId (a ++ x' :: y' :: b) t [(l, es₁), (m, es₂), (r, es₃)]
          [(l, cs₁), (m, cs₂), (r, cs₃)] z next others
      ∧ file'.totalPages = file.totalPages
      ∧ cs₁ ++ cs₂ ++ cs₃ = es₁ ++ es₂ ++ es₃
      ∧ (∀ c ∈ [cs₁, cs₂, cs₃], L.minKeysLeaf ≤ c.length ∧ c.length ≤ L.maxKeysLeaf)
      ∧ StartsWith cs₂ x' ∧ StartsWith cs₃ y' := by
  rcases hsize with ⟨hleftSize, hlends, hfits⟩ | ⟨hrightSize, hlends, hfits⟩
  · obtain ⟨file', x', y', cs₁, cs₂, cs₃, hrun, hcut, hes⟩ :=
      h.redistributeLeaves3to3_takes L hlen hm hleftSize hlends hfits
    exact ⟨file', x', y', cs₁, cs₂, cs₃, hrun, h.recut hcut rfl rfl, hcut.totalPages, hes⟩
  · obtain ⟨file', x', y', cs₁, cs₂, cs₃, hrun, hcut, hes⟩ :=
      h.redistributeLeaves3to3_sends L hlen hm hrightSize hlends hfits
    exact ⟨file', x', y', cs₁, cs₂, cs₃, hrun, h.recut hcut rfl rfl, hcut.totalPages, hes⟩

/-! ## Merging leaves -/

/-- Three leaves become two. The parent is the root, or it has a key to spare. -/
theorem mergeLeaves3to2 {m : Int} {es₃ : List (K × V)} {y : K} [LinearOrder K]
    (h : LeafLevel file parentId (a ++ x :: y :: b)
      (t ++ ([(l, es₁), (m, es₂), (r, es₃)] ++ z)) next others)
    (hlen : a.length = t.length) (hle₁ : es₁.length ≤ L.minKeysLeaf)
    (hle₂ : es₂.length ≤ L.minKeysLeaf) (hle₃ : es₃.length ≤ L.minKeysLeaf)
    (htotal : es₁.length + es₂.length + es₃.length + 1 = 3 * L.minKeysLeaf)
    (hspare : file.rootId = parentId ∨ L.minKeysInternal < (a ++ x :: y :: b).length) (i : Nat)
    (parentStack : ParentStack) :
    ∃ file' x' cs₁ cs₂,
      BStarPlusTree.mergeLeaves3to2 L (file.page l) (file.page m) (file.page r) ((parentId, i) :: parentStack)
        t.length file = .ok () file'
      ∧ Rewritten file file' parentId (a ++ x' :: b) t [(l, es₁), (m, es₂), (r, es₃)]
          [(l, cs₁), (m, cs₂)] z next others
      ∧ file'.totalPages = file.totalPages
      ∧ cs₁ ++ cs₂ = es₁ ++ es₂ ++ es₃
      ∧ cs₁.length = (es₁.length + es₂.length + es₃.length) / 2 ∧ StartsWith cs₂ x' := by
  have hl : (file.page l).IsLeaf l es₁ m := h.leafRun.1
  have hmid : (file.page m).IsLeaf m es₂ r := h.leafRun.2.1
  have hr : (file.page r).IsLeaf r es₃ (headId z next) := h.leafRun.2.2.1
  obtain ⟨hmin, hmin'⟩ := L.minKeysLeaf_bounds
  have hmax := L.three_le_maxKeysLeaf
  obtain ⟨⟨hlm, hlr, hmr⟩, hparentId⟩ := h.window₃_ne
  have hp := h.parentPage
  obtain ⟨s1, hs1⟩ : ∃ s1, s1 = (es₁.length + es₂.length + es₃.length) / 2 := ⟨_, rfl⟩
  obtain ⟨s2, hs2⟩ : ∃ s2, s2 = es₁.length + es₂.length + es₃.length - s1 := ⟨_, rfl⟩
  obtain ⟨u, v, hes₂, hu, hv⟩ := exists_split es₂ (n := s1 - es₁.length) (by omega)
  rw [hes₂] at hmid
  obtain ⟨x', left, middle, hrun1, hleft, hmiddle, hx⟩ :=
    hl.takeFromRightLeaf L hmid (by omega)
  have hr' : (file.page r).IsLeaf r (es₃ ++ []) (headId z next) := by simpa using hr
  obtain ⟨y', middle', right, hrun2, hmiddle', hright, -⟩ :=
    hmiddle.takeFromRightLeaf L hr' (by omega)
  obtain ⟨middle'', hrun3, hmiddle''⟩ := hmiddle'.setNext (headId z next)
  obtain ⟨parent, hset, hparent⟩ := hp.setKey x'
  have hparent₁ : parent.IsInternal parentId ((a ++ [x']) ++ y :: b)
      ((t.map Prod.fst ++ [l, m]) ++ r :: z.map Prod.fst) := by simpa using hparent
  obtain ⟨parent', hrem, hparent'⟩ := hparent₁.removeFromInternal (by simp [hlen])
  rw [List.length_append, List.length_singleton] at hrem
  rw [hu] at hrun1
  rw [hlen] at hset hrem
  have hopen : openNode parentId (((((file.write m middle).write l left).write r right).write m
      middle'').write r right.asDeleted) = .ok (file.page parentId) _ :=
    h.openParent (by simp [TreeFile.write_page_ne, hparentId]) le_rfl
  refine ⟨(((((file.write m middle).write l left).write r right).write m middle'').write r
    right.asDeleted).write parentId parent', x', es₁ ++ u, v ++ es₃, ?_,
    h.rewrite [r] ?_ rfl ⟨rfl, rfl, rfl⟩ ?_ ?_ ?_ ⟨?_, ?_, trivial⟩, rfl, ?_, ?_, ?_⟩
  · have hsub1 : es₁.length ≤ s1 := by omega
    have hsub2 : v.length ≤ s2 := by omega
    have hs1' : es₁.length + u.length = s1 := by omega
    have hs2' : v.length + es₃.length = s2 := by omega
    have hcount : s2 - v.length = es₃.length := by omega
    simp only [BStarPlusTree.mergeLeaves3to2, hl.size_eq, hmid.size_eq, hr.size_eq, ← hes₂, ← hs1,
      ← hs2]
    simp [Prog.run_bind, Prog.sub_of_le hsub1, Prog.sub_of_le hsub2, hmiddle.size_eq, hcount, hrun1,
      hrun2, hright.getNextId, hrun3, hright.nodeId, hleft.size_eq, hs1', hs2', hright.size_eq,
      hmiddle''.size_eq, hopen, hset, hrem, hparent'.nodeId, hparent'.underflow_eq]
    -- the parent is not handed on: it is the root, or it keeps enough keys
    intro hne hunder
    rcases hspare with heq | hkeys
    · exact absurd heq.symm hne
    · simp only [List.length_append, List.length_cons] at hkeys
      omega
  · show ([l, m] ++ [r]).Perm ([r] ++ [l, m])
    exact List.perm_append_comm
  · intro i hi1 hi2
    simp only [List.map_cons, List.map_nil, List.mem_cons] at hi2
    simp [TreeFile.write_page_ne, hi1, show i ≠ l by tauto, show i ≠ m by tauto,
      show i ≠ r by tauto]
  · simp [TreeFile.write_page_ne, hparentId.2.2.symm, hright.nodeId]
  · simpa using hparent'
  · simpa [TreeFile.write_page_ne, hparentId.1.symm, hlm, hlr] using hleft
  · simpa [TreeFile.write_page_ne, hparentId.2.1.symm, hmr] using hmiddle''
  · simp [hes₂]
  · rw [List.length_append]; omega
  · exact (startsWith_of_length (by omega) hx).append es₃

/-! ## Splitting leaves -/

/-- The pages after two full leaves, one of them with an entry too many, became three. -/
theorem run_splitLeaves2to3 [LinearOrder K] [Inhabited K] {ids : List Int} {n' : Int}
    (howned : PagesOwned file ids) (hids : l ∈ ids ∧ r ∈ ids) (hlr : l ≠ r)
    (hl : (file.page l).IsLeaf l es₁ r) (hr : (file.page r).IsLeaf r es₂ n')
    (htotal : es₁.length + es₂.length = 2 * L.maxKeysLeaf + 1)
    (hle₁ : es₁.length ≤ L.maxKeysLeaf + 1) (hle₂ : es₂.length ≤ L.maxKeysLeaf + 1) :
    ∃ file' f x' y' cs₁ cs₂ cs₃,
      (∀ parentStack leftIdx,
        BStarPlusTree.splitLeaves2to3 L (file.page l) (file.page r) parentStack leftIdx file
          = raiseLeafSplit L parentStack leftIdx x' y' f file')
      ∧ LeafRun file'.page [(l, cs₁), (r, cs₂), (f, cs₃)] n'
      ∧ PagesOwned file' (f :: ids) ∧ SameOutside file file' [l, r, f]
      ∧ file.totalPages ≤ file'.totalPages ∧ file'.totalPages ≤ file.totalPages + 1
      ∧ cs₁ ++ cs₂ ++ cs₃ = es₁ ++ es₂
      ∧ (∀ c ∈ [cs₁, cs₂, cs₃], L.minKeysLeaf ≤ c.length ∧ c.length ≤ L.maxKeysLeaf)
      ∧ StartsWith cs₂ x' ∧ StartsWith cs₃ y' := by
  obtain ⟨hmin, hmin'⟩ := L.minKeysLeaf_bounds
  have hmax := L.three_le_maxKeysLeaf
  obtain ⟨s1, s2, s3, hs, hsum, hs12, hs23, hs31⟩ := exists_thirds (es₁.length + es₂.length)
  obtain ⟨u, v, hes₂, hu, hv⟩ := exists_split es₂ (n := es₂.length - s3) (by omega)
  obtain ⟨p, q, hes₁, hpl, hq⟩ := exists_split es₁ (n := s1) (by omega)
  have hmiddleLength : q.length + u.length = s2 := by omega
  have hrightLength : v.length = s3 := by omega
  obtain ⟨hwithin1, hwithin2, hwithin3⟩ :
      (L.minKeysLeaf ≤ s1 ∧ s1 ≤ L.maxKeysLeaf) ∧ (L.minKeysLeaf ≤ s2 ∧ s2 ≤ L.maxKeysLeaf) ∧
        (L.minKeysLeaf ≤ s3 ∧ s3 ≤ L.maxKeysLeaf) :=
    thirds_within hs12 hs23 hs31 (by omega) (by omega)
  have hr' := hr
  have hl' := hl
  rw [hes₂] at hr'
  rw [hes₁] at hl'
  obtain ⟨f, stale, hnew, hfresh⟩ := run_newNode L true howned
  have hn₀ := isLeaf_initNode L f stale
  have hfnot := howned.not_mem_of_fresh hfresh
  have hf : f ≠ l ∧ f ≠ r := ⟨fun he => hfnot (he ▸ hids.1), fun he => hfnot (he ▸ hids.2)⟩
  -- the right leaf fills the new one, then the left leaf fills the right one
  obtain ⟨y', right₁, n₁, hrun1, hright₁, hn₁, hy⟩ := hr'.sendToRightLeaf L hn₀ (by simp; omega)
  obtain ⟨x', left₁, right₂, hrun2, hleft₁, hright₂, hx⟩ :=
    hl'.sendToRightLeaf L hright₁ (by omega)
  obtain ⟨n₂, hrun3, hn₂⟩ := hn₁.setNext n'
  obtain ⟨right₃, hrun4, hright₃⟩ := hright₂.setNext f
  rw [List.append_nil] at hn₂ hy
  have hfm : f ∈ f :: ids := List.mem_cons_self
  have hlm : l ∈ f :: ids := List.mem_cons_of_mem f hids.1
  have hrm : r ∈ f :: ids := List.mem_cons_of_mem f hids.2
  have howned' := ((((((howned.writeFresh hfresh hn₀.deleted).write hfm hn₁.deleted).write
    hrm hright₁.deleted).write hrm hright₂.deleted).write hlm hleft₁.deleted).write
    hfm hn₂.deleted).write hrm hright₃.deleted
  refine ⟨_, f, x', y', p, q ++ u, v, ?_, ⟨?_, ?_, ?_, trivial⟩, howned', ⟨?_, ?_, ?_⟩,
    ?_, ?_, ?_, ?_, ?_, ?_⟩
  · intro parentStack leftIdx
    have hsub : u.length ≤ s2 := by omega
    rw [show v.length = s3 by omega] at hrun1
    rw [show q.length = s2 - u.length by omega] at hrun2
    simp only [BStarPlusTree.splitLeaves2to3, hl.size_eq, hr.size_eq, hs]
    rw [Prog.bind_ok hnew, Prog.bind_ok (hrun1 _)]
    simp only [hright₁.size_eq, Prog.sub_of_le hsub, Prog.run_pure_bind]
    rw [Prog.bind_ok (hrun2 _)]
    simp only
    rw [Prog.bind_ok (hright₂.getNextId _), Prog.bind_ok (hrun3 _)]
    simp only [hn₂.nodeId]
    rw [Prog.bind_ok (hrun4 _)]
  · simpa [TreeFile.write_page_ne, hf.1.symm, hlr] using hleft₁
  · simpa using hright₃
  · simpa [TreeFile.write_page_ne, hf.2] using hn₂
  · simp
  · simp
  · intro i hi
    simp only [List.mem_cons, List.not_mem_nil, or_false, not_or] at hi
    simp [TreeFile.write_page_ne, hi]
  · simpa using (reserve_totalPages file f).1
  · simpa using (reserve_totalPages file f).2
  · rw [hes₁, hes₂]; simp
  · simp only [List.forall_mem_cons, List.length_append]
    rw [hpl, hmiddleLength, hrightLength]
    exact ⟨hwithin1, hwithin2, hwithin3, List.forall_mem_nil _⟩
  · exact startsWith_of_length (by rw [List.length_append]; omega) hx
  · exact startsWith_of_length (by omega) hy

/-- The second new separator belongs right behind the first. -/
theorem newSeparator_between [LinearOrder K] {c₁ c₂ c₃ : List (K × V)} {x' y' : K}
    (hsorted : SortedKeys (c₁ ++ c₂ ++ c₃)) (hne : 0 < c₁.length) (hx : StartsWith c₂ x')
    (hy : StartsWith c₃ y') (hbelow : ∀ k ∈ a, ∀ e ∈ c₁ ++ c₂ ++ c₃, k ≤ e.1)
    (habove : ∀ k ∈ b, ∀ e ∈ c₁ ++ c₂ ++ c₃, e.1 < k) :
    (∀ k ∈ a ++ [x'], k < y') ∧ ∀ k ∈ b, y' ≤ k := by
  obtain ⟨e, rest, rfl⟩ := List.exists_cons_of_length_pos hne
  obtain ⟨ex, restx, rfl, rfl⟩ := hx
  obtain ⟨ey, resty, rfl, rfl⟩ := hy
  have hlt := (SortedKeys.append.1 hsorted).2.2
  refine ⟨?_, fun k hk => (habove k hk ey (by simp)).le⟩
  intro k hk
  rcases List.mem_append.1 hk with hk' | hk'
  · exact (hbelow k hk' e (by simp)).trans_lt (hlt e (by simp) ey (by simp))
  · rw [List.mem_singleton.1 hk']
    exact hlt ex (by simp) ey (by simp)

/-- Two full leaves, one of them with an entry too many, become three. The parent may overflow. -/
theorem splitLeaves2to3 [LinearOrder K] [Inhabited K]
    (h : LeafLevel file parentId (a ++ x :: b) (t ++ ([(l, es₁), (r, es₂)] ++ z)) next others)
    (hlen : a.length = t.length) (htotal : es₁.length + es₂.length = 2 * L.maxKeysLeaf + 1)
    (hle₁ : es₁.length ≤ L.maxKeysLeaf + 1) (hle₂ : es₂.length ≤ L.maxKeysLeaf + 1)
    (hkeys : (a ++ x :: b).length ≤ L.maxKeysInternal) (hsorted : SortedKeys (es₁ ++ es₂))
    (hbelow : ∀ k ∈ a, ∀ e ∈ es₁ ++ es₂, k ≤ e.1) (habove : ∀ k ∈ b, ∀ e ∈ es₁ ++ es₂, e.1 < k)
    (i : Nat) (parentStack : ParentStack) :
    ∃ file' f x' y' cs₁ cs₂ cs₃,
      BStarPlusTree.splitLeaves2to3 L (file.page l) (file.page r) ((parentId, i) :: parentStack) t.length file
        = (if L.maxKeysInternal < (a ++ x :: b).length + 1 then
            handleInternalOverflow L parentStack (file'.page parentId) file'
          else .ok () file')
      ∧ Rewritten file file' parentId (a ++ x' :: y' :: b) t [(l, es₁), (r, es₂)]
          [(l, cs₁), (r, cs₂), (f, cs₃)] z next others
      ∧ file'.totalPages ≤ file.totalPages + 1
      ∧ cs₁ ++ cs₂ ++ cs₃ = es₁ ++ es₂
      ∧ (∀ c ∈ [cs₁, cs₂, cs₃], L.minKeysLeaf ≤ c.length ∧ c.length ≤ L.maxKeysLeaf)
      ∧ StartsWith cs₂ x' ∧ StartsWith cs₃ y' := by
  have hl : (file.page l).IsLeaf l es₁ r := h.leafRun.1
  have hr : (file.page r).IsLeaf r es₂ (headId z next) := h.leafRun.2.1
  have hnd := h.window_nodup
  simp only [List.map_cons, List.map_nil, List.nodup_cons, List.mem_cons] at hnd
  obtain ⟨file₁, f, x', y', cs₁, cs₂, cs₃, hrun, hleaves, howned, hsame, hle, hle', hes, hsizes, hx,
    hy⟩ := run_splitLeaves2to3 L h.owned (by simp) (by tauto) hl hr htotal hle₁ hle₂
  have hfnot : f ∉ parentId :: ((t ++ ([(l, es₁), (r, es₂)] ++ z)).map Prod.fst ++ others) :=
    (List.nodup_cons.1 howned.nodup).1
  simp only [List.map_append, List.map_cons, List.map_nil, List.mem_cons, List.mem_append] at hfnot
  have hparentId : parentId ∉ [l, r, f] := by
    simp only [List.mem_cons]
    tauto
  have hpage : file₁.page parentId = file.page parentId := hsame.page parentId hparentId
  have hmin : 0 < cs₁.length := by
    have := (hsizes cs₁ (by simp)).1
    have := L.minKeysLeaf_bounds
    have := L.three_le_maxKeysLeaf
    omega
  rw [← hes] at hsorted hbelow habove
  -- the first new separator takes the place of the old one, the second is inserted behind it
  obtain ⟨hlow, hhigh⟩ := newSeparator_between hsorted hmin hx hy hbelow habove
  obtain ⟨parent, hset, hparent⟩ := h.parentPage.setKey x'
  have hparent₁ : parent.IsInternal parentId ((a ++ [x']) ++ b)
      ((t.map Prod.fst ++ [l, r]) ++ z.map Prod.fst) := by simpa using hparent
  have hroom : ((a ++ [x']) ++ b).length < L.physKeysInternal := by
    rw [L.physKeysInternal_eq]
    simp only [List.length_append, List.length_cons, List.length_nil] at hkeys ⊢
    omega
  obtain ⟨parent', hins, hparent'⟩ :=
    hparent₁.insertInInternal L (by simp [hlen]) hroom hlow hhigh f
  refine ⟨file₁.write parentId parent', f, x', y', cs₁, cs₂, cs₃, ?_,
    ⟨h.window rfl hsame.rootId ?_ ?_ ?_ ?_, ⟨hsame.rootId, hsame.firstLeafId, ?_⟩, rfl⟩, hle', hes,
    hsizes, hx, hy⟩
  · rw [hrun]
    have hopen := h.openParent hpage hle
    rw [hlen] at hset
    simp only [raiseLeafSplit]
    rw [Prog.bind_ok (run_top _ _ _), Prog.bind_ok hopen, Prog.bind_ok (hset _),
      Prog.bind_ok (hins _), hparent'.overflow_eq]
    have hkeys' : (a ++ [x'] ++ y' :: b).length = (a ++ x :: b).length + 1 := by simp; omega
    by_cases hover : L.maxKeysInternal < (a ++ x :: b).length + 1
    · simp only [hkeys', hover, decide_true, if_true, TreeFile.write_page_self, List.tail_cons]
      simp
    · simp only [hkeys', hover, decide_false, if_false]
      simp
  · intro i hi
    obtain ⟨hi1, hi2⟩ := h.outside (List.mem_append_left _ hi)
    rw [TreeFile.write_page_ne _ _ _ hi1]
    refine hsame.page i ?_
    have hif : i ≠ f := by
      rintro rfl
      simp only [List.map_append, List.mem_append] at hi
      tauto
    simp only [List.map_cons, List.map_nil, List.mem_cons] at hi2 ⊢
    tauto
  · simpa using hparent'
  · exact hleaves.congr fun i hi => TreeFile.write_page_ne _ _ _ fun he => hparentId (he ▸ hi)
  · refine (howned.write (by simp) hparent'.deleted).perm ?_
    refine (List.Perm.swap parentId f _).trans (List.Perm.cons parentId ?_)
    have hmiddle : ((t.map Prod.fst ++ [l, r]) ++ f :: (z.map Prod.fst ++ others)).Perm
        (f :: ((t.map Prod.fst ++ [l, r]) ++ (z.map Prod.fst ++ others))) := List.perm_middle
    simpa using hmiddle.symm
  · intro i hi
    simp only [List.map_cons, List.map_nil, List.mem_cons, List.mem_append, not_or] at hi
    rw [TreeFile.write_page_ne _ _ _ hi.1]
    refine hsame.page i ?_
    simp only [List.mem_cons]
    tauto

end LeafLevel

/-! ## Trees of one or two leaves -/

namespace Represents

variable {file : TreeFile K V} {root : Int} {l r : Int} {es₁ es₂ : List (K × V)} {x : K}

/-- The two leaves of a root become one, which is the new root. -/
theorem mergeLeaves2to1 [LinearOrder K]
    (h : Represents file (.level root [x] [(l, es₁), (r, es₂)]))
    (hmax : es₁.length + es₂.length ≤ L.maxKeysLeaf) (i : Nat) :
    ∃ file',
      BStarPlusTree.mergeLeaves2to1 L (file.page l) (file.page r) [(root, i)] file = .ok () file'
      ∧ Represents file' (.leaf l (es₁ ++ es₂)) := by
  have hl : (file.page l).IsLeaf l es₁ r := h.onDisk.run.1
  have hr : (file.page r).IsLeaf r es₂ (-1) := h.onDisk.run.2.1
  have hp := h.rootPage
  have hnd := h.owned.nodup
  simp only [Shape.ids, List.map_cons, List.map_nil, List.nodup_cons, List.mem_cons] at hnd
  have hlr : l ≠ r := by tauto
  have hroot : root ≠ l ∧ root ≠ r := by tauto
  have hr' : (file.page r).IsLeaf r (es₂ ++ []) (-1) := by simpa using hr
  obtain ⟨x', left, right, hrun1, hleft, hright, -⟩ := hl.takeFromRightLeaf L hr' (by omega)
  obtain ⟨left', hrun2, hleft'⟩ := hleft.setNext (-1)
  have hopen := h.level.openParent rfl le_rfl
  let file₁ : TreeFile K V := { ((file.write r right).write l left') with rootId := l }
  let file₂ := (file₁.write r right.asDeleted).write root (file.page root).asDeleted
  have hpage : file₂.page l = left' := by
    simp [file₁, file₂, hroot.1.symm, hlr, TreeFile.write]
  refine ⟨file₂, ?_, ⟨?_, ?_, ?_⟩, ?_⟩
  · have hkids : (file.page root).childrenSize = 2 := by rw [hp.childrenSize_eq]; rfl
    simp [BStarPlusTree.mergeLeaves2to1, Prog.run_bind, hopen, hp.nodeId, h.onDisk.rootId, hkids,
      hr.getNextId, hr.size_eq, hrun1, hrun2, hleft'.nodeId, hright.nodeId, file₁, file₂]
  · rfl
  · exact h.onDisk.firstLeafId
  · rw [hpage]
    exact hleft'
  · have hperm : [root, l, r].Perm ([root, r] ++ [l]) := by
      exact (List.Perm.swap r l []).cons root
    refine PagesOwned.rewrite [root, r] (h.owned.perm hperm) rfl ?_ ?_ ?_
    · simp [file₂, TreeFile.write_page_ne, hroot.2.symm, hright.nodeId, hp.nodeId]
    · intro i hi
      rw [List.mem_singleton.1 hi, hpage]
      exact hleft'.deleted
    · intro i hi1 hi2
      simp only [List.mem_cons, List.not_mem_nil, or_false, not_or] at hi1
      have hil : i ≠ l := fun he => hi2 (by simp [Shape.ids, he])
      simp [file₁, file₂, TreeFile.write_page_ne, hi1, hil]

/-- A root leaf that is too large becomes two leaves below a new root. -/
theorem splitLeaf1to2 [LinearOrder K] [Inhabited K] {id : Int} {es : List (K × V)}
    (h : Represents file (.leaf id es)) (hmin : 2 ≤ es.length) (hmax : es.length ≤ 2 * L.maxKeysLeaf) :
    ∃ file' newRoot right x' cs₁ cs₂,
      BStarPlusTree.splitLeaf1to2 L (file.page id) file = .ok () file'
      ∧ Represents file' (.level newRoot [x'] [(id, cs₁), (right, cs₂)])
      ∧ file'.totalPages ≤ file.totalPages + 2 ∧ cs₁ ++ cs₂ = es
      ∧ cs₁.length = es.length / 2 ∧ StartsWith cs₂ x' := by
  obtain ⟨hrootId, hfirst, hleaf⟩ := h.onDisk
  obtain ⟨newRoot, stale, hnew, hfresh⟩ := run_newNode L false h.owned
  obtain ⟨child, hinit⟩ := isInternal_initNode L newRoot stale
  have howned := h.owned.writeFresh hfresh hinit.deleted
  have hne : newRoot ≠ id := fun he => h.owned.not_mem_of_fresh hfresh (by simp [Shape.ids, he])
  -- the new root gets the old leaf, then an empty leaf behind a separator that is still to be set
  obtain ⟨root₁, hpush, hroot₁⟩ := hinit.pushBackToInternal id
  let file₁ : TreeFile K V := { (file.reserve newRoot).write newRoot (initNode L false newRoot stale)
    with rootId := newRoot }
  have howned₁ : PagesOwned (file₁.write newRoot root₁) [newRoot, id] :=
    (howned.withMetadata newRoot file₁.firstLeafId).write (by simp) hroot₁.deleted
  obtain ⟨right, stale', hnew', hfresh'⟩ := run_newNode L true howned₁
  have hright := isLeaf_initNode L right stale'
  have hne' : right ≠ newRoot ∧ right ≠ id := by
    have hnot := howned₁.not_mem_of_fresh hfresh'
    simpa using hnot
  have howned₂ := howned₁.writeFresh hfresh' hright.deleted
  have hroot₁' : root₁.IsInternal newRoot ([] ++ []) ([id] ++ []) := hroot₁
  have hroom : ([] ++ [] : List K).length < L.physKeysInternal := by
    have := L.three_le_physKeysInternal
    simp only [List.append_nil, List.length_nil]
    omega
  have hlow : ∀ k ∈ ([] : List K), k < default := by simp
  obtain ⟨root₂, hins, hroot₂⟩ := hroot₁'.insertInInternal L rfl hroom hlow (by simp) right
  let file₂ := ((file₁.write newRoot root₁).reserve right).write right (initNode L true right stale')
  let file₃ := file₂.write newRoot root₂
  have hpage : file₃.page id = file.page id := by
    simp [file₁, file₂, file₃, TreeFile.write_page_ne, hne.symm, hne'.2.symm]
  have hpage' : file₃.page right = initNode L true right stale' := by
    simp [file₂, file₃, TreeFile.write_page_ne, hne'.1]
  have hpage'' : file₃.page newRoot = root₂ := by simp [file₃]
  obtain ⟨left, right', parent, x', cs₁, cs₂, hrun, hleft, hright', hparent, hes, hsize, hx⟩ :=
    run_redistributeLeaves2to2 L (hpage.symm ▸ hleaf) (hpage'.symm ▸ hright)
      (hpage''.symm ▸ hroot₂) (by simpa using hmax) (by simpa using hmin)
  obtain ⟨left', hnext, hleft'⟩ := hleft.setNext right
  rw [hpage, hpage', hpage''] at hrun
  simp only [List.length_nil, Nat.add_zero, List.append_nil] at hrun hes hsize
  let file₄ := (((file₃.write right right').write id left).write newRoot parent).write id left'
  have hall : BStarPlusTree.splitLeaf1to2 L (file.page id) file = .ok () file₄ := by
    simp only [BStarPlusTree.splitLeaf1to2, hleaf.nodeId]
    refine (Prog.bind_ok hnew).trans ?_
    refine (Prog.bind_ok (run_setRootId _ _)).trans ?_
    refine (Prog.bind_ok (hpush _)).trans ?_
    refine (Prog.bind_ok hnew').trans ?_
    refine (Prog.bind_ok (hins _)).trans ?_
    refine (Prog.bind_ok hrun).trans ?_
    simp only [hright'.nodeId]
    exact Prog.bind_ok (hnext _)
  have howned₃ : PagesOwned file₄ [right, newRoot, id] := by
    refine ((((howned₂.write ?_ hroot₂.deleted).write ?_ hright'.deleted).write ?_
      hleft.deleted).write ?_ hparent.deleted).write ?_ hleft'.deleted <;> simp
  refine ⟨file₄, newRoot, right, x', cs₁, cs₂, hall, ⟨⟨?_, ?_, ?_, ?_, ?_, trivial⟩, ?_⟩, ?_, hes, hsize,
    ?_⟩
  · simp [file₁, file₂, file₃, file₄]
  · simp [file₁, file₂, file₃, file₄, hfirst]
  · have hpage₄ : file₄.page newRoot = parent := by simp [file₄, TreeFile.write_page_ne, hne]
    rw [hpage₄]
    exact hparent
  · have hpage₄ : file₄.page id = left' := by simp [file₄]
    rw [hpage₄]
    exact hleft'
  · have hpage₄ : file₄.page right = right' := by
      simp [file₄, TreeFile.write_page_ne, hne'.1, hne'.2]
    rw [hpage₄]
    exact hright'
  · exact howned₃.perm (show ([right] ++ [newRoot, id]).Perm ([newRoot, id] ++ [right]) from
      List.perm_append_comm)
  · have h1 := (reserve_totalPages file newRoot).2
    have h2 := (reserve_totalPages (file₁.write newRoot root₁) right).2
    have hbase : (file₁.write newRoot root₁).totalPages = (file.reserve newRoot).totalPages := rfl
    have htop : file₄.totalPages = ((file₁.write newRoot root₁).reserve right).totalPages := rfl
    omega
  · rcases hx with ⟨rfl, -, -⟩ | hx
    · omega
    · exact hx

end Represents

end QuasarDB.Storage
