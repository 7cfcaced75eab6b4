import QuasarDB.Storage.Tree
import QuasarDB.Storage.Proofs.Node

set_option autoImplicit false

/-! # The tree a file stands for

A `Shape` is a tree with at most one internal level: the root, the separators, and the leaves from
left to right, each with its page id and entries. `Represents file shape` says that the pages of
`file` hold exactly this tree: every page is as the shape has it, the leaves are chained from
`first_leaf_id` to `-1`, and every other page is marked deleted. -/

namespace QuasarDB.Storage

open NodePage

variable {K V : Type}

@[simp] theorem run_rootId (file : TreeFile K V) :
    BStarPlusTree.rootId file = .ok file.rootId file := rfl

@[simp] theorem run_setRootId (id : Int) (file : TreeFile K V) :
    BStarPlusTree.setRootId id file = .ok () { file with rootId := id } := rfl

@[simp] theorem run_setRootAndFirstLeafId (root first : Int) (file : TreeFile K V) :
    BStarPlusTree.setRootAndFirstLeafId root first file
      = .ok () { file with rootId := root, firstLeafId := first } := rfl

@[simp] theorem run_top (entry : Int × Nat) (parentStack : BStarPlusTree.ParentStack)
    (file : TreeFile K V) :
    BStarPlusTree.top (entry :: parentStack) file = .ok entry file := rfl

/-! ## Chains of leaves -/

/-- A leaf by its page id and its entries. -/
abbrev LeafRecord (K V : Type) : Type := Int × List (K × V)

/-- The page the chain goes on with: the first of `leaves`, or `next` after the last. -/
def headId : List (LeafRecord K V) → Int → Int
  | [], next => next
  | leaf :: _, _ => leaf.1

/-- The pages of `leaves` hold their entries, and each points to the one after it. -/
def LeafRun (page : Int → NodePage K V) : List (LeafRecord K V) → Int → Prop
  | [], _ => True
  | leaf :: rest, next =>
      (page leaf.1).IsLeaf leaf.1 leaf.2 (headId rest next) ∧ LeafRun page rest next

@[simp] theorem headId_nil (next : Int) : headId ([] : List (LeafRecord K V)) next = next := rfl

@[simp] theorem headId_cons (leaf : LeafRecord K V) (leaves : List (LeafRecord K V)) (next : Int) :
    headId (leaf :: leaves) next = leaf.1 := rfl

theorem headId_append (a b : List (LeafRecord K V)) (next : Int) :
    headId (a ++ b) next = headId a (headId b next) := by
  cases a <;> rfl

theorem leafRun_append {page : Int → NodePage K V} {a b : List (LeafRecord K V)} {next : Int} :
    LeafRun page (a ++ b) next ↔ LeafRun page a (headId b next) ∧ LeafRun page b next := by
  induction a with
  | nil => simp [LeafRun]
  | cons leaf a ih => simp only [List.cons_append, LeafRun, ih, headId_append, and_assoc]

/-- A chain depends only on its own pages. -/
theorem LeafRun.congr {page page' : Int → NodePage K V} {leaves : List (LeafRecord K V)}
    {next : Int} (h : LeafRun page leaves next)
    (heq : ∀ id ∈ leaves.map Prod.fst, page' id = page id) : LeafRun page' leaves next := by
  induction leaves with
  | nil => trivial
  | cons leaf leaves ih =>
      refine ⟨?_, ih h.2 fun id hid => heq id (by simp [hid])⟩
      rw [heq leaf.1 (by simp)]
      exact h.1

theorem LeafRun.deleted {page : Int → NodePage K V} {leaves : List (LeafRecord K V)} {next : Int}
    (h : LeafRun page leaves next) {id : Int} (hid : id ∈ leaves.map Prod.fst) :
    (page id).deleted = false := by
  induction leaves with
  | nil => simp at hid
  | cons leaf leaves ih =>
      rcases List.mem_cons.1 hid with rfl | hid'
      · exact h.1.deleted
      · exact ih h.2 hid'

theorem LeafRun.isLeaf {page : Int → NodePage K V} {leaves : List (LeafRecord K V)} {next : Int}
    (h : LeafRun page leaves next) {leaf : LeafRecord K V} (hleaf : leaf ∈ leaves) :
    ∃ next', (page leaf.1).IsLeaf leaf.1 leaf.2 next' := by
  induction leaves with
  | nil => simp at hleaf
  | cons leaf' leaves ih =>
      rcases List.mem_cons.1 hleaf with rfl | hleaf'
      · exact ⟨_, h.1⟩
      · exact ih h.2 hleaf'

/-- The entries of the leaves from left to right. -/
def leafEntries (leaves : List (LeafRecord K V)) : List (K × V) := (leaves.map Prod.snd).flatten

@[simp] theorem leafEntries_nil : leafEntries ([] : List (LeafRecord K V)) = [] := rfl

@[simp] theorem leafEntries_cons (leaf : LeafRecord K V) (leaves : List (LeafRecord K V)) :
    leafEntries (leaf :: leaves) = leaf.2 ++ leafEntries leaves := rfl

@[simp] theorem leafEntries_append (a b : List (LeafRecord K V)) :
    leafEntries (a ++ b) = leafEntries a ++ leafEntries b := by
  simp [leafEntries]

/-! ## Who owns the pages -/

/-- The metadata and the pages outside `ids` are the same. -/
structure SameOutside (file file' : TreeFile K V) (ids : List Int) : Prop where
  rootId : file'.rootId = file.rootId
  firstLeafId : file'.firstLeafId = file.firstLeafId
  page : ∀ i, i ∉ ids → file'.page i = file.page i

/-- The pages of the file apart from page 0 are the pages `ids`, each once, and deleted pages. -/
structure PagesOwned (file : TreeFile K V) (ids : List Int) : Prop where
  pos : 0 < file.totalPages
  nodup : ids.Nodup
  range : ∀ id ∈ ids, 1 ≤ id ∧ id < file.totalPages
  live : ∀ id ∈ ids, (file.page id).deleted = false
  free : ∀ id : Int, 1 ≤ id → id < file.totalPages → id ∉ ids →
    (file.page id).deleted = true ∧ (file.page id).nodeId = id

namespace PagesOwned

variable {file file' : TreeFile K V} {ids ids' : List Int}

theorem perm (h : PagesOwned file ids) (hp : ids.Perm ids') : PagesOwned file ids' where
  pos := h.pos
  nodup := hp.nodup_iff.1 h.nodup
  range id hid := h.range id (hp.mem_iff.2 hid)
  live id hid := h.live id (hp.mem_iff.2 hid)
  free id h1 h2 hid := h.free id h1 h2 fun hmem => hid (hp.mem_iff.1 hmem)

/-- Ownership is about the pages, not about the metadata. -/
theorem withMetadata (h : PagesOwned file ids) (root first : Int) :
    PagesOwned { file with rootId := root, firstLeafId := first } ids :=
  ⟨h.pos, h.nodup, h.range, h.live, h.free⟩

theorem write (h : PagesOwned file ids) {id : Int} {p : NodePage K V} (hid : id ∈ ids)
    (hp : p.deleted = false) : PagesOwned (file.write id p) ids where
  pos := h.pos
  nodup := h.nodup
  range := h.range
  live i hi := by
    by_cases hii : i = id
    · subst hii
      rw [TreeFile.write_page_self, hp]
    · rw [TreeFile.write_page_ne _ _ _ hii]
      exact h.live i hi
  free i h1 h2 hi := by
    have hii : i ≠ id := fun he => hi (he ▸ hid)
    rw [TreeFile.write_page_ne _ _ _ hii]
    exact h.free i h1 h2 hi

/-- Rewriting owned pages and giving up the pages `gone`. -/
theorem rewrite (gone : List Int) (h : PagesOwned file (gone ++ ids))
    (htotal : file'.totalPages = file.totalPages)
    (hgone : ∀ i ∈ gone, (file'.page i).deleted = true ∧ (file'.page i).nodeId = i)
    (hlive : ∀ i ∈ ids, (file'.page i).deleted = false)
    (hsame : ∀ i, i ∉ gone → i ∉ ids → file'.page i = file.page i) : PagesOwned file' ids where
  pos := htotal ▸ h.pos
  nodup := (List.nodup_append.1 h.nodup).2.1
  range i hi := htotal ▸ h.range i (List.mem_append_right _ hi)
  live := hlive
  free i h1 h2 hi := by
    by_cases hig : i ∈ gone
    · exact hgone i hig
    · rw [hsame i hig hi]
      exact h.free i h1 (htotal ▸ h2) (by simp [hig, hi])

end PagesOwned

/-! ## Taking a page for a new node -/

/-- A page `newNode` may take: a deleted one, or one behind the end of the file. -/
structure Fresh (file : TreeFile K V) (id : Int) : Prop where
  low : 1 ≤ id
  high : id ≤ file.totalPages
  free : id < file.totalPages → (file.page id).deleted = true

/-- The file with room for page `id`. -/
def TreeFile.reserve (file : TreeFile K V) (id : Int) : TreeFile K V :=
  if id < file.totalPages then file else { file with totalPages := file.totalPages + 1 }

@[simp] theorem reserve_page (file : TreeFile K V) (id : Int) :
    (file.reserve id).page = file.page := by
  unfold TreeFile.reserve; split <;> rfl

@[simp] theorem reserve_rootId (file : TreeFile K V) (id : Int) :
    (file.reserve id).rootId = file.rootId := by
  unfold TreeFile.reserve; split <;> rfl

@[simp] theorem reserve_firstLeafId (file : TreeFile K V) (id : Int) :
    (file.reserve id).firstLeafId = file.firstLeafId := by
  unfold TreeFile.reserve; split <;> rfl

theorem reserve_totalPages (file : TreeFile K V) (id : Int) :
    file.totalPages ≤ (file.reserve id).totalPages ∧
      (file.reserve id).totalPages ≤ file.totalPages + 1 := by
  unfold TreeFile.reserve
  split
  · exact ⟨le_rfl, Nat.le_succ _⟩
  · exact ⟨Nat.le_succ _, le_rfl⟩

theorem PagesOwned.not_mem_of_fresh {file : TreeFile K V} {ids : List Int}
    (h : PagesOwned file ids) {id : Int} (hf : Fresh file id) : id ∉ ids := by
  intro hid
  have hfree := hf.free (h.range id hid).2
  rw [h.live id hid] at hfree
  exact absurd hfree (by simp)

theorem PagesOwned.writeFresh {file : TreeFile K V} {ids : List Int} (h : PagesOwned file ids)
    {id : Int} (hf : Fresh file id) {p : NodePage K V} (hp : p.deleted = false) :
    PagesOwned ((file.reserve id).write id p) (id :: ids) := by
  have htotal : file.totalPages ≤ (file.reserve id).totalPages ∧ id < (file.reserve id).totalPages
      ∧ ∀ i : Int, i < (file.reserve id).totalPages → i ≠ id → i < file.totalPages := by
    have := hf.high
    unfold TreeFile.reserve
    split
    · exact ⟨le_rfl, by assumption, fun i hi _ => hi⟩
    · refine ⟨by simp, by simp; omega, fun i hi hne => ?_⟩
      dsimp only at hi
      omega
  obtain ⟨hle, hlt, hback⟩ := htotal
  have hnot := h.not_mem_of_fresh hf
  refine ⟨by have := h.pos; simp; omega, List.nodup_cons.2 ⟨hnot, h.nodup⟩, ?_, ?_, ?_⟩
  · intro i hi
    rcases List.mem_cons.1 hi with rfl | hi'
    · exact ⟨hf.low, hlt⟩
    · have := h.range i hi'
      simp only [TreeFile.write_totalPages]
      omega
  · intro i hi
    rcases List.mem_cons.1 hi with rfl | hi'
    · rw [TreeFile.write_page_self, hp]
    · rw [TreeFile.write_page_ne _ _ _ fun he => hnot (by rw [← he]; exact hi'), reserve_page]
      exact h.live i hi'
  · intro i h1 h2 hi
    obtain ⟨hne, hi'⟩ := not_or.1 (mt List.mem_cons.2 hi)
    rw [TreeFile.write_page_ne _ _ _ hne, reserve_page]
    exact h.free i h1 (hback i h2 hne) hi'

section NewNode

variable (L : Instantiation K V)

/-- Where the scan for a deleted page ends. -/
theorem findDeleted_spec (page : Int → NodePage K V) (count : Nat) :
    ∀ (i : Int) (cur : NodePage K V),
      (∃ j : Int, i ≤ j ∧ j < i + count ∧ (page j).deleted = true ∧
        findDeleted page count i cur = (page j, true)) ∨
      (findDeleted page count i cur = (if count = 0 then cur else page (i + count - 1), false)) := by
  induction count with
  | zero => intro i cur; exact Or.inr rfl
  | succ count ih =>
      intro i cur
      by_cases hd : (page i).deleted = true
      · exact Or.inl ⟨i, Int.le_refl i, by omega, hd, by simp [findDeleted, hd]⟩
      · have hstep : findDeleted page (count + 1) i cur
            = findDeleted page count (i + 1) (page i) := by simp [findDeleted, hd]
        rw [hstep]
        rcases ih (i + 1) (page i) with ⟨j, hij, hj, hdel, hfind⟩ | hfind
        · exact Or.inl ⟨j, by omega, by omega, hdel, hfind⟩
        · refine Or.inr ?_
          rw [hfind]
          by_cases hc : count = 0
          · subst hc; simp
          · simp [hc]
            congr 1
            omega

/-- A new node lies on a fresh page. -/
theorem run_newNode (leaf : Bool) {file : TreeFile K V} {ids : List Int}
    (h : PagesOwned file ids) :
    ∃ id stale, newNode L leaf file = .ok (initNode L leaf id stale)
        ((file.reserve id).write id (initNode L leaf id stale)) ∧ Fresh file id := by
  have hpos := h.pos
  rcases findDeleted_spec file.page (file.totalPages - 1) 1 L.indeterminate with
    ⟨j, hj1, hj2, hdel, hfind⟩ | hfind
  · have hlt : j < file.totalPages := by omega
    have hmem : j ∉ ids := fun hmem => by
      rw [h.live j hmem] at hdel
      exact absurd hdel (by simp)
    have hid := (h.free j hj1 hlt hmem).2
    refine ⟨j, file.page j, ?_, ⟨hj1, by omega, fun _ => hdel⟩⟩
    simp [newNode, hfind, TreeFile.reserve, hlt, hid, initNode]
  · generalize (if file.totalPages - 1 = 0 then _ else _) = stale at hfind
    refine ⟨file.totalPages, stale, ?_, ⟨by omega, Int.le_refl _, fun hlt => by omega⟩⟩
    simp [newNode, hfind, TreeFile.reserve, appendNewPage, initNode]

theorem isLeaf_initNode (id : Int) (stale : NodePage K V) :
    (initNode L true id stale).IsLeaf id [] (-1) :=
  ⟨rfl, rfl, rfl, rfl, rfl, rfl, rfl⟩

theorem isInternal_initNode (id : Int) (stale : NodePage K V) :
    ∃ child, (initNode L false id stale).IsInternal id [] [child] :=
  ⟨_, rfl, rfl, rfl, rfl, rfl, rfl, rfl⟩

end NewNode

/-! ## Trees -/

/-- A tree with at most one internal level. -/
inductive Shape (K V : Type) where
  | empty
  | leaf (id : Int) (es : List (K × V))
  | level (root : Int) (separators : List K) (leaves : List (LeafRecord K V))

namespace Shape

/-- The pages of the tree. -/
def ids : Shape K V → List Int
  | empty => []
  | leaf id _ => [id]
  | level root _ leaves => root :: leaves.map Prod.fst

/-- The entries of the tree in the order of its leaves. -/
def entries : Shape K V → List (K × V)
  | empty => []
  | leaf _ es => es
  | level _ _ leaves => leafEntries leaves

end Shape

/-- The pages of a root and the leaves below it. -/
structure LevelOnDisk (file : TreeFile K V) (root : Int) (ks : List K)
    (leaves : List (LeafRecord K V)) : Prop where
  rootId : file.rootId = root
  firstLeafId : file.firstLeafId = headId leaves (-1)
  rootPage : (file.page root).IsInternal root ks (leaves.map Prod.fst)
  run : LeafRun file.page leaves (-1)

/-- Metadata and pages are as the shape says. -/
def OnDisk (file : TreeFile K V) : Shape K V → Prop
  | .empty => file.rootId = -1 ∧ file.firstLeafId = -1
  | .leaf id es => file.rootId = id ∧ file.firstLeafId = id ∧ (file.page id).IsLeaf id es (-1)
  | .level root ks leaves => LevelOnDisk file root ks leaves

/-- The file holds exactly this tree. -/
structure Represents (file : TreeFile K V) (shape : Shape K V) : Prop where
  onDisk : OnDisk file shape
  owned : PagesOwned file shape.ids

theorem PagesOwned.openNode {file : TreeFile K V} {ids : List Int} (h : PagesOwned file ids)
    {id : Int} (hid : id ∈ ids) (hh : (file.page id).header = nodeHeader)
    (hn : (file.page id).nodeId = id) : openNode id file = .ok (file.page id) file := by
  obtain ⟨h1, h2⟩ := h.range id hid
  exact run_openNode ⟨by omega, h2⟩ hh hn (h.live id hid)

/-! ## The leaves below a node -/

/-- A node and the leaves below it, in a file that may hold more: the leaves are chained and the last
    points to `next`, and the live pages of the file are these and `others`. -/
structure LeafLevel (file : TreeFile K V) (parent : Int) (ks : List K)
    (leaves : List (LeafRecord K V)) (next : Int) (others : List Int) : Prop where
  parentPage : (file.page parent).IsInternal parent ks (leaves.map Prod.fst)
  run : LeafRun file.page leaves next
  owned : PagesOwned file (parent :: (leaves.map Prod.fst ++ others))
  rootId : file.rootId = parent ∨ file.rootId ∈ others

/-- A window `w` of the leaves became `w'`, and nothing but its pages and the parent was written. -/
structure Rewritten (file file' : TreeFile K V) (parent : Int) (ks' : List K)
    (t w w' z : List (LeafRecord K V)) (next : Int) (others : List Int) : Prop where
  level : LeafLevel file' parent ks' (t ++ (w' ++ z)) next others
  same : SameOutside file file' (parent :: (w.map Prod.fst ++ w'.map Prod.fst))
  head : headId w' (headId z next) = headId w (headId z next)

namespace LeafLevel

variable {file file' : TreeFile K V} {parent id next : Int} {ks ks' : List K}
  {es es' : List (K × V)} {t w w' z : List (LeafRecord K V)} {others : List Int}

/-- The parent can be opened as long as its page is not written. -/
theorem openParent (h : LeafLevel file parent ks w next others)
    (hpage : file'.page parent = file.page parent) (htotal : file.totalPages ≤ file'.totalPages) :
    openNode parent file' = .ok (file.page parent) file' := by
  obtain ⟨h1, h2⟩ := h.owned.range parent List.mem_cons_self
  rw [← hpage]
  exact run_openNode ⟨by omega, by omega⟩ (hpage ▸ h.parentPage.header)
    (hpage ▸ h.parentPage.nodeId) (hpage ▸ h.parentPage.deleted)

/-- The pages of a run of leaves in the chain. -/
theorem leafRun (h : LeafLevel file parent ks (t ++ (w ++ z)) next others) :
    LeafRun file.page w (headId z next) :=
  (leafRun_append.1 (leafRun_append.1 h.run).2).1

theorem isLeaf (h : LeafLevel file parent ks (t ++ (id, es) :: z) next others) :
    (file.page id).IsLeaf id es (headId z next) :=
  (leafRun_append.1 h.run).2.1

theorem openChild (h : LeafLevel file parent ks (t ++ (id, es) :: z) next others) :
    BStarPlusTree.openChild (file.page parent) t.length file = .ok (file.page id) file := by
  have hchild := h.parentPage.getChildId (i := t.length) (by simp) file
  rw [BStarPlusTree.openChild, Prog.bind_ok hchild]
  have hid : id ∈ parent :: ((t ++ (id, es) :: z).map Prod.fst ++ others) := by simp
  simpa using h.owned.openNode hid h.isLeaf.header h.isLeaf.nodeId

/-- Pages outside the window are no pages of the window and not the parent. -/
theorem outside (h : LeafLevel file parent ks (t ++ (w ++ z)) next others) {i : Int}
    (hi : i ∈ (t ++ z).map Prod.fst ++ others) : i ≠ parent ∧ i ∉ w.map Prod.fst := by
  have hnd := h.owned.nodup
  have hperm : ((t ++ (w ++ z)).map Prod.fst ++ others).Perm
      (w.map Prod.fst ++ ((t ++ z).map Prod.fst ++ others)) := by
    simp only [List.map_append, List.append_assoc]
    exact List.perm_append_comm_assoc _ _ _
  rw [(hperm.cons parent).nodup_iff, List.nodup_cons, List.mem_append, not_or] at hnd
  obtain ⟨⟨-, hparent⟩, hnd⟩ := hnd
  exact ⟨fun he => hparent (he ▸ hi), fun hw => (List.nodup_append.1 hnd).2.2 i hw i hi rfl⟩

theorem window_nodup (h : LeafLevel file parent ks (t ++ (w ++ z)) next others) :
    (parent :: w.map Prod.fst).Nodup := by
  refine h.owned.nodup.sublist (List.Sublist.cons_cons _ ?_)
  simp only [List.map_append]
  exact ((List.sublist_append_left _ _).trans (List.sublist_append_right _ _)).trans
    (List.sublist_append_left _ _)

/-- A step that rewrites the parent and a window of leaves gives the level with the new window. -/
theorem window (h : LeafLevel file parent ks (t ++ (w ++ z)) next others)
    (hhead : headId w' (headId z next) = headId w (headId z next))
    (hroot : file'.rootId = file.rootId)
    (hsame : ∀ i ∈ (t ++ z).map Prod.fst, file'.page i = file.page i)
    (hparent : (file'.page parent).IsInternal parent ks' ((t ++ (w' ++ z)).map Prod.fst))
    (hrun : LeafRun file'.page w' (headId z next))
    (howned : PagesOwned file' (parent :: ((t ++ (w' ++ z)).map Prod.fst ++ others))) :
    LeafLevel file' parent ks' (t ++ (w' ++ z)) next others := by
  obtain ⟨hpre, hw⟩ := leafRun_append.1 h.run
  have hpost := (leafRun_append.1 hw).2
  refine ⟨hparent, ?_, howned, by rw [hroot]; exact h.rootId⟩
  refine leafRun_append.2 ⟨?_, leafRun_append.2 ⟨hrun, ?_⟩⟩
  · rw [headId_append, hhead, ← headId_append]
    exact hpre.congr fun i hi => hsame i (by simp at hi ⊢; tauto)
  · exact hpost.congr fun i hi => hsame i (by simp at hi ⊢; tauto)

/-- The same for a step that writes no pages but those of the parent and the window, and marks the
    pages `gone` deleted. -/
theorem rewrite (gone : List Int) (h : LeafLevel file parent ks (t ++ (w ++ z)) next others)
    (hids : (w.map Prod.fst).Perm (gone ++ w'.map Prod.fst))
    (hhead : headId w' (headId z next) = headId w (headId z next))
    (hmeta : file'.rootId = file.rootId ∧ file'.firstLeafId = file.firstLeafId ∧
      file'.totalPages = file.totalPages)
    (hsame : ∀ i, i ≠ parent → i ∉ w.map Prod.fst → file'.page i = file.page i)
    (hgone : ∀ i ∈ gone, (file'.page i).deleted = true ∧ (file'.page i).nodeId = i)
    (hparent : (file'.page parent).IsInternal parent ks' ((t ++ (w' ++ z)).map Prod.fst))
    (hrun : LeafRun file'.page w' (headId z next)) :
    Rewritten file file' parent ks' t w w' z next others := by
  have hout : ∀ i ∈ (t ++ z).map Prod.fst ++ others, file'.page i = file.page i := fun i hi =>
    hsame i (h.outside hi).1 (h.outside hi).2
  refine ⟨h.window hhead hmeta.1 (fun i hi => hout i (List.mem_append_left _ hi)) hparent hrun ?_,
    ⟨hmeta.1, hmeta.2.1, ?_⟩, hhead⟩
  · have hperm : (parent :: ((t ++ (w ++ z)).map Prod.fst ++ others)).Perm
        (gone ++ (parent :: ((t ++ (w' ++ z)).map Prod.fst ++ others))) := by
      simp only [List.map_append, List.append_assoc]
      refine (((hids.append_right _).append_left _).cons parent).trans ?_
      rw [List.append_assoc]
      exact (List.perm_append_comm_assoc (parent :: t.map Prod.fst) gone _)
    refine PagesOwned.rewrite gone (h.owned.perm hperm) hmeta.2.2 hgone ?_ ?_
    · intro i hi
      by_cases hip : i = parent
      · rw [hip]; exact hparent.deleted
      · by_cases hiw : i ∈ w'.map Prod.fst
        · exact hrun.deleted hiw
        · have hmem : i ∈ (t ++ z).map Prod.fst ++ others := by
            simp only [List.map_append, List.mem_cons, List.mem_append] at hi ⊢
            tauto
          rw [hout i hmem]
          exact h.owned.live i (hperm.mem_iff.2 (List.mem_append_right _ hi))
    · intro i hig hi
      simp only [List.map_append, List.mem_cons, List.mem_append, not_or] at hi
      refine hsame i hi.1 fun hiw => ?_
      rcases List.mem_append.1 (hids.mem_iff.1 hiw) with hg | hw
      · exact hig hg
      · exact hi.2.1.2.1 hw
  · intro i hi
    simp only [List.mem_cons, List.mem_append, not_or] at hi
    exact hsame i hi.1 hi.2.1

/-- A leaf below a node is not the root. -/
theorem leaf_ne_root (h : LeafLevel file parent ks (t ++ (id, es) :: z) next others) :
    ¬ (file.page id).nodeId = file.rootId := by
  have h' : LeafLevel file parent ks (t ++ ([(id, es)] ++ z)) next others := h
  rw [h.isLeaf.nodeId]
  rintro rfl
  rcases h.rootId with heq | hmem
  · have hnd := h'.window_nodup
    simp [heq] at hnd
  · exact (h'.outside (List.mem_append_right _ hmem)).2 (by simp)

end LeafLevel

namespace Represents

variable {file file' : TreeFile K V} {root id : Int} {ks ks' : List K} {es es' : List (K × V)}
  {t w w' z : List (LeafRecord K V)}

/-- A root with its leaves is all there is in the file. -/
theorem level (h : Represents file (.level root ks w)) : LeafLevel file root ks w (-1) [] :=
  ⟨h.onDisk.rootPage, h.onDisk.run, by simpa [Shape.ids] using h.owned, .inl h.onDisk.rootId⟩

/-- The tree after a window of its leaves is rewritten. -/
theorem rewritten (h : Represents file (.level root ks (t ++ (w ++ z))))
    (h' : Rewritten file file' root ks' t w w' z (-1) []) :
    Represents file' (.level root ks' (t ++ (w' ++ z))) := by
  refine ⟨⟨h'.same.rootId.trans h.onDisk.rootId, ?_, h'.level.parentPage, h'.level.run⟩, ?_⟩
  · rw [h'.same.firstLeafId, h.onDisk.firstLeafId]
    simp only [headId_append, h'.head]
  · simpa [Shape.ids] using h'.level.owned

theorem rootPage (h : Represents file (.level root ks w)) :
    (file.page root).IsInternal root ks (w.map Prod.fst) := h.onDisk.rootPage

theorem isLeaf (h : Represents file (.level root ks (t ++ (id, es) :: z))) :
    (file.page id).IsLeaf id es (headId z (-1)) :=
  h.level.isLeaf

/-- Writing one leaf. -/
theorem writeLeaf {p : NodePage K V}
    (h : Represents file (.level root ks (t ++ (id, es) :: z)))
    (hp : p.IsLeaf id es' (headId z (-1))) :
    Represents (file.write id p) (.level root ks (t ++ (id, es') :: z)) := by
  have h' : Represents file (.level root ks (t ++ ([(id, es)] ++ z))) := h
  have hne : root ≠ id := by
    have hnd := h'.level.window_nodup
    simp only [List.map_cons, List.map_nil, List.nodup_cons, List.mem_cons] at hnd
    tauto
  have hrewritten : Rewritten file (file.write id p) root ks t [(id, es)] [(id, es')] z (-1) [] := by
    refine h'.level.rewrite [] (.refl _) rfl ⟨rfl, rfl, rfl⟩ ?_ (by simp) ?_ ⟨?_, trivial⟩
    · intro i _ hi
      exact TreeFile.write_page_ne _ _ _ (by simpa using hi)
    · rw [TreeFile.write_page_ne _ _ _ hne]
      simpa using h.rootPage
    · simpa using hp
  exact h'.rewritten hrewritten

/-- A tree of one leaf after that leaf is written. -/
theorem writeRootLeaf {p : NodePage K V} (h : Represents file (.leaf id es))
    (hp : p.IsLeaf id es' (-1)) : Represents (file.write id p) (.leaf id es') :=
  ⟨⟨h.onDisk.1, h.onDisk.2.1, by simpa using hp⟩, h.owned.write (by simp [Shape.ids]) hp.deleted⟩

end Represents

/-! ## Siblings in a window -/

section Siblings

variable {file : TreeFile K V} {parent id next : Int} {ks : List K} {es : List (K × V)}
  {t z w w' : List (LeafRecord K V)} {x : LeafRecord K V} {others : List Int}

/-- What holds of all leaves, after a window is rewritten. -/
theorem forall_window {P : LeafRecord K V → Prop} {v : List (LeafRecord K V)}
    (h : ∀ leaf ∈ t ++ (w ++ z), P leaf) (hv : ∀ leaf ∈ v, P leaf) :
    ∀ leaf ∈ t ++ (v ++ z), P leaf := by
  intro leaf hleaf
  simp only [List.mem_append] at hleaf h
  rcases hleaf with hleaf | hleaf | hleaf
  · exact h leaf (Or.inl hleaf)
  · exact hv leaf hleaf
  · exact h leaf (Or.inr (Or.inr hleaf))

@[simp] theorem run_openSibling_false (parent : NodePage K V) (i : Nat) (file : TreeFile K V) :
    BStarPlusTree.openSibling false parent i file = .ok none file := rfl

theorem run_openSibling_true {parent p : NodePage K V} {i : Nat}
    (h : BStarPlusTree.openChild parent i file = .ok p file) :
    BStarPlusTree.openSibling true parent i file = .ok (some p) file := by
  simp [BStarPlusTree.openSibling, Prog.run_bind, h]

namespace LeafLevel

theorem openChild_succ
    (h : LeafLevel file parent ks (t ++ x :: (id, es) :: z) next others) :
    BStarPlusTree.openChild (file.page parent) (t.length + 1) file = .ok (file.page id) file := by
  have h' : LeafLevel file parent ks ((t ++ [x]) ++ (id, es) :: z) next others := by
    rw [List.append_assoc]; exact h
  have hopen := h'.openChild
  rwa [List.length_append, List.length_singleton] at hopen

/-- The left sibling of a leaf is the last one before it. -/
theorem openLeft (h : LeafLevel file parent ks (t ++ (id, es) :: z) next others) :
    BStarPlusTree.openSibling (0 < t.length) (file.page parent) (t.length - 1) file
      = .ok (t.getLast?.map fun leaf => file.page leaf.1) file := by
  rcases List.eq_nil_or_concat t with rfl | ⟨t, ⟨l, es₁⟩, rfl⟩
  · rfl
  · rw [List.concat_eq_append] at h ⊢
    have h' : LeafLevel file parent ks (t ++ (l, es₁) :: (id, es) :: z) next others := by
      simpa using h
    simpa using run_openSibling_true h'.openChild

/-- The right sibling of a leaf is the first one after it. -/
theorem openRight (h : LeafLevel file parent ks (t ++ (id, es) :: z) next others) :
    BStarPlusTree.openSibling (t.length + 1 < (file.page parent).childrenSize) (file.page parent)
        (t.length + 1) file
      = .ok (z.head?.map fun leaf => file.page leaf.1) file := by
  rw [h.parentPage.childrenSize_eq]
  cases z with
  | nil => simp
  | cons leaf z => simpa using run_openSibling_true h.openChild_succ

end LeafLevel

/-- A sibling that is there but has no room is passed over. -/
theorem filter_canTake_eq_none (L : Instantiation K V) {leaves : List (LeafRecord K V)}
    {o : Option (LeafRecord K V)} (hrun : LeafRun file.page leaves next)
    (ho : ∀ leaf ∈ o, leaf ∈ leaves) (hfull : ∀ leaf ∈ o, L.maxKeysLeaf ≤ leaf.2.length) :
    (o.map fun leaf => file.page leaf.1).filter (fun p => p.canTake L) = none := by
  cases o with
  | none => rfl
  | some leaf =>
      obtain ⟨next, hleaf⟩ := hrun.isLeaf (ho leaf rfl)
      have hno : ¬ leaf.2.length < L.maxKeysLeaf := not_lt.2 (hfull leaf rfl)
      simp [Option.filter, hleaf.canTake_eq, hno]

end Siblings

end QuasarDB.Storage
