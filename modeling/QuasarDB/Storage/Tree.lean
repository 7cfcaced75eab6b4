import QuasarDB.Storage.Node

set_option autoImplicit false

/-! # The B*+-tree

`BStarPlusTree<K_t, V_t>` (`b_star_plus_tree.h`). A function of the class that gets a node by
reference returns the node as it leaves it; nodes it opens itself die with it. `parentStack` is a
list with its top first. An internal node that overflows or underflows is handed to the next level
with the rest of the stack, so the cascade of splits and merges is a recursion over the stack. -/

namespace QuasarDB.Storage

namespace BStarPlusTree

variable {K V : Type} [LinearOrder K] [Inhabited K] (L : Instantiation K V)

/-- The parents passed on the way down, with the index of the child taken. -/
abbrev ParentStack : Type := List (Int × Nat)

/-- The file the constructor leaves when there was none: the metadata page of an empty tree. -/
def create : TreeFile K V :=
  { rootId := -1, firstLeafId := -1, page := fun _ => L.indeterminate, totalPages := 1 }

/-! ## Metadata -/

def setRootAndFirstLeafId (newRootId newFirstLeafId : Int) : TreeM K V Unit :=
  modify fun file => { file with rootId := newRootId, firstLeafId := newFirstLeafId }

def setNullRoot : TreeM K V Unit := setRootAndFirstLeafId (-1) (-1)

def setRootId (newRootId : Int) : TreeM K V Unit :=
  modify fun file => { file with rootId := newRootId }

def rootId : TreeM K V Int := do
  let file ← get
  pure file.rootId

def createRoot : TreeM K V (NodePage K V) := do
  let root ← NodePage.newNode L true
  setRootAndFirstLeafId root.nodeId root.nodeId
  pure root

def top : ParentStack → TreeM K V (Int × Nat)
  | [] => throw (.undefined "top of an empty stack")
  | entry :: _ => pure entry

/-- The child of `parent` at `idx`, read from the file. -/
def openChild (parent : NodePage K V) (idx : Nat) : TreeM K V (NodePage K V) := do
  let childId ← parent.getChildId idx
  NodePage.openNode childId

/-- A sibling that is read when there is one on that side; `none` is the null pointer. -/
def openSibling (exists_ : Bool) (parent : NodePage K V) (idx : Nat) :
    TreeM K V (Option (NodePage K V)) :=
  if exists_ then do
    let sibling ← openChild parent idx
    pure (some sibling)
  else pure none

/-! ## Finding a leaf -/

/-- The loop of `findLeaf`. A descent that meets no page twice takes fewer rounds than there are
    pages. -/
def descend (key : K) : (fuel : Nat) → NodePage K V → ParentStack →
    TreeM K V (NodePage K V × ParentStack)
  | 0, _, _ => throw .endless
  | fuel + 1, cur, parentStack => do
      if cur.isLeaf then pure (cur, parentStack)
      else
        let idx ← cur.findChildIdx key
        let child ← openChild cur idx
        descend key fuel child ((cur.nodeId, idx) :: parentStack)

/-- `none` is the null pointer. -/
def findLeaf (key : K) : TreeM K V (Option (NodePage K V) × ParentStack) := do
  let file ← get
  if file.rootId = -1 then pure (none, [])
  else
    let root ← NodePage.openNode file.rootId
    let (leaf, parentStack) ← descend key (file.totalPages + 1) root []
    pure (some leaf, parentStack)

/-! ## Moving entries between neighbours -/

/-- The sizes `s1`, `s2` and `s3` with which three nodes share `total` entries or children. -/
def thirds (total : Nat) : Nat × Nat × Nat :=
  let s1 := total / 3
  let s2 := (total - s1) / 2
  let s3 := total - s1 - s2
  (s1, s2, s3)

def redistributeLeaves2to2 (left right parent : NodePage K V) (leftIdx : Nat) :
    TreeM K V (NodePage K V × NodePage K V × NodePage K V) := do
  let total := left.size + right.size
  let s1 := total / 2
  if left.size = s1 then pure (left, right, parent)
  else
    let (newMidKey, left, right) ←
      if s1 < left.size then left.sendToRightLeaf L right (left.size - s1)
      else left.takeFromRightLeaf L right (s1 - left.size)
    let parent ← parent.setKey newMidKey leftIdx
    pure (left, right, parent)

def redistributeLeaves3to3 (left middle right parent : NodePage K V) (leftIdx : Nat) :
    TreeM K V Unit := do
  let total := left.size + middle.size + right.size
  let (s1, s2, s3) := thirds total
  let (mid1, mid2) ←
    if left.underflow L then do
      Prog.assert (left.underflow L && middle.size == L.minKeysLeaf && right.canLend L false)
        "left.underflow() && (middle.size() == MIN_KEYS_LEAF) && right.can_lend()"
      let count ← Prog.sub s1 left.size
      let (mid1, _, middle) ← left.takeFromRightLeaf L middle count
      let count ← Prog.sub s2 middle.size
      let (mid2, _, _) ← middle.takeFromRightLeaf L right count
      pure (mid1, mid2)
    else if right.underflow L then do
      Prog.assert (left.canLend L false && middle.size == L.minKeysLeaf && right.underflow L)
        "left.can_lend() && (middle.size() == MIN_KEYS_LEAF) && right.underflow()"
      let count ← Prog.sub s3 right.size
      let (mid2, middle, _) ← middle.sendToRightLeaf L right count
      let count ← Prog.sub s2 middle.size
      let (mid1, _, _) ← left.sendToRightLeaf L middle count
      pure (mid1, mid2)
    else throw (.assertion "Wrong using redistributeLeaves3to3")
  let parent ← parent.setKey mid1 leftIdx
  let _ ← parent.setKey mid2 (leftIdx + 1)

def redistributeInternal2to2 (left right parent : NodePage K V) (leftIdx : Nat) :
    TreeM K V Unit := do
  let total := left.size + right.size
  let s1 := total / 2
  let oldMidKey ← parent.getKey leftIdx
  if left.size = s1 then pure ()
  else
    let (newMidKey, _, _) ←
      if s1 < left.size then left.sendToRightInternal L right (left.size - s1) oldMidKey
      else left.takeFromRightInternal L right (s1 - left.size) oldMidKey
    let _ ← parent.setKey newMidKey leftIdx

def redistributeInternal3to3 (left middle right parent : NodePage K V) (leftIdx : Nat) :
    TreeM K V Unit := do
  let total := left.childrenSize + middle.childrenSize + right.childrenSize
  let (s1, s2, s3) := thirds total
  let oldMid1 ← parent.getKey leftIdx
  let oldMid2 ← parent.getKey (leftIdx + 1)
  let (mid1, mid2) ←
    if left.underflow L then do
      Prog.assert (left.underflow L && middle.size == L.minKeysInternal && right.canLend L false)
        "left.underflow() && (middle.size() == MIN_KEYS_INTERNAL) && right.can_lend()"
      let count ← Prog.sub s1 left.childrenSize
      let (mid1, _, middle) ← left.takeFromRightInternal L middle count oldMid1
      let count ← Prog.sub s2 middle.childrenSize
      let (mid2, _, _) ← middle.takeFromRightInternal L right count oldMid2
      pure (mid1, mid2)
    else if right.underflow L then do
      Prog.assert (left.canLend L false && middle.size == L.minKeysInternal && right.underflow L)
        "left.can_lend() && (middle.size() == MIN_KEYS_INTERNAL) && right.underflow()"
      let count ← Prog.sub s3 right.childrenSize
      let (mid2, middle, _) ← middle.sendToRightInternal L right count oldMid2
      let count ← Prog.sub s2 middle.childrenSize
      let (mid1, _, _) ← left.sendToRightInternal L middle count oldMid1
      pure (mid1, mid2)
    else throw (.assertion "Wrong using redistributeInternal3to3")
  let parent ← parent.setKey mid1 leftIdx
  let _ ← parent.setKey mid2 (leftIdx + 1)

/-! ## Splitting -/

def splitInternal1to2 (node : NodePage K V) : TreeM K V Unit := do
  let root ← rootId
  Prog.assert (node.nodeId == root) "node.id() == root_id()"
  let newRoot ← NodePage.newNode L false
  setRootId newRoot.nodeId
  let newRoot ← newRoot.pushBackToInternal node.nodeId
  let right ← NodePage.newNode L false
  let newRoot ← newRoot.insertInInternal L default right.nodeId
  redistributeInternal2to2 L node right newRoot 0

/-- `handleOverflow` is `handleInternalOverflow` with the stack popped. -/
def splitInternal2to3 (handleOverflow : NodePage K V → TreeM K V Unit)
    (left right : NodePage K V) (parentId : Int) (leftIdx : Nat) : TreeM K V Unit := do
  let total := left.childrenSize + right.childrenSize
  let (_, s2, s3) := thirds total
  let parent ← NodePage.openNode parentId
  let oldMid1 ← parent.getKey leftIdx
  let oldMid2 ← parent.getKey (leftIdx + 1)
  let n3 ← NodePage.newNode L false
  let (mid2, right, n3) ← right.sendToRightInternal L n3 s3 oldMid2
  let count ← Prog.sub s2 right.childrenSize
  let (mid1, _, _) ← left.sendToRightInternal L right count oldMid1
  let parent ← parent.setKey mid1 leftIdx
  let parent ← parent.insertInInternal L mid2 n3.nodeId
  if parent.overflow L then handleOverflow parent

def handleInternalOverflow : ParentStack → NodePage K V → TreeM K V Unit
  | [], node => do
      let root ← rootId
      if node.nodeId = root then splitInternal1to2 L node
      else throw (.undefined "top of an empty stack")
  | (parentId, idxInParent) :: parentStack, node => do
      let root ← rootId
      if node.nodeId = root then splitInternal1to2 L node
      else
        let parent ← NodePage.openNode parentId
        let left ← openSibling (0 < idxInParent) parent (idxInParent - 1)
        match left.filter (·.canTake L) with
        | some left => redistributeInternal2to2 L left node parent (idxInParent - 1)
        | none =>
            let right ← openSibling (idxInParent < parent.childrenSize - 1) parent
              (idxInParent + 1)
            match right.filter (·.canTake L) with
            | some right => redistributeInternal2to2 L node right parent idxInParent
            | none =>
                match left, right with
                | some left, _ =>
                    splitInternal2to3 L (handleInternalOverflow parentStack) left node parentId
                      (idxInParent - 1)
                | none, some right =>
                    splitInternal2to3 L (handleInternalOverflow parentStack) node right parentId
                      idxInParent
                | none, none => throw (.exception "Some wrong.")

def splitLeaf1to2 (node : NodePage K V) : TreeM K V Unit := do
  let newRoot ← NodePage.newNode L false
  setRootId newRoot.nodeId
  let newRoot ← newRoot.pushBackToInternal node.nodeId
  let rightLeaf ← NodePage.newNode L true
  let newRoot ← newRoot.insertInInternal L default rightLeaf.nodeId
  let (node, rightLeaf, _) ← redistributeLeaves2to2 L node rightLeaf newRoot 0
  let _ ← node.setNext rightLeaf.nodeId

/-- The second half of `splitLeaves2to3`: the parent gets the two separators and the new child. -/
def raiseLeafSplit (parentStack : ParentStack) (leftIdx : Nat) (mid1 mid2 : K) (newId : Int) :
    TreeM K V Unit := do
  let (parentId, _) ← top parentStack
  let parent ← NodePage.openNode parentId
  let parent ← parent.setKey mid1 leftIdx
  let parent ← parent.insertInInternal L mid2 newId
  if parent.overflow L then handleInternalOverflow L parentStack.tail parent

def splitLeaves2to3 (left right : NodePage K V) (parentStack : ParentStack) (leftIdx : Nat) :
    TreeM K V Unit := do
  let n3 ← NodePage.newNode L true
  let total := left.size + right.size
  let (_, s2, s3) := thirds total
  let (mid2, right, n3) ← right.sendToRightLeaf L n3 s3
  let count ← Prog.sub s2 right.size
  let (mid1, _, right) ← left.sendToRightLeaf L right count
  let nextId ← right.getNextId
  let n3 ← n3.setNext nextId
  let _ ← right.setNext n3.nodeId
  raiseLeafSplit L parentStack leftIdx mid1 mid2 n3.nodeId

def handleLeafOverflow (leaf : NodePage K V) (parentStack : ParentStack) : TreeM K V Unit := do
  let root ← rootId
  if leaf.nodeId = root then splitLeaf1to2 L leaf
  else
    let (parentId, idxInParent) ← top parentStack
    let parent ← NodePage.openNode parentId
    let left ← openSibling (0 < idxInParent) parent (idxInParent - 1)
    match left.filter (·.canTake L) with
    | some left => do
        let _ ← redistributeLeaves2to2 L left leaf parent (idxInParent - 1)
    | none =>
        let right ← openSibling (idxInParent + 1 < parent.childrenSize) parent (idxInParent + 1)
        match right.filter (·.canTake L) with
        | some right => do
            let _ ← redistributeLeaves2to2 L leaf right parent idxInParent
        | none =>
            match left, right with
            | some left, _ => splitLeaves2to3 L left leaf parentStack (idxInParent - 1)
            | none, some right => splitLeaves2to3 L leaf right parentStack idxInParent
            | none, none => throw (.exception "This code must be unreachable.")

/-! ## Merging -/

def mergeInternal2to1 (left right : NodePage K V) (parentId : Int) : TreeM K V Unit := do
  let parent ← NodePage.openNode parentId
  let root ← rootId
  Prog.assert (parent.nodeId == root && parent.childrenSize == 2)
    "parent->id() == root_id() && parent->children_size() == 2"
  let midKey ← parent.getKey 0
  let (_, left, right) ← left.takeFromRightInternal L right right.childrenSize midKey
  setRootId left.nodeId
  let _ ← parent.markDeleted
  let _ ← right.markDeleted

/-- `handleUnderflow` is `handleInternalUnderflow` with the stack popped. -/
def mergeInternal3to2 (handleUnderflow : NodePage K V → TreeM K V Unit)
    (left middle right : NodePage K V) (parentId : Int) (leftIdx : Nat) : TreeM K V Unit := do
  let total := left.childrenSize + middle.childrenSize + right.childrenSize
  let s1 := total / 2
  let s2 := total - s1
  let parent ← NodePage.openNode parentId
  let oldMidKey1 ← parent.getKey leftIdx
  let oldMidKey2 ← parent.getKey (leftIdx + 1)
  let count ← Prog.sub s1 left.childrenSize
  let (newMidKey1, left, middle) ← left.takeFromRightInternal L middle count oldMidKey1
  let count ← Prog.sub s2 middle.childrenSize
  let (_, middle, right) ← middle.takeFromRightInternal L right count oldMidKey2
  let nextId ← right.getNextId
  let middle ← middle.setNext nextId
  Prog.assert (left.size == s1) "left.size() == s1"
  Prog.assert (middle.size == s2) "middle.size() == s2"
  Prog.assert (right.size == 0) "right.size() == 0"
  let parent ← parent.setKey newMidKey1 leftIdx
  let parent ← parent.removeFromInternal (leftIdx + 1)
  let _ ← right.markDeleted
  let root ← rootId
  if parent.nodeId ≠ root ∧ parent.underflow L then handleUnderflow parent

def handleInternalUnderflow : ParentStack → NodePage K V → TreeM K V Unit
  | [], _ => throw (.undefined "top of an empty stack")
  | (parentId, idxInParent) :: parentStack, node => do
      let parent ← NodePage.openNode parentId
      let left ← openSibling (0 < idxInParent) parent (idxInParent - 1)
      match left.filter (·.canLend L (parent.childrenSize == 2)) with
      | some left => redistributeInternal2to2 L left node parent (idxInParent - 1)
      | none =>
          let right ← openSibling (idxInParent + 1 < parent.childrenSize) parent (idxInParent + 1)
          match right.filter (·.canLend L (parent.childrenSize == 2)) with
          | some right => redistributeInternal2to2 L node right parent idxInParent
          | none =>
              if parent.childrenSize = 2 then
                match left, right with
                | _, some right => do
                    Prog.assert (node.size + right.size ≤ L.maxKeysInternal)
                      "node.size() + right->size() <= MAX_KEYS_INTERNAL"
                    mergeInternal2to1 L node right parentId
                | some left, none => do
                    Prog.assert (left.size + node.size ≤ L.maxKeysInternal)
                      "left->size() + node.size() <= MAX_KEYS_INTERNAL"
                    mergeInternal2to1 L left node parentId
                | none, none => throw (.assertion "This code must be unreachable.")
              else if idxInParent = 0 then do
                let rightRight ← openChild parent (idxInParent + 2)
                match right with
                | none => throw (.undefined "null pointer dereference")
                | some right =>
                    if rightRight.canLend L false then
                      redistributeInternal3to3 L node right rightRight parent idxInParent
                    else
                      mergeInternal3to2 L (handleInternalUnderflow parentStack) node right rightRight
                        parentId idxInParent
              else if idxInParent = parent.childrenSize - 1 then do
                let leftLeftIdx ← Prog.sub idxInParent 2
                let leftLeft ← openChild parent leftLeftIdx
                match left with
                | none => throw (.undefined "null pointer dereference")
                | some left =>
                    if leftLeft.canLend L false then
                      redistributeInternal3to3 L leftLeft left node parent leftLeftIdx
                    else
                      mergeInternal3to2 L (handleInternalUnderflow parentStack) leftLeft left node
                        parentId leftLeftIdx
              else
                match left, right with
                | some left, some right =>
                    mergeInternal3to2 L (handleInternalUnderflow parentStack) left node right
                      parentId (idxInParent - 1)
                | _, _ => throw (.undefined "null pointer dereference")

def mergeLeaves2to1 (left right : NodePage K V) (parentStack : ParentStack) :
    TreeM K V Unit := do
  let (parentId, _) ← top parentStack
  let parent ← NodePage.openNode parentId
  let root ← rootId
  Prog.assert (parent.nodeId == root && parent.childrenSize == 2)
    "parent->id() == root_id() && parent->children_size() == 2"
  let nextId ← right.getNextId
  Prog.assert (nextId == -1) "right.get_next_id() == -1"
  let (_, left, right) ← left.takeFromRightLeaf L right right.size
  let left ← left.setNext (-1)
  setRootId left.nodeId
  let _ ← right.markDeleted
  let _ ← parent.markDeleted

def mergeLeaves3to2 (left middle right : NodePage K V) (parentStack : ParentStack)
    (leftIdx : Nat) : TreeM K V Unit := do
  let total := left.size + middle.size + right.size
  let s1 := total / 2
  let s2 := total - s1
  let count ← Prog.sub s1 left.size
  let (newMid, left, middle) ← left.takeFromRightLeaf L middle count
  let count ← Prog.sub s2 middle.size
  let (_, middle, right) ← middle.takeFromRightLeaf L right count
  let nextId ← right.getNextId
  let middle ← middle.setNext nextId
  let right ← right.markDeleted
  Prog.assert (left.size == s1) "left.size() == s1"
  Prog.assert (middle.size == s2) "middle.size() == s2"
  Prog.assert (right.size == 0) "right.size() == 0"
  let (parentId, _) ← top parentStack
  let parent ← NodePage.openNode parentId
  let parent ← parent.setKey newMid leftIdx
  let parent ← parent.removeFromInternal (leftIdx + 1)
  let root ← rootId
  if parent.nodeId ≠ root ∧ parent.underflow L then handleInternalUnderflow L parentStack.tail parent

/-- The second half of `handleLeafUnderflow`: no neighbour lends. -/
def joinLeaves (leaf parent : NodePage K V) (left right : Option (NodePage K V))
    (parentStack : ParentStack) (idxInParent : Nat) : TreeM K V Unit :=
  if parent.childrenSize = 2 then
    match right with
    | some right => do
        Prog.assert (leaf.size + right.size ≤ L.maxKeysLeaf)
          "leaf.size() + right->size() <= MAX_KEYS_LEAF"
        mergeLeaves2to1 L leaf right parentStack
    | none =>
        match left with
        | some left => do
            Prog.assert (left.size + leaf.size ≤ L.maxKeysLeaf)
              "left->size() + leaf.size() <= MAX_KEYS_LEAF"
            mergeLeaves2to1 L left leaf parentStack
        | none => throw (.assertion "This code must be unreachable.")
  else if idxInParent = 0 then do
    let rightRight ← openChild parent (idxInParent + 2)
    match right with
    | none => throw (.undefined "null pointer dereference")
    | some right =>
        if rightRight.canLend L false then
          redistributeLeaves3to3 L leaf right rightRight parent idxInParent
        else mergeLeaves3to2 L leaf right rightRight parentStack idxInParent
  else if idxInParent = parent.childrenSize - 1 then do
    let leftLeftIdx ← Prog.sub idxInParent 2
    let leftLeft ← openChild parent leftLeftIdx
    match left with
    | none => throw (.undefined "null pointer dereference")
    | some left =>
        if leftLeft.canLend L false then
          redistributeLeaves3to3 L leftLeft left leaf parent leftLeftIdx
        else mergeLeaves3to2 L leftLeft left leaf parentStack leftLeftIdx
  else
    match left with
    | none => throw (.undefined "null pointer dereference")
    | some left =>
        match right with
        | none => throw (.undefined "null pointer dereference")
        | some right => mergeLeaves3to2 L left leaf right parentStack (idxInParent - 1)

def handleLeafUnderflow (leaf : NodePage K V) (parentStack : ParentStack) : TreeM K V Unit := do
  let root ← rootId
  Prog.assert (leaf.nodeId != root) "leaf.id() != root_id()"
  let (parentId, idxInParent) ← top parentStack
  let parent ← NodePage.openNode parentId
  let left ← openSibling (0 < idxInParent) parent (idxInParent - 1)
  match left.filter (·.canLend L (parent.childrenSize == 2)) with
  | some left => do
      let _ ← redistributeLeaves2to2 L left leaf parent (idxInParent - 1)
  | none =>
      let right ← openSibling (idxInParent + 1 < parent.childrenSize) parent (idxInParent + 1)
      match right.filter (·.canLend L (parent.childrenSize == 2)) with
      | some right => do
          let _ ← redistributeLeaves2to2 L leaf right parent idxInParent
      | none => joinLeaves L leaf parent left right parentStack idxInParent

/-! ## The public operations -/

/-- The loop of `search` from the entry at `idx` of `leaf` on. -/
def searchFrom (key : K) : (fuel : Nat) → NodePage K V → Nat → List V → TreeM K V (List V)
  | 0, _, _, _ => throw .endless
  | fuel + 1, leaf, idx, result => do
      let k ← leaf.getKey idx
      if k = key then
        let v ← leaf.getValue idx
        let result := result ++ [v]
        if idx + 1 = leaf.size then
          let nextId ← leaf.getNextId
          if nextId = -1 then pure result
          else
            let next ← NodePage.openNode nextId
            searchFrom key fuel next 0 result
        else searchFrom key fuel leaf (idx + 1) result
      else pure result

def search (key : K) : TreeM K V (List V) := do
  let (leaf, _) ← findLeaf key
  match leaf with
  | none => pure []
  | some leaf =>
      match leaf.findKeyIdxByExactCmp key with
      | none => pure []
      | some idx => do
          let file ← get
          searchFrom key (file.totalPages * L.physSizeLeaf + 1) leaf idx []

/-- `insert` once there is a root. -/
def insertBelowRoot (key : K) (value : V) : TreeM K V Unit := do
  let (leaf, parentStack) ← findLeaf key
  match leaf with
  | none => throw (.assertion "leaf")
  | some leaf =>
      let leaf ← leaf.insertInLeaf L key value
      if leaf.overflow L then handleLeafOverflow L leaf parentStack

def insert (key : K) (value : V) : TreeM K V Unit := do
  let root ← rootId
  if root = -1 then
    let _ ← createRoot L
    insertBelowRoot L key value
  else insertBelowRoot L key value

def remove (key : K) : TreeM K V Bool := do
  let (leaf, parentStack) ← findLeaf key
  match leaf with
  | none => pure false
  | some leaf =>
      let (removed, leaf) ← leaf.removeFromLeaf key
      if removed then
        let root ← rootId
        if leaf.nodeId = root then
          if leaf.empty then do
            let _ ← leaf.markDeleted
            setNullRoot
          pure true
        else
          if leaf.underflow L then handleLeafUnderflow L leaf parentStack
          pure true
      else pure false

def update (key : K) (value : V) : TreeM K V Bool := do
  let (leaf, _) ← findLeaf key
  match leaf with
  | none => throw (.exception "Key not found in b*+-tree.")
  | some leaf => do
      let (updated, _) ← leaf.updateValue key value
      pure updated

/-- The branch depends on whether a leaf was found, not on whether it holds the key. -/
def updateOrInsert (key : K) (value : V) : TreeM K V Unit := do
  let (leaf, _) ← findLeaf key
  match leaf with
  | none => insert L key value
  | some leaf => do
      let _ ← leaf.updateValue key value

/-- The inner loop of `rangeSearch` over `count` entries from `i` on: whether a key above `high` ended
    the search, and the pairs collected. -/
def scanLeaf (low high : K) (leaf : NodePage K V) : (count : Nat) → (i : Nat) → List (K × V) →
    TreeM K V (Bool × List (K × V))
  | 0, _, result => pure (false, result)
  | count + 1, i, result => do
      let k ← leaf.getKey i
      if high < k then pure (true, result)
      else if low ≤ k then
        let v ← leaf.getValue i
        scanLeaf low high leaf count (i + 1) (result ++ [(k, v)])
      else scanLeaf low high leaf count (i + 1) result

/-- The outer loop of `rangeSearch`: `leaf` is a node object on every round, so nothing but a key above
    `high` or an exception ends it. A chain that meets no leaf twice has fewer leaves than the file
    has pages. -/
def rangeFrom (low high : K) : (fuel : Nat) → NodePage K V → List (K × V) →
    TreeM K V (List (K × V))
  | 0, _, _ => throw .endless
  | fuel + 1, leaf, result => do
      let (done, result) ← scanLeaf low high leaf leaf.size 0 result
      if done then pure result
      else
        let nextId ← leaf.getNextId
        let next ← NodePage.openNode nextId
        rangeFrom low high fuel next result

def rangeSearch (low high : K) : TreeM K V (List (K × V)) := do
  let (leaf, _) ← findLeaf low
  match leaf with
  | none => pure []
  | some leaf => do
      let file ← get
      rangeFrom low high (file.totalPages + 1) leaf []

/-! ## The integrity check -/

/-- One round of the loop over the children. -/
def checkChild (check : Int → Bool → TreeM K V (K × K × Bool)) (root : Int) (node : NodePage K V)
    (acc : K × K × Bool) (i : Nat) : TreeM K V (K × K × Bool) := do
  let (globalMin, globalMax, result) := acc
  let childId ← node.getChildId i
  let (childMin, childMax, childValid) ← check childId (node.nodeId == root)
  let leftOk := i == 0 || decide (node.keys (i - 1) ≤ childMin)
  let rightOk := decide (node.size ≤ i) || decide (childMax < node.keys i)
  pure (if i = 0 then childMin else globalMin,
    if i = node.childrenSize - 1 then childMax else globalMax,
    result && childValid && leftOk && rightOk)

/-- `check_node_integrity`: the least and the largest key below the node, and whether every check
    held. The tree below a page has fewer levels than the file has pages. -/
def checkNodeIntegrity : (fuel : Nat) → (nodeId : Int) → (isRootChild : Bool) →
    TreeM K V (K × K × Bool)
  | 0, _, _ => throw .endless
  | fuel + 1, nodeId, isRootChild => do
      let node ← NodePage.openNode nodeId
      let root ← rootId
      let minAllowed :=
        if isRootChild then if node.isLeaf then L.maxKeysLeaf / 2 else L.maxKeysInternal / 2
        else if node.isLeaf then L.minKeysLeaf else L.minKeysInternal
      let sizeOk := (node.nodeId == root || !decide (node.size < minAllowed)) && !node.overflow L
      let keysOk := (List.range (node.size - 1)).all fun i => decide (node.keys i < node.keys (i + 1))
      let result := sizeOk && keysOk
      if node.isLeaf then
        if node.empty then pure (default, default, false)
        else pure (node.keys 0, node.keys (node.size - 1), result)
      else
        (List.range node.childrenSize).foldlM (checkChild (checkNodeIntegrity fuel) root node)
          (default, default, result)

def checkIntegrity : TreeM K V Bool := do
  let file ← get
  if file.rootId = -1 then pure true
  else
    let (_, _, childValid) ← checkNodeIntegrity L file.totalPages file.rootId false
    pure childValid

end BStarPlusTree

end QuasarDB.Storage
