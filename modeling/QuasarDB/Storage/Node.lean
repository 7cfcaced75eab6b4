import QuasarDB.Library.Prog
import QuasarDB.Library.RawArray

set_option autoImplicit false

/-! # The pages of a B*+-tree and the operations of one node

`Node<K_t, V_t>` (`node.h`) is a page of 4096 bytes: a header and, in a union, either keys and
children (an internal node) or a next-leaf id, keys and values (a leaf). A node object holds a copy
of its page; `saveToDisk` writes the copy back. Arrays keep what lies behind their live elements,
so a page that is taken over from a deleted node brings its old contents along.

Page ids are integers without a bound: a file of `2^31` pages would take 8 TiB. -/

namespace QuasarDB.Storage

/-- `NodePage`. The two arms of the union share `keys`. -/
structure NodePage (K V : Type) where
  header : String
  nodeId : Int
  isLeaf : Bool
  keysSize : Nat
  deleted : Bool
  nextLeaf : Int
  keys : RawArray K
  children : RawArray Int
  values : RawArray V

/-- The file of a tree: the pages the `Pager` reads and writes, and the metadata of page 0. -/
structure TreeFile (K V : Type) where
  rootId : Int
  firstLeafId : Int
  page : Int → NodePage K V
  totalPages : Nat

/-- A tree or node operation. -/
abbrev TreeM (K V α : Type) : Type := Prog (TreeFile K V) α

def pageSize : Nat := 4096

/-- `sizeof(NodeHeaderStruct)`: 19 bytes of header string, two `int32_t`, two `bool`, padding. -/
def nodeHeaderSize : Nat := 36

/-- `PAGE_ID_SIZE = sizeof(node_size_t)`. -/
def pageIdSize : Nat := 4

/-- `BSTARPLUSTREE_NODE`, the header string of a node page. -/
def nodeHeader : String := "BSTARPLUSTREE_NODE"

/-- What an instantiation `BStarPlusTree<K_t, V_t>` fixes: the sizes of its types, and the two
    things C++ leaves open. Every instantiation of the repository has 4-byte keys and 8-byte
    values; the results hold for all types of which four entries fit in a leaf. -/
structure Instantiation (K V : Type) where
  keySize : Nat
  valueSize : Nat
  keySize_pos : 0 < keySize
  valueSize_pos : 0 < valueSize
  fourEntries : 4 * (keySize + valueSize) ≤ pageSize - nodeHeaderSize - pageIdSize
  /-- The contents of a node object before its first read. -/
  indeterminate : NodePage K V
  /-- A page written through one arm of the union, read through the other. -/
  overlay : NodePage K V → NodePage K V

namespace Instantiation

variable {K V : Type} (L : Instantiation K V)

def physKeysInternal : Nat := (pageSize - nodeHeaderSize - pageIdSize) / (L.keySize + pageIdSize)

def maxKeysInternal : Nat := L.physKeysInternal - 1

def childrenSize : Nat := L.physKeysInternal + 1

def maxChildren : Nat := L.childrenSize - 1

def minKeysInternal : Nat := (2 * L.physKeysInternal - 1) / 3

def physSizeLeaf : Nat := (pageSize - nodeHeaderSize - pageIdSize) / (L.keySize + L.valueSize)

def maxKeysLeaf : Nat := L.physSizeLeaf - 1

def minKeysLeaf : Nat := (2 * L.physSizeLeaf - 1) / 3

end Instantiation

/-- `RecordAddress`, what every tree of the repository maps its keys to. Both numbers are `uint32_t`: a file of
    2^32 pages would take 16 TiB. -/
structure RecordAddress where
  pageIndex : Nat
  slotIdx : Nat
deriving DecidableEq, Repr, Inhabited

/-- `BStarPlusTree<uint32_t, RecordAddress>`. -/
def uint32Tree : Instantiation (Fin (2 ^ 32)) RecordAddress where
  keySize := 4
  valueSize := 8
  keySize_pos := by decide
  valueSize_pos := by decide
  fourEntries := by decide
  indeterminate :=
    { header := "", nodeId := 0, isLeaf := false, keysSize := 0, deleted := false, nextLeaf := 0,
      keys := fun _ => 0, children := fun _ => 0, values := fun _ => default }
  overlay := id

/-! ## The pager -/

section Pager

variable {K V : Type}

/-- `Pager::read_page`. -/
def readPage (pageId : Int) : TreeM K V (NodePage K V) := do
  let file ← get
  if 0 ≤ pageId ∧ pageId < file.totalPages then pure (file.page pageId)
  else throw (.exception ("Failed to read complete page " ++ toString (pageId % 2 ^ 32)))

/-- The file after `Pager::write_page`. -/
def TreeFile.write (file : TreeFile K V) (pageId : Int) (page : NodePage K V) : TreeFile K V :=
  { file with page := Function.update file.page pageId page }

/-- `Pager::write_page`. -/
def writePage (pageId : Int) (page : NodePage K V) : TreeM K V Unit :=
  modify fun file => file.write pageId page

/-- `Pager::append_new_page`: one white page at the end of the file, which no node of the tree reads
    before its first `write_page`. -/
def appendNewPage : TreeM K V Int := do
  let file ← get
  set { file with totalPages := file.totalPages + 1 }
  pure file.totalPages

end Pager

namespace NodePage

variable {K V : Type} [LinearOrder K] (L : Instantiation K V)

def saveToDisk (node : NodePage K V) : TreeM K V Unit := writePage node.nodeId node

/-! ## Opening and creating a node -/

/-- `Node(page_id, pager)`: read a node that exists. -/
def openNode (pageId : Int) : TreeM K V (NodePage K V) := do
  let page ← readPage pageId
  Prog.throwIf (page.header != nodeHeader)
    ("Headers don't match. Read: " ++ page.header ++ ". Expected: " ++ nodeHeader ++ ".")
  Prog.throwIf (pageId != page.nodeId)
    ("Page_id don't match. Read: " ++ toString page.nodeId ++ ". Expected: " ++ toString pageId
      ++ ".")
  Prog.throwIf page.deleted ("Read deleted Node with id " ++ toString page.nodeId ++ ".")
  pure page

/-- The scan of `Node(type, pager)` over the pages from `i` on, `count` of them: the first deleted
    page, or else the page read last (`cur` if none was). -/
def findDeleted (page : Int → NodePage K V) : (count : Nat) → (i : Int) → NodePage K V →
    NodePage K V × Bool
  | 0, _, cur => (cur, false)
  | count + 1, i, _ =>
      if (page i).deleted then (page i, true) else findDeleted page count (i + 1) (page i)

/-- The page of a new node: only the header fields and `next_leaf` of a leaf are set; keys, children
    and values are those of `stale`, the page read last. -/
def initNode (leaf : Bool) (id : Int) (stale : NodePage K V) : NodePage K V :=
  let data := if stale.isLeaf = leaf then stale else L.overlay stale
  { header := nodeHeader, nodeId := id, isLeaf := leaf, keysSize := 0, deleted := false,
    nextLeaf := if leaf then -1 else data.nextLeaf,
    keys := data.keys, children := data.children, values := data.values }

/-- `Node(type, pager)`: a new node on the first deleted page, or on a page appended to the file. -/
def newNode (leaf : Bool) : TreeM K V (NodePage K V) := do
  let file ← get
  let (stale, deletedFound) := findDeleted file.page (file.totalPages - 1) 1 L.indeterminate
  let id ← if deletedFound then pure stale.nodeId else appendNewPage
  let node := initNode L leaf id stale
  writePage node.nodeId node
  pure node

/-! ## Header fields -/

variable (node right : NodePage K V)

def size : Nat := node.keysSize

def setSize (n : Nat) : NodePage K V := { node with keysSize := n }

def empty : Bool := node.size == 0

def childrenSize : Nat := node.size + 1

def setNext (nextId : Int) : TreeM K V (NodePage K V) := do
  Prog.throwIf (!node.isLeaf) "It is not leaf."
  let node := { node with nextLeaf := nextId }
  node.saveToDisk
  pure node

def setKey (key : K) (idx : Nat) : TreeM K V (NodePage K V) := do
  Prog.throwIf (node.size ≤ idx) "Idx is out of range."
  let node := { node with keys := node.keys.set idx key }
  node.saveToDisk
  pure node

def markDeleted : TreeM K V (NodePage K V) := do
  let node := { node with deleted := true }
  node.saveToDisk
  pure node

def getNextId : TreeM K V Int := do
  Prog.throwIf (!node.isLeaf) "It is not leaf."
  pure node.nextLeaf

def getKey (idx : Nat) : TreeM K V K := do
  Prog.assert (idx < node.size) "idx < size()"
  pure (node.keys idx)

def getChildId (idx : Nat) : TreeM K V Int := do
  Prog.throwIf node.isLeaf "It is not internal."
  Prog.assert (idx < node.childrenSize) "idx < children_size()"
  pure (node.children idx)

def getValue (idx : Nat) : TreeM K V V := do
  Prog.throwIf (!node.isLeaf) "It is not leaf."
  Prog.assert (idx < node.size) "idx < size()"
  pure (node.values idx)

def canLend (oneOfTwoRootChild : Bool) : Bool :=
  if oneOfTwoRootChild then
    if node.isLeaf then L.maxKeysLeaf / 2 < node.size else L.maxKeysInternal / 2 < node.size
  else if node.isLeaf then L.minKeysLeaf < node.size else L.minKeysInternal < node.size

def canTake : Bool :=
  if node.isLeaf then node.size < L.maxKeysLeaf else node.size < L.maxKeysInternal

def underflow : Bool :=
  if node.isLeaf then node.size < L.minKeysLeaf else node.size < L.minKeysInternal

def overflow : Bool :=
  if node.isLeaf then L.maxKeysLeaf < node.size else L.maxKeysInternal < node.size

/-! ## Searching in a node -/

/-- `std::lower_bound` over the live keys. -/
def lowerBound (key : K) : Nat :=
  RawArray.lowerBound (fun k => decide (k < key)) node.keys node.size

/-- `find_child_idx` of an internal node. -/
def childIdx (key : K) : Nat :=
  let idx := node.lowerBound key
  if idx < node.size ∧ node.keys idx = key then idx + 1 else idx

def findChildIdx (key : K) : TreeM K V Nat := do
  Prog.throwIf node.isLeaf "It is not internal."
  pure (node.childIdx key)

/-- `find_key_idx_by_exact_cmp`; `none` is the index -1. No key type of the repository has a
    `SearchCmp`, so `find_key_idx_by_approx_comp` is this function too. -/
def findKeyIdxByExactCmp (key : K) : Option Nat :=
  let index := node.lowerBound key
  if node.size ≤ index ∨ node.keys index ≠ key then none else some index

def findKeyIdxToInsert (key : K) : TreeM K V Nat := do
  let index := node.lowerBound key
  Prog.assert (if node.isLeaf then index < L.physSizeLeaf else index < L.physKeysInternal)
    "is_leaf() ? index < PHYS_SIZE_LEAF : index < PHYS_KEYS_INTERNAL"
  pure index

/-! ## Transfers between internal nodes -/

def moveRightInternal (count : Nat) : TreeM K V (NodePage K V) := do
  Prog.throwIf (L.maxChildren < node.childrenSize + count)
    "children_size() + count > MAX_CHILDREN"
  pure { node with
    keys := node.keys.moveBackward 0 node.size (node.size + count)
    children := node.children.moveBackward 0 node.childrenSize (node.childrenSize + count)
    keysSize := node.size + count }

/-- The check admits `count = children_size()`, one more than there are keys; moving the keys from
    there on is a move from an invalid range. -/
def moveLeftInternal (count : Nat) : TreeM K V (K × NodePage K V) := do
  Prog.throwIf (count == 0) "count == 0"
  Prog.throwIf (node.childrenSize < count) "count > children_size()"
  let midKey := node.keys (count - 1)
  let newSize ← Prog.sub node.size count
  pure (midKey, { node with
    keys := node.keys.move count node.size 0
    children := node.children.move count node.childrenSize 0
    keysSize := newSize })

/-- Returns the new separator, then this node and `right` as they are afterwards. -/
def sendToRightInternal (childrenCount : Nat) (midKey : K) :
    TreeM K V (K × NodePage K V × NodePage K V) := do
  Prog.throwIf (node.isLeaf || right.isLeaf) "It is not internal."
  let sendKeysCount ← Prog.sub childrenCount 1
  let right ← right.moveRightInternal L childrenCount
  let right := { right with keys := right.keys.set sendKeysCount midKey }
  let keysFrom ← Prog.sub node.size sendKeysCount
  let childrenFrom ← Prog.sub node.childrenSize childrenCount
  let right := { right with
    keys := RawArray.copy node.keys keysFrom node.size right.keys 0
    children := RawArray.copy node.children childrenFrom node.childrenSize right.children 0 }
  let node := node.setSize (node.size - sendKeysCount)
  right.saveToDisk
  node.saveToDisk
  pure (node.keys node.size, node, right)

def takeFromRightInternal (childrenCount : Nat) (midKey : K) :
    TreeM K V (K × NodePage K V × NodePage K V) := do
  Prog.throwIf (node.isLeaf || right.isLeaf) "It is not internal."
  Prog.throwIf (L.maxChildren < node.childrenSize + childrenCount)
    "children_size() + children_count > MAX_CHILDREN"
  let oldSize := node.size
  let takeKeysCount ← Prog.sub childrenCount 1
  let keys := node.keys.set oldSize midKey
  let node := { node with
    keys := RawArray.copy right.keys 0 takeKeysCount keys (oldSize + 1)
    children := RawArray.copy right.children 0 childrenCount node.children (oldSize + 1) }
  let (newMidKey, right) ← right.moveLeftInternal childrenCount
  let node := node.setSize (node.size + takeKeysCount)
  right.saveToDisk
  node.saveToDisk
  pure (newMidKey, node, right)

/-! ## Transfers between leaves -/

def moveRightLeaf (count : Nat) : TreeM K V (NodePage K V) := do
  Prog.throwIf (L.maxKeysLeaf < node.size + count) "size() + count > MAX_KEYS_LEAF"
  pure { node with
    keys := node.keys.moveBackward 0 node.size (node.size + count)
    values := node.values.moveBackward 0 node.size (node.size + count)
    keysSize := node.size + count }

def moveLeftLeaf (count : Nat) : TreeM K V (K × NodePage K V) := do
  Prog.throwIf (node.size < count) "count > size()"
  let newMidKey := node.keys count
  if count = 0 then pure (newMidKey, node)
  else pure (newMidKey, { node with
    keys := node.keys.move count node.size 0
    values := node.values.move count node.size 0
    keysSize := node.size - count })

def sendToRightLeaf (count : Nat) : TreeM K V (K × NodePage K V × NodePage K V) := do
  Prog.throwIf (!node.isLeaf || !right.isLeaf) "It is not leaf."
  let right ← right.moveRightLeaf L count
  let sentFrom ← Prog.sub node.size count
  let right := { right with
    keys := RawArray.copy node.keys sentFrom node.size right.keys 0
    values := RawArray.copy node.values sentFrom node.size right.values 0 }
  let node := node.setSize sentFrom
  right.saveToDisk
  node.saveToDisk
  pure (right.keys 0, node, right)

def takeFromRightLeaf (count : Nat) : TreeM K V (K × NodePage K V × NodePage K V) := do
  Prog.throwIf (!node.isLeaf || !right.isLeaf) "It is not leaf."
  Prog.throwIf (L.maxKeysLeaf < node.size + count) "size() + count > MAX_KEYS_LEAF"
  let node := { node with
    keys := RawArray.copy right.keys 0 count node.keys node.size
    values := RawArray.copy right.values 0 count node.values node.size
    keysSize := node.size + count }
  let (newMidKey, right) ← right.moveLeftLeaf count
  right.saveToDisk
  node.saveToDisk
  pure (newMidKey, node, right)

/-! ## Inserting and removing -/

def pushBackToInternal (childId : Int) : TreeM K V (NodePage K V) := do
  Prog.throwIf (node.size != 0)
    "For not empty internal nodes use insert_in_internal(key, right_child_id)"
  let node := { node with children := node.children.set 0 childId }
  node.saveToDisk
  pure node

def insertInInternal (key : K) (rightChildId : Int) : TreeM K V (NodePage K V) := do
  Prog.throwIf node.isLeaf "It is not internal."
  let index ← node.findKeyIdxToInsert L key
  let node := { node with
    keys := (node.keys.moveBackward index node.size (node.size + 1)).set index key
    children := (node.children.moveBackward (index + 1) node.childrenSize
      (node.childrenSize + 1)).set (index + 1) rightChildId
    keysSize := node.size + 1 }
  node.saveToDisk
  pure node

def insertInLeaf (key : K) (value : V) : TreeM K V (NodePage K V) := do
  Prog.throwIf (!node.isLeaf) "It is not leaf."
  let index ← node.findKeyIdxToInsert L key
  let node := { node with
    keys := (node.keys.moveBackward index node.size (node.size + 1)).set index key
    values := (node.values.moveBackward index node.size (node.size + 1)).set index value
    keysSize := node.size + 1 }
  node.saveToDisk
  pure node

def removeFromInternal (keyIdx : Nat) : TreeM K V (NodePage K V) := do
  Prog.throwIf node.isLeaf "It is not internal."
  Prog.throwIf (node.size ≤ keyIdx) ("Key index out of range: index=" ++ toString keyIdx
    ++ ", size=" ++ toString node.size ++ ".")
  let node := { node with
    keys := node.keys.move (keyIdx + 1) node.size keyIdx
    children := node.children.move (keyIdx + 2) node.childrenSize (keyIdx + 1)
    keysSize := node.size - 1 }
  node.saveToDisk
  pure node

def removeFromLeafByIdx (idx : Nat) : TreeM K V (NodePage K V) := do
  Prog.throwIf (!node.isLeaf) "It is not leaf."
  Prog.throwIf (node.size ≤ idx) ("Index out of range: index=" ++ toString idx
    ++ ", size=" ++ toString node.size ++ ".")
  let node := { node with
    keys := node.keys.move (idx + 1) node.size idx
    values := node.values.move (idx + 1) node.size idx
    keysSize := node.size - 1 }
  node.saveToDisk
  pure node

def removeFromLeaf (key : K) : TreeM K V (Bool × NodePage K V) := do
  Prog.throwIf (!node.isLeaf) "It is not leaf."
  match node.findKeyIdxByExactCmp key with
  | none => pure (false, node)
  | some index => do
      let node ← node.removeFromLeafByIdx index
      pure (true, node)

def updateValueByIdx (idx : Nat) (value : V) : TreeM K V (NodePage K V) := do
  Prog.throwIf (!node.isLeaf) "It is not leaf."
  Prog.throwIf (node.size ≤ idx) ("Index out of range: index=" ++ toString idx
    ++ ", size=" ++ toString node.size ++ ".")
  let node := { node with values := node.values.set idx value }
  node.saveToDisk
  pure node

def updateValue (key : K) (value : V) : TreeM K V (Bool × NodePage K V) := do
  Prog.throwIf (!node.isLeaf) "It is not leaf."
  match node.findKeyIdxByExactCmp key with
  | none => pure (false, node)
  | some index => do
      let node ← node.updateValueByIdx index value
      pure (true, node)

end NodePage

end QuasarDB.Storage
