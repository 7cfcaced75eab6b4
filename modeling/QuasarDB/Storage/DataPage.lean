import QuasarDB.Library.Memory
import QuasarDB.Storage.Page

set_option autoImplicit false

/-! # Data pages in memory

`page.h` and `page.cpp` on the bytes of a page: a header of three numbers, then one cell behind the
other, each with the bytes of its record, then the free space. A cell is found by its slot only, from the
sizes of all cells before it. The list of cells that `Page.lean` has for a page is what these bytes are
meant to say. -/

namespace QuasarDB.Storage

/-- What `data` and `size` say: as many bytes as a 32-bit size counts. -/
structure Payload where
  bytes : List UInt8
  length_lt : bytes.length < 2 ^ 32

/-- `size`. -/
def Payload.size (payload : Payload) : UInt32 := .ofNat payload.bytes.length

theorem Payload.size_toNat (payload : Payload) : payload.size.toNat = payload.bytes.length := by
  rw [size, UInt32.toNat_ofNat', Nat.mod_eq_of_lt payload.length_lt]

/-- `TablePage`, with its page in the file. -/
structure DataPage where
  /-- `_data`. -/
  data : Memory TablePage.pageSize
  saved : Memory TablePage.pageSize

namespace DataPage

/-- A function on the bytes in memory. -/
def onData {α : Type} (x : Prog (Memory TablePage.pageSize) α) : Prog DataPage α :=
  Prog.on data (fun data page => { page with data }) x

/-! ## The header -/

/-- A field of `PageHeader`. -/
def headerWord (offset : Nat) (page : DataPage) : UInt32 :=
  wordOfBytes ((page.data.bytes.drop offset).take 4)

/-- `id`. -/
def id (page : DataPage) : UInt32 := page.headerWord 0

/-- `record_count`. -/
def recordCount (page : DataPage) : UInt32 := page.headerWord 4

def nextFreeOffset (page : DataPage) : UInt32 := page.headerWord 8

/-- `get_full_free_space_size`. -/
def getFullFreeSpaceSize (page : DataPage) : UInt32 := 4096 - page.nextFreeOffset

/-- `save_to_disk`. -/
def saveToDisk : Prog DataPage Unit := modify fun page => { page with saved := page.data }

/-- `create`, with the number that the file has for the new page. What memory and file held before is in
    the state. -/
def create (pageId : UInt32) : Prog DataPage Unit := do
  onData do
    Memory.storeWord 0 0
    Memory.storeWord 4 0
    Memory.storeWord 8 (.ofNat TablePage.headerSize)
    Memory.storeWord 0 pageId
  saveToDisk
  -- `TablePage(page_id, pager, interner)` reads the page again.
  modify fun page => { page with data := page.saved }
  let page ← get
  Prog.throwIf (page.id != pageId) "Readed page id is not match with argument id."

/-! ## Cells -/

/-- The loop of `CellAt`, whose offset wraps around. -/
def cellOffset : Nat → UInt32 → Prog (Memory TablePage.pageSize) UInt32
  | 0, offset => return offset
  | idx + 1, offset => do
      let recordSize ← Memory.loadWord (offset.toNat + 4)
      cellOffset idx (offset + (.ofNat TablePage.cellSize + recordSize))

/-- `CellAt`, with the offset of the cell. -/
def cellAt (idx : UInt32) : Prog (Memory TablePage.pageSize) Nat := do
  let offset ← cellOffset idx.toNat (.ofNat TablePage.headerSize)
  return offset.toNat

/-- What `insert_record` writes to a page with room, and the number of records before. -/
def writeCell (offset : Nat) (recordId : UInt32) (data : Payload) (neededSize : UInt32) :
    Prog (Memory TablePage.pageSize) UInt32 := do
  Memory.storeWord offset recordId
  Memory.storeWord (offset + 4) data.size
  Memory.store (offset + 8) [0]
  Memory.store (offset + TablePage.cellSize) data.bytes
  let slotIdx ← Memory.loadWord 4
  Memory.storeWord 4 (slotIdx + 1)
  let nextFreeOffset ← Memory.loadWord 8
  Memory.storeWord 8 (nextFreeOffset + neededSize)
  return slotIdx

/-- `insert_record`. The size that is needed wraps around. -/
def insertRecord (recordId : Int32) (data : Payload) : Prog DataPage Int32 := do
  let page ← get
  let neededSize : UInt32 := .ofNat TablePage.cellSize + data.size
  if page.getFullFreeSpaceSize < neededSize then return -1
  else
    let slotIdx ← onData
      (writeCell page.nextFreeOffset.toNat recordId.toUInt32 data neededSize)
    saveToDisk
    return slotIdx.toInt32

/-- `read_record`. -/
def readRecord (slotIdx : UInt32) (schema : Schema) (interner : Interner) :
    Prog DataPage (Option Record) := do
  let page ← get
  if page.recordCount ≤ slotIdx then return none
  else onData do
    let offset ← cellAt slotIdx
    if (← Memory.load (offset + 8) 1) ≠ [0] then return none
    else
      let recordId ← Memory.loadWord offset
      let recordSize ← Memory.loadWord (offset + 4)
      let payload := page.data.bytes.drop (offset + TablePage.cellSize)
      return some (← Record.fromBinary payload recordSize recordId schema interner)

/-- `delete_record`. -/
def deleteRecord (slotIdx : UInt32) : Prog DataPage Unit := do
  let page ← get
  if page.recordCount ≤ slotIdx then
    throw (.exception ("Slot idx out of range: slot_idx=" ++ toString slotIdx ++ ", slot_count=" ++
      toString page.recordCount ++ "."))
  else
    let offset ← onData (cellAt slotIdx)
    if (← onData (Memory.load (offset + 8) 1)) = [0] then
      onData (Memory.store (offset + 8) [1])
      saveToDisk
    else return ()

/-! ## Runs -/

/-- A call of a function that changes a page. -/
inductive Call where
  | insert (recordId : Int32) (data : Payload)
  | delete (slotIdx : UInt32)

/-- The slot that a call returns, if it returns one. -/
def Call.run : Call → Prog DataPage (Option Int32)
  | .insert recordId data => do
      let slotIdx ← insertRecord recordId data
      return if slotIdx = -1 then none else some slotIdx
  | .delete slotIdx => do
      deleteRecord slotIdx
      return none

/-- The page after calls, and the slots they gave out. -/
def runCalls : List Call → DataPage → List Int32 × DataPage
  | [], page => ([], page)
  | call :: calls, page =>
      let (slots, last) := runCalls calls (call.run.after page)
      (((call.run.result page).join).toList ++ slots, last)

end DataPage

end QuasarDB.Storage
