import QuasarDB.Library.Services
import QuasarDB.Storage.DataPage
import QuasarDB.Storage.Table

set_option autoImplicit false

/-! # The data file of a table

`pager.cpp`, and the functions of `table.cpp` that reach the pages of a table through it, on the bytes of the
`.data` file. `Table.lean` has the same pages as lists of cells. -/

namespace QuasarDB.Storage

/-! ## The pager -/

namespace Pager

open FileStream

/-- `db_file.clear()`. -/
def clear : Prog FileStream Unit := modify fun s => { s with failed := false }

/-- `get_total_pages`. -/
def getTotalPages : Prog FileStream UInt32 := do
  clear
  let currentPos ← tell
  seekEnd
  let fileSize ← tell
  seek currentPos
  Prog.assert (fileSize % TablePage.pageSize == 0) "file_size % page_size == 0"
  return .ofNat (fileSize / TablePage.pageSize).toNat

/-- `page_exists`. -/
def pageExists (pageId : UInt32) : Prog FileStream Bool := return pageId < (← getTotalPages)

/-- `page_id * page_size`. -/
def offset (pageId : UInt32) : Nat := pageId.toNat * TablePage.pageSize

/-- `write_page`. -/
def writePage (pageId : UInt32) (data : Memory TablePage.pageSize) : Prog FileStream Unit := do
  clear
  seek (offset pageId)
  write data.bytes

/-- `read_page`. -/
def readPage (pageId : UInt32) : Prog FileStream (Memory TablePage.pageSize) := do
  clear
  seek (offset pageId)
  let data ← read TablePage.pageSize
  if h : data.length = TablePage.pageSize then return ⟨data, h⟩
  else throw (.exception ("Failed to read complete page " ++ toString pageId))

theorem length_white : (List.replicate TablePage.pageSize (0 : UInt8)).length = TablePage.pageSize :=
  List.length_replicate

/-- `white_page`. -/
def whitePage : Memory TablePage.pageSize where
  bytes := List.replicate TablePage.pageSize 0
  length_bytes := length_white

/-- `append_new_page`. -/
def appendNewPage : Prog FileStream UInt32 := do
  clear
  seekEnd
  let fileSize ← tell
  seekEnd
  write whitePage.bytes
  return .ofNat (fileSize / TablePage.pageSize).toNat

end Pager

/-! ## Pages in the file -/

/-- `is_record_fit`. -/
def DataPage.isRecordFit (recordSize : UInt32) (page : DataPage) : Bool :=
  recordSize.toNat + TablePage.cellSize ≤ page.getFullFreeSpaceSize.toNat

/-- What is handed over with its size, which is made a `uint32_t`. -/
def Payload.ofBytes (bytes : List UInt8) : Payload where
  bytes := bytes.take (UInt32.ofNat bytes.length).toNat
  length_lt := Nat.lt_of_le_of_lt (List.length_take_le _ _) (UInt32.toNat_lt _)

namespace DataFile

variable {α : Type}

/-- `TablePage(page_id, &_pager, _interner)`. -/
def openPage (pageId : UInt32) : Prog FileStream DataPage := do
  let data ← Pager.readPage pageId
  let page : DataPage := { data, saved := data }
  Prog.throwIf (page.id != pageId) "Readed page id is not match with argument id."
  return page

/-- A member function of an open page. What it saves is written to the file; where it saves nothing, that is
    what the file has already. -/
def onPage (pageId : UInt32) (page : DataPage) (x : Prog DataPage α) : Prog FileStream α := do
  Pager.writePage pageId (x.after page).saved
  match x page with
  | .ok a _ => return a
  | .error failure _ => throw failure

/-- `TablePage::create`, with what the memory of the page holds before. -/
def createPage (memory : Memory TablePage.pageSize) : Prog FileStream UInt32 := do
  let pageId ← Pager.appendNewPage
  onPage pageId { data := memory, saved := Pager.whitePage } (DataPage.create pageId)
  return pageId

/-- The loop of `find_enough_free_page` over so many pages. -/
def findFreePage (freeSpace : UInt32) : Nat → UInt32 → Prog FileStream (Option UInt32)
  | 0, _ => return none
  | count + 1, i => do
      if (← openPage i).isRecordFit freeSpace then return some i
      else findFreePage freeSpace count (i + 1)

/-- Whether `find_enough_free_page` takes the page that is preferred. -/
def isPreferred (freeSpace preferPageId totalPages : UInt32) : Prog FileStream Bool := do
  if 0 < preferPageId && preferPageId < totalPages then
    return (← openPage preferPageId).isRecordFit freeSpace
  else return false

/-- `find_enough_free_page`, with the number of the page. -/
def findEnoughFreePage (memory : Memory TablePage.pageSize) (freeSpace preferPageId : UInt32) :
    Prog FileStream UInt32 := do
  Prog.throwIf (TablePage.maxRecordSize < freeSpace.toNat) "free_space > TablePage::MAX_RECORD_SIZE."
  let totalPages ← Pager.getTotalPages
  if ← isPreferred freeSpace preferPageId totalPages then return preferPageId
  else
    match ← findFreePage freeSpace (totalPages.toNat - 1) 1 with
    | some pageId => return pageId
    | none => createPage memory

/-- `write_record_to_disk`, with the record that has its address. -/
def writeRecordToDisk (memory : Memory TablePage.pageSize) (record : Record) (preferPageId : UInt32) :
    Prog FileStream Record := do
  let serializedRecord ← record.serialize
  let data := Payload.ofBytes serializedRecord
  let pageId ← findEnoughFreePage memory data.size preferPageId
  let page ← openPage pageId
  let slotIdx ← onPage pageId page (DataPage.insertRecord record.id.toInt32 data)
  return { record with
    address := some { pageIndex := pageId.toNat, slotIdx := slotIdx.toUInt32.toNat } }

/-- `read_record`. -/
def readRecord (schema : Schema) (interner : Interner) (pageIndex slotIdx : UInt32) :
    Prog FileStream (Option Record) := do
  if ← Pager.pageExists pageIndex then
    let page ← openPage pageIndex
    let record ← onPage pageIndex page (DataPage.readRecord slotIdx schema interner)
    return record.map fun record => { record with
      address := some { pageIndex := pageIndex.toNat, slotIdx := slotIdx.toNat } }
  else return none

/-- `TablePage::delete_record`, on the page of an address. -/
def deleteRecord (pageIndex slotIdx : UInt32) : Prog FileStream Unit := do
  let page ← openPage pageIndex
  onPage pageIndex page (DataPage.deleteRecord slotIdx)

/-! ## Opening a table -/

/-- `HEADER`. -/
def header : List UInt8 := "TABLE".toList.map fun c => .ofNat c.toNat

/-- `MetadataPage` of a new table. The constructor of the union sets the header only, and what the memory held
    before stays behind it. -/
def metadataPage (memory : Memory TablePage.pageSize) : Memory TablePage.pageSize where
  bytes := header ++ 0 :: memory.bytes.drop (header.length + 1)
  length_bytes := by
    rw [List.length_append, List.length_cons, List.length_drop, memory.length_bytes]
    decide

/-- The constructor of a new table, as far as the file goes. -/
def create (memory : Memory TablePage.pageSize) (name : String) : Prog FileStream Unit := do
  Prog.throwIf ((← get).bytes != []) ("Table with name " ++ name ++ " already exists.")
  let pageId ← Pager.appendNewPage
  Prog.assert (pageId == 0) "page_id == METADATA_PAGE_ID"
  Pager.writePage 0 (metadataPage memory)

/-- The constructor of a table that is there, as far as the file goes. A header without an end is read past the
    end of the page. -/
def reopen : Prog FileStream Unit := do
  FileStream.reopen
  let metadata ← Pager.readPage 0
  let text := metadata.bytes.takeWhile (· != 0)
  if text.length = TablePage.pageSize then throw (.undefined "read past the end of a page")
  Prog.throwIf (text != header) ("Headers don't match. Read: " ++
    .ofList (text.map fun byte => .ofNat byte.toNat) ++ ". Expected: TABLE.")

end DataFile

/-! ## Calls -/

/-- What the functions of a table ask its pages for. -/
inductive PageCall where
  | write (memory : Memory TablePage.pageSize) (record : Record) (preferPageId : UInt32)
  | read (pageIndex slotIdx : UInt32)
  | delete (pageIndex slotIdx : UInt32)
  | reopen
  /-- In between, the rest of the table may change. -/
  | change (schema : Schema) (strings : StringStore)

/-- The data file of a table, and what reading a record needs from the rest of the table. -/
structure DataFile where
  stream : FileStream
  schema : Schema
  interner : Interner

namespace PageCall

/-- A call on the bytes. -/
def onFile (file : DataFile) : PageCall → Prog FileStream (Option Record)
  | write memory record preferPageId => some <$> DataFile.writeRecordToDisk memory record preferPageId
  | read pageIndex slotIdx => DataFile.readRecord file.schema file.interner pageIndex slotIdx
  | delete pageIndex slotIdx => (fun _ => none) <$> DataFile.deleteRecord pageIndex slotIdx
  | reopen => (fun _ => none) <$> DataFile.reopen
  | change _ _ => return none

/-- A call on the cells. -/
def onTable : PageCall → Prog Table (Option Record)
  | write _ record preferPageId => some <$> Table.writeRecordToDisk record preferPageId.toNat
  | read pageIndex slotIdx =>
      Table.readRecord { pageIndex := pageIndex.toNat, slotIdx := slotIdx.toNat }
  | delete pageIndex slotIdx =>
      (fun _ => none) <$> Table.deleteCell { pageIndex := pageIndex.toNat, slotIdx := slotIdx.toNat }
  | reopen => return none
  | change schema strings => do
      modify fun table => { table with schema, strings }
      return none

/-- The schema and the strings after a call. -/
def rest (file : DataFile) : PageCall → Schema × Interner
  | change schema strings => (schema, strings.toInterner)
  | _ => (file.schema, file.interner)

/-- A call is answered, also when it fails. -/
def serveFile : Service PageCall (Except Failure (Option Record)) DataFile := fun call file =>
  some ((call.onFile file).outcome file.stream,
    { stream := (call.onFile file).after file.stream
      schema := (call.rest file).1
      interner := (call.rest file).2 })

def serveTable : Service PageCall (Except Failure (Option Record)) Table := fun call table =>
  some (call.onTable.outcome table, call.onTable.after table)

end PageCall

end QuasarDB.Storage
