import QuasarDB.Storage.Record

set_option autoImplicit false

/-! # Data pages

`page.cpp`: the records of a page stand behind its header, each behind its cell, in the order they were
inserted. The page is seen as the list of its cells, from where its record count and the offset of the
free space follow. -/

namespace QuasarDB.Storage

/-- `Cell`, with the bytes that follow it. -/
structure Cell where
  recordId : UInt32
  recordSize : UInt32
  deleted : Bool := false
  payload : List UInt8
  deriving DecidableEq

namespace TablePage

/-- `PAGE_SIZE`. -/
def pageSize : Nat := 4096

/-- `sizeof(PageHeader)`. -/
def headerSize : Nat := 12

/-- `sizeof(Cell)`. -/
def cellSize : Nat := 12

/-- `MAX_RECORD_SIZE`. -/
def maxRecordSize : Nat := pageSize - headerSize - cellSize

/-- `next_free_offset`. -/
def nextFreeOffset (cells : List Cell) : Nat :=
  headerSize + (cells.map fun cell => cellSize + cell.recordSize.toNat).sum

/-- `is_record_fit`. -/
def isRecordFit (recordSize : Nat) (cells : List Cell) : Bool :=
  recordSize + cellSize ≤ pageSize - nextFreeOffset cells

/-- `insert_record`, with the slot, which is `none` for `-1`. -/
def insertRecord (recordId : UInt32) (data : List UInt8) (cells : List Cell) :
    Option Nat × List Cell :=
  if pageSize - nextFreeOffset cells < cellSize + data.length then (none, cells)
  else
    (some cells.length, cells ++ [{ recordId, recordSize := .ofNat data.length, payload := data }])

variable {σ : Type}

/-- `read_record`. -/
def readRecord (slotIdx : Nat) (schema : Schema) (interner : Interner) (cells : List Cell) :
    Prog σ (Option Record) :=
  match cells[slotIdx]? with
  | none => return none
  | some cell =>
      if cell.deleted then return none
      else do
        return some (← Record.fromBinary cell.payload cell.recordSize cell.recordId schema interner)

/-- `delete_record`. -/
def deleteRecord (slotIdx : Nat) (cells : List Cell) : Except String (List Cell) :=
  match cells[slotIdx]? with
  | none =>
      .error ("Slot idx out of range: slot_idx=" ++ toString slotIdx ++ ", slot_count=" ++
        toString cells.length ++ ".")
  | some cell => .ok (cells.set slotIdx { cell with deleted := true })

end TablePage

end QuasarDB.Storage
