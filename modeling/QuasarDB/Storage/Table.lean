import QuasarDB.Storage.IndexSet
import QuasarDB.Storage.Journal
import QuasarDB.Storage.Page
import QuasarDB.Storage.StringStore

set_option autoImplicit false

/-! # Tables

`table.cpp`: the rows of a table in its data pages, with the addresses of the rows by id, the indexes of
the columns, the journal and the strings. Page `n` is the `n`-th of the list, from 1 on; page 0 has no
records. The tree from ids to addresses is taken as a finite map, as those of the columns are. -/

namespace QuasarDB.Storage

structure Table where
  schema : Schema
  /-- The `.schema` file. -/
  schemaFile : Schema
  journal : Journal
  /-- The data pages behind page 0. Their ids are `uint32_t`: 2^32 pages would take 16 TiB. -/
  pages : List (List Cell)
  idToAddr : AList fun _ : UInt32 => RecordAddress
  indexes : IndexSet
  strings : StringStore

/-- What `DefaultValue` gives. -/
def Column.defaultValue (column : Column) : Prog StringStore Value :=
  match column.defaultType with
  | .nullValue => return .null
  | .int => return .int column.defaultInt
  | .string => StringStore.intern column.defaultString
  | .none => throw (.exception (column.error "does not have DEFAULT value!"))

/-- `GetTypeName`. -/
def Value.typeName : Value → String
  | .null => "NULL"
  | .int _ => "INT"
  | .string _ => "STRING"

/-- `ToString`. -/
def Value.print : Value → String
  | .null => "NULL"
  | .int value => toString value
  | .string id => "#" ++ toString id.value

namespace Table

variable {α : Type}

def onJournal (x : Prog Journal α) : Prog Table α :=
  x.on Table.journal fun journal table => { table with journal }

def onStrings (x : Prog StringStore α) : Prog Table α :=
  x.on Table.strings fun strings table => { table with strings }

def onIndexes (x : Prog IndexSet α) : Prog Table α :=
  x.on Table.indexes fun indexes table => { table with indexes }

/-- The constructor of a new table. -/
def new (schema : Schema) : Table where
  schema
  schemaFile := schema
  journal := .openOn []
  pages := []
  idToAddr := ∅
  indexes := .openNew schema
  strings := .new

/-- `save_schema`. -/
def saveSchema : Prog Table Unit := do
  Prog.throwIf (!(← get).schema.isWritable) "Cannot write schema to file."
  modify fun table => { table with schemaFile := table.schema }

/-! ## Pages -/

/-- `get_total_pages`. -/
def totalPages (table : Table) : Nat := table.pages.length + 1

/-- The constructor of `TablePage`. -/
def readPage (pageIndex : Nat) : Prog Table (List Cell) := do
  if pageIndex = 0 then throw (.exception "Readed page id is not match with argument id.")
  match (← get).pages[pageIndex - 1]? with
  | some cells => return cells
  | none => throw (.exception ("Failed to read complete page " ++ toString pageIndex))

/-- `save_to_disk`. -/
def writePage (pageIndex : Nat) (cells : List Cell) : Prog Table Unit :=
  modify fun table => { table with pages := table.pages.set (pageIndex - 1) cells }

/-- The loop of `find_enough_free_page` over the pages from `pageIndex` on. -/
def findFreePage (freeSpace : Nat) : Nat → List (List Cell) → Option Nat
  | _, [] => none
  | pageIndex, cells :: pages =>
      if TablePage.isRecordFit freeSpace cells then some pageIndex
      else findFreePage freeSpace (pageIndex + 1) pages

/-- `find_enough_free_page`, with the number of the page. -/
def findEnoughFreePage (freeSpace preferPageId : Nat) : Prog Table Nat := do
  Prog.throwIf (TablePage.maxRecordSize < freeSpace) "free_space > TablePage::MAX_RECORD_SIZE."
  let pages := (← get).pages
  let preferred := 0 < preferPageId && preferPageId < pages.length + 1 &&
    TablePage.isRecordFit freeSpace (pages.getD (preferPageId - 1) [])
  if preferred then return preferPageId
  else
    match findFreePage freeSpace 1 pages with
    | some pageIndex => return pageIndex
    | none =>
        modify fun table => { table with pages := table.pages ++ [[]] }
        return pages.length + 1

/-- `write_record_to_disk`, with the record that has its address. -/
def writeRecordToDisk (record : Record) (preferPageId : Nat) : Prog Table Record := do
  let data ← record.serialize
  let pageIndex ← findEnoughFreePage data.length preferPageId
  let cells ← readPage pageIndex
  match TablePage.insertRecord record.id data cells with
  | (some slotIdx, cells) =>
      writePage pageIndex cells
      return { record with address := some { pageIndex, slotIdx } }
  | (none, _) =>
      return { record with address := some { pageIndex, slotIdx := 2 ^ 32 - 1 } }

/-- `read_record`. -/
def readRecord (address : RecordAddress) : Prog Table (Option Record) := do
  let table ← get
  if address.pageIndex < table.totalPages then
    let cells ← readPage address.pageIndex
    let record ← TablePage.readRecord address.slotIdx table.schema table.strings.toInterner cells
    return record.map fun record => { record with address := some address }
  else return none

/-- `TablePage::delete_record`, on the page of an address. -/
def deleteCell (address : RecordAddress) : Prog Table Unit := do
  let cells ← readPage address.pageIndex
  writePage address.pageIndex (← Prog.ofExcept (TablePage.deleteRecord address.slotIdx cells))

/-- `read_by_id`. -/
def readById (recordId : UInt32) : Prog Table (Option Record) := do
  match (← get).idToAddr.lookup recordId with
  | none => return none
  | some address => readRecord address

/-- The loop of `records`. -/
def readIds : List UInt32 → Prog Table (List Record)
  | [] => return []
  | recordId :: ids => do
      match (← get).idToAddr.lookup recordId with
      | none => readIds ids
      | some address =>
          match ← readRecord address with
          | none => throw (.undefined "no record at the address of an id")
          | some record => return record :: (← readIds ids)

/-- `records`. -/
def records : Prog Table (List Record) := do
  let recordIdCount := (← get).schema.recordIdCount
  readIds ((List.range recordIdCount.toNat).map UInt32.ofNat)

/-- The loop of `find_by_index`. -/
def readMatching (columnIndex : Nat) (value : Value) : List RecordAddress → Prog Table (List Record)
  | [] => return []
  | address :: addresses => do
      let record ← readRecord address
      let others ← readMatching columnIndex value addresses
      return (record.filter fun record => record.fields[columnIndex]? = some value).toList ++ others

/-- `find_by_index`. -/
def findByIndex (columnName : String) (value : Value) : Prog Table (Option (List Record)) := do
  let table ← get
  match ← table.indexes.find table.schema columnName value with
  | none => return none
  | some addresses =>
      return some (← readMatching ((table.schema.columnIndex columnName).getD 0) value addresses)

/-! ## Rows -/

/-- `resolve_column_indices`. -/
def resolveColumnIndices (schema : Schema) (columnNames : List String) : Except String (List Nat) :=
  columnNames.mapM fun columnName =>
    match schema.columnIndex columnName with
    | some index => .ok index
    | none => .error ("Unknown column: " ++ columnName)

/-- `apply_defaults`, on the values of a new record. -/
def applyDefaults (provided : List Nat) : List (Column × Nat) → Prog StringStore (List Value)
  | [] => return []
  | (column, i) :: columns => do
      let value ← if column.hasDefault && i ∉ provided then column.defaultValue else pure .null
      return value :: (← applyDefaults provided columns)

/-- `update_columns`. -/
def updateColumns (fields values : List Value) (columnIndices : List Nat) : List Value :=
  (columnIndices.zip values).foldl (fun fields (i, value) => fields.set i value) fields

/-- `make_record`. -/
def makeRecord (recordId : UInt32) (values : List Value) (columnNames : List String) :
    Prog Table Record := do
  let schema := (← get).schema
  if columnNames = [] then
    Prog.throwIf (values.length != schema.size)
      ("Column count mismatch: expected " ++ toString schema.size ++ ", got " ++ toString values.length)
    return { id := recordId, fields := values }
  else
    Prog.throwIf (values.length != columnNames.length)
      ("Values size and columns size mismatch: " ++ toString values.length ++ " != " ++
        toString columnNames.length ++ ".")
    let columnIndices ← Prog.ofExcept (resolveColumnIndices schema columnNames)
    let record ← Record.ofCount recordId schema.size
    let fields ← onStrings (applyDefaults columnIndices schema.columns.zipIdx)
    return { record with fields := updateColumns fields values columnIndices }

/-- What `validate_record` tests first of a column. -/
def checkType (column : Column) (value : Value) : Except String Unit :=
  if column.isNotNull && value.isNull then
    .error ("Column '" ++ column.name ++ "' cannot be NULL (NOT_NULL constraint)")
  else if !value.isNull && column.isInt && !value.isInt then
    .error ("Column '" ++ column.name ++ "' expects INT, got " ++ value.typeName)
  else if !value.isNull && column.isString && !value.isString then
    .error ("Column '" ++ column.name ++ "' expects STRING, got " ++ value.typeName)
  else .ok ()

/-- The loop of `validate_record`. -/
def validateColumns (record : Record) : List ((Column × Value) × Nat) → Prog Table Unit
  | [] => return ()
  | ((column, value), i) :: columns => do
      Prog.ofExcept (checkType column value)
      if column.isIndexed then
        let schema := (← get).schema
        if ← IndexSet.hasDuplicate Table.indexes schema record i value readRecord then
          let text ← match value with
            | .string id => (← get).strings.toInterner.view id
            | value => pure value.print
          throw (.exception
            ("Duplicate value for indexed column '" ++ column.name ++ "': " ++ text))
      validateColumns record columns

/-- `validate_record`. -/
def validateRecord (record : Record) : Prog Table Unit := do
  let columns ← (← get).schema.columnsOf record
  validateColumns record columns.zipIdx

/-! ## Changes -/

/-- What `insert_record` and `revert` do with a record that comes to the table. -/
def placeRecord (record : Record) : Prog Table Record := do
  let record ← writeRecordToDisk record 0
  onIndexes (IndexSet.insert (← get).schema record)
  let address ← record.getAddress
  modify fun table => { table with idToAddr := table.idToAddr.insert record.id address }
  return record

/-- What `delete_record` and `revert` do with a record that leaves its address. -/
def removeRecord (address : RecordAddress) (record : Record) : Prog Table Unit := do
  deleteCell address
  onIndexes (IndexSet.remove (← get).schema record)
  modify fun table => { table with idToAddr := table.idToAddr.erase record.id }

/-- `_id_to_addr.update`. -/
def updateAddress (recordId : UInt32) (address : RecordAddress) : Prog Table Unit := do
  let idToAddr := (← get).idToAddr
  Prog.throwIf idToAddr.keys.isEmpty "Key not found in b*+-tree."
  if (idToAddr.lookup recordId).isSome then
    modify fun table => { table with idToAddr := table.idToAddr.insert recordId address }

/-- What `update_record` and `revert` do with a record that takes the place of another one. -/
def replaceRecord (oldAddress : RecordAddress) (oldRecord record : Record) :
    Prog Table RecordAddress := do
  deleteCell oldAddress
  let record ← writeRecordToDisk record oldAddress.pageIndex
  onIndexes (IndexSet.update (← get).schema oldRecord record)
  let address ← record.getAddress
  updateAddress record.id address
  return address

/-- What `insert_record` does with a record that is valid. -/
def storeNewRecord (now : Track.Time) (record : Record) : Prog Table Record := do
  let _ ← onJournal (Journal.saveInsertion now record)
  modify fun table =>
    { table with schema.recordIdCount := table.schema.recordIdCount + 1 }
  saveSchema
  placeRecord record

/-- `insert_record`. -/
def insertRecord (now : Track.Time) (values : List Value) (columnNames : List String) :
    Prog Table Record := do
  let record ← makeRecord (← get).schema.recordIdCount values columnNames
  validateRecord record
  storeNewRecord now record

/-- `insert_multiple`, with the time of each row. -/
def insertMultiple (now : Nat → Track.Time) (columnNames : List String) :
    List (List Value) → Prog Table (List Record)
  | [] => return []
  | values :: rows => do
      let record ← insertRecord (now 0) values columnNames
      return record :: (← insertMultiple (fun n => now (n + 1)) columnNames rows)

/-- What `update_record` does with a record that is valid. -/
def storeUpdatedRecord (now : Track.Time) (record : Record) : Prog Table RecordAddress := do
  let oldAddress ← record.getAddress
  match ← readRecord oldAddress with
  | none => throw (.undefined "no record at the address of a record")
  | some oldRecord =>
      let _ ← onJournal (Journal.saveUpdation now oldRecord)
      replaceRecord oldAddress oldRecord record

/-- `update_record`. -/
def updateRecord (now : Track.Time) (record : Record) : Prog Table RecordAddress := do
  validateRecord record
  storeUpdatedRecord now record

/-- `update_multiple`, with the time of each record and the errors of those that fail. -/
def updateMultiple (now : Nat → Track.Time) : List Record → Prog Table (List String)
  | [] => return []
  | record :: records => do
      let error ← Prog.catchException
        (do
          let _ ← updateRecord (now 0) record
          return none)
        fun what => pure (some what)
      return error.toList ++ (← updateMultiple (fun n => now (n + 1)) records)

/-- `delete_record`. -/
def deleteRecord (now : Track.Time) (record : Record) : Prog Table Unit := do
  let _ ← onJournal (Journal.saveDeletion now record)
  removeRecord (← record.getAddress) record

/-- `delete_multiple`. -/
def deleteMultiple (now : Nat → Track.Time) : List Record → Prog Table Unit
  | [] => return ()
  | record :: records => do
      deleteRecord (now 0) record
      deleteMultiple (fun n => now (n + 1)) records

/-! ## Reverting -/

/-- `assert(_id_to_addr.search(id).size() == 1)` with the address. -/
def addressOf (recordId : UInt32) : Prog Table RecordAddress := do
  match (← get).idToAddr.lookup recordId with
  | some address => return address
  | none => throw (.assertion "_id_to_addr.search(record.Id()).size() == 1")

/-- What `revert` does for a track. -/
def revertTrack (data : RevertResult) : Prog Table Unit := do
  let record := data.record
  match data.type with
  | .insert =>
      let _ ← placeRecord record
  | .update =>
      let currentAddress ← addressOf record.id
      match ← readRecord currentAddress with
      | none => throw (.undefined "no record at the address of an id")
      | some currentRecord =>
          let _ ← replaceRecord currentAddress currentRecord
            { record with address := some currentAddress }
  | .delete =>
      let address ← addressOf record.id
      let table ← get
      let cells ← readPage address.pageIndex
      match ← TablePage.readRecord address.slotIdx table.schema table.strings.toInterner cells with
      | none => throw (.undefined "no record at the address of an id")
      | some realRecord =>
          removeRecord address realRecord
          Prog.assert (record.id + 1 == (← get).schema.recordIdCount)
            "record.Id() + 1 == _schema.RecordIdCount()"
          modify fun table =>
            { table with schema.recordIdCount := table.schema.recordIdCount - 1 }
  | .other _ => return ()

/-- The loop of `revert`, with the rounds that the journal has tracks for. -/
def revertTracks (time : List UInt8) : Nat → Prog Table Unit
  | 0 => throw .endless
  | rounds + 1 => do
      let table ← get
      let data ← onJournal (Journal.revertLast time table.schema table.strings.toInterner)
      if data.time = [] then return ()
      else
        revertTrack data
        revertTracks time rounds

/-- `revert`. -/
def revert (time : List UInt8) : Prog Table Unit := do
  revertTracks time ((← get).journal.pos.toNat + 1)
  saveSchema

end Table

end QuasarDB.Storage
