import QuasarDB.Storage.Schema

set_option autoImplicit false

/-! # Indexes

`index_set.cpp`: each indexed column has a tree from its values to addresses. A tree is taken as a finite
map: it is one as long as no insert splits its root and no remove has to merge leaves that do not fit. -/

namespace QuasarDB.Storage

def Value.isNull (value : Value) : Bool := value == .null

def Value.isInt : Value → Bool
  | .int _ => true
  | _ => false

def Value.isString : Value → Bool
  | .string _ => true
  | _ => false

/-- `Address`. -/
def Record.getAddress {σ : Type} (record : Record) : Prog σ RecordAddress :=
  match record.address with
  | some address => return address
  | none => throw (.exception "[ERROR in qdb::storage::Record]: Record has not address!")

/-- The columns with their values in a record, where `record[i]` must not reach past its end. -/
def Schema.columnsOf {σ : Type} (schema : Schema) (record : Record) : Prog σ (List (Column × Value)) :=
  if record.fields.length < schema.size then throw (.undefined "read past the fields of a record")
  else return schema.columns.zip record.fields

/-- A tree from the values of a column. -/
structure Index where
  keyType : ColumnType
  entries : AList fun _ : Value => RecordAddress

namespace Index

/-- `AsInt` or `AsString`, as the tree needs. -/
def key (index : Index) (value : Value) : Except String Value :=
  match index.keyType with
  | .int =>
      if value.isInt then .ok value
      else .error "[FATAL in qdb::storage::Value]: Value is not an int!"
  | .string =>
      if value.isString then .ok value
      else .error "[FATAL in qdb::storage::Value]: Value is not a string!"

def insert (value : Value) (address : RecordAddress) (index : Index) : Except String Index := do
  let key ← index.key value
  return { index with entries := index.entries.insert key address }

def remove (value : Value) (index : Index) : Except String Index := do
  let key ← index.key value
  return { index with entries := index.entries.erase key }

/-- `search`. -/
def search (value : Value) (index : Index) : Except String (List RecordAddress) := do
  let key ← index.key value
  return (index.entries.lookup key).toList

end Index

/-- `indexes_`. -/
abbrev IndexSet : Type := AList fun _ : String => Index

namespace IndexSet

variable {σ β : Type}

/-- `Open`, where there are no trees yet. -/
def openNew (schema : Schema) : IndexSet :=
  schema.columns.foldl (fun indexes column =>
    if column.isIndexed && (indexes.lookup column.name).isNone then
      indexes.insert column.name { keyType := column.columnType, entries := ∅ }
    else indexes) ∅

/-- The index of a column. -/
def indexOf (indexes : IndexSet) (columnName : String) : Prog σ Index :=
  match indexes.lookup columnName with
  | some index => return index
  | none => throw (.exception ("Index not found for column " ++ columnName ++ "."))

/-- A change of the index of a column. -/
def change (columnName : String) (f : Index → Except String Index) : Prog IndexSet Unit := do
  let index ← Prog.ofExcept (f (← (← get).indexOf columnName))
  modify (AList.insert columnName index)

/-- `Find`. -/
def find (schema : Schema) (columnName : String) (value : Value) (indexes : IndexSet) :
    Prog σ (Option (List RecordAddress)) :=
  match schema.columns.find? fun column => column.name == columnName with
  | none => throw (.exception ("Unknown column: " ++ columnName))
  | some column =>
      if !column.isIndexed || value.isNull then return none
      else if (column.isInt && !value.isInt) || (column.isString && !value.isString) then return none
      else do
        let index ← indexes.indexOf columnName
        return some (← Prog.ofExcept (index.search value))

/-- `ForEach`, where the state has the indexes. -/
def forEach (indexes : σ → IndexSet) (visitor : Nat → Column → Value → Index → β → Prog σ β) :
    List ((Column × Value) × Nat) → β → Prog σ β
  | [], b => return b
  | ((column, value), i) :: columns, b => do
      if !column.isIndexed || value.isNull then forEach indexes visitor columns b
      else
        let index ← (indexes (← get)).indexOf column.name
        let b ← visitor i column value index b
        forEach indexes visitor columns b

/-- The addresses that `HasDuplicate` looks at. -/
def anyDuplicate (record : Record) (columnIndex : Nat) (value : Value)
    (reader : RecordAddress → Prog σ (Option Record)) : List RecordAddress → Prog σ Bool
  | [] => return false
  | address :: addresses => do
      if record.address = some address then anyDuplicate record columnIndex value reader addresses
      else
        match ← reader address with
        | none => anyDuplicate record columnIndex value reader addresses
        | some existing =>
            if existing.fields[columnIndex]? = some value then return true
            else anyDuplicate record columnIndex value reader addresses

/-- `HasDuplicate`. -/
def hasDuplicate (indexes : σ → IndexSet) (schema : Schema) (record : Record) (columnIndex : Nat)
    (value : Value) (reader : RecordAddress → Prog σ (Option Record)) : Prog σ Bool := do
  let columns ← schema.columnsOf record
  forEach indexes (fun i _ indexedValue index found => do
    if i ≠ columnIndex then return found
    else
      let addresses ← Prog.ofExcept (index.search indexedValue)
      anyDuplicate record columnIndex value reader addresses) columns.zipIdx false

/-- `Insert`. -/
def insert (schema : Schema) (record : Record) : Prog IndexSet Unit := do
  let columns ← schema.columnsOf record
  forEach id (fun _ column value _ _ => do
    let address ← record.getAddress
    change column.name (Index.insert value address)) columns.zipIdx ()

/-- `Remove`. -/
def remove (schema : Schema) (record : Record) : Prog IndexSet Unit := do
  let columns ← schema.columnsOf record
  forEach id (fun _ column value _ _ => change column.name (Index.remove value)) columns.zipIdx ()

/-- The loop of `Update`. -/
def updateColumns (oldAddress newAddress : RecordAddress) :
    List (Column × Value × Value) → Prog IndexSet Unit
  | [] => return ()
  | (column, oldValue, newValue) :: columns => do
      if !column.isIndexed then updateColumns oldAddress newAddress columns
      else
        let _ ← (← get).indexOf column.name
        if oldValue = newValue ∧ oldAddress = newAddress then
          updateColumns oldAddress newAddress columns
        else
          if !oldValue.isNull then change column.name (Index.remove oldValue)
          if !newValue.isNull then change column.name (Index.insert newValue newAddress)
          updateColumns oldAddress newAddress columns

/-- `Update`. -/
def update (schema : Schema) (oldRecord newRecord : Record) : Prog IndexSet Unit := do
  let _ ← schema.columnsOf oldRecord
  let _ ← schema.columnsOf newRecord
  updateColumns (← oldRecord.getAddress) (← newRecord.getAddress)
    (schema.columns.zip (oldRecord.fields.zip newRecord.fields))

end IndexSet

end QuasarDB.Storage
