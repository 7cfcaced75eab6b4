import QuasarDB.Storage.SchemaFile
import QuasarDB.Storage.Table

set_option autoImplicit false

/-! # Restarts

The constructor of `table.cpp` for a table that is there, and what a run of calls gives when the
process of the table is stopped between some of them and started again. Each write has reached its
file when the process is stopped, but its destructors do not run. -/

namespace QuasarDB.Storage

/-- What `save_schema` writes. -/
def Schema.file (schema : Schema) : List UInt8 :=
  (schema.toBinary.after (FileStream.openOn [])).bytes

/-- No index has the file of the map from ids to addresses: `PathFor` gives an indexed column `id_to_addr` the
    file `<table>_id_to_addr.idx`, which is that of `_id_to_addr`. -/
def Schema.FilesApart (schema : Schema) : Prop :=
  ∀ column ∈ schema.columns, column.isIndexed = true → column.name ≠ "id_to_addr"

instance (schema : Schema) : Decidable schema.FilesApart :=
  inferInstanceAs (Decidable (∀ column ∈ schema.columns, _))

namespace IndexSet

/-- The tree of a column, with the entries of its file. -/
def openTree (files : String → AList fun _ : Value => RecordAddress) (indexes : IndexSet)
    (column : Column) : IndexSet :=
  if column.isIndexed && (indexes.lookup column.name).isNone then
    AList.insert column.name { keyType := column.columnType, entries := files column.name } indexes
  else indexes

/-- `Open`, where there are trees already, each in a file of its own (`Schema.FilesApart`). -/
def openOn (schema : Schema) (files : String → AList fun _ : Value => RecordAddress) : IndexSet :=
  schema.columns.foldl (openTree files) ∅

/-- The entries of the trees, by the names of their columns. -/
def files (indexes : IndexSet) (columnName : String) : AList fun _ : Value => RecordAddress :=
  ((indexes.lookup columnName).map Index.entries).getD ∅

end IndexSet

namespace Table

/-- What the constructor of a table that is there has, with the schema that it read, on the files of
    this one, where each tree has a file of its own. -/
def onFilesOf (table : Table) (schema : Schema) : Table where
  schema
  schemaFile := table.schemaFile
  journal := .openOn table.journal.file.bytes
  pages := table.pages
  idToAddr := table.idToAddr
  indexes := IndexSet.openOn schema table.indexes.files
  strings := .load table.strings.file

/-- The constructor of the table of this name that is there, on the files of this one. Two trees in one file
    would both take the root that was written last, and go on in each other's pages: that is no map any more,
    and is not followed. -/
def reopen (name : String) (table : Table) : Except Failure Table :=
  match Schema.fromBinary.run (FileStream.openOn table.schemaFile.file) with
  | .error failure _ => .error failure
  | .ok none _ => .error (.exception ("Can not read schema for table with name " ++ name ++ "."))
  | .ok (some schema) _ =>
      if schema.FilesApart then .ok (table.onFilesOf schema)
      else .error (.undefined "two trees in one file")

/-! ## Runs -/

/-- A call that a statement makes. -/
inductive Call where
  | insert (now : Track.Time) (values : List Value) (columnNames : List String)
  | update (now : Track.Time) (record : Record)
  | delete (now : Track.Time) (record : Record)
  | revert (time : List UInt8)
  | intern (str : String)
  | records
  | findByIndex (columnName : String) (value : Value)

/-- What a call returns. -/
inductive Answer where
  | record (record : Record)
  | address (address : RecordAddress)
  | value (value : Value)
  | records (records : List Record)
  | found (records : Option (List Record))
  | done
  deriving DecidableEq

def Call.run : Call → Prog Table Answer
  | insert now values columnNames => return .record (← insertRecord now values columnNames)
  | update now record => return .address (← updateRecord now record)
  | delete now record => do
      deleteRecord now record
      return .done
  | revert time => do
      Table.revert time
      return .done
  | intern str => return .value (← onStrings (StringStore.intern str))
  | records => return .records (← Table.records)
  | findByIndex columnName value => return .found (← Table.findByIndex columnName value)

/-- What happens to the process of a table. -/
inductive Event where
  | call (call : Call)
  | restart

def Event.isCall : Event → Bool
  | call _ => true
  | restart => false

/-- What the calls of a run return or throw. A failure that is no exception ends the process, and
    there is no process if its table cannot be opened. -/
def play (name : String) : List Event → Table → List (Except Failure Answer)
  | [], _ => []
  | .call call :: events, table =>
      match call.run table with
      | .ok answer table => .ok answer :: play name events table
      | .error (.exception what) table => .error (.exception what) :: play name events table
      | .error failure _ => [.error failure]
  | .restart :: events, table =>
      match table.reopen name with
      | .ok table => play name events table
      | .error failure => [.error failure]

/-- The tables that the restarts of a run find. -/
def tablesAtRestarts (name : String) : List Event → Table → List Table
  | [], _ => []
  | .call call :: events, table =>
      match call.run table with
      | .ok _ table => tablesAtRestarts name events table
      | .error (.exception _) table => tablesAtRestarts name events table
      | .error _ _ => []
  | .restart :: events, table =>
      table ::
        match table.reopen name with
        | .ok table => tablesAtRestarts name events table
        | .error _ => []

end Table

end QuasarDB.Storage
