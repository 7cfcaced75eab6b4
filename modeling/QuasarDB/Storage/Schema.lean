import QuasarDB.Server.AstJson
import QuasarDB.Storage.Record

set_option autoImplicit false

/-! # Schemas

`column.cpp`, `schema.cpp` and `ToSchema` of `application.cpp`: the columns that a table can have, and how
a `CREATE TABLE` gives them. -/

namespace QuasarDB.Storage

/-! ## Columns -/

namespace Column

/-- `NOT_NULL_FLAG`. -/
def notNullFlag : UInt8 := 1

/-- `INDEXED_FLAG`. -/
def indexedFlag : UInt8 := 2

/-- `MAX_SERIALIZED_STRING_SIZE`. -/
def maxSerializedStringSize : Nat := 1024 * 1024

def isInt (column : Column) : Bool := column.columnType == .int

def isString (column : Column) : Bool := column.columnType == .string

/-- `IsNotNull`. -/
def isNotNull (column : Column) : Bool := column.flags &&& notNullFlag != 0

/-- `IsIndexed`. -/
def isIndexed (column : Column) : Bool := column.flags &&& indexedFlag != 0

/-- `HasDefault`. -/
def hasDefault (column : Column) : Bool := column.defaultType != .none

def error (column : Column) (what : String) : String :=
  "[ERROR in qdb::storage::Column]: Column '" ++ column.name ++ "' " ++ what

/-- `ValidateDefault`. -/
def validateDefault (column : Column) : Except String Unit :=
  match column.defaultType with
  | .none => .ok ()
  | .nullValue =>
      if column.isNotNull then .error (column.error "cannot have DEFAULT NULL and NOT_NULL!")
      else .ok ()
  | .int => if column.isInt then .ok () else .error (column.error "expects STRING default!")
  | .string => if column.isString then .ok () else .error (column.error "expects INT default!")

/-- The constructor: an indexed column is not null. -/
def make (column : Column) : Except String Column := do
  let column :=
    if column.isIndexed then { column with flags := column.flags ||| notNullFlag } else column
  column.validateDefault
  return column

/-- Whether `ToBinary` writes the column. -/
def isWritable (column : Column) : Bool :=
  column.defaultType != .string || column.defaultString.utf8ByteSize ≤ maxSerializedStringSize

end Column

/-! ## Schemas -/

namespace Schema

/-- The constructor. -/
def ofColumns (columns : List Column) : Except String Schema :=
  if (columns.map Column.name).Nodup then .ok { columns }
  else .error "[ERROR in qdb::storage::Schema]: Columns can`t have same names!"

/-- Whether `ToBinary` writes the schema. -/
def isWritable (schema : Schema) : Bool := schema.columns.all Column.isWritable

/-- `ColumnIndex`, `none` for `-1`. -/
def columnIndex (schema : Schema) (name : String) : Option Nat :=
  schema.columns.findIdx? fun column => column.name == name

end Schema

/-! ## Statements -/

/-- The column that `ToSchema` makes of a definition. -/
def toColumn (source : Server.ColumnDef) : Except String Column := do
  let column : Column := {
    name := source.name
    columnType := match source.columnType with
      | .int => .int
      | .string => .string
    flags := (if source.notNull then Column.notNullFlag else 0) |||
      (if source.indexed then Column.indexedFlag else 0) }
  match source.defaultValue with
  | none => column.make
  | some literal =>
      match literal.literalType with
      | .integer =>
          let defaultInt := Int32.ofInt (← Server.stoi literal.value)
          Column.make { column with defaultType := .int, defaultInt }
      | .string =>
          Column.make { column with defaultType := .string, defaultString := literal.value }
      | .null => Column.make { column with defaultType := .nullValue }

/-- `ToSchema`. -/
def toSchema (source : List Server.ColumnDef) : Except String Schema := do
  Schema.ofColumns (← source.mapM toColumn)

end QuasarDB.Storage
