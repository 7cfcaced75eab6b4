import QuasarDB.Library.StreamCodec
import QuasarDB.Storage.Schema

set_option autoImplicit false

/-! # Schemas in files

`ToBinary` and `FromBinary` of `column.cpp` and `schema.cpp`. Sizes are written as 32-bit numbers. -/

namespace QuasarDB.Storage

open FileStream

/-! ## Columns -/

/-- `ColumnType` as it is stored. -/
def ColumnType.byte : ColumnType → UInt8
  | .int => 0
  | .string => 1

/-- A byte that no column type has is refused. The source casts it without a check, and then has a `ColumnType`
    that is neither `INT` nor `STRING`; no schema that is written has such a byte. -/
def ColumnType.ofByte (byte : UInt8) : Option ColumnType :=
  if byte = 0 then some .int else if byte = 1 then some .string else none

/-- `DefaultType` as it is stored. -/
def DefaultType.byte : DefaultType → UInt8
  | .none => 0
  | .nullValue => 1
  | .int => 2
  | .string => 3

def DefaultType.ofByte (byte : UInt8) : Option DefaultType :=
  if byte = 0 then some .none
  else if byte = 1 then some .nullValue
  else if byte = 2 then some .int
  else if byte = 3 then some .string
  else none

namespace Column

/-- A string behind its size, of which only so many bytes are written as the size says. -/
def writeText (text : String) : Prog FileStream Unit := do
  let size : UInt32 := .ofNat text.utf8ByteSize
  write (wordBytes size)
  write ((textBytes text).take size.toNat)

/-- `ToBinary`. -/
def toBinary (column : Column) : Prog FileStream Bool := do
  writeText column.name
  write [column.columnType.byte]
  write [column.flags]
  write [column.defaultType.byte]
  if column.defaultType = .int then
    write (wordBytes column.defaultInt.toUInt32)
    return !(← get).failed
  else if column.defaultType = .string then
    if maxSerializedStringSize < column.defaultString.utf8ByteSize then return false
    else
      writeText column.defaultString
      return !(← get).failed
  else return !(← get).failed

/-- What `FromBinary` reads of a default value of this type, into the column read so far. -/
def readDefault (column : Column) : DefaultType → Reader Column
  | .none => return { column with defaultType := .none }
  | .nullValue => return { column with defaultType := .nullValue }
  | .int => do
      let defaultInt := (← readWord).toInt32
      return { column with defaultType := .int, defaultInt }
  | .string => do
      let defaultLen ← readWord
      refuseIf (maxSerializedStringSize < defaultLen.toNat)
      let defaultString ← readText defaultLen.toNat
      return { column with defaultType := .string, defaultString }

/-- `FromBinary`. -/
def fromBinary : Reader Column := do
  let nameLen ← readWord
  refuseIf (1024 * 1024 < nameLen.toNat)
  let name ← readText nameLen.toNat
  let type ← readByte
  let flags ← readByte
  let default ← readByte
  match ColumnType.ofByte type, DefaultType.ofByte default with
  | some columnType, some defaultType => do
      let column ← readDefault { name, columnType, flags } defaultType
      ofExcept column.make
  | _, _ => failure

end Column

/-! ## Schemas -/

namespace Schema

/-- `HEADER`. -/
def header : String := "SCHEMA"

/-- The loop of `ToBinary`. -/
def writeColumns : List Column → Prog FileStream Bool
  | [] => return !(← get).failed
  | column :: columns => do
      if ← column.toBinary then writeColumns columns else return false

/-- `ToBinary`. -/
def toBinary (schema : Schema) : Prog FileStream Bool := do
  write (textBytes header)
  write (wordBytes schema.recordIdCount)
  write (wordBytes (.ofNat schema.columns.length))
  writeColumns schema.columns

/-- The loop of `FromBinary`. -/
def readColumns : Nat → Reader (List Column)
  | 0 => return []
  | count + 1 => do
      let column ← Column.fromBinary
      let columns ← readColumns count
      return column :: columns

/-- `FromBinary`. -/
def fromBinary : Reader Schema := do
  let found ← readExactly header.utf8ByteSize
  refuseIf (found != textBytes header)
  let recordIdCount ← readWord
  let columnsLen ← readWord
  refuseIf (1024 * 1024 < columnsLen.toNat)
  let columns ← readColumns columnsLen.toNat
  let schema ← ofExcept (Schema.ofColumns columns)
  return { schema with recordIdCount }

end Schema

end QuasarDB.Storage
