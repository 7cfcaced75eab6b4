import QuasarDB.Storage.Executor

set_option autoImplicit false

/-! # Selecting

`executor.cpp`: the rows and the aggregates of a `SELECT`. An average is a quotient of doubles; how these
are divided is a parameter. -/

namespace QuasarDB.Storage

open Core Server

/-- `static_cast<double>(sum) / count`, as the mantissa and the exponent of the result. -/
abbrev Quotient : Type := Int → Int → Int × Int

/-- The sum of two `int64_t`. -/
def addInt64 {σ : Type} (a b : Int) : Prog σ Int :=
  if -2 ^ 63 ≤ a + b ∧ a + b < 2 ^ 63 then return a + b
  else throw (.undefined "signed overflow")

/-- `JsonValue`. -/
def jsonValue (value : Value) : Prog StringStore Json :=
  match value with
  | .null => return .null
  | .int value => return .integer value.toInt
  | .string id => return .string (← viewOf id)

/-- `KindOf() == Kind::Aggregate`. -/
def isAggregate (item : SelectItem) : Bool :=
  match item.expr with
  | .aggregate _ _ => true
  | _ => false

namespace Executor

variable (env : ExecutorEnv) (quotient : Quotient)

/-! ## Rows -/

/-- `ColumnName`. -/
def columnName (item : SelectItem) (name : String) : String :=
  if item.aliasName = "" then name else item.aliasName

/-- The loop over the columns of the schema, for one record. -/
def selectColumns (record : Record) : List (Column × Nat) → Json → Prog StringStore Json
  | [], row => return row
  | (column, i) :: columns, row =>
      match record.fields[i]? with
      | none => throw (.undefined "read past the fields of a record")
      | some value => do
          let value ← jsonValue value
          selectColumns record columns (row.set column.name value)

/-- The loop over the items of a `SELECT`, for one record. -/
def selectFields (schema : Schema) (record : Record) : List SelectItem → Json → Prog StringStore Json
  | [], row => return row
  | item :: items, row =>
      match item.expr with
      | .identifier name => do
          let value ← jsonValue (← expressionValue (.identifier name) schema record)
          selectFields schema record items (row.set (columnName item name) value)
      | _ =>
          throw (.exception
            "[ERROR in qdb::storage::SelectRows]: Only column expressions are supported in SELECT!")

/-- The loop over the records of a `SELECT`. -/
def selectRecords (selectAll : Bool) (selectItems : List SelectItem) :
    List Record → Prog Table (List Json)
  | [] => return []
  | record :: records => do
      let schema := (← get).schema
      let row ← Table.onStrings
        (if selectAll then selectColumns record schema.columns.zipIdx (.object [])
        else selectFields schema record selectItems (.object []))
      return row :: (← selectRecords selectAll selectItems records)

/-! ## Aggregates -/

/-- `AggregateName`. -/
def aggregateName : AggregateFunction → String
  | .sum => "SUM"
  | .count => "COUNT"
  | .avg => "AVG"

/-- `ResultName`. -/
def resultName (item : SelectItem) (function : AggregateFunction) (column : String) : String :=
  if item.aliasName = "" then aggregateName function ++ "(" ++ column ++ ")" else item.aliasName

/-- What a value adds to `sum` and `count`. -/
def addValue {σ : Type} (function : AggregateFunction) (column : String) (value : Value)
    (sum count : Int) : Prog σ (Int × Int) :=
  if function = .count then do
    let count ← addInt64 count (if value.isNull then 0 else 1)
    return (sum, count)
  else
    match value with
    | .null => return (sum, count)
    | .string _ =>
        throw (.exception ("[ERROR in qdb::storage::AggregateSelect]: Aggregate expects INT column '" ++
          column ++ "'!"))
    | .int value => do
        let sum ← addInt64 sum value.toInt
        let count ← addInt64 count 1
        return (sum, count)

/-- The loop over the records, for one aggregate, with `sum` and `count` as they are so far. -/
def addRecords {σ : Type} (function : AggregateFunction) (column : String) (columnIndex : Nat) :
    List Record → Int → Int → Prog σ (Int × Int)
  | [], sum, count => return (sum, count)
  | record :: records, sum, count =>
      match record.fields[columnIndex]? with
      | none => throw (.undefined "read past the fields of a record")
      | some value => do
          let (sum, count) ← addValue function column value sum count
          addRecords function column columnIndex records sum count

/-- The value of an aggregate. -/
def aggregateValue (function : AggregateFunction) (sum count : Int) : Json :=
  match function with
  | .count => .integer count
  | .sum => .integer sum
  | .avg => if count = 0 then .null else .float (quotient sum count).1 (quotient sum count).2

/-- The loop over the items of an aggregate `SELECT`. -/
def aggregateItems (records : List Record) : List SelectItem → Json → Prog Table Json
  | [], row => return row
  | item :: items, row =>
      match item.expr with
      | .aggregate function column => do
          match (← get).schema.columnIndex column with
          | none =>
              throw (.exception ("[ERROR in qdb::storage::AggregateSelect]: Unknown column '" ++ column ++
                "'!"))
          | some columnIndex =>
              let (sum, count) ← addRecords function column columnIndex records 0 0
              aggregateItems records items
                (row.set (resultName item function column) (aggregateValue quotient function sum count))
      | _ =>
          throw (.exception
            "[ERROR in qdb::storage::AggregateSelect]: Only aggregate SELECT is implemented!")

/-- `AggregateSelect`. -/
def aggregateSelect (selectItems : List SelectItem) (whereClause : Option Condition) :
    Prog Table Json := do
  let records ← matchingRecords env whereClause
  aggregateItems quotient records selectItems (.object [])

/-- `SelectRows`. -/
def selectRows (selectAll : Bool) (selectItems : List SelectItem) (whereClause : Option Condition) :
    Prog Table Json := do
  if selectItems.any isAggregate then
    return .array [← aggregateSelect env quotient selectItems whereClause]
  else
    let records ← matchingRecords env whereClause
    return .array (← selectRecords selectAll selectItems records)

/-- `SELECT`. -/
def executeSelect (selectAll : Bool) (selectItems : List SelectItem) (whereClause : Option Condition) :
    Prog Table Response := do
  let result ← selectRows env quotient selectAll selectItems whereClause
  return .success "Rows selected" (.object [("result", result)])

end Executor

end QuasarDB.Storage
