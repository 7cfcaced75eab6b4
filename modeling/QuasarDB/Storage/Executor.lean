import QuasarDB.Core.Message
import QuasarDB.Storage.Condition
import QuasarDB.Storage.Table

set_option autoImplicit false

/-! # The executor

`executor.cpp`: a statement on the table of a storage node. -/

namespace QuasarDB.Storage

open Core Server

/-- What a statement depends on, but for the table. -/
structure ExecutorEnv where
  regexMatch : RegexMatch
  /-- The time of the `n`-th track that the statement writes. -/
  now : Nat → Track.Time

namespace Executor

variable (env : ExecutorEnv)

/-- The lookup that `IndexedRecords` tries. -/
def lookup (column value : Expression) : Prog Table (Option (List Record)) :=
  match column, value with
  | .identifier name, .literal literal => do
      let value ← Table.onStrings (literalValue literal)
      Table.findByIndex name value
  | _, _ => return none

/-- `IndexedRecords`. -/
def indexedRecords : Condition → Prog Table (Option (List Record))
  | .and left right => do
      match ← indexedRecords left with
      | some records => return some records
      | none => indexedRecords right
  | .comparison left .equal right => do
      match ← lookup left right with
      | some records => return some records
      | none => lookup right left
  | _ => return none

/-- `RecordsFor`. -/
def recordsFor (condition : Condition) : Prog Table (List Record) := do
  match ← indexedRecords condition with
  | some records => return records
  | none => Table.records

/-- The loop of `MatchingRecords`. -/
def filterRecords (condition : Condition) : List Record → Prog Table (List Record)
  | [] => return []
  | record :: records => do
      let schema := (← get).schema
      let result ← Table.onStrings (evaluateCondition env.regexMatch schema record condition)
      let others ← filterRecords condition records
      return if result = .true then record :: others else others

/-- `MatchingRecords`. -/
def matchingRecords (whereClause : Option Condition) : Prog Table (List Record) := do
  match whereClause with
  | none => Table.records
  | some condition => filterRecords env condition (← recordsFor condition)

/-- The loop over the literals of a row. -/
def rowValues : List Literal → Prog StringStore (List Value)
  | [] => return []
  | literal :: literals => do
      let value ← literalValue literal
      return value :: (← rowValues literals)

/-- The loop over the rows. -/
def rowsValues : List (List Literal) → Prog StringStore (List (List Value))
  | [] => return []
  | literals :: rows => do
      let values ← rowValues literals
      return values :: (← rowsValues rows)

/-- The loop over the assignments of an `UPDATE`, for one record. -/
def assign (schema : Schema) : List (String × Expression) → Record → Prog StringStore Record
  | [], record => return record
  | (column, expression) :: assignments, record =>
      match schema.columnIndex column with
      | none => throw (.exception ("Unknown column: " ++ column))
      | some index => do
          let value ← expressionValue expression schema record
          assign schema assignments { record with fields := record.fields.set index value }

/-- The loop over the records of an `UPDATE`. -/
def assignAll (assignments : List (String × Expression)) : List Record → Prog Table (List Record)
  | [] => return []
  | record :: records => do
      let schema := (← get).schema
      let record ← Table.onStrings (assign schema assignments record)
      return record :: (← assignAll assignments records)

/-- The response to a statement that has changed some rows. -/
def rowsAffected (message : String) (count : Nat) : Response :=
  .success message (.object [("rows_affected", .integer count)])

/-- `INSERT`. -/
def executeInsert (columns : List String) (values : List (List Literal)) : Prog Table Response := do
  let rows ← Table.onStrings (rowsValues values)
  let _ ← Table.insertMultiple env.now columns rows
  return rowsAffected "Rows inserted" values.length

/-- `UPDATE`. -/
def executeUpdate (assignments : List (String × Expression)) (whereClause : Option Condition) :
    Prog Table Response := do
  let records ← matchingRecords env whereClause
  let changed ← assignAll assignments records
  match ← Table.updateMultiple env.now changed with
  | [] => return rowsAffected "Rows updated" changed.length
  | error :: _ => throw (.exception error)

/-- `DELETE`. -/
def executeDelete (whereClause : Option Condition) : Prog Table Response := do
  let deleted ← matchingRecords env whereClause
  Table.deleteMultiple env.now deleted
  return rowsAffected "Rows deleted" deleted.length

end Executor

end QuasarDB.Storage
