import QuasarDB.Library.Services
import QuasarDB.Storage.SchemaFile
import QuasarDB.Storage.Select

set_option autoImplicit false

/-! # Executing statements

`Execute` of `executor.cpp` for every kind of statement, and what `ExecuteAst` of `application.cpp` makes of
it: an exception is answered with an error, and any other failure ends the process of the node. -/

namespace QuasarDB.Storage

open Core Server

namespace Executor

variable (env : ExecutorEnv) (quotient : Quotient)

/-- `REVERT`. -/
def executeRevert (timestamp : String) : Prog Table Response := do
  Table.revert (FileStream.textBytes timestamp)
  return rowsAffected "Table reverted" 0

/-- `Execute`. -/
def execute : Statement → Prog Table Response
  | .insert _ columns values => executeInsert env columns values
  | .update _ assignments whereClause => executeUpdate env assignments whereClause
  | .delete _ whereClause => executeDelete env whereClause
  | .select selectAll selectItems _ whereClause =>
      executeSelect env quotient selectAll selectItems whereClause
  | .revert _ timestamp => executeRevert timestamp
  | .createUser _ _ | .grant _ _ _ | .revoke _ _ _ =>
      return .error "Storage shard does not manage users or permissions"
  | .createDatabase _ | .dropDatabase _ | .useDatabase _ =>
      return .error "Storage shard does not manage databases"
  | .createTable table _ | .dropTable table =>
      return .error
        ("Storage shard table lifecycle is handled by application: " ++ table.table)

end Executor

/-- A statement comes to a node, with what its execution depends on. -/
structure Arrival where
  env : ExecutorEnv
  statement : Statement

/-- `ExecuteAst` on the table of a node, which is no more if the process ends. -/
def Table.serve (quotient : Quotient) : Service Arrival Response Table := fun arrival table =>
  match Executor.execute arrival.env quotient arrival.statement table with
  | .ok response table => some (response, table)
  | .error (.exception what) table => some (.error what, table)
  | .error _ _ => none

end QuasarDB.Storage
