import QuasarDB.Core.JsonFile
import QuasarDB.Library.Prog
import QuasarDB.Server.AstJson

set_option autoImplicit false

/-! # The catalog

`catalog.cpp`: the databases and their tables, in memory and in `catalog.json`. Only the catalog
writes that file, so the file is what was saved last; whether a save succeeds is not looked at. -/

namespace QuasarDB.Server

open Core

/-- The member `"databases"` of the catalog: the tables of each database, as they were created. -/
abbrev Databases : Type := Dict (Dict Json)

structure Catalog where
  databases : Databases
  /-- The file at `path_`, or `none` before the first save. -/
  file : Option Databases

namespace Catalog

/-- The constructor: `Load`. -/
def load (file : Option Databases) : Catalog := { databases := file.getD ∅, file }

/-- `Save`. -/
def save (saved : Bool) : Prog Catalog Unit :=
  modify fun catalog => { catalog with file := if saved then some catalog.databases else catalog.file }

/-- `HasDatabase`. -/
def hasDatabase (catalog : Catalog) (name : String) : Bool :=
  (catalog.databases.lookup name).isSome

/-- `CreateDatabase`. -/
def createDatabase (saved : Bool) (name : String) : Prog Catalog Bool := do
  if (← get).hasDatabase name then return false
  modify fun catalog => { catalog with databases := catalog.databases.insert name ∅ }
  save saved
  return true

/-- The tables of a database, in the order of their names. -/
def tablesOf (catalog : Catalog) (name : String) : List TableRef :=
  match catalog.databases.lookup name with
  | none => []
  | some tables => (tables.keys.mergeSort (· ≤ ·)).map fun table => { database := name, table }

/-- `DropDatabase`. -/
def dropDatabase (saved : Bool) (name : String) : Prog Catalog (List TableRef) := do
  let catalog ← get
  if !catalog.hasDatabase name then return []
  set { catalog with databases := catalog.databases.erase name }
  save saved
  return catalog.tablesOf name

/-- `HasTable`. -/
def hasTable (catalog : Catalog) (table : TableRef) : Bool :=
  ((catalog.databases.lookup table.database).bind fun tables => tables.lookup table.table).isSome

/-- The catalog with other tables in a database. -/
def withTables (catalog : Catalog) (name : String) (tables : Dict Json) : Catalog :=
  { catalog with databases := catalog.databases.insert name tables }

/-- `CreateTable`. The statement is encoded before the table is listed. -/
def createTable (saved : Bool) (table : TableRef) (columns : List ColumnDef) :
    Prog Catalog Bool := do
  let catalog ← get
  match catalog.databases.lookup table.database with
  | none => return false
  | some tables =>
      if (tables.lookup table.table).isSome then return false
      let ast ← Prog.ofExcept (serializeAst (.createTable table columns))
      set (catalog.withTables table.database (tables.insert table.table ast))
      save saved
      return true

/-- `DropTable`. -/
def dropTable (saved : Bool) (table : TableRef) : Prog Catalog Bool := do
  let catalog ← get
  match catalog.databases.lookup table.database with
  | none => return false
  | some tables =>
      if (tables.lookup table.table).isNone then return false
      set (catalog.withTables table.database (tables.erase table.table))
      save saved
      return true

end Catalog

end QuasarDB.Server
