import QuasarDB.Core.Message
import QuasarDB.Storage.Schema

set_option autoImplicit false

/-! # The storage node

`application.cpp` of the storage: the node of a table keeps it in its own directory, creates it, drops it,
and opens it again when it is started. What a table is and how a statement is executed on it are
parameters; whether files can be opened is what a call depends on, and removing them does not fail. -/

namespace QuasarDB.Storage

open Core Server

/-- A table: the one of the constructor for a new table, what becomes of one when another process opens its
    files, and `Execute`, with its exceptions as responses, of statements that do not end the process (a failed
    assertion does). -/
structure TableOps (τ : Type) where
  create : Schema → τ
  reopen : τ → τ
  execute : Statement → τ → Response × τ

/-! ## The files of a new table -/

/-- Why a file of a table, or its directory, is not there. -/
inductive FileFailure where
  | fileSystem (reason : String)
  | pager (path : String)
  | journal (path : String)
  | interner (reason : String)
  deriving DecidableEq

def FileFailure.what : FileFailure → String
  | .fileSystem reason => "filesystem error: " ++ reason
  | .pager path => "Pager cannot open file " ++ path ++ "."
  | .journal path => "Journal cannot open file " ++ path ++ "."
  | .interner reason => "[ERROR in qdb::storage::Interner]: " ++ reason

def FileFailure.raise : Option FileFailure → Except String Unit
  | none => .ok ()
  | some failure => .error failure.what

/-- What stops the creation of a table, if it comes that far. A file whose name is longer than 255 bytes cannot
    be opened. -/
structure Construction where
  /-- `create_directories`. -/
  directory : Option FileFailure := none
  /-- The files of the members, and the strings that are in them. -/
  files : Option FileFailure := none
  /-- The file that becomes the `.schema` file can be opened. -/
  schemaFile : Bool := true
  /-- It gets its name. -/
  renamed : Option FileFailure := none
  /-- `_indexes.Open`, which comes last: `<table>_<column>.idx` for each indexed column. -/
  indexes : Option FileFailure := none
  deriving DecidableEq

/-- What `CreateTable` does before there is a page of data. There may be one that was left behind. -/
def Construction.prepare (construction : Construction) (table : TableRef) (columns : List ColumnDef)
    (dataLeft : Bool) : Except String Schema := do
  FileFailure.raise construction.directory
  let schema ← toSchema columns
  FileFailure.raise construction.files
  if dataLeft then .error ("Table with name " ++ table.table ++ " already exists.") else .ok schema

/-- `save_schema`. -/
def Construction.saveSchema (construction : Construction) (schema : Schema) : Except String Unit :=
  if construction.schemaFile then
    if schema.isWritable then FileFailure.raise construction.renamed
    else .error "Cannot write schema to file."
  else .error "Cannot create schema file."

/-! ## The node -/

/-- The directory of a node, and what its process has of it. -/
structure Shard (τ : Type) where
  /-- `table_`, with its name: there is a `.schema` file. -/
  table : Option (String × τ) := none
  /-- There is a `.schema` file, but the constructor has thrown behind it. -/
  unopened : Option (String × τ) := none
  /-- There is a page of data, but no table. -/
  dataLeft : Bool := false

namespace Shard

variable {τ : Type}

/-- There is a `.schema` file. -/
def hasSchema (shard : Shard τ) : Bool := shard.table.isSome || shard.unopened.isSome

/-- `{"rows_affected": 0}`. -/
def noRows : Json := .object [("rows_affected", .integer 0)]

/-- `CreateTable`. The schema is written after the first page, and the indexes are opened after it. -/
def createTable (ops : TableOps τ) (construction : Construction) (table : TableRef)
    (columns : List ColumnDef) (shard : Shard τ) : Response × Shard τ :=
  if shard.table.isSome then (.error "Table shard is already initialized", shard)
  else
    match construction.prepare table columns shard.dataLeft with
    | .error what => (.error what, shard)
    | .ok schema =>
        match construction.saveSchema schema with
        | .error what => (.error what, { shard with dataLeft := true })
        | .ok () =>
            match construction.indexes with
            | some failure =>
                (.error failure.what,
                  { unopened := some (table.table, ops.create schema), dataLeft := true })
            | none =>
                (.success "Table shard created" noRows, { table := some (table.table, ops.create schema) })

/-- `DropTable`. -/
def dropTable (table : TableRef) (shard : Shard τ) : Response × Shard τ :=
  match shard.table with
  | some (name, _) =>
      if name = table.table then (.success "Table shard dropped" noRows, {})
      else (.error ("Table not found: " ++ table.table), shard)
  | none => (.error ("Table not found: " ++ table.table), shard)

/-- `ExecuteAst`, with the statement that `DeserializeAst` gives. -/
def executeAst (ops : TableOps τ) (construction : Construction) (statement : Statement) (shard : Shard τ) :
    Response × Shard τ :=
  match statement with
  | .createTable table columns => shard.createTable ops construction table columns
  | .dropTable table => shard.dropTable table
  | .createDatabase _ | .dropDatabase _ | .useDatabase _ =>
      (.error "Storage shard does not manage databases", shard)
  | statement =>
      match shard.table with
      | none => (.error "Table shard is not initialized", shard)
      | some (name, table) =>
          let (response, table) := ops.execute statement table
          (response, { shard with table := some (name, table) })

/-- `OpenExistingTable`, in another process. -/
def opened (ops : TableOps τ) (shard : Shard τ) : Shard τ :=
  { shard with
    table := (shard.table <|> shard.unopened).map fun (name, table) => (name, ops.reopen table)
    unopened := none }

end Shard

end QuasarDB.Storage
