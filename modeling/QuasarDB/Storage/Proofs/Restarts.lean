import QuasarDB.Storage.Proofs.Histories
import QuasarDB.Storage.Proofs.SchemaFile
import QuasarDB.Storage.Proofs.TableTwins
import QuasarDB.Storage.Restart

set_option autoImplicit false

/-! # Which restarts go unnoticed

A table that is opened again from its files is a twin of the one that wrote them, unless something
was in memory only. What can be there is the place of the journal behind which its tracks have been
reverted. -/

namespace QuasarDB.Storage

open Prog

/-! ## The files -/

namespace Schema

theorem file_eq {schema : Schema} (h : schema.isWritable) : schema.file = schema.fileBytes := by
  have hrun : schema.toBinary (FileStream.openOn []) =
      .ok true (FileStream.around ([] ++ schema.fileBytes) []) := writes_toBinary h []
  rw [file, after_ok hrun, FileStream.bytes_around, List.nil_append, List.append_nil]

/-- Columns of a table that a schema file can have. -/
structure Storable (columns : List Column) : Prop where
  built : ∀ column ∈ columns, column.Built
  names : (columns.map Column.name).Nodup
  writable : columns.all Column.isWritable = true

theorem run_fromBinary_file {schema : Schema} (h : Storable schema.columns)
    (hwithin : Within schema.columns) : ∃ s,
    fromBinary.run (FileStream.openOn schema.file) = .ok (some schema) s := by
  have hreads := reads_fromBinary h.built h.names h.writable hwithin [] []
  rw [List.append_nil] at hreads
  rw [file_eq h.writable]
  exact ⟨_, hreads⟩

end Schema

namespace IndexSet

/-- An index with the entries of the file of its column. -/
def withFile (files : String → AList fun _ : Value => RecordAddress) (name : String)
    (index : Index) : Index :=
  { index with entries := files name }

/-- A column adds the same index to both, but for its entries. -/
theorem lookup_openTree {files : String → AList fun _ : Value => RecordAddress}
    {indexes empty : IndexSet} (column : Column)
    (h : ∀ name, indexes.lookup name = (empty.lookup name).map (withFile files name))
    (name : String) :
    (openTree files indexes column).lookup name =
      ((openColumn empty column).lookup name).map (withFile files name) := by
  have hnone : (indexes.lookup column.name).isNone = (empty.lookup column.name).isNone := by
    rw [h, Option.isNone_map]
  unfold openTree openColumn
  rw [hnone]
  by_cases hnew : (column.isIndexed && (empty.lookup column.name).isNone) = true
  · rw [if_pos hnew, if_pos hnew]
    by_cases hname : name = column.name
    · rw [hname, AList.lookup_insert, AList.lookup_insert]
      rfl
    · rw [AList.lookup_insert_ne hname, AList.lookup_insert_ne hname, h]
  · rw [if_neg hnew, if_neg hnew]
    exact h name

/-- The indexes are those of a new table, with the entries of their files. -/
theorem lookup_openOn (schema : Schema) (files : String → AList fun _ : Value => RecordAddress)
    (name : String) : (openOn schema files).lookup name =
      ((openNew schema).lookup name).map (withFile files name) := by
  have hfold : ∀ (columns : List Column) (indexes empty : IndexSet),
      (∀ name, indexes.lookup name = (empty.lookup name).map (withFile files name)) → ∀ name,
      (columns.foldl (openTree files) indexes).lookup name =
        ((columns.foldl openColumn empty).lookup name).map (withFile files name) := by
    intro columns
    induction columns with
    | nil =>
        intro indexes empty h
        exact h
    | cons column columns ih =>
        intro indexes empty h
        exact ih _ _ (lookup_openTree column h)
  exact hfold schema.columns ∅ ∅ (fun _ => rfl) name

/-- Opening the trees again gives the same indexes. -/
theorem Alike.openOn {schema : Schema} {indexes other : IndexSet}
    (h : Alike schema.columns indexes other) :
    Alike schema.columns indexes (openOn schema other.files) := by
  have hlookup : ∀ name, (IndexSet.openOn schema other.files).lookup name = other.lookup name := by
    intro name
    have htype := h.keyType name
    change _ = ((openNew schema).lookup name).map Index.keyType at htype
    rw [lookup_openOn]
    cases hnew : (openNew schema).lookup name with
    | none =>
        rw [hnew, Option.map_none, Option.map_eq_none_iff] at htype
        rw [htype]
        rfl
    | some index =>
        rw [hnew, Option.map_some, Option.map_eq_some_iff] at htype
        obtain ⟨index', hindex', hkey⟩ := htype
        have hfile : other.files name = index'.entries := by
          unfold IndexSet.files
          rw [hindex']
          rfl
        rw [hindex', Option.map_some, withFile, hfile, ← hkey]
  constructor
  · intro name
    rw [hlookup, h.lookup]
  · intro name
    rw [hlookup, h.keyType]

theorem alike_openNew (schema : Schema) :
    Alike schema.columns (openNew schema) (openNew schema) := ⟨fun _ => rfl, fun _ => rfl⟩

end IndexSet

/-! ## Opening a table again -/

namespace Table

variable {table other : Table} {schema : Schema} {name : String}

/-- Nothing of the table is in memory only: the journal has no tracks that have been reverted, and
    its stream can be used; the schema was saved, in a file that can be read; each tree has a file of its own;
    and there are ids left for strings. -/
structure Settled (table : Table) : Prop where
  position : table.journal.pos = table.journal.file.bytes.length
  stream : table.journal.file.Good
  schemaFile : table.schemaFile = table.schema
  columns : Schema.Within table.schema.columns
  apart : table.schema.FilesApart
  strings : table.strings.file.length + 1 < 2 ^ 32

/-- In a run of calls that return, only reverting can leave something in memory, as long as the
    schema can be read, the trees have their files and there are ids for strings. -/
theorem History.settled_iff {n : Nat} {rows : Rows} {log : List Moment}
    (h : History schema n table rows log) (hn : n < 2 ^ 32)
    (hcolumns : Schema.Within table.schema.columns) (hapart : table.schema.FilesApart)
    (hstrings : table.strings.file.length + 1 < 2 ^ 32) :
    table.Settled ↔ table.journal.pos = table.journal.file.bytes.length := by
  obtain ⟨stack, hrun, -⟩ := (h.past hn).run
  obtain ⟨htracks, -⟩ := hrun.tracks hn
  obtain ⟨cut, hholds⟩ := htracks.journal
  constructor
  · intro hsettled
    exact hsettled.position
  · intro hposition
    exact ⟨hposition, hholds.good, htracks.schemaFile, hcolumns, hapart, hstrings⟩

theorem twin_new (schema : Schema) : Twin schema.columns (new schema) (new schema) where
  schema := rfl
  sameColumns := rfl
  schemaFile := rfl
  journal := ⟨⟨rfl, rfl, rfl⟩, rfl⟩
  pages := rfl
  idToAddr := rfl
  indexes := IndexSet.alike_openNew schema
  strings := ⟨rfl, StringStore.loaded_new⟩

/-- A settled table is opened again as it was. -/
theorem Twin.reopen (h : Twin schema.columns table other)
    (hcolumns : Schema.Storable schema.columns) (hsettled : other.Settled) :
    ∃ reopened, other.reopen name = .ok reopened ∧ Twin schema.columns table reopened := by
  have hstorable : Schema.Storable other.schema.columns := by
    rw [h.sameColumns]
    exact hcolumns
  obtain ⟨s, hread⟩ := Schema.run_fromBinary_file hstorable hsettled.columns
  refine ⟨other.onFilesOf other.schema, ?_, ?_⟩
  · rw [Table.reopen, hsettled.schemaFile, hread]
    exact if_pos hsettled.apart
  · obtain ⟨hload, -⟩ := h.strings.loaded hsettled.strings
    have hindexes := h.indexes
    rw [← h.sameColumns] at hindexes
    have hreopened := hindexes.openOn
    rw [h.sameColumns] at hreopened
    refine ⟨h.schema, h.sameColumns, h.schemaFile, ⟨⟨?_, ?_, ?_⟩, ?_⟩, h.pages, h.idToAddr,
      hreopened, ?_⟩
    · exact h.journal.file.bytes
    · exact h.journal.file.failed.trans hsettled.stream.failed
    · exact h.journal.file.isOpen.trans hsettled.stream.isOpen
    · exact h.journal.pos.trans hsettled.position
    · have heq : (other.onFilesOf other.schema).strings = other.strings := hload.symm
      rw [heq]
      exact h.strings

/-! ## Runs -/

theorem respects_run {columns : List Column} (call : Call) : Respects (Twin columns) call.run := by
  cases call with
  | insert now values columnNames =>
      exact (respects_insertRecord now values columnNames).bind fun _ => .pure _
  | update now record => exact (respects_updateRecord now record).bind fun _ => .pure _
  | delete now record => exact (respects_deleteRecord now record).bind fun _ => .pure _
  | revert time => exact (respects_revert time).bind fun _ => .pure _
  | intern str => exact (respects_onStrings (StringStore.respects_intern str)).bind fun _ => .pure _
  | records => exact respects_records.bind fun _ => .pure _
  | findByIndex columnName value =>
      exact (respects_findByIndex columnName value).bind fun _ => .pure _

/-- A run with restarts on a table gives what its calls alone give on a twin. -/
theorem Twin.play_eq (hcolumns : Schema.Storable schema.columns) (events : List Event) :
    ∀ {table other : Table}, Twin schema.columns table other →
      (∀ found ∈ tablesAtRestarts name events other, found.Settled) →
      play name events other = play name (events.filter Event.isCall) table := by
  induction events with
  | nil =>
      intro table other h hsettled
      rfl
  | cons event events ih =>
      intro table other h hsettled
      cases event with
      | restart =>
          rw [tablesAtRestarts] at hsettled
          obtain ⟨hnow, hlater⟩ := List.forall_mem_cons.1 hsettled
          obtain ⟨reopened, hreopen, htwin⟩ := @Twin.reopen table other schema name h hcolumns hnow
          rw [hreopen] at hlater
          rw [play, hreopen]
          exact ih htwin hlater
      | call call =>
          have hfilter : (Event.call call :: events).filter Event.isCall =
              .call call :: events.filter Event.isCall := rfl
          rw [hfilter, play, play]
          rw [tablesAtRestarts] at hsettled
          cases hrun : call.run table with
          | ok answer table' =>
              obtain ⟨other', hrun', htwin⟩ := (respects_run call).of_ok h hrun
              rw [hrun'] at hsettled ⊢
              exact congrArg _ (ih htwin hsettled)
          | error failure table' =>
              obtain ⟨other', hrun', htwin⟩ := (respects_run call).of_error h hrun
              rw [hrun'] at hsettled ⊢
              cases failure with
              | exception what => exact congrArg _ (ih htwin hsettled)
              | assertion condition => rfl
              | undefined what => rfl
              | endless => rfl

/-- If each restart finds the table settled, every call gives what it gives without the restarts. -/
theorem play_restarts {source : List Server.ColumnDef} (hschema : toSchema source = .ok schema)
    (hwritable : schema.isWritable = true) (name : String) (events : List Event)
    (hsettled : ∀ found ∈ tablesAtRestarts name events (new schema), found.Settled) :
    play name events (new schema) = play name (events.filter Event.isCall) (new schema) := by
  obtain ⟨hbuilt, hnames⟩ := Schema.toSchema_eq_ok hschema
  exact Twin.play_eq ⟨hbuilt, hnames, hwritable⟩ events (twin_new schema) hsettled

/-- A row that is there again after a restart. -/
def settledRun : List Event :=
  [.call (.insert (tick 0) [.int 1] []), .restart, .call .records]

/-- A row that is taken back, and a restart before the same is asked for again. -/
def revertedRun : List Event :=
  [.call (.insert (tick 0) [.int 1] []), .call (.revert (tick 0).bytes), .restart,
    .call (.revert (tick 0).bytes)]

def keyColumns : List Server.ColumnDef := [{ name := "id", columnType := .int, indexed := true }]

theorem toSchema_keyColumns : toSchema keyColumns = .ok Executor.keySchema := rfl

instance (columns : List Column) : Decidable (Schema.Within columns) :=
  decidable_of_iff (columns.length ≤ 1024 * 1024 ∧
    ∀ column ∈ columns, column.name.utf8ByteSize ≤ 1024 * 1024)
    ⟨fun h => ⟨h.1, h.2⟩, fun h => ⟨h.count, h.names⟩⟩

instance (stream : FileStream) : Decidable stream.Good :=
  decidable_of_iff (stream.failed = false ∧ stream.isOpen = true)
    ⟨fun h => ⟨h.1, h.2⟩, fun h => ⟨h.failed, h.isOpen⟩⟩

instance (table : Table) : Decidable table.Settled :=
  decidable_of_iff (table.journal.pos = table.journal.file.bytes.length ∧ table.journal.file.Good ∧
      table.schemaFile = table.schema ∧ Schema.Within table.schema.columns ∧ table.schema.FilesApart ∧
      table.strings.file.length + 1 < 2 ^ 32)
    ⟨fun ⟨hposition, hstream, hschema, hcolumns, hapart, hstrings⟩ =>
        ⟨hposition, hstream, hschema, hcolumns, hapart, hstrings⟩,
      fun h => ⟨h.position, h.stream, h.schemaFile, h.columns, h.apart, h.strings⟩⟩

theorem play_restarts_settledRun :
    play "rows" settledRun (new Executor.keySchema) =
      play "rows" (settledRun.filter Event.isCall) (new Executor.keySchema) :=
  play_restarts toSchema_keyColumns (by decide) "rows" settledRun (by decide +kernel)

/-- The track of a row that was taken back is there again when the table is opened. -/
theorem play_revertedRun :
    toSchema keyColumns = .ok Executor.keySchema ∧
    play "rows" revertedRun (new Executor.keySchema) =
      [.ok (.record firstRecord), .ok .done,
        .error (.assertion "_id_to_addr.search(record.Id()).size() == 1")] ∧
    play "rows" (revertedRun.filter Event.isCall) (new Executor.keySchema) =
      [.ok (.record firstRecord), .ok .done, .ok .done] := by
  refine ⟨toSchema_keyColumns, ?_, ?_⟩ <;> decide +kernel

end Table

end QuasarDB.Storage
