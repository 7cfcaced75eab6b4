import QuasarDB.Storage.Proofs.Growth
import QuasarDB.Storage.Proofs.JournalStack
import QuasarDB.Storage.Proofs.TableReads
import QuasarDB.Storage.Proofs.Validation

set_option autoImplicit false

/-! # Inserting, updating, deleting and reverting

Each operation does to the rows what it is for, and puts the step that undoes it onto the journal;
reverting undoes the steps from the top. -/

namespace QuasarDB.Storage

open Prog

/-! ## Undo steps on rows -/

namespace Rows

variable {rows : Rows} {schema schema' : Schema} {interner : Interner} {fields : List Value}

/-- The id counter of the schema does not matter. -/
theorem Sound.of_columns (h : rows.Sound schema interner) (hcolumns : schema'.columns = schema.columns) :
    rows.Sound schema' interner := by
  obtain ⟨columns, count⟩ := schema
  obtain ⟨columns', count'⟩ := schema'
  obtain rfl : columns' = columns := hcolumns
  exact ⟨h.given, fun id fields hrow => ⟨(h.allowed id fields hrow).length,
    (h.allowed id fields hrow).types⟩, h.unique, h.known, h.size⟩

theorem Undoable.of_columns {stack : List Entry} (h : Undoable schema interner stack rows)
    (hcolumns : schema'.columns = schema.columns) : Undoable schema' interner stack rows := by
  induction stack generalizing rows with
  | nil => trivial
  | cons entry stack ih =>
      obtain ⟨happlies, hsound, hstack⟩ := h
      exact ⟨happlies, hsound.of_columns hcolumns, ih hstack⟩

theorem undo_insert (h : rows.row rows.nextId = none) :
    (rows.insert fields).undo (.delete rows.nextId) = rows := by
  have hset := set_of_eq (h : rows.row rows.nextId = none)
  rw [← set_set (some fields) none] at hset
  exact congrArg (fun r : Rows => { r with count := rows.count }) hset

theorem undo_update {oldRecord : Record} {fields : Option (List Value)}
    (h : rows.row oldRecord.id = some oldRecord.fields) :
    (rows.set oldRecord.id fields).undo (.update oldRecord) = rows := by
  rw [undo, set_set, set_of_eq h]

theorem undo_delete {record : Record} (h : rows.row record.id = some record.fields) :
    (rows.set record.id none).undo (.insert record) = rows := by
  rw [undo, set_set, set_of_eq h]

/-- The steps undone, one after the other. -/
def undoAll (rows : Rows) (entries : List Entry) : Rows :=
  entries.foldl (fun rows entry => rows.undo entry.undo) rows

end Rows

namespace Table

variable {table table' : Table} {rows rows' : Rows} {stack : List Entry} {record : Record}

/-- The table has these rows, and the journal the steps that undo what has made them. -/
structure Tracks (table : Table) (rows : Rows) (stack : List Entry) : Prop
    extends Represents table rows where
  schemaFile : table.schemaFile = table.schema
  journal : table.journal.Represents stack
  undoable : Rows.Undoable table.schema table.strings.toInterner stack rows

/-- A row takes no more than a page, so its track is no problem either. -/
theorem storedBytes_length_lt (hsize : (rowBytes record.fields).length ≤ TablePage.maxRecordSize) :
    record.storedBytes.length + 36 < 2 ^ 32 := by
  rw [storedBytes_eq_rowBytes]
  simp only [TablePage.maxRecordSize, TablePage.pageSize, TablePage.headerSize,
    TablePage.cellSize] at hsize
  omega

theorem run_saveSchema (h : table.schema.isWritable = true) :
    saveSchema table = .ok () { table with schemaFile := table.schema } := by
  rw [saveSchema, run_get_bind, h]
  rfl

theorem Represents.nextId (h : table.Represents rows) : rows.nextId = table.schema.recordIdCount := by
  rw [Rows.nextId, ← h.count, UInt32.ofNat_toNat]

/-- Another number of ids that were given. -/
theorem Represents.withCount (h : table.Represents rows) {count : UInt32} (schemaFile : Schema)
    (journal : Journal) (hrow : rows'.row = rows.row) (hcount : count.toNat = rows'.count)
    (hgiven : ∀ id fields, rows.row id = some fields → id.toNat < rows'.count) :
    Represents { table with schema.recordIdCount := count, schemaFile, journal } rows' := by
  obtain ⟨count', row⟩ := rows'
  obtain rfl : row = rows.row := hrow
  refine ⟨⟨h.schema.columns, h.schema.names, h.schema.writable, h.schema.notNull⟩, hcount, h.strings, ?_,
    h.stored, h.absent, h.indexes⟩
  exact Rows.Sound.of_columns (h.sound.sub (fun _ _ hrow => hrow) hgiven) rfl

/-- What `insert_record` does before it writes anything. -/
def makeValid (values : List Value) (columnNames : List String) : Prog Table Record := do
  let record ← makeRecord (← get).schema.recordIdCount values columnNames
  validateRecord record
  return record

theorem insertRecord_eq (now : Track.Time) (values : List Value) (columnNames : List String) :
    insertRecord now values columnNames =
      (do storeNewRecord now (← makeValid values columnNames)) := by
  simp only [insertRecord, makeValid, bind_assoc, pure_bind]

theorem makeValid_along (h : table.Represents rows) {values : List Value}
    (columnNames : List String)
    (hknown : ∀ value ∈ values, table.strings.toInterner.Knows value) :
    Along Throws Grows (makeValid values columnNames) table fun record table' =>
      record.id = rows.nextId ∧ table'.schema.Allows record.fields ∧
        rows.Admits table'.schema record.id record.fields ∧
        ∀ value ∈ record.fields, table'.strings.toInterner.Knows value := by
  refine Along.get_bind ((makeRecord_along h.strings hknown).bind ?_)
  rintro record _ ⟨strings, hgrows, rfl⟩ hnew
  have hrep := h.withStrings hgrows.keeps (hgrows.closed h.strings)
  have hid : record.id = rows.nextId := hnew.id.trans h.nextId.symm
  have hrow : rows.row record.id = none := by
    rw [hid]
    exact h.sound.row_nextId h.count_lt
  have hcandidate : Candidate { table with strings } record :=
    ⟨hnew.length, hnew.address.trans (h.absent _ hrow).symm⟩
  rcases hrep.run_validateRecord hcandidate with ⟨hvalid, hallows, hadmits⟩ | ⟨⟨what, hinvalid⟩, -⟩
  · exact Post.ok (bind_ok hvalid) ⟨refl_of Grows _, hid, hallows, hadmits, hnew.known⟩
  · exact Post.error (bind_error hinvalid) ⟨⟨what, rfl⟩, refl_of Grows _⟩

namespace Tracks

/-- More strings. -/
theorem grows (h : table.Tracks rows stack) {strings : StringStore}
    (hgrows : table.strings.Grows strings) : Tracks { table with strings } rows stack :=
  ⟨h.withStrings hgrows.keeps (hgrows.closed h.strings), h.schemaFile, h.journal,
    h.undoable.mono fun _ => hgrows.keeps.knows⟩

/-! ## Inserting -/

/-- The table as it is when the record is written. -/
def counted (table : Table) (journal : Journal) : Table :=
  { table with
    schema.recordIdCount := table.schema.recordIdCount + 1
    schemaFile := { table.schema with recordIdCount := table.schema.recordIdCount + 1 }
    journal }

theorem represents_counted (h : table.Represents rows) (hcount : rows.count + 1 < 2 ^ 32)
    (journal : Journal) : (counted table journal).Represents { rows with count := rows.count + 1 } := by
  refine h.withCount _ journal rfl ?_ fun id fields hrow => Nat.lt_succ_of_lt (h.sound.given id fields hrow)
  rw [UInt32.toNat_add, h.count, UInt32.toNat_one, Nat.mod_eq_of_lt hcount]

theorem run_toPlaceRecord (h : table.Tracks rows stack) (now : Track.Time) (record : Record) :
    ∃ journal : Journal, journal.Represents (⟨now, .delete record.id⟩ :: stack) ∧
      storeNewRecord now record table = placeRecord record (counted table journal) := by
  obtain ⟨journal, hrun, hjournal, -⟩ :=
    JournalOp.run_save ⟨now, .delete record.id⟩ h.journal (show 0 < 2 ^ 32 by decide)
  have hsave : onJournal (Journal.saveInsertion now record) table = .ok now.bytes { table with journal } :=
    run_onJournal hrun
  have hwritable : Schema.isWritable { table.schema with
      recordIdCount := table.schema.recordIdCount + 1 } = true := h.schema.writable
  refine ⟨journal, hjournal, ?_⟩
  rw [storeNewRecord, bind_ok hsave, run_modify_bind]
  exact bind_ok (run_saveSchema hwritable)

/-- A valid record of the next id becomes a row. -/
theorem run_storeNewRecord (h : table.Tracks rows stack) (hcount : rows.count + 1 < 2 ^ 32)
    (now : Track.Time) (hid : record.id = rows.nextId) (hallows : table.schema.Allows record.fields)
    (hadmits : rows.Admits table.schema record.id record.fields)
    (hknown : ∀ value ∈ record.fields, table.strings.toInterner.Knows value)
    (hsize : (rowBytes record.fields).length ≤ TablePage.maxRecordSize) :
    ∃ address table', storeNewRecord now record table =
        .ok { record with address := some address } table' ∧
      table'.Tracks (rows.insert record.fields) (⟨now, .delete record.id⟩ :: stack) ∧
      table'.strings = table.strings ∧ table'.schema.columns = table.schema.columns := by
  have hrow : rows.row record.id = none := by
    rw [hid]
    exact h.sound.row_nextId (by omega)
  have hinsert : Rows.set record.id (some record.fields) { rows with count := rows.count + 1 } =
      rows.insert record.fields := by
    rw [hid]
    rfl
  have hlt : record.id.toNat < rows.count + 1 := by
    rw [hid, Rows.nextId_toNat (by omega)]
    exact Nat.lt_succ_self _
  obtain ⟨journal, hjournal, hrun⟩ := h.run_toPlaceRecord now record
  have hsound := Rows.Sound.set h.sound.grow hlt hallows hadmits hknown hsize
  obtain ⟨address, table', hplace, hchanges, hrep⟩ := run_placeRecord
    (represents_counted h.toRepresents hcount journal) hrow (hsound.of_columns rfl)
  rw [hinsert] at hrep
  have hcolumns : table'.schema.columns = table.schema.columns := by
    rw [hchanges.schema]
    rfl
  refine ⟨address, table', hrun.trans hplace, ⟨hrep, ?_, ?_, ?_⟩, hchanges.strings, hcolumns⟩
  · rw [hchanges.schemaFile, hchanges.schema]
    rfl
  · rw [hchanges.journal]
    exact hjournal
  · have hundo : (rows.insert record.fields).undo (.delete record.id) = rows := by
      rw [hid] at hrow ⊢
      exact Rows.undo_insert hrow
    have happlies : (rows.insert record.fields).Applies (.delete record.id) := by
      refine ⟨?_, ?_⟩
      · rw [← hinsert, Rows.set_self]
        rfl
      · rw [hid, Rows.nextId_toNat (by omega)]
        rfl
    rw [hchanges.schema, hchanges.strings]
    refine ⟨happlies, ?_, ?_⟩
    · rw [hundo]
      exact h.sound.of_columns rfl
    · rw [hundo]
      exact h.undoable.of_columns rfl

/-- `insert_record` adds a row, or throws and adds strings at most; a record that is too large for a page
    has used up an id. -/
theorem insertRecord_post (h : table.Tracks rows stack) (hcount : rows.count + 1 < 2 ^ 32)
    (now : Track.Time) {values : List Value} (columnNames : List String)
    (hknown : ∀ value ∈ values, table.strings.toInterner.Knows value) :
    (insertRecord now values columnNames).Post table
      (fun record table' => table.strings.Grows table'.strings ∧ record.id = rows.nextId ∧
        table'.schema.columns = table.schema.columns ∧
        table'.Tracks (rows.insert record.fields) (⟨now, .delete record.id⟩ :: stack))
      (fun e table' => (table.Grows table' ∧ ∃ what, e = .exception what) ∨
        IsTooLarge e ∧ ∃ fields : List Value, TablePage.maxRecordSize < (rowBytes fields).length ∧
          table.strings.Grows table'.strings ∧
          table'.Represents { rows with count := rows.count + 1 }) := by
  rw [insertRecord_eq]
  refine Post.bind ((makeValid_along h.toRepresents columnNames hknown).post ?_ ?_)
  · rintro record _ ⟨strings, hgrows, rfl⟩ ⟨hid, hallows, hadmits, hknown'⟩
    have htracks := h.grows hgrows
    by_cases hsize : (rowBytes record.fields).length ≤ TablePage.maxRecordSize
    · obtain ⟨address, table', hrun, htracks', hstrings, hcolumns⟩ :=
        htracks.run_storeNewRecord hcount now hid hallows hadmits hknown' hsize
      exact Post.ok hrun ⟨hstrings ▸ hgrows, hid, hcolumns, htracks'⟩
    · obtain ⟨journal, -, hrun⟩ := htracks.run_toPlaceRecord now record
      obtain ⟨e, hlarge, hwrite⟩ :=
        run_writeRecordToDisk_error (counted { table with strings } journal) 0 (not_le.1 hsize)
      exact Post.error (hrun.trans (bind_error hwrite)) (.inr ⟨hlarge, record.fields, not_le.1 hsize, hgrows,
        represents_counted htracks.toRepresents hcount journal⟩)
  · exact fun e table' he hgrows => .inl ⟨hgrows, he⟩

/-! ## Updating -/

/-- Up to where the old record goes. -/
theorem run_toReplaceRecord (h : table.Tracks rows stack) (now : Track.Time) {fields : List Value}
    {oldAddress : RecordAddress} (hrow : rows.row record.id = some fields)
    (hlookup : table.idToAddr.lookup record.id = some oldAddress)
    (haddress : record.address = some oldAddress) :
    ∃ journal : Journal, journal.Represents
        (⟨now, .update { id := record.id, fields, address := some oldAddress }⟩ :: stack) ∧
      storeUpdatedRecord now record table =
        replaceRecord oldAddress { id := record.id, fields, address := some oldAddress } record
          { table with journal } := by
  have hfits : ({ id := record.id, fields, address := some oldAddress : Record }).storedBytes.length <
      2 ^ 32 := Nat.lt_of_le_of_lt (Nat.le_add_right _ 36) (storedBytes_length_lt (h.sound.size _ _ hrow))
  obtain ⟨journal, hsave, hjournal, -⟩ := JournalOp.run_save
    ⟨now, .update { id := record.id, fields, address := some oldAddress }⟩ h.journal hfits
  have hsave : onJournal (Journal.saveUpdation now { id := record.id, fields, address := some oldAddress })
      table = .ok now.bytes { table with journal } :=
    run_onJournal ((bind_ok (Record.run_serialize hfits table.journal)).trans hsave)
  refine ⟨journal, hjournal, ?_⟩
  rw [storeUpdatedRecord, run_getAddress haddress, run_pure_bind,
    bind_ok (run_readRecord (h.storedAt hrow hlookup) (h.reads hrow))]
  dsimp only
  rw [bind_ok hsave]

/-- A valid record takes the place of the row of its id. -/
theorem run_storeUpdatedRecord (h : table.Tracks rows stack) (now : Track.Time) {fields : List Value}
    (hrow : rows.row record.id = some fields)
    (haddress : record.address = table.idToAddr.lookup record.id)
    (hallows : table.schema.Allows record.fields)
    (hadmits : rows.Admits table.schema record.id record.fields)
    (hknown : ∀ value ∈ record.fields, table.strings.toInterner.Knows value)
    (hsize : (rowBytes record.fields).length ≤ TablePage.maxRecordSize) :
    ∃ address table', storeUpdatedRecord now record table = .ok address table' ∧
      table'.Tracks (rows.set record.id (some record.fields))
        (⟨now, .update { id := record.id, fields, address := record.address }⟩ :: stack) ∧
      table'.strings = table.strings ∧ table'.schema = table.schema ∧
      ∀ other, other ≠ record.id → table'.idToAddr.lookup other = table.idToAddr.lookup other := by
  obtain ⟨oldAddress, hlookup, -⟩ := h.stored record.id fields hrow
  have hold := haddress.trans hlookup
  obtain ⟨journal, hjournal, hrun⟩ := h.run_toReplaceRecord now hrow hlookup hold
  have hsound := h.sound.set (h.sound.given _ _ hrow) hallows hadmits hknown hsize
  obtain ⟨address, table', hreplace, hchanges, hrep⟩ :=
    @run_replaceRecord _ rows record { id := record.id, fields, address := some oldAddress } oldAddress
      (h.withJournal journal) hrow hlookup rfl hsound
  refine ⟨address, table', hrun.trans hreplace, ⟨hrep, ?_, ?_, ?_⟩, hchanges.strings, hchanges.schema,
    hchanges.addresses⟩
  · rw [hchanges.schemaFile, hchanges.schema]
    exact h.schemaFile
  · rw [hchanges.journal, hold]
    exact hjournal
  · have hundo : (rows.set record.id (some record.fields)).undo
        (.update { id := record.id, fields, address := record.address }) = rows := Rows.undo_update hrow
    rw [hchanges.schema, hchanges.strings]
    refine ⟨?_, ?_⟩
    · rw [Rows.Applies, Rows.set_self]
      rfl
    · rw [hundo]
      exact ⟨h.sound, h.undoable⟩

/-- One that is too large for a page leaves the journal with a track and the row without its cell. -/
theorem run_storeUpdatedRecord_error (h : table.Tracks rows stack) (now : Track.Time)
    {fields : List Value} {oldAddress : RecordAddress} (hrow : rows.row record.id = some fields)
    (hlookup : table.idToAddr.lookup record.id = some oldAddress)
    (haddress : record.address = some oldAddress)
    (hsize : TablePage.maxRecordSize < (rowBytes record.fields).length) :
    ∃ e pages journal, IsTooLarge e ∧
      storeUpdatedRecord now record table = .error e { table with pages, journal } ∧
      journal.Represents
        (⟨now, .update { id := record.id, fields, address := some oldAddress }⟩ :: stack) ∧
      cellAt pages oldAddress = some { cellOf record.id fields with deleted := true } := by
  obtain ⟨journal, hjournal, hrun⟩ := h.run_toReplaceRecord now hrow hlookup haddress
  obtain ⟨pages, hdelete, hpages⟩ :=
    run_deleteCell ((h.withJournal journal).storedAt hrow hlookup)
  obtain ⟨e, hlarge, hwrite⟩ :=
    run_writeRecordToDisk_error { table with pages, journal } oldAddress.pageIndex hsize
  refine ⟨e, pages, journal, hlarge, ?_, hjournal, (hpages oldAddress).trans (if_pos rfl)⟩
  rw [hrun, replaceRecord, bind_ok hdelete, bind_error hwrite]

/-- An update that returns has a record that fits into a page. -/
theorem size_of_run_updateRecord (h : table.Tracks rows stack) {now : Track.Time} {fields : List Value}
    (hrow : rows.row record.id = some fields) (hcandidate : table.Candidate record)
    {address : RecordAddress} (hrun : updateRecord now record table = .ok address table') :
    (rowBytes record.fields).length ≤ TablePage.maxRecordSize := by
  obtain ⟨_, table₁, hvalid, hstore⟩ := bind_eq_ok.1 hrun
  rcases h.run_validateRecord hcandidate with ⟨hvalid', -⟩ | ⟨⟨what, hinvalid⟩, -⟩
  · rw [hvalid'] at hvalid
    cases hvalid
    by_contra hsize
    obtain ⟨oldAddress, hlookup, -⟩ := h.stored record.id fields hrow
    obtain ⟨e, pages, journal, -, herror, -⟩ := h.run_storeUpdatedRecord_error now hrow hlookup
      (hcandidate.address.trans hlookup) (not_le.1 hsize)
    rw [herror] at hstore
    cases hstore
  · rw [hinvalid] at hvalid
    cases hvalid

/-- `update_record` on a record with the address of its row. -/
theorem run_updateRecord (h : table.Tracks rows stack) (now : Track.Time) {fields : List Value}
    (hrow : rows.row record.id = some fields) (hcandidate : table.Candidate record)
    (hknown : ∀ value ∈ record.fields, table.strings.toInterner.Knows value) :
    (table.schema.Allows record.fields ∧ rows.Admits table.schema record.id record.fields ∧
        ((rowBytes record.fields).length ≤ TablePage.maxRecordSize →
          ∃ address table', updateRecord now record table = .ok address table' ∧
            table'.Tracks (rows.set record.id (some record.fields))
              (⟨now, .update { id := record.id, fields, address := record.address }⟩ :: stack) ∧
            table'.strings = table.strings ∧ table'.schema = table.schema ∧
            ∀ other, other ≠ record.id →
              table'.idToAddr.lookup other = table.idToAddr.lookup other)) ∨
      ((∃ what, updateRecord now record table = .error (.exception what) table) ∧
        ¬ (table.schema.Allows record.fields ∧
          rows.Admits table.schema record.id record.fields)) := by
  rcases h.run_validateRecord hcandidate with ⟨hvalid, hallows, hadmits⟩ | ⟨⟨what, hinvalid⟩, hnot⟩
  · refine .inl ⟨hallows, hadmits, fun hsize => ?_⟩
    rw [updateRecord, bind_ok hvalid]
    exact h.run_storeUpdatedRecord now hrow hcandidate.address hallows hadmits hknown hsize
  · refine .inr ⟨⟨what, ?_⟩, hnot⟩
    rw [updateRecord, bind_error hinvalid]

/-- What an update that returns leaves. -/
theorem of_updateRecord (h : table.Tracks rows stack) {now : Track.Time} {fields : List Value}
    (hrow : rows.row record.id = some fields) (hcandidate : table.Candidate record)
    (hknown : ∀ value ∈ record.fields, table.strings.toInterner.Knows value)
    {address : RecordAddress} (hrun : updateRecord now record table = .ok address table') :
    table'.Tracks (rows.set record.id (some record.fields))
        (⟨now, .update { id := record.id, fields, address := record.address }⟩ :: stack) ∧
      table'.strings = table.strings ∧ table'.schema = table.schema ∧
      ∀ other, other ≠ record.id → table'.idToAddr.lookup other = table.idToAddr.lookup other := by
  have hsize := h.size_of_run_updateRecord hrow hcandidate hrun
  rcases h.run_updateRecord now hrow hcandidate hknown with ⟨-, -, hupdate⟩ | ⟨⟨what, herror⟩, -⟩
  · obtain ⟨address', table'', hrun', hafter⟩ := hupdate hsize
    rw [hrun] at hrun'
    cases hrun'
    exact hafter
  · rw [hrun] at herror
    cases herror

/-- A record that is rejected changes nothing. -/
theorem eq_of_validateRecord_error (h : table.Tracks rows stack) (hcandidate : table.Candidate record)
    {failure : Failure} (hrun : validateRecord record table = .error failure table') :
    table' = table := by
  rcases h.run_validateRecord hcandidate with ⟨hvalid, -⟩ | ⟨⟨what, hinvalid⟩, -⟩
  · rw [hrun] at hvalid
    cases hvalid
  · rw [hrun] at hinvalid
    cases hinvalid
    rfl

/-- An update that throws changes nothing, unless its record is too large for a page. -/
theorem eq_of_updateRecord_error (h : table.Tracks rows stack) {now : Track.Time} {fields : List Value}
    (hrow : rows.row record.id = some fields) (hcandidate : table.Candidate record)
    (hknown : ∀ value ∈ record.fields, table.strings.toInterner.Knows value) {what : String}
    (hwhat : what ≠ tooLarge) (hrun : updateRecord now record table = .error (.exception what) table') :
    table' = table := by
  rcases h.run_validateRecord hcandidate with ⟨hvalid, hallows, hadmits⟩ | ⟨⟨what', hinvalid⟩, -⟩
  · rw [updateRecord, bind_ok hvalid] at hrun
    by_cases hsize : (rowBytes record.fields).length ≤ TablePage.maxRecordSize
    · obtain ⟨address, table'', hstore, -⟩ :=
        h.run_storeUpdatedRecord now hrow hcandidate.address hallows hadmits hknown hsize
      rw [hrun] at hstore
      cases hstore
    · obtain ⟨oldAddress, hlookup, -⟩ := h.stored record.id fields hrow
      obtain ⟨e, pages, journal, hlarge, herror, -⟩ := h.run_storeUpdatedRecord_error now hrow hlookup
        (hcandidate.address.trans hlookup) (not_le.1 hsize)
      rw [hrun] at herror
      cases herror
      exact absurd (hlarge what rfl) hwhat
  · rw [updateRecord, bind_error hinvalid] at hrun
    cases hrun
    rfl

/-! ## Deleting -/

/-- `delete_record` on a record that was just read. -/
theorem run_deleteRecord (h : table.Tracks rows stack) (now : Track.Time)
    (hrecord : table.IsRecord rows record) :
    ∃ table', deleteRecord now record table = .ok () table' ∧
      table'.Tracks (rows.set record.id none) (⟨now, .insert record⟩ :: stack) ∧
      table'.strings = table.strings ∧ table'.schema = table.schema ∧
      ∀ other, other ≠ record.id → table'.idToAddr.lookup other = table.idToAddr.lookup other := by
  obtain ⟨address, hlookup, -⟩ := h.stored record.id record.fields hrecord.row
  have hfits : record.storedBytes.length < 2 ^ 32 :=
    Nat.lt_of_le_of_lt (Nat.le_add_right _ 36) (storedBytes_length_lt (h.sound.size _ _ hrecord.row))
  obtain ⟨journal, hsave, hjournal, -⟩ := JournalOp.run_save ⟨now, .insert record⟩ h.journal hfits
  have hsave : onJournal (Journal.saveDeletion now record) table = .ok now.bytes { table with journal } :=
    run_onJournal ((bind_ok (Record.run_serialize hfits table.journal)).trans hsave)
  obtain ⟨table', hremove, hchanges, hrep⟩ :=
    run_removeRecord (h.withJournal journal) hrecord.row hlookup
  refine ⟨table', ?_, ⟨hrep, ?_, ?_, ?_⟩, hchanges.strings, hchanges.schema, hchanges.addresses⟩
  · rw [deleteRecord, bind_ok hsave, run_getAddress (hrecord.address.trans hlookup), run_pure_bind]
    exact hremove
  · rw [hchanges.schemaFile, hchanges.schema]
    exact h.schemaFile
  · rw [hchanges.journal]
    exact hjournal
  · have hundo : (rows.set record.id none).undo (.insert record) = rows := Rows.undo_delete hrecord.row
    rw [hchanges.schema, hchanges.strings]
    refine ⟨Rows.set_self _, ?_⟩
    rw [hundo]
    exact ⟨h.sound, h.undoable⟩

end Tracks

/-! ## Reverting -/

theorem run_addressOf {id : UInt32} {address : RecordAddress}
    (h : table.idToAddr.lookup id = some address) : addressOf id table = .ok address table := by
  rw [addressOf, run_get_bind, h]
  rfl

/-- The last step is undone, whatever came before it. -/
theorem run_revertTrack {entry : Entry} (h : table.Represents rows) (happlies : rows.Applies entry.undo)
    (hsound : (rows.undo entry.undo).Sound table.schema table.strings.toInterner) :
    ∃ table', revertTrack entry.result table = .ok () table' ∧
      table'.Represents (rows.undo entry.undo) ∧ table'.schema.columns = table.schema.columns ∧
      table'.journal = table.journal ∧ table'.strings = table.strings := by
  obtain ⟨time, undo⟩ := entry
  cases undo with
  | delete id =>
      obtain ⟨hsome, hlast⟩ := happlies
      obtain ⟨fields, hrow⟩ := Option.isSome_iff_exists.1 hsome
      obtain ⟨address, hlookup, hstored⟩ := h.stored id fields hrow
      obtain ⟨cells, hpage, hslot, hpos⟩ := hstored.cell
      obtain ⟨table', hremove, hchanges, hrep⟩ :=
        @run_removeRecord _ rows address { id, fields } h hrow hlookup
      have hcount : id + 1 = table'.schema.recordIdCount := by
        have hlt := h.count_lt
        rw [hchanges.schema, ← UInt32.toNat_inj, UInt32.toNat_add, h.count, UInt32.toNat_one, hlast,
          Nat.mod_eq_of_lt hlt]
      have hassert : Prog.assert (id + 1 == table'.schema.recordIdCount)
          "record.Id() + 1 == _schema.RecordIdCount()" table' = .ok () table' := by
        rw [hcount, beq_self_eq_true]
        rfl
      refine ⟨{ table' with schema.recordIdCount := table'.schema.recordIdCount - 1 }, ?_, ?_, ?_, ?_, ?_⟩
      · rw [revertTrack]
        dsimp only [Entry.result, Undo.kind, Undo.recordId]
        rw [bind_ok (run_addressOf hlookup), run_get_bind, bind_ok (run_readPage hpos hpage),
          bind_ok (run_readCell hslot (h.reads hrow) table)]
        dsimp only
        rw [bind_ok hremove, run_get_bind, bind_ok hassert]
        rfl
      · refine hrep.withCount table'.schemaFile table'.journal rfl ?_ hsound.given
        have hsub := h.count
        rw [← hchanges.schema] at hsub
        rw [UInt32.toNat_sub_of_le _ _ (by rw [UInt32.le_iff_toNat_le, hsub, ← hlast]; simp), hsub]
        rfl
      · rw [← hchanges.schema]
      · exact hchanges.journal
      · exact hchanges.strings
  | update oldRecord =>
      obtain ⟨fields, hrow⟩ := Option.isSome_iff_exists.1 happlies
      obtain ⟨address, hlookup, hstored⟩ := h.stored oldRecord.id fields hrow
      obtain ⟨address', table', hreplace, hchanges, hrep⟩ :=
        @run_replaceRecord _ rows { id := oldRecord.id, fields := oldRecord.fields, address := some address }
          { id := oldRecord.id, fields, address := some address } address h hrow hlookup rfl hsound
      refine ⟨table', ?_, hrep, by rw [hchanges.schema], hchanges.journal, hchanges.strings⟩
      rw [revertTrack]
      dsimp only [Entry.result, Undo.kind, Undo.recordId, Undo.fields, Undo.kept]
      rw [bind_ok (run_addressOf hlookup), bind_ok (run_readRecord hstored (h.reads hrow))]
      dsimp only
      rw [bind_ok hreplace]
      rfl
  | insert record =>
      obtain ⟨address, table', hplace, hchanges, hrep⟩ :=
        @run_placeRecord _ rows { id := record.id, fields := record.fields } h happlies hsound
      refine ⟨table', ?_, hrep, by rw [hchanges.schema], hchanges.journal, hchanges.strings⟩
      rw [revertTrack]
      dsimp only [Entry.result, Undo.kind, Undo.recordId, Undo.fields, Undo.kept]
      rw [bind_ok hplace]
      rfl

/-- A record that the undone rows have fits into a track, and is read back from it. -/
theorem fits_of_undoable {entry : Entry} (hschema : table.schema.WellFormed)
    (hundoable : Rows.Undoable table.schema table.strings.toInterner (entry :: stack) rows) :
    entry.Fits ∧ entry.Readable table.schema table.strings.toInterner := by
  obtain ⟨-, hsound, -⟩ := hundoable
  have hkept : ∀ record ∈ entry.undo.kept,
      (rows.undo entry.undo).row record.id = some record.fields := by
    intro record hrecord
    obtain ⟨time, undo⟩ := entry
    cases undo with
    | delete id => cases hrecord
    | update oldRecord =>
        obtain rfl := Option.some.inj hrecord
        exact Rows.set_self _
    | insert record =>
        obtain rfl := Option.some.inj hrecord
        exact Rows.set_self _
  refine ⟨fun record hrecord => ⟨fun hnil => ?_, ?_⟩, fun record hrecord => ⟨?_, ?_⟩⟩
  · have hlength := (hsound.allowed _ _ (hkept record hrecord)).length
    rw [hnil] at hlength
    exact hschema.columns (List.length_eq_zero_iff.1 hlength.symm)
  · exact storedBytes_length_lt (hsound.size _ _ (hkept record hrecord))
  · exact (hsound.allowed _ _ (hkept record hrecord)).length
  · exact hsound.known _ _ (hkept record hrecord)

/-- The loop undoes the steps that are not from before the time. The induction is on the stack, which
    `Undoable` follows. -/
theorem run_revertTracks {time : List UInt8} {rounds : Nat} (h : table.Represents rows)
    (hjournal : table.journal.Represents stack)
    (hundoable : Rows.Undoable table.schema table.strings.toInterner stack rows)
    (hrounds : stack.length < rounds) :
    ∃ table', revertTracks time rounds table = .ok () table' ∧
      table'.Represents (rows.undoAll (stack.takeWhile fun entry => time ≤ entry.time.bytes)) ∧
      table'.journal.Represents (stack.dropWhile fun entry => time ≤ entry.time.bytes) ∧
      Rows.Undoable table'.schema table'.strings.toInterner
        (stack.dropWhile fun entry => time ≤ entry.time.bytes)
        (rows.undoAll (stack.takeWhile fun entry => time ≤ entry.time.bytes)) ∧
      table'.schema.columns = table.schema.columns ∧ table'.strings = table.strings := by
  obtain ⟨rounds, rfl⟩ : ∃ n, rounds = n + 1 := ⟨rounds - 1, by omega⟩
  induction stack generalizing table rows rounds with
  | nil =>
      obtain ⟨cut, hholds⟩ := hjournal
      refine ⟨table, ?_, h, ⟨cut, hholds⟩, trivial, rfl, rfl⟩
      rw [revertTracks, run_get_bind, bind_ok (run_onJournal (Journal.run_revertLast_empty hholds))]
      rfl
  | cons entry stack ih =>
      obtain ⟨rounds, rfl⟩ : ∃ n, rounds = n + 1 := ⟨rounds - 1, by rw [List.length_cons] at hrounds; omega⟩
      obtain ⟨hfits, hread⟩ := fits_of_undoable h.schema hundoable
      obtain ⟨cut, hholds⟩ := hjournal
      rw [revertTracks, run_get_bind]
      by_cases htime : time ≤ entry.time.bytes
      · obtain ⟨happlies, hsound, hstack⟩ := hundoable
        obtain ⟨journal, hrun, hholds'⟩ := Entry.run_revertLast hholds hfits hread htime
        have hne : ¬ entry.result.time = [] := by
          intro hnil
          have hlength := entry.time.length
          rw [show entry.time.bytes = [] from hnil] at hlength
          cases hlength
        obtain ⟨table', htrack, hrep, hcolumns, hsame, hstrings⟩ :=
          run_revertTrack (h.withJournal journal) happlies hsound
        obtain ⟨table'', hloop, hrep', hjournal', hundoable', hcolumns', hstrings'⟩ := ih hrep
          (hsame ▸ ⟨_, hholds'⟩) (hstrings ▸ hstack.of_columns hcolumns) rounds (by rw [List.length_cons] at hrounds; omega)
        rw [List.takeWhile_cons_of_pos (by simpa using htime),
          List.dropWhile_cons_of_pos (by simpa using htime)]
        refine ⟨table'', ?_, hrep', hjournal', hundoable', hcolumns'.trans hcolumns,
          hstrings'.trans hstrings⟩
        rw [bind_ok (run_onJournal hrun), if_neg hne, bind_ok htrack]
        exact hloop
      · obtain ⟨journal, hrun, hholds'⟩ := Entry.run_revertLast_of_lt hholds hfits htime
        rw [List.takeWhile_cons_of_neg (by simpa using htime),
          List.dropWhile_cons_of_neg (by simpa using htime)]
        refine ⟨{ table with journal }, ?_, h.withJournal journal, ⟨cut, hholds'⟩, hundoable, rfl, rfl⟩
        rw [bind_ok (run_onJournal hrun)]
        rfl

/-- Every track takes some bytes. -/
theorem length_le_stackBytes (stack : List Entry) : stack.length ≤ (stackBytes stack).length := by
  induction stack with
  | nil => exact Nat.le_refl _
  | cons entry stack ih =>
      have htime := entry.time.length
      rw [stackBytes, List.length_append, Entry.bytes_eq, List.length_append, List.length_cons, htime,
        Track.timeLen]
      omega

/-- `revert` undoes the steps that are not from before the time. -/
theorem Tracks.run_revert (h : table.Tracks rows stack) (time : List UInt8) :
    ∃ table', revert time table = .ok () table' ∧
      table'.Tracks (rows.undoAll (stack.takeWhile fun entry => time ≤ entry.time.bytes))
        (stack.dropWhile fun entry => time ≤ entry.time.bytes) ∧
      table'.schema.columns = table.schema.columns ∧ table'.strings = table.strings := by
  have hrounds : stack.length < table.journal.pos.toNat + 1 := by
    obtain ⟨cut, hholds⟩ := h.journal
    rw [hholds.pos, Int.toNat_natCast]
    exact Nat.lt_succ_of_le (length_le_stackBytes stack)
  obtain ⟨table', hloop, hrep, hjournal, hundoable, hcolumns, hstrings⟩ :=
    run_revertTracks h.toRepresents h.journal h.undoable hrounds
  refine ⟨{ table' with schemaFile := table'.schema }, ?_, ⟨⟨hrep.schema, hrep.count, hrep.strings,
    hrep.sound, hrep.stored, hrep.absent, hrep.indexes⟩, rfl, hjournal, hundoable⟩, hcolumns, hstrings⟩
  rw [revert, run_get_bind, bind_ok hloop]
  exact run_saveSchema hrep.schema.writable

end Table

end QuasarDB.Storage
