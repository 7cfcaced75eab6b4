import QuasarDB.Storage.Proofs.Indexes
import QuasarDB.Storage.Proofs.Pages

set_option autoImplicit false

/-! # How a table stands for its rows

Each row has an address, where its cell is, and the indexes lead from the values of their columns to these
addresses. A row that comes, goes or changes takes its cell, its address and its index entries along. -/

namespace QuasarDB.Storage

open Prog

namespace Table

variable {α : Type} {table table' : Table} {rows : Rows} {id : UInt32} {fields : List Value}
  {address : RecordAddress}

/-! ## Values of columns -/

theorem checkType_ok {column : Column} {value : Value} (h : checkType column value = .ok ()) :
    (column.isNotNull = true → value ≠ .null) ∧
      (value ≠ .null → IndexSet.HasType value column.columnType) := by
  unfold checkType at h
  split_ifs at h with hnull hint hstring
  refine ⟨fun hnotNull hvalue => hnull (by simp [hnotNull, hvalue, Value.isNull]), fun hvalue => ?_⟩
  have hisNull : value.isNull = false := by simpa [Value.isNull] using hvalue
  unfold IndexSet.HasType
  cases htype : column.columnType with
  | int =>
      rw [hisNull, Column.isInt, htype] at hint
      simpa using hint
  | string =>
      rw [hisNull, Column.isString, htype] at hstring
      simpa using hstring

theorem typed_of_allows {schema : Schema} (h : schema.Allows fields) :
    IndexSet.Typed schema fields := by
  intro i column value hcolumn hfield hvalue
  exact (checkType_ok (h.types i column value hcolumn hfield)).2 hvalue

/-! ## States -/

/-- The index entries of the rows, which stand at these addresses. -/
def entriesOf (rows : Rows) (addresses : AList fun _ : UInt32 => RecordAddress) (i : Nat)
    (value : Value) (address : RecordAddress) : Prop :=
  value ≠ .null ∧ ∃ id fields, rows.row id = some fields ∧ addresses.lookup id = some address ∧
    fields[i]? = some value

/-- The table has these rows. -/
structure Represents (table : Table) (rows : Rows) : Prop where
  schema : table.schema.WellFormed
  count : table.schema.recordIdCount.toNat = rows.count
  strings : table.strings.Closed
  sound : rows.Sound table.schema table.strings.toInterner
  stored : ∀ id fields, rows.row id = some fields →
    ∃ address, table.idToAddr.lookup id = some address ∧ table.StoredAt address id fields
  absent : ∀ id, rows.row id = none → table.idToAddr.lookup id = none
  indexes : table.indexes.Holds table.schema (entriesOf rows table.idToAddr)

/-- What does not belong to the row of the id is the same. -/
structure ChangesRow (table : Table) (id : UInt32) (table' : Table) : Prop where
  schema : table'.schema = table.schema
  schemaFile : table'.schemaFile = table.schemaFile
  journal : table'.journal = table.journal
  strings : table'.strings = table.strings
  addresses : ∀ other, other ≠ id → table'.idToAddr.lookup other = table.idToAddr.lookup other

theorem run_onIndexes {x : Prog IndexSet α} {a : α} {indexes : IndexSet}
    (h : x table.indexes = .ok a indexes) : onIndexes x table = .ok a { table with indexes } := by
  rw [onIndexes, run_on, h]

theorem run_onJournal {x : Prog Journal α} {a : α} {journal : Journal}
    (h : x table.journal = .ok a journal) : onJournal x table = .ok a { table with journal } := by
  rw [onJournal, run_on, h]

theorem run_onStrings {x : Prog StringStore α} {a : α} {strings : StringStore}
    (h : x table.strings = .ok a strings) : onStrings x table = .ok a { table with strings } := by
  rw [onStrings, run_on, h]

theorem run_getAddress {σ : Type} {record : Record} (h : record.address = some address) :
    (record.getAddress : Prog σ RecordAddress) = pure address := by
  rw [Record.getAddress, h]

namespace Represents

variable (h : table.Represents rows)
include h

/-- The rows can be read. -/
theorem reads (hrow : rows.row id = some fields) : table.Reads fields where
  length := (h.sound.allowed id fields hrow).length
  known := h.sound.known id fields hrow
  size := h.sound.size id fields hrow

theorem storedAt (hrow : rows.row id = some fields) (haddress : table.idToAddr.lookup id = some address) :
    table.StoredAt address id fields := by
  obtain ⟨address', hlookup, hstored⟩ := h.stored id fields hrow
  obtain rfl := Option.some.inj (hlookup.symm.trans haddress)
  exact hstored

/-- An address is that of a row. -/
theorem exists_row (haddress : table.idToAddr.lookup id = some address) :
    ∃ fields, rows.row id = some fields := by
  cases hrow : rows.row id with
  | none =>
      rw [h.absent id hrow] at haddress
      cases haddress
  | some fields => exact ⟨fields, rfl⟩

/-- Different rows have different addresses. -/
theorem address_inj {other : UInt32} (hid : table.idToAddr.lookup id = some address)
    (hother : table.idToAddr.lookup other = some address) : id = other := by
  have hcell : ∀ {id}, table.idToAddr.lookup id = some address →
      ∃ fields, cellAt table.pages address = some (cellOf id fields) := by
    intro id hlookup
    obtain ⟨fields, hrow⟩ := h.exists_row hlookup
    exact ⟨fields, h.storedAt hrow hlookup⟩
  obtain ⟨fields, hfields⟩ := hcell hid
  obtain ⟨fields', hfields'⟩ := hcell hother
  exact congrArg Cell.recordId (Option.some.inj (hfields.symm.trans hfields'))

/-- More strings, as when a literal is looked at. -/
theorem withStrings {strings : StringStore} (hextends : table.strings.Extends strings)
    (hclosed : strings.Closed) : Represents { table with strings } rows :=
  { h with
    strings := hclosed
    sound := h.sound.mono fun _ hknows => hextends.knows hknows }

theorem withJournal (journal : Journal) : Represents { table with journal } rows := { h with }

/-! ## Another row under an id -/

/-- A change of the row of one id, which leaves the cells of the other rows where they are. -/
theorem change {value : Option (List Value)} (hchanges : table.ChangesRow id table')
    (hsound : (rows.set id value).Sound table.schema table.strings.toInterner)
    (hcells : ∀ other address, other ≠ id → table.idToAddr.lookup other = some address →
      cellAt table'.pages address = cellAt table.pages address)
    (hnone : value = none → table'.idToAddr.lookup id = none)
    (hsome : ∀ fields, value = some fields →
      ∃ address, table'.idToAddr.lookup id = some address ∧ table'.StoredAt address id fields)
    (hindexes : table'.indexes.Holds table.schema (entriesOf (rows.set id value) table'.idToAddr)) :
    table'.Represents (rows.set id value) where
  schema := hchanges.schema ▸ h.schema
  count := hchanges.schema ▸ h.count
  strings := hchanges.strings ▸ h.strings
  sound := by
    rw [hchanges.schema, hchanges.strings]
    exact hsound
  stored := fun other fields hrow => by
    by_cases hother : other = id
    · subst hother
      rw [Rows.set_self] at hrow
      exact hsome fields hrow
    · rw [Rows.set_other _ hother] at hrow
      obtain ⟨address, hlookup, hstored⟩ := h.stored other fields hrow
      refine ⟨address, (hchanges.addresses other hother).trans hlookup, ?_⟩
      exact (hcells other address hother hlookup).trans hstored
  absent := fun other hrow => by
    by_cases hother : other = id
    · subst hother
      rw [Rows.set_self] at hrow
      exact hnone hrow
    · rw [Rows.set_other _ hother] at hrow
      exact (hchanges.addresses other hother).trans (h.absent other hrow)
  indexes := hchanges.schema ▸ hindexes

omit h in
/-- The entries of the other rows, and those of the row itself. -/
theorem entriesOf_set {value : Option (List Value)} {addresses addresses' : AList fun _ : UInt32 => RecordAddress}
    (haddresses : ∀ other, other ≠ id → addresses'.lookup other = addresses.lookup other)
    {i : Nat} {v : Value} {a : RecordAddress} :
    entriesOf (rows.set id value) addresses' i v a ↔
      (v ≠ .null ∧ ∃ fields, value = some fields ∧ addresses'.lookup id = some a ∧ fields[i]? = some v) ∨
        entriesOf (rows.set id none) addresses i v a := by
  unfold entriesOf
  constructor
  · rintro ⟨hv, other, fields, hrow, haddress, hfield⟩
    by_cases hother : other = id
    · subst hother
      rw [Rows.set_self] at hrow
      exact .inl ⟨hv, fields, hrow, haddress, hfield⟩
    · rw [Rows.set_other _ hother] at hrow
      rw [haddresses other hother] at haddress
      exact .inr ⟨hv, other, fields, (Rows.set_other none hother).trans hrow, haddress, hfield⟩
  · rintro (⟨hv, fields, hvalue, haddress, hfield⟩ | ⟨hv, other, fields, hrow, haddress, hfield⟩)
    · exact ⟨hv, id, fields, (Rows.set_self value).trans hvalue, haddress, hfield⟩
    · have hother : other ≠ id := by
        rintro rfl
        rw [Rows.set_self] at hrow
        cases hrow
      rw [Rows.set_other none hother] at hrow
      exact ⟨hv, other, fields, (Rows.set_other value hother).trans hrow,
        (haddresses other hother).trans haddress, hfield⟩

omit h in
/-- A row that is admitted shares no entry with the others. -/
theorem not_entriesOf_erase {schema : Schema} {addresses : AList fun _ : UInt32 => RecordAddress}
    {i : Nat} {column : Column} {v : Value} {a : RecordAddress} (hadmits : rows.Admits schema id fields)
    (hcolumn : schema.columns[i]? = some column) (hindexed : column.isIndexed = true)
    (hfield : fields[i]? = some v) : ¬ entriesOf (rows.set id none) addresses i v a := by
  rintro ⟨-, other, row, hrow, -, hvalue⟩
  by_cases hother : other = id
  · subst hother
    rw [Rows.set_self] at hrow
    cases hrow
  · rw [Rows.set_other none hother] at hrow
    exact hother (hadmits i column v hcolumn hindexed hfield other row hrow hvalue)

omit h in
/-- The entries with a row under an id are those of its values, and those of the other rows. -/
theorem entriesOf_set_some {schema : Schema} {addresses addresses' : AList fun _ : UInt32 => RecordAddress}
    (haddresses : ∀ other, other ≠ id → addresses'.lookup other = addresses.lookup other)
    (haddress : addresses'.lookup id = some address) (hadmits : rows.Admits schema id fields)
    {i : Nat} {column : Column} (hcolumn : schema.columns[i]? = some column)
    (hindexed : column.isIndexed = true) (v : Value) (a : RecordAddress) :
    entriesOf (rows.set id (some fields)) addresses' i v a ↔
      if fields[i]? = some v ∧ v ≠ .null then a = address
      else entriesOf (rows.set id none) addresses i v a := by
  rw [entriesOf_set haddresses, haddress]
  by_cases hfield : fields[i]? = some v ∧ v ≠ .null
  · have hothers := @not_entriesOf_erase rows id fields schema addresses i column v a hadmits hcolumn
      hindexed hfield.1
    rw [if_pos hfield]
    simp [hfield, hothers, eq_comm]
  · rw [if_neg hfield]
    refine or_iff_right ?_
    rintro ⟨hv, row, hrow, -, hvalue⟩
    obtain rfl := Option.some.inj hrow
    exact hfield ⟨hvalue, hv⟩

/-- The entries of the other rows. -/
theorem entriesOf_erase (hrow : rows.row id = some fields) {i : Nat} {column : Column}
    (hcolumn : table.schema.columns[i]? = some column) (hindexed : column.isIndexed = true)
    (v : Value) (a : RecordAddress) :
    entriesOf (rows.set id none) table.idToAddr i v a ↔
      ¬ (fields[i]? = some v ∧ v ≠ .null) ∧ entriesOf rows table.idToAddr i v a := by
  obtain ⟨address, haddress, -⟩ := h.stored id fields hrow
  have hadmits := h.sound.unique id fields hrow
  have hentries := entriesOf_set_some (fun _ _ => rfl) haddress hadmits hcolumn hindexed v a
  rw [Rows.set_of_eq hrow] at hentries
  by_cases hfield : fields[i]? = some v ∧ v ≠ .null
  · have hothers := @not_entriesOf_erase rows id fields table.schema table.idToAddr i column v a hadmits
      hcolumn hindexed hfield.1
    simp [hfield, hothers]
  · rw [if_neg hfield] at hentries
    exact hentries.symm.trans (and_iff_right hfield).symm

end Represents

/-- Sound rows admit each of them. -/
theorem admits_of_sound {schema : Schema} {interner : Interner}
    (hsound : (rows.set id (some fields)).Sound schema interner) : rows.Admits schema id fields := by
  intro i column value hcolumn hindexed hvalue other row hother hvalue'
  by_cases hne : other = id
  · exact hne
  · exact hsound.unique id fields (Rows.set_self _) i column value hcolumn hindexed hvalue other row
      ((Rows.set_other _ hne).trans hother) hvalue'

/-- A record that comes to the table. -/
theorem run_placeRecord {record : Record} (h : table.Represents rows)
    (hrow : rows.row record.id = none)
    (hsound : (rows.set record.id (some record.fields)).Sound table.schema table.strings.toInterner) :
    ∃ address table', placeRecord record table = .ok { record with address := some address } table' ∧
      table.ChangesRow record.id table' ∧
      table'.Represents (rows.set record.id (some record.fields)) := by
  have hallows := hsound.allowed record.id record.fields (Rows.set_self _)
  have hsize := hsound.size record.id record.fields (Rows.set_self _)
  obtain ⟨address, pages, hwrite, hfree, hpages⟩ :=
    run_writeRecordToDisk table record 0 hsize
  obtain ⟨indexes, hinsert, hindexes⟩ := @IndexSet.run_insert _ _ _
    { record with address := some address } _ h.schema.names hallows.length (typed_of_allows hallows) rfl
    h.indexes
  have hinsert : onIndexes (IndexSet.insert table.schema { record with address := some address })
      { table with pages } = .ok () { table with pages, indexes } := run_onIndexes hinsert
  have haddresses : ∀ other, other ≠ record.id →
      (table.idToAddr.insert record.id address).lookup other = table.idToAddr.lookup other :=
    fun other hother => AList.lookup_insert_ne hother
  refine ⟨address, { table with pages, indexes, idToAddr := table.idToAddr.insert record.id address },
    ?_, ⟨rfl, rfl, rfl, rfl, haddresses⟩, ?_⟩
  · rw [placeRecord, bind_ok hwrite, run_get_bind, bind_ok hinsert, run_getAddress rfl, run_pure_bind]
    rfl
  · refine h.change ⟨rfl, rfl, rfl, rfl, haddresses⟩ hsound (fun other address' _ hlookup => ?_)
      (fun hnone => nomatch hnone) (fun fields hfields => ?_)
      (hindexes.congr fun i column hcolumn hindexed v a => ?_)
    · -- the cell of another row is not at the address that was free
      rw [hpages, if_neg]
      rintro rfl
      obtain ⟨fields, hother⟩ := h.exists_row hlookup
      rw [h.storedAt hother hlookup] at hfree
      cases hfree
    · obtain rfl := Option.some.inj hfields
      exact ⟨address, AList.lookup_insert _, (hpages address).trans (if_pos rfl)⟩
    · rw [Represents.entriesOf_set_some haddresses (AList.lookup_insert _) (admits_of_sound hsound)
        hcolumn hindexed, Rows.set_of_eq hrow]

/-- A record that leaves the table. -/
theorem run_removeRecord {record : Record} (h : table.Represents rows)
    (hrow : rows.row record.id = some record.fields)
    (haddress : table.idToAddr.lookup record.id = some address) :
    ∃ table', removeRecord address record table = .ok () table' ∧ table.ChangesRow record.id table' ∧
      table'.Represents (rows.set record.id none) := by
  have hallows := h.sound.allowed record.id record.fields hrow
  obtain ⟨pages, hdelete, hpages⟩ := run_deleteCell (h.storedAt hrow haddress)
  obtain ⟨indexes, hremove, hindexes⟩ := IndexSet.run_remove h.schema.names hallows.length
    (typed_of_allows hallows) h.indexes
  have hremove : onIndexes (IndexSet.remove table.schema record) { table with pages } =
      .ok () { table with pages, indexes } := run_onIndexes hremove
  have haddresses : ∀ other, other ≠ record.id →
      (table.idToAddr.erase record.id).lookup other = table.idToAddr.lookup other :=
    fun other hother => AList.lookup_erase_ne hother
  refine ⟨{ table with pages, indexes, idToAddr := table.idToAddr.erase record.id }, ?_,
    ⟨rfl, rfl, rfl, rfl, haddresses⟩, ?_⟩
  · rw [removeRecord, bind_ok hdelete, run_get_bind, bind_ok hremove]
    rfl
  · refine h.change ⟨rfl, rfl, rfl, rfl, haddresses⟩ h.sound.erase
      (fun other address' hother hlookup => ?_) (fun _ => AList.lookup_erase _ _)
      (fun fields hfields => nomatch hfields) (hindexes.congr fun i column hcolumn hindexed v a => ?_)
    · rw [hpages, if_neg]
      rintro rfl
      exact hother (h.address_inj hlookup haddress)
    · rw [← h.entriesOf_erase hrow hcolumn hindexed, Represents.entriesOf_set haddresses]
      refine or_iff_right ?_
      rintro ⟨-, fields, hfields, -⟩
      cases hfields

theorem run_updateAddress {newAddress : RecordAddress} (h : table.idToAddr.lookup id = some address) :
    updateAddress id newAddress table =
      .ok () { table with idToAddr := table.idToAddr.insert id newAddress } := by
  have hkey : id ∈ table.idToAddr.keys := AList.lookup_isSome.1 (by rw [h]; rfl)
  have hempty : table.idToAddr.keys.isEmpty = false := by
    rw [List.isEmpty_eq_false_iff]
    exact List.ne_nil_of_mem hkey
  rw [updateAddress, run_get_bind, hempty, throwIf_false, run_pure_bind, h]
  rfl

/-- A record that takes the place of another one, at another address. -/
theorem run_replaceRecord {record oldRecord : Record} {oldAddress : RecordAddress}
    (h : table.Represents rows) (hrow : rows.row record.id = some oldRecord.fields)
    (haddress : table.idToAddr.lookup record.id = some oldAddress)
    (hold : oldRecord.address = some oldAddress)
    (hsound : (rows.set record.id (some record.fields)).Sound table.schema table.strings.toInterner) :
    ∃ address table', replaceRecord oldAddress oldRecord record table = .ok address table' ∧
      table.ChangesRow record.id table' ∧
      table'.Represents (rows.set record.id (some record.fields)) := by
  have hallows := hsound.allowed record.id record.fields (Rows.set_self _)
  have holdAllows := h.sound.allowed record.id oldRecord.fields hrow
  have hsize := hsound.size record.id record.fields (Rows.set_self _)
  obtain ⟨pages, hdelete, hpages⟩ := run_deleteCell (h.storedAt hrow haddress)
  obtain ⟨address, pages', hwrite, hfree, hpages'⟩ := run_writeRecordToDisk
    { table with pages } record oldAddress.pageIndex hsize
  -- the cell of the old record is still there, so the new one is elsewhere
  have hne : oldAddress ≠ address := by
    rintro rfl
    rw [hpages, if_pos rfl] at hfree
    cases hfree
  obtain ⟨indexes, hupdate, hindexes⟩ := @IndexSet.run_update _ _ _ oldRecord
    { record with address := some address } _ _ h.schema.names holdAllows.length hallows.length hne hold
    rfl (typed_of_allows holdAllows) (typed_of_allows hallows) h.indexes
  have hupdate : onIndexes
      (IndexSet.update table.schema oldRecord { record with address := some address })
      { table with pages := pages' } = .ok () { table with pages := pages', indexes } :=
    run_onIndexes hupdate
  have hmove : updateAddress record.id address { table with pages := pages', indexes } =
      .ok () { table with pages := pages', indexes, idToAddr := table.idToAddr.insert record.id address } :=
    run_updateAddress haddress
  have haddresses : ∀ other, other ≠ record.id →
      (table.idToAddr.insert record.id address).lookup other = table.idToAddr.lookup other :=
    fun other hother => AList.lookup_insert_ne hother
  refine ⟨address, { table with pages := pages', indexes, idToAddr := table.idToAddr.insert record.id address },
    ?_, ⟨rfl, rfl, rfl, rfl, haddresses⟩, ?_⟩
  · rw [replaceRecord, bind_ok hdelete, bind_ok hwrite, run_get_bind, bind_ok hupdate,
      run_getAddress rfl, run_pure_bind, bind_ok hmove]
    rfl
  · refine h.change ⟨rfl, rfl, rfl, rfl, haddresses⟩ hsound (fun other address' hother hlookup => ?_)
      (fun hnone => nomatch hnone) (fun fields hfields => ?_)
      (hindexes.congr fun i column hcolumn hindexed v a => ?_)
    · have hold' : address' ≠ oldAddress := by
        rintro rfl
        exact hother (h.address_inj hlookup haddress)
      obtain ⟨fields, hrow'⟩ := h.exists_row hlookup
      have hnew : address' ≠ address := by
        rintro rfl
        rw [hpages, if_neg hold', h.storedAt hrow' hlookup] at hfree
        cases hfree
      rw [hpages', if_neg hnew, hpages, if_neg hold']
    · obtain rfl := Option.some.inj hfields
      exact ⟨address, AList.lookup_insert _, (hpages' address).trans (if_pos rfl)⟩
    · rw [Represents.entriesOf_set_some haddresses (AList.lookup_insert _) (admits_of_sound hsound)
        hcolumn hindexed, h.entriesOf_erase hrow hcolumn hindexed]

end Table

end QuasarDB.Storage
