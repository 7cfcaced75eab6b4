import QuasarDB.Storage.Proofs.TableState

set_option autoImplicit false

/-! # Reading the rows

The records of a table are its rows in the order of their ids, and what an index finds are those of them
that have the value. -/

namespace QuasarDB.Storage

open Prog

/-- Whether `Find` looks at the index of the column. -/
def Column.looksUp (column : Column) (value : Value) : Bool :=
  column.isIndexed && !value.isNull &&
    !((column.isInt && !value.isInt) || (column.isString && !value.isString))

theorem Column.hasType_of_looksUp {column : Column} {value : Value} (h : column.looksUp value = true) :
    column.isIndexed = true ∧ value ≠ .null ∧ IndexSet.HasType value column.columnType := by
  simp only [looksUp, Bool.and_eq_true, Bool.not_eq_true', Bool.or_eq_false_iff] at h
  obtain ⟨⟨hindexed, hnull⟩, hint, hstring⟩ := h
  refine ⟨hindexed, by simpa [Value.isNull] using hnull, ?_⟩
  unfold IndexSet.HasType
  cases htype : column.columnType with
  | int => simpa [isInt, htype] using hint
  | string => simpa [isString, htype] using hstring

namespace Table

variable {table : Table} {rows : Rows}

/-- The records of the rows, in the order of their ids. -/
def recordsOf (table : Table) (rows : Rows) : List Record :=
  rows.list.map fun row => { id := row.1, fields := row.2, address := table.idToAddr.lookup row.1 }

/-- The record is one that was just read. -/
structure IsRecord (table : Table) (rows : Rows) (record : Record) : Prop where
  row : rows.row record.id = some record.fields
  address : record.address = table.idToAddr.lookup record.id

namespace Represents

variable (h : table.Represents rows)
include h

theorem count_lt : rows.count < 2 ^ 32 := by
  rw [← h.count]
  exact UInt32.toNat_lt _

theorem mem_list {id : UInt32} {fields : List Value} :
    (id, fields) ∈ rows.list ↔ rows.row id = some fields := by
  rw [Rows.list, List.mem_filterMap]
  constructor
  · rintro ⟨other, -, hmap⟩
    obtain ⟨row, hrow, heq⟩ := Option.map_eq_some_iff.1 hmap
    obtain ⟨rfl, rfl⟩ := Prod.mk.inj heq
    exact hrow
  · intro hrow
    exact ⟨id, (Rows.mem_ids h.count_lt.le).2 (h.sound.given id fields hrow),
      Option.map_eq_some_iff.2 ⟨fields, hrow, rfl⟩⟩

theorem mem_recordsOf {record : Record} :
    record ∈ table.recordsOf rows ↔ table.IsRecord rows record := by
  rw [recordsOf, List.mem_map]
  constructor
  · rintro ⟨⟨id, fields⟩, hrow, rfl⟩
    exact ⟨h.mem_list.1 hrow, rfl⟩
  · rintro ⟨hrow, haddress⟩
    refine ⟨(record.id, record.fields), h.mem_list.2 hrow, ?_⟩
    rw [← haddress]

omit h in
theorem ids_recordsOf :
    (table.recordsOf rows).map Record.id = rows.ids.filter fun id => (rows.row id).isSome := by
  rw [recordsOf, List.map_map, Rows.list, List.map_filterMap]
  rw [← List.filterMap_eq_filter]
  refine List.filterMap_congr fun id _ => ?_
  cases hrow : rows.row id <;> simp [hrow, Option.guard]

theorem nodup_ids_recordsOf : ((table.recordsOf rows).map Record.id).Nodup := by
  rw [ids_recordsOf]
  exact (Rows.nodup_ids h.count_lt.le).filter _

theorem run_readIds (ids : List UInt32) :
    readIds ids table = .ok (ids.filterMap fun id => (rows.row id).map fun fields =>
      { id, fields, address := table.idToAddr.lookup id }) table := by
  induction ids with
  | nil => rfl
  | cons id ids ih =>
      rw [readIds, run_get_bind, List.filterMap_cons]
      cases hrow : rows.row id with
      | none =>
          rw [h.absent id hrow]
          exact ih
      | some fields =>
          obtain ⟨address, hlookup, hstored⟩ := h.stored id fields hrow
          rw [hlookup]
          refine (bind_ok (run_readRecord hstored (h.reads hrow))).trans ?_
          dsimp only
          rw [bind_ok ih]
          rfl

/-- `records` gives the rows. -/
theorem run_records : records table = .ok (table.recordsOf rows) table := by
  have hrun := h.run_readIds rows.ids
  rw [records, run_get_bind, h.count]
  refine hrun.trans ?_
  rw [recordsOf, Rows.list, List.map_filterMap]
  congr 2
  funext id
  cases rows.row id <;> rfl

omit h in
theorem run_find_of_none {columnName : String} {value : Value}
    (hcolumn : table.schema.columnIndex columnName = none) :
    findByIndex columnName value table =
      .error (.exception ("Unknown column: " ++ columnName)) table := by
  have hfind : table.schema.columns.find? (fun column => column.name == columnName) = none := by
    rw [List.find?_eq_bind_findIdx?_getElem?]
    unfold Schema.columnIndex at hcolumn
    rw [hcolumn]
    rfl
  rw [findByIndex, run_get_bind, IndexSet.find, hfind]
  rfl

/-- No record has a value without an index entry. -/
theorem filter_recordsOf_of_absent {i : Nat} {value : Value}
    (habsent : ∀ address, ¬ entriesOf rows table.idToAddr i value address) (hvalue : value ≠ .null) :
    (table.recordsOf rows).filter (fun record => record.fields[i]? = some value) = [] := by
  rw [List.filter_eq_nil_iff]
  intro record hrecord hfield
  obtain ⟨hrow, -⟩ := h.mem_recordsOf.1 hrecord
  obtain ⟨address, haddress, -⟩ := h.stored _ _ hrow
  exact habsent address
    ⟨hvalue, record.id, record.fields, hrow, haddress, by simpa using hfield⟩

/-- One record has the value of an index entry. -/
theorem filter_recordsOf_of_row {i : Nat} {column : Column} {value : Value} {id : UInt32}
    {fields : List Value} {address : RecordAddress} (hcolumn : table.schema.columns[i]? = some column)
    (hindexed : column.isIndexed = true) (hrow : rows.row id = some fields)
    (haddress : table.idToAddr.lookup id = some address) (hfield : fields[i]? = some value) :
    (table.recordsOf rows).filter (fun record => record.fields[i]? = some value) =
      [{ id, fields, address := some address }] := by
  refine List.perm_singleton.1 ((List.perm_ext_iff_of_nodup ?_ (List.nodup_singleton _)).2 ?_)
  · exact (List.Nodup.of_map Record.id h.nodup_ids_recordsOf).filter _
  · intro record
    rw [List.mem_filter, h.mem_recordsOf, List.mem_singleton]
    constructor
    · rintro ⟨⟨hrow', haddress'⟩, hfield'⟩
      have hid := h.sound.unique id fields hrow i column value hcolumn hindexed hfield record.id
        record.fields hrow' (by simpa using hfield')
      obtain ⟨id', fields', address'⟩ := record
      dsimp only at hid hrow' haddress'
      subst hid
      obtain rfl := Option.some.inj (hrow.symm.trans hrow')
      rw [haddress', haddress]
    · rintro rfl
      exact ⟨⟨hrow, haddress.symm⟩, by simpa using hfield⟩

/-- The entry of an index leads to the records with the value. -/
theorem run_readMatching_entry {i : Nat} {column : Column} {value : Value} {index : Index}
    (hcolumn : table.schema.columns[i]? = some column) (hindexed : column.isIndexed = true)
    (hvalue : value ≠ .null)
    (hentries : ∀ address, index.entries.lookup value = some address ↔
      entriesOf rows table.idToAddr i value address) :
    readMatching i value (index.entries.lookup value).toList table =
      .ok ((table.recordsOf rows).filter fun record => record.fields[i]? = some value) table := by
  cases hentry : index.entries.lookup value with
  | none =>
      have habsent : ∀ address, ¬ entriesOf rows table.idToAddr i value address := by
        intro address hfound
        rw [(hentries address).2 hfound] at hentry
        cases hentry
      rw [h.filter_recordsOf_of_absent habsent hvalue]
      rfl
  | some address =>
      obtain ⟨-, id, fields, hrow, haddress, hfield⟩ := (hentries address).1 hentry
      rw [h.filter_recordsOf_of_row hcolumn hindexed hrow haddress hfield]
      simp only [Option.toList_some, readMatching]
      rw [bind_ok (run_readRecord (h.storedAt hrow haddress) (h.reads hrow))]
      simp [Option.filter, hfield]

omit h in
/-- An index that is not looked at finds nothing. -/
theorem run_find_of_not_looksUp {column : Column} {columnName : String} {value : Value}
    (hfind : table.schema.columns.find? (fun column => column.name == columnName) = some column)
    (hlooks : ¬ column.looksUp value = true) :
    findByIndex columnName value table = .ok none table := by
  rw [findByIndex, run_get_bind, IndexSet.find, hfind]
  unfold Column.looksUp at hlooks
  by_cases hskip : (!column.isIndexed || value.isNull) = true
  · dsimp only
    rw [if_pos hskip]
    rfl
  · dsimp only
    rw [if_neg hskip]
    have htype : ((column.isInt && !value.isInt) || (column.isString && !value.isString)) = true := by
      by_contra htype
      rw [Bool.not_eq_true, Bool.or_eq_false_iff, Bool.not_eq_false'] at hskip
      rw [Bool.not_eq_true] at htype
      exact hlooks (by rw [hskip.1, hskip.2, htype]; rfl)
    rw [if_pos htype]
    rfl

/-- What an index finds are the records with the value. -/
theorem run_findByIndex {columnName : String} {value : Value} {i : Nat} {column : Column}
    (hindex : table.schema.columnIndex columnName = some i)
    (hcolumn : table.schema.columns[i]? = some column) :
    findByIndex columnName value table = .ok
      (if column.looksUp value then
        some ((table.recordsOf rows).filter fun record => record.fields[i]? = some value)
      else none) table := by
  have hfind : table.schema.columns.find? (fun column => column.name == columnName) = some column := by
    rw [List.find?_eq_bind_findIdx?_getElem?]
    unfold Schema.columnIndex at hindex
    rw [hindex]
    exact hcolumn
  by_cases hlooks : column.looksUp value = true
  · obtain ⟨hindexed, hvalue, htype⟩ := Column.hasType_of_looksUp hlooks
    have hname : column.name = columnName := by simpa using List.find?_some hfind
    obtain ⟨index, hlookup, hhas⟩ := h.indexes i column hcolumn hindexed
    rw [hname] at hlookup
    have hsearch : index.search value = .ok (index.entries.lookup value).toList := by
      rw [Index.search, IndexSet.key_of_hasType (by rwa [hhas.keyType])]
      rfl
    have hfound : (do
          let index ← table.indexes.indexOf columnName
          return some (← Prog.ofExcept (index.search value)) : Prog Table _) table =
        .ok (some (index.entries.lookup value).toList) table := by
      rw [bind_ok (IndexSet.run_indexOf hlookup table), hsearch]
      rfl
    rw [if_pos hlooks]
    simp only [Column.looksUp, Bool.and_eq_true, Bool.not_eq_true'] at hlooks
    rw [findByIndex, run_get_bind, IndexSet.find, hfind, hindex]
    dsimp only [Option.getD_some]
    rw [if_neg (by simp [hlooks.1.1, hlooks.1.2]), if_neg (by rw [hlooks.2]; simp), bind_ok hfound]
    dsimp only
    rw [bind_ok (h.run_readMatching_entry hcolumn hindexed hvalue (hhas.entries value))]
    rfl
  · rw [if_neg hlooks, run_find_of_not_looksUp hfind hlooks]

end Represents

end Table

end QuasarDB.Storage
