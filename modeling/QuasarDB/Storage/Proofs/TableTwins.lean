import QuasarDB.Storage.Proofs.Twins

set_option autoImplicit false

/-! # Operations on tables that cannot be told apart

Each operation of a table keeps its twins twins, and the strings in memory those of their file. -/

namespace QuasarDB.Storage

open Prog

/-! ## Strings -/

namespace StringStore

/-- As long as there are ids left, the strings are those that loading their file gives. -/
def Loaded (store : StringStore) : Prop :=
  store.file.length + 1 < 2 ^ 32 →
    store = load store.file ∧ store.nextId.toNat = store.file.length + 1

/-- What is loaded does not depend on the file that is kept aside. -/
theorem foldl_addLoadedString (entries file : List (UInt32 × String)) : ∀ store : StringStore,
    entries.foldl addLoadedString { store with file } =
      { entries.foldl addLoadedString store with file } := by
  induction entries with
  | nil =>
      intro store
      rfl
  | cons entry entries ih =>
      intro store
      exact ih (store.addLoadedString entry)

theorem load_append (file : List (UInt32 × String)) (entry : UInt32 × String) :
    load (file ++ [entry]) =
      { (load file).addLoadedString entry with file := file ++ [entry] } := by
  have hall := foldl_addLoadedString file (file ++ [entry]) new
  have hfile := foldl_addLoadedString file file new
  rw [load, List.foldl_append, hall, load, hfile]
  rfl

theorem loaded_new : new.Loaded := fun _ => ⟨rfl, rfl⟩

theorem Loaded.append {store : StringStore} (h : store.Loaded) (str : String) :
    (store.append str).Loaded := by
  intro hlength
  have hfile : (store.append str).file = store.file ++ [(store.nextId, str)] := rfl
  rw [hfile, List.length_append, List.length_singleton] at hlength
  obtain ⟨hload, hnext⟩ := h (by omega)
  have hsucc : (store.nextId + 1).toNat = store.nextId.toNat + 1 := by
    rw [UInt32.toNat_add, UInt32.toNat_one, Nat.mod_eq_of_lt (by omega)]
  have hmax : max store.nextId (store.nextId + 1) = store.nextId + 1 := by
    refine if_pos ?_
    rw [UInt32.le_iff_toNat_le, hsucc]
    omega
  constructor
  · rw [hfile, load_append, ← hload, addLoadedString]
    dsimp only
    rw [hmax]
    rfl
  · change (store.nextId + 1).toNat = _
    rw [hfile, List.length_append, List.length_singleton, hsucc, hnext]

/-- The same strings, which are those of the file. -/
structure Twin (store other : StringStore) : Prop where
  eq : store = other
  loaded : other.Loaded

theorem respects_intern (str : String) : Respects Twin (intern str) := by
  apply Lockstep.get_bind
  intro store other h
  rw [h.eq]
  cases hlookup : other.stringToId.lookup str with
  | some id => exact .pure _
  | none =>
      -- the entry that is appended to the file is the one that is added in memory
      intro s t ht
      exact ⟨rfl, rfl, h.loaded.append str⟩

end StringStore

theorem Column.respects_defaultValue (column : Column) :
    Respects StringStore.Twin column.defaultValue := by
  unfold Column.defaultValue
  cases column.defaultType with
  | nullValue => exact .pure _
  | int => exact .pure _
  | string => exact StringStore.respects_intern _
  | none => exact .throw _

/-! ## Tables -/

namespace Table

variable {α : Type} {columns : List Column}

/-- Tables with these columns that cannot be told apart. -/
structure Twin (columns : List Column) (table other : Table) : Prop where
  schema : table.schema = other.schema
  sameColumns : other.schema.columns = columns
  schemaFile : table.schemaFile = other.schemaFile
  journal : Journal.Alike table.journal other.journal
  pages : table.pages = other.pages
  idToAddr : table.idToAddr = other.idToAddr
  indexes : IndexSet.Alike columns table.indexes other.indexes
  strings : StringStore.Twin table.strings other.strings

theorem respects_onJournal {x : Prog Journal α} (h : Respects Journal.Alike x) :
    Respects (Twin columns) (onJournal x) :=
  Lockstep.on h (fun _ _ ht => ht.journal) fun _ _ _ _ ht hj => { ht with journal := hj }

theorem respects_onStrings {x : Prog StringStore α} (h : Respects StringStore.Twin x) :
    Respects (Twin columns) (onStrings x) :=
  Lockstep.on h (fun _ _ ht => ht.strings) fun _ _ _ _ ht hs => { ht with strings := hs }

theorem respects_onIndexes {x : Prog IndexSet α} (h : Respects (IndexSet.Alike columns) x) :
    Respects (Twin columns) (onIndexes x) :=
  Lockstep.on h (fun _ _ ht => ht.indexes) fun _ _ _ _ ht hi => { ht with indexes := hi }

theorem respects_saveSchema : Respects (Twin columns) saveSchema := by
  apply Lockstep.get_bind
  intro table other h
  rw [h.schema]
  apply (Lockstep.throwIf _ _).bind
  intro _
  apply Lockstep.modify
  intro _ _ h
  exact { h with schemaFile := h.schema }

/-! ### Pages -/

theorem respects_readPage (pageIndex : Nat) : Respects (Twin columns) (readPage pageIndex) := by
  unfold readPage
  by_cases hpage : pageIndex = 0
  · rw [if_pos hpage]
    intro s t h
    exact ⟨rfl, h⟩
  · rw [if_neg hpage]
    apply Lockstep.get_bind
    intro table other h
    rw [h.pages]
    cases other.pages[pageIndex - 1]? with
    | none => exact .throw _
    | some cells => exact .pure cells

theorem respects_writePage (pageIndex : Nat) (cells : List Cell) :
    Respects (Twin columns) (writePage pageIndex cells) :=
  Lockstep.modify fun _ _ h => { h with pages := by rw [h.pages] }

theorem respects_findEnoughFreePage (freeSpace preferPageId : Nat) :
    Respects (Twin columns) (findEnoughFreePage freeSpace preferPageId) := by
  apply (Lockstep.throwIf _ _).bind
  intro _
  apply Lockstep.get_bind
  intro table other h
  rw [h.pages]
  refine Lockstep.ite (.pure _) ?_
  cases findFreePage freeSpace 1 other.pages with
  | some pageIndex => exact .pure pageIndex
  | none =>
      refine Lockstep.bind (Lockstep.modify fun _ _ h => ?_) fun _ => .pure _
      exact { h with pages := by rw [h.pages] }

theorem respects_writeRecordToDisk (record : Record) (preferPageId : Nat) :
    Respects (Twin columns) (writeRecordToDisk record preferPageId) := by
  apply (Record.respects_serialize record).bind
  intro data
  apply (respects_findEnoughFreePage _ _).bind
  intro pageIndex
  apply (respects_readPage pageIndex).bind
  intro cells
  cases TablePage.insertRecord record.id data cells with
  | mk slot cells' =>
      cases slot with
      | some slotIdx => exact (respects_writePage pageIndex cells').bind fun _ => .pure _
      | none => exact .pure _

theorem respects_readRecord (address : RecordAddress) :
    Respects (Twin columns) (readRecord address) := by
  apply Lockstep.get_bind
  intro table other h
  rw [totalPages, totalPages, h.pages, h.schema, h.strings.eq]
  refine Lockstep.ite ((respects_readPage _).bind fun cells => ?_) (.pure none)
  exact (TablePage.respects_readRecord _ _ _ _).bind fun _ => .pure _

theorem respects_deleteCell (address : RecordAddress) :
    Respects (Twin columns) (deleteCell address) := by
  apply (respects_readPage _).bind
  intro cells
  apply (Lockstep.ofExcept _).bind
  intro cells'
  exact respects_writePage _ cells'

theorem respects_readIds (ids : List UInt32) : Respects (Twin columns) (readIds ids) := by
  induction ids with
  | nil => exact .pure []
  | cons recordId ids ih =>
      apply Lockstep.get_bind
      intro table other h
      rw [h.idToAddr]
      cases other.idToAddr.lookup recordId with
      | none => exact ih
      | some address =>
          apply (respects_readRecord address).bind
          intro found
          cases found with
          | none => exact .throw _
          | some record => exact ih.bind fun _ => .pure _

theorem respects_records : Respects (Twin columns) records := by
  apply Lockstep.get_bind
  intro table other h
  rw [h.schema]
  exact respects_readIds _

theorem respects_readMatching (columnIndex : Nat) (value : Value) (addresses : List RecordAddress) :
    Respects (Twin columns) (readMatching columnIndex value addresses) := by
  induction addresses with
  | nil => exact .pure []
  | cons address addresses ih =>
      exact (respects_readRecord address).bind fun _ => ih.bind fun _ => .pure _

theorem respects_findByIndex (columnName : String) (value : Value) :
    Respects (Twin columns) (findByIndex columnName value) := by
  apply Lockstep.get_bind
  intro table other h
  rw [h.schema, IndexSet.find_congr _ _ _ h.indexes.lookup]
  apply (IndexSet.respects_find _ columnName value).bind
  intro found
  cases found with
  | none => exact .pure none
  | some addresses => exact (respects_readMatching _ value addresses).bind fun _ => .pure _

/-! ### Rows -/

theorem respects_applyDefaults (provided : List Nat) (columns : List (Column × Nat)) :
    Respects StringStore.Twin (applyDefaults provided columns) := by
  induction columns with
  | nil => exact .pure []
  | cons first columns ih =>
      obtain ⟨column, i⟩ := first
      have hrest : ∀ value, Respects StringStore.Twin (do
          return value :: (← applyDefaults provided columns)) :=
        fun value => ih.bind fun _ => .pure _
      exact Lockstep.ite (column.respects_defaultValue.bind hrest) (hrest .null)

theorem respects_makeRecord (recordId : UInt32) (values : List Value) (columnNames : List String) :
    Respects (Twin columns) (makeRecord recordId values columnNames) := by
  apply Lockstep.get_bind
  intro table other h
  rw [h.schema]
  refine Lockstep.ite ((Lockstep.throwIf _ _).bind fun _ => .pure _) ?_
  apply (Lockstep.throwIf _ _).bind
  intro _
  apply (Lockstep.ofExcept _).bind
  intro columnIndices
  apply (Record.respects_ofCount _ _).bind
  intro record
  exact (respects_onStrings (respects_applyDefaults columnIndices _)).bind fun _ => .pure _

theorem respects_validateColumns (record : Record) (fields : List ((Column × Value) × Nat)) :
    Respects (Twin columns) (validateColumns record fields) := by
  induction fields with
  | nil => exact .pure ()
  | cons first fields ih =>
      obtain ⟨⟨column, value⟩, i⟩ := first
      refine (Lockstep.ofExcept _).bind fun _ => Lockstep.ite ?_ ih
      apply Lockstep.get_bind
      intro table other h
      rw [h.schema]
      have hview : ∀ s t, Twin columns s t →
          ∀ name, s.indexes.lookup name = t.indexes.lookup name :=
        fun s t h => h.indexes.lookup
      refine (IndexSet.respects_hasDuplicate hview respects_readRecord _ record i value).bind
        fun duplicate => Lockstep.ite ?_ ih
      cases value with
      | null => exact (Lockstep.throw (α := Unit) _).bind fun _ => ih
      | int n => exact (Lockstep.throw (α := Unit) _).bind fun _ => ih
      | string id =>
          apply Lockstep.get_bind
          intro table other h
          rw [h.strings.eq]
          apply (Interner.respects_view _ id).bind
          intro text
          exact (Lockstep.throw (α := Unit) _).bind fun _ => ih

theorem respects_validateRecord (record : Record) :
    Respects (Twin columns) (validateRecord record) := by
  apply Lockstep.get_bind
  intro table other h
  rw [h.schema]
  exact (Schema.respects_columnsOf _ record).bind fun _ => respects_validateColumns record _

/-! ### Changes -/

theorem respects_placeRecord (record : Record) : Respects (Twin columns) (placeRecord record) := by
  apply (respects_writeRecordToDisk record 0).bind
  intro record
  apply Lockstep.get_bind
  intro table other h
  rw [h.schema]
  apply (respects_onIndexes (IndexSet.respects_insert _ record)).bind
  intro _
  apply (Record.respects_getAddress record).bind
  intro address
  refine Lockstep.bind (Lockstep.modify fun _ _ h => ?_) fun _ => .pure _
  exact { h with idToAddr := by rw [h.idToAddr] }

theorem respects_removeRecord (address : RecordAddress) (record : Record) :
    Respects (Twin columns) (removeRecord address record) := by
  apply (respects_deleteCell address).bind
  intro _
  apply Lockstep.get_bind
  intro table other h
  rw [h.schema]
  apply (respects_onIndexes (IndexSet.respects_remove _ record)).bind
  intro _
  exact Lockstep.modify fun _ _ h => { h with idToAddr := by rw [h.idToAddr] }

theorem respects_updateAddress (recordId : UInt32) (address : RecordAddress) :
    Respects (Twin columns) (updateAddress recordId address) := by
  apply Lockstep.get_bind
  intro table other h
  rw [h.idToAddr]
  apply (Lockstep.throwIf _ _).bind
  intro _
  refine Lockstep.ite (Lockstep.modify fun _ _ h => ?_) (.pure _)
  exact { h with idToAddr := by rw [h.idToAddr] }

theorem respects_replaceRecord (oldAddress : RecordAddress) (oldRecord record : Record) :
    Respects (Twin columns) (replaceRecord oldAddress oldRecord record) := by
  apply (respects_deleteCell oldAddress).bind
  intro _
  apply (respects_writeRecordToDisk record _).bind
  intro record
  apply Lockstep.get_bind
  intro table other h
  rw [h.schema]
  apply (respects_onIndexes (IndexSet.respects_update _ oldRecord record)).bind
  intro _
  apply (Record.respects_getAddress record).bind
  intro address
  exact (respects_updateAddress _ address).bind fun _ => .pure _

theorem respects_storeNewRecord (now : Track.Time) (record : Record) :
    Respects (Twin columns) (storeNewRecord now record) := by
  apply (respects_onJournal (Journal.respects_saveInsertion now record)).bind
  intro _
  refine Lockstep.bind (Lockstep.modify fun _ _ h => ?_) fun _ => ?_
  · exact { h with schema := by rw [h.schema] }
  · exact respects_saveSchema.bind fun _ => respects_placeRecord record

theorem respects_insertRecord (now : Track.Time) (values : List Value) (columnNames : List String) :
    Respects (Twin columns) (insertRecord now values columnNames) := by
  apply Lockstep.get_bind
  intro table other h
  rw [h.schema]
  apply (respects_makeRecord _ values columnNames).bind
  intro record
  exact (respects_validateRecord record).bind fun _ => respects_storeNewRecord now record

theorem respects_storeUpdatedRecord (now : Track.Time) (record : Record) :
    Respects (Twin columns) (storeUpdatedRecord now record) := by
  apply (Record.respects_getAddress record).bind
  intro oldAddress
  apply (respects_readRecord oldAddress).bind
  intro found
  cases found with
  | none => exact .throw _
  | some oldRecord =>
      apply (respects_onJournal (Journal.respects_saveUpdation now oldRecord)).bind
      intro _
      exact respects_replaceRecord oldAddress oldRecord record

theorem respects_updateRecord (now : Track.Time) (record : Record) :
    Respects (Twin columns) (updateRecord now record) :=
  (respects_validateRecord record).bind fun _ => respects_storeUpdatedRecord now record

theorem respects_deleteRecord (now : Track.Time) (record : Record) :
    Respects (Twin columns) (deleteRecord now record) := by
  apply (respects_onJournal (Journal.respects_saveDeletion now record)).bind
  intro _
  exact (Record.respects_getAddress record).bind fun address => respects_removeRecord address record

/-! ### Reverting -/

theorem respects_addressOf (recordId : UInt32) : Respects (Twin columns) (addressOf recordId) := by
  apply Lockstep.get_bind
  intro table other h
  rw [h.idToAddr]
  cases other.idToAddr.lookup recordId with
  | none => exact .throw _
  | some address => exact .pure address

theorem respects_revertTrack (data : RevertResult) :
    Respects (Twin columns) (revertTrack data) := by
  obtain ⟨time, type, record⟩ := data
  cases type with
  | insert => exact (respects_placeRecord record).bind fun _ => .pure _
  | update =>
      apply (respects_addressOf record.id).bind
      intro currentAddress
      apply (respects_readRecord currentAddress).bind
      intro found
      cases found with
      | none => exact .throw _
      | some currentRecord => exact (respects_replaceRecord _ _ _).bind fun _ => .pure _
  | delete =>
      apply (respects_addressOf record.id).bind
      intro address
      apply Lockstep.get_bind
      intro table other h
      rw [h.schema, h.strings.eq]
      apply (respects_readPage _).bind
      intro cells
      apply (TablePage.respects_readRecord _ _ _ cells).bind
      intro found
      cases found with
      | none => exact .throw _
      | some realRecord =>
          apply (respects_removeRecord address realRecord).bind
          intro _
          apply Lockstep.get_bind
          intro table other h
          rw [h.schema]
          apply (Lockstep.assert _ _).bind
          intro _
          apply Lockstep.modify
          intro _ _ h
          exact { h with schema := by rw [h.schema] }
  | other byte => exact .pure ()

theorem respects_revertTracks (time : List UInt8) (rounds : Nat) :
    Respects (Twin columns) (revertTracks time rounds) := by
  induction rounds with
  | zero => exact .throw .endless
  | succ rounds ih =>
      apply Lockstep.get_bind
      intro table other h
      rw [h.schema, h.strings.eq]
      apply (respects_onJournal (Journal.respects_revertLast time _ _)).bind
      intro data
      exact Lockstep.ite (.pure ()) ((respects_revertTrack data).bind fun _ => ih)

theorem respects_revert (time : List UInt8) : Respects (Twin columns) (revert time) := by
  apply Lockstep.get_bind
  intro table other h
  rw [h.journal.pos]
  exact (respects_revertTracks time _).bind fun _ => respects_saveSchema

end Table

end QuasarDB.Storage
