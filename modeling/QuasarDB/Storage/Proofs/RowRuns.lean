import QuasarDB.Library.Results
import QuasarDB.Storage.Proofs.RowChanges

set_option autoImplicit false

/-! # Runs of a table

A table, new at first, is changed by the operations on rows. At any time it has the rows that the
operations have left, and shows them. -/

namespace QuasarDB.Storage

open Prog

/-! ## New tables -/

theorem Column.notNull_of_make {source column : Column} (h : source.make = .ok column)
    (hindexed : column.isIndexed = true) : column.isNotNull = true := by
  have hnotNull : ∀ flags : UInt8, ((flags ||| notNullFlag) &&& notNullFlag != 0) = true := by
    intro flags
    have hbits : ∀ bits : BitVec 8, (bits ||| 1) &&& 1 ≠ 0 := by decide
    rw [bne_iff_ne]
    exact fun hzero => hbits flags.toBitVec (congrArg UInt8.toBitVec hzero)
  have hdone : ∀ made : Column,
      (do made.validateDefault; return made : Except String Column) = .ok column → made = column := by
    intro made hmade
    cases hdefault : made.validateDefault with
    | error what =>
        rw [hdefault] at hmade
        cases hmade
    | ok _ =>
        rw [hdefault] at hmade
        exact Except.ok.inj hmade
  unfold make at h
  obtain rfl := hdone _ h
  by_cases hsource : source.isIndexed = true
  · rw [if_pos hsource]
    exact hnotNull source.flags
  · rw [if_neg hsource] at hindexed
    exact absurd hindexed hsource

/-- The constructors of a column, a schema and a table see to what a schema has to be. -/
theorem Schema.wellFormed_of_constructors {sources : List Column} {schema : Schema}
    {columns : List Column} (hne : sources ≠ []) (hcolumns : sources.mapM Column.make = .ok columns)
    (hschema : Schema.ofColumns columns = .ok schema) (hwritable : schema.isWritable = true) :
    schema.WellFormed := by
  have hlength := (Except.mapM_eq_ok.1 hcolumns).length_eq
  unfold Schema.ofColumns at hschema
  split at hschema
  · rename_i hnames
    obtain rfl := Except.ok.inj hschema
    refine ⟨fun hnil => hne ?_, hnames, hwritable, fun column hcolumn hindexed => ?_⟩
    · rw [show columns = [] from hnil] at hlength
      exact List.length_eq_zero_iff.1 hlength
    · obtain ⟨source, -, hmake⟩ := Except.exists_of_mem_mapM hcolumns hcolumn
      exact Column.notNull_of_make hmake hindexed
  · cases hschema

namespace IndexSet

/-- The tree of a column that has none. -/
def openColumn (indexes : IndexSet) (column : Column) : IndexSet :=
  if column.isIndexed && (indexes.lookup column.name).isNone then
    AList.insert column.name { keyType := column.columnType, entries := ∅ } indexes
  else indexes

/-- The indexes of a new table are there, and empty. -/
theorem openNew_holds {schema : Schema} (hnames : schema.NamesDiffer) :
    (openNew schema).Holds schema fun _ _ _ => False := by
  have hopen : ∀ (cs : List Column) (start : IndexSet), (cs.map Column.name).Nodup →
      (∀ column ∈ cs, start.lookup column.name = none) →
      (∀ name, name ∉ cs.map Column.name → (cs.foldl openColumn start).lookup name = start.lookup name) ∧
      ∀ column ∈ cs, column.isIndexed = true → (cs.foldl openColumn start).lookup column.name =
        some { keyType := column.columnType, entries := ∅ } := by
    intro cs
    induction cs with
    | nil => exact fun _ _ _ => ⟨fun _ _ => rfl, by simp⟩
    | cons column cs ih =>
        intro start hnodup hnone
        rw [List.map_cons, List.nodup_cons] at hnodup
        obtain ⟨hfresh, hnodup⟩ := hnodup
        have hother : ∀ name, name ≠ column.name →
            (openColumn start column).lookup name = start.lookup name := by
          intro name hne
          unfold openColumn
          split
          · exact AList.lookup_insert_ne hne
          · rfl
        obtain ⟨hkeeps, hopens⟩ := ih (openColumn start column) hnodup fun other hmem => by
          rw [hother _ fun heq => hfresh (heq ▸ List.mem_map_of_mem hmem)]
          exact hnone other (by simp [hmem])
        refine ⟨fun name hname => ?_, fun other hmem hindexed => ?_⟩
        · rw [List.map_cons, List.mem_cons, not_or] at hname
          rw [List.foldl_cons, hkeeps name hname.2, hother name hname.1]
        · rw [List.foldl_cons]
          rcases List.mem_cons.1 hmem with rfl | hmem
          · rw [hkeeps _ hfresh, openColumn, if_pos, AList.lookup_insert]
            rw [hindexed, hnone other (by simp)]
            rfl
          · exact hopens other hmem hindexed
  intro i column hcolumn hindexed
  obtain ⟨-, hopens⟩ := hopen schema.columns ∅ hnames fun _ _ => AList.lookup_empty _
  refine ⟨_, hopens column (List.mem_of_getElem? hcolumn) hindexed, rfl, fun value address => ?_⟩
  rw [AList.lookup_empty]
  simp

end IndexSet

namespace Table

variable {table table' : Table} {rows : Rows} {stack : List Entry} {n : Nat}

theorem tracks_new {schema : Schema} (h : schema.WellFormed) (hcount : schema.recordIdCount = 0) :
    (new schema).Tracks Rows.empty [] := by
  have hrep : Represents (new schema) Rows.empty := by
    refine ⟨h, ?_, StringStore.closed_new, Rows.sound_empty, fun _ _ hrow => (nomatch hrow),
      fun _ _ => rfl, ?_⟩
    · rw [new, hcount]
      rfl
    · refine (IndexSet.openNew_holds h.names).congr fun i column _ _ value address => ⟨?_, False.elim⟩
      rintro ⟨-, id, fields, hrow, -⟩
      cases hrow
  exact ⟨hrep, rfl, ⟨[], Journal.holds_openOn []⟩, trivial⟩

/-! ## Runs -/

/-- The record is one of those that `records` gives. -/
def Gives (table : Table) (record : Record) : Prop :=
  ∃ records, Table.records table = .ok records table ∧ record ∈ records

/-- A run of a table with the number of records that it has inserted, and beside it the rows that the
    operations leave and the steps that would undo them. An operation returns, or its arguments are
    rejected. -/
inductive Run : Nat → Table → Rows → List Entry → Prop
  | new {schema : Schema} (h : schema.WellFormed) (hcount : schema.recordIdCount = 0) :
      Run 0 (Table.new schema) Rows.empty []
  | insert {n : Nat} {table table' : Table} {rows : Rows} {stack : List Entry} {now : Track.Time}
      {values : List Value} {columnNames : List String} {record : Record}
      (h : Run n table rows stack)
      (hknown : ∀ value ∈ values, table.strings.toInterner.Knows value)
      (hrun : insertRecord now values columnNames table = .ok record table') :
      Run (n + 1) table' (rows.insert record.fields) (⟨now, .delete record.id⟩ :: stack)
  | rejectInsert {n : Nat} {table table' : Table} {rows : Rows} {stack : List Entry}
      {values : List Value} {columnNames : List String} {failure : Failure}
      (h : Run n table rows stack)
      (hknown : ∀ value ∈ values, table.strings.toInterner.Knows value)
      (hrun : makeValid values columnNames table = .error failure table') : Run n table' rows stack
  | update {n : Nat} {table table' : Table} {rows : Rows} {stack : List Entry} {now : Track.Time}
      {old record : Record} {address : RecordAddress} (h : Run n table rows stack)
      (hgives : table.Gives old) (hrecord : old.Reassigned record table.strings.toInterner)
      (hrun : updateRecord now record table = .ok address table') :
      Run n table' (rows.set record.id (some record.fields)) (⟨now, .update old⟩ :: stack)
  | rejectUpdate {n : Nat} {table table' : Table} {rows : Rows} {stack : List Entry}
      {old record : Record} {failure : Failure} (h : Run n table rows stack)
      (hgives : table.Gives old) (hrecord : old.Reassigned record table.strings.toInterner)
      (hrun : validateRecord record table = .error failure table') : Run n table' rows stack
  | delete {n : Nat} {table table' : Table} {rows : Rows} {stack : List Entry} {now : Track.Time}
      {record : Record} (h : Run n table rows stack) (hgives : table.Gives record)
      (hrun : deleteRecord now record table = .ok () table') :
      Run n table' (rows.set record.id none) (⟨now, .insert record⟩ :: stack)
  | revert {n : Nat} {table table' : Table} {rows : Rows} {stack : List Entry} {time : List UInt8}
      (h : Run n table rows stack) (hrun : Table.revert time table = .ok () table') :
      Run n table' (rows.undoAll (stack.takeWhile fun entry => time ≤ entry.time.bytes))
        (stack.dropWhile fun entry => time ≤ entry.time.bytes)
  | intern {n : Nat} {table : Table} {rows : Rows} {stack : List Entry} (h : Run n table rows stack)
      (str : String) :
      Run n { table with strings := (StringStore.intern str).after table.strings } rows stack

theorem Tracks.gives_iff (h : table.Tracks rows stack) {record : Record} :
    table.Gives record ↔ table.IsRecord rows record := by
  rw [← h.mem_recordsOf]
  constructor
  · rintro ⟨records, hrun, hmem⟩
    have heq : records = table.recordsOf rows := by
      rw [h.run_records] at hrun
      injection hrun with hrun
      exact hrun.symm
    exact heq ▸ hmem
  · exact fun hmem => ⟨_, h.run_records, hmem⟩

/-- A record that was read and got other values. -/
theorem Tracks.candidate (h : table.Tracks rows stack) {old record : Record}
    (hold : table.IsRecord rows old) (hrecord : old.Reassigned record table.strings.toInterner) :
    table.Candidate record where
  length := hrecord.length.trans (h.sound.allowed _ _ hold.row).length
  address := by rw [hrecord.address, hold.address, hrecord.id]

/-- Undoing does not give ids. -/
theorem count_undoAll_le (rows : Rows) (entries : List Entry) :
    (rows.undoAll entries).count ≤ rows.count := by
  induction entries generalizing rows with
  | nil => exact Nat.le_refl _
  | cons entry entries ih =>
      have hundo : (rows.undo entry.undo).count ≤ rows.count := by
        cases entry.undo with
        | delete id => exact Nat.sub_le _ _
        | update oldRecord => exact Nat.le_refl _
        | insert record => exact Nat.le_refl _
      exact Nat.le_trans (ih (rows.undo entry.undo)) hundo

/-- The table has the rows that the run leaves, and the journal undoes them. -/
theorem Run.tracks (h : Run n table rows stack) (hn : n < 2 ^ 32) :
    table.Tracks rows stack ∧ rows.count ≤ n := by
  induction h with
  | new h hcount => exact ⟨tracks_new h hcount, Nat.le_refl _⟩
  | insert h hknown hrun ih =>
      obtain ⟨htracks, hcount⟩ := ih (by omega)
      obtain ⟨-, -, -, htracks'⟩ := (htracks.insertRecord_post (by omega) _ _ hknown).of_ok hrun
      exact ⟨htracks', Nat.succ_le_succ hcount⟩
  | rejectInsert h hknown hrun ih =>
      obtain ⟨htracks, hcount⟩ := ih hn
      obtain ⟨-, strings, hgrows, rfl⟩ :=
        (makeValid_along htracks.toRepresents _ hknown).of_error hrun
      exact ⟨htracks.grows hgrows, hcount⟩
  | @update n table table' rows stack now old record address h hgives hrecord hrun ih =>
      obtain ⟨htracks, hcount⟩ := ih hn
      have hold := htracks.gives_iff.1 hgives
      have hcandidate := htracks.candidate hold hrecord
      have hrow : rows.row record.id = some old.fields := by rw [hrecord.id, hold.row]
      obtain ⟨htracks', -⟩ := htracks.of_updateRecord hrow hcandidate hrecord.known hrun
      rw [hrecord.id, hrecord.address] at htracks'
      rw [hrecord.id]
      exact ⟨htracks', hcount⟩
  | rejectUpdate h hgives hrecord hrun ih =>
      obtain ⟨htracks, hcount⟩ := ih hn
      have hcandidate := htracks.candidate (htracks.gives_iff.1 hgives) hrecord
      obtain rfl := htracks.eq_of_validateRecord_error hcandidate hrun
      exact ⟨htracks, hcount⟩
  | delete h hgives hrun ih =>
      obtain ⟨htracks, hcount⟩ := ih hn
      obtain ⟨table'', hrun', htracks', -⟩ := htracks.run_deleteRecord _ (htracks.gives_iff.1 hgives)
      rw [hrun] at hrun'
      cases hrun'
      exact ⟨htracks', hcount⟩
  | revert h hrun ih =>
      obtain ⟨htracks, hcount⟩ := ih hn
      obtain ⟨table'', hrun', htracks', -⟩ := htracks.run_revert _
      rw [hrun] at hrun'
      cases hrun'
      exact ⟨htracks', (count_undoAll_le _ _).trans hcount⟩
  | intern h str ih =>
      obtain ⟨htracks, hcount⟩ := ih hn
      have hpost := StringStore.intern_along str htracks.strings
      exact ⟨htracks.grows hpost.of_after, hcount⟩

end Table

end QuasarDB.Storage
