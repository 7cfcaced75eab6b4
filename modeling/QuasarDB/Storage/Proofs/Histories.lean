import QuasarDB.Storage.Proofs.Statements

set_option autoImplicit false

/-! # Tables with their past

A run together with the table as it was just after each operation that is not reverted. Reverting to a
time takes the operations off that are not from before it, so that the last moment before it is back. -/

namespace QuasarDB.Storage

open Prog

/-- A table with its rows, just after an operation. -/
structure Moment where
  time : Track.Time
  table : Table
  rows : Rows

namespace Table

variable {table table' : Table} {rows : Rows} {stack : List Entry} {log : List Moment} {n : Nat}
  {schema : Schema}

/-- The rows after the last operation. -/
def lastRows : List Moment → Rows
  | [] => Rows.empty
  | moment :: _ => moment.rows

/-- The table after the last operation. -/
def lastTable (schema : Schema) : List Moment → Table
  | [] => Table.new schema
  | moment :: _ => moment.table

/-- A run from a new table, with the number of records it has inserted, the rows that there are, and the
    moments after the operations that were not reverted, the latest first. An operation returns, or its
    arguments are rejected. -/
inductive History (schema : Schema) : Nat → Table → Rows → List Moment → Prop
  | new (h : schema.WellFormed) (hcount : schema.recordIdCount = 0) :
      History schema 0 (Table.new schema) Rows.empty []
  | insert {n : Nat} {table table' : Table} {rows : Rows} {log : List Moment} {now : Track.Time}
      {values : List Value} {columnNames : List String} {record : Record}
      (h : History schema n table rows log)
      (hknown : ∀ value ∈ values, table.strings.toInterner.Knows value)
      (hrun : insertRecord now values columnNames table = .ok record table') :
      History schema (n + 1) table' (rows.insert record.fields)
        (⟨now, table', rows.insert record.fields⟩ :: log)
  | rejectInsert {n : Nat} {table table' : Table} {rows : Rows} {log : List Moment}
      {values : List Value} {columnNames : List String} {failure : Failure}
      (h : History schema n table rows log)
      (hknown : ∀ value ∈ values, table.strings.toInterner.Knows value)
      (hrun : makeValid values columnNames table = .error failure table') :
      History schema n table' rows log
  | update {n : Nat} {table table' : Table} {rows : Rows} {log : List Moment} {now : Track.Time}
      {old record : Record} {address : RecordAddress} (h : History schema n table rows log)
      (hgives : table.Gives old) (hrecord : old.Reassigned record table.strings.toInterner)
      (hrun : updateRecord now record table = .ok address table') :
      History schema n table' (rows.set record.id (some record.fields))
        (⟨now, table', rows.set record.id (some record.fields)⟩ :: log)
  | rejectUpdate {n : Nat} {table table' : Table} {rows : Rows} {log : List Moment}
      {old record : Record} {failure : Failure} (h : History schema n table rows log)
      (hgives : table.Gives old) (hrecord : old.Reassigned record table.strings.toInterner)
      (hrun : validateRecord record table = .error failure table') :
      History schema n table' rows log
  | delete {n : Nat} {table table' : Table} {rows : Rows} {log : List Moment} {now : Track.Time}
      {record : Record} (h : History schema n table rows log) (hgives : table.Gives record)
      (hrun : deleteRecord now record table = .ok () table') :
      History schema n table' (rows.set record.id none) (⟨now, table', rows.set record.id none⟩ :: log)
  | revert {n : Nat} {table table' : Table} {rows : Rows} {log : List Moment} {time : List UInt8}
      (h : History schema n table rows log) (hrun : Table.revert time table = .ok () table') :
      History schema n table' (lastRows (log.dropWhile fun moment => time ≤ moment.time.bytes))
        (log.dropWhile fun moment => time ≤ moment.time.bytes)
  | intern {n : Nat} {table : Table} {rows : Rows} {log : List Moment}
      (h : History schema n table rows log) (str : String) :
      History schema n { table with strings := (StringStore.intern str).after table.strings } rows log

/-! ## Moments and undo steps -/

/-- Each undo step leads from a moment to the one before it. -/
inductive Leads : List Entry → List Moment → Rows → Prop
  | nil : Leads [] [] Rows.empty
  | cons {entry : Entry} {stack : List Entry} {moment : Moment} {log : List Moment}
      (htime : entry.time = moment.time) (h : Leads stack log (moment.rows.undo entry.undo)) :
      Leads (entry :: stack) (moment :: log) moment.rows

theorem Leads.rows_eq (h : Leads stack log rows) : rows = lastRows log := by
  cases h with
  | nil => rfl
  | cons htime h => rfl

/-- Undoing the steps from a time on leads to the last moment before it. -/
theorem Leads.revert (h : Leads stack log rows) (time : List UInt8) :
    Leads (stack.dropWhile fun entry => time ≤ entry.time.bytes)
      (log.dropWhile fun moment => time ≤ moment.time.bytes)
      (rows.undoAll (stack.takeWhile fun entry => time ≤ entry.time.bytes)) := by
  induction h with
  | nil => exact .nil
  | @cons entry stack moment log htime h ih =>
      by_cases hlate : time ≤ entry.time.bytes
      · have hlate' : time ≤ moment.time.bytes := htime ▸ hlate
        rw [List.dropWhile_cons_of_pos (by simpa using hlate),
          List.dropWhile_cons_of_pos (by simpa using hlate'),
          List.takeWhile_cons_of_pos (by simpa using hlate)]
        exact ih
      · have hearly : ¬ time ≤ moment.time.bytes := htime ▸ hlate
        rw [List.dropWhile_cons_of_neg (by simpa using hlate),
          List.dropWhile_cons_of_neg (by simpa using hearly),
          List.takeWhile_cons_of_neg (by simpa using hlate)]
        exact .cons htime h

/-- A moment of the run: its table has its rows, in the columns of the run. -/
structure Moment.Holds (schema : Schema) (moment : Moment) : Prop where
  represents : moment.table.Represents moment.rows
  columns : moment.table.schema.columns = schema.columns

/-- What is true of a run with its past. -/
structure Past (schema : Schema) (n : Nat) (table : Table) (rows : Rows) (log : List Moment) : Prop where
  run : ∃ stack, Run n table rows stack ∧ Leads stack log rows
  columns : table.schema.columns = schema.columns
  moments : ∀ moment ∈ log, Moment.Holds schema moment

/-- An operation that is not reverted adds a moment. -/
theorem Past.push {entry : Entry} {rows' : Rows} {n' : Nat} (h : Past schema n table rows log)
    (hrun : ∀ stack, Run n table rows stack → Leads stack log rows →
      Run n' table' rows' (entry :: stack) ∧ rows'.undo entry.undo = rows)
    (hcolumns : table'.schema.columns = table.schema.columns) (hrep : table'.Represents rows') :
    Past schema n' table' rows' (⟨entry.time, table', rows'⟩ :: log) := by
  obtain ⟨⟨stack, hbefore, hleads⟩, hschema, hmoments⟩ := h
  obtain ⟨hafter, hundo⟩ := hrun stack hbefore hleads
  have hholds : Moment.Holds schema ⟨entry.time, table', rows'⟩ := ⟨hrep, hcolumns.trans hschema⟩
  refine ⟨⟨entry :: stack, hafter, ?_⟩, hcolumns.trans hschema,
    List.forall_mem_cons.2 ⟨hholds, hmoments⟩⟩
  have hlast := hleads
  rw [← hundo] at hlast
  exact @Leads.cons entry stack ⟨entry.time, table', rows'⟩ log rfl hlast

/-- What a run with its past is made of. -/
theorem History.past (h : History schema n table rows log) (hn : n < 2 ^ 32) :
    Past schema n table rows log := by
  induction h with
  | new h hcount => exact ⟨⟨[], .new h hcount, .nil⟩, rfl, by simp⟩
  | @insert n table table' rows log now values columnNames record h hknown hrun ih =>
      have hpast := ih (by omega)
      obtain ⟨stack, hbefore, -⟩ := hpast.run
      obtain ⟨htracks, hcount⟩ := hbefore.tracks (by omega)
      obtain ⟨-, hid, hcolumns, htracks'⟩ :=
        (htracks.insertRecord_post (by omega) now columnNames hknown).of_ok hrun
      refine @Past.push _ _ _ _ _ _ ⟨now, .delete record.id⟩ _ _ hpast (fun stack hbefore _ => ?_) hcolumns
        htracks'.toRepresents
      refine ⟨.insert hbefore hknown hrun, ?_⟩
      rw [hid]
      exact Rows.undo_insert (htracks.sound.row_nextId (by omega))
  | rejectInsert h hknown hrun ih =>
      -- nothing but the strings was changed, and the log is as before
      obtain ⟨⟨stack, hbefore, hleads⟩, hschema, hmoments⟩ := ih hn
      obtain ⟨htracks, -⟩ := hbefore.tracks hn
      obtain ⟨-, strings, -, rfl⟩ := (makeValid_along htracks.toRepresents _ hknown).of_error hrun
      exact ⟨⟨stack, .rejectInsert hbefore hknown hrun, hleads⟩, hschema, hmoments⟩
  | @update n table table' rows log now old record address h hgives hrecord hrun ih =>
      have hpast := ih hn
      obtain ⟨stack, hbefore, -⟩ := hpast.run
      obtain ⟨htracks, -⟩ := hbefore.tracks hn
      have hafter := Run.update hbefore hgives hrecord hrun
      have hold := htracks.gives_iff.1 hgives
      have hrow : rows.row record.id = some old.fields := by rw [hrecord.id, hold.row]
      obtain ⟨-, -, hschema, -⟩ :=
        htracks.of_updateRecord hrow (htracks.candidate hold hrecord) hrecord.known hrun
      refine @Past.push _ _ _ _ _ _ ⟨now, .update old⟩ _ _ hpast (fun stack hbefore _ => ?_)
        (congrArg Schema.columns hschema) (hafter.tracks hn).1.toRepresents
      refine ⟨.update hbefore hgives hrecord hrun, ?_⟩
      rw [hrecord.id]
      exact Rows.undo_update hold.row
  | rejectUpdate h hgives hrecord hrun ih =>
      obtain ⟨⟨stack, hbefore, hleads⟩, hschema, hmoments⟩ := ih hn
      obtain ⟨htracks, -⟩ := hbefore.tracks hn
      have hcandidate := htracks.candidate (htracks.gives_iff.1 hgives) hrecord
      obtain rfl := htracks.eq_of_validateRecord_error hcandidate hrun
      exact ⟨⟨stack, .rejectUpdate hbefore hgives hrecord hrun, hleads⟩, hschema, hmoments⟩
  | @delete n table table' rows log now record h hgives hrun ih =>
      have hpast := ih hn
      obtain ⟨stack, hbefore, -⟩ := hpast.run
      obtain ⟨htracks, -⟩ := hbefore.tracks hn
      have hafter := Run.delete hbefore hgives hrun
      have hold := htracks.gives_iff.1 hgives
      obtain ⟨table'', hrun', -, -, hschema, -⟩ := htracks.run_deleteRecord now hold
      rw [hrun] at hrun'
      cases hrun'
      refine @Past.push _ _ _ _ _ _ ⟨now, .insert record⟩ _ _ hpast (fun stack hbefore _ => ?_)
        (congrArg Schema.columns hschema) (hafter.tracks hn).1.toRepresents
      exact ⟨.delete hbefore hgives hrun, Rows.undo_delete hold.row⟩
  | @revert n table table' rows log time h hrun ih =>
      obtain ⟨⟨stack, hbefore, hleads⟩, hschema, hmoments⟩ := ih hn
      obtain ⟨htracks, -⟩ := hbefore.tracks hn
      obtain ⟨table'', hrun', -, hcolumns, -⟩ := htracks.run_revert time
      rw [hrun] at hrun'
      cases hrun'
      -- the moments after the time are gone from the log, with the entries that lead back over them
      have hback := hleads.revert time
      refine ⟨⟨_, ?_, hback.rows_eq ▸ hback⟩, hcolumns.trans hschema, fun moment hmem => ?_⟩
      · rw [← hback.rows_eq]
        exact .revert hbefore hrun
      · exact hmoments moment ((List.dropWhile_sublist _).subset hmem)
  | intern h str ih =>
      obtain ⟨⟨stack, hbefore, hleads⟩, hschema, hmoments⟩ := ih hn
      exact ⟨⟨stack, .intern hbefore str, hleads⟩, hschema, hmoments⟩

/-! ## Exact tables -/

/-- The same records, the same number of ids and the same answers from the indexes. -/
structure AnswersAs (table past : Table) : Prop where
  records : ∃ now before, Table.records table = .ok now table ∧
    Table.records past = .ok before past ∧ now.map rowOf = before.map rowOf
  count : table.schema.recordIdCount = past.schema.recordIdCount
  findByIndex : ∀ column ∈ past.schema.columns, column.isIndexed = true → ∀ value, ∃ now before,
    Table.findByIndex column.name value table = .ok now table ∧
      Table.findByIndex column.name value past = .ok before past ∧
      now.map (List.map rowOf) = before.map (List.map rowOf)

/-- Tables with the same rows answer alike. -/
theorem Represents.answersAs {past : Table} (h : table.Represents rows) (hpast : past.Represents rows)
    (hcolumns : table.schema.columns = past.schema.columns) : table.AnswersAs past where
  records := by
    refine ⟨_, _, h.run_records, hpast.run_records, ?_⟩
    rw [map_rowOf_recordsOf, map_rowOf_recordsOf]
  count := by rw [← UInt32.toNat_inj, h.count, hpast.count]
  findByIndex := fun column hmem hindexed value => by
    obtain ⟨i, hi⟩ := List.mem_iff_getElem?.1 hmem
    have hi' : table.schema.columns[i]? = some column := by rw [hcolumns, hi]
    refine ⟨_, _, h.run_findByIndex (columnIndex_name h.schema.names hi') hi',
      hpast.run_findByIndex (columnIndex_name hpast.schema.names hi) hi, ?_⟩
    have hfilter : ∀ t : Table,
        ((t.recordsOf rows).filter fun record => record.fields[i]? = some value).map rowOf =
          rows.list.filter fun row => row.2[i]? = some value := by
      intro t
      rw [← @map_rowOf_recordsOf t rows, List.filter_map]
      rfl
    by_cases hlooks : column.looksUp value = true
    · rw [if_pos hlooks, if_pos hlooks, Option.map_some, Option.map_some, hfilter, hfilter]
    · rw [if_neg hlooks, if_neg hlooks]

/-- The operations from a time on are the latest ones. -/
theorem dropWhile_eq_filter {log : List Moment} (time : List UInt8)
    (hsorted : log.Pairwise fun later earlier => earlier.time.bytes ≤ later.time.bytes) :
    (log.dropWhile fun moment => time ≤ moment.time.bytes) =
      log.filter fun moment => moment.time.bytes < time := by
  induction log with
  | nil => rfl
  | cons moment log ih =>
      obtain ⟨hfirst, hrest⟩ := List.pairwise_cons.1 hsorted
      by_cases hlate : time ≤ moment.time.bytes
      · rw [List.dropWhile_cons_of_pos (by simpa using hlate),
          List.filter_cons_of_neg (by simpa using hlate), ih hrest]
      · have hall : ∀ other ∈ moment :: log, other.time.bytes < time := by
          rw [List.forall_mem_cons]
          have hearly : moment.time.bytes < time := List.not_le.1 hlate
          exact ⟨hearly, fun other hmem => List.lt_of_le_of_lt (hfirst other hmem) hearly⟩
        rw [List.dropWhile_cons_of_neg (by simpa using hlate), List.filter_eq_self.2 (by simpa using hall)]

/-- The last moment of the run has the rows that are there. -/
theorem Past.answersAs_last (h : Past schema n table rows log) (hn : n < 2 ^ 32)
    (hwell : schema.WellFormed) (hcount : schema.recordIdCount = 0) :
    table.AnswersAs (lastTable schema log) := by
  obtain ⟨stack, hrun, hleads⟩ := h.run
  have hrep := (hrun.tracks hn).1.toRepresents
  rw [hleads.rows_eq] at hrep
  cases log with
  | nil => exact hrep.answersAs (tracks_new hwell hcount).toRepresents h.columns
  | cons moment log =>
      have hholds := h.moments moment List.mem_cons_self
      exact hrep.answersAs hholds.represents (h.columns.trans hholds.columns.symm)

theorem History.wellFormed (h : History schema n table rows log) :
    schema.WellFormed ∧ schema.recordIdCount = 0 := by
  induction h with
  | new h hcount => exact ⟨h, hcount⟩
  | insert _ _ _ ih => exact ih
  | rejectInsert _ _ _ ih => exact ih
  | update _ _ _ _ ih => exact ih
  | rejectUpdate _ _ _ _ ih => exact ih
  | delete _ _ _ ih => exact ih
  | revert _ _ ih => exact ih
  | intern _ _ ih => exact ih

/-- Reverting to a time gives the answers of the moment after the last operation before it that is not
    reverted. -/
theorem History.revert_answersAs (h : History schema n table rows log) (hn : n < 2 ^ 32)
    (hsorted : log.Pairwise fun later earlier => earlier.time.bytes ≤ later.time.bytes)
    (time : List UInt8) :
    ∃ table', Table.revert time table = .ok () table' ∧
      table'.AnswersAs (lastTable schema (log.filter fun moment => moment.time.bytes < time)) := by
  obtain ⟨hwell, hcount⟩ := h.wellFormed
  obtain ⟨stack, hrun, -⟩ := (h.past hn).run
  obtain ⟨table', hrevert, -⟩ := (hrun.tracks hn).1.run_revert time
  refine ⟨table', hrevert, ?_⟩
  have hlast := ((h.revert hrevert).past hn).answersAs_last hn hwell hcount
  rw [dropWhile_eq_filter time hsorted] at hlast
  exact hlast

/-! ## A record that is deleted twice -/

/-- What a program on a new table returns. -/
def resultOn {α : Type} (schema : Schema) (x : Prog Table α) : Option α :=
  match x (Table.new schema) with
  | .ok a _ => some a
  | .error _ _ => none

theorem eq_ok_of_resultOn {α : Type} {x : Prog Table α} {a : α} (h : resultOn schema x = some a) :
    ∃ table, x (Table.new schema) = .ok a table := by
  unfold resultOn at h
  split at h
  · rename_i a' table hrun
    obtain rfl := Option.some.inj h
    exact ⟨table, hrun⟩
  · cases h

/-- A clock that goes on. -/
def tick (n : UInt8) : Track.Time := ⟨List.replicate 22 48 ++ [48 + n], rfl⟩

/-- The record of the first row with the value 1. -/
def firstRecord : Record := { id := 0, fields := [.int 1], address := some ⟨1, 0⟩ }

theorem knows_int (n : Int32) (interner : Interner) :
    ∀ value ∈ ([.int n] : List Value), interner.Knows value := by
  intro value hvalue
  obtain rfl := List.mem_singleton.1 hvalue
  trivial

/-- A row, read and deleted. -/
def insertAndDelete : Prog Table (Record × List Record × List Record) := do
  let record ← insertRecord (tick 0) [.int 1] []
  let before ← Table.records
  deleteRecord (tick 1) record
  let after ← Table.records
  return (record, before, after)

theorem resultOn_insertAndDelete :
    resultOn Executor.keySchema insertAndDelete = some (firstRecord, [firstRecord], []) := by
  decide +kernel

/-- A history with an insertion and a deletion. -/
theorem history_insertAndDelete : ∃ table₁ table₂ rows log,
    insertRecord (tick 0) [.int 1] [] (Table.new Executor.keySchema) = .ok firstRecord table₁ ∧
    deleteRecord (tick 1) firstRecord table₁ = .ok () table₂ ∧
    History Executor.keySchema 1 table₂ rows log ∧
    log.map (fun moment => moment.time) = [tick 1, tick 0] ∧
    ∃ last, Table.records table₂ = .ok [] last := by
  obtain ⟨table', hrun⟩ := eq_ok_of_resultOn resultOn_insertAndDelete
  obtain ⟨record, table₁, hinsert, h₁⟩ := Prog.bind_eq_ok.1 hrun
  obtain ⟨before, table, hbefore, h₂⟩ := Prog.bind_eq_ok.1 h₁
  obtain ⟨_, table₂, hdelete, h₃⟩ := Prog.bind_eq_ok.1 h₂
  obtain ⟨after, last, hafter, h₄⟩ := Prog.bind_eq_ok.1 h₃
  obtain ⟨heq, -⟩ := Prog.pure_eq_ok.1 h₄
  obtain ⟨rfl, heq'⟩ := Prod.mk.inj heq
  obtain ⟨rfl, rfl⟩ := Prod.mk.inj heq'
  have hhistory := History.insert (.new Executor.keySchema_wellFormed rfl) (knows_int 1 _) hinsert
  -- reading the records leaves the table as it is
  obtain rfl : table₁ = table := by
    obtain ⟨stack, hrun, -⟩ := (hhistory.past (by decide)).run
    rw [(hrun.tracks (by decide)).1.run_records] at hbefore
    injection hbefore
  exact ⟨table₁, table₂, _, _, hinsert, hdelete,
    .delete hhistory ⟨_, hbefore, List.mem_singleton.2 rfl⟩ hdelete, rfl, last, hafter⟩

theorem revert_answersAs_insertAndDelete : ∃ table rows log table',
    History Executor.keySchema 1 table rows log ∧ Table.revert (tick 1).bytes table = .ok () table' ∧
      table'.AnswersAs
        (lastTable Executor.keySchema (log.filter fun moment => moment.time.bytes < (tick 1).bytes)) := by
  obtain ⟨table₁, table₂, rows, log, -, -, h, htimes, -⟩ := history_insertAndDelete
  have hsorted : log.Pairwise fun later earlier => earlier.time.bytes ≤ later.time.bytes := by
    have htimes' : (log.map fun moment => moment.time).Pairwise
        fun later earlier => earlier.bytes ≤ later.bytes := by
      rw [htimes]
      decide
    exact List.pairwise_map.1 htimes'
  obtain ⟨table', hrevert, hanswers⟩ := h.revert_answersAs (by decide) hsorted (tick 1).bytes
  exact ⟨table₂, rows, log, table', h, hrevert, hanswers⟩

/-- A row that is deleted twice, and the second deletion reverted. -/
def deleteTwice : Prog Table (List Record) := do
  let record ← insertRecord (tick 0) [.int 1] []
  deleteRecord (tick 1) record
  deleteRecord (tick 2) record
  Table.revert (tick 2).bytes
  Table.records

/-- With a record that is not there any more, each call returns, but going back to the moment after the
    first deletion brings the row back. -/
theorem revert_deleteTwice : ∃ record table₁ table₂ table₃ table₄,
    insertRecord (tick 0) [.int 1] [] (Table.new Executor.keySchema) = .ok record table₁ ∧
    deleteRecord (tick 1) record table₁ = .ok () table₂ ∧
    deleteRecord (tick 2) record table₂ = .ok () table₃ ∧
    Table.revert (tick 2).bytes table₃ = .ok () table₄ ∧
    (tick 0).bytes ≤ (tick 1).bytes ∧ (tick 1).bytes < (tick 2).bytes ∧
    ¬ table₄.AnswersAs table₂ := by
  have hresult : resultOn Executor.keySchema deleteTwice =
      some [{ firstRecord with address := some ⟨1, 1⟩ }] := by
    decide +kernel
  obtain ⟨last, hrun⟩ := eq_ok_of_resultOn hresult
  obtain ⟨record, table₁, hinsert, h₁⟩ := Prog.bind_eq_ok.1 hrun
  obtain ⟨_, table₂, hdelete, h₂⟩ := Prog.bind_eq_ok.1 h₁
  obtain ⟨_, table₃, hagain, h₃⟩ := Prog.bind_eq_ok.1 h₂
  obtain ⟨_, table₄, hrevert, hrecords⟩ := Prog.bind_eq_ok.1 h₃
  refine ⟨record, table₁, table₂, table₃, table₄, hinsert, hdelete, hagain, hrevert, by decide, by decide,
    fun hanswers => ?_⟩
  obtain ⟨now, before, hnow, hbefore, hsame⟩ := hanswers.records
  obtain ⟨table₁', table₂', -, -, hinsert', hdelete', -, -, _, hempty⟩ := history_insertAndDelete
  rw [hinsert] at hinsert'
  cases hinsert'
  rw [hdelete] at hdelete'
  cases hdelete'
  rw [hempty] at hbefore
  cases hbefore
  rw [hrecords] at hnow
  cases hnow
  cases hsame

end Table

end QuasarDB.Storage
