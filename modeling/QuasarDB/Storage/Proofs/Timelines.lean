import QuasarDB.Storage.Proofs.Selecting
import QuasarDB.Storage.Timeline

set_option autoImplicit false

/-! # Statements and timelines

A table keeps a timeline: it has the rows of the last moment, and its journal leads back to those of every
other one. If the rows of its schema fit a page whatever they hold, each statement keeps it so, whether it is
answered or throws, and nothing but an exception is ever thrown. -/

namespace QuasarDB.Storage

open Prog Server Core

/-- A row takes at most five bytes for each of its values. -/
theorem rowBytes_length_le (fields : List Value) : (rowBytes fields).length ≤ 5 * fields.length := by
  induction fields with
  | nil => exact Nat.le_refl _
  | cons value fields ih =>
      have hvalue : (storedBytes value).length ≤ 5 := by
        cases value <;> simp [storedBytes]
      rw [rowBytes, List.flatMap_cons, List.length_append, List.length_cons, ← rowBytes]
      omega

/-- Any row of the columns fits a page. -/
def Narrow (columns : List Column) : Prop := 5 * columns.length ≤ TablePage.maxRecordSize

instance (columns : List Column) : Decidable (Narrow columns) := inferInstanceAs (Decidable (_ ≤ _))

theorem Narrow.fits {columns : List Column} {schema : Schema} {fields : List Value} (h : Narrow columns)
    (hcolumns : schema.columns = columns) (hlength : fields.length = schema.size) :
    (rowBytes fields).length ≤ TablePage.maxRecordSize := by
  have hle := rowBytes_length_le fields
  rw [hlength, Schema.size, hcolumns] at hle
  exact hle.trans h

namespace Timeline

variable {timeline : Timeline} {stack : List Entry} {time : List UInt8} {now : Nat → Track.Time}
  {kind : RowOp → Prop} {op : RowOp} {ops : List (Track.Time × RowOp)}

theorem issued_nil : Issued now kind [] := fun _ h => (nomatch h)

/-- The operations of the ticks that follow. -/
theorem Issued.later (h : Issued (fun n => now (n + 1)) kind ops) : Issued now kind ops := by
  intro op hop
  obtain ⟨hkind, n, htime⟩ := h op hop
  exact ⟨hkind, n + 1, htime⟩

theorem Issued.cons (h : Issued (fun n => now (n + 1)) kind ops) (hkind : kind op) :
    Issued now kind ((now 0, op) :: ops) :=
  List.forall_mem_cons.2 ⟨⟨hkind, 0, rfl⟩, h.later⟩

/-- The ids that operations take, of kinds that take no more than `n`. -/
theorem Issued.count_le {n : Nat} {timeline : Timeline} (h : Issued now kind ops)
    (hkind : ∀ op, kind op → ∀ rows, (op.apply rows).count ≤ rows.count + n) :
    (timeline.pushAll ops).rows.count ≤ timeline.rows.count + ops.length * n := by
  induction ops generalizing timeline with
  | nil => exact Nat.le_add_right _ _
  | cons op ops ih =>
      obtain ⟨⟨hop, -⟩, hops⟩ := List.forall_mem_cons.1 h
      have hfirst : (timeline.push op).rows.count ≤ timeline.rows.count + n := hkind _ hop timeline.rows
      have hrest : ((timeline.push op).pushAll ops).rows.count ≤
          (timeline.push op).rows.count + ops.length * n := ih hops
      rw [List.length_cons, Nat.add_mul]
      change ((timeline.push op).pushAll ops).rows.count ≤ _
      omega

theorem Issued.batch_of_inserts {rows : Rows} (h : Issued now RowOp.IsInsert ops) :
    Batch now rows RowOp.IsInsert ops := by
  have htargets : (ops.filterMap fun op => op.2.target) = [] := by
    rw [List.filterMap_eq_nil_iff]
    intro op hop
    obtain ⟨⟨fields, hfields⟩, -⟩ := h op hop
    rw [hfields]
    rfl
  exact ⟨h, by simp [htargets], by simp [htargets]⟩

theorem back_of_le {moment : Track.Time × Rows} (h : time ≤ moment.1.bytes) :
    back time (moment :: timeline) = timeline.back time :=
  List.dropWhile_cons_of_pos (by simpa using h)

theorem back_of_not_le {moment : Track.Time × Rows} (h : ¬ time ≤ moment.1.bytes) :
    back time (moment :: timeline) = moment :: timeline :=
  List.dropWhile_cons_of_neg (by simpa using h)

/-- Each undo step leads from a moment to the one before it. -/
inductive LedBack : List Entry → Timeline → Prop
  | nil : LedBack [] []
  | cons {entry : Entry} {stack : List Entry} {rows : Rows} {timeline : Timeline}
      (hundo : rows.undo entry.undo = timeline.rows) (h : LedBack stack timeline) :
      LedBack (entry :: stack) ((entry.time, rows) :: timeline)

/-- Undoing the steps from a time on leads to the last moment before it. -/
theorem LedBack.back (h : LedBack stack timeline) (time : List UInt8) :
    LedBack (stack.dropWhile fun entry => time ≤ entry.time.bytes) (timeline.back time) ∧
      timeline.rows.undoAll (stack.takeWhile fun entry => time ≤ entry.time.bytes) =
        (timeline.back time).rows := by
  induction h with
  | nil => exact ⟨.nil, rfl⟩
  | @cons entry stack rows timeline hundo h ih =>
      by_cases hlate : time ≤ entry.time.bytes
      · rw [back_of_le hlate, List.dropWhile_cons_of_pos (by simpa using hlate),
          List.takeWhile_cons_of_pos (by simpa using hlate), ← ih.2, ← hundo]
        exact ⟨ih.1, rfl⟩
      · rw [back_of_not_le hlate, List.dropWhile_cons_of_neg (by simpa using hlate),
          List.takeWhile_cons_of_neg (by simpa using hlate)]
        exact ⟨.cons hundo h, rfl⟩

end Timeline

namespace Table

variable {columns : List Column} {table table' : Table} {timeline : Timeline} {rows : Rows}
  {stack : List Entry}

/-- The table has the rows of the timeline, and its journal leads back along it. -/
structure Keeps (columns : List Column) (table : Table) (timeline : Timeline) : Prop where
  tracks : ∃ stack, table.Tracks timeline.rows stack ∧ timeline.LedBack stack
  columns : table.schema.columns = columns

theorem Keeps.represents (h : table.Keeps columns timeline) : table.Represents timeline.rows := by
  obtain ⟨stack, htracks, -⟩ := h.tracks
  exact htracks.toRepresents

theorem Keeps.grows (h : table.Keeps columns timeline) (hgrows : table.Grows table') :
    table'.Keeps columns timeline := by
  obtain ⟨⟨stack, htracks, hback⟩, hcolumns⟩ := h
  refine ⟨⟨stack, hgrows.tracks htracks, hback⟩, ?_⟩
  obtain ⟨strings, -, rfl⟩ := hgrows
  exact hcolumns

/-- An operation leaves a moment. -/
theorem keeps_push (op : RowOp) (entry : Entry) (hback : timeline.LedBack stack)
    (hundo : (op.apply timeline.rows).undo entry.undo = timeline.rows)
    (htracks : table'.Tracks (op.apply timeline.rows) (entry :: stack))
    (hcolumns : table'.schema.columns = columns) :
    table'.Keeps columns (timeline.push (entry.time, op)) :=
  ⟨⟨entry :: stack, htracks, .cons hundo hback⟩, hcolumns⟩

/-! ## Inserting -/

theorem Keeps.insertRecord_post (h : table.Keeps columns timeline) (hnarrow : Narrow columns)
    (hcount : timeline.rows.count + 1 < 2 ^ 32) (now : Track.Time) {values : List Value}
    (columnNames : List String)
    (hknown : ∀ value ∈ values, table.strings.toInterner.Knows value) :
    (insertRecord now values columnNames).Post table
      (fun record table' => table.strings.Grows table'.strings ∧
        table'.Keeps columns (timeline.push (now, .insert record.fields)))
      (fun e table' => (∃ what, e = .exception what) ∧ table'.Keeps columns timeline) := by
  rw [insertRecord_eq]
  refine Post.bind ((makeValid_along h.represents columnNames hknown).post ?_ ?_)
  · rintro record valid hgrown ⟨hid, hallows, hadmits, hknown'⟩
    obtain ⟨⟨stack, htracks, hback⟩, hcolumns⟩ := h.grows hgrown
    have hsize := hnarrow.fits hcolumns hallows.length
    obtain ⟨address, table', hrun, htracks', hstrings, hcolumns'⟩ :=
      htracks.run_storeNewRecord hcount now hid hallows hadmits hknown' hsize
    obtain ⟨strings, hgrows, rfl⟩ := hgrown
    have hundo : (timeline.rows.insert record.fields).undo (.delete record.id) = timeline.rows := by
      rw [hid]
      exact Rows.undo_insert (htracks.sound.row_nextId (by omega))
    refine Post.ok hrun ⟨hstrings ▸ hgrows, ?_⟩
    exact keeps_push (.insert record.fields) ⟨now, .delete record.id⟩ hback hundo htracks'
      (hcolumns'.trans hcolumns)
  · intro e table' he hgrown
    exact ⟨he, h.grows hgrown⟩

/-- The rows before the first that is rejected are inserted. -/
theorem Keeps.insertMultiple_post {values : List (List Value)} (h : table.Keeps columns timeline)
    (hnarrow : Narrow columns) (hcount : timeline.rows.count + values.length < 2 ^ 32)
    (now : Nat → Track.Time) (columnNames : List String)
    (hknown : ∀ row ∈ values, ∀ value ∈ row, table.strings.toInterner.Knows value) :
    (insertMultiple now columnNames values).Post table
      (fun _ table' => ∃ ops, Timeline.Issued now RowOp.IsInsert ops ∧ ops.length = values.length ∧
        table'.Keeps columns (timeline.pushAll ops))
      (fun e table' => (∃ what, e = .exception what) ∧ ∃ ops, Timeline.Issued now RowOp.IsInsert ops ∧
        ops.length < values.length ∧ table'.Keeps columns (timeline.pushAll ops)) := by
  induction values generalizing table timeline now with
  | nil => exact ⟨[], Timeline.issued_nil, rfl, h⟩
  | cons row values ih =>
      obtain ⟨hrow, hothers⟩ := List.forall_mem_cons.1 hknown
      rw [List.length_cons] at hcount
      rw [insertMultiple]
      refine Post.bind (Post.mono (h.insertRecord_post hnarrow (by omega) (now 0) columnNames hrow) ?_ ?_)
      · rintro record t ⟨hgrows, hkeeps⟩
        have hcount' : (timeline.push (now 0, .insert record.fields)).rows.count + values.length < 2 ^ 32 := by
          change timeline.rows.count + 1 + values.length < 2 ^ 32
          omega
        have hinsert : RowOp.IsInsert (.insert record.fields) := ⟨_, rfl⟩
        have hrest := ih hkeeps hcount' (fun n => now (n + 1)) fun r hr => hgrows.knows (hothers r hr)
        refine Post.bind (Post.mono hrest ?_ ?_)
        · rintro records t' ⟨ops, hops, hlength, hkeeps'⟩
          exact ⟨_, hops.cons hinsert, congrArg (· + 1) hlength, hkeeps'⟩
        · rintro e t' ⟨he, ops, hops, hlength, hkeeps'⟩
          exact ⟨he, _, hops.cons hinsert, Nat.succ_lt_succ hlength, hkeeps'⟩
      · rintro e t ⟨he, hkeeps⟩
        exact ⟨he, [], Timeline.issued_nil, Nat.succ_pos _, hkeeps⟩

/-! ## Updating -/

/-- One record is updated, or rejected without any effect. -/
theorem Keeps.run_tryUpdate {record : Record} (h : table.Keeps columns timeline)
    (hnarrow : Narrow columns) (now : Track.Time)
    (hrecord : Executor.Changed table timeline.rows record) :
    (∃ address table', updateRecord now record table = .ok address table' ∧
        table'.Keeps columns (timeline.push (now, .update record.id record.fields)) ∧
        table'.strings = table.strings ∧ table'.schema = table.schema ∧
        ∀ id, id ≠ record.id → table'.idToAddr.lookup id = table.idToAddr.lookup id) ∨
      ∃ what, updateRecord now record table = .error (.exception what) table := by
  obtain ⟨⟨stack, htracks, hback⟩, hcolumns⟩ := h
  obtain ⟨fields, hrow⟩ := Option.isSome_iff_exists.1 hrecord.row
  rcases htracks.run_updateRecord now hrow hrecord.candidate hrecord.known with
    ⟨hallows, -, hupdate⟩ | ⟨herror, -⟩
  · obtain ⟨address, table', hrun, htracks', hstrings, hschema, haddresses⟩ :=
      hupdate (hnarrow.fits hcolumns hallows.length)
    refine .inl ⟨address, table', hrun, ?_, hstrings, hschema, haddresses⟩
    exact keeps_push (.update record.id record.fields)
      ⟨now, .update { id := record.id, fields, address := record.address }⟩ hback (Rows.undo_update hrow)
      htracks' (hschema ▸ hcolumns)
  · exact .inr herror

/-- The records that pass are updated. -/
theorem Keeps.run_updateMultiple {changed : List Record} (h : table.Keeps columns timeline)
    (hnarrow : Narrow columns) (now : Nat → Track.Time) (hnodup : (changed.map Record.id).Nodup)
    (hchanged : ∀ record ∈ changed, Executor.Changed table timeline.rows record) :
    ∃ errors table' ops, updateMultiple now changed table = .ok errors table' ∧
      table'.Keeps columns (timeline.pushAll ops) ∧ Timeline.Issued now RowOp.IsUpdate ops ∧
      (ops.filterMap fun op => op.2.target).Sublist (changed.map Record.id) ∧
      (errors = [] → ops.length = changed.length) := by
  induction changed generalizing table timeline now with
  | nil => exact ⟨[], table, [], rfl, h, Timeline.issued_nil, List.Sublist.slnil, fun _ => rfl⟩
  | cons record changed ih =>
      rw [List.map_cons, List.nodup_cons] at hnodup
      obtain ⟨hfresh, hnodup⟩ := hnodup
      obtain ⟨hrecord, hothers⟩ := List.forall_mem_cons.1 hchanged
      rcases h.run_tryUpdate hnarrow (now 0) hrecord with
        ⟨address, table₁, hrun, hkeeps, hstrings, hschema, haddresses⟩ | ⟨what, hrun⟩
      · have hcatch : Prog.catchException (do
            let _ ← updateRecord (now 0) record
            return none) (fun what => pure (some what)) table = .ok none table₁ := by
          rw [Prog.catchException, bind_ok hrun]
          rfl
        have hstill : ∀ other ∈ changed, Executor.Changed table₁
            (timeline.push (now 0, .update record.id record.fields)).rows other := by
          intro other hmem
          exact (hothers other hmem).after_update (fun heq => hfresh (heq ▸ List.mem_map_of_mem hmem))
            hstrings hschema haddresses
        obtain ⟨errors, table', ops, hrest, hkeeps', hissued, hsublist, hlength⟩ :=
          ih hkeeps (fun n => now (n + 1)) hnodup hstill
        refine ⟨errors, table', (now 0, .update record.id record.fields) :: ops, ?_, hkeeps',
          hissued.cons ⟨_, _, rfl⟩, hsublist.cons_cons _,
          fun herrors => congrArg (· + 1) (hlength herrors)⟩
        rw [updateMultiple, bind_ok hcatch, bind_ok hrest]
        rfl
      · have hcatch : Prog.catchException (do
            let _ ← updateRecord (now 0) record
            return none) (fun what => pure (some what)) table = .ok (some what) table := by
          rw [Prog.catchException, bind_error hrun]
          rfl
        obtain ⟨errors, table', ops, hrest, hkeeps', hissued, hsublist, -⟩ :=
          ih h (fun n => now (n + 1)) hnodup hothers
        refine ⟨what :: errors, table', ops, ?_, hkeeps', hissued.later, hsublist.cons _,
          fun herrors => absurd herrors (List.cons_ne_nil _ _)⟩
        rw [updateMultiple, bind_ok hcatch, bind_ok hrest]
        rfl

/-! ## Deleting -/

theorem Keeps.run_deleteMultiple {records : List Record} (h : table.Keeps columns timeline)
    (now : Nat → Track.Time) (hnodup : (records.map Record.id).Nodup)
    (hrecords : ∀ record ∈ records, table.IsRecord timeline.rows record) :
    ∃ table' ops, deleteMultiple now records table = .ok () table' ∧
      table'.Keeps columns (timeline.pushAll ops) ∧ Timeline.Issued now RowOp.IsDelete ops ∧
      (ops.filterMap fun op => op.2.target) = records.map Record.id ∧ ops.length = records.length := by
  induction records generalizing table timeline now with
  | nil => exact ⟨table, [], rfl, h, Timeline.issued_nil, rfl, rfl⟩
  | cons record records ih =>
      rw [List.map_cons, List.nodup_cons] at hnodup
      obtain ⟨hfresh, hnodup⟩ := hnodup
      obtain ⟨hrecord, hothers⟩ := List.forall_mem_cons.1 hrecords
      obtain ⟨⟨stack, htracks, hback⟩, hcolumns⟩ := h
      obtain ⟨table₁, hrun, htracks', -, hschema, haddresses⟩ := htracks.run_deleteRecord (now 0) hrecord
      have hkeeps : table₁.Keeps columns (timeline.push (now 0, .delete record.id)) :=
        keeps_push (.delete record.id) ⟨now 0, .insert record⟩ hback (Rows.undo_delete hrecord.row)
          htracks' (hschema ▸ hcolumns)
      have hstill : ∀ other ∈ records,
          table₁.IsRecord (timeline.push (now 0, .delete record.id)).rows other := by
        intro other hmem
        have hne : other.id ≠ record.id := fun heq => hfresh (heq ▸ List.mem_map_of_mem hmem)
        constructor
        · exact (Rows.set_other _ hne).trans (hothers other hmem).row
        · rw [haddresses other.id hne]
          exact (hothers other hmem).address
      obtain ⟨table', ops, hrest, hkeeps', hissued, htargets, hlength⟩ :=
        ih hkeeps (fun n => now (n + 1)) hnodup hstill
      refine ⟨table', (now 0, .delete record.id) :: ops, ?_, hkeeps', hissued.cons ⟨_, rfl⟩,
        congrArg (record.id :: ·) htargets, congrArg (· + 1) hlength⟩
      rw [deleteMultiple, bind_ok hrun]
      exact hrest

/-! ## Going back -/

theorem Keeps.run_revert (h : table.Keeps columns timeline) (time : List UInt8) :
    ∃ table', Table.revert time table = .ok () table' ∧ table'.Keeps columns (timeline.back time) := by
  obtain ⟨⟨stack, htracks, hback⟩, hcolumns⟩ := h
  obtain ⟨table', hrun, htracks', hcolumns', -⟩ := htracks.run_revert time
  obtain ⟨hback', hrows⟩ := hback.back time
  rw [hrows] at htracks'
  exact ⟨table', hrun, ⟨_, htracks', hback'⟩, hcolumns'.trans hcolumns⟩

/-- No moment has more ids than the last. -/
theorem Keeps.count_back_le (h : table.Keeps columns timeline) (time : List UInt8) :
    (timeline.back time).rows.count ≤ timeline.rows.count := by
  obtain ⟨⟨stack, htracks, hback⟩, hcolumns⟩ := h
  rw [← (hback.back time).2]
  exact count_undoAll_le _ _

end Table

/-! ## Statements -/

namespace Executor

variable {columns : List Column} {table : Table} {timeline : Timeline} {arrival : Arrival}
  {env : ExecutorEnv} {quotient : Quotient}

/-- The statement has had one of its effects, with this response. -/
def Reached (columns : List Column) (arrival : Arrival) (timeline : Timeline) (response : Response)
    (table : Table) : Prop :=
  ∃ timeline', Timeline.Effect arrival timeline response timeline' ∧ table.Keeps columns timeline' ∧
    timeline'.rows.count ≤ timeline.rows.count + arrival.inserts

/-- The program of a statement has one of its effects, whether it returns or throws. -/
def Reaches (columns : List Column) (arrival : Arrival) (timeline : Timeline) (x : Prog Table Response)
    (table : Table) : Prop :=
  x.Post table (Reached columns arrival timeline)
    (fun e table' => ∃ what, e = .exception what ∧ Reached columns arrival timeline (.error what) table')

/-- The literals of the rows are all good, or one of them throws. -/
theorem onStrings_rowsValues {values : List (List Literal)} (h : table.strings.Closed) :
    (Table.onStrings (rowsValues values)).Post table
      (fun rows table' => table.Grows table' ∧ rows.length = values.length ∧
        ∀ row ∈ rows, ∀ value ∈ row, table'.strings.toInterner.Knows value)
      (fun e table' => (∃ what, e = .exception what) ∧ table.Grows table' ∧ values ≠ []) := by
  cases values with
  | nil => exact ⟨refl_of Table.Grows table, rfl, fun _ hrow => (nomatch hrow)⟩
  | cons literals values =>
      refine (Table.onStrings_along (rowsValues_along _ h)).post ?_ ?_
      · intro rows t hgrows hrows
        exact ⟨hgrows, hrows⟩
      · intro e t he hgrows
        exact ⟨he, hgrows, List.cons_ne_nil _ _⟩

theorem reaches_insert (h : table.Keeps columns timeline) (hnarrow : Narrow columns) {ref : TableRef}
    {names : List String} {values : List (List Literal)}
    (hcount : timeline.rows.count + values.length < 2 ^ 32) :
    Reaches columns ⟨env, .insert ref names values⟩ timeline (executeInsert env names values) table := by
  have hone : ∀ op, RowOp.IsInsert op → ∀ rows : Rows, (op.apply rows).count ≤ rows.count + 1 := by
    rintro _ ⟨fields, rfl⟩ rows
    exact Nat.le_refl _
  rw [Reaches, executeInsert]
  refine Post.bind (Post.mono (onStrings_rowsValues h.represents.strings) ?_ ?_)
  · rintro rows t ⟨hgrows, hlength, hknown⟩
    rw [← hlength] at hcount
    refine Post.bind (Post.mono ((h.grows hgrows).insertMultiple_post hnarrow hcount env.now names hknown)
      ?_ ?_)
    · rintro records t' ⟨ops, hissued, hops, hkeeps⟩
      rw [hlength] at hops
      refine ⟨_, ⟨ops, hissued.batch_of_inserts, rfl, .inl ⟨congrArg _ hops.symm, hops⟩⟩, hkeeps, ?_⟩
      have hle := @Timeline.Issued.count_le _ _ _ _ timeline hissued hone
      rwa [Nat.mul_one, hops] at hle
    · rintro e t' ⟨⟨what, rfl⟩, ops, hissued, hops, hkeeps⟩
      rw [hlength] at hops
      refine ⟨what, rfl, _, ⟨ops, hissued.batch_of_inserts, rfl, .inr ⟨rfl, hops⟩⟩, hkeeps, ?_⟩
      have hle := @Timeline.Issued.count_le _ _ _ _ timeline hissued hone
      rw [Nat.mul_one] at hle
      exact hle.trans (Nat.add_le_add_left hops.le _)
  · rintro e t ⟨⟨what, rfl⟩, hgrows, hsome⟩
    exact ⟨what, rfl, timeline, ⟨[], Timeline.issued_nil.batch_of_inserts, rfl,
      .inr ⟨rfl, List.length_pos_iff.2 hsome⟩⟩, h.grows hgrows, Nat.le_add_right _ _⟩

/-- Operations on rows that there are give no ids. -/
theorem count_le_of_targets {now : Nat → Track.Time} {kind : RowOp → Prop}
    {ops : List (Track.Time × RowOp)} (hissued : Timeline.Issued now kind ops)
    (hkind : ∀ op, kind op → RowOp.IsUpdate op ∨ RowOp.IsDelete op) (n : Nat) :
    (timeline.pushAll ops).rows.count ≤ timeline.rows.count + n := by
  have hnone : ∀ op, kind op → ∀ rows : Rows, (op.apply rows).count ≤ rows.count + 0 := by
    intro op hop rows
    rcases hkind op hop with ⟨id, fields, rfl⟩ | ⟨id, rfl⟩
    · exact Nat.le_refl _
    · exact Nat.le_refl _
  have hle := @Timeline.Issued.count_le _ _ _ _ timeline hissued hnone
  omega

theorem reaches_update (h : table.Keeps columns timeline) (hnarrow : Narrow columns) {ref : TableRef}
    {assignments : List (String × Expression)} {whereClause : Option Condition} :
    Reaches columns ⟨env, .update ref assignments whereClause⟩ timeline
      (executeUpdate env assignments whereClause) table := by
  have hkind : ∀ op, RowOp.IsUpdate op → RowOp.IsUpdate op ∨ RowOp.IsDelete op := fun _ => .inl
  have hstopped : ∀ {what : String} {t : Table}, t.Keeps columns timeline → Reached columns
      ⟨env, .update ref assignments whereClause⟩ timeline (.error what) t := by
    intro what t hkeeps
    exact ⟨timeline, ⟨[], ⟨Timeline.issued_nil, by simp, by simp⟩, rfl, .inr ⟨rfl, trivial⟩⟩, hkeeps,
      Nat.le_add_right _ _⟩
  rw [Reaches, executeUpdate]
  refine Post.bind ((matchingRecords_are env h.represents whereClause).post ?_ ?_)
  · rintro records t hgrows ⟨-, hrecords, hnodup⟩
    have hkeeps := h.grows hgrows
    refine Post.bind ((assignAll_along hkeeps.represents assignments hrecords).post ?_ ?_)
    · rintro changed t' hgrows' ⟨hids, hchanged⟩
      have hkeeps' := hkeeps.grows hgrows'
      have hrecords' := AreRecords.grows hrecords hgrows'
      have hall : ∀ record ∈ changed, Changed t' timeline.rows record := by
        intro record hmem
        obtain ⟨old, hold, hreassigned⟩ := hchanged record hmem
        have hrow : timeline.rows.row record.id = some old.fields := by
          rw [hreassigned.id]
          exact (hrecords' old hold).row
        refine ⟨Option.isSome_iff_exists.2 ⟨_, hrow⟩, ⟨?_, ?_⟩, hreassigned.known⟩
        · exact hreassigned.length.trans
            (hkeeps'.represents.sound.allowed _ _ (hrecords' old hold).row).length
        · rw [hreassigned.address, hreassigned.id]
          exact (hrecords' old hold).address
      obtain ⟨errors, t₁, ops, hrun, hlast, hissued, hsublist, hlength⟩ :=
        hkeeps'.run_updateMultiple hnarrow env.now (hids ▸ hnodup) hall
      have hbatch : Timeline.Batch env.now timeline.rows RowOp.IsUpdate ops := by
        refine ⟨hissued, fun id hid => ?_, (hids ▸ hnodup).sublist hsublist⟩
        obtain ⟨record, hrecord, rfl⟩ := List.mem_map.1 (hsublist.subset hid)
        exact (hall record hrecord).row
      have hle := @count_le_of_targets timeline _ _ _ hissued hkind 0
      refine Post.bind (Post.ok hrun ?_)
      cases errors with
      | nil =>
          exact Post.pure ⟨_, ⟨ops, hbatch, rfl, .inl ⟨congrArg _ (hlength rfl).symm, trivial⟩⟩, hlast, hle⟩
      | cons error errors =>
          exact Post.throw ⟨error, rfl, _, ⟨ops, hbatch, rfl, .inr ⟨rfl, trivial⟩⟩, hlast, hle⟩
    · rintro e t' ⟨what, rfl⟩ hgrows'
      exact ⟨what, rfl, hstopped (hkeeps.grows hgrows')⟩
  · rintro e t ⟨what, rfl⟩ hgrows
    exact ⟨what, rfl, hstopped (h.grows hgrows)⟩

theorem reaches_delete (h : table.Keeps columns timeline) {ref : TableRef}
    {whereClause : Option Condition} :
    Reaches columns ⟨env, .delete ref whereClause⟩ timeline (executeDelete env whereClause) table := by
  have hkind : ∀ op, RowOp.IsDelete op → RowOp.IsUpdate op ∨ RowOp.IsDelete op := fun _ => .inr
  rw [Reaches, executeDelete]
  refine Post.bind ((matchingRecords_are env h.represents whereClause).post ?_ ?_)
  · rintro records t hgrows ⟨-, hrecords, hnodup⟩
    obtain ⟨t', ops, hrun, hlast, hissued, htargets, hlength⟩ :=
      (h.grows hgrows).run_deleteMultiple env.now hnodup hrecords
    have hbatch : Timeline.Batch env.now timeline.rows RowOp.IsDelete ops := by
      refine ⟨hissued, fun id hid => ?_, htargets ▸ hnodup⟩
      rw [htargets] at hid
      obtain ⟨record, hrecord, rfl⟩ := List.mem_map.1 hid
      rw [(hrecords record hrecord).row]
      rfl
    refine Post.bind (Post.ok hrun (Post.pure ?_))
    exact ⟨_, ⟨ops, hbatch, rfl, .inl ⟨congrArg _ hlength.symm, trivial⟩⟩, hlast,
      count_le_of_targets hissued hkind 0⟩
  · rintro e t ⟨what, rfl⟩ hgrows
    exact ⟨what, rfl, timeline, ⟨[], ⟨Timeline.issued_nil, by simp, by simp⟩, rfl, .inr ⟨rfl, rfl⟩⟩,
      h.grows hgrows, Nat.le_add_right _ _⟩

theorem reaches_select (h : table.Keeps columns timeline) {selectAll : Bool} {items : List SelectItem}
    {ref : TableRef} {whereClause : Option Condition} :
    Reaches columns ⟨env, .select selectAll items ref whereClause⟩ timeline
      (executeSelect env quotient selectAll items whereClause) table := by
  rw [Reaches, executeSelect]
  refine Post.bind ((selectRows_along env quotient h.represents selectAll items whereClause).post ?_ ?_)
  · rintro _ t hgrows ⟨rows, rfl⟩
    exact Post.pure ⟨timeline, ⟨rfl, .inl ⟨rows, rfl⟩⟩, h.grows hgrows, Nat.le_add_right _ _⟩
  · rintro e t ⟨what, rfl⟩ hgrows
    exact ⟨what, rfl, timeline, ⟨rfl, .inr rfl⟩, h.grows hgrows, Nat.le_add_right _ _⟩

theorem reaches_revert (h : table.Keeps columns timeline) {ref : TableRef} {timestamp : String} :
    Reaches columns ⟨env, .revert ref timestamp⟩ timeline (executeRevert timestamp) table := by
  obtain ⟨table', hrun, hkeeps⟩ := h.run_revert (FileStream.textBytes timestamp)
  rw [Reaches, executeRevert]
  refine Post.bind (Post.ok hrun (Post.pure ?_))
  exact ⟨_, ⟨rfl, rfl⟩, hkeeps, (h.count_back_le _).trans (Nat.le_add_right _ _)⟩

/-- Every statement has one of its effects, whether it returns or throws. -/
theorem reaches_execute (h : table.Keeps columns timeline) (hnarrow : Narrow columns)
    (hcount : timeline.rows.count + arrival.inserts < 2 ^ 32) :
    Reaches columns arrival timeline (execute arrival.env quotient arrival.statement) table := by
  obtain ⟨env, statement⟩ := arrival
  have hrefused : ∀ {what : String}, Timeline.Effect ⟨env, statement⟩ timeline (.error what) timeline →
      Reaches columns ⟨env, statement⟩ timeline (return .error what) table := by
    intro what heffect
    exact Post.pure ⟨timeline, heffect, h, Nat.le_add_right _ _⟩
  cases statement with
  | insert ref names values => exact reaches_insert h hnarrow hcount
  | update ref assignments whereClause => exact reaches_update h hnarrow
  | delete ref whereClause => exact reaches_delete h
  | select selectAll items ref whereClause => exact reaches_select h
  | revert ref timestamp => exact reaches_revert h
  | createDatabase name => exact hrefused ⟨rfl, rfl⟩
  | dropDatabase name => exact hrefused ⟨rfl, rfl⟩
  | useDatabase name => exact hrefused ⟨rfl, rfl⟩
  | createUser username password => exact hrefused ⟨rfl, rfl⟩
  | grant permissions scope username => exact hrefused ⟨rfl, rfl⟩
  | revoke permissions scope username => exact hrefused ⟨rfl, rfl⟩
  | createTable ref source => exact hrefused ⟨rfl, rfl⟩
  | dropTable ref => exact hrefused ⟨rfl, rfl⟩

end Executor

/-! ## Runs -/

namespace Table

variable {columns : List Column} {table : Table} {timeline : Timeline} {quotient : Quotient}

/-- The statements insert no more rows than there are ids left. -/
def Room (arrivals : List Arrival) (timeline : Timeline) : Prop :=
  timeline.rows.count + (arrivals.map Arrival.inserts).sum < 2 ^ 32

/-- A table refines its timeline. -/
theorem serve_refines (hnarrow : Narrow columns) :
    Service.Refines (serve quotient) Timeline.Effect (Keeps columns)
      (fun arrivals _ timeline => Room arrivals timeline) where
  step := by
    intro arrival later table timeline hkeeps hroom
    rw [Room, List.map_cons, List.sum_cons] at hroom
    have hreaches : Executor.Reaches columns arrival timeline
        (Executor.execute arrival.env quotient arrival.statement) table :=
      Executor.reaches_execute hkeeps hnarrow (by omega)
    have hnext : ∀ {response t}, Executor.Reached columns arrival timeline response t →
        ∃ timeline', Timeline.Effect arrival timeline response timeline' ∧ t.Keeps columns timeline' ∧
          Room later timeline' := by
      rintro response t ⟨timeline', heffect, hkeeps', hcount⟩
      refine ⟨timeline', heffect, hkeeps', ?_⟩
      rw [Room]
      omega
    unfold serve
    cases hrun : Executor.execute arrival.env quotient arrival.statement table with
    | ok response t =>
        obtain ⟨timeline', hafter⟩ := hnext (hreaches.of_ok hrun)
        exact ⟨response, t, timeline', rfl, hafter⟩
    | error e t =>
        obtain ⟨what, rfl, hreached⟩ := hreaches.of_error hrun
        obtain ⟨timeline', hafter⟩ := hnext hreached
        exact ⟨.error what, t, timeline', rfl, hafter⟩

end Table

end QuasarDB.Storage
