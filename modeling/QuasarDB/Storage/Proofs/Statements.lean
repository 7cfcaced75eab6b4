import QuasarDB.Storage.Proofs.RowRuns

set_option autoImplicit false

/-! # Statements that fail

A statement on a table is a sequence of operations on rows, without a way back. What was written before
an operation threw stays: the rows of an `INSERT` before the first that fails, and every row of an `UPDATE`
whose own update passes. A `DELETE` can only fail while it looks for its rows. -/

namespace QuasarDB.Storage

open Prog Server

/-! ## What a table shows -/

namespace Rows

variable {rows : Rows}

/-- Rows with the values of the records, in their order. -/
def insertAll (rows : Rows) (records : List Record) : Rows :=
  records.foldl (fun rows record => rows.insert record.fields) rows

open Classical in
/-- The rows after those of the updates that are allowed where their turn comes. -/
noncomputable def updateEach (schema : Schema) (rows : Rows) (records : List Record) : Rows :=
  records.foldl (fun rows record =>
    if schema.Allows record.fields ∧ rows.Admits schema record.id record.fields then
      rows.set record.id (some record.fields)
    else rows) rows

/-- An id that no row has does not show. -/
theorem list_count_succ (h : rows.row rows.nextId = none) :
    Rows.list { rows with count := rows.count + 1 } = rows.list := by
  have hids : Rows.ids { rows with count := rows.count + 1 } = rows.ids ++ [rows.nextId] := by
    rw [ids, List.range_succ, List.map_append]
    rfl
  rw [list, hids, List.filterMap_append]
  simp [list, h]

end Rows

namespace Table

variable {table table' : Table} {rows rows' : Rows} {stack : List Entry}

/-- A record as a row. -/
def rowOf (record : Record) : UInt32 × List Value := (record.id, record.fields)

/-- `records` and `find_by_index` answer with these rows. -/
structure Shows (table : Table) (rows : Rows) : Prop where
  records : ∃ records, Table.records table = .ok records table ∧ records.map rowOf = rows.list
  findByIndex : ∀ (i : Nat) (column : Column) (value : Value), table.schema.columns[i]? = some column →
    column.looksUp value = true →
    ∃ records, Table.findByIndex column.name value table = .ok (some records) table ∧
      records.map rowOf = rows.list.filter fun row => row.2[i]? = some value

theorem map_rowOf_recordsOf : (table.recordsOf rows).map rowOf = rows.list := by
  rw [recordsOf, List.map_map]
  exact List.map_id _

theorem columnIndex_name {schema : Schema} (hnames : schema.NamesDiffer) {i : Nat} {column : Column}
    (hcolumn : schema.columns[i]? = some column) : schema.columnIndex column.name = some i := by
  obtain ⟨hlt, hget⟩ := List.getElem?_eq_some_iff.1 hcolumn
  rw [Schema.columnIndex, List.findIdx?_eq_some_iff_getElem]
  refine ⟨hlt, by simp [hget], fun j hj heq => ?_⟩
  have hother : schema.columns[j]? = some schema.columns[j] := List.getElem?_eq_getElem (by omega)
  have hij := hnames.eq hother hcolumn (by simpa using heq)
  omega

theorem Represents.shows (h : table.Represents rows) : table.Shows rows where
  records := ⟨_, h.run_records, map_rowOf_recordsOf⟩
  findByIndex := fun i column value hcolumn hlooks => by
    refine ⟨_, (h.run_findByIndex (columnIndex_name h.schema.names hcolumn) hcolumn).trans
      (by rw [if_pos hlooks]), ?_⟩
    rw [← @map_rowOf_recordsOf table rows, List.filter_map]
    rfl

theorem Shows.of_list (h : table.Shows rows) (hlist : rows'.list = rows.list) : table.Shows rows' where
  records := hlist ▸ h.records
  findByIndex := hlist ▸ h.findByIndex

/-! ## Finding records -/

theorem Grows.represents (h : table.Represents rows) (hgrows : table.Grows table') :
    table'.Represents rows := by
  obtain ⟨strings, hgrows, rfl⟩ := hgrows
  exact h.withStrings hgrows.keeps (hgrows.closed h.strings)

theorem Grows.tracks (h : table.Tracks rows stack) (hgrows : table.Grows table') :
    table'.Tracks rows stack := by
  obtain ⟨strings, hgrows, rfl⟩ := hgrows
  exact h.grows hgrows

theorem Grows.recordsOf (hgrows : table.Grows table') : table'.recordsOf rows = table.recordsOf rows := by
  obtain ⟨strings, -, rfl⟩ := hgrows
  rfl

theorem findByIndex_along (h : table.Represents rows) (columnName : String) (value : Value) :
    Along Throws Grows (findByIndex columnName value) table fun found _ =>
      ∀ records, found = some records → records.Sublist (table.recordsOf rows) := by
  cases hindex : table.schema.columnIndex columnName with
  | none => exact Post.error (Represents.run_find_of_none hindex) ⟨⟨_, rfl⟩, refl_of Grows table⟩
  | some i =>
      have hlt : i < table.schema.columns.length := (List.findIdx?_eq_some_iff_findIdx_eq.1 hindex).1
      refine Post.ok (h.run_findByIndex hindex (List.getElem?_eq_getElem hlt))
        ⟨refl_of Grows table, fun records hfound => ?_⟩
      split at hfound
      · obtain rfl := Option.some.inj hfound
        exact List.filter_sublist
      · cases hfound

end Table

namespace Executor

variable {table table' : Table} {rows : Rows} {stack : List Entry} (env : ExecutorEnv)

theorem lookup_along (h : table.Represents rows) (column value : Expression) :
    Along Throws Table.Grows (lookup column value) table fun found _ =>
      ∀ records, found = some records → records.Sublist (table.recordsOf rows) := by
  unfold lookup
  split
  · refine (Table.onStrings_along (literalValue_along _ h.strings)).bind fun value t hgrows _ => ?_
    rw [← hgrows.recordsOf]
    exact Table.findByIndex_along (hgrows.represents h) _ value
  · exact Along.pure (by simp)

/-- An index gives some of the records of the table. -/
theorem indexedRecords_along (h : table.Represents rows) (condition : Condition) :
    Along Throws Table.Grows (indexedRecords condition) table fun found _ =>
      ∀ records, found = some records → records.Sublist (table.recordsOf rows) := by
  induction condition generalizing table with
  | and left right ihleft ihright =>
      rw [indexedRecords]
      refine (ihleft h).bind fun found t hgrows hfound => ?_
      cases found with
      | some records => exact Along.pure fun records' heq => hfound records' heq
      | none =>
          dsimp only
          rw [← hgrows.recordsOf]
          exact ihright (hgrows.represents h)
  | comparison left op right =>
      cases op with
      | equal =>
          rw [indexedRecords]
          refine (lookup_along h left right).bind fun found t hgrows hfound => ?_
          cases found with
          | some records => exact Along.pure fun records' heq => hfound records' heq
          | none =>
              dsimp only
              rw [← hgrows.recordsOf]
              exact lookup_along (hgrows.represents h) right left
      | _ => exact Along.pure (by simp)
  | or left right ihleft ihright => exact Along.pure (by simp)
  | between value lower upper => exact Along.pure (by simp)
  | like value pattern => exact Along.pure (by simp)

theorem recordsFor_along (h : table.Represents rows) (condition : Condition) :
    Along Throws Table.Grows (recordsFor condition) table fun records _ =>
      records.Sublist (table.recordsOf rows) := by
  refine (indexedRecords_along h condition).bind fun found t hgrows hfound => ?_
  cases found with
  | some records => exact Along.pure (hfound records rfl)
  | none =>
      refine Post.ok (hgrows.represents h).run_records ⟨refl_of Table.Grows t, ?_⟩
      rw [hgrows.recordsOf]

theorem filterRecords_along (h : table.Represents rows) (condition : Condition) {records : List Record}
    (hrecords : ∀ record ∈ records, table.IsRecord rows record) :
    Along Throws Table.Grows (filterRecords env condition records) table fun found _ =>
      found.Sublist records := by
  induction records generalizing table with
  | nil => exact Along.pure (List.Sublist.refl _)
  | cons record records ih =>
      obtain ⟨hrecord, hothers⟩ := List.forall_mem_cons.1 hrecords
      refine Along.get_bind ?_
      refine (Table.onStrings_along (evaluateCondition_along env.regexMatch condition h.strings
        (h.sound.allowed _ _ hrecord.row).length (h.sound.known _ _ hrecord.row))).bind ?_
      rintro result _ ⟨strings, hgrows, rfl⟩ -
      refine (ih (h.withStrings hgrows.keeps (hgrows.closed h.strings)) fun r hr =>
        ⟨(hothers r hr).row, (hothers r hr).address⟩).bind fun found t _ hfound => Along.pure ?_
      split
      · exact hfound.cons_cons record
      · exact hfound.cons record

/-- The records that a statement looks for are some of those of the table. -/
theorem matchingRecords_along (h : table.Represents rows) (whereClause : Option Condition) :
    Along Throws Table.Grows (matchingRecords env whereClause) table fun records _ =>
      records.Sublist (table.recordsOf rows) := by
  cases whereClause with
  | none => exact Post.ok h.run_records ⟨refl_of Table.Grows table, List.Sublist.refl _⟩
  | some condition =>
      refine (recordsFor_along h condition).bind fun records t hgrows hrecords => ?_
      have hrep := hgrows.represents h
      refine (filterRecords_along env hrep condition fun record hrecord => ?_).mono
        fun found _ _ hfound => hfound.trans hrecords
      rw [← hrep.mem_recordsOf, hgrows.recordsOf]
      exact hrecords.subset hrecord

theorem assignAll_along (h : table.Represents rows) (assignments : List (String × Expression))
    {records : List Record} (hrecords : ∀ record ∈ records, table.IsRecord rows record) :
    Along Throws Table.Grows (assignAll assignments records) table fun changed table' =>
      changed.map Record.id = records.map Record.id ∧ ∀ record' ∈ changed,
        ∃ record ∈ records, record.Reassigned record' table'.strings.toInterner := by
  induction records generalizing table with
  | nil => exact Along.pure ⟨rfl, by simp⟩
  | cons record records ih =>
      obtain ⟨hrecord, hothers⟩ := List.forall_mem_cons.1 hrecords
      refine Along.get_bind ?_
      refine (Table.onStrings_along (assign_along assignments h.strings
        (h.sound.allowed _ _ hrecord.row).length (h.sound.known _ _ hrecord.row))).bind ?_
      rintro record' _ ⟨strings, hgrows, rfl⟩ hrecord'
      refine (ih (h.withStrings hgrows.keeps (hgrows.closed h.strings)) fun r hr =>
        ⟨(hothers r hr).row, (hothers r hr).address⟩).bind ?_
      rintro changed _ ⟨strings', hgrows', rfl⟩ ⟨hids, hchanged⟩
      refine Along.pure ⟨by rw [List.map_cons, List.map_cons, hids, hrecord'.id],
        List.forall_mem_cons.2 ⟨⟨record, by simp, ?_⟩, fun other hother => ?_⟩⟩
      · exact ⟨hrecord'.id, hrecord'.address, hrecord'.length, hgrows'.knows hrecord'.known⟩
      · obtain ⟨record, hmem, hreassigned⟩ := hchanged other hother
        exact ⟨record, List.mem_cons_of_mem _ hmem, hreassigned⟩

/-- What an `UPDATE` does before it writes: records of different rows, with other values. -/
def changes (assignments : List (String × Expression)) (whereClause : Option Condition) :
    Prog Table (List Record) := do
  assignAll assignments (← matchingRecords env whereClause)

/-- A record that can be tried to update. -/
structure Changed (table : Table) (rows : Rows) (record : Record) : Prop where
  row : (rows.row record.id).isSome = true
  candidate : table.Candidate record
  known : ∀ value ∈ record.fields, table.strings.toInterner.Knows value

/-- It still can after the update of another. -/
theorem Changed.after_update {record other : Record} (h : Changed table rows other)
    (hne : other.id ≠ record.id) (hstrings : table'.strings = table.strings)
    (hschema : table'.schema = table.schema)
    (haddresses : ∀ id, id ≠ record.id → table'.idToAddr.lookup id = table.idToAddr.lookup id) :
    Changed table' (rows.set record.id (some record.fields)) other := by
  refine ⟨?_, ⟨?_, ?_⟩, ?_⟩
  · rw [Rows.set_other _ hne]
    exact h.row
  · rw [hschema]
    exact h.candidate.length
  · rw [haddresses other.id hne]
    exact h.candidate.address
  · rw [hstrings]
    exact h.known

theorem changes_along (h : table.Tracks rows stack) (assignments : List (String × Expression))
    (whereClause : Option Condition) :
    Along Throws Table.Grows (changes env assignments whereClause) table fun changed table' =>
      (changed.map Record.id).Nodup ∧ ∀ record ∈ changed, Changed table' rows record := by
  refine (matchingRecords_along env h.toRepresents whereClause).bind fun records t hgrows hrecords => ?_
  have htracks := hgrows.tracks h
  have hall : ∀ record ∈ records, t.IsRecord rows record := by
    intro record hrecord
    rw [← htracks.mem_recordsOf, hgrows.recordsOf]
    exact hrecords.subset hrecord
  refine (assignAll_along htracks.toRepresents assignments hall).mono ?_
  rintro changed _ ⟨strings, hgrows', rfl⟩ ⟨hids, hchanged⟩
  refine ⟨?_, fun record' hrecord' => ?_⟩
  · rw [hids]
    exact h.nodup_ids_recordsOf.sublist (hrecords.map Record.id)
  · obtain ⟨record, hrecord, hreassigned⟩ := hchanged record' hrecord'
    have hold := hall record hrecord
    have hrow : rows.row record'.id = some record.fields := by rw [hreassigned.id, hold.row]
    refine ⟨Option.isSome_iff_exists.2 ⟨_, hrow⟩, ?_, hreassigned.known⟩
    exact ⟨hreassigned.length.trans (htracks.sound.allowed _ _ hold.row).length, by
      rw [hreassigned.address, hreassigned.id]
      exact hold.address⟩

/-! ## Changing them -/

/-- The records are tried one after the other, and those that pass are updated. -/
theorem run_updateMultiple (now : Nat → Track.Time) {changed : List Record}
    (h : table.Tracks rows stack)
    (hnodup : (changed.map Record.id).Nodup) (hchanged : ∀ record ∈ changed, Changed table rows record)
    (hsize : ∀ record ∈ changed, (rowBytes record.fields).length ≤ TablePage.maxRecordSize) :
    ∃ errors table' stack', Table.updateMultiple now changed table = .ok errors table' ∧
      table'.Tracks (rows.updateEach table.schema changed) stack' := by
  induction changed generalizing table rows stack now with
  | nil => exact ⟨[], table, stack, rfl, h⟩
  | cons record changed ih =>
      rw [List.map_cons, List.nodup_cons] at hnodup
      obtain ⟨hfresh, hnodup⟩ := hnodup
      obtain ⟨hrecord, hothers⟩ := List.forall_mem_cons.1 hchanged
      obtain ⟨hfits, hfit⟩ := List.forall_mem_cons.1 hsize
      obtain ⟨fields, hrow⟩ := Option.isSome_iff_exists.1 hrecord.row
      rcases h.run_updateRecord (now 0) hrow hrecord.candidate hrecord.known with
        ⟨hallows, hadmits, hupdate⟩ | ⟨⟨what, herror⟩, hnot⟩
      · obtain ⟨address, table₁, hrun, htracks, hstrings, hschema, haddresses⟩ := hupdate hfits
        have hcatch : Prog.catchException (do
            let _ ← Table.updateRecord (now 0) record
            return none) (fun what => pure (some what)) table = .ok none table₁ := by
          rw [Prog.catchException, bind_ok hrun]
          rfl
        have hstill : ∀ other ∈ changed,
            Changed table₁ (rows.set record.id (some record.fields)) other := fun other hmem =>
          (hothers other hmem).after_update (fun heq => hfresh (heq ▸ List.mem_map_of_mem hmem))
            hstrings hschema haddresses
        obtain ⟨errors, table', stack', hrest, htracks'⟩ :=
          ih (fun n => now (n + 1)) htracks hnodup hstill hfit
        refine ⟨errors, table', stack', ?_, ?_⟩
        · rw [Table.updateMultiple, bind_ok hcatch, bind_ok hrest]
          rfl
        · rw [Rows.updateEach, List.foldl_cons, if_pos ⟨hallows, hadmits⟩]
          rw [hschema] at htracks'
          exact htracks'
      · have hcatch : Prog.catchException (do
            let _ ← Table.updateRecord (now 0) record
            return none) (fun what => pure (some what)) table = .ok (some what) table := by
          rw [Prog.catchException, bind_error herror]
          rfl
        obtain ⟨errors, table', stack', hrest, htracks'⟩ :=
          ih (fun n => now (n + 1)) h hnodup hothers hfit
        refine ⟨what :: errors, table', stack', ?_, ?_⟩
        · rw [Table.updateMultiple, bind_ok hcatch, bind_ok hrest]
          rfl
        · rw [Rows.updateEach, List.foldl_cons, if_neg hnot]
          exact htracks'

/-- Records of different rows are deleted without fail. -/
theorem run_deleteMultiple (now : Nat → Track.Time) {records : List Record}
    (h : table.Tracks rows stack)
    (hnodup : (records.map Record.id).Nodup)
    (hrecords : ∀ record ∈ records, table.IsRecord rows record) :
    ∃ table', Table.deleteMultiple now records table = .ok () table' := by
  induction records generalizing table rows stack now with
  | nil => exact ⟨table, rfl⟩
  | cons record records ih =>
      rw [List.map_cons, List.nodup_cons] at hnodup
      obtain ⟨hfresh, hnodup⟩ := hnodup
      obtain ⟨hrecord, hothers⟩ := List.forall_mem_cons.1 hrecords
      obtain ⟨table₁, hrun, htracks, -, -, haddresses⟩ := h.run_deleteRecord (now 0) hrecord
      have hstill : ∀ other ∈ records, table₁.IsRecord (rows.set record.id none) other := by
        intro other hmem
        have hne : other.id ≠ record.id := fun heq => hfresh (heq ▸ List.mem_map_of_mem hmem)
        refine ⟨?_, ?_⟩
        · rw [Rows.set_other _ hne]
          exact (hothers other hmem).row
        · rw [haddresses other.id hne]
          exact (hothers other hmem).address
      obtain ⟨table', hrest⟩ := ih (fun n => now (n + 1)) htracks hnodup hstill
      refine ⟨table', ?_⟩
      rw [Table.deleteMultiple, bind_ok hrun]
      exact hrest

/-- The rows before the first that throws are inserted, and it is not. -/
theorem insertMultiple_error {now : Nat → Track.Time} {columnNames : List String}
    {values : List (List Value)} {failure : Failure} (h : table.Tracks rows stack)
    (hcount : rows.count + values.length < 2 ^ 32)
    (hknown : ∀ row ∈ values, ∀ value ∈ row, table.strings.toInterner.Knows value)
    (hrun : Table.insertMultiple now columnNames values table = .error failure table') :
    ∃ front row back records table₁, values = front ++ row :: back ∧
      Table.insertMultiple now columnNames front table = .ok records table₁ ∧
      Table.insertRecord (now front.length) row columnNames table₁ = .error failure table' ∧
      table'.Shows (rows.insertAll records) := by
  induction values generalizing table rows stack now with
  | nil => cases hrun
  | cons row values ih =>
      obtain ⟨hrow, hothers⟩ := List.forall_mem_cons.1 hknown
      rw [List.length_cons] at hcount
      have hpost := h.insertRecord_post (by omega) (now 0) columnNames hrow
      rw [Table.insertMultiple] at hrun
      cases hinsert : Table.insertRecord (now 0) row columnNames table with
      | error e t =>
          rw [bind_error hinsert] at hrun
          cases hrun
          refine ⟨[], row, values, [], table, rfl, rfl, hinsert, ?_⟩
          rcases hpost.of_error hinsert with ⟨hgrows, -⟩ | ⟨-, -, -, -, hrep⟩
          · exact (hgrows.represents h.toRepresents).shows
          · exact hrep.shows.of_list (Rows.list_count_succ (h.sound.row_nextId (by omega))).symm
      | ok record t =>
          obtain ⟨hgrows, -, -, htracks⟩ := hpost.of_ok hinsert
          rw [bind_ok hinsert] at hrun
          cases hrest : Table.insertMultiple (fun n => now (n + 1)) columnNames values t with
          | ok records t' =>
              rw [bind_ok hrest] at hrun
              cases hrun
          | error e t' =>
              rw [bind_error hrest] at hrun
              cases hrun
              have hcount' : (rows.insert record.fields).count + values.length < 2 ^ 32 := by
                change rows.count + 1 + values.length < 2 ^ 32
                omega
              obtain ⟨front, row', back, records, table₁, rfl, hfront, herror, hshows⟩ := ih htracks hcount'
                (fun r hr => hgrows.knows (hothers r hr)) hrest
              refine ⟨row :: front, row', back, record :: records, table₁, rfl, ?_, herror, hshows⟩
              rw [Table.insertMultiple, bind_ok hinsert, bind_ok hfront]
              rfl

/-! ## What an error leaves -/

theorem executeInsert_error (h : table.Tracks rows stack) {columns : List String}
    {values : List (List Literal)} {failure : Failure} (hcount : rows.count + values.length < 2 ^ 32)
    (hrun : executeInsert env columns values table = .error failure table') :
    ((∃ e strings, rowsValues values table.strings = .error e strings) ∧ table'.Shows rows) ∨
      ∃ front row back records table₁ table₂,
        Table.onStrings (rowsValues values) table = .ok (front ++ row :: back) table₁ ∧
        Table.insertMultiple env.now columns front table₁ = .ok records table₂ ∧
        Table.insertRecord (env.now front.length) row columns table₂ = .error failure table' ∧
        table'.Shows (rows.insertAll records) := by
  have hvalues := Table.onStrings_along (rowsValues_along values h.strings)
  rw [executeInsert] at hrun
  cases hliterals : Table.onStrings (rowsValues values) table with
  | error e t =>
      rw [bind_error hliterals] at hrun
      cases hrun
      obtain ⟨-, hgrows⟩ := hvalues.of_error hliterals
      refine .inl ⟨?_, (hgrows.represents h.toRepresents).shows⟩
      rw [Table.onStrings, run_on] at hliterals
      cases hrows : rowsValues values table.strings with
      | ok a strings =>
          rw [hrows] at hliterals
          cases hliterals
      | error e' strings => exact ⟨e', strings, rfl⟩
  | ok made t =>
      obtain ⟨hgrows, hlength, hknown⟩ := hvalues.of_ok hliterals
      rw [bind_ok hliterals] at hrun
      cases hinsert : Table.insertMultiple env.now columns made t with
      | ok records t' =>
          rw [bind_ok hinsert] at hrun
          cases hrun
      | error e t' =>
          rw [bind_error hinsert] at hrun
          cases hrun
          obtain ⟨front, row, back, records, table₂, rfl, hfront, herror, hshows⟩ :=
            insertMultiple_error (hgrows.tracks h) (hlength ▸ hcount) hknown hinsert
          exact .inr ⟨front, row, back, records, t, table₂, rfl, hfront, herror, hshows⟩

theorem executeUpdate_error (h : table.Tracks rows stack) {assignments : List (String × Expression)}
    {whereClause : Option Condition} {failure : Failure}
    (hrun : executeUpdate env assignments whereClause table = .error failure table') :
    (changes env assignments whereClause table = .error failure table' ∧ table'.Shows rows) ∨
      ∃ changed table₁, changes env assignments whereClause table = .ok changed table₁ ∧
        ((∀ record ∈ changed, (rowBytes record.fields).length ≤ TablePage.maxRecordSize) →
          table'.Shows (rows.updateEach table.schema changed)) := by
  have halong := changes_along env h assignments whereClause
  have heq : executeUpdate env assignments whereClause = (do
      let changed ← changes env assignments whereClause
      let errors ← Table.updateMultiple env.now changed
      errors.head?.elim (return rowsAffected "Rows updated" changed.length)
        (fun error => throw (.exception error))) := by
    rw [executeUpdate, changes, bind_assoc]
    refine bind_congr fun records => bind_congr fun changed => bind_congr fun errors => ?_
    cases errors <;> rfl
  rw [heq] at hrun
  cases hchanges : changes env assignments whereClause table with
  | error e t =>
      rw [bind_error hchanges] at hrun
      cases hrun
      obtain ⟨-, hgrows⟩ := halong.of_error hchanges
      exact .inl ⟨rfl, (hgrows.represents h.toRepresents).shows⟩
  | ok changed t =>
      obtain ⟨hgrows, hnodup, hchanged⟩ := halong.of_ok hchanges
      refine .inr ⟨changed, t, rfl, fun hsize => ?_⟩
      have hschema : t.schema = table.schema := by
        obtain ⟨strings, -, rfl⟩ := hgrows
        rfl
      obtain ⟨errors, t', stack', hupdate, htracks⟩ :=
        run_updateMultiple env.now (hgrows.tracks h) hnodup hchanged hsize
      rw [bind_ok hchanges, bind_ok hupdate] at hrun
      rw [hschema] at htracks
      cases errors with
      | nil => cases hrun
      | cons error errors =>
          cases hrun
          exact htracks.shows

theorem executeDelete_error (h : table.Tracks rows stack) {whereClause : Option Condition}
    {failure : Failure} (hrun : executeDelete env whereClause table = .error failure table') :
    table'.Shows rows := by
  have halong := matchingRecords_along env h.toRepresents whereClause
  rw [executeDelete] at hrun
  cases hmatching : matchingRecords env whereClause table with
  | error e t =>
      rw [bind_error hmatching] at hrun
      cases hrun
      obtain ⟨-, hgrows⟩ := halong.of_error hmatching
      exact (hgrows.represents h.toRepresents).shows
  | ok records t =>
      obtain ⟨hgrows, hrecords⟩ := halong.of_ok hmatching
      have htracks := hgrows.tracks h
      obtain ⟨t', hdelete⟩ := run_deleteMultiple env.now htracks
        (h.nodup_ids_recordsOf.sublist (hrecords.map Record.id)) fun record hrecord => by
          rw [← htracks.mem_recordsOf, hgrows.recordsOf]
          exact hrecords.subset hrecord
      rw [bind_ok hmatching, bind_ok hdelete] at hrun
      cases hrun

/-- What a statement leaves when it throws. An `INSERT` leaves the rows before the first that throws, and
    no row if a literal does; an `UPDATE` leaves the rows as they were if it throws before it writes, and
    else with all of its updates that pass; a `DELETE` leaves the rows as they were. -/
theorem execute_error {n : Nat} (h : Table.Run n table rows stack) (hn : n < 2 ^ 32) :
    table.Shows rows ∧
    (∀ columns (values : List (List Literal)) failure table', n + values.length < 2 ^ 32 →
      executeInsert env columns values table = .error failure table' →
      ((∃ e strings, rowsValues values table.strings = .error e strings) ∧ table'.Shows rows) ∨
        ∃ front row back records table₁ table₂,
          Table.onStrings (rowsValues values) table = .ok (front ++ row :: back) table₁ ∧
          Table.insertMultiple env.now columns front table₁ = .ok records table₂ ∧
          Table.insertRecord (env.now front.length) row columns table₂ = .error failure table' ∧
          table'.Shows (rows.insertAll records)) ∧
    (∀ assignments whereClause failure table',
      executeUpdate env assignments whereClause table = .error failure table' →
      (changes env assignments whereClause table = .error failure table' ∧ table'.Shows rows) ∨
        ∃ changed table₁, changes env assignments whereClause table = .ok changed table₁ ∧
          ((∀ record ∈ changed, (rowBytes record.fields).length ≤ TablePage.maxRecordSize) →
            table'.Shows (rows.updateEach table.schema changed))) ∧
    ∀ whereClause failure table', executeDelete env whereClause table = .error failure table' →
      table'.Shows rows := by
  obtain ⟨htracks, hcount⟩ := h.tracks hn
  refine ⟨htracks.shows, fun columns values failure table' hvalues hrun => ?_,
    fun assignments whereClause failure table' hrun => ?_, fun whereClause failure table' hrun => ?_⟩
  · exact executeInsert_error env htracks (by omega) hrun
  · exact executeUpdate_error env htracks hrun
  · exact executeDelete_error env htracks hrun

/-! ## An `INSERT` that stops halfway -/

/-- A table of one indexed column. -/
def keySchema : Schema where
  columns := [{ name := "id", columnType := .int, flags := 3 }]

theorem keySchema_wellFormed : keySchema.WellFormed :=
  ⟨by decide, by decide, rfl, by decide⟩

/-- A clock that stands still. -/
def stillEnv : ExecutorEnv where
  regexMatch := fun _ _ => .ok true
  now := fun _ => ⟨List.replicate Track.timeLen 0, rfl⟩

/-- Two rows with the same value. -/
def twiceOne : List (List Literal) :=
  [[{ literalType := .integer, value := "1" }], [{ literalType := .integer, value := "1" }]]

/-- The records after a statement that has failed. -/
def recordsAfterError (x : Prog Table Core.Response) (table : Table) : Option (List Record) :=
  match x table with
  | .ok _ _ => none
  | .error _ table' =>
      match Table.records table' with
      | .ok records _ => some records
      | .error _ _ => none

theorem error_of_recordsAfterError {x : Prog Table Core.Response} {records : List Record}
    (h : recordsAfterError x table = some records) :
    ∃ failure table', x table = .error failure table' ∧
      ∃ table'', Table.records table' = .ok records table'' := by
  unfold recordsAfterError at h
  split at h
  · cases h
  · rename_i failure table' hrun
    split at h
    · rename_i records' table'' hrecords
      obtain rfl := Option.some.inj h
      exact ⟨failure, table', hrun, table'', hrecords⟩
    · cases h

theorem recordsAfterError_twiceOne :
    recordsAfterError (executeInsert stillEnv [] twiceOne) (Table.new keySchema) =
      some [{ id := 0, fields := [.int 1], address := some ⟨1, 0⟩ }] := by
  decide

theorem execute_error_twiceOne : ∃ failure table',
    executeInsert stillEnv [] twiceOne (Table.new keySchema) = .error failure table' ∧
      ∃ records : List Record, table'.Shows (Rows.empty.insertAll records) := by
  obtain ⟨failure, table', hrun, -⟩ := error_of_recordsAfterError recordsAfterError_twiceOne
  have hinsert := (execute_error stillEnv (Table.Run.new keySchema_wellFormed rfl) (by decide)).2.1
  rcases hinsert [] twiceOne failure table' (by decide) hrun with
    ⟨-, hshows⟩ | ⟨_, _, _, records, _, _, -, -, -, hshows⟩
  · exact ⟨failure, table', hrun, [], hshows⟩
  · exact ⟨failure, table', hrun, records, hshows⟩

/-- The first row stays. -/
theorem executeInsert_keeps_first :
    Table.Run 0 (Table.new keySchema) Rows.empty [] ∧
      Table.records (Table.new keySchema) = .ok [] (Table.new keySchema) ∧
      ∃ failure table', executeInsert stillEnv [] twiceOne (Table.new keySchema) =
          .error failure table' ∧
        ∃ table'', Table.records table' =
          .ok [{ id := 0, fields := [.int 1], address := some ⟨1, 0⟩ }] table'' :=
  ⟨.new keySchema_wellFormed rfl, rfl, error_of_recordsAfterError recordsAfterError_twiceOne⟩

end Executor

end QuasarDB.Storage
